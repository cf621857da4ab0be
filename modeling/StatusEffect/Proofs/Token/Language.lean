import StatusEffect.Proofs.Token.Run
import StatusEffect.Proofs.Text.Class
import StatusEffect.Vocabulary.Core

/-
  The texts that tokens of a kind can have.

  A lexeme has the shape of one of the rules of its mode. From
  this follows, whatever the mode was, which texts the names,
  comparisons and special conditions of a notation can have,
  and that the letter of fire is no element directly behind
  a subject.

  Key definitions include:
    * `isName`
    * `isHashWord`
    * `isCapitalWord`
    * `operators`
    * `Token.WellSpelled`

  Key theorems include:
    * `Token.ReadIn.wellSpelled`
    * `Token.ReadIn.not_fire`
-/

------------------------------------------------------------
-- Languages
------------------------------------------------------------

namespace StatusEffect

open Text

/- A letter or low line, then letters, digits and low lines. -/
def isName (text : String) : Bool :=
  match text.toList with
  | [] => false
  | c :: cs => isNameStart c && cs.all isNameChar

/- A hash sign and one or more letters. -/
def isHashWord (text : String) : Bool :=
  match text.toList with
  | c :: d :: cs =>
      c == '#' && isLetter d && cs.all isLetter
  | _ => false

/- A capital letter and two or more small ones. -/
def isCapitalWord (text : String) : Bool :=
  match text.toList with
  | c :: d :: e :: cs =>
      isUpper c && isLower d && isLower e && cs.all isLower
  | _ => false

/- The operators of comparisons. -/
def operators : List String :=
  ["<", ">", "=", "<=", ">=", "!=", "=="]

namespace Shape

/- One character of each class, then a run of another class. -/
def fits
    (classes : List (Char → Bool))
    (tail : Char → Bool)
    (lexeme : List Char) : Bool :=
  match classes, lexeme with
  | [], cs => cs.all tail
  | _ :: _, [] => false
  | accepts :: classes, c :: cs =>
      accepts c && fits classes tail cs

/- A lexeme is of a shape. -/
def describes
    (shape : Shape)
    (lexeme : List Char) : Bool :=
  fits (shape.head :: shape.body) shape.tail lexeme

/- Taken characters and a run of the tail fit together. -/
theorem fits_of_takeFixed?
    {classes : List (Char → Bool)}
    {tail : Char → Bool}
    {cs fixed rest run : List Char}
    (hTake : takeFixed? classes cs = some (fixed, rest))
    (hRun : run.all tail = true) :
    fits classes tail (fixed ++ run) = true := by
  induction classes generalizing cs fixed with
  | nil =>
      simp only [takeFixed?, Option.some.injEq,
        Prod.mk.injEq] at hTake
      rcases hTake with ⟨rfl, rfl⟩
      exact hRun
  | cons accepts classes ih =>
      cases cs with
      | nil => simp [takeFixed?] at hTake
      | cons c cs =>
          simp only [takeFixed?] at hTake
          split at hTake
          · rename_i hAccepts
            simp only [Option.map_eq_some_iff, Prod.exists,
              Prod.mk.injEq] at hTake
            rcases hTake with ⟨taken, left, hTaken, rfl, rfl⟩
            simp [fits, hAccepts, ih hTaken]
          · simp at hTake

/- What matches a shape is of that shape. -/
theorem describes_of_match?
    {shape : Shape}
    {cs lexeme rest : List Char}
    (hMatch : shape.match? cs = some (lexeme, rest)) :
    shape.describes lexeme = true := by
  simp only [match?, Option.map_eq_some_iff, Prod.exists,
    Prod.mk.injEq] at hMatch
  rcases hMatch with ⟨fixed, left, hTake, rfl, rfl⟩
  exact fits_of_takeFixed? hTake List.all_takeWhile

end Shape

------------------------------------------------------------
-- Rules Behind Lexemes
------------------------------------------------------------

namespace Mode

/- A valid lexeme is of a shape that a rule of its mode has. -/
theorem describes_of_lexeme
    {mode : Mode}
    {c : Char}
    {cs lexeme rest : List Char}
    {kind : TokenKind}
    (hLexeme : mode.lexeme c cs = (kind, lexeme, rest))
    (hValid : kind ≠ .invalid) :
    ∃ rule ∈ mode.rules,
      rule.kind = kind ∧
        ∃ shape ∈ rule.shapes,
          shape.describes lexeme = true := by
  unfold Mode.lexeme at hLexeme
  split at hLexeme
  · rename_i found hFound
    rcases List.exists_of_findSome?_eq_some hFound with
      ⟨rule, hRule, hMatch⟩
    simp only [Rule.match?, Option.map_eq_some_iff,
      hLexeme] at hMatch
    rcases hMatch with ⟨split, hShapes, hSplit⟩
    rcases List.exists_of_findSome?_eq_some hShapes with
      ⟨shape, hShape, hMatch⟩
    simp only [Prod.mk.injEq] at hSplit
    rcases split with ⟨taken, left⟩
    rcases hSplit with ⟨hKind, rfl, rfl⟩
    exact ⟨rule, hRule, hKind, shape, hShape,
      Shape.describes_of_match? hMatch⟩
  · simp only [Prod.mk.injEq] at hLexeme
    exact absurd hLexeme.1.symm hValid

/-
  The shapes of names, comparisons and special conditions,
  which are the same in all modes.
-/
def KnownShapes (rule : Rule) : Prop :=
  match rule.kind with
  | .identifier => rule.shapes = [Shape.name]
  | .comparison => rule.shapes = Shape.comparisons
  | .specialCondition =>
      rule.shapes = [Shape.hashWord] ∨
        rule.shapes =
          [⟨isUpper, [isLower, isLower], isLower⟩]
  | _ => True

/- All rules of all modes have the known shapes. -/
theorem knownShapes_of_mem_rules
    (mode : Mode) :
    ∀ rule ∈ mode.rules, KnownShapes rule := by
  unfold rules
  rw [List.forall_mem_append]
  constructor
  · cases mode <;>
      simp [ownRules, coreRules, conditionRules,
        sectionRules, KnownShapes]
  · simp [sharedRules, KnownShapes]

end Mode

------------------------------------------------------------
-- Texts Of Tokens
------------------------------------------------------------

/- The shape of names describes the names. -/
theorem isName_ofList
    (lexeme : List Char) :
    isName (String.ofList lexeme) =
      Shape.name.describes lexeme := by
  rcases lexeme with _ | ⟨c, cs⟩
  · rfl
  · simp [isName, Shape.describes, Shape.name, Shape.word,
      Shape.fits]

/- The shape of hash words describes the hash words. -/
theorem isHashWord_ofList
    (lexeme : List Char) :
    isHashWord (String.ofList lexeme) =
      Shape.hashWord.describes lexeme := by
  rcases lexeme with _ | ⟨c, _ | ⟨d, cs⟩⟩
  · rfl
  · simp [isHashWord, Shape.describes, Shape.hashWord,
      Shape.signed, Shape.fits]
  · simp [isHashWord, Shape.describes, Shape.hashWord,
      Shape.signed, Shape.fits, Bool.and_assoc]

/- The shape of capital words describes the capital words. -/
theorem isCapitalWord_ofList
    (lexeme : List Char) :
    isCapitalWord (String.ofList lexeme) =
      Shape.describes ⟨isUpper, [isLower, isLower], isLower⟩
        lexeme := by
  rcases lexeme with _ | ⟨c, _ | ⟨d, _ | ⟨e, cs⟩⟩⟩
  · rfl
  · simp [isCapitalWord, Shape.describes, Shape.fits]
  · simp [isCapitalWord, Shape.describes, Shape.fits]
  · simp [isCapitalWord, Shape.describes, Shape.fits,
      Bool.and_assoc]

/- The comparisons describe only operators. -/
theorem mem_operators_of_describes
    {lexeme : List Char}
    {shape : Shape}
    (hShape : shape ∈ Shape.comparisons)
    (hDescribes : shape.describes lexeme = true) :
    String.ofList lexeme ∈ operators := by
  rcases lexeme with _ | ⟨c, _ | ⟨d, _ | ⟨e, cs⟩⟩⟩
  · simp [Shape.describes, Shape.fits] at hDescribes
  · simp only [Shape.comparisons, List.mem_cons,
      List.not_mem_nil, or_false] at hShape
    rcases hShape with rfl | rfl | rfl | rfl | rfl <;>
      simp [Shape.describes, Shape.fits, Shape.literal,
        Shape.one, oneOf] at hDescribes
    rcases hDescribes with rfl | rfl | rfl <;> decide
  · simp only [Shape.comparisons, List.mem_cons,
      List.not_mem_nil, or_false] at hShape
    rcases hShape with rfl | rfl | rfl | rfl | rfl <;>
      simp [Shape.describes, Shape.fits, Shape.literal,
        Shape.one, oneOf] at hDescribes <;>
      rcases hDescribes with ⟨rfl, rfl⟩ <;> decide
  · simp only [Shape.comparisons, List.mem_cons,
      List.not_mem_nil, or_false] at hShape
    rcases hShape with rfl | rfl | rfl | rfl | rfl <;>
      simp [Shape.describes, Shape.fits, Shape.literal,
        Shape.one, oneOf] at hDescribes

namespace Token

/- The text of a token fits its kind. -/
structure WellSpelled (token : Token) : Prop where
  name : token.kind = .identifier → isName token.text = true
  operator :
    token.kind = .comparison → token.text ∈ operators
  condition :
    token.kind = .specialCondition →
      isHashWord token.text = true ∨
        isCapitalWord token.text = true

/- A token is well spelled whatever mode it was read in. -/
theorem ReadIn.wellSpelled
    {token : Token}
    {mode : Mode}
    (hToken : token.ReadIn mode) :
    token.WellSpelled := by
  rcases hToken with
    ⟨c, cs, lexeme, rest, hLexeme, hText, hValid⟩
  rcases Mode.describes_of_lexeme hLexeme hValid with
    ⟨rule, hRule, hKind, shape, hShape, hDescribes⟩
  have hKnown := mode.knownShapes_of_mem_rules rule hRule
  simp only [Mode.KnownShapes, hKind] at hKnown
  constructor
  · intro hName
    simp only [hName] at hKnown
    simp only [hKnown, List.mem_singleton] at hShape
    rw [hText, isName_ofList, ← hShape]
    exact hDescribes
  · intro hOperator
    simp only [hOperator] at hKnown
    rw [hKnown] at hShape
    rw [hText]
    exact mem_operators_of_describes hShape hDescribes
  · intro hCondition
    simp only [hCondition] at hKnown
    rcases hKnown with hHash | hCapital
    · simp only [hHash, List.mem_singleton] at hShape
      left
      rw [hText, isHashWord_ofList, ← hShape]
      exact hDescribes
    · simp only [hCapital, List.mem_singleton] at hShape
      right
      rw [hText, isCapitalWord_ofList, ← hShape]
      exact hDescribes

/- Directly behind a subject no element is fire. -/
theorem ReadIn.not_fire
    {token : Token}
    (hToken : token.ReadIn .opening)
    (hElement : token.kind = .element) :
    Vocabulary.ofCode? token.text ≠ some Element.fire := by
  intro hFire
  have hText : token.text = "F" := by
    have hFound := List.find?_some hFire
    exact (beq_iff_eq.mp hFound).symm
  rcases hToken with
    ⟨c, cs, lexeme, rest, hLexeme, hSame, _⟩
  have hAppend := Mode.opening.append_lexeme c cs
  have hChars : lexeme = ['F'] := by
    rw [← String.toList_ofList (l := lexeme), ← hSame, hText]
    rfl
  rw [hLexeme, hChars] at hAppend
  simp only [List.cons_append, List.nil_append,
    List.cons.injEq] at hAppend
  rcases hAppend with ⟨rfl, rfl⟩
  have hFull :
      Mode.opening.lexeme 'F' rest =
        (.fullValue, ['F'], rest) := by
    cases rest <;> rfl
  rw [hFull, hElement] at hLexeme
  simp at hLexeme

end Token

end StatusEffect
