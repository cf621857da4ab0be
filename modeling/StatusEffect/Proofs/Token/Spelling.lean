import StatusEffect.Proofs.Token.Language
import StatusEffect.Proofs.Grammar.Justified
import StatusEffect.Proofs.Vocabulary.Lawful

/-
  Patterns of kinds against vocabularies.

  The language of a kind is made of the texts that a pattern
  for it describes, in any mode. Every token has a text in the
  language of its kind. For some kinds this language is just
  the vocabulary that words of the kind are looked up in, so
  that the patterns and the vocabularies, which are kept in
  different places, agree. A number is a run of decimal digits
  of any script, and has no value if one of them is not of
  ASCII, or if the value is too large.

  Key definitions include:
    * `TokenKind.Spells`
    * `Shape.Lists`
    * `Role.closed`

  Key theorems include:
    * `Token.ReadIn.spells`
    * `Role.spells_iff_knows`
    * `TokenKind.spells_number_iff`
    * `Text.wordOfNumeral?_eq_none_iff`
-/

------------------------------------------------------------
-- Languages Of Kinds
------------------------------------------------------------

namespace StatusEffect

open Text

/-
  A text is in the language of a kind. In some mode there is
  a pattern for that kind that describes all of the text.
-/
def TokenKind.Spells
    (kind : TokenKind)
    (text : String) : Prop :=
  ∃ mode : Mode, ∃ rule ∈ mode.rules,
    rule.kind = kind ∧
      ∃ shape ∈ rule.shapes,
        shape.describes text.toList = true

/- A token has a text in the language of its kind. -/
theorem Token.ReadIn.spells
    {token : Token}
    {mode : Mode}
    (hToken : token.ReadIn mode) :
    token.kind.Spells token.text := by
  rcases hToken with
    ⟨c, cs, lexeme, rest, hLexeme, hText, hValid⟩
  rcases Mode.describes_of_lexeme hLexeme hValid with
    ⟨rule, hRule, hKind, shape, hShape, hDescribes⟩
  rw [hText]
  refine ⟨mode, rule, hRule, hKind, shape, hShape, ?_⟩
  rw [String.toList_ofList]
  exact hDescribes

/- All tokens of a source are spelled as their kinds are. -/
theorem spells_of_tokenize
    {source : String}
    {tokens : List Token}
    (hTokens : tokenize source = .ok tokens)
    {token : Token}
    (hToken : token ∈ tokens) :
    token.kind.Spells token.text := by
  rcases (lexed_of_tokenize hTokens).readIn_of_mem hToken with
    ⟨mode, hRead⟩
  exact hRead.spells

------------------------------------------------------------
-- Patterns For Few Texts
------------------------------------------------------------

namespace Shape

/- A shape describes the texts of a list, and no others. -/
def Lists
    (shape : Shape)
    (texts : List (List Char)) : Prop :=
  ∀ lexeme, shape.describes lexeme = true ↔ lexeme ∈ texts

/- One of some characters is a text by itself. -/
theorem lists_oneOf
    (cs : List Char) :
    (one (oneOf cs)).Lists (cs.map fun c => [c]) := by
  rintro (_ | ⟨c, _ | ⟨d, lexeme⟩⟩)
  · simp [describes, fits]
  · simp [describes, fits, one, oneOf]
  · simp [describes, fits, one]

/- A single character is the only text of its class. -/
theorem lists_beq
    (c : Char) :
    (one (· == c)).Lists [[c]] := by
  rintro (_ | ⟨d, _ | ⟨e, lexeme⟩⟩)
  · simp [describes, fits]
  · simp [describes, fits, one]
  · simp [describes, fits, one]

/- A character and one of some others make up a text. -/
theorem lists_pair
    (c : Char)
    (ds : List Char) :
    (pair (· == c) (oneOf ds)).Lists
      (ds.map fun d => [c, d]) := by
  rintro (_ | ⟨d, _ | ⟨e, _ | ⟨f, lexeme⟩⟩⟩)
  · simp [describes, fits]
  · simp [describes, fits, pair]
  · simp only [describes, fits, pair, oneOf, List.mem_map]
    grind
  · simp [describes, fits, pair]

/- A fixed text is the only one of its shape. -/
theorem lists_literal
    (c : Char)
    (cs : List Char) :
    (literal c cs).Lists [c :: cs] := by
  have hOthers :
      ∀ lexeme,
        fits (cs.map fun other => (· == other))
            (fun _ => false) lexeme = true ↔
          lexeme = cs := by
    induction cs with
    | nil => intro lexeme; cases lexeme <;> simp [fits]
    | cons d cs ih =>
        intro lexeme
        cases lexeme with
        | nil => simp [fits]
        | cons e lexeme => simp [fits, ih]
  rintro (_ | ⟨d, lexeme⟩)
  · simp [describes, fits]
  · simp [describes, fits, literal, hOthers]

end Shape

/-
  The patterns for numbers, and for the words of the smallest
  vocabularies. Markers of effects have fewer texts where any
  token may stand than where one of them is due.
-/
def Mode.KnownWords (rule : Rule) : Prop :=
  match rule.kind with
  | .effectMarker =>
      rule.shapes =
          [.one (oneOf ['+', '-', '=', '*', '!', '#'])] ∨
        rule.shapes =
          [.one (oneOf ['+', '-', '*', '!', '#'])]
  | .durationType =>
      rule.shapes = [.one (oneOf ['T', 'C', 'P', 'A'])]
  | .element =>
      rule.shapes = [.one (oneOf ['F', 'W', 'E', 'S', 'D'])]
  | .specialFlag =>
      rule.shapes =
        [.literal 'D' ['O', 'T'], .literal 'S' ['T'],
          .literal 'A' ['R']]
  | .stackingBehavior =>
      rule.shapes =
          [.pair (· == 'S') (oneOf ['+', '*', 'U'])] ∨
        rule.shapes = [.one (· == 'S')]
  | .number => rule.shapes = [.digits]
  | _ => True

/- All rules of all modes have the known patterns. -/
theorem Mode.knownWords_of_mem_rules
    (mode : Mode) :
    ∀ rule ∈ mode.rules, KnownWords rule := by
  unfold rules
  rw [List.forall_mem_append]
  constructor
  · cases mode <;>
      simp [ownRules, coreRules, conditionRules,
        sectionRules, KnownWords]
  · simp [sharedRules, KnownWords]

------------------------------------------------------------
-- Closed Vocabularies
------------------------------------------------------------

namespace Role

/- The roles whose words are all that their kinds can spell. -/
def closed : List Role :=
  [.effectType, .durationType, .element, .specialFlag,
   .stackingBehavior]

/- A word of a vocabulary is one of its codes. -/
theorem isWord_iff
    {α : Type}
    [Vocabulary α]
    {text : String} :
    isWord α text = true ↔ text ∈ Vocabulary.codes α := by
  rw [isWord, Option.isSome_iff_ne_none, ne_eq,
    Vocabulary.ofCode?_eq_none_iff, Classical.not_not]

/- A role knows a text that a list of known ones describes. -/
theorem knows_of_lists
    {role : Role}
    {shape : Shape}
    {texts : List (List Char)}
    (hLists : shape.Lists texts)
    (hTexts :
      ∀ lexeme ∈ texts,
        role.knows (String.ofList lexeme) = true)
    {text : String}
    (hText : shape.describes text.toList = true) :
    role.knows text = true := by
  have hKnown := hTexts _ ((hLists _).mp hText)
  rwa [String.ofList_toList] at hKnown

/- A role knows what an only shape for known texts describes. -/
theorem knows_of_singleton
    {role : Role}
    {shape other : Shape}
    {shapes : List Shape}
    {texts : List (List Char)}
    (hLists : shape.Lists texts)
    (hTexts :
      ∀ lexeme ∈ texts,
        role.knows (String.ofList lexeme) = true)
    (hShapes : shapes = [shape])
    (hOther : other ∈ shapes)
    {text : String}
    (hText : other.describes text.toList = true) :
    role.knows text = true := by
  rw [hShapes, List.mem_singleton] at hOther
  rw [hOther] at hText
  exact knows_of_lists hLists hTexts hText

/- What is spelled like the words of a closed role is known. -/
theorem knows_of_spells
    {role : Role}
    (hRole : role ∈ closed)
    {kind : TokenKind}
    (hKind : kind ∈ role.kinds)
    {text : String}
    (hSpells : kind.Spells text) :
    role.knows text = true := by
  rcases hSpells with
    ⟨mode, rule, hRule, hSame, shape, hShape, hText⟩
  have hKnown := mode.knownWords_of_mem_rules rule hRule
  simp only [closed, List.mem_cons, List.not_mem_nil,
    or_false] at hRole
  rcases hRole with rfl | rfl | rfl | rfl | rfl
  all_goals
    rw [List.mem_singleton.mp hKind] at hSame
    simp only [Mode.KnownWords, hSame] at hKnown
  · rcases hKnown with hDue | hAny
    · exact
        knows_of_singleton (Shape.lists_oneOf _) (by decide)
          hDue hShape hText
    · exact
        knows_of_singleton (Shape.lists_oneOf _) (by decide)
          hAny hShape hText
  · exact
      knows_of_singleton (Shape.lists_oneOf _) (by decide)
        hKnown hShape hText
  · exact
      knows_of_singleton (Shape.lists_oneOf _) (by decide)
        hKnown hShape hText
  · simp only [hKnown, List.mem_cons, List.not_mem_nil,
      or_false] at hShape
    rcases hShape with rfl | rfl | rfl
    all_goals
      exact
        knows_of_lists (Shape.lists_literal _ _) (by decide)
          hText
  · rcases hKnown with hPair | hLimit
    · exact
        knows_of_singleton (Shape.lists_pair _ _) (by decide)
          hPair hShape hText
    · exact
        knows_of_singleton (Shape.lists_beq _) (by decide)
          hLimit hShape hText

/- A rule of a mode spells what its shapes describe. -/
theorem spells_of_mem
    (mode : Mode)
    (rule : Rule)
    (hRule : rule ∈ mode.rules)
    {text : String}
    (hText :
      (rule.shapes.any fun shape =>
        shape.describes text.toList) = true) :
    rule.kind.Spells text := by
  rcases List.any_eq_true.mp hText with
    ⟨shape, hShape, hDescribes⟩
  exact ⟨mode, rule, hRule, rfl, shape, hShape, hDescribes⟩

/- A rule that describes all codes of words spells them. -/
theorem spells_of_isWord
    {α : Type}
    [Vocabulary α]
    (mode : Mode)
    (rule : Rule)
    (hRule : rule ∈ mode.rules)
    (hCodes :
      ∀ code ∈ Vocabulary.codes α,
        (rule.shapes.any fun shape =>
          shape.describes code.toList) = true)
    {text : String}
    (hWord : isWord α text = true) :
    rule.kind.Spells text :=
  spells_of_mem mode rule hRule
    (hCodes text (isWord_iff.mp hWord))

/- What a closed role knows is spelled like its words. -/
theorem spells_of_knows
    {role : Role}
    (hRole : role ∈ closed)
    {kind : TokenKind}
    (hKind : kind ∈ role.kinds)
    {text : String}
    (hKnown : role.knows text = true) :
    kind.Spells text := by
  simp only [closed, List.mem_cons, List.not_mem_nil,
    or_false] at hRole
  rcases hRole with rfl | rfl | rfl | rfl | rfl
  all_goals rw [List.mem_singleton.mp hKind]
  · exact
      spells_of_isWord .effect
        ⟨.effectMarker,
          [.one (oneOf ['+', '-', '=', '*', '!', '#'])]⟩
        (by simp [Mode.rules, Mode.ownRules]) (by decide)
        hKnown
  · exact
      spells_of_isWord .core
        ⟨.durationType, [.one (oneOf ['T', 'C', 'P', 'A'])]⟩
        (by simp [Mode.rules, Mode.ownRules, Mode.coreRules])
        (by decide) hKnown
  · exact
      spells_of_isWord .core
        ⟨.element, [.one (oneOf ['F', 'W', 'E', 'S', 'D'])]⟩
        (by simp [Mode.rules, Mode.ownRules, Mode.coreRules])
        (by decide) hKnown
  · exact
      spells_of_isWord .extended
        ⟨.specialFlag,
          [.literal 'D' ['O', 'T'], .literal 'S' ['T'],
            .literal 'A' ['R']]⟩
        (by
          simp [Mode.rules, Mode.ownRules, Mode.sectionRules])
        (by decide) hKnown
  · -- the limit of stacks is a letter that has its own rule
    have hCode := isWord_iff.mp hKnown
    have hCodes :
        Vocabulary.codes StackRule =
          ["S", "S+", "S*", "SU"] := rfl
    rw [hCodes, List.mem_cons] at hCode
    rcases hCode with rfl | hPair
    · exact
        spells_of_mem .extended
          ⟨.stackingBehavior, [.one (· == 'S')]⟩
          (by
            simp [Mode.rules, Mode.ownRules,
              Mode.sectionRules])
          (by decide)
    · have hPairs :
          ∀ code ∈ ["S+", "S*", "SU"],
            ([Shape.pair (· == 'S')
                (oneOf ['+', '*', 'U'])].any fun shape =>
              shape.describes code.toList) = true := by
        decide
      exact
        spells_of_mem .extended
          ⟨.stackingBehavior,
            [.pair (· == 'S') (oneOf ['+', '*', 'U'])]⟩
          (by
            simp [Mode.rules, Mode.ownRules,
              Mode.sectionRules])
          (hPairs text hPair)

/- The patterns of a closed role agree with its vocabulary. -/
theorem spells_iff_knows
    {role : Role}
    (hRole : role ∈ closed)
    {kind : TokenKind}
    (hKind : kind ∈ role.kinds)
    (text : String) :
    kind.Spells text ↔ role.knows text = true :=
  ⟨knows_of_spells hRole hKind, spells_of_knows hRole hKind⟩

end Role

------------------------------------------------------------
-- Numbers
------------------------------------------------------------

/- The numbers are the runs of decimal digits of any script. -/
theorem TokenKind.spells_number_iff
    {text : String} :
    TokenKind.number.Spells text ↔
      text.toList ≠ [] ∧
        text.toList.all isDecimalDigit = true := by
  have hDigits :
      Shape.digits.describes text.toList = true ↔
        text.toList ≠ [] ∧
          text.toList.all isDecimalDigit = true := by
    cases text.toList with
    | nil => simp [Shape.describes, Shape.fits]
    | cons c cs =>
        simp [Shape.describes, Shape.fits, Shape.digits,
          Shape.run]
  rw [← hDigits]
  constructor
  · rintro ⟨mode, rule, hRule, hKind, shape, hShape, hText⟩
    have hKnown := mode.knownWords_of_mem_rules rule hRule
    simp only [Mode.KnownWords, hKind] at hKnown
    rw [hKnown, List.mem_singleton] at hShape
    rwa [← hShape]
  · intro hText
    exact
      ⟨.core, ⟨.number, [.digits]⟩,
        by simp [Mode.rules, Mode.ownRules, Mode.coreRules],
        rfl, .digits, List.mem_singleton_self _, hText⟩

namespace Text

/- A decimal digit is one of ASCII or a character beyond it. -/
theorem isAsciiDigit_eq_false_iff
    {c : Char}
    (hDigit : isDecimalDigit c = true) :
    isAsciiDigit c = false ↔ 0x80 ≤ c.toNat := by
  constructor
  · intro hOther
    rcases Nat.lt_or_ge c.toNat 0x80 with hLow | hHigh
    · rw [isDecimalDigit_of_lt (by omega), hOther] at hDigit
      cases hDigit
    · exact hHigh
  · intro hHigh
    simp only [isAsciiDigit, Bool.and_eq_false_iff,
      decide_eq_false_iff_not]
    omega

/-
  A run of decimal digits has no value as a word if one of
  them is not of ASCII, or else if its value is too large.
-/
theorem wordOfNumeral?_eq_none_iff
    {text : String}
    (hText : text.toList ≠ [])
    (hDigits : text.toList.all isDecimalDigit = true) :
    wordOfNumeral? text = none ↔
      (∃ c ∈ text.toList, 0x80 ≤ c.toNat) ∨
        text.toList.all isAsciiDigit = true ∧
          UInt32.size ≤ digitsValue text.toList := by
  have hUnsigned : unsigned text.toList = text.toList := by
    unfold unsigned
    split
    · rename_i digits hPlus
      rw [hPlus, List.all_cons, Bool.and_eq_true] at hDigits
      exact absurd hDigits.1 (by decide)
    · rfl
  have hOther :
      text.toList.all isAsciiDigit = false ↔
        ∃ c ∈ text.toList, 0x80 ≤ c.toNat := by
    rw [List.all_eq_false]
    refine exists_congr fun c => and_congr_right fun hChar => ?_
    rw [Bool.not_eq_true,
      isAsciiDigit_eq_false_iff
        (List.all_eq_true.mp hDigits c hChar)]
  rw [← hOther]
  simp only [wordOfNumeral?, hUnsigned]
  cases hAscii : text.toList.all isAsciiDigit with
  | false => simp
  | true => simp [hText]

end Text

end StatusEffect
