import StatusEffect.Grammar.Parse
import StatusEffect.Proofs.Grammar.Parts
import StatusEffect.Proofs.Notation.Core
import StatusEffect.Proofs.Token.Signs

/-
  How deep parentheses are nested.

  A chain target stands one level deeper than the notation
  around it. Tokens that are not nested deeper than a number
  of levels can therefore not tell whether a record is read
  with that number of levels or with one more.

  Key definitions include:
    * `Section.deepest`
    * `Grammar.AgreeWithin`

  Key theorems include:
    * `Section.deepest_of_mem_split`
    * `Section.deepest_of_closing?`
    * `SameSigns.deepest_eq`
    * `Grammar.record_succ_of_deepest`
-/

------------------------------------------------------------
-- Nested Tokens
------------------------------------------------------------

namespace StatusEffect

namespace Section

/- The greatest number of parentheses open at the same time. -/
def deepest : Nat → List Token → Nat
  | parens, [] => parens
  | parens, token :: tokens =>
      max parens (deepest (parensAfter parens token) tokens)

/- As many parentheses are open as there are to start with. -/
theorem le_deepest
    (parens : Nat)
    (tokens : List Token) :
    parens ≤ deepest parens tokens := by
  cases tokens with
  | nil => exact Nat.le_refl parens
  | cons token tokens => exact Nat.le_max_left _ _

/- Later tokens start with what earlier ones leave open. -/
theorem deepest_append
    (parens : Nat)
    (first second : List Token) :
    deepest (parensOver parens first) second ≤
      deepest parens (first ++ second) := by
  induction first generalizing parens with
  | nil => exact Nat.le_refl _
  | cons token first ih =>
      exact Nat.le_trans (ih _) (Nat.le_max_right _ _)

/- No section is nested deeper than all the tokens. -/
theorem deepest_of_cut
    (stop parens : Nat)
    (tokens : List Token) :
    deepest parens (cut stop parens tokens).1.tokens ≤
        deepest parens tokens ∧
      ∀ part ∈ (cut stop parens tokens).2,
        deepest 0 part.tokens ≤ deepest parens tokens := by
  induction tokens generalizing parens with
  | nil => simp [cut]
  | cons token tokens ih =>
      simp only [cut]
      split
      · rename_i hCut
        simp only [isCut, Bool.and_eq_true,
          decide_eq_true_eq] at hCut
        rcases hCut with ⟨hKind, rfl⟩
        have hAfter : parensAfter 0 token = 0 := by
          simp [parensAfter, hKind]
        rcases ih 0 with ⟨hFirst, hOthers⟩
        simp only [deepest, hAfter, Nat.zero_max,
          List.forall_mem_cons]
        exact ⟨Nat.zero_le _, hFirst, hOthers⟩
      · rcases ih (parensAfter parens token) with
          ⟨hFirst, hOthers⟩
        simp only [deepest]
        refine ⟨by omega, ?_⟩
        intro part hPart
        exact
          Nat.le_trans (hOthers part hPart)
            (Nat.le_max_right _ _)

/- A section is not nested deeper than all the tokens. -/
theorem deepest_of_mem_split
    {stop : Nat}
    {tokens : List Token}
    {part : Section}
    (hPart : part ∈ split stop tokens) :
    deepest 0 part.tokens ≤ deepest 0 tokens := by
  have hCut := deepest_of_cut stop 0 tokens
  simp only [split] at hPart
  have hMember := (List.mem_filter.mp hPart).1
  rcases List.mem_cons.mp hMember with rfl | hMember
  · exact hCut.1
  · exact hCut.2 part hMember

/- What is in parentheses is nested less deep by one. -/
theorem deepest_of_closing?
    {parens : Nat}
    {tokens inner rest : List Token}
    {close : Token}
    (hClosing :
      closing? parens tokens = some (inner, close, rest)) :
    deepest parens inner + 1 ≤
      deepest (parens + 1) tokens := by
  induction tokens generalizing parens inner with
  | nil => simp [closing?] at hClosing
  | cons token tokens ih =>
      simp only [closing?] at hClosing
      split at hClosing
      · simp only [Option.some.injEq,
          Prod.mk.injEq] at hClosing
        rcases hClosing with ⟨rfl, rfl, rfl⟩
        exact le_deepest _ _
      · rename_i hOpen
        simp only [Option.map_eq_some_iff, Prod.exists,
          Prod.mk.injEq] at hClosing
        rcases hClosing with
          ⟨others, close, rest, hOthers, rfl, rfl, rfl⟩
        have hAfter :
            parensAfter (parens + 1) token =
              parensAfter parens token + 1 :=
          parensAfter_succ (by simpa using hOpen)
        have hInner := ih hOthers
        simp only [deepest, hAfter]
        omega

end Section

------------------------------------------------------------
-- Nested Texts
------------------------------------------------------------

namespace Text

/- As many brackets are open as there are to start with. -/
theorem le_deepest
    (opening close : Char)
    (opened : Nat)
    (cs : List Char) :
    opened ≤ deepest opening close opened cs := by
  cases cs with
  | nil => exact Nat.le_refl opened
  | cons c cs => exact Nat.le_max_left _ _

/- Characters that are no signs are not nested. -/
theorem deepest_append_of_not_sign
    {opening close : Char}
    {lexeme : List Char}
    (hOpening : isSign opening = true)
    (hClose : isSign close = true)
    (hLexeme : ∀ c ∈ lexeme, isSign c = false)
    (opened : Nat)
    (cs : List Char) :
    deepest opening close opened (lexeme ++ cs) =
      deepest opening close opened cs := by
  induction lexeme with
  | nil => rfl
  | cons c lexeme ih =>
      rw [List.forall_mem_cons] at hLexeme
      rw [List.cons_append, deepest,
        openAfter_of_not_sign hOpening hClose hLexeme.1,
        ih hLexeme.2]
      exact Nat.max_eq_right (le_deepest _ _ _ _)

end Text

/- The tokens of a text are nested as deep as the text. -/
theorem SameSigns.deepest_eq
    {cs : List Char}
    {tokens : List Token}
    (hSigns : SameSigns cs tokens)
    (opened : Nat) :
    Section.deepest opened tokens =
      Text.deepest '(' ')' opened cs := by
  induction hSigns generalizing opened with
  | none => rfl
  | text hLexeme hRest ih =>
      rw [ih,
        Text.deepest_append_of_not_sign (by decide)
          (by decide) hLexeme]
  | word hKind hRest ih =>
      rw [Section.deepest, parensAfter_of_not_sign hKind,
        Nat.max_eq_right (Section.le_deepest _ _), ih]
  | sign hSign hKind hRest ih =>
      rw [Section.deepest, Text.deepest,
        parensAfter_of_sign hSign hKind, ih]

------------------------------------------------------------
-- Levels
------------------------------------------------------------

namespace Grammar

open Reader

/-
  Two readers of chain targets cannot be told apart by
  tokens that are not nested deeper than a bound. They are
  not used at all if nothing is nested.
-/
def AgreeWithin :
    Nat →
      Option (Reader Record) →
        Option (Reader Record) → Prop
  | 0, _, _ => True
  | bound + 1, some reader, some other =>
      ∀ stop tokens,
        Section.deepest 0 tokens ≤ bound →
          reader stop tokens = other stop tokens
  | _ + 1, _, _ => False

variable {bound : Nat}
variable {nested other : Option (Reader Record)}

/- Readers that agree read the same chain targets. -/
theorem chainTarget_congr
    {tokens : List Token}
    (hAgree : AgreeWithin bound nested other)
    (hDeepest : Section.deepest 0 tokens ≤ bound)
    (stop : Nat) :
    chainTarget nested stop tokens =
      chainTarget other stop tokens := by
  cases tokens with
  | nil => rfl
  | cons opening rest =>
      simp only [chainTarget]
      split
      · rename_i hOpening
        simp only [Section.deepest, Section.parensAfter,
          hOpening, Nat.zero_add, Nat.zero_max] at hDeepest
        have hOne := Section.le_deepest 1 rest
        cases bound with
        | zero => omega
        | succ bound =>
            cases nested with
            | none => exact False.elim hAgree
            | some reader =>
                cases other with
                | none => exact False.elim hAgree
                | some other =>
                    simp only
                    split
                    · rfl
                    · rename_i inner close left hClosing
                      have hInner :=
                        Section.deepest_of_closing? hClosing
                      rw [Nat.zero_add] at hInner
                      rw [hAgree close.offset inner
                        (by omega)]
      · rfl

/- Readers that agree read the same sections. -/
theorem extension_congr
    {tokens : List Token}
    (hAgree : AgreeWithin bound nested other)
    (hDeepest : Section.deepest 0 tokens ≤ bound)
    (stop : Nat) :
    extension nested stop tokens =
      extension other stop tokens := by
  cases tokens with
  | nil => rfl
  | cons head rest =>
      by_cases hKind : head.kind = .chainEffect
      · simp only [Section.deepest, Section.parensAfter,
          hKind, Nat.zero_max] at hDeepest
        have hTarget := chainTarget_congr hAgree hDeepest stop
        simp only [extension, sectionBody?, hKind, word]
        cases (Vocabulary.ofCode? head.text :
            Option ChainEffect) with
        | none => rfl
        | some effect =>
            simp only [bind_apply, pure_apply, hTarget]
      · have hBody :
            sectionBody? nested head =
              sectionBody? other head := by
          unfold sectionBody?
          split <;> first | rfl | contradiction
        simp only [extension, hBody]

/- Readers that agree read the same lists of sections. -/
theorem extensions_congr
    {parts : List Section}
    (hAgree : AgreeWithin bound nested other)
    (hDeepest :
      ∀ part ∈ parts,
        Section.deepest 0 part.tokens ≤ bound) :
    extensions nested parts = extensions other parts := by
  induction parts with
  | nil => rfl
  | cons part parts ih =>
      rw [List.forall_mem_cons] at hDeepest
      rw [extensions, extensions,
        extension_congr hAgree hDeepest.1, ih hDeepest.2]

/- Readers that agree read the same records. -/
theorem recordWith_congr
    {tokens : List Token}
    (hAgree : AgreeWithin bound nested other)
    (hDeepest : Section.deepest 0 tokens ≤ bound)
    (stop : Nat) :
    recordWith nested stop tokens =
      recordWith other stop tokens := by
  unfold recordWith
  cases hCore : core stop tokens with
  | stuck failure left => rfl
  | read effect rest =>
      rcases spellsCore_of_core hCore with
        ⟨used, rfl, hSpells, _⟩
      have hUsed :=
        Section.parensOver_of_parensOver?
          (plain_of_spellsCore hSpells).balanced
      have hRest := Section.deepest_append 0 used rest
      rw [hUsed] at hRest
      have hParts :
          ∀ part ∈ Section.split stop rest,
            Section.deepest 0 part.tokens ≤ bound := by
        intro part hPart
        have hPartDeepest :=
          Section.deepest_of_mem_split hPart
        omega
      simp only [extended, extensions_congr hAgree hParts]

/- A level deeper than the tokens are nested changes nothing. -/
theorem record_succ_of_deepest
    {levels : Nat}
    {tokens : List Token}
    (hDeepest : Section.deepest 0 tokens ≤ levels)
    (stop : Nat) :
    record (levels + 1) stop tokens =
      record levels stop tokens := by
  induction levels generalizing stop tokens with
  | zero =>
      have hAgree :
          AgreeWithin 0 (some (record 0)) none := trivial
      exact recordWith_congr hAgree hDeepest stop
  | succ levels ih =>
      have hAgree :
          AgreeWithin (levels + 1)
            (some (record (levels + 1)))
            (some (record levels)) :=
        fun place inner hInner => ih hInner place
      exact recordWith_congr hAgree hDeepest stop

end Grammar

end StatusEffect
