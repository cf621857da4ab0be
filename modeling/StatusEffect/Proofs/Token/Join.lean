import StatusEffect.Proofs.Token.Signs

/-
  Scans of joined and of moved texts.

  A sign continues no lexeme, so a text is scanned before it
  as it is scanned alone: the tokens are the same, and so is
  the first invalid character. Where a text starts decides
  nothing but the offsets of its tokens, which move along
  with it.

  Key definitions include:
    * `Token.moved`
    * `Failure.moved`
    * `Scanner.followedBy`
    * `Scanner.moved`

  Key theorems include:
    * `Mode.lexeme_append_sign`
    * `Scanner.tokens_followedBy_of_ok`
    * `Scanner.tokens_followedBy_of_error`
    * `Scanner.tokens_moved`
-/

------------------------------------------------------------
-- Lexemes Before A Sign
------------------------------------------------------------

namespace StatusEffect

open Text

/- A search whose answers all change in one way. -/
theorem findSome?_eq_map
    {α β : Type}
    {items : List α}
    {first second : α → Option β}
    {change : β → β}
    (hItems :
      ∀ item ∈ items,
        first item = (second item).map change) :
    items.findSome? first =
      (items.findSome? second).map change := by
  induction items with
  | nil => rfl
  | cons item items ih =>
      rw [List.forall_mem_cons] at hItems
      rw [List.findSome?_cons, List.findSome?_cons,
        hItems.1, ih hItems.2]
      cases second item <;> rfl

namespace Shape

/- Fixed characters are taken the same before a sign. -/
theorem takeFixed?_append
    {classes : List (Char → Bool)}
    {c : Char}
    (hClasses : ∀ accepts ∈ classes, accepts c = false)
    (cs more : List Char) :
    takeFixed? classes (cs ++ c :: more) =
      (takeFixed? classes cs).map fun split =>
        (split.1, split.2 ++ c :: more) := by
  induction classes generalizing cs with
  | nil => rfl
  | cons accepts classes ih =>
      rw [List.forall_mem_cons] at hClasses
      cases cs with
      | nil => simp [takeFixed?, hClasses.1]
      | cons d cs =>
          simp only [List.cons_append, takeFixed?,
            ih hClasses.2]
          split
          · simp only [Option.map_map]
            rfl
          · rfl

/- A shape matches the same before a character that breaks it. -/
theorem match?_append
    {shape : Shape}
    {d : Char}
    (hBreaks : shape.breaksAt d = true)
    (c : Char)
    (cs more : List Char) :
    shape.match? (c :: (cs ++ d :: more)) =
      (shape.match? (c :: cs)).map fun split =>
        (split.1, split.2 ++ d :: more) := by
  simp only [breaksAt, Bool.and_eq_true, List.all_eq_true,
    Bool.not_eq_true'] at hBreaks
  have hTail :
      ∀ rest : List Char,
        (rest ++ d :: more).takeWhile shape.tail =
            rest.takeWhile shape.tail ∧
          (rest ++ d :: more).dropWhile shape.tail =
            rest.dropWhile shape.tail ++ d :: more := by
    intro rest
    induction rest with
    | nil => simp [hBreaks.2]
    | cons e rest ih =>
        simp only [List.cons_append, List.takeWhile_cons,
          List.dropWhile_cons]
        split
        · exact ⟨by rw [ih.1], ih.2⟩
        · exact ⟨rfl, rfl⟩
  simp only [match?, takeFixed?,
    takeFixed?_append hBreaks.1]
  split
  · simp only [Option.map_map, Function.comp_def, hTail]
  · rfl

end Shape

namespace Rule

/- A rule matches the same before a character that breaks it. -/
theorem match?_append
    {rule : Rule}
    {d : Char}
    (hBreaks :
      ∀ shape ∈ rule.shapes, shape.breaksAt d = true)
    (c : Char)
    (cs more : List Char) :
    rule.match? (c :: (cs ++ d :: more)) =
      (rule.match? (c :: cs)).map fun found =>
        (found.1, found.2.1, found.2.2 ++ d :: more) := by
  have hShapes :
      (rule.shapes.findSome? fun shape =>
          shape.match? (c :: (cs ++ d :: more))) =
        (rule.shapes.findSome? fun shape =>
          shape.match? (c :: cs)).map fun split =>
            (split.1, split.2 ++ d :: more) := by
    apply findSome?_eq_map
    intro shape hShape
    exact Shape.match?_append (hBreaks shape hShape) c cs more
  simp only [match?, hShapes, Option.map_map]
  rfl

end Rule

namespace Mode

/- A lexeme is the same before a sign. -/
theorem lexeme_append_sign
    {d : Char}
    (hSign : isSign d = true)
    (mode : Mode)
    (c : Char)
    (cs more : List Char) :
    mode.lexeme c (cs ++ d :: more) =
      ((mode.lexeme c cs).1, (mode.lexeme c cs).2.1,
        (mode.lexeme c cs).2.2 ++ d :: more) := by
  have hBreaks := breaksAt_of_sign hSign mode
  have hRules :
      (mode.rules.findSome? fun rule =>
          rule.match? (c :: (cs ++ d :: more))) =
        (mode.rules.findSome? fun rule =>
          rule.match? (c :: cs)).map fun found =>
            (found.1, found.2.1,
              found.2.2 ++ d :: more) := by
    apply findSome?_eq_map
    intro rule hRule
    exact Rule.match?_append (hBreaks rule hRule) c cs more
  simp only [lexeme, hRules]
  cases mode.rules.findSome? fun rule =>
    rule.match? (c :: cs) <;> rfl

end Mode

------------------------------------------------------------
-- Related Scans
------------------------------------------------------------

namespace Token

/- A token at another offset. -/
def moved
    (place : Nat → Nat)
    (token : Token) : Token :=
  { token with offset := place token.offset }

end Token

namespace Failure

/- A failure at another offset. -/
def moved
    (place : Nat → Nat)
    (failure : Failure) : Failure :=
  { failure with offset := place failure.offset }

end Failure

namespace ScanStep

/- A step with all that it gives replaced. -/
def map
    (onToken : Token → Token)
    (onFailure : Failure → Failure)
    (onNext : Scanner → Scanner) : ScanStep → ScanStep
  | .done => .done
  | .skipped next => .skipped (onNext next)
  | .token found next => .token (onToken found) (onNext next)
  | .invalid failure next =>
      .invalid (onFailure failure) (onNext next)

end ScanStep

namespace Scanner

variable {scanner last : Scanner}
variable {tokens : List Token}
variable {failure : Failure}

/- Every step before the end is taken along by a change. -/
def Commutes
    (onToken : Token → Token)
    (onFailure : Failure → Failure)
    (onNext : Scanner → Scanner) : Prop :=
  ∀ scanner : Scanner,
    scanner.rest ≠ [] →
      (onNext scanner).step =
        scanner.step.map onToken onFailure onNext

/- A scanner that takes a step is not at the end. -/
theorem rest_ne_nil_of_step
    {taken : ScanStep}
    (hStep : scanner.step = taken)
    (hTaken : taken ≠ .done) :
    scanner.rest ≠ [] := by
  intro hRest
  apply hTaken
  simp [← hStep, step, hRest]

/- A run is taken along by a change of its scanners. -/
theorem Run.map
    {onToken : Token → Token}
    {onFailure : Failure → Failure}
    {onNext : Scanner → Scanner}
    (hCommutes : Commutes onToken onFailure onNext)
    (hRun : Run scanner tokens last) :
    Run (onNext scanner) (tokens.map onToken)
      (onNext last) := by
  induction hRun with
  | stay scanner => exact .stay _
  | skip hStep hRun ih =>
      have hRest := rest_ne_nil_of_step hStep (by simp)
      refine .skip ?_ ih
      rw [hCommutes _ hRest, hStep]
      rfl
  | token hStep hRun ih =>
      have hRest := rest_ne_nil_of_step hStep (by simp)
      refine .token ?_ ih
      rw [hCommutes _ hRest, hStep]
      rfl

/- A run to the end gives its tokens. -/
theorem tokens_of_run_done
    (hRun : Run scanner tokens last)
    (hLast : last.rest = []) :
    scanner.tokens.1 = .ok tokens := by
  have hDone : last.step = .done := by
    simp [step, hLast]
  rw [tokens_of_run hRun, tokens_of_done hDone]
  simp [Except.map]

/- A run to an invalid character fails there. -/
theorem tokens_of_run_invalid
    {next : Scanner}
    (hRun : Run scanner tokens last)
    (hStep : last.step = .invalid failure next) :
    scanner.tokens.1 = .error failure := by
  rw [tokens_of_run hRun, tokens_of_invalid hStep]
  rfl

/- A failure comes from a run to an invalid character. -/
theorem run_of_error
    (hTokens : scanner.tokens.1 = .error failure) :
    ∃ tokens last next,
      Run scanner tokens last ∧
        last.step = .invalid failure next := by
  induction hLength : scanner.rest.length
    using Nat.strongRecOn generalizing scanner with
  | ind length ih =>
      subst hLength
      cases hStep : scanner.step with
      | done =>
          rw [tokens_of_done hStep] at hTokens
          simp at hTokens
      | skipped next =>
          rw [tokens_of_skipped hStep] at hTokens
          have hShort := length_rest_lt_of_step (.inl hStep)
          rcases ih _ hShort hTokens rfl with
            ⟨tokens, last, behind, hRun, hLast⟩
          exact
            ⟨tokens, last, behind, .skip hStep hRun, hLast⟩
      | token token next =>
          rw [tokens_of_token hStep] at hTokens
          have hShort :=
            length_rest_lt_of_step
              (.inr (.inl ⟨token, hStep⟩))
          have hNext : next.tokens.1 = .error failure := by
            cases hOthers : next.tokens.1 with
            | ok others =>
                simp [hOthers, Except.map] at hTokens
            | error other =>
                simpa [hOthers, Except.map] using hTokens
          rcases ih _ hShort hNext rfl with
            ⟨tokens, last, behind, hRun, hLast⟩
          exact
            ⟨token :: tokens, last, behind,
              .token hStep hRun, hLast⟩
      | invalid other next =>
          rw [tokens_of_invalid hStep] at hTokens
          simp only [Except.error.injEq] at hTokens
          subst hTokens
          exact ⟨[], scanner, next, .stay _, hStep⟩

/- A failure is taken along by a change of the scanners. -/
theorem tokens_error_map
    {onToken : Token → Token}
    {onFailure : Failure → Failure}
    {onNext : Scanner → Scanner}
    (hCommutes : Commutes onToken onFailure onNext)
    (hTokens : scanner.tokens.1 = .error failure) :
    (onNext scanner).tokens.1 =
      .error (onFailure failure) := by
  rcases run_of_error hTokens with
    ⟨tokens, last, next, hRun, hStep⟩
  have hRest := rest_ne_nil_of_step hStep (by simp)
  have hMapped := hCommutes last hRest
  rw [hStep] at hMapped
  exact tokens_of_run_invalid (hRun.map hCommutes) hMapped

------------------------------------------------------------
-- Joined Texts
------------------------------------------------------------

/- A scanner with more text behind what is left. -/
def followedBy
    (scanner : Scanner)
    (text : List Char) : Scanner :=
  { scanner with rest := scanner.rest ++ text }

/- What is read before a sign does not depend on it. -/
theorem commutes_followedBy
    {c : Char}
    (hSign : isSign c = true)
    (more : List Char) :
    Commutes id id (followedBy · (c :: more)) := by
  intro scanner hRest
  rcases scanner with ⟨_ | ⟨d, cs⟩, offset, mode, braces⟩
  · exact absurd rfl hRest
  · simp only [step, followedBy, List.cons_append,
      Mode.lexeme_append_sign hSign]
    split <;> rfl

/-
  A text without invalid characters is scanned first, then
  the sign behind it and what follows the sign.
-/
theorem tokens_followedBy_of_ok
    {sign : Char × TokenKind}
    (hSign : sign ∈ signs)
    (hRun : Run scanner tokens last)
    (hLast : last.rest = [])
    (more : List Char) :
    (scanner.followedBy (sign.1 :: more)).tokens.1 =
      (Scanner.tokens
        ⟨more, last.offset + sign.1.utf8Size,
          last.mode.after last.braces sign.2,
          Mode.bracesAfter last.braces sign.2⟩).1.map
        fun others =>
          tokens ++
            ⟨sign.2, String.ofList [sign.1], last.offset⟩ ::
              others := by
  have hBefore :=
    hRun.map (commutes_followedBy (isSign_of_mem hSign) more)
  have hStep :
      (last.followedBy (sign.1 :: more)).step =
        .token
          ⟨sign.2, String.ofList [sign.1], last.offset⟩
          ⟨more, last.offset + sign.1.utf8Size,
            last.mode.after last.braces sign.2,
            Mode.bracesAfter last.braces sign.2⟩ := by
    simp only [step, followedBy, hLast, List.nil_append,
      Mode.lexeme_sign hSign]
    simp only [signs, List.mem_cons, List.not_mem_nil,
      or_false] at hSign
    rcases hSign with rfl | rfl | rfl | rfl | rfl <;>
      simp [past, byteLength]
  rw [List.map_id] at hBefore
  rw [tokens_of_run hBefore, tokens_of_token hStep]
  simp only
  cases (Scanner.tokens _).1 <;> rfl

/- An invalid character before a sign stays the first one. -/
theorem tokens_followedBy_of_error
    {c : Char}
    (hSign : isSign c = true)
    (hTokens : scanner.tokens.1 = .error failure)
    (more : List Char) :
    (scanner.followedBy (c :: more)).tokens.1 =
      .error failure :=
  tokens_error_map (commutes_followedBy hSign more) hTokens

------------------------------------------------------------
-- Moved Texts
------------------------------------------------------------

/- A scanner of the same text further on. -/
def moved
    (distance : Nat)
    (scanner : Scanner) : Scanner :=
  { scanner with offset := scanner.offset + distance }

/- Every step moves along with its text. -/
theorem commutes_moved
    (distance : Nat) :
    Commutes (Token.moved (· + distance))
      (Failure.moved (· + distance)) (moved distance) := by
  intro scanner hRest
  rcases scanner with ⟨_ | ⟨c, cs⟩, offset, mode, braces⟩
  · exact absurd rfl hRest
  · simp only [step, moved]
    split <;>
      simp [ScanStep.map, past, moved, Token.moved,
        Failure.moved, Nat.add_right_comm]

/- The tokens of a text move along with it. -/
theorem tokens_moved
    (scanner : Scanner)
    (distance : Nat) :
    (scanner.moved distance).tokens.1 =
      (scanner.tokens.1.map
        (List.map (Token.moved (· + distance)))).mapError
        (Failure.moved (· + distance)) := by
  cases hTokens : scanner.tokens.1 with
  | ok tokens =>
      rcases run_of_tokens hTokens with ⟨last, hRun, hLast⟩
      exact
        tokens_of_run_done
          (hRun.map (commutes_moved distance)) hLast
  | error failure =>
      exact
        tokens_error_map (commutes_moved distance) hTokens

end Scanner

end StatusEffect
