import StatusEffect.Token.Scan

/-
  Runs of a scanner.

  A run leads from one scanner to a later one and collects
  the tokens on the way. The characters behind the later
  scanner are part of both, so runs can be put together
  without any lexeme being read shorter than it is. A source
  is tokenized exactly if there is a run to its end, and the
  tokens of a run can be traced back to the modes that they
  were read in.

  Key definitions include:
    * `Scanner.Run`
    * `Lexed`

  Key theorems include:
    * `Scanner.tokens_of_run`
    * `Scanner.run_of_tokens`
    * `lexed_of_tokenize`
    * `Lexed.target_of_parenOpen`
-/

------------------------------------------------------------
-- Runs
------------------------------------------------------------

namespace StatusEffect

open Text

namespace Scanner

/- A number of steps, and the tokens that they gave. -/
inductive Run : Scanner → List Token → Scanner → Prop where
  | stay (scanner : Scanner) : Run scanner [] scanner
  | skip
      {scanner next last : Scanner}
      {tokens : List Token}
      (hStep : scanner.step = .skipped next)
      (hRun : Run next tokens last) :
      Run scanner tokens last
  | token
      {scanner next last : Scanner}
      {token : Token}
      {tokens : List Token}
      (hStep : scanner.step = .token token next)
      (hRun : Run next tokens last) :
      Run scanner (token :: tokens) last

/- One run after the other is a run. -/
theorem Run.append
    {scanner between last : Scanner}
    {first second : List Token}
    (hFirst : Run scanner first between)
    (hSecond : Run between second last) :
    Run scanner (first ++ second) last := by
  induction hFirst with
  | stay scanner => exact hSecond
  | skip hStep hRun ih => exact .skip hStep (ih hSecond)
  | token hStep hRun ih => exact .token hStep (ih hSecond)

/- A scanner at the end of its source has no tokens left. -/
theorem tokens_of_done
    {scanner : Scanner}
    (hStep : scanner.step = .done) :
    scanner.tokens = (.ok [], scanner) := by
  rw [tokens]
  split <;> simp_all

/- Skipped blanks do not matter to the tokens. -/
theorem tokens_of_skipped
    {scanner next : Scanner}
    (hStep : scanner.step = .skipped next) :
    scanner.tokens = next.tokens := by
  rw [tokens]
  split <;> simp_all

/- A token comes before the tokens of what is left. -/
theorem tokens_of_token
    {scanner next : Scanner}
    {token : Token}
    (hStep : scanner.step = .token token next) :
    scanner.tokens =
      (next.tokens.1.map (token :: ·), next.tokens.2) := by
  rw [tokens]
  split <;> simp_all

/- An invalid character ends the tokens. -/
theorem tokens_of_invalid
    {scanner next : Scanner}
    {failure : Failure}
    (hStep : scanner.step = .invalid failure next) :
    scanner.tokens = (.error failure, next) := by
  rw [tokens]
  split <;> simp_all

/- The tokens of a run come before those of its end. -/
theorem tokens_of_run
    {scanner last : Scanner}
    {tokens : List Token}
    (hRun : Run scanner tokens last) :
    scanner.tokens =
      (last.tokens.1.map (tokens ++ ·), last.tokens.2) := by
  induction hRun with
  | @stay scanner =>
      cases hTokens : scanner.tokens.1 <;>
        simp [Except.map, ← hTokens]
  | skip hStep hRun ih =>
      rw [tokens_of_skipped hStep, ih]
  | @token scanner next last token tokens hStep hRun ih =>
      rw [tokens_of_token hStep, ih]
      cases last.tokens.1 <;> rfl

/- Tokens without a failure come from a run to the end. -/
theorem run_of_tokens
    {scanner : Scanner}
    {tokens : List Token}
    (hTokens : scanner.tokens.1 = .ok tokens) :
    ∃ last, Run scanner tokens last ∧ last.rest = [] := by
  induction hLength : scanner.rest.length
    using Nat.strongRecOn generalizing scanner tokens with
  | ind length ih =>
      subst hLength
      cases hStep : scanner.step with
      | done =>
          rw [tokens_of_done hStep] at hTokens
          cases hTokens
          refine ⟨scanner, .stay scanner, ?_⟩
          unfold step at hStep
          split at hStep
          · assumption
          · simp only at hStep
            split at hStep <;> simp at hStep
      | skipped next =>
          rw [tokens_of_skipped hStep] at hTokens
          have hShort := length_rest_lt_of_step (.inl hStep)
          rcases ih _ hShort hTokens rfl with
            ⟨last, hRun, hLast⟩
          exact ⟨last, .skip hStep hRun, hLast⟩
      | token token next =>
          rw [tokens_of_token hStep] at hTokens
          have hShort :=
            length_rest_lt_of_step
              (.inr (.inl ⟨token, hStep⟩))
          cases hNext : next.tokens.1 with
          | error failure =>
              simp [hNext, Except.map] at hTokens
          | ok others =>
              simp only [hNext, Except.map,
                Except.ok.injEq] at hTokens
              subst hTokens
              rcases ih _ hShort hNext rfl with
                ⟨last, hRun, hLast⟩
              exact ⟨last, .token hStep hRun, hLast⟩
      | invalid failure next =>
          rw [tokens_of_invalid hStep] at hTokens
          simp at hTokens

end Scanner

------------------------------------------------------------
-- Traces Of Modes
------------------------------------------------------------

/- A token has the kind and text of a lexeme of a mode. -/
def Token.ReadIn
    (token : Token)
    (mode : Mode) : Prop :=
  ∃ c cs lexeme rest,
    mode.lexeme c cs = (token.kind, lexeme, rest) ∧
      token.text = String.ofList lexeme ∧
        token.kind ≠ .invalid

/-
  Tokens that were read one after the other, the first of
  them in a given mode with a given number of open braces.
-/
inductive Lexed : Mode → Nat → List Token → Prop where
  | none
      (mode : Mode)
      (braces : Nat) :
      Lexed mode braces []
  | some
      {mode : Mode}
      {braces : Nat}
      {token : Token}
      {tokens : List Token}
      (hToken : token.ReadIn mode)
      (hTokens :
        Lexed (mode.after braces token.kind)
          (Mode.bracesAfter braces token.kind) tokens) :
      Lexed mode braces (token :: tokens)

namespace Scanner

/- A token is read in the mode of its scanner. -/
theorem readIn_of_step
    {scanner next : Scanner}
    {token : Token}
    (hStep : scanner.step = .token token next) :
    token.ReadIn scanner.mode ∧
      next.mode =
        scanner.mode.after scanner.braces token.kind ∧
      next.braces =
        Mode.bracesAfter scanner.braces token.kind := by
  unfold step at hStep
  split at hStep
  · simp at hStep
  · rename_i c cs hRest
    simp only at hStep
    split at hStep
    · simp at hStep
    · simp at hStep
    · rename_i kind hBlank hInvalid
      simp only [ScanStep.token.injEq] at hStep
      rcases hStep with ⟨rfl, rfl⟩
      refine ⟨⟨c, cs, _, _, rfl, rfl, ?_⟩, rfl, rfl⟩
      exact hInvalid

/- Skipped blanks leave the mode and the braces alone. -/
theorem mode_of_skipped
    {scanner next : Scanner}
    (hStep : scanner.step = .skipped next) :
    next.mode = scanner.mode ∧
      next.braces = scanner.braces := by
  unfold step at hStep
  split at hStep
  · simp at hStep
  · simp only at hStep
    split at hStep
    · simp only [ScanStep.skipped.injEq] at hStep
      subst hStep
      exact ⟨rfl, rfl⟩
    · simp at hStep
    · simp at hStep

/- The tokens of a run were read from its first mode on. -/
theorem lexed_of_run
    {scanner last : Scanner}
    {tokens : List Token}
    (hRun : Run scanner tokens last) :
    Lexed scanner.mode scanner.braces tokens := by
  induction hRun with
  | stay scanner => exact .none _ _
  | skip hStep hRun ih =>
      rcases mode_of_skipped hStep with ⟨hMode, hBraces⟩
      rw [hMode, hBraces] at ih
      exact ih
  | token hStep hRun ih =>
      rcases readIn_of_step hStep with
        ⟨hToken, hMode, hBraces⟩
      rw [hMode, hBraces] at ih
      exact .some hToken ih

end Scanner

/- The tokens of a source were read from its start on. -/
theorem lexed_of_tokenize
    {source : String}
    {tokens : List Token}
    (hTokens : tokenize source = .ok tokens) :
    Lexed .target 0 tokens := by
  rcases Scanner.run_of_tokens hTokens with
    ⟨last, hRun, _⟩
  exact Scanner.lexed_of_run hRun

namespace Lexed

/- Later tokens were read from some later mode on. -/
theorem of_append
    {mode : Mode}
    {braces : Nat}
    {first second : List Token}
    (hLexed : Lexed mode braces (first ++ second)) :
    ∃ later depth, Lexed later depth second := by
  induction first generalizing mode braces with
  | nil => exact ⟨mode, braces, hLexed⟩
  | cons token first ih =>
      cases hLexed with
      | some hToken hTokens => exact ih hTokens

/- Fewer tokens were read in the same modes. -/
theorem left_of_append
    {mode : Mode}
    {braces : Nat}
    {first second : List Token}
    (hLexed : Lexed mode braces (first ++ second)) :
    Lexed mode braces first := by
  induction first generalizing mode braces with
  | nil => exact .none mode braces
  | cons token first ih =>
      cases hLexed with
      | some hToken hTokens => exact .some hToken (ih hTokens)

/- A part of some tokens was read from some mode on. -/
theorem of_infix
    {mode : Mode}
    {braces : Nat}
    {tokens part : List Token}
    (hLexed : Lexed mode braces tokens)
    (hPart : part <:+: tokens) :
    ∃ later depth, Lexed later depth part := by
  rcases hPart with ⟨before, behind, rfl⟩
  rw [List.append_assoc] at hLexed
  rcases hLexed.of_append with ⟨later, depth, hLater⟩
  exact ⟨later, depth, hLater.left_of_append⟩

/- Each token was read in some mode. -/
theorem readIn_of_mem
    {mode : Mode}
    {braces : Nat}
    {tokens : List Token}
    {token : Token}
    (hLexed : Lexed mode braces tokens)
    (hToken : token ∈ tokens) :
    ∃ later, token.ReadIn later := by
  induction hLexed with
  | none mode braces => simp at hToken
  | some hFirst hTokens ih =>
      rcases List.mem_cons.mp hToken with rfl | hToken
      · exact ⟨_, hFirst⟩
      · exact ih hToken

/- A notation starts behind an opening parenthesis. -/
theorem target_of_parenOpen
    {mode : Mode}
    {braces : Nat}
    {opening : Token}
    {tokens : List Token}
    (hLexed : Lexed mode braces (opening :: tokens))
    (hOpening : opening.kind = .parenOpen) :
    Lexed .target braces tokens := by
  cases hLexed with
  | some hToken hTokens =>
      rw [hOpening] at hTokens
      exact hTokens

end Lexed

end StatusEffect
