import StatusEffect.Token.Mode
import StatusEffect.Failure

/-
  Scanning a source into tokens.

  A scanner holds what is left of a source, the byte offset
  where that starts, the lexical mode and the number of open
  braces. Blanks are skipped without any effect on mode and
  braces. A character that starts no lexeme ends the
  scan with a failure, and leaves the scanner just past that
  character, so that a later scan can go on from there.

  Key definitions include:
    * `Scanner`
    * `Scanner.ofSource`
    * `Scanner.step`
    * `Scanner.tokens`
    * `tokenize`
-/

------------------------------------------------------------
-- Scanners
------------------------------------------------------------

namespace StatusEffect

open Text

/- The state of a scan. -/
structure Scanner where
  rest : List Char
  offset : Nat
  mode : Mode
  braces : Nat
deriving DecidableEq, Repr

/- What one lexeme does to a scan. -/
inductive ScanStep where
  | done
  | skipped (next : Scanner)
  | token (token : Token) (next : Scanner)
  | invalid (failure : Failure) (next : Scanner)

namespace Scanner

/- A scanner at the start of a source. -/
def ofSource (source : String) : Scanner where
  rest := source.toList
  offset := 0
  mode := .target
  braces := 0

/- The scanner past a lexeme, in the same mode. -/
def past
    (scanner : Scanner)
    (lexeme rest : List Char) : Scanner :=
  { scanner with
    rest := rest
    offset := scanner.offset + byteLength lexeme }

/- Read one lexeme. -/
def step (scanner : Scanner) : ScanStep :=
  match scanner.rest with
  | [] => .done
  | c :: cs =>
      let (kind, lexeme, rest) := scanner.mode.lexeme c cs
      let next := scanner.past lexeme rest
      let text := String.ofList lexeme
      match kind with
      | .whitespace => .skipped next
      | .invalid =>
          .invalid
            ⟨.invalidCharacter text, scanner.offset⟩ next
      | kind =>
          .token ⟨kind, text, scanner.offset⟩
            { next with
              mode := scanner.mode.after scanner.braces kind
              braces :=
                Mode.bracesAfter scanner.braces kind }

/- A step that yields a scanner has consumed something. -/
theorem length_rest_lt_of_step
    {scanner next : Scanner}
    (hStep :
      scanner.step = .skipped next ∨
        (∃ token, scanner.step = .token token next) ∨
        (∃ failure, scanner.step = .invalid failure next)) :
    next.rest.length < scanner.rest.length := by
  unfold step at hStep
  split at hStep
  · simp at hStep
  · rename_i c cs hRest
    have hShort := scanner.mode.length_lexeme_lt c cs
    rw [hRest]
    simp only at hStep
    split at hStep
    · simp at hStep
      rw [← hStep]
      exact hShort
    · simp at hStep
      rw [← hStep]
      exact hShort
    · simp at hStep
      rw [← hStep]
      exact hShort

/-
  Read lexemes up to the end of the source or to the first
  invalid one. The scanner that comes with the result stands
  at that end, or just past the invalid character.
-/
def tokens
    (scanner : Scanner) :
    Except Failure (List Token) × Scanner :=
  match hStep : scanner.step with
  | .done => (.ok [], scanner)
  | .skipped next =>
      have := length_rest_lt_of_step (.inl hStep)
      next.tokens
  | .token token next =>
      have :=
        length_rest_lt_of_step (.inr (.inl ⟨token, hStep⟩))
      let (result, last) := next.tokens
      (result.map (token :: ·), last)
  | .invalid failure next => (.error failure, next)
termination_by scanner.rest.length

/- The results of several scans, each where the last ended. -/
def scans
    (scanner : Scanner) :
    Nat → List (Except Failure (List Token))
  | 0 => []
  | calls + 1 =>
      let (result, last) := scanner.tokens
      result :: last.scans calls

end Scanner

/- The tokens of a source, or its first invalid character. -/
def tokenize
    (source : String) : Except Failure (List Token) :=
  (Scanner.ofSource source).tokens.1

end StatusEffect
