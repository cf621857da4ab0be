import StatusEffect.Proofs.Grammar.Moved

/-
  The places that tokens and failures can have.

  A token stands in the source where its offset says. A reader
  does at other offsets what it does at these, so it cannot
  come up with a place of its own: a failure is at the offset
  of one of the tokens, or where they stop.

  Key definitions include:
    * `Text.At`
    * `marks`

  Key theorems include:
    * `Scanner.at_of_run`
    * `Reader.offset_mem_marks`
    * `Grammar.offset_mem_marks_of_parseTokens`
-/

------------------------------------------------------------
-- Places Of Tokens
------------------------------------------------------------

namespace StatusEffect

namespace Text

/- A text has another one at some bytes from its start. -/
def At
    (part : List Char)
    (distance : Nat)
    (text : List Char) : Prop :=
  ∃ before behind,
    text = before ++ (part ++ behind) ∧
      byteLength before = distance

/- A place in what is left of a text is one in the text. -/
theorem At.append_left
    {part text : List Char}
    {distance : Nat}
    (hPart : At part distance text)
    (lexeme : List Char) :
    At part (byteLength lexeme + distance)
      (lexeme ++ text) := by
  rcases hPart with ⟨before, behind, rfl, rfl⟩
  refine ⟨lexeme ++ before, behind, ?_, ?_⟩
  · rw [List.append_assoc]
  · rw [byteLength_append]

end Text

namespace Scanner

open Text

/- A token has the text and the place of its lexeme. -/
theorem token_of_step
    {scanner next : Scanner}
    {token : Token}
    (hStep : scanner.step = .token token next) :
    scanner.rest = token.text.toList ++ next.rest ∧
      token.offset = scanner.offset ∧
      next.offset =
        scanner.offset + byteLength token.text.toList := by
  unfold step at hStep
  split at hStep
  · simp at hStep
  · rename_i c cs hRest
    simp only at hStep
    split at hStep
    · simp at hStep
    · simp at hStep
    · simp only [ScanStep.token.injEq] at hStep
      rcases hStep with ⟨rfl, rfl⟩
      simp only [String.toList_ofList]
      refine ⟨?_, trivial, rfl⟩
      rw [hRest]
      exact (scanner.mode.append_lexeme c cs).symm

/- Every token of a run stands where its offset says. -/
theorem at_of_run
    {scanner last : Scanner}
    {tokens : List Token}
    (hRun : Run scanner tokens last)
    {token : Token}
    (hToken : token ∈ tokens) :
    ∃ distance,
      token.offset = scanner.offset + distance ∧
        At token.text.toList distance scanner.rest := by
  induction hRun with
  | stay scanner => simp at hToken
  | @skip scanner next last tokens hStep hRun ih =>
      rcases ih hToken with ⟨distance, hOffset, hAt⟩
      rcases lexeme_of_skipped hStep with
        ⟨c, cs, lexeme, _, hRest, _, hNext⟩
      refine ⟨byteLength lexeme + distance, ?_, ?_⟩
      · rw [hOffset, hNext, Nat.add_assoc]
      · rw [hRest]
        exact hAt.append_left lexeme
  | @token scanner next last first tokens hStep hRun ih =>
      rcases token_of_step hStep with
        ⟨hRest, hOffset, hNext⟩
      rcases List.mem_cons.mp hToken with rfl | hToken
      · exact ⟨0, hOffset, [], next.rest, hRest, rfl⟩
      · rcases ih hToken with ⟨distance, hLater, hAt⟩
        refine
          ⟨byteLength first.text.toList + distance, ?_, ?_⟩
        · rw [hLater, hNext, Nat.add_assoc]
        · rw [hRest]
          exact hAt.append_left _

end Scanner

/- Every token of a source stands where its offset says. -/
theorem at_of_tokenize
    {source : String}
    {tokens : List Token}
    (hTokens : tokenize source = .ok tokens)
    {token : Token}
    (hToken : token ∈ tokens) :
    Text.At token.text.toList token.offset source.toList := by
  rcases Scanner.run_of_tokens hTokens with ⟨last, hRun, _⟩
  rcases Scanner.at_of_run hRun hToken with
    ⟨distance, hOffset, hAt⟩
  rw [hOffset, Scanner.ofSource, Nat.zero_add]
  exact hAt

------------------------------------------------------------
-- Places Of Failures
------------------------------------------------------------

/- The offsets of some tokens, and where they stop. -/
def marks
    (stop : Nat)
    (tokens : List Token) : List Nat :=
  tokens.map Token.offset ++ [stop]

/- Marks move along with their tokens. -/
theorem marks_moved
    (place : Nat → Nat)
    (stop : Nat)
    (tokens : List Token) :
    marks (place stop) (tokens.map (Token.moved place)) =
      (marks stop tokens).map place := by
  simp [marks, Function.comp_def]

/- A reader that moves along fails at one of the marks. -/
theorem Reader.offset_mem_marks
    {α : Type}
    {reader : Reader α}
    (hMoves : ∀ place, Moves place id reader reader)
    {stop : Nat}
    {tokens left : List Token}
    {failure : Failure}
    (hStuck : reader stop tokens = .stuck failure left) :
    failure.offset ∈ marks stop tokens := by
  -- move everything but the marks
  let place : Nat → Nat := fun offset =>
    if offset ∈ marks stop tokens then offset else offset + 1
  have hStop : place stop = stop := by
    simp [place, marks]
  have hTokens : tokens.map (Token.moved place) = tokens := by
    have hToken :
        ∀ token ∈ tokens,
          Token.moved place token = id token := by
      intro token hToken
      have hMark : token.offset ∈ marks stop tokens :=
        List.mem_append_left _ (List.mem_map_of_mem hToken)
      simp [Token.moved, place, hMark]
    rw [List.map_congr_left hToken, List.map_id]
  have hSame := hMoves place stop tokens
  rw [hStop, hTokens, hStuck] at hSame
  simp only [Outcome.moved, Outcome.stuck.injEq] at hSame
  have hOffset := congrArg Failure.offset hSame.1
  by_cases hMember : failure.offset ∈ marks stop tokens
  · exact hMember
  · simp only [Failure.moved, place, hMember,
      if_false] at hOffset
    omega

/- The tokens of a source are read with failures at its marks. -/
theorem Grammar.offset_mem_marks_of_parseTokens
    {source : String}
    {tokens : List Token}
    {failure : Failure}
    (hParse :
      (parseTokens source tokens).result = .error failure) :
    failure.offset ∈ marks source.utf8ByteSize tokens := by
  cases hOutcome : parseTokens source tokens with
  | read record left =>
      rw [hOutcome] at hParse
      cases hParse
  | stuck other left =>
      rw [hOutcome] at hParse
      cases hParse
      exact
        Reader.offset_mem_marks
          (fun place => moves_record Record.maxDepth) hOutcome

end StatusEffect
