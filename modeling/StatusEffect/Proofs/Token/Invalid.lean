import StatusEffect.Proofs.Token.Break

/-
  Scans past invalid characters.

  Which characters of a source are invalid follows from the
  source alone, whatever the modes and braces are on the way.
  A scanner fails at each of them in turn, and reads on from
  there as if blanks had stood in its place. So the first
  call without a failure gives the tokens behind the last
  invalid character, as they are in the source with all of
  them blanked out.

  Key definitions include:
    * `isBad`
    * `faults`
    * `blanked`
    * `Scanner.Recovers`

  Key theorems include:
    * `Scanner.recovers`
    * `mem_faults_iff`
    * `tokenize_eq_error_iff`
    * `scans_recover`
-/

------------------------------------------------------------
-- Invalid Characters
------------------------------------------------------------

namespace StatusEffect

open Text

/- The signs that a source can have. -/
def sourceSigns : List Char :=
  ['.', ',', '\x7b', '\x7d', '(', ')', '<', '>', '=', '!',
   '#', '+', '-', '*', '%', '?', '^', '_', '~', '$']

/-
  A character cannot be read where it stands: it is neither
  a blank nor a digit, a letter or a sign, or it is a sign
  that needs a letter behind it and has none.
-/
def isBad
    (c : Char)
    (cs : List Char) : Bool :=
  !(isBlank c || isDecimalDigit c || isLetter c ||
      oneOf sourceSigns c) ||
    (oneOf ['~', '$'] c && !cs.head?.any isLetter)

/- The failures at the bad characters of a text, in order. -/
def faults : List Char → Nat → List Failure
  | [], _ => []
  | c :: cs, offset =>
      if isBad c cs then
        ⟨.invalidCharacter (String.ofList [c]), offset⟩ ::
          faults cs (offset + c.utf8Size)
      else
        faults cs (offset + c.utf8Size)

/- A text with as many blanks for a bad character as its bytes. -/
def blanked : List Char → List Char
  | [] => []
  | c :: cs =>
      if isBad c cs then
        List.replicate c.utf8Size ' ' ++ blanked cs
      else
        c :: blanked cs

/- A character is bad if it is no blank and starts no token. -/
theorem isBad_eq
    (c : Char)
    (cs : List Char) :
    isBad c cs = !(isBlank c || startsToken c cs) := by
  by_cases hLead : isLead c = true
  · have hBlank : isBlank c = false := by
      rw [Bool.eq_false_iff]
      intro hBlank
      have hNone : isLead c = false :=
        oneOf_of_isBlank (by decide) hBlank
      rw [hNone] at hLead
      cases hLead
    have hPlain : isPlain c = false := by
      simp only [isLead, oneOf, List.contains_iff_mem,
        List.mem_cons, List.not_mem_nil, or_false] at hLead
      rcases hLead with rfl | rfl <;> decide
    have hSign : oneOf sourceSigns c = true := by
      simp only [isLead, oneOf, List.contains_iff_mem,
        List.mem_cons, List.not_mem_nil, or_false] at hLead
      rcases hLead with rfl | rfl <;> decide
    have hSame : oneOf ['~', '$'] c = true := hLead
    simp [isBad, startsToken, hBlank, hPlain, hSign, hSame,
      hLead]
  · have hSame : oneOf ['~', '$'] c = false :=
      Bool.eq_false_iff.mpr hLead
    have hSigns :
        oneOf sourceSigns c = oneOf plainSigns c := by
      have hSplit : sourceSigns = plainSigns ++ ['~', '$'] :=
        rfl
      simp only [oneOf] at hSame
      simp only [oneOf, hSplit, List.contains_append, hSame,
        Bool.or_false]
    simp [isBad, startsToken, isPlain, hSame, hSigns,
      Bool.eq_false_iff.mpr hLead, Bool.or_assoc]

/- A plain character is never bad. -/
theorem isBad_of_isPlain
    {c : Char}
    (hPlain : isPlain c = true)
    (cs : List Char) :
    isBad c cs = false := by
  simp [isBad_eq, startsToken, hPlain]

/- No bad character is plain. -/
theorem isPlain_of_isBad
    {c : Char}
    {cs : List Char}
    (hBad : isBad c cs = true) :
    isPlain c = false := by
  rw [Bool.eq_false_iff]
  intro hPlain
  rw [isBad_of_isPlain hPlain] at hBad
  cases hBad

------------------------------------------------------------
-- Faults
------------------------------------------------------------

/- The faults of a text are where its bad characters are. -/
theorem mem_faults_iff
    {cs : List Char}
    {offset : Nat}
    {failure : Failure} :
    failure ∈ faults cs offset ↔
      ∃ before c behind,
        cs = before ++ c :: behind ∧
          isBad c behind = true ∧
          failure =
            ⟨.invalidCharacter (String.ofList [c]),
              offset + byteLength before⟩ := by
  induction cs generalizing offset with
  | nil => simp [faults]
  | cons c cs ih =>
      have hFaults :
          failure ∈ faults (c :: cs) offset ↔
            (isBad c cs = true ∧
              failure =
                ⟨.invalidCharacter (String.ofList [c]),
                  offset⟩) ∨
              failure ∈ faults cs (offset + c.utf8Size) := by
        by_cases hBad : isBad c cs = true
        · simp [faults, hBad]
        · simp [faults, hBad]
      rw [hFaults, ih]
      constructor
      · rintro (⟨hBad, rfl⟩ |
          ⟨before, d, behind, rfl, hBad, rfl⟩)
        · exact ⟨[], c, cs, rfl, hBad, rfl⟩
        · refine ⟨c :: before, d, behind, rfl, hBad, ?_⟩
          simp [byteLength, Nat.add_assoc]
      · rintro ⟨before, d, behind, hText, hBad, rfl⟩
        cases before with
        | nil =>
            simp only [List.nil_append,
              List.cons.injEq] at hText
            rcases hText with ⟨rfl, rfl⟩
            exact .inl ⟨hBad, rfl⟩
        | cons e before =>
            simp only [List.cons_append,
              List.cons.injEq] at hText
            rcases hText with ⟨rfl, rfl⟩
            right
            refine ⟨before, d, behind, rfl, hBad, ?_⟩
            simp [byteLength, Nat.add_assoc]

/- The faults of a text lie in it. -/
theorem le_offset_of_mem_faults
    {cs : List Char}
    {offset : Nat}
    {failure : Failure}
    (hFailure : failure ∈ faults cs offset) :
    offset ≤ failure.offset := by
  rcases mem_faults_iff.mp hFailure with
    ⟨before, c, behind, _, _, rfl⟩
  exact Nat.le_add_right _ _

/- The faults of a text are in the order of their places. -/
theorem pairwise_faults
    (cs : List Char)
    (offset : Nat) :
    (faults cs offset).Pairwise fun first second =>
      first.offset < second.offset := by
  induction cs generalizing offset with
  | nil => exact .nil
  | cons c cs ih =>
      unfold faults
      split
      · refine .cons ?_ (ih _)
        intro failure hFailure
        have hLater := le_offset_of_mem_faults hFailure
        have hSize := c.utf8Size_pos
        simp only
        omega
      · exact ih _

/- Plain characters have no faults. -/
theorem faults_append_of_plain
    {cs : List Char}
    (hPlain : cs.all isPlain = true)
    (rest : List Char)
    (offset : Nat) :
    faults (cs ++ rest) offset =
      faults rest (offset + byteLength cs) := by
  induction cs generalizing offset with
  | nil => rfl
  | cons c cs ih =>
      simp only [List.all_cons, Bool.and_eq_true] at hPlain
      simp [faults, isBad_of_isPlain hPlain.1, ih hPlain.2,
        byteLength, Nat.add_assoc]

------------------------------------------------------------
-- Blanked Texts
------------------------------------------------------------

/- Plain characters stay as they are. -/
theorem blanked_append_of_plain
    {cs : List Char}
    (hPlain : cs.all isPlain = true)
    (rest : List Char) :
    blanked (cs ++ rest) = cs ++ blanked rest := by
  induction cs with
  | nil => rfl
  | cons c cs ih =>
      simp only [List.all_cons, Bool.and_eq_true] at hPlain
      simp [blanked, isBad_of_isPlain hPlain.1, ih hPlain.2]

/- As many blanks have as many bytes. -/
theorem byteLength_spaces
    (count : Nat) :
    byteLength (List.replicate count ' ') = count := by
  induction count with
  | zero => rfl
  | succ count ih =>
      have hSize : ' '.utf8Size = 1 := by
        decide
      rw [List.replicate_succ, byteLength, ih, hSize,
        Nat.add_comm]

/-
  A text is the same as its blanked form up to a place where
  both break the lexeme before it.
-/
theorem exists_break
    (cs : List Char) :
    ∃ before broken other,
      cs = before ++ broken ∧
        blanked cs = before ++ other ∧
        Stops isPlain broken ∧ Stops isPlain other := by
  induction cs with
  | nil => exact ⟨[], [], [], rfl, rfl, by simp, by simp⟩
  | cons c cs ih =>
      by_cases hBad : isBad c cs = true
      · refine
          ⟨[], c :: cs, blanked (c :: cs), rfl, rfl, ?_, ?_⟩
        · exact stops_of_cons (isPlain_of_isBad hBad)
        · rcases Nat.exists_eq_add_one.mpr c.utf8Size_pos with
            ⟨size, hSize⟩
          rw [blanked, if_pos hBad, hSize,
            List.replicate_succ]
          exact stops_of_cons (by decide)
      · rcases ih with
          ⟨before, broken, other, hText, hBlanked,
            hBroken, hOther⟩
        refine
          ⟨c :: before, broken, other, ?_, ?_, hBroken,
            hOther⟩
        · rw [hText, List.cons_append]
        · rw [blanked, if_neg hBad, hBlanked,
            List.cons_append]

/- A token is read the same in a blanked text. -/
theorem Mode.lexeme_blanked
    {mode : Mode}
    {c : Char}
    {others rest : List Char}
    {kind : TokenKind}
    (hLexeme :
      mode.lexeme c (others ++ rest) =
        (kind, c :: others, rest))
    (hBlank : isBlank c = false)
    (hPlain : others.all isPlain = true) :
    mode.lexeme c (others ++ blanked rest) =
      (kind, c :: others, blanked rest) := by
  rcases exists_break (others ++ rest) with
    ⟨before, broken, other, hText, hBlanked, hBroken, hOther⟩
  rw [blanked_append_of_plain hPlain] at hBlanked
  rw [hText, lexeme_append_of_stops hBlank mode before
    hBroken] at hLexeme
  simp only [Prod.mk.injEq] at hLexeme
  rcases hLexeme with ⟨hKind, hOthers, _⟩
  have hBefore := mode.append_lexeme c before
  rw [hOthers] at hBefore
  simp only [List.cons_append, List.cons.injEq,
    true_and] at hBefore
  -- both breaks lie behind the lexeme
  have hRest :
      blanked rest = (mode.lexeme c before).2.2 ++ other := by
    rw [← hBefore, List.append_assoc] at hBlanked
    exact List.append_cancel_left hBlanked
  rw [hBlanked, lexeme_append_of_stops hBlank mode before
    hOther, hKind, hOthers, hRest]

------------------------------------------------------------
-- Repeated Calls
------------------------------------------------------------

/- A token is behind all of some failures. -/
def isBehind
    (failures : List Failure)
    (token : Token) : Bool :=
  failures.all fun failure => failure.offset < token.offset

/-
  What calls give one after the other: each failure, then the
  tokens behind all of them, and then nothing any more.
-/
def outcomes
    (failures : List Failure)
    (found : List Token)
    (idle : Nat) : List (Except Failure (List Token)) :=
  failures.map .error ++
    .ok (found.filter (isBehind failures)) ::
      List.replicate idle (.ok [])

/- Failures in front of all tokens leave them alone. -/
theorem filter_isBehind_cons
    {failure : Failure}
    {found : List Token}
    (hBefore : ∀ token ∈ found, failure.offset < token.offset)
    (failures : List Failure) :
    found.filter (isBehind (failure :: failures)) =
      found.filter (isBehind failures) := by
  apply List.filter_congr
  intro token hToken
  simp [isBehind, hBefore token hToken]

namespace Scanner

/-
  A scanner fails at each of the faults that are left. Then it
  gives the tokens behind them of the blanked text, which are
  all not before the scanner.
-/
structure Recovers
    (scanner : Scanner)
    (found : List Token) : Prop where
  blanked :
    (tokens { scanner with rest := blanked scanner.rest }).1 =
      .ok found
  start : ∀ token ∈ found, scanner.offset ≤ token.offset
  calls :
    ∀ idle,
      scanner.scans
          ((faults scanner.rest scanner.offset).length +
            1 + idle) =
        outcomes (faults scanner.rest scanner.offset) found
          idle

/- Scanners with the same tokens give the same in all calls. -/
theorem scans_congr
    {first second : Scanner}
    (hTokens : first.tokens = second.tokens)
    (calls : Nat) :
    first.scans (calls + 1) = second.scans (calls + 1) := by
  simp only [scans, hTokens]

/- At the end of a text all calls give nothing. -/
theorem scans_of_end
    {scanner : Scanner}
    (hRest : scanner.rest = [])
    (calls : Nat) :
    scanner.scans calls = List.replicate calls (.ok []) := by
  have hStep : scanner.step = .done := by
    simp [step, hRest]
  induction calls with
  | zero => rfl
  | succ calls ih =>
      rw [scans, tokens_of_done hStep, List.replicate_succ]
      exact congrArg _ ih

/- The end of a text recovers with nothing. -/
theorem recovers_of_end
    {scanner : Scanner}
    (hRest : scanner.rest = []) :
    scanner.Recovers [] := by
  have hText : blanked scanner.rest = [] := by
    rw [hRest]
    rfl
  have hFaults : faults scanner.rest scanner.offset = [] := by
    rw [hRest]
    rfl
  refine ⟨?_, by simp, ?_⟩
  · rw [tokens_of_done]
    simp [step, hText]
  · intro idle
    rw [hFaults, scans_of_end hRest, List.length_nil,
      Nat.zero_add, Nat.add_comm, List.replicate_succ]
    rfl

/- A scanner recovers before a blank as behind it. -/
theorem recovers_of_isBlank
    {c : Char}
    {cs : List Char}
    {offset braces : Nat}
    {mode : Mode}
    {found : List Token}
    (hBlank : isBlank c = true)
    (hNext :
      Recovers ⟨cs, offset + c.utf8Size, mode, braces⟩
        found) :
    Recovers ⟨c :: cs, offset, mode, braces⟩ found := by
  have hBad : isBad c cs = false := by
    simp [isBad_eq, hBlank]
  have hFaults :
      faults (c :: cs) offset =
        faults cs (offset + c.utf8Size) := by
    simp [faults, hBad]
  refine ⟨?_, ?_, ?_⟩
  · simp only [blanked, hBad,
      Bool.false_eq_true, if_false]
    rw [tokens_of_isBlank hBlank]
    exact hNext.blanked
  · intro token hToken
    have hStart := hNext.start token hToken
    simp only at hStart ⊢
    omega
  · intro idle
    have hCalls := hNext.calls idle
    simp only [hFaults] at hCalls ⊢
    rw [← hCalls, Nat.add_right_comm]
    exact
      scans_congr
        (tokens_of_isBlank hBlank cs offset mode braces) _

/- A bad character is the next failure of a scanner. -/
theorem recovers_of_isBad
    {c : Char}
    {cs : List Char}
    {offset braces : Nat}
    {mode : Mode}
    {found : List Token}
    (hBad : isBad c cs = true)
    (hNext :
      Recovers ⟨cs, offset + c.utf8Size, mode, braces⟩
        found) :
    Recovers ⟨c :: cs, offset, mode, braces⟩ found := by
  have hNone := hBad
  rw [isBad_eq, Bool.not_eq_true', Bool.or_eq_false_iff]
    at hNone
  have hFaults :
      faults (c :: cs) offset =
        ⟨.invalidCharacter (String.ofList [c]), offset⟩ ::
          faults cs (offset + c.utf8Size) := by
    simp [faults, hBad]
  have hTokens :=
    tokens_of_not_startsToken hNone.1 hNone.2 offset mode
      braces
  have hSize := c.utf8Size_pos
  refine ⟨?_, ?_, ?_⟩
  · have hBlanks :
        (List.replicate c.utf8Size ' ').all isBlank =
          true := by
      rw [List.all_eq_true]
      intro d hMember
      rw [List.eq_of_mem_replicate hMember]
      decide
    simp only [blanked, hBad, if_true]
    rw [tokens_of_blanks hBlanks, byteLength_spaces]
    exact hNext.blanked
  · intro token hToken
    have hStart := hNext.start token hToken
    simp only at hStart ⊢
    omega
  · intro idle
    have hCalls := hNext.calls idle
    have hBefore :
        ∀ token ∈ found, offset < token.offset := by
      intro token hToken
      have hStart := hNext.start token hToken
      simp only at hStart
      omega
    have hLength :
        (faults (c :: cs) offset).length + 1 + idle =
          (faults cs (offset + c.utf8Size)).length + 1 +
            idle + 1 := by
      rw [hFaults, List.length_cons]
      omega
    simp only [hLength]
    rw [scans, hTokens]
    simp only [hCalls, hFaults, outcomes, List.map_cons,
      List.cons_append]
    rw [filter_isBehind_cons hBefore]

/- A token is given by the call that reads on without failure. -/
theorem scans_of_token
    {scanner next : Scanner}
    {token : Token}
    (hStep : scanner.step = .token token next)
    (calls : Nat) :
    scanner.scans (calls + 1) =
      (next.scans (calls + 1)).modifyHead
        (Except.map (token :: ·)) := by
  simp only [scans, tokens_of_token hStep,
    List.modifyHead_cons]

/- A token in front of all failures is only given without any. -/
theorem outcomes_modifyHead
    {failures : List Failure}
    {token : Token}
    (hBefore :
      ∀ failure ∈ failures, token.offset < failure.offset)
    (found : List Token)
    (idle : Nat) :
    (outcomes failures found idle).modifyHead
        (Except.map (token :: ·)) =
      outcomes failures (token :: found) idle := by
  cases failures with
  | nil =>
      have hAll : isBehind [] = fun _ => true := rfl
      simp [outcomes, hAll, Except.map]
  | cons failure failures =>
      have hFirst := hBefore failure List.mem_cons_self
      have hNot : ¬ failure.offset < token.offset := by
        omega
      simp [outcomes, isBehind, hNot, Except.map]

/- A scanner recovers before a token as behind it. -/
theorem recovers_of_startsToken
    {c : Char}
    {cs : List Char}
    {offset braces : Nat}
    {mode : Mode}
    (hStarts : startsToken c cs = true)
    (hNext :
      ∀ next : Scanner,
        next.rest.length ≤ cs.length →
          ∃ found, next.Recovers found) :
    ∃ found,
      Recovers ⟨c :: cs, offset, mode, braces⟩ found := by
  have hBlank : isBlank c = false := by
    rw [Bool.eq_false_iff]
    intro hBlank
    rw [startsToken_of_isBlank hBlank] at hStarts
    cases hStarts
  have hBad : isBad c cs = false := by
    simp [isBad_eq, hStarts]
  have hKind := Mode.lexeme_of_startsToken hStarts mode
  rcases hLexeme : mode.lexeme c cs with ⟨kind, lexeme, rest⟩
  rw [hLexeme] at hKind
  rcases Mode.all_isPlain_of_lexeme hLexeme hKind with
    ⟨others, rfl, rfl, hPlain⟩
  have hBlanked :=
    Mode.lexeme_blanked hLexeme hBlank hPlain
  rcases hNext
    ⟨rest, offset + byteLength (c :: others),
      mode.after braces kind, Mode.bracesAfter braces kind⟩
    (by simp) with ⟨found, hFound⟩
  have hFaults :
      faults (c :: (others ++ rest)) offset =
        faults rest (offset + byteLength (c :: others)) := by
    simp [faults, hBad, faults_append_of_plain hPlain,
      byteLength, Nat.add_assoc]
  have hSize : 0 < byteLength (c :: others) := by
    have hFirst := c.utf8Size_pos
    simp only [byteLength]
    omega
  refine
    ⟨⟨kind, String.ofList (c :: others), offset⟩ :: found,
      ?_, ?_, ?_⟩
  · simp only [blanked, hBad, Bool.false_eq_true, if_false,
      blanked_append_of_plain hPlain]
    rw [tokens_of_token
      (step_of_lexeme hBlanked hKind offset braces)]
    simp only [hFound.blanked, Except.map]
  · intro token hToken
    rcases List.mem_cons.mp hToken with rfl | hToken
    · exact Nat.le_refl _
    · have hStart := hFound.start token hToken
      simp only at hStart ⊢
      omega
  · intro idle
    have hCalls := hFound.calls idle
    simp only [hFaults] at hCalls ⊢
    rw [Nat.add_right_comm] at hCalls ⊢
    rw [scans_of_token
      (step_of_lexeme hLexeme hKind offset braces), hCalls]
    apply outcomes_modifyHead
    intro failure hFailure
    have hLater := le_offset_of_mem_faults hFailure
    simp only
    omega

/- Every scanner recovers from the faults in front of it. -/
theorem recovers
    (scanner : Scanner) :
    ∃ found, scanner.Recovers found := by
  induction hLength : scanner.rest.length
    using Nat.strongRecOn generalizing scanner with
  | ind length ih =>
      rcases scanner with ⟨_ | ⟨c, cs⟩, offset, mode, braces⟩
      · exact ⟨[], recovers_of_end rfl⟩
      · have hNext :
            ∀ next : Scanner,
              next.rest.length ≤ cs.length →
                ∃ found, next.Recovers found := by
          intro next hShort
          refine ih next.rest.length ?_ next rfl
          simp only [List.length_cons] at hLength
          omega
        rcases hNext
          ⟨cs, offset + c.utf8Size, mode, braces⟩
          (Nat.le_refl _) with ⟨found, hFound⟩
        by_cases hBlank : isBlank c = true
        · exact ⟨found, recovers_of_isBlank hBlank hFound⟩
        · by_cases hStarts : startsToken c cs = true
          · exact recovers_of_startsToken hStarts hNext
          · have hBad : isBad c cs = true := by
              simp [isBad_eq, hBlank, hStarts]
            exact ⟨found, recovers_of_isBad hBad hFound⟩

end Scanner

------------------------------------------------------------
-- Sources
------------------------------------------------------------

/- A source fails at the first of its faults. -/
theorem tokenize_eq_error_iff
    {source : String}
    {failure : Failure} :
    tokenize source = .error failure ↔
      (faults source.toList 0).head? = some failure := by
  rcases (Scanner.ofSource source).recovers with
    ⟨found, hFound⟩
  have hCalls := hFound.calls 0
  simp only [Scanner.scans, Scanner.ofSource] at hCalls
  cases hFaults : faults source.toList 0 with
  | nil =>
      rw [hFaults] at hCalls
      have hFirst := (List.cons.inj hCalls).1
      simp [tokenize, Scanner.ofSource, hFirst]
  | cons first others =>
      rw [hFaults] at hCalls
      have hFirst := (List.cons.inj hCalls).1
      simp [tokenize, Scanner.ofSource, hFirst]

/- A source fails exactly if it has faults. -/
theorem exists_error_iff
    (source : String) :
    (∃ failure, tokenize source = .error failure) ↔
      faults source.toList 0 ≠ [] := by
  simp only [tokenize_eq_error_iff]
  cases faults source.toList 0 with
  | nil => simp
  | cons failure failures => simp

/-
  Whatever a source has, one scanner of it fails at each of
  its bad characters in turn, in any mode. The call after
  that gives the tokens behind the last of them, as they are
  in the blanked source, and later calls give nothing. So a
  source is rejected as soon as it has one bad character.
-/
theorem scans_recover
    (source : String) :
    ∃ failures found,
      (failures.Pairwise fun first second =>
          first.offset < second.offset) ∧
        (∀ failure : Failure,
          failure ∈ failures ↔
            ∃ before c behind,
              source.toList = before ++ c :: behind ∧
                isBad c behind = true ∧
                failure =
                  ⟨.invalidCharacter (String.ofList [c]),
                    byteLength before⟩) ∧
        tokenize (String.ofList (blanked source.toList)) =
          .ok found ∧
        (∀ idle,
          (Scanner.ofSource source).scans
              (failures.length + 1 + idle) =
            failures.map .error ++
              .ok
                (found.filter fun token =>
                  failures.all fun failure =>
                    failure.offset < token.offset) ::
                List.replicate idle (.ok [])) ∧
        ((∃ failure, tokenize source = .error failure) ↔
          failures ≠ []) := by
  rcases (Scanner.ofSource source).recovers with
    ⟨found, hFound⟩
  refine
    ⟨faults source.toList 0, found, pairwise_faults _ _, ?_,
      ?_, hFound.calls, exists_error_iff source⟩
  · intro failure
    rw [mem_faults_iff]
    simp only [Nat.zero_add]
  · have hBlanked := hFound.blanked
    simp only [Scanner.ofSource] at hBlanked
    rw [tokenize, Scanner.ofSource, String.toList_ofList,
      hBlanked]

end StatusEffect
