import StatusEffect.Proofs.Grammar.FurtherSections
import StatusEffect.Proofs.Notation.Mandatory
import StatusEffect.Proofs.Token.Tiling

/-
  What is blamed when a notation is extended.

  A blank behind a notation leaves its tokens as they are, so
  more text only adds tokens, and these are read on from where
  the accepted part ended. If the whole is rejected, then for
  the further text. There is one exception: a flat magnitude
  at the end becomes the start of a range of turns, and is
  blamed if the range ends below it.

  Key definitions include:
    * `Grammar.RangeAcross`

  Key theorems include:
    * `Scanner.tokens_append_of_stops`
    * `Grammar.exists_rangeAcross`
    * `Grammar.blame_of_append`
-/

------------------------------------------------------------
-- Further Tokens
------------------------------------------------------------

namespace StatusEffect

open Text

namespace Scanner

/-
  A text with a break behind it gives the same tokens, and the
  scan goes on at the break.
-/
theorem tokens_append_of_stops
    {cs broken : List Char}
    {offset braces : Nat}
    {mode : Mode}
    {found : List Token}
    (hFound :
      (tokens ⟨cs, offset, mode, braces⟩).1 = .ok found)
    (hBroken : Stops isPlain broken) :
    ∃ later depth,
      (tokens ⟨cs ++ broken, offset, mode, braces⟩).1 =
        (tokens
          ⟨broken, offset + byteLength cs, later,
            depth⟩).1.map (found ++ ·) := by
  induction hLength : cs.length
    using Nat.strongRecOn
    generalizing cs offset mode braces found with
  | ind length ih =>
      subst hLength
      rcases cs with _ | ⟨c, cs⟩
      · rw [tokens_of_done rfl] at hFound
        cases hFound
        refine ⟨mode, braces, ?_⟩
        rw [List.nil_append]
        change _ =
          (tokens ⟨broken, offset, mode, braces⟩).1.map _
        generalize
          (tokens ⟨broken, offset, mode, braces⟩).1 = outcome
        cases outcome <;> rfl
      · by_cases hBlank : isBlank c = true
        · rw [tokens_of_isBlank hBlank] at hFound
          rcases ih cs.length (by simp) hFound rfl with
            ⟨later, depth, hLater⟩
          refine ⟨later, depth, ?_⟩
          rw [List.cons_append, tokens_of_isBlank hBlank,
            hLater, byteLength, Nat.add_assoc]
        · rw [Bool.not_eq_true] at hBlank
          rcases exists_lexeme_of_tokens hBlank hFound with
            ⟨kind, others, rest, behind, rfl, hLexeme, hKind,
              rfl, hBehind⟩
          have hShort :
              rest.length <
                (c :: (others ++ rest)).length := by
            simp only [List.length_cons, List.length_append]
            omega
          rcases ih rest.length hShort hBehind rfl with
            ⟨later, depth, hLater⟩
          have hJoined :=
            Mode.lexeme_append_of_stops hBlank mode
              (others ++ rest) hBroken
          rw [hLexeme] at hJoined
          have hStep :=
            step_of_lexeme hJoined hKind offset braces
          refine ⟨later, depth, ?_⟩
          rw [List.cons_append, tokens_of_token hStep,
            hLater, ← List.cons_append, byteLength_append,
            Nat.add_assoc]
          generalize (tokens ⟨broken, _, later, depth⟩).1 =
            outcome
          cases outcome <;> rfl

/- A step fails where it starts. -/
theorem offset_of_invalid
    {scanner next : Scanner}
    {failure : Failure}
    (hStep : scanner.step = .invalid failure next) :
    failure.offset = scanner.offset := by
  unfold step at hStep
  split at hStep
  · cases hStep
  · dsimp only at hStep
    split at hStep
    · cases hStep
    · cases hStep
      rfl
    · cases hStep

/- A scan fails where it starts or behind. -/
theorem le_offset_of_error
    {scanner : Scanner}
    {failure : Failure}
    (hError : scanner.tokens.1 = .error failure) :
    scanner.offset ≤ failure.offset := by
  rcases run_of_error hError with
    ⟨tokens, last, next, hRun, hStep⟩
  have hBytes := offset_of_run hRun
  rcases sameSigns_of_run hRun with ⟨used, hUsed, _⟩
  rw [hUsed, byteLength_append] at hBytes
  rw [offset_of_invalid hStep]
  omega

end Scanner

/-
  A notation with a blank and more text behind it has the same
  tokens and further ones, or a character behind it is invalid.
-/
theorem tokenize_append_of_blank
    {source more : String}
    {tokens : List Token}
    (hTokens : tokenize source = .ok tokens)
    (hBlank : ∃ c ∈ more.toList.head?, isBlank c = true) :
    (∃ others,
        tokenize (source ++ more) = .ok (tokens ++ others) ∧
          ∀ token ∈ others,
            source.utf8ByteSize ≤ token.offset) ∨
      ∃ failure,
        tokenize (source ++ more) = .error failure ∧
          source.utf8ByteSize ≤ failure.offset := by
  have hBroken : Stops isPlain more.toList := by
    rcases hBlank with ⟨c, hHead, hBlank⟩
    intro d hOther
    rw [Option.mem_def.mp hHead] at hOther
    cases hOther
    exact isPlain_of_isBlank hBlank
  rcases Scanner.tokens_append_of_stops hTokens hBroken with
    ⟨mode, braces, hJoined⟩
  have hSize : 0 + byteLength source.toList =
      source.utf8ByteSize := by
    rw [Nat.zero_add, byteLength_toList]
  rw [hSize] at hJoined
  have hWhole :
      tokenize (source ++ more) =
        (Scanner.tokens
          ⟨more.toList, source.utf8ByteSize, mode,
            braces⟩).1.map (tokens ++ ·) := by
    rw [← hJoined, tokenize, Scanner.ofSource,
      String.toList_append]
  rw [hWhole]
  cases hMore :
      (Scanner.tokens
        ⟨more.toList, source.utf8ByteSize, mode,
          braces⟩).1 with
  | ok others =>
      left
      refine ⟨others, rfl, ?_⟩
      intro token hToken
      exact Scanner.le_offset_of_tokens hMore hToken
  | error failure =>
      right
      exact ⟨failure, rfl, Scanner.le_offset_of_error hMore⟩

/- A token starts in front of the end of its source. -/
theorem offset_lt_of_mem
    {source : String}
    {tokens : List Token}
    (hTokens : tokenize source = .ok tokens)
    {token : Token}
    (hToken : token ∈ tokens) :
    token.offset < source.utf8ByteSize := by
  have hTiles : Tiles 0 source.toList tokens :=
    Scanner.tiles_of_tokens hTokens
  have hSolid := hTiles.solid_of_mem hToken
  rcases hTiles.at_of_mem hToken with
    ⟨before, behind, hSource, hOffset⟩
  have hStart := hSolid.offset_lt_finish
  rw [token.finish_eq] at hStart
  rw [← byteLength_toList, hSource, byteLength_append,
    byteLength_append]
  omega

------------------------------------------------------------
-- Blame
------------------------------------------------------------

namespace Grammar

open Reader

/- The mandatory clauses take three tokens. -/
theorem exists_three_of_mandatory
    {stop : Nat}
    {tokens rest : List Token}
    {start : Target × Change × Subject}
    (hRead : mandatory stop tokens = .read start rest) :
    ∃ before,
      before.length = 3 ∧ tokens = before ++ rest := by
  simp only [mandatory, bind_eq_read_iff] at hRead
  rcases hRead with
    ⟨target, second, hTarget, change, third, hChange, subject,
      last, hSubject, hRest⟩
  cases hRest
  rcases spellsTarget_of_target hTarget with
    ⟨first, rfl, ⟨_, _⟩⟩
  rcases spellsChange_of_change hChange with ⟨_, rfl, ⟨_⟩⟩
  rcases spellsSubject_of_subject hSubject with
    ⟨used, rfl, hUsed⟩
  cases hUsed with
  | stat hCode => exact ⟨[_, _, _], rfl, rfl⟩
  | condition text offset => exact ⟨[_, _, _], rfl, rfl⟩

/- How an accepted notation was read. -/
theorem exists_mandatory_of_parse
    {source : String}
    {record : Record}
    (hSource : parse source = .ok record) :
    ∃ tokens start rest left,
      tokenize source = .ok tokens ∧
        mandatory source.utf8ByteSize tokens =
          .read start rest ∧
        behindStart start source.utf8ByteSize rest =
          .read record left := by
  cases hTokens : tokenize source with
  | error failure =>
      rw [parse, hTokens] at hSource
      cases hSource
  | ok tokens =>
      rw [parse_eq_bind hTokens, bind_apply] at hSource
      cases hStart : mandatory source.utf8ByteSize tokens with
      | stuck failure rest =>
          rw [hStart] at hSource
          cases hSource
      | read start rest =>
          rw [hStart] at hSource
          change
            (behindStart start source.utf8ByteSize
              rest).result = .ok record at hSource
          cases hRecord :
              behindStart start source.utf8ByteSize rest with
          | stuck failure left =>
              rw [hRecord] at hSource
              cases hSource
          | read found left =>
              rw [hRecord] at hSource
              cases hSource
              exact
                ⟨tokens, start, rest, left, rfl, hStart,
                  hRecord⟩

/- With more tokens the mandatory clauses stay as they are. -/
theorem parse_of_more
    {source more : String}
    {tokens others rest : List Token}
    {start : Target × Change × Subject}
    (hRead :
      mandatory source.utf8ByteSize tokens =
        .read start rest)
    (hJoined :
      tokenize (source ++ more) = .ok (tokens ++ others)) :
    parse (source ++ more) =
      (behindStart start (source ++ more).utf8ByteSize
        (rest ++ others)).result := by
  have hKept :=
    keeps_mandatory source.utf8ByteSize
      (source ++ more).utf8ByteSize tokens others start rest
      hRead
  rw [parse_eq_bind hJoined, bind_apply, hKept]

/- A mark of further tokens is not in the first text. -/
theorem le_of_mem_marks_append
    {source more : String}
    {others : List Token}
    (hOthers :
      ∀ token ∈ others,
        source.utf8ByteSize ≤ token.offset)
    {offset : Nat}
    (hOffset :
      offset ∈ marks (source ++ more).utf8ByteSize others) :
    source.utf8ByteSize ≤ offset := by
  rcases List.mem_append.mp hOffset with hToken | hStop
  · rcases List.mem_map.mp hToken with ⟨token, hMember, rfl⟩
    exact hOthers token hMember
  · rw [List.mem_singleton.mp hStop, String.utf8ByteSize_append]
    omega

/-
  The last token of a notation is its flat magnitude, right
  behind the mandatory clauses, and more text turns it into the
  start of a range of turns that ends below it.
-/
structure RangeAcross
    (source more : String)
    (record : Record)
    (number : Token)
    (first last : UInt32) : Prop where
  tokens :
    ∃ before others,
      before.length = 3 ∧
        tokenize source = .ok (before ++ [number]) ∧
        tokenize (source ++ more) =
          .ok (before ++ number :: others) ∧
        RangeEnd last others
  kind : number.kind = .number
  value : wordOfNumeral? number.text = some first
  magnitude : record.effect.magnitude = some (.flat first)
  order : last < first

/-
  A failure of an extended notation in its accepted part is
  that of a range across the two parts.
-/
theorem exists_rangeAcross
    {source more : String}
    {record : Record}
    (hSource : parse source = .ok record)
    (hBlank : ∃ c ∈ more.toList.head?, isBlank c = true)
    {failure : Failure}
    (hFailure : parse (source ++ more) = .error failure)
    (hOffset : failure.offset < source.utf8ByteSize) :
    ∃ number first last,
      RangeAcross source more record number first last ∧
        failure = ⟨.rangeReversed first last, number.offset⟩ := by
  rcases exists_mandatory_of_parse hSource with
    ⟨tokens, start, rest, left, hTokens, hRead, hRecord⟩
  have hNested := soundNested_record (Record.maxDepth - 1)
  rcases tokenize_append_of_blank hTokens hBlank with
    ⟨others, hJoined, hOthers⟩ | ⟨other, hJoined, hBehind⟩
  · -- all of it has tokens, so the reader decides
    rw [parse_of_more hRead hJoined] at hFailure
    have hOutside :
        failure.offset ∉
          marks (source ++ more).utf8ByteSize others := by
      intro hMark
      have hBehind := le_of_mem_marks_append hOthers hMark
      omega
    by_cases hCrosses : Crosses rest others
    · rcases hCrosses with ⟨number, rfl, hNumber, hTurns⟩
      rcases magnitude_of_behindMandatory hNumber hRecord with
        ⟨first, hFirst, hMagnitude⟩
      rcases behindMandatory_within hNested start hNumber
          hTurns hFirst (source ++ more).utf8ByteSize with
        hWithin | ⟨last, unread, hEnd, hOrder, hStuck⟩
      · have hMark := hWithin.offset_mem_marks hFailure
        exact absurd hMark hOutside
      · rw [List.singleton_append, behindStart,
          hStuck] at hFailure
        cases hFailure
        rcases exists_three_of_mandatory hRead with
          ⟨before, hThree, rfl⟩
        rw [List.append_assoc,
          List.singleton_append] at hJoined
        exact
          ⟨number, first, last,
            ⟨⟨before, others, hThree, hTokens, hJoined,
                hEnd⟩,
              hNumber, hFirst, hMagnitude, hOrder⟩,
            rfl⟩
    · have hGoesOn :=
        goesOnWith_behindMandatory hNested hCrosses start
          source.utf8ByteSize (source ++ more).utf8ByteSize
      rw [← behindStart, hRecord] at hGoesOn
      exact
        absurd (hGoesOn.offset_mem_marks hFailure) hOutside
  · -- the scan fails, and it does so behind the notation
    rw [parse, hJoined] at hFailure
    cases hFailure
    omega

/- A reversed range across the two parts is reported. -/
theorem parse_of_rangeAcross
    {source more : String}
    {record : Record}
    {number : Token}
    {first last : UInt32}
    (hSource : parse source = .ok record)
    (hAcross :
      RangeAcross source more record number first last) :
    parse (source ++ more) =
        .error ⟨.rangeReversed first last, number.offset⟩ ∧
      number.offset < source.utf8ByteSize := by
  rcases hAcross.tokens with
    ⟨before, others, hThree, hTokens, hJoined, hEnd⟩
  rcases exists_mandatory_of_parse hSource with
    ⟨tokens, start, rest, left, hSame, hRead, _⟩
  rw [hTokens] at hSame
  cases hSame
  rcases exists_three_of_mandatory hRead with
    ⟨taken, hTaken, hSplit⟩
  have hLength : before.length = taken.length := by
    rw [hThree, hTaken]
  have hRest : rest = [number] :=
    (List.append_inj hSplit hLength).2.symm
  subst hRest
  rw [← List.singleton_append, ← List.append_assoc] at hJoined
  rcases behindMandatory_of_rangeEnd
      (some (Grammar.record (Record.maxDepth - 1))) start
      hAcross.kind hAcross.value hEnd hAcross.order
      (source ++ more).utf8ByteSize with
    ⟨unread, hStuck⟩
  constructor
  · rw [parse_of_more hRead hJoined, List.singleton_append,
      behindStart, hStuck]
    rfl
  · exact offset_lt_of_mem hTokens (by simp)

/-
  Text behind an accepted notation and a blank is rejected for
  itself, with one exception: it completes a reversed range of
  turns that starts with the flat magnitude of the notation.
-/
theorem blame_of_append
    {source more : String}
    {record : Record}
    (hSource : parse source = .ok record)
    (hBlank : ∃ c ∈ more.toList.head?, isBlank c = true) :
    (∀ failure,
      parse (source ++ more) = .error failure →
        source.utf8ByteSize ≤ failure.offset ∨
          ∃ number first last,
            RangeAcross source more record number first
                last ∧
              failure =
                ⟨.rangeReversed first last,
                  number.offset⟩) ∧
    ∀ number first last,
      RangeAcross source more record number first last →
        parse (source ++ more) =
            .error
              ⟨.rangeReversed first last, number.offset⟩ ∧
          number.offset < source.utf8ByteSize ∧
          (Cause.rangeReversed first last).stage =
            .validation ∧
          (Cause.rangeReversed first last).message =
            "duration range start " ++ wordDecimal first ++
              " exceeds end " ++ wordDecimal last := by
  constructor
  · intro failure hFailure
    by_cases hOffset : failure.offset < source.utf8ByteSize
    · right
      exact
        exists_rangeAcross hSource hBlank hFailure hOffset
    · left
      omega
  · intro number first last hAcross
    rcases parse_of_rangeAcross hSource hAcross with
      ⟨hParse, hOffset⟩
    exact ⟨hParse, hOffset, rfl, rfl⟩

/- A magnitude that becomes the start of a reversed range. -/
theorem blame_of_append_range :
    ∃ record,
      parse "P+S4" = .ok record ∧
        (∃ c ∈ " -2T".toList.head?, isBlank c = true) ∧
        parse ("P+S4" ++ " -2T") =
          .error ⟨.rangeReversed 4 2, 3⟩ := by
  have hSource :
      parse "P+S4" =
        .ok
          ⟨{ target := .player
             change := .increase
             subject := .stat .strength
             magnitude := some (.flat 4) }, []⟩ := by
    decide +kernel
  have hTokens :
      tokenize "P+S4" =
        .ok
          [⟨.target, "P", 0⟩, ⟨.effectMarker, "+", 1⟩,
           ⟨.stat, "S", 2⟩, ⟨.number, "4", 3⟩] := by
    decide +kernel
  have hJoined :
      tokenize ("P+S4" ++ " -2T") =
        .ok
          [⟨.target, "P", 0⟩, ⟨.effectMarker, "+", 1⟩,
           ⟨.stat, "S", 2⟩, ⟨.number, "4", 3⟩,
           ⟨.rangeDash, "-", 5⟩, ⟨.number, "2", 6⟩,
           ⟨.durationType, "T", 7⟩] := by
    decide +kernel
  have hBlank : ∃ c ∈ " -2T".toList.head?, isBlank c = true :=
    ⟨' ', by decide +kernel, by decide⟩
  have hAcross :
      RangeAcross "P+S4" " -2T"
        ⟨{ target := .player
           change := .increase
           subject := .stat .strength
           magnitude := some (.flat 4) }, []⟩
        ⟨.number, "4", 3⟩ 4 2 :=
    { tokens :=
        ⟨[⟨.target, "P", 0⟩, ⟨.effectMarker, "+", 1⟩,
          ⟨.stat, "S", 2⟩], _, rfl, hTokens, hJoined,
          .turns [] rfl rfl (by decide +kernel) (by decide +kernel)⟩
      kind := rfl
      value := by decide +kernel
      magnitude := rfl
      order := by decide }
  have hBlame :=
    (blame_of_append hSource hBlank).2 _ _ _ hAcross
  exact ⟨_, hSource, hBlank, hBlame.1⟩

end Grammar

end StatusEffect
