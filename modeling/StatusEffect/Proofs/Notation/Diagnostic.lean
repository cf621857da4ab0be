import Mathlib.Control.Monad.Basic
import StatusEffect.Proofs.Grammar.Justified
import StatusEffect.Proofs.Grammar.Places
import StatusEffect.Proofs.Token.Invalid

/-
  Where diagnostics point.

  A failure is at a token, at the end of the source or at an
  invalid character. So its offset is between two characters
  of the source, and the caret stands below the character
  behind it. Words of the source in the message are texts of
  its tokens, so that a diagnostic has three lines if the
  source has one.

  Key definitions include:
    * `Text.OneLine`

  Key theorems include:
    * `Text.charsBefore?_append`
    * `Cause.oneLine_message`
    * `Grammar.place_of_parse`
    * `Grammar.diagnostic_of_parse`
-/

------------------------------------------------------------
-- Columns
------------------------------------------------------------

namespace StatusEffect

namespace Text

/- As many characters stand before a place as lead to it. -/
theorem charsBefore?_append
    (before behind : List Char) :
    charsBefore? (before ++ behind) (byteLength before) =
      some before.length := by
  induction before with
  | nil => cases behind <;> rfl
  | cons c before ih =>
      have hSize := c.utf8Size_pos
      rcases Nat.exists_eq_add_one.mpr
        (Nat.add_pos_left hSize (byteLength before)) with
        ⟨last, hLast⟩
      have hRest :
          last + 1 - c.utf8Size = byteLength before := by
        omega
      rw [List.cons_append, byteLength, hLast, charsBefore?,
        if_pos (by omega), hRest, ih]
      rfl

------------------------------------------------------------
-- Lines
------------------------------------------------------------

/- A text has no line feed. -/
def OneLine (text : String) : Prop :=
  '\n' ∉ text.toList

instance (text : String) : Decidable (OneLine text) :=
  inferInstanceAs (Decidable (¬ '\n' ∈ text.toList))

/- Two texts on one line are on one line together. -/
theorem OneLine.append
    {first second : String}
    (hFirst : OneLine first)
    (hSecond : OneLine second) :
    OneLine (first ++ second) := by
  simp only [OneLine, String.toList_append, List.mem_append,
    not_or]
  exact ⟨hFirst, hSecond⟩

/- A text on one line is so between others that are. -/
theorem OneLine.between
    {before text behind : String}
    (hText : OneLine text)
    (hBefore : OneLine before)
    (hBehind : OneLine behind) :
    OneLine (before ++ text ++ behind) :=
  (hBefore.append hText).append hBehind

/- A numeral is on one line. -/
theorem oneLine_decimal
    (n : Nat) :
    OneLine (decimal n) := by
  intro hFeed
  rw [decimal, String.toList_ofList] at hFeed
  have hDigit :=
    Nat.isDigit_of_mem_toDigits (by decide) (by decide) hFeed
  exact absurd hDigit (by decide)

/- The numeral of a word is on one line. -/
theorem oneLine_wordDecimal
    (n : UInt32) :
    OneLine (wordDecimal n) :=
  oneLine_decimal n.toNat

/- Spaces are on one line. -/
theorem oneLine_spaces
    (count : Nat) :
    OneLine (spaces count) := by
  intro hFeed
  rw [spaces, String.toList_ofList] at hFeed
  have hSpace := List.eq_of_mem_replicate hFeed
  exact absurd hSpace (by decide)

end Text

open Text

/- The description of a kind is on one line. -/
theorem TokenKind.oneLine_describe
    (kind : TokenKind) :
    OneLine kind.describe := by
  cases kind <;> decide

/- The wording of a role is on one line. -/
theorem Role.oneLine_phrase
    (role : Role) :
    OneLine role.phrase := by
  cases role <;> decide

/- The wording of an expectation adds no line to its quotes. -/
theorem Expectation.oneLine_phrase
    {what : Expectation}
    (hQuotes : ∀ quote ∈ what.quotes, OneLine quote) :
    OneLine what.phrase := by
  cases what with
  | triggerType sign =>
      have hSign := hQuotes sign List.mem_cons_self
      exact hSign.between (by decide) (by decide)
  | value operator =>
      have hOperator := hQuotes operator List.mem_cons_self
      exact hOperator.between (by decide) (by decide)
  | stackCount head =>
      have hHead := hQuotes head List.mem_cons_self
      exact hHead.between (by decide) (by decide)
  | _ => decide

namespace Cause

/- A token is named on one line if its text is on one. -/
theorem oneLine_named
    {text : String}
    (hText : OneLine text)
    (kind : TokenKind) :
    OneLine (named kind text) := by
  refine hText.between ?_ (by decide)
  exact kind.oneLine_describe.append (by decide)

/- The wording of a cause adds no line to its quotes. -/
theorem oneLine_message
    {cause : Cause}
    (hQuotes : ∀ quote ∈ cause.quotes, OneLine quote) :
    OneLine cause.message := by
  cases cause with
  | invalidCharacter text =>
      have hText := hQuotes text List.mem_cons_self
      exact hText.between (by decide) (by decide)
  | expected what found =>
      cases found with
      | none =>
          have hWhat := Expectation.oneLine_phrase hQuotes
          exact OneLine.append (by decide) hWhat
      | some found =>
          rw [quotes, List.forall_mem_cons] at hQuotes
          have hWhat := Expectation.oneLine_phrase hQuotes.2
          have hFound := oneLine_named hQuotes.1 found.1
          exact
            (hWhat.between (by decide) (by decide)).append
              hFound
  | unrecognized role text =>
      have hText := hQuotes text List.mem_cons_self
      refine hText.between ?_ (by decide)
      exact
        role.oneLine_phrase.between (by decide) (by decide)
  | outOfRange numeral =>
      have hNumeral := hQuotes numeral List.mem_cons_self
      exact hNumeral.between (by decide) (by decide)
  | turnsWithoutCount => decide
  | rangeReversed first last =>
      have hFirst := oneLine_wordDecimal first
      exact
        (hFirst.between (by decide) (by decide)).append
          (oneLine_wordDecimal last)
  | chanceTooHigh chance =>
      have hChance := oneLine_wordDecimal chance
      exact hChance.between (by decide) (by decide)
  | unexpected kind text =>
      have hText := hQuotes text List.mem_cons_self
      exact OneLine.append (by decide) (oneLine_named hText kind)
  | trailing kind text head =>
      rw [quotes, List.forall_mem_cons] at hQuotes
      have hHead := hQuotes.2 head List.mem_cons_self
      have hNamed := oneLine_named hQuotes.1 kind
      exact
        hHead.between
          (hNamed.between (by decide) (by decide))
          (by decide)
  | chainTooDeep => decide

end Cause

namespace Failure

/- The headline of a failure adds no line to its message. -/
theorem oneLine_headline
    {failure : Failure}
    (hMessage : OneLine failure.cause.message)
    (source : String) :
    OneLine (failure.diagnostic source).headline := by
  have hStage :
      OneLine (Vocabulary.code failure.cause.stage) := by
    cases failure.cause.stage <;> decide
  have hPlace :
      OneLine (" at position " ++ decimal failure.offset) :=
    OneLine.append (by decide) (oneLine_decimal _)
  exact
    hMessage.between (hStage.append (by decide)) hPlace

/-
  The diagnostic of a failure at a place in a source of one
  line has three lines, the last of which points there.
-/
theorem lines_diagnostic
    {failure : Failure}
    {source : String}
    {before behind : List Char}
    (hSource : source.toList = before ++ behind)
    (hOffset : byteLength before = failure.offset)
    (hMessage : OneLine failure.cause.message)
    (hLine : OneLine source) :
    (failure.diagnostic source).render.toList.splitOn '\n' =
      [(failure.diagnostic source).headline.toList,
        ("  " ++ source).toList,
        ("  " ++ spaces before.length ++ "^").toList] := by
  have hColumn :
      column source.toList failure.offset =
        before.length := by
    rw [column, hSource, ← hOffset, charsBefore?_append]
    rfl
  have hRender :
      (failure.diagnostic source).render.toList =
        ['\n'].intercalate
          [(failure.diagnostic source).headline.toList,
            ("  " ++ source).toList,
            ("  " ++ spaces before.length ++ "^").toList] := by
    simp only [Diagnostic.render, diagnostic,
      Diagnostic.pointer, hColumn, String.toList_append]
    simp [List.intercalate]
  have hLast :
      OneLine ("  " ++ spaces before.length ++ "^") :=
    (oneLine_spaces _).between (by decide) (by decide)
  rw [hRender]
  apply List.splitOn_intercalate
  · simp only [List.forall_mem_cons]
    refine ⟨oneLine_headline hMessage source, ?_, hLast, by simp⟩
    exact OneLine.append (by decide) hLine
  · exact List.cons_ne_nil _ _

end Failure

------------------------------------------------------------
-- Places Of Failures
------------------------------------------------------------

namespace Grammar

/-
  A rejected notation has an invalid character, where the
  failure is, or tokens that hold the reason for it.
-/
theorem failure_of_parse
    {source : String}
    {failure : Failure}
    (hParse : parse source = .error failure) :
    (∃ before c behind,
        source.toList = before ++ c :: behind ∧
          failure =
            ⟨.invalidCharacter (String.ofList [c]),
              byteLength before⟩) ∨
      ∃ tokens,
        tokenize source = .ok tokens ∧
          failure.Justified tokens ∧
          failure.offset ∈ marks source.utf8ByteSize tokens := by
  cases hTokens : tokenize source with
  | error other =>
      rw [parse, hTokens] at hParse
      cases hParse
      have hFirst := tokenize_eq_error_iff.mp hTokens
      have hMember := List.mem_of_mem_head? hFirst
      rcases mem_faults_iff.mp hMember with
        ⟨before, c, behind, hSource, _, rfl⟩
      left
      exact
        ⟨before, c, behind, hSource, by rw [Nat.zero_add]⟩
  | ok tokens =>
      rw [parse, hTokens] at hParse
      right
      exact
        ⟨tokens, rfl, justified_of_parseTokens hParse,
          offset_mem_marks_of_parseTokens hParse⟩

/- The marks of a source are places in it. -/
theorem exists_eq_append_of_mem_marks
    {source : String}
    {tokens : List Token}
    {offset : Nat}
    (hTokens : tokenize source = .ok tokens)
    (hOffset : offset ∈ marks source.utf8ByteSize tokens) :
    ∃ before behind,
      source.toList = before ++ behind ∧
        byteLength before = offset := by
  rw [marks, List.mem_append, List.mem_map,
    List.mem_singleton] at hOffset
  rcases hOffset with ⟨token, hToken, rfl⟩ | rfl
  · rcases at_of_tokenize hTokens hToken with
      ⟨before, behind, hSource, hBefore⟩
    exact ⟨before, _, hSource, hBefore⟩
  · exact
      ⟨source.toList, [], (List.append_nil _).symm,
        byteLength_toList source⟩

/- What a failure of a source of one line quotes is on one. -/
theorem oneLine_quotes_of_parse
    {source : String}
    {failure : Failure}
    (hParse : parse source = .error failure)
    (hLine : OneLine source) :
    ∀ quote ∈ failure.cause.quotes, OneLine quote := by
  intro quote hQuote hFeed
  apply hLine
  rcases failure_of_parse hParse with
    ⟨before, c, behind, hSource, rfl⟩ |
      ⟨tokens, hTokens, hJustified, _⟩
  · rw [List.mem_singleton.mp hQuote, String.toList_ofList,
      List.mem_singleton] at hFeed
    rw [hSource, hFeed]
    simp
  · rcases hJustified.mem_of_quotes hQuote hFeed with
      ⟨token, hToken, hChar⟩
    rcases at_of_tokenize hTokens hToken with
      ⟨before, behind, hSource, _⟩
    rw [hSource, List.mem_append, List.mem_append]
    exact .inr (.inl hChar)

/- The bytes before and behind a place are all of them. -/
theorem byteLength_add_of_append
    {source : String}
    {before behind : List Char}
    (hSource : source.toList = before ++ behind) :
    byteLength before + byteLength behind =
      source.utf8ByteSize := by
  rw [← byteLength_append, ← hSource, byteLength_toList]

/-
  A failure is between two characters of its source: in front
  of an invalid one, which the message names, or at a token
  or the end.
-/
theorem place_of_parse
    {source : String}
    {failure : Failure}
    (hParse : parse source = .error failure) :
    ∃ before behind,
      source.toList = before ++ behind ∧
        byteLength before = failure.offset ∧
        (failure.cause.stage = .tokenization →
          failure.offset < source.utf8ByteSize ∧
            ∃ c ∈ behind.head?,
              failure.cause.message =
                "invalid character '" ++
                  String.ofList [c] ++ "'") ∧
        (failure.cause.stage = .validation →
          ∃ tokens,
            tokenize source = .ok tokens ∧
              (failure.offset ∈ tokens.map Token.offset ∨
                failure.offset = source.utf8ByteSize)) := by
  rcases failure_of_parse hParse with
    ⟨before, c, behind, hSource, rfl⟩ |
      ⟨tokens, hTokens, hJustified, hMark⟩
  · refine ⟨before, c :: behind, hSource, rfl, ?_, ?_⟩
    · intro _
      have hSize := byteLength_add_of_append hSource
      have hPos := c.utf8Size_pos
      rw [byteLength] at hSize
      refine ⟨?_, c, rfl, rfl⟩
      simp only
      omega
    · intro hStage
      cases hStage
  · rcases exists_eq_append_of_mem_marks hTokens hMark with
      ⟨before, behind, hSource, hOffset⟩
    refine ⟨before, behind, hSource, hOffset, ?_, ?_⟩
    · intro hStage
      rw [hJustified.stage_eq] at hStage
      cases hStage
    · intro _
      rw [marks, List.mem_append,
        List.mem_singleton] at hMark
      exact ⟨tokens, hTokens, hMark⟩

/-
  The diagnostic of a rejected source shows the source and
  points between two of its characters: at an invalid one,
  which the message names, or at a token or the end. If the
  source is one line, the diagnostic has three, and the caret
  is below that place.
-/
theorem diagnostic_of_parse
    {source : String}
    {failure : Failure}
    (hParse : parse source = .error failure) :
    (failure.diagnostic source).snippet = some source ∧
      (failure.diagnostic source).offset =
        some failure.offset ∧
      failure.offset ≤ source.utf8ByteSize ∧
      ∃ before behind,
        source.toList = before ++ behind ∧
          byteLength before = failure.offset ∧
          ((failure.diagnostic source).stage =
              .tokenization →
            failure.offset < source.utf8ByteSize ∧
              ∃ c ∈ behind.head?,
                (failure.diagnostic source).message =
                  "invalid character '" ++
                    String.ofList [c] ++ "'") ∧
          ((failure.diagnostic source).stage = .validation →
            ∃ tokens,
              tokenize source = .ok tokens ∧
                (failure.offset ∈
                    tokens.map Token.offset ∨
                  failure.offset = source.utf8ByteSize)) ∧
          charsBefore? source.toList failure.offset =
            some before.length ∧
          ('\n' ∉ source.toList →
            (failure.diagnostic source).render.toList.splitOn
                '\n' =
              [(failure.diagnostic source).headline.toList,
                ("  " ++ source).toList,
                ("  " ++ spaces before.length ++
                  "^").toList]) := by
  rcases place_of_parse hParse with
    ⟨before, behind, hSource, hOffset, hInvalid, hMark⟩
  have hSize := byteLength_add_of_append hSource
  refine
    ⟨rfl, rfl, by omega, before, behind, hSource, hOffset,
      hInvalid, hMark, ?_, ?_⟩
  · rw [hSource, ← hOffset, charsBefore?_append]
  · intro hLine
    have hMessage :=
      Cause.oneLine_message
        (oneLine_quotes_of_parse hParse hLine)
    exact
      Failure.lines_diagnostic hSource hOffset hMessage hLine

/- A caret at the end of a source with a wide blank. -/
theorem diagnostic_of_unfinished :
    parse "\u3000P+" =
        .error ⟨.expected .subject none, 5⟩ ∧
      ∃ headline,
        (Failure.diagnostic ⟨.expected .subject none, 5⟩
            "\u3000P+").render.toList.splitOn '\n' =
          [headline, "  \u3000P+".toList,
            "     ^".toList] := by
  have hParse :
      parse "\u3000P+" =
        .error ⟨.expected .subject none, 5⟩ := by
    decide +kernel
  rcases diagnostic_of_parse hParse with
    ⟨_, _, _, before, behind, _, _, _, _, hColumn, hLines⟩
  have hLength : before.length = 3 := by
    have hThree :
        charsBefore? "\u3000P+".toList 5 = some 3 := by
      decide
    rw [hThree] at hColumn
    exact (Option.some.inj hColumn).symm
  rw [hLength] at hLines
  exact ⟨hParse, _, hLines (by decide)⟩

end Grammar

end StatusEffect
