import Mathlib.Algebra.Group.Nat.Defs
import StatusEffect.Proofs.Token.Spelling
import StatusEffect.Proofs.Notation.Diagnostic

/-
  Words that are always recognized.

  A rejected notation has its reason in one of its tokens, and
  these are spelled as their kinds are. So a word of a closed
  role is never the reason, at whatever depth it stands. And
  a number is one only if it has no value as a word. This is
  shown for the wording of failures, whose first words tell
  their causes apart.

  Key definitions include:
    * `Text.StartsWith`
    * `Cause.opening`

  Key theorems include:
    * `Cause.eq_of_number`
    * `Cause.unrecognized_of_startsWith`
    * `Grammar.not_unrecognized_of_closed`
    * `Grammar.recognized_of_parse`
-/

------------------------------------------------------------
-- Wordings
------------------------------------------------------------

namespace StatusEffect

open Text

namespace Text

/- A text starts with another one. -/
def StartsWith (text start : String) : Prop :=
  start.toList <+: text.toList

instance (text start : String) :
    Decidable (StartsWith text start) :=
  inferInstanceAs (Decidable (start.toList <+: text.toList))

/- A text starts with itself. -/
theorem StartsWith.refl
    (text : String) :
    StartsWith text text :=
  List.prefix_rfl

/- What stands behind a text does not change its start. -/
theorem StartsWith.append
    {text start : String}
    (hStart : StartsWith text start)
    (behind : String) :
    StartsWith (text ++ behind) start := by
  rw [StartsWith, String.toList_append]
  exact List.prefix_append_of_prefix hStart

/- Of two starts of a text, one is a start of the other. -/
theorem StartsWith.comparable
    {text first second : String}
    (hFirst : StartsWith text first)
    (hSecond : StartsWith text second) :
    StartsWith second first ∨ StartsWith first second :=
  List.prefix_or_prefix_of_prefix hFirst hSecond

end Text

namespace Cause

/- The first words of the wording of a cause. -/
def opening : Cause → String
  | .invalidCharacter _ => "invalid character '"
  | .expected _ _ => "expected "
  | .unrecognized _ _ => "unrecognized "
  | .outOfRange _ => "number '"
  | .turnsWithoutCount =>
      "turn duration needs a count before 'T'"
  | .rangeReversed _ _ => "duration range start "
  | .chanceTooHigh _ => "trigger chance "
  | .unexpected _ _ => "unexpected "
  | .trailing _ _ _ => "unexpected "
  | .chainTooDeep => "chain target nested too deeply"

/- A wording starts with its first words. -/
theorem startsWith_opening
    (cause : Cause) :
    StartsWith cause.message cause.opening := by
  have hStart := StartsWith.refl cause.opening
  cases cause with
  | invalidCharacter text => exact (hStart.append _).append _
  | expected what found =>
      cases found with
      | none => exact hStart.append _
      | some found =>
          exact ((hStart.append _).append _).append _
  | unrecognized role text =>
      exact
        (((hStart.append _).append _).append _).append _
  | outOfRange numeral => exact (hStart.append _).append _
  | turnsWithoutCount => exact hStart
  | rangeReversed first last =>
      exact ((hStart.append _).append _).append _
  | chanceTooHigh chance => exact (hStart.append _).append _
  | unexpected kind text => exact hStart.append _
  | trailing kind text head =>
      exact
        (((hStart.append _).append _).append _).append _
  | chainTooDeep => exact hStart

/- A wording about an unrecognized word has that cause. -/
theorem unrecognized_of_startsWith
    {cause : Cause}
    (hStart : StartsWith cause.message "unrecognized ") :
    ∃ role text, cause = .unrecognized role text := by
  have hComparable :=
    hStart.comparable cause.startsWith_opening
  cases cause with
  | unrecognized role text => exact ⟨role, text, rfl⟩
  | _ =>
      dsimp only [opening] at hComparable
      exact absurd hComparable (by decide)

/- A wording about a number has that cause. -/
theorem outOfRange_of_startsWith
    {cause : Cause}
    (hStart : StartsWith cause.message "number '") :
    ∃ numeral, cause = .outOfRange numeral := by
  have hComparable :=
    hStart.comparable cause.startsWith_opening
  cases cause with
  | outOfRange numeral => exact ⟨numeral, rfl⟩
  | _ =>
      dsimp only [opening] at hComparable
      exact absurd hComparable (by decide)

/- A wording about a number names the number of its cause. -/
theorem eq_of_number
    {cause : Cause}
    {numeral : String}
    (hMessage :
      cause.message =
        "number '" ++ numeral ++ "' is out of range") :
    cause = .outOfRange numeral := by
  have hStart : StartsWith cause.message "number '" := by
    rw [hMessage]
    exact ((StartsWith.refl _).append _).append _
  rcases outOfRange_of_startsWith hStart with ⟨other, rfl⟩
  have hChars :
      ("number '" ++ other ++ "' is out of range").toList =
        ("number '" ++ numeral ++
          "' is out of range").toList :=
    congrArg String.toList hMessage
  rw [String.toList_append, String.toList_append,
    String.toList_append, String.toList_append] at hChars
  have hFront := List.append_cancel_right hChars
  have hSame := List.append_cancel_left hFront
  rw [String.toList_injective hSame]

end Cause

/- The phrase of a closed role starts no other phrase. -/
theorem Role.eq_of_startsWith
    {role other : Role}
    {text : String}
    (hRole : role ∈ closed)
    (hStart :
      StartsWith (Cause.unrecognized other text).message
        ("unrecognized " ++ role.phrase)) :
    other = role := by
  have hPhrase :
      StartsWith (Cause.unrecognized other text).message
        ("unrecognized " ++ other.phrase ++ " '") :=
    ((StartsWith.refl _).append _).append _
  have hComparable := hStart.comparable hPhrase
  clear hStart hPhrase
  revert hComparable
  revert role
  cases other <;> decide

------------------------------------------------------------
-- Rejected Notations
------------------------------------------------------------

namespace Grammar

/- A word that is not recognized is not of a closed role. -/
theorem notMem_closed_of_justified
    {tokens : List Token}
    (hSpells :
      ∀ token ∈ tokens, token.kind.Spells token.text)
    {role : Role}
    {text : String}
    {offset : Nat}
    (hFailure :
      Failure.Justified tokens
        ⟨.unrecognized role text, offset⟩) :
    role ∉ Role.closed := by
  intro hRole
  cases hFailure with
  | word hToken hKind hUnknown =>
      have hKnown :=
        Role.knows_of_spells hRole hKind (hSpells _ hToken)
      rw [hUnknown] at hKnown
      cases hKnown
  | event hSign hSignKind hLetter hLetterKind hUnknown =>
      exact absurd hRole (by decide)

/- No notation is rejected for a word of a closed role. -/
theorem not_unrecognized_of_closed
    {source : String}
    {failure : Failure}
    (hParse : parse source = .error failure)
    {role : Role}
    (hRole : role ∈ Role.closed) :
    ¬ StartsWith failure.cause.message
        ("unrecognized " ++ role.phrase) := by
  intro hStart
  have hWord :
      StartsWith failure.cause.message "unrecognized " := by
    have hFirst :=
      (StartsWith.refl "unrecognized ").append role.phrase
    exact List.IsPrefix.trans hFirst hStart
  rcases failure with ⟨cause, offset⟩
  rcases Cause.unrecognized_of_startsWith hWord with
    ⟨other, text, rfl⟩
  rcases failure_of_parse hParse with
    ⟨_, _, _, _, hInvalid⟩ | ⟨tokens, hTokens, hJustified, _⟩
  · cases hInvalid
  · have hSpells :
        ∀ token ∈ tokens, token.kind.Spells token.text :=
      fun token hToken => spells_of_tokenize hTokens hToken
    have hOther := notMem_closed_of_justified hSpells hJustified
    rw [Role.eq_of_startsWith hRole hStart] at hOther
    exact hOther hRole

/-
  A notation is rejected for the range of a number only at a
  number that has a digit beyond ASCII, or is too large.
-/
theorem exists_number_of_parse
    {source numeral : String}
    {failure : Failure}
    (hParse : parse source = .error failure)
    (hMessage :
      failure.cause.message =
        "number '" ++ numeral ++ "' is out of range") :
    ∃ tokens,
      tokenize source = .ok tokens ∧
        ∃ token ∈ tokens,
          token.kind = .number ∧
            token.text = numeral ∧
            token.offset = failure.offset ∧
            ((∃ c ∈ numeral.toList,
                isDecimalDigit c = true ∧ 0x80 ≤ c.toNat) ∨
              numeral.toList.all isAsciiDigit = true ∧
                2 ^ 32 ≤ digitsValue numeral.toList) := by
  rcases failure with ⟨cause, offset⟩
  have hCause := Cause.eq_of_number hMessage
  subst hCause
  rcases failure_of_parse hParse with
    ⟨_, _, _, _, hInvalid⟩ | ⟨tokens, hTokens, hJustified, _⟩
  · cases hInvalid
  · cases hJustified with
    | @number token hToken hKind hRange =>
        have hSpells := spells_of_tokenize hTokens hToken
        rw [hKind, TokenKind.spells_number_iff] at hSpells
        refine
          ⟨tokens, hTokens, token, hToken, hKind, rfl, rfl, ?_⟩
        rw [wordOfNumeral?_eq_none_iff hSpells.1
          hSpells.2] at hRange
        rcases hRange with ⟨c, hChar, hHigh⟩ | hLarge
        · have hDigit :=
            List.all_eq_true.mp hSpells.2 c hChar
          exact .inl ⟨c, hChar, hDigit, hHigh⟩
        · exact .inr hLarge

/-
  Every token has a text that a pattern of its kind describes.
  For the closed roles such texts are the words that are
  known, so that no notation is rejected because a word of
  one is not recognized, however deep it stands. And one is
  rejected because a number is out of range only at a number
  with a digit beyond ASCII, or with too large a value.
-/
theorem recognized_of_parse :
    (∀ source tokens,
      tokenize source = .ok tokens →
        ∀ token ∈ tokens, token.kind.Spells token.text) ∧
    (∀ role ∈ Role.closed, ∀ kind ∈ role.kinds, ∀ text,
      kind.Spells text ↔ role.knows text = true) ∧
    ∀ source failure,
      parse source = .error failure →
        (∀ wording ∈
            ["unrecognized effect type",
             "unrecognized duration type",
             "unrecognized element",
             "unrecognized special flag",
             "unrecognized stacking behavior"],
          ¬ StartsWith failure.cause.message wording) ∧
        ∀ numeral,
          failure.cause.message =
              "number '" ++ numeral ++ "' is out of range" →
            ∃ tokens,
              tokenize source = .ok tokens ∧
                ∃ token ∈ tokens,
                  token.kind = .number ∧
                    token.text = numeral ∧
                    token.offset = failure.offset ∧
                    ((∃ c ∈ numeral.toList,
                        isDecimalDigit c = true ∧
                          0x80 ≤ c.toNat) ∨
                      numeral.toList.all isAsciiDigit = true ∧
                        2 ^ 32 ≤
                          digitsValue numeral.toList) := by
  refine
    ⟨fun source tokens hTokens token hToken =>
        spells_of_tokenize hTokens hToken,
      fun role hRole kind hKind text =>
        Role.spells_iff_knows hRole hKind text, ?_⟩
  intro source failure hParse
  refine
    ⟨?_, fun numeral hMessage =>
      exists_number_of_parse hParse hMessage⟩
  have hWordings :
      ["unrecognized effect type",
        "unrecognized duration type",
        "unrecognized element",
        "unrecognized special flag",
        "unrecognized stacking behavior"] =
        Role.closed.map fun role =>
          "unrecognized " ++ role.phrase := by
    decide
  rw [hWordings, List.forall_mem_map]
  exact fun role hRole => not_unrecognized_of_closed hParse hRole

/-
  A target and a marker are spelled as they are known, and a
  digit of another script in a chain target is blamed.
-/
theorem recognized_of_parse_digit :
    TokenKind.target.Spells "P" ∧
    (TokenKind.effectMarker.Spells "!" ↔
      Role.effectType.knows "!" = true) ∧
    ¬ StartsWith (Cause.outOfRange "3٣").message
        "unrecognized element" ∧
    ∃ tokens,
      tokenize "P+S.>Heal(E-D3٣T)" = .ok tokens ∧
        ∃ token ∈ tokens,
          token.kind = .number ∧
            token.text = "3٣" ∧
            token.offset = 13 ∧
            ((∃ c ∈ "3٣".toList,
                isDecimalDigit c = true ∧ 0x80 ≤ c.toNat) ∨
              "3٣".toList.all isAsciiDigit = true ∧
                2 ^ 32 ≤ digitsValue "3٣".toList) := by
  have hParse :
      parse "P+S.>Heal(E-D3٣T)" =
        .error ⟨.outOfRange "3٣", 13⟩ := by
    decide +kernel
  have hRejected := recognized_of_parse.2.2 _ _ hParse
  exact
    ⟨recognized_of_parse.1 "P" [⟨.target, "P", 0⟩]
        (by decide +kernel) _ List.mem_cons_self,
      recognized_of_parse.2.1 .effectType (by decide)
        .effectMarker (by decide) "!",
      hRejected.1 "unrecognized element" (by decide),
      hRejected.2 "3٣" rfl⟩

end Grammar

end StatusEffect
