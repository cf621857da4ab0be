import Mathlib.Control.Monad.Basic
import StatusEffect.Proofs.Grammar.Moved
import StatusEffect.Proofs.Grammar.Parts
import StatusEffect.Proofs.Notation.Record
import StatusEffect.Proofs.Record.Followed

/-
  Notations with further sections.

  What stands behind a point is read by itself: it extends
  the record before the point by what its sections say. What
  they say does not depend on that record, and on the text
  before the point only through the braces that it leaves
  open and through its length, by which all failures move.

  Key definitions include:
    * `Grammar.sectionsAt`

  Key theorems include:
    * `Grammar.parse_append`
    * `Grammar.sectionsAt_add`
    * `Grammar.parse_append_of_bare`
-/

------------------------------------------------------------
-- Sections Behind A Notation
------------------------------------------------------------

namespace StatusEffect

open Text

namespace Grammar

open Reader

/-
  What the sections of a text say that starts at an offset,
  behind a point, with a number of braces open before it.
-/
def sectionsAt
    (offset braces : Nat)
    (text : String) : Except Failure (List Extension) := do
  let tokens ←
    (Scanner.tokens
      ⟨text.toList, offset, .extended, braces⟩).1
  extensions (some (record (Record.maxDepth - 1)))
    (Section.split (offset + text.utf8ByteSize) tokens)

/- What a text says further on, it says at the start too. -/
theorem sectionsAt_add
    (offset braces distance : Nat)
    (text : String) :
    sectionsAt (offset + distance) braces text =
      (sectionsAt offset braces text).mapError
        (Failure.moved (· + distance)) := by
  have hTokens :=
    Scanner.tokens_moved
      ⟨text.toList, offset, .extended, braces⟩ distance
  have hNested :
      MovesNested (· + distance)
        (some (record (Record.maxDepth - 1))) := by
    intro reader hReader
    cases hReader
    exact moves_record _
  simp only [Scanner.moved] at hTokens
  simp only [sectionsAt, hTokens]
  cases (Scanner.tokens
      ⟨text.toList, offset, .extended, braces⟩).1 with
  | error failure => rfl
  | ok tokens =>
      have hStop :
          offset + distance + text.utf8ByteSize =
            offset + text.utf8ByteSize + distance := by
        omega
      have hSplit :=
        @Section.split_moved (· + distance)
          (offset + text.utf8ByteSize) tokens
      have hExtensions :=
        extensions_moved hNested
          (Section.split (offset + text.utf8ByteSize) tokens)
      rw [← hSplit, ← hStop] at hExtensions
      exact hExtensions

/- The tokens of a notation, and where its scan ends. -/
theorem run_of_tokenize
    {source : String}
    {tokens : List Token}
    (hTokens : tokenize source = .ok tokens) :
    ∃ last,
      Scanner.Run (.ofSource source) tokens last ∧
        last.rest = [] ∧
        last.offset = source.utf8ByteSize ∧
        last.braces = openBraces source ∧
        SameSigns source.toList tokens := by
  rcases Scanner.run_of_tokens hTokens with
    ⟨last, hRun, hLast⟩
  rcases Scanner.sameSigns_of_run hRun with
    ⟨used, hUsed, hSigns⟩
  rw [hLast, List.append_nil] at hUsed
  have hText : source.toList = used := hUsed
  subst hText
  have hOffset := Scanner.offset_of_run hRun
  have hBraces := Scanner.braces_of_run hRun
  rw [hSigns.braces_eq] at hBraces
  simp only [hLast, Scanner.ofSource, byteLength,
    byteLength_toList, Nat.zero_add, Nat.add_zero] at hOffset
  exact ⟨last, hRun, hLast, hOffset, hBraces, hSigns⟩

/- What the record of some tokens has been read from. -/
theorem exists_core_of_recordWith
    {nested : Option (Reader Record)}
    {stop : Nat}
    {tokens : List Token}
    {record : Record}
    (hRead :
      (recordWith nested stop tokens).result = .ok record) :
    ∃ effect used rest values,
      tokens = used ++ rest ∧
        SpellsCore effect used ∧
        AtSection rest ∧
        extensions nested (Section.split stop rest) =
          .ok values ∧
        record = values.foldl Record.extend ⟨effect, []⟩ := by
  unfold recordWith at hRead
  split at hRead
  · simp [Outcome.result] at hRead
  · rename_i effect rest hCore
    rcases core_eq_read_iff.mp hCore with
      ⟨used, rfl, hSpells, hRest⟩
    split at hRead
    · simp [Outcome.result] at hRead
    · rename_i found hFound
      simp only [Outcome.result, Except.ok.injEq] at hRead
      rcases exists_of_extended hFound with
        ⟨values, hValues, hRecord⟩
      exact
        ⟨effect, used, rest, values, rfl, hSpells, hRest,
          hValues, (hRecord.trans hRead).symm⟩

/- What a parsed notation has been read from. -/
theorem exists_core_of_parse
    {source : String}
    {record : Record}
    (hSource : parse source = .ok record) :
    ∃ effect used rest values,
      tokenize source = .ok (used ++ rest) ∧
        SpellsCore effect used ∧
        AtSection rest ∧
        extensions (some (Grammar.record (Record.maxDepth - 1)))
            (Section.split source.utf8ByteSize rest) =
          .ok values ∧
        record = values.foldl Record.extend ⟨effect, []⟩ := by
  unfold parse at hSource
  cases hTokens : tokenize source with
  | error failure => simp [hTokens, bind, Except.bind] at hSource
  | ok tokens =>
      have hRead :
          (recordWith
              (some (Grammar.record (Record.maxDepth - 1)))
              source.utf8ByteSize tokens).result =
            .ok record := by
        rw [hTokens] at hSource
        exact hSource
      rcases exists_core_of_recordWith hRead with
        ⟨effect, used, rest, values, rfl, hCore⟩
      exact ⟨effect, used, rest, values, rfl, hCore⟩

/- A notation is scanned up to a point as if it ended there. -/
theorem tokenize_append
    {source : String}
    {tokens : List Token}
    (hTokens : tokenize source = .ok tokens)
    (more : String) :
    tokenize (source ++ "." ++ more) =
      (Scanner.tokens
        ⟨more.toList, source.utf8ByteSize + 1, .extended,
          openBraces source⟩).1.map fun others =>
        tokens ++
          ⟨.delimiter, ".", source.utf8ByteSize⟩ ::
            others := by
  rcases run_of_tokenize hTokens with
    ⟨last, hRun, hLast, hOffset, hBraces, _⟩
  have hSign : ('.', TokenKind.delimiter) ∈ signs := by
    decide
  have hScan :=
    Scanner.tokens_followedBy_of_ok hSign hRun hLast
      more.toList
  have hText :
      (Scanner.ofSource source).followedBy
          ('.' :: more.toList) =
        Scanner.ofSource (source ++ "." ++ more) := by
    simp [Scanner.followedBy, Scanner.ofSource]
  rw [hText, hOffset, hBraces] at hScan
  exact hScan

/- No parenthesis is open behind the sections of a notation. -/
theorem parensOver_of_balanced
    {effect : Effect}
    {used rest : List Token}
    (hSpells : SpellsCore effect used)
    (hTokens : Section.Balanced (used ++ rest)) :
    Section.parensOver 0 rest = 0 := by
  have hUsed := (plain_of_spellsCore hSpells).balanced
  unfold Section.Balanced at hTokens hUsed
  rw [Section.parensOver?_append, hUsed] at hTokens
  exact Section.parensOver_of_parensOver? hTokens

/- Sections behind others are read after them. -/
theorem recordWith_append
    {nested : Option (Reader Record)}
    {effect : Effect}
    {used rest others : List Token}
    {delimiter : Token}
    {values : List Extension}
    (hSpells : SpellsCore effect used)
    (hRest : AtSection rest)
    (hParens : Section.parensOver 0 rest = 0)
    (hDelimiter : delimiter.kind = .delimiter)
    (hValues :
      extensions nested
          (Section.split delimiter.offset rest) =
        .ok values)
    (stop : Nat) :
    (recordWith nested stop
        (used ++ rest ++ delimiter :: others)).result =
      extended nested stop
        (values.foldl Record.extend ⟨effect, []⟩) others := by
  have hBehind : AtSection (rest ++ delimiter :: others) := by
    cases rest with
    | nil => simpa [AtSection] using hDelimiter
    | cons token rest => simpa [AtSection] using hRest
  have hCore :
      core stop (used ++ rest ++ delimiter :: others) =
        .read effect (rest ++ delimiter :: others) := by
    rw [core_eq_read_iff]
    exact
      ⟨used, List.append_assoc _ _ _, hSpells, hBehind⟩
  simp only [recordWith, hCore, extended,
    Section.split_append hDelimiter hParens,
    extensions_append, hValues]
  cases extensions nested (Section.split stop others) <;>
    simp [bind, Except.bind, pure, Except.pure, Except.map,
      Outcome.result]

/-
  A notation that is accepted, with a point and further text
  behind it: the sections of the text extend its record.
-/
theorem parse_append
    {source : String}
    {record : Record}
    (hSource : parse source = .ok record)
    (hParens : Matched '(' ')' source)
    (more : String) :
    parse (source ++ "." ++ more) =
      (sectionsAt (source.utf8ByteSize + 1)
        (openBraces source) more).map
        (·.foldl Record.extend record) := by
  rcases exists_core_of_parse hSource with
    ⟨effect, used, rest, values, hTokens, hSpells, hRest,
      hValues, rfl⟩
  rcases run_of_tokenize hTokens with
    ⟨_, _, _, _, _, hSigns⟩
  have hOver :=
    parensOver_of_balanced hSpells (hSigns.balanced hParens)
  simp only [parse, tokenize_append hTokens, sectionsAt]
  cases (Scanner.tokens
      ⟨more.toList, source.utf8ByteSize + 1, .extended,
        openBraces source⟩).1 with
  | error failure => rfl
  | ok others =>
      have hStop :
          (source ++ "." ++ more).utf8ByteSize =
            source.utf8ByteSize + 1 + more.utf8ByteSize := by
        simp only [String.utf8ByteSize_append]
        rfl
      rw [← hStop]
      exact
        recordWith_append hSpells hRest hOver rfl hValues _

------------------------------------------------------------
-- Sections Behind Any Notation
------------------------------------------------------------

/- Every token of a run takes a character. -/
theorem length_le_of_run
    {scanner last : Scanner}
    {tokens : List Token}
    (hRun : Scanner.Run scanner tokens last) :
    tokens.length + last.rest.length ≤
      scanner.rest.length := by
  induction hRun with
  | stay scanner => simp
  | skip hStep hRun ih =>
      have hShort :=
        Scanner.length_rest_lt_of_step (.inl hStep)
      omega
  | token hStep hRun ih =>
      have hShort :=
        Scanner.length_rest_lt_of_step
          (.inr (.inl ⟨_, hStep⟩))
      rw [List.length_cons]
      omega

/- The mandatory clauses of a notation take three bytes. -/
theorem three_le_of_parse
    {source : String}
    {record : Record}
    (hSource : parse source = .ok record) :
    3 ≤ source.utf8ByteSize := by
  rcases exists_core_of_parse hSource with
    ⟨effect, used, rest, values, hTokens, hSpells, _⟩
  rcases Scanner.run_of_tokens hTokens with ⟨last, hRun, _⟩
  have hTaken := length_le_of_run hRun
  have hBytes := Canonical.length_le_utf8ByteSize source
  have hClauses : 3 ≤ used.length := by
    cases hSpells with
    | clauses hTarget hChange hSubject =>
        cases hTarget
        cases hChange
        cases hSubject <;>
          simp only [List.length_append, List.length_cons] <;>
          omega
  simp only [Scanner.ofSource, List.length_append] at hTaken
  omega

/- The shortest notation says only what every one has to. -/
theorem parse_bare :
    parse "P+S" =
      .ok
        ⟨{ target := .player
           change := .increase
           subject := .stat .strength }, []⟩ := by
  decide +kernel

/-
  Sections do the same behind every notation without open
  brackets as they do behind the shortest one: what they say
  there is put behind the other, and what they are rejected
  for is found as much later as the other is longer.
-/
theorem parse_append_of_bare
    {source : String}
    {record : Record}
    (hSource : parse source = .ok record)
    (hBalanced : WellBalanced source)
    (more : String) :
    (∀ found,
      parse ("P+S." ++ more) = .ok found →
        parse (source ++ "." ++ more) =
          .ok (record.followedBy found)) ∧
    (∀ failure,
      parse ("P+S." ++ more) = .error failure →
        3 ≤ source.utf8ByteSize ∧
          parse (source ++ "." ++ more) =
            .error
              ⟨failure.cause,
                failure.offset +
                  (source.utf8ByteSize - 3)⟩) := by
  have hLong := three_le_of_parse hSource
  have hParse := parse_append hSource hBalanced.1 more
  have hShort := parse_append parse_bare (by decide) more
  have hDistance :
      source.utf8ByteSize + 1 =
        "P+S".utf8ByteSize + 1 +
          (source.utf8ByteSize - 3) := by
    have hThree : "P+S".utf8ByteSize = 3 := rfl
    omega
  rw [openBraces_of_wellBalanced hBalanced, hDistance,
    sectionsAt_add] at hParse
  have hText : "P+S" ++ "." = "P+S." := rfl
  have hBraces : openBraces "P+S" = 0 := rfl
  rw [hText, hBraces] at hShort
  rw [hShort, hParse]
  cases sectionsAt ("P+S".utf8ByteSize + 1) 0 more with
  | ok values =>
      refine ⟨?_, by simp [Except.map]⟩
      intro found hFound
      simp only [Except.map, Except.ok.injEq] at hFound
      simp only [Except.mapError, Except.map,
        Except.ok.injEq]
      rw [← hFound]
      exact
        record.foldl_extend_eq_followedBy _ _ _ values
  | error other =>
      refine ⟨by simp [Except.map], ?_⟩
      intro failure hFailure
      simp only [Except.map, Except.error.injEq] at hFailure
      subst hFailure
      exact ⟨hLong, rfl⟩

/-
  A later chain effect replaces an earlier one with its
  target, flags add up, and a failure is found further on.
-/
theorem parse_append_of_bare_chain :
    parse "E-H.ST.>Heal(P+H).>Trig.DOT" =
        .ok
          ⟨{ target := .enemy
             change := .decrease
             subject := .stat .health
             flags := [.stacking, .damageOverTime]
             chainEffect := some .trigger }, []⟩ ∧
      parse "E-H.ST.>Heal(P+H).RX" =
        .error ⟨.unrecognized .removability "RX", 18⟩ := by
  have hSource :
      parse "E-H.ST.>Heal(P+H)" =
        .ok
          ⟨{ target := .enemy
             change := .decrease
             subject := .stat .health
             flags := [.stacking]
             chainEffect := some .heal },
            [{ target := .player
               change := .increase
               subject := .stat .health }]⟩ := by
    decide +kernel
  have hBalanced : WellBalanced "E-H.ST.>Heal(P+H)" := by
    decide
  constructor
  · exact
      (parse_append_of_bare hSource hBalanced
        ">Trig.DOT").1
        ⟨{ target := .player
           change := .increase
           subject := .stat .strength
           flags := [.damageOverTime]
           chainEffect := some .trigger }, []⟩ (by decide +kernel)
  · exact
      ((parse_append_of_bare hSource hBalanced "RX").2
        ⟨.unrecognized .removability "RX", 4⟩ (by decide +kernel)).2

end Grammar

end StatusEffect
