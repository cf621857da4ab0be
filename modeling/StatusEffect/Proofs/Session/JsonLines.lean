import Mathlib.Data.List.Basic
import Mathlib.Data.List.Forall2
import Mathlib.Tactic.Choose
import Mathlib.Tactic.SplitIfs
import StatusEffect.Proofs.Json.Compact
import StatusEffect.Proofs.Json.Quote
import StatusEffect.Proofs.Session.Room

/-
  Reports in JSON form.

  What is written about a notation in JSON form is one object
  on a line of its own. The object holds the notation as it
  was given and whether it is accepted; the other members are
  those that the settings ask for, or that tell why it was
  rejected. Nothing that stands in a notation can break the
  line, and nothing of it is lost on it.

  Key definitions include:
    * `Settings.Accepts`
    * `Settings.Rejects`
    * `Settings.Describes`
    * `Settings.Leads`
    * `Settings.reportText`

  Key theorems include:
    * `Text.lineFeed_notMem_encode`
    * `Text.lines_flatMap`
    * `Settings.source_of_reportText`
    * `Settings.exists_report`
    * `Session.json_lines`
-/

------------------------------------------------------------
-- Encoded Lines
------------------------------------------------------------

namespace StatusEffect

open Text

namespace Text

/- A text is encoded character by character. -/
theorem encode_eq_flatMap
    (text : String) :
    encode text =
      text.toList.flatMap String.utf8EncodeChar := by
  rw [encode, String.toUTF8_eq_toByteArray,
    ← String.utf8Encode_toList, List.utf8Encode,
    List.toList_data_toByteArray]

/- Texts in sequence are encoded in sequence. -/
theorem encode_append
    (first second : String) :
    encode (first ++ second) =
      encode first ++ encode second := by
  simp only [encode_eq_flatMap, String.toList_append,
    List.flatMap_append]

/- No two texts are encoded in the same bytes. -/
theorem encode_inj
    {first second : String}
    (hSame : encode first = encode second) :
    first = second := by
  unfold encode at hSame
  rw [Array.toList_inj] at hSame
  exact String.toByteArray_inj.mp (ByteArray.ext hSame)

/- Only a line feed is encoded with the byte of one. -/
theorem eq_of_lineFeed_mem_encodeChar
    {c : Char}
    (hFeed : lineFeed ∈ String.utf8EncodeChar c) :
    c = '\n' := by
  have hByte :
      ∀ n : Nat, lineFeed = UInt8.ofNat n → n % 256 = 10 := by
    intro n hSame
    have hNat := congrArg UInt8.toNat hSame
    rw [UInt8.toNat_ofNat'] at hNat
    exact hNat.symm
  have hCode : c.val.toNat = 10 := by
    unfold String.utf8EncodeChar at hFeed
    simp only at hFeed
    -- bytes of longer encodings are all above ASCII
    split_ifs at hFeed
    all_goals
      simp only [List.mem_cons, List.not_mem_nil,
        or_false] at hFeed
    · have hOnly := hByte _ hFeed
      omega
    · rcases hFeed with h | h <;>
        have hPart := hByte _ h <;> omega
    · rcases hFeed with h | h | h <;>
        have hPart := hByte _ h <;> omega
    · rcases hFeed with h | h | h | h <;>
        have hPart := hByte _ h <;> omega
  exact Char.toNat_inj.mp hCode

/- The bytes of a text on one line have no line feed. -/
theorem lineFeed_notMem_encode
    {text : String}
    (hText : OneLine text) :
    lineFeed ∉ encode text := by
  rw [encode_eq_flatMap, List.mem_flatMap]
  rintro ⟨c, hChar, hFeed⟩
  rw [eq_of_lineFeed_mem_encodeChar hFeed] at hChar
  exact hText hChar

/- Bytes that are ended one by one are read as lines again. -/
theorem lines_flatMap
    {bodies : List Bytes}
    (hBodies : ∀ body ∈ bodies, lineFeed ∉ body) :
    lines (bodies.flatMap (· ++ [lineFeed])) = bodies := by
  induction bodies with
  | nil => rfl
  | cons body bodies ih =>
      rw [List.forall_mem_cons] at hBodies
      rw [List.flatMap_cons, List.append_assoc,
        List.singleton_append, lines_append,
        lines_concat_of_notMem hBodies.1, ih hBodies.2]
      rfl

end Text

------------------------------------------------------------
-- Objects
------------------------------------------------------------

/- The first member is the start of the text of all of them. -/
theorem Json.exists_compactMembers_cons
    (name : String)
    (value : Json)
    (others : List (String × Json)) :
    ∃ behind,
      compactMembers ((name, value) :: others) =
        quote name ++ (":" ++ (value.compact ++ behind)) := by
  cases others with
  | nil =>
      refine ⟨"", ?_⟩
      simp only [compactMembers, String.append_assoc,
        String.append_empty]
  | cons next others =>
      refine ⟨"," ++ compactMembers (next :: others), ?_⟩
      simp only [compactMembers, String.append_assoc]

namespace Settings

/-
  Some members tell that a notation is accepted. They hold
  the record and its explanation as far as these are wanted,
  and no error.
-/
structure Accepts
    (settings : Settings)
    (record : Record)
    (members : List (String × Json)) : Prop where
  status : members.lookup "status" = some (.str "valid")
  parsed :
    members.lookup "parsed" =
      if settings.validateOnly then
        none
      else
        some record.toJson
  explanation :
    members.lookup "explanation" =
      if settings.explain && !settings.validateOnly then
        some (.str record.explanation)
      else
        none
  error : members.lookup "error" = none

/-
  Some members tell that a notation is rejected, why and
  where. They hold no record.
-/
structure Rejects
    (source : String)
    (failure : Failure)
    (members : List (String × Json)) : Prop where
  status : members.lookup "status" = some (.str "error")
  error :
    members.lookup "error" =
      some (.str (failure.diagnostic source).headline)
  kind :
    members.lookup "kind" = some (.code failure.cause.stage)
  offset :
    members.lookup "offset" = some (.nat failure.offset)
  parsed : members.lookup "parsed" = none

/- Some members, all of different names, describe a notation. -/
structure Describes
    (settings : Settings)
    (source : String)
    (members : List (String × Json)) : Prop where
  distinct : (members.map Prod.fst).Nodup
  verbatim : members.lookup "notation" = some (.str source)
  verdict :
    match Grammar.parse source with
    | .ok record => settings.Accepts record members
    | .error failure => Rejects source failure members

variable {settings : Settings}
variable {source : String}

/- The status tells exactly the notations that are accepted. -/
theorem Describes.status_iff
    {members : List (String × Json)}
    (hMembers : settings.Describes source members) :
    members.lookup "status" = some (.str "valid") ↔
      accepts source = true := by
  have hVerdict := hMembers.verdict
  unfold accepts
  cases hParse : Grammar.parse source with
  | ok record =>
      rw [hParse] at hVerdict
      exact ⟨fun _ => rfl, fun _ => hVerdict.status⟩
  | error failure =>
      rw [hParse] at hVerdict
      rw [hVerdict.status]
      simp [Except.isOk, Except.toBool]

/- Some members start with a status and the notation. -/
def Leads
    (source : String)
    (members : List (String × Json)) : Prop :=
  ∃ status others,
    members =
      ("status", .str status) ::
        ("notation", .str source) :: others

/-
  The text of an object that starts with a status and with
  the notation, in quotation marks, and what stands behind.
-/
def reportText (status source behind : String) : String :=
  "\x7b\x22status\x22:" ++
    (Json.quote status ++
      (",\x22notation\x22:" ++ (Json.quote source ++ behind)))

/- The members at the start are the start of the text. -/
theorem exists_reportText_of_leads
    {members : List (String × Json)}
    (hLeads : Leads source members) :
    ∃ status behind,
      (Json.obj members).compact =
        reportText status source behind := by
  have hOpen :
      "\x7b" ++ (Json.quote "status" ++ ":") =
        "\x7b\x22status\x22:" :=
    rfl
  have hComma :
      "," ++ (Json.quote "notation" ++ ":") =
        ",\x22notation\x22:" :=
    rfl
  rcases hLeads with ⟨status, others, rfl⟩
  rcases
      Json.exists_compactMembers_cons "notation"
        (.str source) others with
    ⟨behind, hBehind⟩
  refine ⟨status, behind ++ "\x7d", ?_⟩
  rw [reportText, ← hOpen, ← hComma]
  simp only [Json.compact, Json.compactMembers, hBehind,
    String.append_assoc]

/- A report tells the notation that it is about. -/
theorem source_of_reportText
    {status other second behind more : String}
    (hSame :
      reportText status source behind =
        reportText other second more) :
    source = second := by
  unfold reportText at hSame
  rw [String.append_right_inj] at hSame
  have hBehind := (Json.quote_append_inj hSame).2
  rw [String.append_right_inj] at hBehind
  exact (Json.quote_append_inj hBehind).1

/- An accepted notation is described by its report. -/
theorem exists_acceptance
    {record : Record}
    (hJson : settings.output = .json)
    (hParse : Grammar.parse source = .ok record) :
    ∃ members,
      (settings.verdict source).report =
          line (Json.obj members).compact ∧
        settings.Describes source members ∧
        Leads source members := by
  rcases settings with ⟨output, explain, validateOnly⟩
  cases hJson
  cases validateOnly with
  | true =>
      refine
        ⟨[("status", .str "valid"), ("notation", .str source)],
          ?_, ⟨by simp, rfl, ?_⟩, _, _, rfl⟩
      · simp only [verdict, interpret, hParse]
        rfl
      · rw [hParse]
        exact ⟨rfl, rfl, by simp, rfl⟩
  | false =>
      refine
        ⟨[("status", .str "valid"), ("notation", .str source),
            ("parsed", record.toJson)] ++
            Json.optionalMember "explanation" .str
              (if explain then
                some record.explanation
              else
                none),
          ?_, ⟨?_, rfl, ?_⟩, _, _, rfl⟩
      · simp only [verdict, interpret, hParse]
        rfl
      · cases explain <;> simp [Json.optionalMember]
      · rw [hParse]
        cases explain <;> exact ⟨rfl, rfl, rfl, rfl⟩

/- A rejected notation is described by its report. -/
theorem exists_rejection
    {failure : Failure}
    (hJson : settings.output = .json)
    (hParse : Grammar.parse source = .error failure) :
    ∃ members,
      (settings.verdict source).report =
          line (Json.obj members).compact ∧
        settings.Describes source members ∧
        Leads source members := by
  rcases settings with ⟨output, explain, validateOnly⟩
  cases hJson
  refine
    ⟨[("status", .str "error"), ("notation", .str source),
        ("error",
          .str (failure.diagnostic source).headline),
        ("kind", .code failure.cause.stage),
        ("offset", .nat failure.offset)],
      ?_, ⟨by simp, rfl, ?_⟩, _, _, rfl⟩
  · simp only [verdict, interpret, hParse]
    rfl
  · rw [hParse]
    exact ⟨rfl, rfl, rfl, rfl, rfl⟩

/- A report in JSON form is an object that describes. -/
theorem exists_report
    (source : String)
    (hJson : settings.output = .json) :
    ∃ members,
      (settings.verdict source).report =
          line (Json.obj members).compact ∧
        settings.Describes source members ∧
        Leads source members := by
  cases hParse : Grammar.parse source with
  | ok record => exact exists_acceptance hJson hParse
  | error failure => exact exists_rejection hJson hParse

end Settings

------------------------------------------------------------
-- Lines Of A Session
------------------------------------------------------------

/- A line of its own is encoded with a line feed behind it. -/
theorem encode_line
    (text : String) :
    encode (Settings.line text) = encode text ++ [lineFeed] :=
  encode_append text "\n"

/- Notations are counted in their order. -/
theorem Script.verdicts_notationsActs
    (settings : Settings)
    (sources : List String) :
    Act.verdicts (notationsActs settings sources) =
      sources.map accepts := by
  induction sources with
  | nil => rfl
  | cons source sources ih =>
      rw [notationsActs, List.flatMap_cons,
        Act.verdicts_append, verdicts_notationActs]
      exact congrArg (accepts source :: ·) ih

namespace Session

/- What a session writes on notations are their reports. -/
theorem written_processEach
    (settings : Settings)
    (tally : Tally)
    (sources : List String) :
    (processEach ⟨settings, tally, none⟩ sources).written =
      sources.flatMap fun source =>
        encode (settings.verdict source).report := by
  rw [processEach_eq_run, written_run, Act.output,
    Script.notationsActs, List.flatMap_assoc]
  refine List.flatMap_congr fun source _ => ?_
  simp [Script.notationActs, Act.bytes]

/-
  Some bytes are lines, one for each of some notations. Every
  line is the compact text of one object that describes its
  notation, with the status that the notation is valid if and
  only if it is accepted. The text has the notation in it,
  and two lines are the same only if their notations are.
-/
structure ReportLines
    (settings : Settings)
    (sources : List String)
    (written : Bytes) : Prop where
  count : (lines written).length = sources.length
  ended :
    written = (lines written).flatMap (· ++ [lineFeed])
  told :
    ∀ first second : Nat,
      (lines written)[first]? = (lines written)[second]? ↔
        sources[first]? = sources[second]?
  described :
    List.Forall₂
      (fun source body =>
        lineFeed ∉ body ∧
          (∃ status behind,
            body =
              encode
                (Settings.reportText status source behind)) ∧
          ∃ members,
            body = encode (Json.obj members).compact ∧
              settings.Describes source members ∧
              (members.lookup "status" =
                  some (.str "valid") ↔
                accepts source = true))
      sources (lines written)

/- The reports on notations in JSON form are their lines. -/
theorem reportLines_reports
    {settings : Settings}
    (hJson : settings.output = .json)
    (sources : List String) :
    ReportLines settings sources
      (sources.flatMap fun source =>
        encode (settings.verdict source).report) := by
  choose members hReport hMembers using
    fun source => settings.exists_report source hJson
  let body : String → Bytes := fun source =>
    encode (Json.obj (members source)).compact
  have hBody : ∀ source, lineFeed ∉ body source := by
    intro source
    exact lineFeed_notMem_encode (Json.oneLine_compact _)
  have hText :
      ∀ source, ∃ status behind,
        body source =
          encode
            (Settings.reportText status source behind) := by
    intro source
    rcases Settings.exists_reportText_of_leads
        (hMembers source).2 with
      ⟨status, behind, hCompact⟩
    exact ⟨status, behind, congrArg encode hCompact⟩
  have hTold :
      ∀ first second, body first = body second →
        first = second := by
    intro first second hSame
    rcases hText first with ⟨status, behind, hFirst⟩
    rcases hText second with ⟨other, more, hSecond⟩
    rw [hFirst, hSecond] at hSame
    exact Settings.source_of_reportText (encode_inj hSame)
  have hWritten :
      (sources.flatMap fun source =>
          encode (settings.verdict source).report) =
        (sources.map body).flatMap (· ++ [lineFeed]) := by
    rw [List.flatMap_map]
    refine List.flatMap_congr fun source _ => ?_
    rw [hReport, encode_line]
  have hLines :
      lines ((sources.map body).flatMap (· ++ [lineFeed])) =
        sources.map body := by
    apply lines_flatMap
    rw [List.forall_mem_map]
    exact fun source _ => hBody source
  rw [hWritten]
  constructor
  · rw [hLines, List.length_map]
  · rw [hLines]
  · intro first second
    rw [hLines, List.getElem?_map, List.getElem?_map]
    exact Option.map_inj_right hTold
  · rw [hLines, List.forall₂_map_right_iff,
      List.forall₂_same]
    intro source _
    exact
      ⟨hBody source, hText source, members source, rfl,
        (hMembers source).1, (hMembers source).1.status_iff⟩

/-
  A session that reports in JSON form on some notations, to an
  output that does not fail, processes them all, and writes
  one line on each that describes it.
-/
theorem json_lines
    (explain validateOnly : Bool)
    (tally : Tally)
    (sources : List String) :
    (processEach ⟨⟨.json, explain, validateOnly⟩, tally, none⟩
          sources).result =
        .ok () ∧
      (processEach
            ⟨⟨.json, explain, validateOnly⟩, tally, none⟩
            sources).session.tally.processed =
          tally.processed + sources.length ∧
        ReportLines ⟨.json, explain, validateOnly⟩ sources
          (processEach
            ⟨⟨.json, explain, validateOnly⟩, tally, none⟩
            sources).written := by
  let settings : Settings := ⟨.json, explain, validateOnly⟩
  have hRun :=
    run_of_unlimited settings tally
      ⟨Script.notationsActs settings sources, none⟩
  rw [Script.verdicts, Script.verdicts_notationsActs,
    Tally.after_eq] at hRun
  refine ⟨?_, ?_, ?_⟩
  · rw [processEach_eq_run]
    exact hRun.2
  · rw [processEach_eq_run, hRun.1, List.length_map]
  · rw [written_processEach]
    exact reportLines_reports rfl sources

end Session

end StatusEffect
