import Mathlib.Control.Monad.Basic
import StatusEffect.Command.Run

/-
  Presentation does not matter.

  The settings of a session decide what is written about a
  notation, never whether it is accepted. With an output that
  does not fail, writing changes nothing else, so verdicts,
  counts and the status of a run are those of the notations
  alone.

  Key definitions include:
    * `Script.verdicts`
    * `Session.serve`
    * `Command.fileTally`
    * `Command.fileStatus`
    * `Command.FileRun`

  Key theorems include:
    * `Session.run_of_unlimited`
    * `Script.verdicts_lines`
    * `Session.serve_settings`
    * `Command.presentation_independent`
-/

------------------------------------------------------------
-- Verdicts
------------------------------------------------------------

namespace StatusEffect

open Text

/- A notation is accepted. -/
def accepts (source : String) : Bool :=
  (Grammar.parse source).isOk

/- What an act counts, if it counts anything. -/
def Act.verdict? : Act → Option Bool
  | .count accepted => some accepted
  | .write _ => none

/- What some acts count, in their order. -/
def Act.verdicts (acts : List Act) : List Bool :=
  acts.filterMap verdict?

/- What a script counts, in its order. -/
def Script.verdicts (script : Script) : List Bool :=
  Act.verdicts script.acts

/- The acts of two lists count what each list does. -/
theorem Act.verdicts_append
    (first second : List Act) :
    verdicts (first ++ second) =
      verdicts first ++ verdicts second :=
  List.filterMap_append

/- The verdict on a notation is that of its grammar. -/
theorem Settings.accepted_verdict
    (settings : Settings)
    (source : String) :
    (settings.verdict source).accepted = accepts source := by
  unfold verdict interpret accepts
  cases Grammar.parse source with
  | ok record => rfl
  | error failure => rfl

namespace Script

variable (settings : Settings)

/- A notation is counted once, with its verdict. -/
theorem verdicts_notationActs
    (source : String) :
    Act.verdicts (notationActs settings source) =
      [accepts source] := by
  rw [← settings.accepted_verdict]
  rfl

/- A line is counted by its notation, if it has one. -/
theorem verdicts_lineActs
    (line : String) :
    Act.verdicts (lineActs settings line) =
      if isBlankText line then [] else [accepts (trim line)] := by
  unfold lineActs
  split
  · rfl
  · exact verdicts_notationActs settings (trim line)

end Script

------------------------------------------------------------
-- Sessions
------------------------------------------------------------

namespace Tally

/- A tally after some verdicts. -/
def after
    (tally : Tally)
    (verdicts : List Bool) : Tally :=
  verdicts.foldl count tally

/- Each verdict is processed, and each rejection is failed. -/
theorem after_eq
    (tally : Tally)
    (verdicts : List Bool) :
    tally.after verdicts =
      ⟨tally.processed + verdicts.length,
        tally.failed + (verdicts.filter (!·)).length⟩ := by
  induction verdicts generalizing tally with
  | nil => rfl
  | cons accepted verdicts ih =>
      have hNext := ih (tally.count accepted)
      unfold after at hNext ⊢
      rw [List.foldl_cons, hNext]
      cases accepted with
      | true =>
          simp [count]
          omega
      | false =>
          simp [count]
          omega

end Tally

namespace Session

/-
  Without a limit all acts are performed, and only the tally
  changes.
-/
theorem perform_of_unlimited
    (settings : Settings)
    (tally : Tally)
    (acts : List Act) :
    (perform ⟨settings, tally, none⟩ acts).complete = true ∧
      (perform ⟨settings, tally, none⟩ acts).session =
        ⟨settings, tally.after (Act.verdicts acts), none⟩ := by
  induction acts generalizing tally with
  | nil => exact ⟨rfl, rfl⟩
  | cons act acts ih =>
      cases act with
      | count accepted => exact ih (tally.count accepted)
      | write text => exact ih tally

/- A script that is performed as a whole ends as it says. -/
def outcomeOf (fault : Option StreamFault) :
    Except StreamFault Unit :=
  match fault with
  | none => .ok ()
  | some fault => .error fault

/-
  Without a limit a script is performed as a whole, and only
  what it counts and how it ends is left of it.
-/
theorem run_of_unlimited
    (settings : Settings)
    (tally : Tally)
    (script : Script) :
    (run ⟨settings, tally, none⟩ script).session =
        ⟨settings, tally.after script.verdicts, none⟩ ∧
      (run ⟨settings, tally, none⟩ script).result =
        outcomeOf script.fault := by
  have hPerformed :=
    perform_of_unlimited settings tally script.acts
  simp only [run, hPerformed.1, hPerformed.2, if_true]
  exact ⟨rfl, rfl⟩

end Session

------------------------------------------------------------
-- Lines
------------------------------------------------------------

/- The texts of some lines, up to the first that is no text. -/
def textsOf : List Bytes → List String
  | [] => []
  | line :: rest =>
      match decode? line with
      | none => []
      | some text => text :: textsOf rest

/- The notations on the lines of an input that are read. -/
def notationsOf (input : Bytes) : List String :=
  ((textsOf (lines input)).filter fun line =>
    !isBlankText line).map trim

/- A line is no text. -/
def isBroken (line : Bytes) : Bool :=
  (decode? line).isNone

/- A line is text that is neither blank nor accepted. -/
def isRejected (line : Bytes) : Bool :=
  (decode? line).any fun text =>
    !isBlankText text && !accepts (trim text)

namespace Script

/- A script with acts in front counts what these do first. -/
theorem verdicts_after
    (script : Script)
    (acts : List Act) :
    (script.after acts).verdicts =
      Act.verdicts acts ++ script.verdicts :=
  Act.verdicts_append acts script.acts

/- The notations on lines are counted, whatever the settings. -/
theorem verdicts_lines
    (settings : Settings)
    (input : List Bytes) :
    (lines settings input).verdicts =
      (((textsOf input).filter fun line =>
        !isBlankText line).map trim).map accepts := by
  induction input with
  | nil => rfl
  | cons bytes rest ih =>
      unfold lines textsOf
      cases decode? bytes with
      | none => rfl
      | some line =>
          simp only [verdicts_after, verdicts_lineActs, ih]
          by_cases hBlank : isBlankText line = true
          · simp [hBlank]
          · simp [hBlank]

/- Lines end with a fault if one of them is no text. -/
theorem fault_lines
    (settings : Settings)
    (input : List Bytes) :
    (lines settings input).fault =
      if input.any isBroken then some .notText else none := by
  induction input with
  | nil => rfl
  | cons bytes rest ih =>
      unfold lines
      cases hText : decode? bytes with
      | none => simp [isBroken, hText]
      | some line => simp [after, ih, isBroken, hText]

/- Two scripts count the same and end the same way. -/
structure SameCounts (first second : Script) : Prop where
  counts : first.verdicts = second.verdicts
  ending : first.fault = second.fault

/- Acts that count the same may stand before both scripts. -/
theorem SameCounts.after
    {first second : Script}
    (hSame : first.SameCounts second)
    {acts others : List Act}
    (hActs : Act.verdicts acts = Act.verdicts others) :
    (first.after acts).SameCounts (second.after others) := by
  refine ⟨?_, hSame.ending⟩
  rw [verdicts_after, verdicts_after, hActs, hSame.counts]

variable (first second : Settings)

/- Lines are counted in the same way under all settings. -/
theorem sameCounts_lines
    (input : List Bytes) :
    (lines first input).SameCounts (lines second input) := by
  constructor
  · rw [verdicts_lines, verdicts_lines]
  · rw [fault_lines, fault_lines]

/- Replies are counted in the same way under all settings. -/
theorem sameCounts_replies
    (input : List Bytes) :
    (replies first input).SameCounts (replies second input) := by
  induction input with
  | nil => exact ⟨rfl, rfl⟩
  | cons bytes rest ih =>
      unfold replies reply
      cases decode? bytes with
      | none => exact ⟨rfl, rfl⟩
      | some line =>
          by_cases hQuit : isQuit line = true
          · simp only [hQuit, if_true]
            exact ⟨rfl, rfl⟩
          · simp only [hQuit, Bool.false_eq_true, if_false]
            have hLine :
                Act.verdicts (lineActs first line) =
                  Act.verdicts (lineActs second line) := by
              rw [verdicts_lineActs, verdicts_lineActs]
            exact ih.after hLine

/- Interaction is counted in the same way under all settings. -/
theorem sameCounts_interactive
    (input : List Bytes) :
    (interactive first input).SameCounts
      (interactive second input) :=
  (sameCounts_replies first second input).after rfl

end Script

------------------------------------------------------------
-- Requests
------------------------------------------------------------

/- What a session can be asked for. -/
inductive Request where
  | single (source : String)
  | lines (input : Bytes)
  | interactive (input : Bytes)

namespace Request

/- The script of a request. -/
def script
    (settings : Settings) : Request → Script
  | .single source =>
      ⟨Script.notationActs settings source, none⟩
  | .lines input => .lines settings (Text.lines input)
  | .interactive input =>
      .interactive settings (Text.lines input)

/- The verdict that a request asks for, if it does. -/
def verdict? : Request → Option Bool
  | .single source => some (accepts source)
  | .lines _ => none
  | .interactive _ => none

/- A request is counted in the same way under all settings. -/
theorem sameCounts_script
    (first second : Settings)
    (request : Request) :
    (request.script first).SameCounts
      (request.script second) := by
  cases request with
  | single source =>
      refine ⟨?_, rfl⟩
      exact
        (Script.verdicts_notationActs first source).trans
          (Script.verdicts_notationActs second source).symm
  | lines input => exact Script.sameCounts_lines _ _ _
  | interactive input =>
      exact Script.sameCounts_interactive _ _ _

end Request

namespace Session

/- The session after a request, and what the request came to. -/
def answer
    (session : Session) :
    Request → Session × Except StreamFault (Option Bool)
  | .single source =>
      ((session.process source).session,
        (session.process source).result.map some)
  | .lines input =>
      ((session.processLines input).session,
        (session.processLines input).result.map fun _ => none)
  | .interactive input =>
      ((session.interact input).session,
        (session.interact input).result.map fun _ => none)

/- The results of some requests, with the tally after each. -/
def serve
    (session : Session) :
    List Request →
      List (Except StreamFault (Option Bool) × Tally)
  | [] => []
  | request :: requests =>
      ((session.answer request).2,
        (session.answer request).1.tally) ::
        serve (session.answer request).1 requests

/- Without a limit a request is answered as its script ends. -/
theorem answer_of_unlimited
    (settings : Settings)
    (tally : Tally)
    (request : Request) :
    answer ⟨settings, tally, none⟩ request =
      (⟨settings,
          tally.after (request.script settings).verdicts,
          none⟩,
        (outcomeOf (request.script settings).fault).map
          fun _ => request.verdict?) := by
  have hRun :=
    run_of_unlimited settings tally (request.script settings)
  cases request with
  | single source =>
      refine Prod.ext hRun.1 ?_
      have hVerdict := settings.accepted_verdict source
      simp only [Request.script] at hRun
      simp only [answer, process, hRun.2, hVerdict]
      rfl
  | lines input =>
      exact Prod.ext hRun.1 (congrArg (Except.map _) hRun.2)
  | interactive input =>
      exact Prod.ext hRun.1 (congrArg (Except.map _) hRun.2)

/- Requests are served in the same way under all settings. -/
theorem serve_settings
    (first second : Settings)
    (tally : Tally)
    (requests : List Request) :
    serve ⟨first, tally, none⟩ requests =
      serve ⟨second, tally, none⟩ requests := by
  induction requests generalizing tally with
  | nil => rfl
  | cons request requests ih =>
      have hSame := request.sameCounts_script first second
      simp only [serve, answer_of_unlimited, hSame.counts,
        hSame.ending, ih]

end Session

------------------------------------------------------------
-- Files
------------------------------------------------------------

namespace Command

/- How many notations a file has, and how many are rejected. -/
def fileTally (input : Bytes) : Tally where
  processed := (notationsOf input).length
  failed :=
    ((notationsOf input).filter fun source =>
      !accepts source).length

/- The status that a file is due. -/
def fileStatus (input : Bytes) : Nat :=
  if (lines input).any isBroken then 2
  else if (lines input).any isRejected then 1
  else 0

/-
  A run reads a file of notations: its command line asks for
  that file, and its configuration can be used. The settings
  of its session are those of both.
-/
inductive FileRun
    (arguments : List String)
    (surroundings : Surroundings)
    (input : Bytes) : Session.Step Unit → Prop where
  | file
      {accepted : Arguments}
      {config : Config}
      {path : String}
      (hArguments : Arguments.ofList arguments = .ok accepted)
      (hInteractive : accepted.interactive = false)
      (hFile : accepted.file = some path)
      (hContent : surroundings.content path = .bytes input)
      (hConfig : prepare accepted surroundings = .ok config) :
      FileRun arguments surroundings input
        (Session.processLines
          { settings := accepted.settings config } input)

/- A run on a file completes as its session does. -/
theorem FileRun.run_eq
    {arguments : List String}
    {surroundings : Surroundings}
    {input : Bytes}
    {step : Session.Step Unit}
    (hRun : FileRun arguments surroundings input step) :
    run arguments surroundings = complete (ofStep step) := by
  cases hRun with
  | @file accepted config path hArguments hInteractive hFile
      hContent hConfig =>
      have hInput : accepted.hasInput = true := by
        simp [Arguments.hasInput, hFile]
      simp only [run, hArguments, runWith, hInput, if_true,
        hConfig, processInput, hInteractive,
        Bool.false_eq_true, if_false, hFile, processFile,
        hContent]

variable (settings : Settings)
variable (input : Bytes)

/- A new session counts the notations of a file. -/
theorem tally_processLines :
    (Session.processLines { settings } input).session.tally =
      fileTally input := by
  have hRun :=
    Session.run_of_unlimited settings {}
      (Script.lines settings (lines input))
  have hSession := congrArg Session.tally hRun.1
  rw [Script.verdicts_lines, Tally.after_eq] at hSession
  refine hSession.trans ?_
  simp [fileTally, notationsOf, List.filter_map,
    Function.comp_def]

/- A new session ends with a fault at a broken line. -/
theorem result_processLines :
    (Session.processLines { settings } input).result =
      if (lines input).any isBroken then
        .error .notText
      else
        .ok () := by
  have hRun :=
    Session.run_of_unlimited settings {}
      (Script.lines settings (lines input))
  refine hRun.2.trans ?_
  rw [Script.fault_lines]
  cases (lines input).any isBroken with
  | true => rfl
  | false => rfl

/- Where all lines are text, the rejected ones are counted. -/
theorem failed_fileTally
    (hText : (lines input).any isBroken = false) :
    (fileTally input).failed =
      (lines input).countP isRejected := by
  unfold fileTally notationsOf
  generalize lines input = found at hText ⊢
  induction found with
  | nil => rfl
  | cons bytes rest ih =>
      rw [List.any_cons, Bool.or_eq_false_iff] at hText
      rcases hText with ⟨hBytes, hRest⟩
      rw [List.countP_cons, ← ih hRest]
      cases hLine : decode? bytes with
      | none => simp [isBroken, hLine] at hBytes
      | some line =>
          simp only [textsOf, isRejected, hLine,
            Option.any_some]
          by_cases hBlank : isBlankText line = true
          · simp [hBlank]
          · by_cases hAccepts : accepts (trim line) = true
            · simp [hBlank, hAccepts]
            · simp [hBlank, hAccepts]

/- A new session ends with the status that a file is due. -/
theorem status_processLines :
    (complete
        (ofStep
          (Session.processLines { settings } input))).status =
      fileStatus input := by
  have hTally := tally_processLines settings input
  have hResult := result_processLines settings input
  unfold fileStatus ofStep complete
  by_cases hBroken : (lines input).any isBroken = true
  · rw [if_pos hBroken] at hResult ⊢
    rw [hResult]
    rfl
  · rw [if_neg hBroken] at hResult ⊢
    rw [Bool.not_eq_true] at hBroken
    have hFailed := failed_fileTally input hBroken
    rw [hResult, hTally]
    by_cases hRejected : (lines input).any isRejected = true
    · rw [if_pos hRejected]
      have hPositive : 0 < (lines input).countP isRejected := by
        rw [List.countP_pos_iff]
        exact List.any_eq_true.mp hRejected
      rw [← hFailed] at hPositive
      cases hCount : (fileTally input).failed with
      | zero => omega
      | succ count => rfl
    · rw [if_neg hRejected]
      have hZero : (lines input).countP isRejected = 0 := by
        rw [List.countP_eq_zero]
        intro line hLine hOther
        exact
          hRejected (List.any_eq_true.mpr ⟨line, hLine, hOther⟩)
      rw [hFailed, hZero]
      rfl

/-
  Two runs on one file count the same notations and end with
  the same status, which the lines of the file alone decide,
  whatever the command lines and configurations ask to be
  written. And a session whose output does not fail answers
  any requests alike under all settings.
-/
theorem presentation_independent :
    (∀ input firstArguments firstSurroundings firstStep
        secondArguments secondSurroundings secondStep,
      FileRun firstArguments firstSurroundings input
          firstStep →
        FileRun secondArguments secondSurroundings input
            secondStep →
          firstStep.session.tally =
              secondStep.session.tally ∧
            (run firstArguments firstSurroundings).status =
              (run secondArguments
                secondSurroundings).status) ∧
    (∀ input arguments surroundings step,
      FileRun arguments surroundings input step →
        run arguments surroundings =
            complete (ofStep step) ∧
          step.session.tally = fileTally input ∧
          (run arguments surroundings).status =
            fileStatus input) ∧
    ∀ first second tally requests,
      Session.serve ⟨first, tally, none⟩ requests =
        Session.serve ⟨second, tally, none⟩ requests := by
  have hFile :
      ∀ input arguments surroundings step,
        FileRun arguments surroundings input step →
          run arguments surroundings =
              complete (ofStep step) ∧
            step.session.tally = fileTally input ∧
            (run arguments surroundings).status =
              fileStatus input := by
    intro input arguments surroundings step hRun
    have hComplete := hRun.run_eq
    cases hRun with
    | file =>
        refine ⟨hComplete, tally_processLines _ input, ?_⟩
        rw [hComplete]
        exact status_processLines _ input
  refine ⟨?_, hFile, Session.serve_settings⟩
  intro input _ _ _ _ _ _ hFirst hSecond
  have hOne := hFile _ _ _ _ hFirst
  have hOther := hFile _ _ _ _ hSecond
  exact
    ⟨hOne.2.1.trans hOther.2.1.symm,
      hOne.2.2.trans hOther.2.2.symm⟩

/- A rejected notation, shown in text and validated in JSON. -/
theorem presentation_independent_validated :
    (run ["-f", "notes"]
        { content :=
            fun _ => .bytes (encode "P+S\nP+\n") }).status =
      1 ∧
    (run ["-f", "notes", "--json", "--validate"]
        { content :=
            fun _ => .bytes (encode "P+S\nP+\n") }).status =
      1 := by
  have hText :
      FileRun ["-f", "notes"]
        { content := fun _ => .bytes (encode "P+S\nP+\n") }
        (encode "P+S\nP+\n") _ :=
    @FileRun.file _ _ _ { file := some "notes" } {} "notes"
      (by decide +kernel) rfl rfl rfl rfl
  have hJson :
      FileRun ["-f", "notes", "--json", "--validate"]
        { content := fun _ => .bytes (encode "P+S\nP+\n") }
        (encode "P+S\nP+\n") _ :=
    @FileRun.file _ _ _
      { file := some "notes", json := true, validate := true }
      {} "notes" (by decide +kernel) rfl rfl rfl rfl
  have hDue : fileStatus (encode "P+S\nP+\n") = 1 := by
    decide +kernel
  have hFirst :=
    (presentation_independent.2.1 _ _ _ _ hText).2.2.trans
      hDue
  have hSame :=
    (presentation_independent.1 _ _ _ _ _ _ _ hText hJson).2
  exact ⟨hFirst, hSame.symm.trans hFirst⟩

end Command

end StatusEffect
