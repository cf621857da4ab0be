import Mathlib.Control.Monad.Basic
import StatusEffect.Proofs.Session.Lines

/-
  Outputs that get full.

  What a session writes depends on its room only in where it
  ends: the bytes that fit are those that would be written
  anyway. Up to the text that is cut the session acts as one
  with unlimited room does, and then the step stops. A
  notation is counted before anything is written about it,
  so it stays counted where its report is cut.

  Key definitions include:
    * `Act.output`
    * `Request.output`
    * `Session.stepOn`
    * `Session.steps`

  Key theorems include:
    * `Session.perform_of_room`
    * `Session.perform_of_cut`
    * `Session.output_steps`
    * `Session.steps_of_fits`
    * `Session.steps_of_room`
-/

------------------------------------------------------------
-- What Acts Write
------------------------------------------------------------

namespace StatusEffect

open Text

namespace Act

/- The bytes that an act writes where there is room. -/
def bytes : Act → Bytes
  | .count _ => []
  | .write text => encode text

/- The bytes that some acts write, in their order. -/
def output (acts : List Act) : Bytes :=
  acts.flatMap bytes

@[simp]
theorem output_nil : output [] = [] := rfl

@[simp]
theorem output_count
    (accepted : Bool)
    (acts : List Act) :
    output (.count accepted :: acts) = output acts := rfl

@[simp]
theorem output_write
    (text : String)
    (acts : List Act) :
    output (.write text :: acts) =
      encode text ++ output acts := rfl

@[simp]
theorem output_append
    (first second : List Act) :
    output (first ++ second) =
      output first ++ output second :=
  List.flatMap_append

/- If not all is written, some text is the first to be cut. -/
theorem exists_cut
    {acts : List Act}
    {limit : Nat}
    (hFull : limit < (output acts).length) :
    ∃ before text behind,
      acts = before ++ .write text :: behind ∧
        (output before).length ≤ limit ∧
          limit <
            (output before).length + (encode text).length := by
  induction acts generalizing limit with
  | nil => simp at hFull
  | cons act acts ih =>
      cases act with
      | count accepted =>
          rcases ih hFull with
            ⟨before, text, behind, rfl, hFits, hCut⟩
          exact
            ⟨.count accepted :: before, text, behind, rfl,
              hFits, hCut⟩
      | write first =>
          by_cases hFirst : limit < (encode first).length
          · refine ⟨[], first, acts, rfl, ?_, ?_⟩
            · simp
            · simpa using hFirst
          · have hRest :
                limit - (encode first).length <
                  (output acts).length := by
              rw [output_write, List.length_append] at hFull
              omega
            rcases ih hRest with
              ⟨before, text, behind, rfl, hFits, hCut⟩
            refine
              ⟨.write first :: before, text, behind, rfl,
                ?_, ?_⟩
            · rw [output_write, List.length_append]
              omega
            · rw [output_write, List.length_append]
              omega

end Act

------------------------------------------------------------
-- Performing With Room
------------------------------------------------------------

namespace Session

variable {settings : Settings}
variable {tally : Tally}

/- Room for two amounts is room for the one and the other. -/
theorem roomAfter?_add
    (room : Option Nat)
    (first second : Nat) :
    roomAfter? room (first + second) =
      (roomAfter? room first).bind (roomAfter? · second) := by
  cases room with
  | none => rfl
  | some limit =>
      by_cases hFirst : first ≤ limit
      · by_cases hSecond : second ≤ limit - first
        · have hBoth : first + second ≤ limit := by omega
          simp [roomAfter?, hFirst, hSecond, hBoth]
          omega
        · have hBoth : ¬ first + second ≤ limit := by omega
          simp [roomAfter?, hFirst, hSecond, hBoth]
      · have hBoth : ¬ first + second ≤ limit := by omega
        simp [roomAfter?, hFirst, hBoth]

/- A limited room holds what is not longer. -/
theorem roomAfter?_of_le
    {limit count : Nat}
    (hFits : count ≤ limit) :
    roomAfter? (some limit) count =
      some (some (limit - count)) :=
  if_pos hFits

/- A limited room does not hold what is longer. -/
theorem roomAfter?_of_lt
    {limit count : Nat}
    (hFull : limit < count) :
    roomAfter? (some limit) count = none :=
  if_neg (by omega)

/- Acts are performed as a whole where their output fits. -/
theorem perform_of_room
    {room left : Option Nat}
    {acts : List Act}
    (hRoom :
      roomAfter? room (Act.output acts).length = some left) :
    perform ⟨settings, tally, room⟩ acts =
      ⟨⟨settings, tally.after (Act.verdicts acts), left⟩,
        Act.output acts, true⟩ := by
  induction acts generalizing tally room with
  | nil =>
      cases room with
      | none =>
          cases hRoom
          rfl
      | some limit =>
          cases hRoom
          rfl
  | cons act acts ih =>
      cases act with
      | count accepted => exact ih hRoom
      | write text =>
          rw [Act.output_write, List.length_append,
            roomAfter?_add, Option.bind_eq_some_iff] at hRoom
          rcases hRoom with ⟨between, hText, hRest⟩
          rw [perform_write_of_fits hText, ih hRest]
          rfl

/-
  Acts are performed up to the first text that is cut. It
  makes no difference what would come behind it.
-/
theorem perform_of_cut
    {limit : Nat}
    {before behind : List Act}
    {text : String}
    (hFits : (Act.output before).length ≤ limit)
    (hCut :
      limit <
        (Act.output before).length + (encode text).length) :
    perform ⟨settings, tally, some limit⟩
        (before ++ .write text :: behind) =
      ⟨⟨settings, tally.after (Act.verdicts before), some 0⟩,
        (Act.output
          (before ++ .write text :: behind)).take limit,
        false⟩ := by
  have hLeft :
      roomAfter?
          (some (limit - (Act.output before).length))
          (encode text).length =
        none :=
    roomAfter?_of_lt (by omega)
  have hTake :
      (Act.output
          (before ++ .write text :: behind)).take limit =
        Act.output before ++
          (encode text).take
            (limit - (Act.output before).length) := by
    have hNone :
        limit - (Act.output before).length -
          (encode text).length = 0 := by
      omega
    rw [Act.output_append, Act.output_write,
      List.take_append, List.take_of_length_le hFits,
      List.take_append, hNone, List.take_zero,
      List.append_nil]
  rw [perform_append,
    perform_of_room (roomAfter?_of_le hFits), hTake]
  simp only [Performance.andThen, if_true]
  rw [perform_write_of_full hLeft]
  rfl

/- A script is run as a whole where its output fits. -/
theorem run_of_room
    {room left : Option Nat}
    {script : Script}
    (hRoom :
      roomAfter? room (Act.output script.acts).length =
        some left) :
    run ⟨settings, tally, room⟩ script =
      ⟨⟨settings, tally.after script.verdicts, left⟩,
        Act.output script.acts, outcomeOf script.fault⟩ := by
  simp only [run, perform_of_room hRoom, if_true]
  rfl

/- Without a limit the acts of a script are all written. -/
theorem written_run
    (settings : Settings)
    (tally : Tally)
    (script : Script) :
    (run ⟨settings, tally, none⟩ script).written =
      Act.output script.acts := by
  rw [run_of_room rfl]

/- A script stops with a full output where a text is cut. -/
theorem run_of_cut
    {limit : Nat}
    {script : Script}
    {before behind : List Act}
    {text : String}
    (hActs : script.acts = before ++ .write text :: behind)
    (hFits : (Act.output before).length ≤ limit)
    (hCut :
      limit <
        (Act.output before).length + (encode text).length) :
    run ⟨settings, tally, some limit⟩ script =
      ⟨⟨settings, tally.after (Act.verdicts before), some 0⟩,
        (Act.output script.acts).take limit,
        .error .outputFull⟩ := by
  simp only [run, hActs, perform_of_cut hFits hCut,
    Bool.false_eq_true, if_false]

end Session

------------------------------------------------------------
-- Steps On Requests
------------------------------------------------------------

/- The bytes that are written where there is room. -/
def Request.output
    (settings : Settings)
    (request : Request) : Bytes :=
  Act.output (request.script settings).acts

namespace Session

/- A step with the image of its result. -/
def Step.map
    {α β : Type}
    (step : Step α)
    (image : α → β) : Step β where
  session := step.session
  written := step.written
  result := step.result.map image

/- The step that answers a request. -/
def stepOn
    (session : Session) : Request → Step (Option Bool)
  | .single source => (session.process source).map some
  | .lines input =>
      (session.processLines input).map fun _ => none
  | .interactive input =>
      (session.interact input).map fun _ => none

/-
  The steps that answer some requests, each from where the
  last one ended, also if that one failed.
-/
def steps
    (session : Session) :
    List Request → List (Step (Option Bool))
  | [] => []
  | request :: requests =>
      session.stepOn request ::
        (session.stepOn request).session.steps requests

/- The session after the steps that answer some requests. -/
def afterSteps
    (session : Session)
    (requests : List Request) : Session :=
  requests.foldl
    (fun session request => (session.stepOn request).session)
    session

/- What some steps write, one after the other. -/
def output
    {α : Type}
    (steps : List (Step α)) : Bytes :=
  steps.flatMap Step.written

/- A step in which the room is forgotten. -/
def Step.unlimited
    {α : Type}
    (step : Step α) : Step α :=
  { step with session := { step.session with room := none } }

/- A request is answered by its script. -/
theorem stepOn_eq
    (session : Session)
    (request : Request) :
    session.stepOn request =
      (session.run (request.script session.settings)).map
        fun _ => request.verdict? := by
  cases request with
  | single source =>
      have hVerdict := session.settings.accepted_verdict source
      simp only [stepOn, process, hVerdict, Request.script,
        Step.map]
      generalize session.run _ = step
      rcases step with ⟨after, written, _ | _⟩ <;> rfl
  | lines input => rfl
  | interactive input => rfl

variable {settings : Settings}
variable {tally : Tally}

/- A request is answered as a whole where its output fits. -/
theorem stepOn_of_room
    {room left : Option Nat}
    {request : Request}
    (hRoom :
      roomAfter? room (request.output settings).length =
        some left) :
    stepOn ⟨settings, tally, room⟩ request =
      ⟨⟨settings,
          tally.after (request.script settings).verdicts,
          left⟩,
        request.output settings,
        (outcomeOf (request.script settings).fault).map
          fun _ => request.verdict?⟩ := by
  rw [stepOn_eq, run_of_room hRoom]
  rfl

/- Without a limit every request is answered as a whole. -/
theorem stepOn_of_unlimited
    (settings : Settings)
    (tally : Tally)
    (request : Request) :
    stepOn ⟨settings, tally, none⟩ request =
      ⟨⟨settings,
          tally.after (request.script settings).verdicts,
          none⟩,
        request.output settings,
        (outcomeOf (request.script settings).fault).map
          fun _ => request.verdict?⟩ :=
  stepOn_of_room rfl

/- A step stops with a full output where a text is cut. -/
theorem stepOn_of_cut
    {limit : Nat}
    {request : Request}
    {before behind : List Act}
    {text : String}
    (hActs :
      (request.script settings).acts =
        before ++ .write text :: behind)
    (hFits : (Act.output before).length ≤ limit)
    (hCut :
      limit <
        (Act.output before).length + (encode text).length) :
    stepOn ⟨settings, tally, some limit⟩ request =
      ⟨⟨settings, tally.after (Act.verdicts before), some 0⟩,
        (request.output settings).take limit,
        .error .outputFull⟩ := by
  rw [stepOn_eq, run_of_cut hActs hFits hCut]
  rfl

/-
  A limit cuts what a step writes, and leaves the room that
  it does not use.
-/
theorem written_stepOn
    (settings : Settings)
    (tally : Tally)
    (limit : Nat)
    (request : Request) :
    (stepOn ⟨settings, tally, some limit⟩ request).written =
        (request.output settings).take limit ∧
      ∃ counted,
        (stepOn ⟨settings, tally, some limit⟩
            request).session =
          ⟨settings, counted,
            some (limit - (request.output settings).length)⟩ := by
  by_cases hFits :
      (request.output settings).length ≤ limit
  · rw [stepOn_of_room (roomAfter?_of_le hFits)]
    exact ⟨(List.take_of_length_le hFits).symm, _, rfl⟩
  · rw [Nat.not_le] at hFits
    rcases Act.exists_cut hFits with
      ⟨before, text, behind, hActs, hBefore, hCut⟩
    rw [stepOn_of_cut hActs hBefore hCut,
      Nat.sub_eq_zero_of_le (Nat.le_of_lt hFits)]
    exact ⟨rfl, _, rfl⟩

------------------------------------------------------------
-- Steps In Sequence
------------------------------------------------------------

/- Further requests are answered behind the first ones. -/
theorem steps_append
    (session : Session)
    (first second : List Request) :
    session.steps (first ++ second) =
      session.steps first ++
        (session.afterSteps first).steps second := by
  induction first generalizing session with
  | nil => rfl
  | cons request first ih =>
      rw [List.cons_append, steps, ih]
      rfl

/- There is one step for each request. -/
theorem length_steps
    (session : Session)
    (requests : List Request) :
    (session.steps requests).length = requests.length := by
  induction requests generalizing session with
  | nil => rfl
  | cons request requests ih =>
      rw [steps, List.length_cons, ih, List.length_cons]

/- The first steps are those for the first requests. -/
theorem take_steps
    (session : Session)
    (requests : List Request)
    (count : Nat) :
    (session.steps requests).take count =
      session.steps (requests.take count) := by
  induction requests generalizing session count with
  | nil => simp [steps]
  | cons request requests ih =>
      cases count with
      | zero => rfl
      | succ count =>
          rw [steps, List.take_succ_cons, ih]
          rfl

/- Without a limit the outputs of all requests are written. -/
theorem output_steps_of_unlimited
    (settings : Settings)
    (tally : Tally)
    (requests : List Request) :
    output (steps ⟨settings, tally, none⟩ requests) =
      requests.flatMap (Request.output settings) := by
  induction requests generalizing tally with
  | nil => rfl
  | cons request requests ih =>
      rw [steps, stepOn_of_unlimited, output,
        List.flatMap_cons, List.flatMap_cons]
      exact congrArg _ (ih _)

/- With a limit the outputs are written up to that limit. -/
theorem output_steps
    (settings : Settings)
    (tally : Tally)
    (limit : Nat)
    (requests : List Request) :
    output (steps ⟨settings, tally, some limit⟩ requests) =
      (requests.flatMap (Request.output settings)).take
        limit := by
  induction requests generalizing tally limit with
  | nil => exact List.take_nil.symm
  | cons request requests ih =>
      rcases written_stepOn settings tally limit request with
        ⟨hWritten, counted, hSession⟩
      rw [steps, output, List.flatMap_cons, List.flatMap_cons,
        hWritten, hSession, List.take_append]
      exact congrArg _ (ih _ _)

/-
  Steps whose outputs all fit are as without a limit, and they
  leave the rest of the room.
-/
theorem steps_of_fits
    (tally : Tally)
    {limit : Nat}
    {requests : List Request}
    (hFits :
      (requests.flatMap (Request.output settings)).length ≤
        limit) :
    (steps ⟨settings, tally, some limit⟩ requests).map
          Step.unlimited =
        steps ⟨settings, tally, none⟩ requests ∧
      afterSteps ⟨settings, tally, some limit⟩ requests =
        ⟨settings,
          (afterSteps ⟨settings, tally, none⟩ requests).tally,
          some
            (limit -
              (requests.flatMap
                (Request.output settings)).length)⟩ := by
  induction requests generalizing tally limit with
  | nil => exact ⟨rfl, rfl⟩
  | cons request requests ih =>
      rw [List.flatMap_cons, List.length_append] at hFits ⊢
      have hFirst :
          (request.output settings).length ≤ limit := by
        omega
      have hRest :
          (requests.flatMap (Request.output settings)).length ≤
            limit - (request.output settings).length := by
        omega
      have hNext :=
        ih (tally.after (request.script settings).verdicts)
          hRest
      rw [Nat.sub_sub] at hNext
      rw [afterSteps, afterSteps, List.foldl_cons,
        List.foldl_cons, steps, steps, stepOn_of_unlimited,
        stepOn_of_room (roomAfter?_of_le hFirst),
        List.map_cons, hNext.1]
      exact ⟨rfl, hNext.2⟩

------------------------------------------------------------
-- Where The Output Gets Full
------------------------------------------------------------

/-
  With some room left, a request is answered up to a place in
  the report on a notation, behind some acts.
-/
structure CutsReport
    (settings : Settings)
    (request : Request)
    (room : Nat)
    (before : List Act)
    (source : String) : Prop where
  acts :
    before ++ Script.notationActs settings source <+:
      (request.script settings).acts
  starts : (Act.output before).length ≤ room
  ends :
    room <
      (Act.output
        (before ++
          Script.notationActs settings source)).length

/- The notation whose report is cut has been counted. -/
theorem tally_of_cutsReport
    {limit : Nat}
    {request : Request}
    {before : List Act}
    {source : String}
    (hCut : CutsReport settings request limit before source) :
    (stepOn ⟨settings, tally, some limit⟩
        request).session.tally =
      (tally.after (Act.verdicts before)).count
        (accepts source) := by
  rcases hCut with ⟨⟨behind, hActs⟩, hStarts, hEnds⟩
  have hVerdict := settings.accepted_verdict source
  have hCounted :
      (request.script settings).acts =
        (before ++ [.count (accepts source)]) ++
          .write (settings.verdict source).report ::
            behind := by
    rw [← hActs, ← hVerdict]
    simp [Script.notationActs]
  have hOutput :
      Act.output (before ++ [.count (accepts source)]) =
        Act.output before := by
    simp
  simp only [Script.notationActs, Act.output_append,
    Act.output_count, Act.output_write, Act.output_nil,
    List.append_nil, List.length_append] at hEnds
  rw [stepOn_of_cut hCounted (by rw [hOutput]; exact hStarts)
    (by rw [hOutput]; exact hEnds)]
  simp [Tally.after, Act.verdicts, Act.verdict?]

/- A step stops with a full output if not all of it fits. -/
theorem result_of_full
    {limit : Nat}
    {request : Request}
    (hFull : limit < (request.output settings).length) :
    (stepOn ⟨settings, tally, some limit⟩ request).result =
      .error .outputFull := by
  rcases Act.exists_cut hFull with
    ⟨before, text, behind, hActs, hBefore, hCut⟩
  rw [stepOn_of_cut hActs hBefore hCut]

/-
  Requests are answered with a limit on the bytes that are
  written, and without one. With the limit the bytes up to it
  are written. Steps that end before it is reached are the
  same, room aside. The step in which it is reached fails,
  since the output is full; and if it is reached in the report
  on a notation, then what was counted is what stands before
  that notation, and the notation itself.
-/
theorem steps_of_room
    (settings : Settings)
    (tally : Tally)
    (limit : Nat)
    (requests : List Request) :
    output (steps ⟨settings, tally, some limit⟩ requests) =
        (output (steps ⟨settings, tally, none⟩ requests)).take
          limit ∧
      (∀ count,
        (output
            ((steps ⟨settings, tally, none⟩ requests).take
              count)).length ≤ limit →
          ((steps ⟨settings, tally, some limit⟩ requests).take
              count).map Step.unlimited =
            (steps ⟨settings, tally, none⟩ requests).take
              count) ∧
      ∀ first request later used,
        requests = first ++ request :: later →
          used =
              (output
                (steps ⟨settings, tally, none⟩
                  first)).length →
            used ≤ limit →
              limit <
                  (output
                    (steps ⟨settings, tally, none⟩
                      (first ++ [request]))).length →
                ∃ step,
                  (steps ⟨settings, tally, some limit⟩
                        requests)[first.length]? =
                      some step ∧
                    step.result = .error .outputFull ∧
                      ∀ before source,
                        CutsReport settings request
                            (limit - used) before source →
                          step.session.tally =
                            ((afterSteps
                                  ⟨settings, tally, none⟩
                                  first).tally.after
                                (Act.verdicts before)).count
                              (accepts source) := by
  refine ⟨?_, ?_, ?_⟩
  · rw [output_steps, output_steps_of_unlimited]
  · intro count hFits
    rw [take_steps, output_steps_of_unlimited] at hFits
    rw [take_steps, take_steps, (steps_of_fits tally hFits).1]
  · rintro first request later used rfl rfl hFits hFull
    rw [output_steps_of_unlimited] at hFits hFull
    rw [List.flatMap_append, List.length_append,
      List.flatMap_singleton] at hFull
    have hNext := (steps_of_fits tally hFits).2
    rw [output_steps_of_unlimited]
    refine
      ⟨stepOn
          (afterSteps ⟨settings, tally, some limit⟩ first)
          request, ?_, ?_, ?_⟩
    · have hLength :=
        length_steps ⟨settings, tally, some limit⟩ first
      rw [steps_append,
        List.getElem?_append_right (Nat.le_of_eq hLength),
        hLength, Nat.sub_self]
      rfl
    · rw [hNext]
      exact result_of_full (by omega)
    · intro before source hCut
      rw [hNext]
      exact tally_of_cutsReport hCut

/-
  The report on the only line of a file is cut. The notation
  on that line has been counted, and rejected.
-/
theorem steps_of_room_rejected :
    ∃ step,
      (steps ⟨⟨.text, false, true⟩, {}, some 20⟩
            [.single "P+S", .lines (encode "P+\n")])[1]? =
          some step ∧
        step.result = .error .outputFull ∧
          step.session.tally = ⟨2, 1⟩ := by
  let settings : Settings := ⟨.text, false, true⟩
  have hAccepted :
      Grammar.parse "P+S" =
        .ok
          ⟨{ target := .player
             change := .increase
             subject := .stat .strength }, []⟩ := by
    decide +kernel
  have hRejected :
      Grammar.parse "P+" =
        .error ⟨.expected .subject none, 2⟩ := by
    decide +kernel
  have hFirst :
      settings.verdict "P+S" =
        ⟨true, "✓ P+S is valid\n"⟩ := by
    simp only [Settings.verdict, interpret, hAccepted]
    rfl
  have hSecond :
      settings.verdict "P+" =
        ⟨false,
          "Error parsing P+:\n" ++
            "validation error: expected stat or special " ++
            "condition at position 2\n  P+\n    ^\n\n"⟩ := by
    simp only [Settings.verdict, interpret, hRejected]
    rfl
  have hLines : notationsOf (encode "P+\n") = ["P+"] := by
    decide +kernel
  have hActs :
      ((Request.lines (encode "P+\n")).script settings).acts =
        Script.notationActs settings "P+" := by
    refine (Script.acts_lines _ _).trans ?_
    exact congrArg (Script.notationsActs settings) hLines
  have hUsed :
      17 =
        (output
          (steps ⟨settings, {}, none⟩
            [.single "P+S"])).length := by
    rw [output_steps_of_unlimited]
    simp only [List.flatMap_singleton, Request.output,
      Request.script, Script.notationActs, hFirst]
    rfl
  have hFull :
      20 <
        (output
          (steps ⟨settings, {}, none⟩
            ([.single "P+S"] ++
              [.lines (encode "P+\n")]))).length := by
    rw [output_steps_of_unlimited]
    simp only [List.cons_append, List.nil_append,
      List.flatMap_cons, List.flatMap_nil, Request.output,
      hActs]
    simp only [Request.script, Script.notationActs, hFirst,
      hSecond]
    decide
  have hCut :
      CutsReport settings (.lines (encode "P+\n")) (20 - 17)
        [] "P+" := by
    refine ⟨?_, by decide, ?_⟩
    · rw [hActs]
      exact List.prefix_rfl
    · simp only [Script.notationActs, hSecond]
      decide
  rcases
    (steps_of_room settings {} 20
      [.single "P+S", .lines (encode "P+\n")]).2.2
      [.single "P+S"] (.lines (encode "P+\n")) [] 17 rfl
      hUsed (by decide) hFull with
    ⟨step, hStep, hResult, hTally⟩
  refine ⟨step, hStep, hResult, ?_⟩
  rw [hTally [] "P+" hCut, ← settings.accepted_verdict,
    hSecond]
  simp only [afterSteps, List.foldl_cons, List.foldl_nil,
    stepOn_of_unlimited, Script.verdicts, Request.script,
    Script.notationActs, hFirst]
  rfl

end Session

end StatusEffect
