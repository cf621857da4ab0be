import StatusEffect.Session.Script

/-
  Sessions.

  A session processes notations one after the other, counts
  them, and writes what it finds to an output. The output
  may have room for a number of bytes only. A text that does
  not fit is cut where the room ends, and the step that
  writes it stops there; what the step counted before
  remains counted. Further steps can follow.

  Key definitions include:
    * `Tally`
    * `Session`
    * `Performance`
    * `Session.perform`
    * `Session.process`
    * `Session.processLines`
    * `Session.interact`
-/

------------------------------------------------------------
-- Sessions
------------------------------------------------------------

namespace StatusEffect

open Text

/- How many notations were processed, and how many rejected. -/
structure Tally where
  processed : Nat := 0
  failed : Nat := 0
deriving DecidableEq, Repr

namespace Tally

/- The tally after one more notation. -/
def count
    (tally : Tally)
    (accepted : Bool) : Tally where
  processed := tally.processed + 1
  failed :=
    if accepted then tally.failed else tally.failed + 1

end Tally

/- The state of a session. No limit means unlimited room. -/
structure Session where
  settings : Settings
  tally : Tally := {}
  room : Option Nat := none
deriving DecidableEq, Repr

/- What some acts of a session came to. -/
structure Performance where
  session : Session
  written : Bytes
  complete : Bool
deriving DecidableEq, Repr

namespace Session

/- The room that is left after some bytes, if they fit. -/
def roomAfter?
    (room : Option Nat)
    (count : Nat) : Option (Option Nat) :=
  match room with
  | none => some none
  | some limit =>
      if count ≤ limit then
        some (some (limit - count))
      else
        none

/- Perform acts up to the first text that does not fit. -/
def perform
    (session : Session) : List Act → Performance
  | [] => ⟨session, [], true⟩
  | .count accepted :: acts =>
      perform
        { session with tally := session.tally.count accepted }
        acts
  | .write text :: acts =>
      let bytes := encode text
      match roomAfter? session.room bytes.length with
      | some room =>
          let rest := perform { session with room } acts
          { rest with written := bytes ++ rest.written }
      | none =>
          ⟨{ session with room := some 0 },
            bytes.take (session.room.getD 0), false⟩

------------------------------------------------------------
-- Steps
------------------------------------------------------------

/- What a step of a session came to. -/
structure Step (α : Type) where
  session : Session
  written : Bytes
  result : Except StreamFault α

/- Perform a script. A full output is the earlier fault. -/
def run
    (session : Session)
    (script : Script) : Step Unit :=
  let performance := session.perform script.acts
  { session := performance.session
    written := performance.written
    result :=
      if performance.complete then
        match script.fault with
        | none => .ok ()
        | some fault => .error fault
      else
        .error .outputFull }

/- Process one notation, and tell whether it was accepted. -/
def process
    (session : Session)
    (source : String) : Step Bool :=
  let step :=
    session.run
      ⟨Script.notationActs session.settings source, none⟩
  { session := step.session
    written := step.written
    result := do
      step.result
      pure (session.settings.verdict source).accepted }

/- Process the lines of an input. -/
def processLines
    (session : Session)
    (input : Bytes) : Step Unit :=
  session.run (Script.lines session.settings (lines input))

/- Process the lines of an input interactively. -/
def interact
    (session : Session)
    (input : Bytes) : Step Unit :=
  session.run
    (Script.interactive session.settings (lines input))

end Session

end StatusEffect
