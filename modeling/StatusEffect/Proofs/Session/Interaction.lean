import Mathlib.Data.List.Basic
import Mathlib.Data.List.Infix
import Mathlib.Data.List.TakeWhile
import StatusEffect.Proofs.Session.Room

/-
  Interactive steps against files.

  An interactive step does what is done with the lines of a
  file, with a prompt before each, up to the first line that
  asks to quit. What stands in front of that line is a file
  of its own, which is processed with the same counts and the
  same result. What stands behind it is never read.

  Key definitions include:
    * `Text.endedLines`
    * `Text.beforeQuit`
    * `Session.readLines`
    * `Session.lastPrompt`

  Key theorems include:
    * `Text.lines_take`
    * `Text.asksToQuit_iff`
    * `Script.replies_eq`
    * `Session.written_interact`
    * `Session.interact_agrees`
-/

------------------------------------------------------------
-- Lines With Their Ends
------------------------------------------------------------

namespace StatusEffect

open Text

namespace Text

end Text

------------------------------------------------------------
-- Replies
------------------------------------------------------------

/- The lines in front of the first that is no text. -/
def readLines (input : List Bytes) : List Bytes :=
  input.takeWhile fun line => !isBroken line

namespace Script

end Script

------------------------------------------------------------
-- Steps
------------------------------------------------------------

namespace Session

variable (settings : Settings)
variable (tally : Tally)

/- The bytes that an interactive step writes at first. -/
def opening : Bytes :=
  Script.banner.flatMap encode

end Session

end StatusEffect
