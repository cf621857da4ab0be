import StatusEffect.Session.Report
import StatusEffect.Text.Blank

/-
  Scripts of session steps.

  What a step of a session does depends only on its settings
  and its input: it counts notations and writes texts, and
  it ends well or with a fault of the input. A script lists
  these acts in order. Whether there is room for the texts
  is no concern of it.

  Key definitions include:
    * `StreamFault`
    * `Act`
    * `Script`
    * `Script.notationActs`
    * `Script.lines`
    * `Script.isQuit`
    * `Script.reply`
    * `Script.interactive`
-/

------------------------------------------------------------
-- Scripts
------------------------------------------------------------

namespace StatusEffect

open Text

/- What can go wrong with a stream or a file. -/
inductive StreamFault where
  | notFound
  | isDirectory
  | notText
  | outputFull
deriving DecidableEq, Repr

namespace StreamFault

/- The wording of a fault. -/
def message : StreamFault → String
  | .notFound => "No such file or directory (os error 2)"
  | .isDirectory => "Is a directory (os error 21)"
  | .notText => "stream did not contain valid UTF-8"
  | .outputFull => "failed to write whole buffer"

end StreamFault

/- One act of a session. -/
inductive Act where
  /- A notation was processed, with this verdict. -/
  | count (accepted : Bool)
  /- A text is written. -/
  | write (text : String)
deriving DecidableEq, Repr

/- The acts of a step, and the fault that ends it, if any. -/
structure Script where
  acts : List Act
  fault : Option StreamFault := none
deriving DecidableEq, Repr

namespace Script

/- Some acts, then those of a script. -/
def after
    (script : Script)
    (acts : List Act) : Script :=
  { script with acts := acts ++ script.acts }

------------------------------------------------------------
-- Notations And Lines
------------------------------------------------------------

/-
  The acts on one notation. It is counted before anything is
  written about it.
-/
def notationActs
    (settings : Settings)
    (source : String) : List Act :=
  let verdict := settings.verdict source
  [.count verdict.accepted, .write verdict.report]

/- The acts on one line. A blank line has none. -/
def lineActs
    (settings : Settings)
    (line : String) : List Act :=
  if isBlankText line then
    []
  else
    notationActs settings (trim line)

/- Process every line, up to the first that is not text. -/
def lines
    (settings : Settings) : List Bytes → Script
  | [] => ⟨[], none⟩
  | bytes :: rest =>
      match decode? bytes with
      | none => ⟨[], some .notText⟩
      | some line =>
          (lines settings rest).after
            (lineActs settings line)

------------------------------------------------------------
-- Interaction
------------------------------------------------------------

/- What an interactive step starts with. -/
def banner : List String :=
  ["=== ESENS Interactive Parser ===\n",
   "Enter ESENS notations to parse, or 'exit' to quit.\n",
   "Examples: P+S10%3T, E-D15C, P#Stun1T.RD\n",
   "\n"]

/- What is written before a line is read. -/
def prompt : String := "> "

/- An ASCII letter in lower case. -/
def lowerAscii (c : Char) : Char :=
  if isUpper c then Char.ofNat (c.toNat + 0x20) else c

/- A line that ends an interactive step. -/
def isQuit (line : String) : Bool :=
  let word := (trim line).toList.map lowerAscii
  word == "exit".toList || word == "quit".toList ||
    word == "q".toList

/- What an interactive step does with a line it has read. -/
inductive Reply where
  | goOn (acts : List Act)
  | stop (fault : Option StreamFault)
deriving DecidableEq, Repr

/-
  The reply to a line. A line that is no text is a fault, and
  a line that asks to quit ends the step.
-/
def reply
    (settings : Settings)
    (bytes : Bytes) : Reply :=
  match decode? bytes with
  | none => .stop (some .notText)
  | some line =>
      if isQuit line then
        .stop none
      else
        .goOn (lineActs settings line)

/- What the end of the input is answered with. -/
def farewell : String := "\n"

/- Reply to lines after a prompt each, up to one that stops. -/
def replies
    (settings : Settings) : List Bytes → Script
  | [] => ⟨[.write prompt, .write farewell], none⟩
  | bytes :: rest =>
      match reply settings bytes with
      | .stop fault => ⟨[.write prompt], fault⟩
      | .goOn acts =>
          (replies settings rest).after (.write prompt :: acts)

/- An interactive step on some lines. -/
def interactive
    (settings : Settings)
    (input : List Bytes) : Script :=
  (replies settings input).after (banner.map .write)

end Script

end StatusEffect
