import StatusEffect.Command.Run

/-
  The command line program.

  The files that a run can ask for are known from its
  arguments, so they are read before it starts. Only the
  interactive prompt reads its input line by line.
-/

------------------------------------------------------------
-- Streams And Files
------------------------------------------------------------

namespace StatusEffect

open Text

namespace Program

/- Write bytes to the standard output. -/
def put (bytes : Bytes) : IO Unit := do
  let output ← IO.getStdout
  output.write ⟨bytes.toArray⟩
  output.flush

/- Write a line to the standard error output. -/
def complain (text : String) : IO Unit := do
  let errors ← IO.getStderr
  errors.putStrLn text

/- What stands under the name of a file. -/
def contentOf (path : String) : IO Content := do
  try
    let found ← IO.FS.readBinFile path
    return .bytes found.data.toList
  catch
    | .noFileOrDirectory .. => return .missing
    | _ => return .directory

/- The contents of some files. -/
def contentsOf
    (paths : List String) :
    IO (String → Content) := do
  let found ← paths.mapM fun path => do
    return (path, ← contentOf path)
  return fun path => (found.lookup path).getD .missing

/- The surroundings of a run, without its input. -/
def surroundingsOf
    (arguments : Arguments) : IO Surroundings := do
  let configFile ← IO.getEnv "ESENS_CONFIG"
  let logFilter ← IO.getEnv "RUST_LOG"
  let content ←
    contentsOf
      (arguments.config.toList ++ configFile.toList ++
        arguments.file.toList)
  return { content, configFile, logFilter }

------------------------------------------------------------
-- Interaction
------------------------------------------------------------

/- The next line of a stream, or nothing at its end. -/
partial def readLine
    (input : IO.FS.Stream)
    (before : Bytes) : IO (Option Bytes) := do
  let chunk ← input.read 1
  match chunk.data.toList with
  | [] =>
      return if before.isEmpty then none
        else some before.reverse
  | byte :: _ =>
      if byte = lineFeed then
        return some before.reverse
      else
        readLine input (byte :: before)

/- Perform acts and write what they come to. -/
def act
    (session : Session)
    (acts : List Act) : IO Session := do
  let performance := session.perform acts
  put performance.written
  return performance.session

/- Reply to lines until one stops the step or none is left. -/
partial def converse
    (input : IO.FS.Stream)
    (session : Session) : IO (Option StreamFault) := do
  let session ← act session [.write Script.prompt]
  match ← readLine input [] with
  | none =>
      let _ ← act session [.write Script.farewell]
      return none
  | some line =>
      match Script.reply session.settings line with
      | .stop fault => return fault
      | .goOn acts =>
          let session ← act session acts
          converse input session

/- An interactive step with the standard input. -/
def interact (session : Session) : IO (Option CommandError) := do
  let input ← IO.getStdin
  let session ← act session (Script.banner.map .write)
  let fault ← converse input session
  return fault.map .stream

------------------------------------------------------------
-- Runs
------------------------------------------------------------

/- Write what a run came to, and give its status. -/
def finish (completion : Command.Completion) : IO UInt32 := do
  put completion.written
  if let some error := completion.error then
    complain ("Error: " ++ error.message)
  return UInt32.ofNat completion.status

/- Answer a command line that was not accepted. -/
def refuse (error : UsageError) : IO UInt32 := do
  let completion := Command.ofUsage error
  if completion.status = Command.failureStatus then
    complain ("error: " ++ error.describe)
  finish completion

/- Run with arguments that were accepted. -/
def runWith (arguments : Arguments) : IO UInt32 := do
  let surroundings ← surroundingsOf arguments
  if arguments.interactive then
    match Command.prepare arguments surroundings with
    | .error error => finish (Command.ofError [] error)
    | .ok config =>
        let error ←
          interact { settings := arguments.settings config }
        let status :=
          if error.isSome then Command.failureStatus else 0
        finish { status, error }
  else
    unless arguments.hasInput do
      complain Command.helpText
    finish (Command.runWith arguments surroundings)

end Program

end StatusEffect

open StatusEffect in
/- Run the command line. -/
def main (arguments : List String) : IO UInt32 :=
  match Arguments.ofList arguments with
  | .error error => Program.refuse error
  | .ok accepted => Program.runWith accepted
