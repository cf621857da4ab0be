import StatusEffect.Command.Arguments
import StatusEffect.Config.Basic
import StatusEffect.Config.LogFilter
import StatusEffect.Session.Basic

/-
  Running the command.

  A run depends on the arguments, the surroundings it is
  started in and what the files hold. Its configuration is
  the file named on the command line, else the one named by
  the surroundings, else the default. Exactly one kind of
  input is processed: the prompt before the file before the
  notation. What was written before a failure remains
  written.

  Key definitions include:
    * `Content`
    * `Surroundings`
    * `CommandError`
    * `Arguments.settings`
    * `Command.loadConfig`
    * `Command.Processed`
    * `Command.Completion`
    * `Command.run`
-/

------------------------------------------------------------
-- Surroundings
------------------------------------------------------------

namespace StatusEffect

open Text

/- What stands under the name of a file. -/
inductive Content where
  | missing
  | directory
  | bytes (bytes : Bytes)
deriving DecidableEq, Repr

/- What a run can see besides its arguments. -/
structure Surroundings where
  content : String → Content
  input : Bytes := []
  configFile : Option String := none
  logFilter : Option String := none

/- Why a run ended early. -/
inductive CommandError where
  | stream (fault : StreamFault)
  | config (error : ConfigError)
  | logFilter (fault : LogFilter.Fault)
  | noSourceFile (path : String) (fault : StreamFault)
deriving DecidableEq, Repr

namespace CommandError

/- The wording of an error. -/
def message : CommandError → String
  | .stream fault => "IO error: " ++ fault.message
  | .config error => error.message
  | .logFilter .malformed =>
      "Failed to initialize logging: invalid log filter"
  | .logFilter .misaligned =>
      "Failed to initialize logging: misaligned log filter"
  | .noSourceFile path fault =>
      "Failed to read notation file " ++ path ++ ": " ++
        fault.message

end CommandError

------------------------------------------------------------
-- Configuration
------------------------------------------------------------

namespace Arguments

/-
  The settings of a session: the arguments can only switch
  JSON output on and explanations off.
-/
def settings
    (arguments : Arguments)
    (config : Config) : Settings where
  output := if arguments.json then .json else config.output
  explain := config.explain && !arguments.noExplain
  validateOnly := arguments.validate

end Arguments

namespace Command

/- The text of a file, or why it cannot be read. -/
def readText : Content → Except StreamFault String
  | .missing => .error .notFound
  | .directory => .error .isDirectory
  | .bytes bytes =>
      match decode? bytes with
      | some text => .ok text
      | none => .error .notText

/- The file that a configuration is read from, if any. -/
def configFile?
    (arguments : Arguments)
    (surroundings : Surroundings) : Option String :=
  arguments.config.or
    (surroundings.configFile.filter fun path =>
      !path.isEmpty)

/- The configuration of a file. -/
def configOfFile
    (surroundings : Surroundings)
    (path : String) : Except ConfigError Config :=
  match readText (surroundings.content path) with
  | .error fault => .error (.unreadable path fault)
  | .ok text =>
      match Config.ofText? text with
      | none => .error .malformed
      | some config => .ok config

/- The configuration of a run. -/
def loadConfig
    (arguments : Arguments)
    (surroundings : Surroundings) :
    Except ConfigError Config := do
  let config ←
    match configFile? arguments surroundings with
    | some path => configOfFile surroundings path
    | none => .ok {}
  config.check
  .ok config

/-
  The filter of the surroundings is used if it is well
  formed, and that of the configuration otherwise.
-/
def checkLogFilter
    (config : Config)
    (surroundings : Surroundings) :
    Except LogFilter.Fault Unit :=
  match surroundings.logFilter.map LogFilter.check with
  | none => LogFilter.check config.logFilter
  | some (.error .malformed) =>
      LogFilter.check config.logFilter
  | some checked => checked

/- What a run needs before it starts a session. -/
def prepare
    (arguments : Arguments)
    (surroundings : Surroundings) :
    Except CommandError Config :=
  match loadConfig arguments surroundings with
  | .error error => .error (.config error)
  | .ok config =>
      match checkLogFilter config surroundings with
      | .error fault => .error (.logFilter fault)
      | .ok () => .ok config

------------------------------------------------------------
-- Runs
------------------------------------------------------------

/- What a session of a run came to: the number of rejections. -/
structure Processed where
  written : Bytes
  result : Except CommandError Nat

/- A finished step that reports no rejections. -/
def ofInteraction
    (step : Session.Step Unit) : Processed where
  written := step.written
  result :=
    match step.result with
    | .ok () => .ok 0
    | .error fault => .error (.stream fault)

/- A finished step, with the rejections of its session. -/
def ofStep
    {α : Type}
    (step : Session.Step α) : Processed where
  written := step.written
  result :=
    match step.result with
    | .ok _ => .ok step.session.tally.failed
    | .error fault => .error (.stream fault)

/- Process a file. A directory opens, but cannot be read. -/
def processFile
    (session : Session)
    (surroundings : Surroundings)
    (path : String) : Processed :=
  match surroundings.content path with
  | .missing => ⟨[], .error (.noSourceFile path .notFound)⟩
  | .directory => ⟨[], .error (.stream .isDirectory)⟩
  | .bytes bytes => ofStep (session.processLines bytes)

/- Process the input that the arguments ask for. -/
def processInput
    (arguments : Arguments)
    (surroundings : Surroundings)
    (session : Session) : Processed :=
  if arguments.interactive then
    ofInteraction (session.interact surroundings.input)
  else
    match arguments.file, arguments.source with
    | some path, _ => processFile session surroundings path
    | none, some source => ofStep (session.process source)
    | none, none => ⟨[], .ok 0⟩

/- How a run ended: its status and what it wrote. -/
structure Completion where
  status : Nat
  written : Bytes := []
  error : Option CommandError := none

/- The status of a run that could not do its work. -/
def failureStatus : Nat := 2

/- The status of a run that was broken off. -/
def brokenStatus : Nat := 101

/-
  The completion of a run that ended early. One that was
  broken off has nothing to say about it.
-/
def ofError
    (written : Bytes) : CommandError → Completion
  | .logFilter .misaligned =>
      { status := brokenStatus, written }
  | error =>
      { status := failureStatus, written, error := some error }

/- The completion of a session. -/
def complete (outcome : Processed) : Completion :=
  match outcome.result with
  | .ok 0 => { status := 0, written := outcome.written }
  | .ok _ => { status := 1, written := outcome.written }
  | .error error => ofError outcome.written error

/- What `--version` prints. -/
def versionText : String := "esens 0.4.0\n"

/- What `--help` prints. -/
def helpText : String :=
  concat
    ["Parse and validate ESENS status-effect notation\n",
     "\n",
     "Usage: esens [OPTIONS] [NOTATION]\n",
     "\n",
     "Arguments:\n",
     "  [NOTATION]  The ESENS notation to parse\n",
     "\n",
     "Options:\n",
     "  -f, --file <FILE>      ",
     "File containing ESENS notations, one per line\n",
     "  -v, --validate         ",
     "Only validate syntax, don't show parsed results\n",
     "      --no-explain       ",
     "Disable human-readable explanations\n",
     "  -j, --json             ",
     "Output in JSON format\n",
     "  -i, --interactive      ",
     "Run in interactive mode\n",
     "      --config <CONFIG>  ",
     "Path to a TOML config file ",
     "(defaults to $ESENS_CONFIG)\n",
     "  -h, --help             Print help\n",
     "  -V, --version          Print version\n"]

/- The completion of a command line that was not accepted. -/
def ofUsage : UsageError → Completion
  | .displayHelp =>
      { status := 0, written := encode helpText }
  | .displayVersion =>
      { status := 0, written := encode versionText }
  | _ => { status := failureStatus }

/- Run with arguments that were accepted. -/
def runWith
    (arguments : Arguments)
    (surroundings : Surroundings) : Completion :=
  if arguments.hasInput then
    match prepare arguments surroundings with
    | .error error => ofError [] error
    | .ok config =>
        complete
          (processInput arguments surroundings
            { settings := arguments.settings config })
  else
    { status := failureStatus }

/- Run a command line. -/
def run
    (arguments : List String)
    (surroundings : Surroundings) : Completion :=
  match Arguments.ofList arguments with
  | .error error => ofUsage error
  | .ok accepted => runWith accepted surroundings

end Command

end StatusEffect
