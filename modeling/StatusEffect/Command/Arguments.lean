/-
  Command line arguments.

  Arguments are read from left to right. Options are given
  by a long name behind two dashes or by a letter behind
  one; letters may be put together, and the value of an
  option may be attached to it or follow as an argument of
  its own. After two dashes alone everything is positional.
  The first problem ends the reading. A value that follows
  its option is taken at once but judged only when the next
  argument is understood, so that an unknown argument behind
  it is the earlier problem.

  Key definitions include:
    * `Switch`
    * `Valued`
    * `Arguments`
    * `UsageError`
    * `Arguments.ofList`
-/

------------------------------------------------------------
-- Options
------------------------------------------------------------

namespace StatusEffect

/- The options without a value. -/
inductive Switch where
  | validate
  | noExplain
  | json
  | interactive
deriving DecidableEq, Repr

/- The options with a value. -/
inductive Valued where
  | file
  | config
deriving DecidableEq, Repr

/- The options of the command line. -/
inductive CommandOption where
  | switch (kind : Switch)
  | valued (kind : Valued)
  | help
  | version
deriving DecidableEq, Repr

namespace CommandOption

/- The option with a long name. -/
def ofName? (name : String) : Option CommandOption :=
  match name with
  | "file" => some (.valued .file)
  | "config" => some (.valued .config)
  | "validate" => some (.switch .validate)
  | "no-explain" => some (.switch .noExplain)
  | "json" => some (.switch .json)
  | "interactive" => some (.switch .interactive)
  | "help" => some .help
  | "version" => some .version
  | _ => none

/- The option with a letter. -/
def ofLetter? (letter : Char) : Option CommandOption :=
  match letter with
  | 'f' => some (.valued .file)
  | 'v' => some (.switch .validate)
  | 'j' => some (.switch .json)
  | 'i' => some (.switch .interactive)
  | 'h' => some .help
  | 'V' => some .version
  | _ => none

end CommandOption

/- Why a command line was not accepted. -/
inductive UsageError where
  | unknownArgument
  | invalidValue
  | argumentConflict
  | tooManyValues
  | displayHelp
  | displayVersion
deriving DecidableEq, Repr

namespace UsageError

/- A short description of an error. -/
def describe : UsageError → String
  | .unknownArgument => "unknown argument"
  | .invalidValue => "an option needs a value"
  | .argumentConflict => "an option is given twice"
  | .tooManyValues => "an option takes no value"
  | .displayHelp => "help"
  | .displayVersion => "version"

end UsageError

/- What a command line asks for. -/
structure Arguments where
  source : Option String := none
  file : Option String := none
  config : Option String := none
  validate : Bool := false
  noExplain : Bool := false
  json : Bool := false
  interactive : Bool := false
deriving DecidableEq, Repr

namespace Arguments

/- Some input is asked for. -/
def hasInput (arguments : Arguments) : Bool :=
  arguments.interactive || arguments.file.isSome ||
    arguments.source.isSome

/- Whether a switch was given. -/
def isSet
    (arguments : Arguments) : Switch → Bool
  | .validate => arguments.validate
  | .noExplain => arguments.noExplain
  | .json => arguments.json
  | .interactive => arguments.interactive

/- The arguments with a switch given. -/
def set
    (arguments : Arguments) : Switch → Arguments
  | .validate => { arguments with validate := true }
  | .noExplain => { arguments with noExplain := true }
  | .json => { arguments with json := true }
  | .interactive => { arguments with interactive := true }

/- The value of an option. -/
def get?
    (arguments : Arguments) : Valued → Option String
  | .file => arguments.file
  | .config => arguments.config

/- The arguments with the value of an option. -/
def put
    (arguments : Arguments)
    (kind : Valued)
    (value : String) : Arguments :=
  match kind with
  | .file => { arguments with file := some value }
  | .config => { arguments with config := some value }

/- Take the value of an option, which must be its first. -/
def take
    (arguments : Arguments)
    (kind : Valued)
    (value : String) : Except UsageError Arguments :=
  if (arguments.get? kind).isSome then
    .error .argumentConflict
  else if value.isEmpty then
    .error .invalidValue
  else
    .ok (arguments.put kind value)

end Arguments

------------------------------------------------------------
-- Reading
------------------------------------------------------------

/- An option whose value is not settled yet. -/
structure Pending where
  kind : Valued
  value : Option String
deriving DecidableEq, Repr

/- The arguments read so far. -/
structure ArgumentState where
  arguments : Arguments := {}
  pending : Option Pending := none
  positionalOnly : Bool := false
deriving DecidableEq, Repr

namespace ArgumentState

/- Settle the option that is waiting for a value. -/
def settle
    (state : ArgumentState) :
    Except UsageError ArgumentState :=
  match state.pending with
  | none => .ok state
  | some ⟨_, none⟩ => .error .invalidValue
  | some ⟨kind, some value⟩ => do
      let arguments ← state.arguments.take kind value
      .ok { state with arguments, pending := none }

/- Take a switch, which must not have been given before. -/
def takeSwitch
    (state : ArgumentState)
    (kind : Switch) :
    Except UsageError ArgumentState := do
  let state ← state.settle
  if state.arguments.isSet kind then
    .error .argumentConflict
  else
    .ok { state with arguments := state.arguments.set kind }

/- Take an option, with the value attached to it if any. -/
def takeValued
    (state : ArgumentState)
    (kind : Valued)
    (attached : Option String) :
    Except UsageError ArgumentState := do
  let state ← state.settle
  match attached with
  | some value =>
      let arguments ← state.arguments.take kind value
      .ok { state with arguments }
  | none =>
      .ok { state with pending := some ⟨kind, none⟩ }

/- Take an option by its long name. -/
def takeLong
    (state : ArgumentState)
    (name : String)
    (attached : Option String) :
    Except UsageError ArgumentState :=
  match CommandOption.ofName? name, attached with
  | none, _ => .error .unknownArgument
  | some (.valued kind), _ => state.takeValued kind attached
  | some _, some _ => .error .tooManyValues
  | some (.switch kind), none => state.takeSwitch kind
  | some .help, none => do
      let _ ← state.settle
      .error .displayHelp
  | some .version, none => do
      let _ ← state.settle
      .error .displayVersion

/- The value attached to the letter of an option. -/
def attachedValue : List Char → Option String
  | [] => none
  | '=' :: value => some (String.ofList value)
  | value => some (String.ofList value)

/- Take options by their letters. -/
def takeShort :
    ArgumentState →
      List Char → Except UsageError ArgumentState
  | state, [] => .ok state
  | state, letter :: rest =>
      match CommandOption.ofLetter? letter with
      | none => .error .unknownArgument
      | some (.valued kind) =>
          state.takeValued kind (attachedValue rest)
      | some (.switch kind) => do
          let state ← state.takeSwitch kind
          state.takeShort rest
      | some .help => do
          let _ ← state.settle
          .error .displayHelp
      | some .version => do
          let _ ← state.settle
          .error .displayVersion

/- Take the notation, of which there is only one. -/
def takePositional
    (state : ArgumentState)
    (text : String) :
    Except UsageError ArgumentState :=
  if state.arguments.source.isSome then
    .error .unknownArgument
  else do
    let state ← state.settle
    .ok
      { state with
        arguments :=
          { state.arguments with source := some text } }

/- Take an argument as the value of the option before it. -/
def takeValue
    (state : ArgumentState)
    (text : String) :
    Except UsageError ArgumentState :=
  match state.pending with
  | some ⟨kind, none⟩ =>
      .ok { state with pending := some ⟨kind, some text⟩ }
  | _ => state.takePositional text

/- A long option, cut at its first equals sign. -/
def splitAttached
    (cs : List Char) : String × Option String :=
  let name := String.ofList (cs.takeWhile (· != '='))
  match cs.dropWhile (· != '=') with
  | [] => (name, none)
  | _ :: value => (name, some (String.ofList value))

/- Take one argument. -/
def takeArgument
    (state : ArgumentState)
    (argument : String) :
    Except UsageError ArgumentState :=
  if state.positionalOnly then
    state.takePositional argument
  else
    match argument.toList with
    | ['-', '-'] => .ok { state with positionalOnly := true }
    | '-' :: '-' :: rest =>
        let (name, attached) := splitAttached rest
        state.takeLong name attached
    | '-' :: letter :: rest =>
        state.takeShort (letter :: rest)
    | _ => state.takeValue argument

end ArgumentState

namespace Arguments

/- Read a command line. -/
def ofList
    (arguments : List String) :
    Except UsageError Arguments := do
  let state ←
    arguments.foldlM ArgumentState.takeArgument {}
  let state ← state.settle
  .ok state.arguments

end Arguments

end StatusEffect
