import StatusEffect.Config.Document
import StatusEffect.Session.Script
import StatusEffect.Session.Settings

/-
  Configurations.

  A configuration gives the presentation of results and the
  logging. What a document leaves out has a default, and
  what it holds beyond that is refused. A word of
  a vocabulary is a string with its code, or a table with
  the code as its only key and nothing under it.

  Key definitions include:
    * `LogFormat`
    * `Config`
    * `Config.ofText?`
    * `Config.check`
    * `ConfigError`
    * `ConfigError.message`
-/

------------------------------------------------------------
-- Configurations
------------------------------------------------------------

namespace StatusEffect

open Text

/- The form in which log lines are written. -/
inductive LogFormat where
  | pretty
  | json
deriving DecidableEq, Repr

instance : Vocabulary LogFormat where
  all := [.pretty, .json]
  code
    | .pretty => "pretty"
    | .json => "json"

/- What can be configured, with its defaults. -/
structure Config where
  output : OutputFormat := .text
  explain : Bool := true
  logFilter : String := "warn"
  logFormat : LogFormat := .pretty
deriving DecidableEq, Repr

namespace Config

open Document

/- A value that holds nothing. -/
def isEmptyValue : Value → Bool
  | .list [] => true
  | .table _ [] => true
  | _ => false

/- A word of a vocabulary in a document. -/
def word?
    {α : Type}
    [Vocabulary α] : Value → Option α
  | .text text => Vocabulary.ofCode? text
  | .table _ [(name, inner)] =>
      if isEmptyValue inner then
        Vocabulary.ofCode? name
      else
        none
  | _ => none

/- A configuration with one entry of a document applied. -/
def withEntry?
    (config : Config)
    (entry : String × Value) : Option Config :=
  match entry with
  | ("output", found) =>
      (word? found).map fun output =>
        { config with output }
  | ("explain", .truth explain) =>
      some { config with explain }
  | ("log_filter", .text logFilter) =>
      some { config with logFilter }
  | ("log_format", found) =>
      (word? found).map fun logFormat =>
        { config with logFormat }
  | _ => none

/- The configuration of a document, if it is one. -/
def ofText? (text : String) : Option Config := do
  let entries ← Document.ofText? text
  entries.foldlM withEntry? {}

end Config

------------------------------------------------------------
-- Errors
------------------------------------------------------------

/- Why there is no usable configuration. -/
inductive ConfigError where
  | unreadable (path : String) (fault : StreamFault)
  | malformed
  | emptyLogFilter
deriving DecidableEq, Repr

namespace ConfigError

/- The wording of an error. -/
def message : ConfigError → String
  | .unreadable path fault =>
      "Failed to read config file " ++ path ++ ": " ++
        fault.message
  | .malformed => "Failed to parse config TOML"
  | .emptyLogFilter =>
      "Invalid config value for log_filter: " ++
        "must not be empty"

end ConfigError

namespace Config

/- The values of a configuration can be used. -/
def check (config : Config) : Except ConfigError Unit :=
  if isBlankText config.logFilter then
    .error .emptyLogFilter
  else
    .ok ()

end Config

end StatusEffect
