import StatusEffect.Vocabulary.Basic

/-
  The settings of a session.

  Key definitions include:
    * `OutputFormat`
    * `Settings`
-/

namespace StatusEffect

/- The form in which results are written. -/
inductive OutputFormat where
  | text
  | json
deriving DecidableEq, Repr

instance : Vocabulary OutputFormat where
  all := [.text, .json]
  code
    | .text => "text"
    | .json => "json"

/- How the results of a session are presented. -/
structure Settings where
  output : OutputFormat
  explain : Bool
  validateOnly : Bool
deriving DecidableEq, Repr

end StatusEffect
