import StatusEffect.Vocabulary.Basic

/-
  Tokens of the notation.

  A token is a piece of the source with a lexical kind and
  the byte offset where it starts. Kinds have a code, used
  in structured values, and a description, used in messages.

  Key definitions include:
    * `TokenKind`
    * `TokenKind.describe`
    * `Token`
    * `Token.finish`
-/

------------------------------------------------------------
-- Token Kinds
------------------------------------------------------------

namespace StatusEffect

/- The lexical kinds of the notation. -/
inductive TokenKind where
  | target
  | effectMarker
  | stat
  | specialCondition
  | number
  | percent
  | fullValue
  | durationType
  | rangeDash
  | triggerSign
  | triggerType
  | conditionSign
  | element
  | specialFlag
  | removability
  | chainEffect
  | sourceDependency
  | stackingBehavior
  | visibility
  | resourceMarker
  | interaction
  | delimiter
  | comma
  | braceOpen
  | braceClose
  | parenOpen
  | parenClose
  | comparison
  | identifier
  | whitespace
  | invalid
deriving DecidableEq, Repr

instance : Vocabulary TokenKind where
  all :=
    [.target, .effectMarker, .stat, .specialCondition,
     .number, .percent, .fullValue, .durationType,
     .rangeDash, .triggerSign, .triggerType,
     .conditionSign, .element, .specialFlag, .removability,
     .chainEffect, .sourceDependency, .stackingBehavior,
     .visibility, .resourceMarker, .interaction,
     .delimiter, .comma, .braceOpen, .braceClose,
     .parenOpen, .parenClose, .comparison, .identifier,
     .whitespace, .invalid]
  code
    | .target => "target"
    | .effectMarker => "effect_marker"
    | .stat => "stat"
    | .specialCondition => "special_condition"
    | .number => "number"
    | .percent => "percent"
    | .fullValue => "full_value"
    | .durationType => "duration_type"
    | .rangeDash => "range_dash"
    | .triggerSign => "trigger_prefix"
    | .triggerType => "trigger_type"
    | .conditionSign => "condition_prefix"
    | .element => "element"
    | .specialFlag => "special_flag"
    | .removability => "removability"
    | .chainEffect => "chain_effect"
    | .sourceDependency => "source_dependency"
    | .stackingBehavior => "stacking_behavior"
    | .visibility => "visibility"
    | .resourceMarker => "resource_marker"
    | .interaction => "interaction"
    | .delimiter => "delimiter"
    | .comma => "comma"
    | .braceOpen => "brace_open"
    | .braceClose => "brace_close"
    | .parenOpen => "paren_open"
    | .parenClose => "paren_close"
    | .comparison => "comparison_operator"
    | .identifier => "identifier"
    | .whitespace => "whitespace"
    | .invalid => "error"

namespace TokenKind

/- The description of a kind in messages. -/
def describe : TokenKind → String
  | .target => "target"
  | .effectMarker => "effect marker"
  | .stat => "stat"
  | .specialCondition => "special condition"
  | .number => "number"
  | .percent => "percent sign"
  | .fullValue => "full value"
  | .durationType => "duration type"
  | .rangeDash => "range dash"
  | .triggerSign => "trigger prefix"
  | .triggerType => "trigger type"
  | .conditionSign => "condition prefix"
  | .element => "element"
  | .specialFlag => "special flag"
  | .removability => "removability flag"
  | .chainEffect => "chain effect"
  | .sourceDependency => "source dependency"
  | .stackingBehavior => "stacking behavior"
  | .visibility => "visibility flag"
  | .resourceMarker => "resource marker"
  | .interaction => "interaction tag"
  | .delimiter => "delimiter"
  | .comma => "comma"
  | .braceOpen => "opening brace"
  | .braceClose => "closing brace"
  | .parenOpen => "opening parenthesis"
  | .parenClose => "closing parenthesis"
  | .comparison => "comparison operator"
  | .identifier => "identifier"
  | .whitespace => "whitespace"
  | .invalid => "invalid character"

end TokenKind

------------------------------------------------------------
-- Tokens
------------------------------------------------------------

/- A token, its text and the byte offset of its start. -/
structure Token where
  kind : TokenKind
  text : String
  offset : Nat
deriving DecidableEq, Repr

namespace Token

/- The byte offset just past a token. -/
def finish (token : Token) : Nat :=
  token.offset + token.text.utf8ByteSize

end Token

end StatusEffect
