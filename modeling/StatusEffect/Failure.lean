import StatusEffect.Token.Basic
import StatusEffect.Text.Decimal
import StatusEffect.Text.Bytes
import StatusEffect.Text.Join

/-
  Failures and their diagnostics.

  A failure is a cause at a byte offset of the source. Its
  wording is kept apart from it: `Cause.message` gives the
  text of every cause. A diagnostic is a failure ready to be
  shown, with the source it came from, and also the shape in
  which failures are stored and exchanged.

  Key definitions include:
    * `Stage`
    * `Expectation`
    * `Role`
    * `Cause`
    * `Cause.message`
    * `Failure`
    * `Diagnostic`
    * `Diagnostic.headline`
    * `Diagnostic.render`
-/

------------------------------------------------------------
-- Stages
------------------------------------------------------------

namespace StatusEffect

open Text

/- The stage of reading that rejected the source. -/
inductive Stage where
  /- A character is the start of no lexeme. -/
  | tokenization
  /- The tokens, or a value among them, are not acceptable. -/
  | validation
deriving DecidableEq, Repr

instance : Vocabulary Stage where
  all := [.tokenization, .validation]
  code
    | .tokenization => "tokenization"
    | .validation => "validation"

------------------------------------------------------------
-- Causes
------------------------------------------------------------

/- What was due where something else stood. -/
inductive Expectation where
  | target
  | effectMarker
  | subject
  | rangeEnd
  | turnsMarker
  | triggerType (sign : String)
  | percentSign
  | chanceOrCondition
  | element
  | attribute
  | value (operator : String)
  | stackCount (head : String)
  | closingParen
  | closingBrace
deriving DecidableEq, Repr

namespace Expectation

/- The wording of an expectation. -/
def phrase : Expectation → String
  | .target => "target (P, E, A, X, G)"
  | .effectMarker => "effect marker (+, -, =, *, !, #)"
  | .subject => "stat or special condition"
  | .rangeEnd => "end of duration range"
  | .turnsMarker => "'T' after duration count"
  | .triggerType sign => "trigger type after '" ++ sign ++ "'"
  | .percentSign => "'%' after trigger chance"
  | .chanceOrCondition => "chance or condition after '?'"
  | .element => "element (F, W, E, S, D)"
  | .attribute => "condition attribute"
  | .value operator =>
      "condition value after '" ++ operator ++ "'"
  | .stackCount head => "stack count after '" ++ head ++ "'"
  | .closingParen => "')' to close chain target"
  | .closingBrace => "',' or '\x7d' in condition list"

end Expectation

/- The vocabularies that a text can fail to belong to. -/
inductive Role where
  | target
  | effectType
  | stat
  | durationType
  | trigger
  | element
  | specialFlag
  | removability
  | chainEffect
  | sourceDependency
  | stackingBehavior
  | visibility
  | resource
  | interaction
deriving DecidableEq, Repr

namespace Role

/- The wording of a role. -/
def phrase : Role → String
  | .target => "target"
  | .effectType => "effect type"
  | .stat => "stat"
  | .durationType => "duration type"
  | .trigger => "trigger"
  | .element => "element"
  | .specialFlag => "special flag"
  | .removability => "removability flag"
  | .chainEffect => "chain effect"
  | .sourceDependency => "source dependency"
  | .stackingBehavior => "stacking behavior"
  | .visibility => "visibility flag"
  | .resource => "resource"
  | .interaction => "interaction tag"

end Role

/- Why a source was rejected. -/
inductive Cause where
  | invalidCharacter (text : String)
  | expected
      (what : Expectation)
      (found : Option (TokenKind × String))
  | unrecognized (role : Role) (text : String)
  | outOfRange (numeral : String)
  | turnsWithoutCount
  | rangeReversed (first last : UInt32)
  | chanceTooHigh (chance : UInt32)
  | unexpected (kind : TokenKind) (text : String)
  | trailing
      (kind : TokenKind)
      (text : String)
      (head : String)
  | chainTooDeep
deriving DecidableEq, Repr

namespace Cause

/- The stage at which a cause arises. -/
def stage : Cause → Stage
  | .invalidCharacter _ => .tokenization
  | _ => .validation

/- A token as messages name it. -/
def named
    (kind : TokenKind)
    (text : String) : String :=
  kind.describe ++ " '" ++ text ++ "'"

/- The wording of a reversed range of turns. -/
def reversedRange
    (first last : UInt32) : String :=
  "duration range start " ++ wordDecimal first ++
    " exceeds end " ++ wordDecimal last

/- The wording of a chance above one hundred percent. -/
def excessiveChance (chance : UInt32) : String :=
  "trigger chance " ++ wordDecimal chance ++
    "% exceeds 100%"

/- The wording of a cause. -/
def message : Cause → String
  | .invalidCharacter text =>
      "invalid character '" ++ text ++ "'"
  | .expected what none => "expected " ++ what.phrase
  | .expected what (some found) =>
      "expected " ++ what.phrase ++ ", found " ++
        named found.1 found.2
  | .unrecognized role text =>
      "unrecognized " ++ role.phrase ++ " '" ++ text ++ "'"
  | .outOfRange numeral =>
      "number '" ++ numeral ++ "' is out of range"
  | .turnsWithoutCount =>
      "turn duration needs a count before 'T'"
  | .rangeReversed first last => reversedRange first last
  | .chanceTooHigh chance => excessiveChance chance
  | .unexpected kind text => "unexpected " ++ named kind text
  | .trailing kind text head =>
      "unexpected " ++ named kind text ++ " after '" ++
        head ++ "' section"
  | .chainTooDeep => "chain target nested too deeply"

end Cause

/- A cause, and the byte offset it is reported at. -/
structure Failure where
  cause : Cause
  offset : Nat
deriving DecidableEq, Repr

------------------------------------------------------------
-- Diagnostics
------------------------------------------------------------

/-
  A failure as it is shown and exchanged. The offset and the
  source are optional, so that a failure without a place can
  be stored too.
-/
structure Diagnostic where
  stage : Stage
  message : String
  offset : Option Nat
  snippet : Option String
deriving DecidableEq, Repr

namespace Failure

/- The diagnostic of a failure in a source. -/
def diagnostic
    (failure : Failure)
    (source : String) : Diagnostic where
  stage := failure.cause.stage
  message := failure.cause.message
  offset := some failure.offset
  snippet := some source

end Failure

namespace Diagnostic

/- The stage, the message and, if it is known, the offset. -/
def headline (diagnostic : Diagnostic) : String :=
  Vocabulary.code diagnostic.stage ++ " error: " ++
    diagnostic.message ++
    match diagnostic.offset with
    | some offset => " at position " ++ decimal offset
    | none => ""

/- The source and, below it, a caret at the offset. -/
def pointer
    (snippet : String)
    (offset : Nat) : String :=
  "\n  " ++ snippet ++ "\n  " ++
    spaces (column snippet.toList offset) ++ "^"

/-
  The headline, and below it the source with a caret, when
  both the offset and the source are known.
-/
def render (diagnostic : Diagnostic) : String :=
  match diagnostic.offset, diagnostic.snippet with
  | some offset, some snippet =>
      diagnostic.headline ++ pointer snippet offset
  | _, _ => diagnostic.headline

end Diagnostic

end StatusEffect
