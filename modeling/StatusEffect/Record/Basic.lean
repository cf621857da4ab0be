import StatusEffect.Vocabulary.Core
import StatusEffect.Vocabulary.Section
import StatusEffect.Text.Decimal

/-
  Effect records.

  An effect holds what one notation says about itself. A
  record is an effect together with the effects that follow
  from it when it ends, the outermost first: the chain target
  of each effect of a record is the next one. Numbers
  are 32-bit words.

  Key definitions include:
    * `Magnitude`
    * `Duration`
    * `Condition`
    * `Trigger`
    * `Subject`
    * `Stacking`
    * `ResourceLink`
    * `Effect`
    * `Record`
    * `Record.target?`
    * `Record.depth`
-/

------------------------------------------------------------
-- Core Clauses
------------------------------------------------------------

namespace StatusEffect

open Text

/- How much a stat changes. A full magnitude has no amount. -/
structure Magnitude where
  value : UInt32
  isPercentage : Bool
  isFull : Bool
deriving DecidableEq, Repr

namespace Magnitude

/- A change by a fixed amount. -/
def flat (value : UInt32) : Magnitude :=
  ⟨value, false, false⟩

/- A change by a percentage. -/
def percent (value : UInt32) : Magnitude :=
  ⟨value, true, false⟩

/- A change to the maximum. -/
def full : Magnitude :=
  ⟨0, false, true⟩

end Magnitude

/- How long an effect lasts. -/
inductive Duration where
  | turns (count : UInt32)
  | turnRange (first last : UInt32)
  | combat
  | permanent
  | action
deriving DecidableEq, Repr

namespace Duration

/- The unit of a duration. -/
def span : Duration → Span
  | .turns _ => .turns
  | .turnRange _ _ => .turns
  | .combat => .combat
  | .permanent => .permanent
  | .action => .action

end Duration

/- The value that a condition compares with. -/
inductive ConditionValue where
  | truth (value : Bool)
  | number (value : UInt32)
  | text (value : String)
deriving DecidableEq, Repr

namespace ConditionValue

/- A condition value as it is written. -/
def render : ConditionValue → String
  | .truth true => "true"
  | .truth false => "false"
  | .number value => wordDecimal value
  | .text value => value

end ConditionValue

/- A comparison of an attribute with a value. -/
structure Condition where
  name : String
  operator : String
  value : ConditionValue
  isPercentage : Bool
deriving DecidableEq, Repr

namespace Condition

/- A bare name, which asks for the truth of an attribute. -/
def flag (name : String) : Condition :=
  ⟨name, "=", .truth true, false⟩

/- A condition is written as its bare name. -/
def isFlag (condition : Condition) : Bool :=
  condition.operator == "=" &&
    condition.value == .truth true &&
    !condition.isPercentage

/- A condition as it is written. -/
def render (condition : Condition) : String :=
  if condition.isFlag then
    condition.name
  else
    condition.name ++ condition.operator ++
      condition.value.render ++
      if condition.isPercentage then "%" else ""

end Condition

/- What activates an effect. -/
inductive Trigger where
  | event (kind : Event)
  | chance (percent : UInt32)
  | condition (test : Condition)
deriving DecidableEq, Repr

/- The stat that an effect changes, or a named condition. -/
inductive Subject where
  | stat (kind : Stat)
  | condition (name : String)
deriving DecidableEq, Repr

namespace Subject

/- A subject as it is written. -/
def render : Subject → String
  | .stat word => Vocabulary.code word
  | .condition name => name

/- The subject of a text: a stat if the text is its code. -/
def ofText (text : String) : Subject :=
  match Vocabulary.ofCode? text with
  | some word => .stat word
  | none => .condition text

end Subject

------------------------------------------------------------
-- Extended Sections
------------------------------------------------------------

/- How repeated applications add up, and up to how many. -/
structure Stacking where
  rule : StackRule
  count : Option UInt32
deriving DecidableEq, Repr

/- A resource that is drained, and how much of it a turn. -/
structure ResourceLink where
  resource : Resource
  amount : Option UInt32
deriving DecidableEq, Repr

------------------------------------------------------------
-- Records
------------------------------------------------------------

/- An effect without the effects that follow from it. -/
structure Effect where
  target : Target
  change : Change
  subject : Subject
  magnitude : Option Magnitude := none
  duration : Option Duration := none
  trigger : Option Trigger := none
  elements : List Element := []
  flags : List Flag := []
  removability : Option Removability := none
  chainEffect : Option ChainEffect := none
  source : Option SourceLink := none
  stacking : Option Stacking := none
  visibility : Option Visibility := none
  resource : Option ResourceLink := none
  conditions : List Condition := []
  interaction : Option Interaction := none
  metaEffect : Option MetaEffect := none
deriving DecidableEq, Repr

/- An effect, and the chain of effects that follow from it. -/
structure Record where
  effect : Effect
  chain : List Effect := []
deriving DecidableEq, Repr

namespace Record

/- The deepest chain that is accepted. -/
def maxDepth : Nat := 8

/- All effects of a record, the outermost first. -/
def effects (record : Record) : List Effect :=
  record.effect :: record.chain

/- The number of effects that follow from a record. -/
def depth (record : Record) : Nat :=
  record.chain.length

/- The record that directly follows from a record. -/
def target? (record : Record) : Option Record :=
  match record.chain with
  | [] => none
  | effect :: chain => some ⟨effect, chain⟩

/- The chain that a chain target adds to a record. -/
def chainOf : Option Record → List Effect
  | none => []
  | some target => target.effects

/- A record with another chain target. -/
def withTarget
    (record : Record)
    (target : Option Record) : Record :=
  { record with chain := chainOf target }

/- The target of a record is the one it was given. -/
@[simp]
theorem target?_withTarget
    (record : Record)
    (target : Option Record) :
    (record.withTarget target).target? = target := by
  cases target <;> rfl

end Record

end StatusEffect
