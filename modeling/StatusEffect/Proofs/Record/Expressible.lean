import StatusEffect.Record.Basic
import StatusEffect.Proofs.Token.Language

/-
  The records that a notation can express.

  Not every record has a notation: names have to be words of
  the notation, numbers have to respect the limits that are
  checked on reading, and a chain target needs the effect it
  follows from. All of this is asked of a record and of
  every chain target nested in it.

  Key definitions include:
    * `Record.parts`
    * `Condition.Expressible`
    * `Effect.Expressible`
    * `Effect.RunsTogether`
    * `Record.ExpressibleWithin`
    * `Record.Expressible`

  Key theorems include:
    * `Record.expressibleWithin_cons`
-/

------------------------------------------------------------
-- Clauses
------------------------------------------------------------

namespace StatusEffect

open Text

namespace Subject

/- A named condition has the form of a special condition. -/
def Expressible : Subject → Prop
  | .stat _ => True
  | .condition name =>
      isHashWord name = true ∨ isCapitalWord name = true

instance : DecidablePred Expressible
  | .stat _ => inferInstanceAs (Decidable True)
  | .condition name =>
      inferInstanceAs
        (Decidable
          (isHashWord name = true ∨
            isCapitalWord name = true))

end Subject

namespace Magnitude

/- A magnitude is one of the three that are written. -/
def Expressible (magnitude : Magnitude) : Prop :=
  magnitude = .flat magnitude.value ∨
    magnitude = .percent magnitude.value ∨
      magnitude = .full

instance : DecidablePred Expressible :=
  fun magnitude =>
    inferInstanceAs
      (Decidable
        (magnitude = .flat magnitude.value ∨
          magnitude = .percent magnitude.value ∨
            magnitude = .full))

end Magnitude

namespace Duration

/- A range of turns does not end before it starts. -/
def Ordered : Duration → Prop
  | .turnRange first last => first ≤ last
  | _ => True

instance : DecidablePred Ordered
  | .turnRange first last =>
      inferInstanceAs (Decidable (first ≤ last))
  | .turns _ => inferInstanceAs (Decidable True)
  | .combat => inferInstanceAs (Decidable True)
  | .permanent => inferInstanceAs (Decidable True)
  | .action => inferInstanceAs (Decidable True)

end Duration

namespace ConditionValue

/-
  A value that a condition can be written with: a number, or
  something other than a percentage that is a truth value or
  a name of its own.
-/
def Expressible
    (isPercentage : Bool) : ConditionValue → Prop
  | .number _ => True
  | .truth _ => isPercentage = false
  | .text word =>
      isPercentage = false ∧ isName word = true ∧
        word ≠ "true" ∧ word ≠ "false"

instance
    (isPercentage : Bool) :
    DecidablePred (Expressible isPercentage)
  | .number _ => inferInstanceAs (Decidable True)
  | .truth _ =>
      inferInstanceAs (Decidable (isPercentage = false))
  | .text word =>
      inferInstanceAs
        (Decidable
          (isPercentage = false ∧ isName word = true ∧
            word ≠ "true" ∧ word ≠ "false"))

end ConditionValue

namespace Condition

/- A condition has a name, an operator and a value as written. -/
def Expressible (condition : Condition) : Prop :=
  isName condition.name = true ∧
    condition.operator ∈ operators ∧
      condition.value.Expressible condition.isPercentage

instance : DecidablePred Expressible :=
  fun condition =>
    inferInstanceAs
      (Decidable
        (isName condition.name = true ∧
          condition.operator ∈ operators ∧
            condition.value.Expressible
              condition.isPercentage))

/- The name that a condition ends with, if it does. -/
def closingName? (condition : Condition) : Option String :=
  if condition.isFlag then
    some condition.name
  else
    match condition.value with
    | .text word =>
        if condition.isPercentage then none else some word
    | _ => none

/-
  A condition ends with a name whose last character is a low
  line or a digit. A letter behind it continues the name.
-/
def runsOn (condition : Condition) : Bool :=
  (condition.closingName?.bind fun name =>
    name.toList.getLast?).any fun last =>
      last == '_' || isAsciiDigit last

end Condition

namespace Trigger

/- A chance is at most one hundred percent. -/
def Bounded : Trigger → Prop
  | .chance percent => percent ≤ 100
  | _ => True

instance : DecidablePred Bounded
  | .chance percent =>
      inferInstanceAs (Decidable (percent ≤ 100))
  | .event _ => inferInstanceAs (Decidable True)
  | .condition _ => inferInstanceAs (Decidable True)

/- The condition of a trigger, if it is one. -/
def condition? : Trigger → Option Condition
  | .condition test => some test
  | _ => none

end Trigger

namespace Stacking

/- A count is given exactly for a limit on the stacks. -/
def Counted (stacking : Stacking) : Prop :=
  stacking.count.isSome = true ↔ stacking.rule = .maxStacks

instance : DecidablePred Counted :=
  fun stacking =>
    inferInstanceAs
      (Decidable
        (stacking.count.isSome = true ↔
          stacking.rule = .maxStacks))

end Stacking

------------------------------------------------------------
-- Effects
------------------------------------------------------------

namespace Effect

/-
  Fire directly behind the subject, where its letter is read
  as the full value.
-/
def StartsWithFire (effect : Effect) : Prop :=
  effect.magnitude = none ∧ effect.duration = none ∧
    effect.trigger = none ∧
      effect.elements.head? = some .fire

instance : DecidablePred StartsWithFire :=
  fun effect =>
    inferInstanceAs
      (Decidable
        (effect.magnitude = none ∧ effect.duration = none ∧
          effect.trigger = none ∧
            effect.elements.head? = some .fire))

/-
  The condition of the trigger and the first element are
  written without a gap and read as one name.
-/
def RunsTogether (effect : Effect) : Prop :=
  effect.elements ≠ [] ∧
    ∃ test ∈ effect.trigger.bind Trigger.condition?,
      test.runsOn = true

instance : DecidablePred RunsTogether :=
  fun effect =>
    inferInstanceAs
      (Decidable
        (effect.elements ≠ [] ∧
          ∃ test ∈ effect.trigger.bind Trigger.condition?,
            test.runsOn = true))

/- The conditions of an effect, that of its trigger first. -/
def allConditions (effect : Effect) : List Condition :=
  (effect.trigger.bind Trigger.condition?).toList ++
    effect.conditions

/- The clauses of an effect can all be written. -/
structure Expressible (effect : Effect) : Prop where
  subject : effect.subject.Expressible
  magnitude :
    ∀ magnitude ∈ effect.magnitude, magnitude.Expressible
  duration : ∀ duration ∈ effect.duration, duration.Ordered
  trigger : ∀ trigger ∈ effect.trigger, trigger.Bounded
  conditions :
    ∀ condition ∈ effect.allConditions,
      condition.Expressible
  elements : ¬ effect.StartsWithFire
  stacking : ∀ stacking ∈ effect.stacking, stacking.Counted

instance : DecidablePred Expressible :=
  fun effect =>
    decidable_of_iff
      (effect.subject.Expressible ∧
        (∀ magnitude ∈ effect.magnitude,
          magnitude.Expressible) ∧
        (∀ duration ∈ effect.duration, duration.Ordered) ∧
        (∀ trigger ∈ effect.trigger, trigger.Bounded) ∧
        (∀ condition ∈ effect.allConditions,
          condition.Expressible) ∧
        ¬ effect.StartsWithFire ∧
        ∀ stacking ∈ effect.stacking, stacking.Counted)
      ⟨fun ⟨h₁, h₂, h₃, h₄, h₅, h₆, h₇⟩ =>
          ⟨h₁, h₂, h₃, h₄, h₅, h₆, h₇⟩,
        fun ⟨h₁, h₂, h₃, h₄, h₅, h₆, h₇⟩ =>
          ⟨h₁, h₂, h₃, h₄, h₅, h₆, h₇⟩⟩

end Effect

------------------------------------------------------------
-- Records
------------------------------------------------------------

namespace Record

/- The records of a chain, from an effect on. -/
def partsFrom : Effect → List Effect → List Record
  | effect, [] => [⟨effect, []⟩]
  | effect, next :: chain =>
      ⟨effect, next :: chain⟩ :: partsFrom next chain

/- A record and all chain targets nested in it. -/
def parts (record : Record) : List Record :=
  partsFrom record.effect record.chain

/- A record comes first among its parts. -/
theorem parts_cons
    (effect next : Effect)
    (chain : List Effect) :
    (⟨effect, next :: chain⟩ : Record).parts =
      ⟨effect, next :: chain⟩ ::
        (⟨next, chain⟩ : Record).parts := rfl

@[simp]
theorem parts_nil
    (effect : Effect) :
    (⟨effect, []⟩ : Record).parts = [⟨effect, []⟩] := rfl

/-
  A record can be written within a number of nested levels:
  each of its effects can be written, and each chain target
  follows from a chain effect.
-/
structure ExpressibleWithin
    (levels : Nat)
    (record : Record) : Prop where
  effects : ∀ part ∈ record.parts, part.effect.Expressible
  chained :
    ∀ part ∈ record.parts,
      part.target?.isSome = true →
        part.effect.chainEffect.isSome = true
  depth : record.depth ≤ levels

instance
    (levels : Nat) :
    DecidablePred (ExpressibleWithin levels) :=
  fun record =>
    decidable_of_iff
      ((∀ part ∈ record.parts, part.effect.Expressible) ∧
        (∀ part ∈ record.parts,
          part.target?.isSome = true →
            part.effect.chainEffect.isSome = true) ∧
        record.depth ≤ levels)
      ⟨fun ⟨h₁, h₂, h₃⟩ => ⟨h₁, h₂, h₃⟩,
        fun ⟨h₁, h₂, h₃⟩ => ⟨h₁, h₂, h₃⟩⟩

/- Some notation expresses a record. -/
def Expressible (record : Record) : Prop :=
  record.ExpressibleWithin maxDepth

instance : DecidablePred Expressible :=
  inferInstanceAs (DecidablePred (ExpressibleWithin maxDepth))

/- Without a chain only the effect itself matters. -/
theorem expressibleWithin_nil
    {levels : Nat}
    {effect : Effect} :
    ExpressibleWithin levels ⟨effect, []⟩ ↔
      effect.Expressible := by
  constructor
  · intro hRecord
    exact hRecord.effects ⟨effect, []⟩ (by simp)
  · intro hEffect
    refine ⟨?_, ?_, Nat.zero_le _⟩
    · simpa using hEffect
    · simp [target?]

/- A chain target takes one of the levels. -/
theorem expressibleWithin_cons
    {levels : Nat}
    {effect next : Effect}
    {chain : List Effect} :
    ExpressibleWithin levels ⟨effect, next :: chain⟩ ↔
      effect.Expressible ∧
        effect.chainEffect.isSome = true ∧
          ∃ fewer,
            levels = fewer + 1 ∧
              ExpressibleWithin fewer ⟨next, chain⟩ := by
  constructor
  · intro hRecord
    have hEffects := hRecord.effects
    have hChained := hRecord.chained
    have hDepth := hRecord.depth
    simp only [parts_cons, List.forall_mem_cons] at hEffects
    simp only [parts_cons, List.forall_mem_cons] at hChained
    simp only [depth, List.length_cons] at hDepth
    refine ⟨hEffects.1, hChained.1 rfl, levels - 1, ?_, ?_⟩
    · omega
    · refine ⟨hEffects.2, hChained.2, ?_⟩
      simp only [depth]
      omega
  · intro hParts
    rcases hParts with ⟨hEffect, hChain, fewer, rfl, hNext⟩
    refine ⟨?_, ?_, Nat.succ_le_succ hNext.depth⟩
    · rw [parts_cons, List.forall_mem_cons]
      exact ⟨hEffect, hNext.effects⟩
    · rw [parts_cons, List.forall_mem_cons]
      exact ⟨fun _ => hChain, hNext.chained⟩

end Record

end StatusEffect
