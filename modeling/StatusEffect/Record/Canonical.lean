import StatusEffect.Record.Basic
import StatusEffect.Text.Join

/-
  The canonical notation of a record.

  The core clauses are written one after the other, with a
  space only where two of them would run together: between
  digits, and between a longer word and a letter. Each
  attribute of the extended part is a section of its own
  behind a point. A chain target is written in parentheses
  after its chain effect, and nowhere else.

  Key definitions include:
    * `Canonical.needsGap`
    * `Canonical.join`
    * `Effect.coreParts`
    * `Effect.sections`
    * `Effect.canonical`
    * `Record.canonical`
-/

------------------------------------------------------------
-- Joining Parts
------------------------------------------------------------

namespace StatusEffect

open Text

namespace Canonical

/- Two adjacent parts would be read as one. -/
def needsGap
    (before after : String) : Bool :=
  match after.toList with
  | [] => false
  | next :: _ =>
      let last := before.toList.getLast?.getD ' '
      (isAsciiDigit last && isAsciiDigit next) ||
        (1 < before.utf8ByteSize && isLetter last &&
          isLetter next)

/- Parts that follow another part, each after a gap if needed. -/
def joinAfter
    (before : String) : List String → String
  | [] => ""
  | part :: parts =>
      (if needsGap before part then " " else "") ++ part ++
        joinAfter part parts

/- The parts of a notation in one text. -/
def join : List String → String
  | [] => ""
  | part :: parts => part ++ joinAfter part parts

/- A number behind a code, or the code alone. -/
def counted
    (code : String)
    (count : Option UInt32) : String :=
  match count with
  | some n => code ++ wordDecimal n
  | none => code

end Canonical

------------------------------------------------------------
-- Core Clauses
------------------------------------------------------------

namespace Magnitude

/- A magnitude in canonical notation. -/
def canonical (magnitude : Magnitude) : String :=
  if magnitude.isFull then
    "F"
  else if magnitude.isPercentage then
    wordDecimal magnitude.value ++ "%"
  else
    wordDecimal magnitude.value

end Magnitude

namespace Duration

/- A duration in canonical notation. -/
def canonical : Duration → String
  | .turns count => wordDecimal count ++ "T"
  | .turnRange first last =>
      wordDecimal first ++ "-" ++ wordDecimal last ++ "T"
  | .combat => Vocabulary.code Span.combat
  | .permanent => Vocabulary.code Span.permanent
  | .action => Vocabulary.code Span.action

end Duration

namespace Trigger

/- A trigger in canonical notation. -/
def canonical : Trigger → String
  | .event kind => Vocabulary.code kind
  | .chance percent => "?" ++ wordDecimal percent ++ "%"
  | .condition test => "?" ++ test.render

end Trigger

namespace Effect

open Canonical

/- The core clauses of an effect, in order. -/
def coreParts (effect : Effect) : List String :=
  [Vocabulary.code effect.target,
   Vocabulary.code effect.change,
   effect.subject.render] ++
    (effect.magnitude.map Magnitude.canonical).toList ++
    (effect.duration.map Duration.canonical).toList ++
    (effect.trigger.map Trigger.canonical).toList ++
    if effect.elements.isEmpty then
      []
    else
      [separated "," (effect.elements.map Vocabulary.code)]

------------------------------------------------------------
-- Extended Sections
------------------------------------------------------------

/- A chain effect, with its target in parentheses. -/
def chainSection
    (chainEffect : ChainEffect)
    (target : Option String) : String :=
  match target with
  | some inner =>
      Vocabulary.code chainEffect ++ "(" ++ inner ++ ")"
  | none => Vocabulary.code chainEffect

/-
  The extended sections of an effect, in order, given the
  notation of its chain target.
-/
def sections
    (effect : Effect)
    (target : Option String) : List String :=
  effect.flags.map Vocabulary.code ++
    (effect.removability.map Vocabulary.code).toList ++
    (effect.chainEffect.map fun chainEffect =>
      chainSection chainEffect target).toList ++
    (effect.source.map Vocabulary.code).toList ++
    (effect.stacking.map fun stacking =>
      counted (Vocabulary.code stacking.rule)
        stacking.count).toList ++
    (effect.visibility.map Vocabulary.code).toList ++
    (effect.resource.map fun link =>
      counted (Vocabulary.code link.resource)
        link.amount).toList ++
    (if effect.conditions.isEmpty then
      []
    else
      ["\x7b" ++
        separated ","
          (effect.conditions.map Condition.render) ++
        "\x7d"]) ++
    (effect.interaction.map Vocabulary.code).toList ++
    (effect.metaEffect.map Vocabulary.code).toList

/-
  The canonical notation of an effect, given the notation
  of its chain target.
-/
def canonical
    (effect : Effect)
    (target : Option String) : String :=
  join effect.coreParts ++
    concat ((effect.sections target).map ("." ++ ·))

end Effect

------------------------------------------------------------
-- Records
------------------------------------------------------------

namespace Record

/- The canonical notation of a chain, if there is one. -/
def chainCanonical : List Effect → Option String
  | [] => none
  | effect :: chain =>
      some (effect.canonical (chainCanonical chain))

/- The canonical notation of a record. -/
def canonical (record : Record) : String :=
  record.effect.canonical (chainCanonical record.chain)

end Record

end StatusEffect
