import StatusEffect.Json.Decode
import StatusEffect.Record.Basic

/-
  The structured form of a record.

  A record is an object with a member for each attribute
  that is set, in a fixed order; words of a vocabulary are
  given by their codes. Durations and triggers are flat
  objects, which only some combinations of members make
  sense of. The chain target of a record is nested in it, and
  decoding a record also limits how deeply.

  Key definitions include:
    * `Record.toJson`
    * `Record.decoder`
    * `Record.ofStructured`
-/

------------------------------------------------------------
-- Encoding
------------------------------------------------------------

namespace StatusEffect

namespace Json

/- A word of a vocabulary, by its code. -/
def code
    {α : Type}
    [Vocabulary α]
    (value : α) : Json :=
  .str (Vocabulary.code value)

/- A member that is left out if there is no value. -/
def optionalMember
    {α : Type}
    (name : String)
    (write : α → Json)
    (value : Option α) : List (String × Json) :=
  (value.map fun found => (name, write found)).toList

/- A member that is left out if the list is empty. -/
def listMember
    {α : Type}
    (name : String)
    (write : α → Json)
    (values : List α) : List (String × Json) :=
  if values.isEmpty then
    []
  else
    [(name, .arr (values.map write))]

end Json

open Json

namespace Magnitude

/- The structured form of a magnitude. -/
def toJson (magnitude : Magnitude) : Json :=
  .obj
    [("value", .word magnitude.value),
     ("is_percentage", .bool magnitude.isPercentage),
     ("is_full", .bool magnitude.isFull)]

end Magnitude

namespace Duration

/- The count, the first and the last turn of a duration. -/
def counts :
    Duration →
      Option UInt32 × Option UInt32 × Option UInt32
  | .turns count => (some count, none, none)
  | .turnRange first last => (none, some first, some last)
  | _ => (none, none, none)

/- The structured form of a duration. -/
def toJson (duration : Duration) : Json :=
  let (count, first, last) := duration.counts
  .obj
    (optionalMember "value" .word count ++
      optionalMember "range_start" .word first ++
      optionalMember "range_end" .word last ++
      [("type", .code duration.span)])

end Duration

namespace ConditionValue

/- The structured form of a condition value. -/
def toJson : ConditionValue → Json
  | .truth value => .bool value
  | .number value => .word value
  | .text value => .str value

end ConditionValue

namespace Condition

/- The structured form of a condition. -/
def toJson (condition : Condition) : Json :=
  .obj
    [("attribute", .str condition.name),
     ("operator", .str condition.operator),
     ("value", condition.value.toJson),
     ("is_percentage", .bool condition.isPercentage)]

end Condition

namespace Trigger

/- The structured form of a trigger. -/
def toJson : Trigger → Json
  | .event kind => .obj [("type", .code kind)]
  | .chance percent => .obj [("chance", .word percent)]
  | .condition test => .obj [("condition", test.toJson)]

end Trigger

namespace Stacking

/- The structured form of a stacking. -/
def toJson (stacking : Stacking) : Json :=
  .obj
    (("type", .code stacking.rule) ::
      optionalMember "value" .word stacking.count)

end Stacking

namespace ResourceLink

/- The structured form of a resource link. -/
def toJson (link : ResourceLink) : Json :=
  .obj
    (("type", .code link.resource) ::
      optionalMember "amount" .word link.amount)

end ResourceLink

namespace Effect

/-
  The members of an effect, in order, given the structured
  form of its chain target.
-/
def members
    (effect : Effect)
    (target : Option Json) : List (String × Json) :=
  [("target", .code effect.target),
   ("effect_type", .code effect.change),
   ("stat_affected", .str effect.subject.render)] ++
    optionalMember "magnitude" Magnitude.toJson
      effect.magnitude ++
    optionalMember "duration" Duration.toJson
      effect.duration ++
    optionalMember "trigger" Trigger.toJson effect.trigger ++
    listMember "element" .code effect.elements ++
    listMember "special_flags" .code effect.flags ++
    optionalMember "removability" .code
      effect.removability ++
    optionalMember "chain_effect" .code effect.chainEffect ++
    optionalMember "chain_target" id target ++
    optionalMember "source_dependency" .code effect.source ++
    optionalMember "stacking_behavior" Stacking.toJson
      effect.stacking ++
    optionalMember "visibility" .code effect.visibility ++
    optionalMember "resource_connection" ResourceLink.toJson
      effect.resource ++
    listMember "conditions" Condition.toJson
      effect.conditions ++
    optionalMember "interaction_tag" .code
      effect.interaction ++
    optionalMember "meta_effect" .code effect.metaEffect

end Effect

namespace Record

/- The structured form of a chain, if there is one. -/
def chainJson : List Effect → Option Json
  | [] => none
  | effect :: chain =>
      some (.obj (effect.members (chainJson chain)))

/- The structured form of a record. -/
def toJson (record : Record) : Json :=
  .obj (record.effect.members (chainJson record.chain))

end Record

------------------------------------------------------------
-- Decoding Clauses
------------------------------------------------------------

namespace Magnitude

/- The members of the structured form of a magnitude. -/
def layout : Layout :=
  ⟨"Magnitude", ["value", "is_percentage", "is_full"], true⟩

/- Decode a magnitude. -/
def decoder : Decoder Magnitude :=
  layout.decode fun members =>
    Magnitude.mk
      <$> members.get layout (.required "value" .word)
      <*> members.get layout
        (.required "is_percentage" .truth)
      <*> members.get layout (.required "is_full" .truth)

end Magnitude

namespace Duration

/- The counts and unit of a duration, not yet combined. -/
structure Parts where
  count : Option UInt32
  first : Option UInt32
  last : Option UInt32
  span : Span

/- The members of the structured form of a duration. -/
def layout : Layout :=
  ⟨"DurationRepr",
    ["value", "range_start", "range_end", "type"], true⟩

/-
  The duration of a unit and its counts. Turns need either a
  count or both ends of a range; no other unit takes any.
-/
def ofParts (parts : Parts) : Except DecodeError Duration :=
  match parts.span, parts.count, parts.first, parts.last with
  | .turns, some count, none, none => .ok (.turns count)
  | .turns, none, some first, some last =>
      if first ≤ last then
        .ok (.turnRange first last)
      else
        .error (.rangeReversed first last)
  | .turns, _, _, _ => .error .turnsUnclear
  | .combat, none, none, none => .ok .combat
  | .permanent, none, none, none => .ok .permanent
  | .action, none, none, none => .ok .action
  | span, _, _, _ => .error (.countNotTaken span)

/- Decode a duration. -/
def decoder : Decoder Duration :=
  fun value => do
    let parts ←
      layout.decode (fun members =>
        Parts.mk
          <$> members.get layout (.optional "value" .word)
          <*> members.get layout
            (.optional "range_start" .word)
          <*> members.get layout (.optional "range_end" .word)
          <*> members.get layout (.required "type" .code))
        value
    ofParts parts

end Duration

namespace ConditionValue

/- A condition value: a truth value, a word or a text. -/
def decoder : Decoder ConditionValue
  | .bool value => .ok (.truth value)
  | .str value => .ok (.text value)
  | .int value =>
      match Decoder.word (.int value) with
      | .ok word => .ok (.number word)
      | .error _ => .error .notAConditionValue
  | _ => .error .notAConditionValue

end ConditionValue

namespace Condition

/- The members of the structured form of a condition. -/
def layout : Layout :=
  ⟨"Condition",
    ["attribute", "operator", "value", "is_percentage"],
    true⟩

/- Decode a condition. -/
def decoder : Decoder Condition :=
  layout.decode fun members =>
    Condition.mk
      <$> members.get layout (.required "attribute" .text)
      <*> members.get layout (.required "operator" .text)
      <*> members.get layout
        (.required "value" ConditionValue.decoder)
      <*> members.get layout
        (.required "is_percentage" .truth)

end Condition

namespace Trigger

/- The forms of a trigger, before one of them is chosen. -/
structure Parts where
  event : Option Event
  chance : Option UInt32
  condition : Option Condition

/- The members of the structured form of a trigger. -/
def layout : Layout :=
  ⟨"TriggerRepr", ["type", "chance", "condition"], true⟩

/- The trigger of the one form that is given. -/
def ofParts (parts : Parts) : Except DecodeError Trigger :=
  match parts.event, parts.chance, parts.condition with
  | some kind, none, none => .ok (.event kind)
  | none, some percent, none =>
      if percent ≤ 100 then
        .ok (.chance percent)
      else
        .error (.chanceTooHigh percent)
  | none, none, some test => .ok (.condition test)
  | _, _, _ => .error .triggerUnclear

/- Decode a trigger. -/
def decoder : Decoder Trigger :=
  fun value => do
    let parts ←
      layout.decode (fun members =>
        Parts.mk
          <$> members.get layout (.optional "type" .code)
          <*> members.get layout (.optional "chance" .word)
          <*> members.get layout
            (.optional "condition" Condition.decoder))
        value
    ofParts parts

end Trigger

namespace Subject

/- A subject is any text. -/
def decoder : Decoder Subject :=
  fun value => Subject.ofText <$> Decoder.text value

end Subject

namespace Stacking

/- The members of the structured form of a stacking. -/
def layout : Layout :=
  ⟨"Stacking", ["type", "value"], true⟩

/- Decode a stacking. -/
def decoder : Decoder Stacking :=
  layout.decode fun members =>
    Stacking.mk
      <$> members.get layout (.required "type" .code)
      <*> members.get layout (.optional "value" .word)

end Stacking

namespace ResourceLink

/- The members of the structured form of a resource link. -/
def layout : Layout :=
  ⟨"ResourceLink", ["type", "amount"], true⟩

/- Decode a resource link. -/
def decoder : Decoder ResourceLink :=
  layout.decode fun members =>
    ResourceLink.mk
      <$> members.get layout (.required "type" .code)
      <*> members.get layout (.optional "amount" .word)

end ResourceLink

------------------------------------------------------------
-- Decoding Records
------------------------------------------------------------

namespace Record

/- The members of the structured form of a record. -/
def layout : Layout :=
  ⟨"EffectRecord",
    ["target", "effect_type", "stat_affected", "magnitude",
     "duration", "trigger", "element", "special_flags",
     "removability", "chain_effect", "chain_target",
     "source_dependency", "stacking_behavior", "visibility",
     "resource_connection", "conditions", "interaction_tag",
     "meta_effect"],
    true⟩

/- A record from its members, given how its target is decoded. -/
def ofMembers
    (nested : Decoder Record)
    (members : Members) : Decoded Record :=
  (fun target change subject magnitude duration trigger
      elements flags removability chainEffect chainTarget
      source stacking visibility resource conditions
      interaction metaEffect =>
    ⟨{ target, change, subject, magnitude, duration, trigger,
       elements, flags, removability, chainEffect, source,
       stacking, visibility, resource, conditions,
       interaction, metaEffect },
      chainOf chainTarget⟩)
    <$> members.get layout (.required "target" .code)
    <*> members.get layout (.required "effect_type" .code)
    <*> members.get layout
      (.required "stat_affected" Subject.decoder)
    <*> members.get layout
      (.optional "magnitude" Magnitude.decoder)
    <*> members.get layout
      (.optional "duration" Duration.decoder)
    <*> members.get layout
      (.optional "trigger" Trigger.decoder)
    <*> members.get layout (.list "element" .code)
    <*> members.get layout (.list "special_flags" .code)
    <*> members.get layout (.optional "removability" .code)
    <*> members.get layout (.optional "chain_effect" .code)
    <*> members.get layout (.optional "chain_target" nested)
    <*> members.get layout
      (.optional "source_dependency" .code)
    <*> members.get layout
      (.optional "stacking_behavior" Stacking.decoder)
    <*> members.get layout (.optional "visibility" .code)
    <*> members.get layout
      (.optional "resource_connection" ResourceLink.decoder)
    <*> members.get layout
      (.list "conditions" Condition.decoder)
    <*> members.get layout
      (.optional "interaction_tag" .code)
    <*> members.get layout (.optional "meta_effect" .code)

/-
  A record and its chain, as deep as a number of levels. A
  value cannot be nested more deeply than it is high.
-/
def decodeWithin : Nat → Decoder Record
  | 0 => fun found =>
      .error (.wrongType found (.fields layout.name))
  | levels + 1 =>
      layout.decode (ofMembers (decodeWithin levels))

/- A record and its chain, however deep. -/
def decoder : Decoder Record :=
  fun value => decodeWithin value.height value

/- A record from its structured form, with a chain in bounds. -/
def ofStructured (value : Json) :
    Except DecodeError Record := do
  let record ← decoder value
  if maxDepth < record.depth then
    .error (.chainTooDeep maxDepth)
  else
    .ok record

end Record

end StatusEffect
