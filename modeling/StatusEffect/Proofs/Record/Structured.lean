import StatusEffect.Proofs.Json.Layout
import StatusEffect.Proofs.Notation.RoundTrip

/-
  Records and their structured forms.

  The structured form of a record is decoded into the record
  again, with three exceptions: a named condition with the
  code of a stat is taken for the stat, and a reversed range
  or an excessive chance is refused. A record with a chain
  that is too long is decoded and then refused.

  Key definitions include:
    * `Subject.Distinct`
    * `Effect.Restorable`
    * `Effect.slots`
    * `Record.ReadsFields`

  Key theorems include:
    * `Duration.decoder_toJson_iff`
    * `Trigger.decoder_toJson_iff`
    * `Subject.decoder_render_iff`
    * `Record.ofMembers_eq_good_iff`
    * `Record.decodeWithin_toJson_iff`
    * `Record.ofStructured_toJson_iff`
    * `Record.restored_iff_and_of_parse`
-/

------------------------------------------------------------
-- Values That Are Always Restored
------------------------------------------------------------

namespace StatusEffect

open Json Layout

namespace Magnitude

/- The slots of the structured form of a magnitude. -/
def slots
    (magnitude : Magnitude) : List (String × Option Json) :=
  [("value", some (.word magnitude.value)),
   ("is_percentage", some (.bool magnitude.isPercentage)),
   ("is_full", some (.bool magnitude.isFull))]

/- A magnitude is restored from its structured form. -/
theorem decoder_toJson
    (magnitude : Magnitude) :
    decoder magnitude.toJson = .ok magnitude := by
  have hSlots : layout.Covers magnitude.slots :=
    ⟨rfl, by decide⟩
  apply (decode_written_iff hSlots).mpr
  rw [Decoded.eq_good_iff_gives]
  simp only [Decoded.gives_seq, Decoded.gives_map]
  exact
    ⟨magnitude.value,
      (get_required_iff hSlots (by simp [slots])).mpr
        (Decoder.word_word magnitude.value),
      magnitude.isPercentage,
      (get_required_iff hSlots (by simp [slots])).mpr
        (Decoder.truth_bool magnitude.isPercentage),
      magnitude.isFull,
      (get_required_iff hSlots (by simp [slots])).mpr
        (Decoder.truth_bool magnitude.isFull), rfl⟩

end Magnitude

namespace ConditionValue

/- A condition value is restored from its structured form. -/
theorem decoder_toJson
    (value : ConditionValue) :
    decoder value.toJson = .ok value := by
  cases value with
  | truth value => rfl
  | number value =>
      have hWord := Decoder.word_word value
      rw [Json.word] at hWord
      rw [toJson, Json.word, decoder, hWord]
  | text value => rfl

end ConditionValue

namespace Condition

/- The slots of the structured form of a condition. -/
def slots
    (condition : Condition) : List (String × Option Json) :=
  [("attribute", some (.str condition.name)),
   ("operator", some (.str condition.operator)),
   ("value", some condition.value.toJson),
   ("is_percentage", some (.bool condition.isPercentage))]

/- A condition is restored from its structured form. -/
theorem decoder_toJson
    (condition : Condition) :
    decoder condition.toJson = .ok condition := by
  have hSlots : layout.Covers condition.slots :=
    ⟨rfl, by decide⟩
  apply (decode_written_iff hSlots).mpr
  rw [Decoded.eq_good_iff_gives]
  simp only [Decoded.gives_seq, Decoded.gives_map]
  exact
    ⟨condition.name,
      (get_required_iff hSlots (by simp [slots])).mpr
        (Decoder.text_str condition.name),
      condition.operator,
      (get_required_iff hSlots (by simp [slots])).mpr
        (Decoder.text_str condition.operator),
      condition.value,
      (get_required_iff hSlots (by simp [slots])).mpr
        condition.value.decoder_toJson,
      condition.isPercentage,
      (get_required_iff hSlots (by simp [slots])).mpr
        (Decoder.truth_bool condition.isPercentage), rfl⟩

end Condition

namespace Stacking

/- The slots of the structured form of a stacking. -/
def slots
    (stacking : Stacking) : List (String × Option Json) :=
  [("type", some (.code stacking.rule)),
   ("value", stacking.count.map .word)]

/- A stacking is written from its slots. -/
theorem toJson_eq
    (stacking : Stacking) :
    stacking.toJson = .obj (written stacking.slots) := by
  simp [toJson, slots, written_cons, written,
    optionalMember_some, optionalMember_map]

/- A stacking is restored from its structured form. -/
theorem decoder_toJson
    (stacking : Stacking) :
    decoder stacking.toJson = .ok stacking := by
  have hSlots : layout.Covers stacking.slots :=
    ⟨rfl, by decide⟩
  rw [toJson_eq]
  apply (decode_written_iff hSlots).mpr
  rw [Decoded.eq_good_iff_gives]
  simp only [Decoded.gives_seq, Decoded.gives_map]
  exact
    ⟨stacking.rule,
      (get_required_iff hSlots (by simp [slots])).mpr
        (Decoder.code_code stacking.rule),
      stacking.count,
      get_optional_word hSlots (by simp [slots]), rfl⟩

end Stacking

namespace ResourceLink

/- The slots of the structured form of a resource link. -/
def slots
    (link : ResourceLink) : List (String × Option Json) :=
  [("type", some (.code link.resource)),
   ("amount", link.amount.map .word)]

/- A resource link is written from its slots. -/
theorem toJson_eq
    (link : ResourceLink) :
    link.toJson = .obj (written link.slots) := by
  simp [toJson, slots, written_cons, written,
    optionalMember_some, optionalMember_map]

/- A resource link is restored from its structured form. -/
theorem decoder_toJson
    (link : ResourceLink) :
    decoder link.toJson = .ok link := by
  have hSlots : layout.Covers link.slots :=
    ⟨rfl, by decide⟩
  rw [toJson_eq]
  apply (decode_written_iff hSlots).mpr
  rw [Decoded.eq_good_iff_gives]
  simp only [Decoded.gives_seq, Decoded.gives_map]
  exact
    ⟨link.resource,
      (get_required_iff hSlots (by simp [slots])).mpr
        (Decoder.code_code link.resource),
      link.amount,
      get_optional_word hSlots (by simp [slots]), rfl⟩

end ResourceLink

------------------------------------------------------------
-- Values That Are Restored Within Limits
------------------------------------------------------------

namespace Duration

/- The counts and the unit of a duration. -/
def toParts (duration : Duration) : Parts :=
  ⟨duration.counts.1, duration.counts.2.1,
    duration.counts.2.2, duration.span⟩

/- The slots of the structured form of a duration. -/
def slots
    (duration : Duration) : List (String × Option Json) :=
  [("value", duration.toParts.count.map .word),
   ("range_start", duration.toParts.first.map .word),
   ("range_end", duration.toParts.last.map .word),
   ("type", some (.code duration.span))]

/- A duration is written from its slots. -/
theorem toJson_eq
    (duration : Duration) :
    duration.toJson = .obj (written duration.slots) := by
  cases duration <;> rfl

/- The parts of a duration make it up if it is ordered. -/
theorem ofParts_toParts_iff
    {duration : Duration} :
    ofParts duration.toParts = .ok duration ↔
      duration.Ordered := by
  cases duration with
  | turnRange first last =>
      have hParts :
          ofParts (Duration.turnRange first last).toParts =
            if first ≤ last then
              .ok (.turnRange first last)
            else
              .error (.rangeReversed first last) := rfl
      rw [hParts, Ordered]
      split <;> simp_all
  | turns count => exact iff_of_true rfl trivial
  | combat => exact iff_of_true rfl trivial
  | permanent => exact iff_of_true rfl trivial
  | action => exact iff_of_true rfl trivial

/- A duration is restored exactly if it is ordered. -/
theorem decoder_toJson_iff
    {duration : Duration} :
    decoder duration.toJson = .ok duration ↔
      duration.Ordered := by
  have hSlots : layout.Covers duration.slots :=
    ⟨rfl, by decide⟩
  rw [← ofParts_toParts_iff, decoder, toJson_eq,
    (decode_written_iff hSlots).mpr ?_]
  · rfl
  · rw [Decoded.eq_good_iff_gives]
    simp only [Decoded.gives_seq, Decoded.gives_map]
    exact
      ⟨duration.toParts.count,
        get_optional_word hSlots (by simp [slots]),
        duration.toParts.first,
        get_optional_word hSlots (by simp [slots]),
        duration.toParts.last,
        get_optional_word hSlots (by simp [slots]),
        duration.span,
        (get_required_iff hSlots (by simp [slots])).mpr
          (Decoder.code_code duration.span), rfl⟩

end Duration

namespace Trigger

/- The one form that a trigger has. -/
def toParts : Trigger → Parts
  | .event kind => ⟨some kind, none, none⟩
  | .chance percent => ⟨none, some percent, none⟩
  | .condition test => ⟨none, none, some test⟩

/- The slots of the structured form of a trigger. -/
def slots
    (trigger : Trigger) : List (String × Option Json) :=
  [("type", trigger.toParts.event.map .code),
   ("chance", trigger.toParts.chance.map .word),
   ("condition",
     trigger.toParts.condition.map Condition.toJson)]

/- A trigger is written from its slots. -/
theorem toJson_eq
    (trigger : Trigger) :
    trigger.toJson = .obj (written trigger.slots) := by
  cases trigger <;> rfl

/- The form of a trigger makes it up if it is bounded. -/
theorem ofParts_toParts_iff
    {trigger : Trigger} :
    ofParts trigger.toParts = .ok trigger ↔
      trigger.Bounded := by
  cases trigger with
  | event kind => simp [toParts, ofParts, Bounded]
  | chance percent =>
      simp only [toParts, ofParts, Bounded]
      split <;> simp_all
  | condition test => simp [toParts, ofParts, Bounded]

/- A trigger is restored exactly if it is bounded. -/
theorem decoder_toJson_iff
    {trigger : Trigger} :
    decoder trigger.toJson = .ok trigger ↔
      trigger.Bounded := by
  have hSlots : layout.Covers trigger.slots :=
    ⟨rfl, by decide⟩
  rw [← ofParts_toParts_iff, decoder, toJson_eq,
    (decode_written_iff hSlots).mpr ?_]
  · rfl
  · rw [Decoded.eq_good_iff_gives]
    simp only [Decoded.gives_seq, Decoded.gives_map]
    exact
      ⟨trigger.toParts.event,
        get_optional_code hSlots (by simp [slots]),
        trigger.toParts.chance,
        get_optional_word hSlots (by simp [slots]),
        trigger.toParts.condition,
        (get_optional_iff Condition.toJson
          trigger.toParts.condition hSlots (fun _ => nofun)
          (by simp [slots])).mpr
          fun test _ => test.decoder_toJson, rfl⟩

end Trigger

namespace Subject

/- A named condition does not have the code of a stat. -/
def Distinct : Subject → Prop
  | .stat _ => True
  | .condition name => name ∉ Vocabulary.codes Stat

/- A subject is restored exactly if it is distinct. -/
theorem decoder_render_iff
    {subject : Subject} :
    decoder (.str subject.render) = .ok subject ↔
      subject.Distinct := by
  show Except.ok (ofText subject.render) = .ok subject ↔ _
  rw [Except.ok.injEq]
  cases subject with
  | stat kind => simp [render, ofText, Distinct]
  | condition name =>
      simp only [render, ofText, Distinct]
      rw [← Vocabulary.ofCode?_eq_none_iff]
      split
      · simp_all
      · simp_all

end Subject

------------------------------------------------------------
-- Fields Of A Record
------------------------------------------------------------

namespace Effect

/-
  The slots of the structured form of an effect, given that
  of its chain target.
-/
def slots
    (effect : Effect)
    (target : Option Json) : List (String × Option Json) :=
  [("target", some (.code effect.target)),
   ("effect_type", some (.code effect.change)),
   ("stat_affected", some (.str effect.subject.render)),
   ("magnitude", effect.magnitude.map Magnitude.toJson),
   ("duration", effect.duration.map Duration.toJson),
   ("trigger", effect.trigger.map Trigger.toJson),
   ("element", listSlot .code effect.elements),
   ("special_flags", listSlot .code effect.flags),
   ("removability", effect.removability.map .code),
   ("chain_effect", effect.chainEffect.map .code),
   ("chain_target", target),
   ("source_dependency", effect.source.map .code),
   ("stacking_behavior",
     effect.stacking.map Stacking.toJson),
   ("visibility", effect.visibility.map .code),
   ("resource_connection",
     effect.resource.map ResourceLink.toJson),
   ("conditions",
     listSlot Condition.toJson effect.conditions),
   ("interaction_tag", effect.interaction.map .code),
   ("meta_effect", effect.metaEffect.map .code)]

/- The members of an effect are written from its slots. -/
theorem members_eq
    (effect : Effect)
    (target : Option Json) :
    effect.members target =
      written (effect.slots target) := by
  -- unfolding by an equation would first have to prove it
  delta members
  simp only [slots, written_cons, written,
    optionalMember_some, optionalMember_map,
    optionalMember_listSlot, List.append_assoc,
    List.cons_append, List.nil_append, List.append_nil]

/-
  An effect is restored from its structured form if no
  clause of it is taken for another or refused.
-/
structure Restorable (effect : Effect) : Prop where
  subject : effect.subject.Distinct
  duration : ∀ duration ∈ effect.duration, duration.Ordered
  trigger : ∀ trigger ∈ effect.trigger, trigger.Bounded

end Effect

namespace Record

/- Each field of a record is read from some members. -/
structure ReadsFields
    (nested : Decoder Record)
    (members : Members)
    (record : Record) : Prop where
  target :
    members.get layout (.required "target" .code) =
      .good record.effect.target
  change :
    members.get layout (.required "effect_type" .code) =
      .good record.effect.change
  subject :
    members.get layout
        (.required "stat_affected" Subject.decoder) =
      .good record.effect.subject
  magnitude :
    members.get layout
        (.optional "magnitude" Magnitude.decoder) =
      .good record.effect.magnitude
  duration :
    members.get layout
        (.optional "duration" Duration.decoder) =
      .good record.effect.duration
  trigger :
    members.get layout
        (.optional "trigger" Trigger.decoder) =
      .good record.effect.trigger
  elements :
    members.get layout (.list "element" .code) =
      .good record.effect.elements
  flags :
    members.get layout (.list "special_flags" .code) =
      .good record.effect.flags
  removability :
    members.get layout (.optional "removability" .code) =
      .good record.effect.removability
  chainEffect :
    members.get layout (.optional "chain_effect" .code) =
      .good record.effect.chainEffect
  chainTarget :
    members.get layout (.optional "chain_target" nested) =
      .good record.target?
  source :
    members.get layout
        (.optional "source_dependency" .code) =
      .good record.effect.source
  stacking :
    members.get layout
        (.optional "stacking_behavior" Stacking.decoder) =
      .good record.effect.stacking
  visibility :
    members.get layout (.optional "visibility" .code) =
      .good record.effect.visibility
  resource :
    members.get layout
        (.optional "resource_connection"
          ResourceLink.decoder) =
      .good record.effect.resource
  conditions :
    members.get layout
        (.list "conditions" Condition.decoder) =
      .good record.effect.conditions
  interaction :
    members.get layout (.optional "interaction_tag" .code) =
      .good record.effect.interaction
  metaEffect :
    members.get layout (.optional "meta_effect" .code) =
      .good record.effect.metaEffect

/- The chain of a record is that of its chain target. -/
theorem chainOf_target?
    (record : Record) :
    chainOf record.target? = record.chain := by
  rcases record with ⟨effect, _ | ⟨next, chain⟩⟩ <;> rfl

/- A record is decoded exactly if all its fields are. -/
theorem ofMembers_eq_good_iff
    {nested : Decoder Record}
    {members : Members}
    {record : Record} :
    ofMembers nested members = .good record ↔
      ReadsFields nested members record := by
  rw [Decoded.eq_good_iff_gives, ofMembers]
  simp only [Decoded.gives_seq, Decoded.gives_map]
  constructor
  · intro hGives
    rcases hGives with
      ⟨target, hTarget, change, hChange, subject, hSubject,
        magnitude, hMagnitude, duration, hDuration, trigger,
        hTrigger, elements, hElements, flags, hFlags,
        removability, hRemovability, chainEffect,
        hChainEffect, next, hNext, source, hSource,
        stacking, hStacking, visibility, hVisibility,
        resource, hResource, conditions, hConditions,
        interaction, hInteraction, metaEffect, hMetaEffect,
        rfl⟩
    refine
      ⟨hTarget, hChange, hSubject, hMagnitude, hDuration,
        hTrigger, hElements, hFlags, hRemovability,
        hChainEffect, ?_, hSource, hStacking, hVisibility,
        hResource, hConditions, hInteraction, hMetaEffect⟩
    rw [hNext]
    exact congrArg _ (target?_withTarget ⟨_, []⟩ next).symm
  · intro hFields
    refine
      ⟨_, hFields.target, _, hFields.change, _,
        hFields.subject, _, hFields.magnitude, _,
        hFields.duration, _, hFields.trigger, _,
        hFields.elements, _, hFields.flags, _,
        hFields.removability, _, hFields.chainEffect, _,
        hFields.chainTarget, _, hFields.source, _,
        hFields.stacking, _, hFields.visibility, _,
        hFields.resource, _, hFields.conditions, _,
        hFields.interaction, _, hFields.metaEffect, ?_⟩
    rw [chainOf_target?]

/- The structured form of a chain is that of its target. -/
theorem chainJson_chain
    (record : Record) :
    chainJson record.chain = record.target?.map toJson := by
  rcases record with ⟨effect, _ | ⟨next, chain⟩⟩ <;> rfl

/- The slots of the structured form of a record. -/
def slots
    (record : Record) : List (String × Option Json) :=
  record.effect.slots (record.target?.map toJson)

/- A record is written from its slots. -/
theorem toJson_eq
    (record : Record) :
    record.toJson = .obj (written record.slots) := by
  rw [toJson, chainJson_chain, Effect.members_eq, slots]

/- The slots of a record are those of its fields. -/
theorem covers_slots
    (record : Record) :
    layout.Covers record.slots :=
  ⟨rfl, by decide⟩

/- The subject is read back exactly if it is distinct. -/
theorem get_subject_iff
    {record : Record} :
    Members.get layout
        (.required "stat_affected" Subject.decoder)
        (.named (written record.slots)) =
      .good record.effect.subject ↔
      record.effect.subject.Distinct :=
  (get_required_iff record.covers_slots
    (by simp [slots, Effect.slots])).trans
    Subject.decoder_render_iff

/- The duration is read back exactly if it is ordered. -/
theorem get_duration_iff
    {record : Record} :
    Members.get layout
        (.optional "duration" Duration.decoder)
        (.named (written record.slots)) =
      .good record.effect.duration ↔
      ∀ duration ∈ record.effect.duration,
        duration.Ordered := by
  rw [get_optional_iff Duration.toJson record.effect.duration
    record.covers_slots (fun _ => nofun)
    (by simp [slots, Effect.slots])]
  simp only [Duration.decoder_toJson_iff]

/- The trigger is read back exactly if it is bounded. -/
theorem get_trigger_iff
    {record : Record} :
    Members.get layout
        (.optional "trigger" Trigger.decoder)
        (.named (written record.slots)) =
      .good record.effect.trigger ↔
      ∀ trigger ∈ record.effect.trigger,
        trigger.Bounded := by
  have hNull (trigger : Trigger) :
      trigger.toJson ≠ .null := by
    cases trigger <;> nofun
  rw [get_optional_iff Trigger.toJson record.effect.trigger
    record.covers_slots hNull
    (by simp [slots, Effect.slots])]
  simp only [Trigger.decoder_toJson_iff]

/- The chain target is read back exactly if it is decoded. -/
theorem get_chainTarget_iff
    {nested : Decoder Record}
    {record : Record} :
    Members.get layout (.optional "chain_target" nested)
        (.named (written record.slots)) =
      .good record.target? ↔
      ∀ next ∈ record.target?,
        nested next.toJson = .ok next :=
  get_optional_iff toJson record.target?
    record.covers_slots (fun _ => nofun)
    (by simp [slots, Effect.slots])

/-
  The fields of a record are read back exactly if its effect
  can be restored and its chain target is.
-/
theorem readsFields_written_iff
    {nested : Decoder Record}
    {record : Record} :
    ReadsFields nested (.named (written record.slots))
        record ↔
      record.effect.Restorable ∧
        ∀ next ∈ record.target?,
          nested next.toJson = .ok next := by
  have hSlots := record.covers_slots
  constructor
  · intro hFields
    exact
      ⟨⟨get_subject_iff.mp hFields.subject,
          get_duration_iff.mp hFields.duration,
          get_trigger_iff.mp hFields.trigger⟩,
        get_chainTarget_iff.mp hFields.chainTarget⟩
  · intro hBoth
    rcases hBoth with ⟨hEffect, hNext⟩
    exact {
      target :=
        (get_required_iff hSlots
          (by simp [slots, Effect.slots])).mpr
          (Decoder.code_code record.effect.target)
      change :=
        (get_required_iff hSlots
          (by simp [slots, Effect.slots])).mpr
          (Decoder.code_code record.effect.change)
      subject := get_subject_iff.mpr hEffect.subject
      magnitude :=
        (get_optional_iff Magnitude.toJson
          record.effect.magnitude hSlots (fun _ => nofun)
          (by simp [slots, Effect.slots])).mpr
          fun magnitude _ => magnitude.decoder_toJson
      duration := get_duration_iff.mpr hEffect.duration
      trigger := get_trigger_iff.mpr hEffect.trigger
      elements :=
        get_list_code hSlots
          (by simp [slots, Effect.slots])
      flags :=
        get_list_code hSlots
          (by simp [slots, Effect.slots])
      removability :=
        get_optional_code hSlots
          (by simp [slots, Effect.slots])
      chainEffect :=
        get_optional_code hSlots
          (by simp [slots, Effect.slots])
      chainTarget := get_chainTarget_iff.mpr hNext
      source :=
        get_optional_code hSlots
          (by simp [slots, Effect.slots])
      stacking :=
        (get_optional_iff Stacking.toJson
          record.effect.stacking hSlots (fun _ => nofun)
          (by simp [slots, Effect.slots])).mpr
          fun stacking _ => stacking.decoder_toJson
      visibility :=
        get_optional_code hSlots
          (by simp [slots, Effect.slots])
      resource :=
        (get_optional_iff ResourceLink.toJson
          record.effect.resource hSlots (fun _ => nofun)
          (by simp [slots, Effect.slots])).mpr
          fun link _ => link.decoder_toJson
      conditions :=
        (get_list_iff Condition.toJson
          record.effect.conditions hSlots
          (by simp [slots, Effect.slots])).mpr
          fun test _ => test.decoder_toJson
      interaction :=
        get_optional_code hSlots
          (by simp [slots, Effect.slots])
      metaEffect :=
        get_optional_code hSlots
          (by simp [slots, Effect.slots])
    }

------------------------------------------------------------
-- Chains
------------------------------------------------------------

/- With one more level a record is decoded from its target. -/
theorem decodeWithin_succ_toJson_iff
    {levels : Nat}
    {record : Record} :
    decodeWithin (levels + 1) record.toJson = .ok record ↔
      record.effect.Restorable ∧
        ∀ next ∈ record.target?,
          decodeWithin levels next.toJson = .ok next := by
  rw [decodeWithin, toJson_eq,
    decode_written_iff record.covers_slots,
    ofMembers_eq_good_iff, readsFields_written_iff]

/-
  With more levels than the chain has effects, a record is
  restored exactly if each of its parts can be.
-/
theorem decodeWithin_toJson_iff
    {levels : Nat}
    (effect : Effect)
    {chain : List Effect}
    (hLevels : chain.length < levels) :
    decodeWithin levels (⟨effect, chain⟩ : Record).toJson =
        .ok ⟨effect, chain⟩ ↔
      ∀ part ∈ (⟨effect, chain⟩ : Record).parts,
        part.effect.Restorable := by
  induction chain generalizing levels effect with
  | nil =>
      cases levels with
      | zero => exact absurd hLevels (Nat.not_lt_zero _)
      | succ levels =>
          rw [decodeWithin_succ_toJson_iff]
          simp [target?]
  | cons next chain ih =>
      cases levels with
      | zero => exact absurd hLevels (Nat.not_lt_zero _)
      | succ levels =>
          have hNext :=
            ih next (Nat.lt_of_succ_lt_succ hLevels)
          rw [decodeWithin_succ_toJson_iff, parts_cons,
            List.forall_mem_cons]
          simp only [target?, Option.mem_some, forall_eq',
            hNext]

/- The structured form of a record is higher than its chain. -/
theorem length_lt_height_toJson
    (effect : Effect)
    (chain : List Effect) :
    chain.length <
      (⟨effect, chain⟩ : Record).toJson.height := by
  induction chain generalizing effect with
  | nil => exact Nat.succ_pos _
  | cons next chain ih =>
      rw [toJson_eq, Json.height, List.length_cons]
      have hSlot :
          ("chain_target",
              some (⟨next, chain⟩ : Record).toJson) ∈
            (⟨effect, next :: chain⟩ : Record).slots := by
        simp [slots, Effect.slots, target?]
      have hNested := height_le_of_mem_slots hSlot
      have hNext := ih next
      omega

/- A record is accepted if it is decoded within the limit. -/
theorem ofStructured_eq_ok_iff
    {value : Json}
    {record : Record} :
    ofStructured value = .ok record ↔
      record.depth ≤ maxDepth ∧
        decoder value = .ok record := by
  simp only [ofStructured, bind, Except.bind]
  cases decoder value with
  | error error => simp
  | ok found =>
      by_cases hDepth : maxDepth < found.depth
      · simp only [if_pos hDepth, Except.ok.injEq]
        constructor
        · exact nofun
        · intro hBoth
          rcases hBoth with ⟨hLimit, rfl⟩
          omega
      · simp only [if_neg hDepth, Except.ok.injEq]
        constructor
        · intro hSame
          subst hSame
          exact ⟨by omega, rfl⟩
        · exact fun hFound => hFound.2

/-
  A record is restored from its structured form exactly if
  its chain is within the limit and each of its parts can be
  restored.
-/
theorem ofStructured_toJson_iff
    {record : Record} :
    ofStructured record.toJson = .ok record ↔
      record.depth ≤ maxDepth ∧
        ∀ part ∈ record.parts, part.effect.Restorable := by
  rcases record with ⟨effect, chain⟩
  rw [ofStructured_eq_ok_iff, decoder,
    decodeWithin_toJson_iff effect
      (length_lt_height_toJson effect chain)]

end Record

------------------------------------------------------------
-- Parsed Records
------------------------------------------------------------

/- A name that can be written is not the code of a stat. -/
theorem Subject.Expressible.distinct
    {subject : Subject}
    (hSubject : subject.Expressible) :
    subject.Distinct := by
  cases subject with
  | stat kind => trivial
  | condition name =>
      intro hCode
      have hCodes :
          ∀ code ∈ Vocabulary.codes Stat,
            ¬ (Subject.condition code).Expressible := by
        decide
      exact hCodes name hCode hSubject

/- What can be written can be restored. -/
theorem Effect.Expressible.restorable
    {effect : Effect}
    (hEffect : effect.Expressible) :
    effect.Restorable :=
  ⟨hEffect.subject.distinct, hEffect.duration,
    hEffect.trigger⟩

namespace Record

/-
  Exactly the records whose chain is within the limit, whose
  named conditions are not taken for stats, and whose ranges
  and chances are accepted, are restored from their
  structured form. All parsed records are among them.
-/
theorem restored_iff_and_of_parse :
    (∀ record : Record,
      ofStructured record.toJson = .ok record ↔
        record.depth ≤ maxDepth ∧
          ∀ part ∈ record.parts,
            part.effect.Restorable) ∧
      ∀ source record,
        Grammar.parse source = .ok record →
          ofStructured record.toJson = .ok record := by
  constructor
  · exact fun record => ofStructured_toJson_iff
  · intro source record hParse
    have hRecord := Grammar.expressible_of_parse hParse
    refine ofStructured_toJson_iff.mpr ⟨hRecord.depth, ?_⟩
    intro part hPart
    exact (hRecord.effects part hPart).restorable

/- A condition that explodes when it ends. -/
def burning : Record :=
  ⟨{ target := .enemy
     change := .decrease
     subject := .condition "#Burn"
     magnitude := some (.percent 10)
     duration := some (.turnRange 2 4)
     trigger := some (.chance 25)
     elements := [.fire]
     chainEffect := some .explode },
    [{ target := .player
       change := .increase
       subject := .stat .strength
       trigger :=
         some (.condition ⟨"HP", "<", .number 50, true⟩) }]⟩

/-
  A special condition, a range of turns, a chance and a
  chain target are all restored.
-/
theorem restored_of_parse_burning :
    Grammar.parse
        "E - #Burn 10% 2-4T ?25% F.>Expl(P + S ?HP<50%)" =
      .ok burning ∧
      ofStructured burning.toJson = .ok burning := by
  have hParse :
      Grammar.parse
          "E - #Burn 10% 2-4T ?25% F.>Expl(P + S ?HP<50%)" =
        .ok burning :=
    Grammar.parse_of_spaced (by decide) (by decide)
  exact ⟨hParse, restored_iff_and_of_parse.2 _ _ hParse⟩

end Record

end StatusEffect
