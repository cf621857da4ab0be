import StatusEffect.Proofs.Json.Members
import StatusEffect.Proofs.Record.Structured

/-
  Records that are decoded.

  Whatever object a record is decoded from, the record can be
  restored: each clause passed the check that restoring it
  makes. The object that is written for it has the members
  again that said something, in the order of the fields, and
  it is decoded to the same record.

  The levels that bound the decoding of a chain only have to
  reach the height of the value. So the chain target of a
  record is decoded from its member as any record is.

  Key definitions include:
    * `Record.scattered`
    * `Record.gathered`

  Key theorems include:
    * `Record.decodeWithin_eq_decoder`
    * `Record.decoder_eq`
    * `Record.restorable_of_decodeWithin`
    * `Record.slots_given_of_readsFields`
    * `Record.keys_of_decoder`
    * `Record.target_of_decoder`
    * `Record.normalised_of_ofStructured`
-/

------------------------------------------------------------
-- Checked Clauses
------------------------------------------------------------

namespace StatusEffect

open Json Layout

namespace Subject

/- A decoded subject is not a condition named like a stat. -/
theorem distinct_of_decoder
    {found : Json}
    {subject : Subject}
    (hDecode : decoder found = .ok subject) :
    subject.Distinct := by
  cases found with
  | str text =>
      change Except.ok (ofText text) = .ok subject at hDecode
      cases hDecode
      rw [ofText]
      split
      · trivial
      · rename_i hText
        exact Vocabulary.ofCode?_eq_none_iff.mp hText
  | _ => cases hDecode

/- A decoded subject was given. -/
theorem solid_decoder : Decoder.Solid decoder :=
  Decoder.solid_text.map ofText

end Subject

namespace Magnitude

/- A decoded magnitude was given. -/
theorem solid_decoder : Decoder.Solid decoder :=
  Decoder.solid_of_refused (fun _ => nofun) fun _ => nofun

end Magnitude

namespace Duration

/- Both ends of a range make it up if it is not reversed. -/
theorem ofParts_range
    (first last : UInt32) :
    ofParts ⟨none, some first, some last, .turns⟩ =
      if first ≤ last then
        .ok (.turnRange first last)
      else
        .error (.rangeReversed first last) := rfl

/- The range of turns that parts make up is not reversed. -/
theorem ordered_of_ofParts
    {parts : Parts}
    {duration : Duration}
    (hParts : ofParts parts = .ok duration) :
    duration.Ordered := by
  cases duration with
  | turnRange first last =>
      -- only turns with both ends, and no count, are a range
      rcases parts with ⟨count, start, finish, span⟩
      cases span with
      | turns =>
          rcases count with _ | count
          · rcases start with _ | start
            · cases finish <;> cases hParts
            · rcases finish with _ | finish
              · cases hParts
              · rw [ofParts_range] at hParts
                split at hParts
                · rename_i hRange
                  cases hParts
                  exact hRange
                · cases hParts
          · cases start <;> cases finish <;> cases hParts
      | combat | permanent | action =>
          cases count <;> cases start <;> cases finish <;>
            cases hParts
  | _ => trivial

/- The range of turns of a decoded duration is not reversed. -/
theorem ordered_of_decoder
    {found : Json}
    {duration : Duration}
    (hDecode : decoder found = .ok duration) :
    duration.Ordered := by
  simp only [decoder, bind, Except.bind] at hDecode
  split at hDecode
  · cases hDecode
  · exact ordered_of_ofParts hDecode

/- A decoded duration was given. -/
theorem solid_decoder : Decoder.Solid decoder :=
  Decoder.solid_of_refused (fun _ => nofun) fun _ => nofun

end Duration

namespace Trigger

/- The chance that parts make up is at most certain. -/
theorem bounded_of_ofParts
    {parts : Parts}
    {trigger : Trigger}
    (hParts : ofParts parts = .ok trigger) :
    trigger.Bounded := by
  rw [ofParts] at hParts
  split at hParts
  · cases hParts
    trivial
  · split at hParts
    · rename_i hChance
      cases hParts
      exact hChance
    · cases hParts
  · cases hParts
    trivial
  · cases hParts

/- The chance of a decoded trigger is at most certain. -/
theorem bounded_of_decoder
    {found : Json}
    {trigger : Trigger}
    (hDecode : decoder found = .ok trigger) :
    trigger.Bounded := by
  simp only [decoder, bind, Except.bind] at hDecode
  split at hDecode
  · cases hDecode
  · exact bounded_of_ofParts hDecode

/- A decoded trigger was given. -/
theorem solid_decoder : Decoder.Solid decoder :=
  Decoder.solid_of_refused (fun _ => nofun) fun _ => nofun

end Trigger

namespace Stacking

/- A decoded stacking was given. -/
theorem solid_decoder : Decoder.Solid decoder :=
  Decoder.solid_of_refused (fun _ => nofun) fun _ => nofun

end Stacking

namespace ResourceLink

/- A decoded resource link was given. -/
theorem solid_decoder : Decoder.Solid decoder :=
  Decoder.solid_of_refused (fun _ => nofun) fun _ => nofun

end ResourceLink

------------------------------------------------------------
-- Levels
------------------------------------------------------------

namespace Json

/- An object is higher than the values of its members. -/
theorem height_lt_of_mem_obj
    {found : Json}
    {members : List (String × Json)}
    (hFound : found ∈ members.map Prod.snd) :
    found.height < (Json.obj members).height := by
  rw [height, Nat.lt_succ_iff]
  induction members with
  | nil => cases hFound
  | cons member members ih =>
      rw [List.map_cons] at hFound
      rcases List.mem_cons.mp hFound with rfl | hLater
      · exact Nat.le_max_left _ _
      · exact
          Nat.le_trans (ih hLater) (Nat.le_max_right _ _)

/- A list is higher than its items. -/
theorem height_lt_of_mem_arr
    {found : Json}
    {items : List Json}
    (hFound : found ∈ items) :
    found.height < (Json.arr items).height := by
  rw [height, Nat.lt_succ_iff]
  induction items with
  | nil => cases hFound
  | cons item items ih =>
      rcases List.mem_cons.mp hFound with rfl | hLater
      · exact Nat.le_max_left _ _
      · exact
          Nat.le_trans (ih hLater) (Nat.le_max_right _ _)

/- Every value has some height. -/
theorem height_pos
    (found : Json) :
    0 < found.height := by
  cases found <;> simp [height]

end Json

namespace Record

/- A record only depends on how the values are decoded. -/
theorem ofMembers_congr
    {nested other : Decoder Record}
    {members : Members}
    (hSame :
      ∀ found ∈ members.values,
        nested found = other found) :
    ofMembers nested members = ofMembers other members := by
  rw [ofMembers, ofMembers, Members.get_optional_congr hSame]

/- A value only depends on how lower ones are decoded. -/
theorem decode_congr
    {nested other : Decoder Record}
    {value : Json}
    (hSame :
      ∀ found : Json, found.height < value.height →
        nested found = other found) :
    layout.decode (ofMembers nested) value =
      layout.decode (ofMembers other) value := by
  cases value with
  | obj members =>
      have hMembers :
          ofMembers nested (.named members) =
            ofMembers other (.named members) :=
        ofMembers_congr fun found hFound =>
          hSame found (height_lt_of_mem_obj hFound)
      rw [decode, decode, Layout.ofMembers, Layout.ofMembers,
        hMembers]
  | arr items =>
      have hItems :
          ofMembers nested (.listed items) =
            ofMembers other (.listed items) :=
        ofMembers_congr fun found hFound =>
          hSame found (height_lt_of_mem_arr hFound)
      rw [decode, decode, Layout.ofMembers, Layout.ofMembers,
        hItems]
  | _ => rfl

/- Levels beyond the height of a value do not matter. -/
theorem decodeWithin_eq_of_height_le
    {levels others : Nat}
    {value : Json}
    (hLevels : value.height ≤ levels)
    (hOthers : value.height ≤ others) :
    decodeWithin levels value =
      decodeWithin others value := by
  induction levels generalizing others value with
  | zero =>
      have hPos := value.height_pos
      omega
  | succ levels ih =>
      cases others with
      | zero =>
          have hPos := value.height_pos
          omega
      | succ others =>
          rw [decodeWithin, decodeWithin]
          apply decode_congr
          intro found hFound
          exact ih (by omega) (by omega)

/- Enough levels are as good as no limit. -/
theorem decodeWithin_eq_decoder
    {levels : Nat}
    {value : Json}
    (hLevels : value.height ≤ levels) :
    decodeWithin levels value = decoder value :=
  decodeWithin_eq_of_height_le hLevels (Nat.le_refl _)

/- A record is decoded with its chain target decoded alike. -/
theorem decoder_eq
    (value : Json) :
    decoder value =
      layout.decode (ofMembers decoder) value := by
  rw [← decodeWithin_eq_decoder (Nat.le_succ value.height),
    decodeWithin]
  apply decode_congr
  intro found hFound
  exact decodeWithin_eq_decoder (Nat.le_of_lt hFound)

------------------------------------------------------------
-- Decoded Records
------------------------------------------------------------

/- An effect that is read can be restored. -/
theorem ReadsFields.restorable
    {nested : Decoder Record}
    {members : Members}
    {record : Record}
    (hFields : ReadsFields nested members record) :
    record.effect.Restorable where
  subject :=
    Members.holds_of_get_required
      (fun _ _ => Subject.distinct_of_decoder)
      hFields.subject
  duration :=
    Members.holds_of_get_optional
      (fun _ _ => Duration.ordered_of_decoder)
      hFields.duration
  trigger :=
    Members.holds_of_get_optional
      (fun _ _ => Trigger.bounded_of_decoder)
      hFields.trigger

/- Each part of a decoded record can be restored. -/
theorem restorable_of_decodeWithin
    {levels : Nat}
    {found : Json}
    {record : Record}
    (hDecode : decodeWithin levels found = .ok record) :
    ∀ part ∈ record.parts, part.effect.Restorable := by
  induction levels generalizing found record with
  | zero => cases hDecode
  | succ levels ih =>
      rw [decodeWithin] at hDecode
      rcases exists_of_decode hDecode with
        ⟨members, hMembers⟩
      have hFields := ofMembers_eq_good_iff.mp hMembers
      have hTarget :
          ∀ next ∈ record.target?,
            ∀ part ∈ next.parts, part.effect.Restorable :=
        Members.holds_of_get_optional (fun _ _ => ih)
          hFields.chainTarget
      have hEffect := hFields.restorable
      rcases record with ⟨effect, _ | ⟨next, chain⟩⟩
      · rw [parts_nil, List.forall_mem_singleton]
        exact hEffect
      · rw [parts_cons, List.forall_mem_cons]
        exact ⟨hEffect, hTarget ⟨next, chain⟩ rfl⟩

/- A decoded record was given. -/
theorem solid_decoder : Decoder.Solid decoder :=
  Decoder.solid_of_refused (fun _ => nofun) fun _ => nofun

/- The slots of a record have values where members give some. -/
theorem slots_given_of_readsFields
    {nested : Decoder Record}
    {members : List (String × Json)}
    {record : Record}
    (hNames : (members.map Prod.fst).Nodup)
    (hNested : nested.Solid)
    (hFields : ReadsFields nested (.named members) record) :
    ∀ slot ∈ record.slots,
      slot.2.isSome = true ↔
        Members.Gives members slot.1 := by
  simp only [slots, Effect.slots, List.forall_mem_cons]
  exact
    ⟨iff_of_true rfl
        (Members.gives_of_required Decoder.solid_code
          hFields.target),
      iff_of_true rfl
        (Members.gives_of_required Decoder.solid_code
          hFields.change),
      iff_of_true rfl
        (Members.gives_of_required Subject.solid_decoder
          hFields.subject),
      Members.isSome_map_iff_gives _ hNames
        Magnitude.solid_decoder hFields.magnitude,
      Members.isSome_map_iff_gives _ hNames
        Duration.solid_decoder hFields.duration,
      Members.isSome_map_iff_gives _ hNames
        Trigger.solid_decoder hFields.trigger,
      Members.isSome_listSlot_iff_gives _ hNames
        hFields.elements,
      Members.isSome_listSlot_iff_gives _ hNames
        hFields.flags,
      Members.isSome_map_iff_gives _ hNames
        Decoder.solid_code hFields.removability,
      Members.isSome_map_iff_gives _ hNames
        Decoder.solid_code hFields.chainEffect,
      Members.isSome_map_iff_gives _ hNames
        hNested hFields.chainTarget,
      Members.isSome_map_iff_gives _ hNames
        Decoder.solid_code hFields.source,
      Members.isSome_map_iff_gives _ hNames
        Stacking.solid_decoder hFields.stacking,
      Members.isSome_map_iff_gives _ hNames
        Decoder.solid_code hFields.visibility,
      Members.isSome_map_iff_gives _ hNames
        ResourceLink.solid_decoder hFields.resource,
      Members.isSome_listSlot_iff_gives _ hNames
        hFields.conditions,
      Members.isSome_map_iff_gives _ hNames
        Decoder.solid_code hFields.interaction,
      Members.isSome_map_iff_gives _ hNames
        Decoder.solid_code hFields.metaEffect,
      fun _ hSlot => absurd hSlot List.not_mem_nil⟩

/-
  The names that are written for a decoded object are those
  of its members that said something, in field order.
-/
theorem keys_of_decoder
    {members : List (String × Json)}
    {record : Record}
    (hDecode : decoder (.obj members) = .ok record) :
    ∃ kept, record.toJson = .obj kept ∧
      (kept.map Prod.fst).Sublist layout.fields ∧
      (kept.map Prod.fst).Perm
        ((members.filter fun member =>
          member.2.isGiven).map Prod.fst) := by
  rw [decoder_eq, decode_obj_eq_ok_iff] at hDecode
  rcases hDecode with ⟨hRefused, hBuild⟩
  have hNames := (Members.nodup_of_refused? rfl hRefused).1
  have hSlots :=
    slots_given_of_readsFields hNames solid_decoder
      (ofMembers_eq_good_iff.mp hBuild)
  refine ⟨written record.slots, record.toJson_eq, ?_, ?_⟩
  · exact keys_written_sublist record.slots
  · exact
      keys_written_perm rfl record.covers_slots hRefused
        hSlots

/- The chain target is decoded from its own member. -/
theorem target_of_decoder
    {members : List (String × Json)}
    {record next : Record}
    (hDecode : decoder (.obj members) = .ok record)
    (hNext : next ∈ record.target?) :
    ∃ found, ("chain_target", found) ∈ members ∧
      decoder found = .ok next := by
  rw [decoder_eq, decode_obj_eq_ok_iff] at hDecode
  have hTarget :=
    (ofMembers_eq_good_iff.mp hDecode.2).chainTarget
  rw [Option.mem_def.mp hNext] at hTarget
  rcases Members.get_named_cases hTarget with
    ⟨_, hAbsent⟩ | ⟨_, found, hFind, hFound⟩
  · cases hAbsent
  · exact
      ⟨found, Members.mem_of_find? hFind,
        Decoder.nullable_eq_some hFound⟩

/- A chain target has a shorter chain. -/
theorem depth_of_mem_target?
    {record next : Record}
    (hNext : next ∈ record.target?) :
    record.depth = next.depth + 1 := by
  rcases record with ⟨effect, _ | ⟨follower, chain⟩⟩
  · cases hNext
  · cases hNext
    rfl

/-
  A record that is accepted from an object has its chain
  within the limit, and each of its parts passed the checks.
  What is written for it has just the members again that
  said something, in field order. The chain target is itself
  accepted from its member, and the record from what is
  written for it.
-/
theorem normalised_of_ofStructured
    {members : List (String × Json)}
    {record : Record}
    (hAccepted : ofStructured (.obj members) = .ok record) :
    (record.depth ≤ maxDepth ∧
        ∀ part ∈ record.parts, part.effect.Restorable) ∧
      (∃ kept, record.toJson = .obj kept ∧
        (kept.map Prod.fst).Sublist layout.fields ∧
        (kept.map Prod.fst).Perm
          ((members.filter fun member =>
            member.2.isGiven).map Prod.fst)) ∧
      (∀ next ∈ record.target?,
        ∃ found, ("chain_target", found) ∈ members ∧
          ofStructured found = .ok next) ∧
      ofStructured record.toJson = .ok record := by
  rcases ofStructured_eq_ok_iff.mp hAccepted with
    ⟨hDepth, hDecode⟩
  have hParts := restorable_of_decodeWithin hDecode
  refine
    ⟨⟨hDepth, hParts⟩, keys_of_decoder hDecode, ?_,
      ofStructured_toJson_iff.mpr ⟨hDepth, hParts⟩⟩
  intro next hNext
  rcases target_of_decoder hDecode hNext with
    ⟨found, hMember, hFound⟩
  have hNextDepth := depth_of_mem_target? hNext
  exact
    ⟨found, hMember,
      ofStructured_eq_ok_iff.mpr ⟨by omega, hFound⟩⟩

/- Members out of order, two of which say nothing. -/
def scattered : List (String × Json) :=
  [("duration",
      .obj
        [("range_end", .int 4), ("type", .str "T"),
         ("range_start", .int 2), ("value", .null)]),
   ("chain_target",
      .obj
        [("stat_affected", .str "S"),
         ("magnitude", .null),
         ("effect_type", .str "+"),
         ("target", .str "P")]),
   ("trigger", .obj [("chance", .int 25)]),
   ("element", .arr []),
   ("stat_affected", .str "#Burn"),
   ("effect_type", .str "-"),
   ("magnitude", .null),
   ("target", .str "E")]

/- The record that the scattered members are decoded to. -/
def gathered : Record :=
  ⟨{ target := .enemy
     change := .decrease
     subject := .condition "#Burn"
     duration := some (.turnRange 2 4)
     trigger := some (.chance 25) },
    [{ target := .player
       change := .increase
       subject := .stat .strength }]⟩

/- Scattered members are gathered in the order of fields. -/
theorem normalised_of_ofStructured_scattered :
    ofStructured (.obj scattered) = .ok gathered ∧
      (∃ kept, gathered.toJson = .obj kept ∧
        (kept.map Prod.fst).Sublist layout.fields ∧
        (kept.map Prod.fst).Perm
          ((scattered.filter fun member =>
            member.2.isGiven).map Prod.fst)) ∧
      ofStructured gathered.toJson = .ok gathered := by
  have hAccepted :
      ofStructured (.obj scattered) = .ok gathered := rfl
  have hNormalised := normalised_of_ofStructured hAccepted
  exact
    ⟨hAccepted, hNormalised.2.1, hNormalised.2.2.2⟩

end Record

end StatusEffect
