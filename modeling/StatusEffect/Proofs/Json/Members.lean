import StatusEffect.Proofs.Json.Layout

/-
  What the members of an object give.

  An object that is accepted for a layout has each member
  once and no others than those of its fields. A member that
  is null or an empty list says as little as one that is left
  out, and every other one gives a field its value. So what
  is written for such an object has the members again that
  give something.

  Key definitions include:
    * `Json.isGiven`
    * `Decoder.Solid`
    * `Members.Gives`
    * `Members.values`

  Key theorems include:
    * `Members.nodup_of_refused?`
    * `Members.gives_of_required`
    * `Members.isSome_map_iff_gives`
    * `Members.isSome_listSlot_iff_gives`
    * `Members.get_optional_congr`
    * `Layout.keys_written_perm`
-/

------------------------------------------------------------
-- Given Values
------------------------------------------------------------

namespace StatusEffect

/- A value is neither null nor an empty list. -/
def Json.isGiven : Json → Bool
  | .null => false
  | .arr [] => false
  | _ => true

namespace Decoder

variable {α : Type} {decode : Decoder α}

/- A decoder refuses null and the empty list. -/
def Solid (decode : Decoder α) : Prop :=
  ∀ found value,
    decode found = .ok value → found.isGiven = true

/- Only null and the empty list have to be refused. -/
theorem solid_of_refused
    (hNull : ∀ value, decode .null ≠ .ok value)
    (hEmpty : ∀ value, decode (.arr []) ≠ .ok value) :
    Solid decode := by
  intro found value hFound
  cases found with
  | null => exact absurd hFound (hNull value)
  | arr items =>
      cases items with
      | nil => exact absurd hFound (hEmpty value)
      | cons item items => rfl
  | _ => rfl

/- A text is given. -/
theorem solid_text : Solid text :=
  solid_of_refused (fun _ => nofun) fun _ => nofun

/- A word of a vocabulary is given. -/
theorem solid_code [Vocabulary α] :
    Solid (code : Decoder α) :=
  solid_of_refused (fun _ => nofun) fun _ => nofun

/- The image of a given value is given. -/
theorem Solid.map
    {β : Type}
    (hSolid : Solid decode)
    (image : α → β) :
    Solid fun found => image <$> decode found := by
  intro found value hFound
  cases hDecode : decode found with
  | error error =>
      simp only [hDecode] at hFound
      cases hFound
  | ok part => exact hSolid found part hDecode

/- A value that may be null is given if it is not. -/
theorem nullable_isSome_iff
    (hSolid : Solid decode)
    {found : Json}
    {value : Option α}
    (hFound : nullable decode found = .ok value) :
    value.isSome = true ↔ found.isGiven = true := by
  by_cases hNull : found = .null
  · subst hNull
    cases hFound
    simp [Json.isGiven]
  · rw [nullable_of_ne_null hNull] at hFound
    cases hDecode : decode found with
    | error error =>
        rw [hDecode] at hFound
        cases hFound
    | ok part =>
        have hGiven := hSolid found part hDecode
        rw [hDecode] at hFound
        cases hFound
        simp [hGiven]

/- A value that is not null is decoded as it is. -/
theorem nullable_eq_some
    {found : Json}
    {value : α}
    (hFound : nullable decode found = .ok (some value)) :
    decode found = .ok value := by
  by_cases hNull : found = .null
  · subst hNull
    cases hFound
  · rw [nullable_of_ne_null hNull] at hFound
    cases hDecode : decode found with
    | error error =>
        rw [hDecode] at hFound
        cases hFound
    | ok part =>
        rw [hDecode] at hFound
        cases hFound
        rfl

/- Decoders that agree on a value do if it may be null. -/
theorem nullable_congr
    {other : Decoder α}
    {found : Json}
    (hSame : decode found = other found) :
    nullable decode found = nullable other found := by
  by_cases hNull : found = .null
  · subst hNull
    rfl
  · rw [nullable_of_ne_null hNull,
      nullable_of_ne_null hNull, hSame]

/- As many values are decoded as there are items. -/
theorem length_of_mapM
    {items : List Json}
    {values : List α}
    (hItems : items.mapM decode = .ok values) :
    values.length = items.length := by
  induction items generalizing values with
  | nil =>
      cases hItems
      rfl
  | cons item items ih =>
      rw [List.mapM_cons] at hItems
      cases hItem : decode item with
      | error error =>
          simp [hItem, bind, Except.bind] at hItems
      | ok first =>
          cases hOthers : items.mapM decode with
          | error error =>
              simp [hItem, hOthers, bind, Except.bind]
                at hItems
          | ok others =>
              simp only [hItem, hOthers, bind, Except.bind,
                pure, Except.pure,
                Except.ok.injEq] at hItems
              rw [← hItems, List.length_cons,
                List.length_cons, ih hOthers]

/- A list is given if it is not empty. -/
theorem list_ne_nil_iff
    {found : Json}
    {values : List α}
    (hFound : list decode found = .ok values) :
    values ≠ [] ↔ found.isGiven = true := by
  cases found with
  | arr items =>
      have hLength := length_of_mapM hFound
      cases items with
      | nil =>
          have hValues :=
            List.eq_nil_of_length_eq_zero hLength
          simp [hValues, Json.isGiven]
      | cons item items =>
          cases values with
          | nil => cases hLength
          | cons first others => simp [Json.isGiven]
  | _ => cases hFound

end Decoder

------------------------------------------------------------
-- Members
------------------------------------------------------------

namespace Decoded

variable {α : Type}

/- A check and a part are good if both of them are. -/
theorem seqRight_eq_good_iff
    {check : Decoded Unit}
    {part : Decoded α}
    {value : α} :
    (check *> part) = .good value ↔
      check = .good () ∧ part = .good value := by
  cases check with
  | good checked =>
      rw [good_seqRight]
      simp
  | bad place error =>
      change both (.bad place error) part = _ ↔ _
      cases part with
      | good found => simp [both]
      | bad later other =>
          simp only [both]
          split <;> simp

end Decoded

namespace Members

variable {α : Type}
variable {name : String}
variable {members : List (String × Json)}
variable {layout : Layout}

/- A member gives a value that says something. -/
def Gives
    (members : List (String × Json))
    (name : String) : Prop :=
  ∃ value, (name, value) ∈ members ∧ value.isGiven = true

/- What is found under a name is a member. -/
theorem mem_of_find?
    {place : Nat}
    {value : Json}
    (hFind : find? name members = some (place, value)) :
    (name, value) ∈ members := by
  induction members generalizing place with
  | nil => cases hFind
  | cons member members ih =>
      rcases member with ⟨other, found⟩
      rw [find?] at hFind
      split at hFind
      · rename_i hName
        cases hFind
        rw [hName]
        exact List.mem_cons_self
      · rw [Option.map_eq_some_iff] at hFind
        rcases hFind with ⟨⟨before, later⟩, hLater, hSame⟩
        cases hSame
        exact List.mem_cons_of_mem _ (ih hLater)

/- A member that comes once is found under its name. -/
theorem find?_of_mem
    {value : Json}
    (hNames : (members.map Prod.fst).Nodup)
    (hMember : (name, value) ∈ members) :
    ∃ place, find? name members = some (place, value) := by
  induction members with
  | nil => cases hMember
  | cons member members ih =>
      rw [List.map_cons, List.nodup_cons] at hNames
      rcases List.mem_cons.mp hMember with rfl | hLater
      · exact ⟨0, by simp [find?]⟩
      · rcases ih hNames.2 hLater with ⟨place, hFind⟩
        have hOther : member.1 ≠ name := by
          intro hSame
          rw [hSame] at hNames
          exact
            hNames.1 (List.mem_map.mpr ⟨_, hLater, rfl⟩)
        exact ⟨place + 1, by simp [find?, hOther, hFind]⟩

/- Members that are not refused are fields, and come once. -/
theorem nodup_of_refused?
    {seen : List String}
    {place : Nat}
    (hClosed : layout.closed = true)
    (hRefused : refused? layout seen place members = none) :
    (members.map Prod.fst).Nodup ∧
      ∀ name ∈ members.map Prod.fst,
        name ∈ layout.fields ∧ name ∉ seen := by
  induction members generalizing seen place with
  | nil => simp
  | cons member members ih =>
      rcases member with ⟨name, value⟩
      rw [refused?] at hRefused
      split at hRefused
      · rename_i hField
        split at hRefused
        · cases hRefused
        · rename_i hSeen
          rcases ih hRefused with ⟨hNames, hOthers⟩
          rw [List.map_cons, List.nodup_cons,
            List.forall_mem_cons]
          refine ⟨⟨?_, hNames⟩, ⟨hField, hSeen⟩, ?_⟩
          · intro hLater
            exact (hOthers name hLater).2 List.mem_cons_self
          · intro other hOther
            rcases hOthers other hOther with ⟨hIn, hNew⟩
            exact
              ⟨hIn, fun hMem =>
                hNew (List.mem_cons_of_mem _ hMem)⟩
      · cases hRefused

/- A field is decoded from its member, or takes a default. -/
theorem get_named_cases
    {field : Field α}
    {value : α}
    (hGet :
      get layout field (.named members) = .good value) :
    (find? field.name members = none ∧
        field.absent = some value) ∨
      ∃ place found,
        find? field.name members = some (place, found) ∧
          field.decode found = .ok value := by
  rw [get] at hGet
  cases hFind : find? field.name members with
  | none =>
      cases hAbsent : field.absent with
      | none => simp [hFind, hAbsent] at hGet
      | some default =>
          simp only [hFind, hAbsent,
            Decoded.good.injEq] at hGet
          exact .inl ⟨rfl, by rw [hGet]⟩
  | some found =>
      simp only [hFind, Decoded.atPlace_eq_good_iff] at hGet
      exact .inr ⟨found.1, found.2, rfl, hGet⟩

/- A field that has to be given is. -/
theorem gives_of_required
    {decode : Decoder α}
    {value : α}
    (hSolid : decode.Solid)
    (hGet :
      get layout (.required name decode) (.named members) =
        .good value) :
    Gives members name := by
  rcases get_named_cases hGet with
    ⟨_, hAbsent⟩ | ⟨place, found, hFind, hDecode⟩
  · cases hAbsent
  · exact
      ⟨found, mem_of_find? hFind, hSolid found value hDecode⟩

/- What is found is given exactly if its name gives a value. -/
theorem isGiven_iff_gives
    {place : Nat}
    {found : Json}
    (hNames : (members.map Prod.fst).Nodup)
    (hFind : find? name members = some (place, found)) :
    found.isGiven = true ↔ Gives members name := by
  constructor
  · exact fun hGiven => ⟨found, mem_of_find? hFind, hGiven⟩
  · rintro ⟨value, hMember, hGiven⟩
    rcases find?_of_mem hNames hMember with ⟨_, hOther⟩
    rw [hFind] at hOther
    cases hOther
    exact hGiven

/- What is not found is not given. -/
theorem not_gives_of_find?
    (hNames : (members.map Prod.fst).Nodup)
    (hFind : find? name members = none) :
    ¬ Gives members name := by
  rintro ⟨value, hMember, _⟩
  rcases find?_of_mem hNames hMember with ⟨_, hOther⟩
  rw [hFind] at hOther
  cases hOther

/- The slot of an optional field has a value if it is given. -/
theorem isSome_map_iff_gives
    {β : Type}
    {decode : Decoder α}
    {value : Option α}
    (write : α → β)
    (hNames : (members.map Prod.fst).Nodup)
    (hSolid : decode.Solid)
    (hGet :
      get layout (.optional name decode) (.named members) =
        .good value) :
    (value.map write).isSome = true ↔
      Gives members name := by
  rw [Option.isSome_map]
  rcases get_named_cases hGet with
    ⟨hFind, hAbsent⟩ | ⟨place, found, hFind, hDecode⟩
  · cases hAbsent
    have hNot : ¬ Gives members name :=
      not_gives_of_find? hNames hFind
    simpa using hNot
  · rw [Decoder.nullable_isSome_iff hSolid hDecode]
    exact isGiven_iff_gives hNames hFind

/- The slot of a list has a value if it is given. -/
theorem isSome_listSlot_iff_gives
    {decode : Decoder α}
    {values : List α}
    (write : α → Json)
    (hNames : (members.map Prod.fst).Nodup)
    (hGet :
      get layout (.list name decode) (.named members) =
        .good values) :
    (Json.listSlot write values).isSome = true ↔
      Gives members name := by
  have hSlot :
      (Json.listSlot write values).isSome = true ↔
        values ≠ [] := by
    cases values <;> simp [Json.listSlot]
  rw [hSlot]
  rcases get_named_cases hGet with
    ⟨hFind, hAbsent⟩ | ⟨place, found, hFind, hDecode⟩
  · cases hAbsent
    have hNot : ¬ Gives members name :=
      not_gives_of_find? hNames hFind
    simpa using hNot
  · rw [Decoder.list_ne_nil_iff hDecode]
    exact isGiven_iff_gives hNames hFind

------------------------------------------------------------
-- Values Of Members
------------------------------------------------------------

/- The values that members give, in order. -/
def values : Members → List Json
  | .named members => members.map Prod.snd
  | .listed items => items

/- A field is decoded from a value, or takes a default. -/
theorem get_cases
    {field : Field α}
    {members : Members}
    {value : α}
    (hGet : get layout field members = .good value) :
    field.absent = some value ∨
      field.unlisted = some value ∨
        ∃ found, field.decode found = .ok value := by
  cases members with
  | named members =>
      rcases get_named_cases hGet with
        ⟨_, hAbsent⟩ | ⟨_, found, _, hDecode⟩
      · exact .inl hAbsent
      · exact .inr (.inr ⟨found, hDecode⟩)
  | listed items =>
      simp only [get] at hGet
      split at hGet
      · rename_i found _
        rw [Decoded.atPlace_eq_good_iff] at hGet
        exact .inr (.inr ⟨found, hGet⟩)
      · rename_i hUnlisted
        cases hGet
        exact .inr (.inl hUnlisted)
      · cases hGet

/- What holds of decoded values holds of a required field. -/
theorem holds_of_get_required
    {decode : Decoder α}
    {members : Members}
    {value : α}
    {holds : α → Prop}
    (hDecode :
      ∀ found part, decode found = .ok part → holds part)
    (hGet :
      get layout (.required name decode) members =
        .good value) :
    holds value := by
  rcases get_cases hGet with
    hAbsent | hUnlisted | ⟨found, hFound⟩
  · cases hAbsent
  · cases hUnlisted
  · exact hDecode found value hFound

/- What holds of decoded values holds of an optional field. -/
theorem holds_of_get_optional
    {decode : Decoder α}
    {members : Members}
    {value : Option α}
    {holds : α → Prop}
    (hDecode :
      ∀ found part, decode found = .ok part → holds part)
    (hGet :
      get layout (.optional name decode) members =
        .good value) :
    ∀ part ∈ value, holds part := by
  rcases get_cases hGet with
    hAbsent | hUnlisted | ⟨found, hFound⟩
  · cases hAbsent
    exact nofun
  · cases hUnlisted
    exact nofun
  · intro part hPart
    rw [Option.mem_def] at hPart
    subst hPart
    exact hDecode found part (Decoder.nullable_eq_some hFound)

/- Only the values of the members matter to a field. -/
theorem get_optional_congr
    {decode other : Decoder α}
    {members : Members}
    (hSame :
      ∀ found ∈ members.values,
        decode found = other found) :
    get layout (.optional name decode) members =
      get layout (.optional name other) members := by
  cases members with
  | named members =>
      simp only [get, Field.optional]
      cases hFind : find? name members with
      | none => rfl
      | some found =>
          have hMember := mem_of_find? hFind
          have hFound :=
            hSame found.2
              (List.mem_map.mpr ⟨_, hMember, rfl⟩)
          simp only [Decoder.nullable_congr hFound]
  | listed items =>
      simp only [get, Field.optional]
      cases hItem : items[layout.fields.idxOf name]? with
      | none => rfl
      | some found =>
          have hFound :=
            hSame found (List.mem_of_getElem? hItem)
          simp only [Decoder.nullable_congr hFound]

end Members

------------------------------------------------------------
-- Objects
------------------------------------------------------------

namespace Layout

variable {α : Type}
variable {layout : Layout}

/- An object is decoded exactly if no member is refused. -/
theorem decode_obj_eq_ok_iff
    {build : Members → Decoded α}
    {members : List (String × Json)}
    {value : α} :
    layout.decode build (.obj members) = .ok value ↔
      Members.refused? layout [] 0 members = none ∧
        build (.named members) = .good value := by
  rw [decode, ofMembers, Decoded.result_eq_ok_iff,
    Decoded.seqRight_eq_good_iff, Members.check]
  cases Members.refused? layout [] 0 members with
  | none => simp
  | some refused => simp

/- What is decoded is built from members of some form. -/
theorem exists_of_decode
    {build : Members → Decoded α}
    {found : Json}
    {value : α}
    (hDecode : layout.decode build found = .ok value) :
    ∃ members, build members = .good value := by
  cases found with
  | obj members =>
      rw [decode, ofMembers, Decoded.result_eq_ok_iff,
        Decoded.seqRight_eq_good_iff] at hDecode
      exact ⟨_, hDecode.2⟩
  | arr items =>
      rw [decode, ofMembers, Decoded.result_eq_ok_iff,
        Decoded.seqRight_eq_good_iff] at hDecode
      exact ⟨_, hDecode.2⟩
  | _ => cases hDecode

/- The members that are written keep the order of the slots. -/
theorem keys_written_sublist
    (slots : List (String × Option Json)) :
    ((written slots).map Prod.fst).Sublist
      (slots.map Prod.fst) := by
  induction slots with
  | nil => exact List.Sublist.refl _
  | cons slot slots ih =>
      rcases slot with ⟨name, _ | value⟩
      · exact ih.cons name
      · exact ih.cons_cons name

/- A member is written exactly if its slot has a value. -/
theorem mem_keys_written_iff
    {name : String}
    {slots : List (String × Option Json)} :
    name ∈ (written slots).map Prod.fst ↔
      ∃ value, (name, some value) ∈ slots := by
  induction slots with
  | nil => simp [written]
  | cons slot slots ih =>
      rcases slot with ⟨other, _ | found⟩
      · simp [written, ih]
      · rw [written, List.map_cons, List.mem_cons, ih]
        constructor
        · rintro (rfl | ⟨value, hLater⟩)
          · exact ⟨found, List.mem_cons_self⟩
          · exact ⟨value, List.mem_cons_of_mem _ hLater⟩
        · rintro ⟨value, hMember⟩
          rcases List.mem_cons.mp hMember with hSame | hLater
          · cases hSame
            exact .inl rfl
          · exact .inr ⟨value, hLater⟩

/-
  If the slots have values exactly where the members of an
  accepted object give some, then the names that are written
  are those of the members that do.
-/
theorem keys_written_perm
    {members : List (String × Json)}
    {slots : List (String × Option Json)}
    (hClosed : layout.closed = true)
    (hSlots : layout.Covers slots)
    (hRefused :
      Members.refused? layout [] 0 members = none)
    (hGives :
      ∀ slot ∈ slots,
        slot.2.isSome = true ↔
          Members.Gives members slot.1) :
    ((written slots).map Prod.fst).Perm
      ((members.filter fun member =>
        member.2.isGiven).map Prod.fst) := by
  have hMembers :=
    Members.nodup_of_refused? hClosed hRefused
  have hWritten : ((written slots).map Prod.fst).Nodup := by
    refine (keys_written_sublist slots).nodup ?_
    rw [hSlots.names]
    exact hSlots.distinct
  have hFiltered :
      ((members.filter fun member =>
        member.2.isGiven).map Prod.fst).Nodup :=
    (List.filter_sublist.map Prod.fst).nodup hMembers.1
  rw [List.perm_ext_iff_of_nodup hWritten hFiltered]
  intro name
  have hName :
      name ∈ (members.filter fun member =>
          member.2.isGiven).map Prod.fst ↔
        Members.Gives members name := by
    simp [Members.Gives]
  rw [mem_keys_written_iff, hName]
  constructor
  · rintro ⟨value, hSlot⟩
    exact (hGives _ hSlot).mp rfl
  · rintro ⟨value, hMember, hGiven⟩
    have hField :=
      (hMembers.2 name
        (List.mem_map.mpr ⟨_, hMember, rfl⟩)).1
    rw [← hSlots.names, List.mem_map] at hField
    rcases hField with ⟨⟨_, slot⟩, hSlot, rfl⟩
    have hSome :=
      (hGives _ hSlot).mpr ⟨value, hMember, hGiven⟩
    rcases Option.isSome_iff_exists.mp hSome with
      ⟨found, rfl⟩
    exact ⟨found, hSlot⟩

end Layout

end StatusEffect
