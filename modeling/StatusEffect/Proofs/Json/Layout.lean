import StatusEffect.Proofs.Vocabulary.Lawful
import StatusEffect.Record.Structured

/-
  Reading the fields of an object back.

  An object is written from slots, one for each field of a
  layout in order, and a slot without a value leaves its
  member out. Reading such an object refuses no member, and
  the value of a field is decoded from its own slot. So an
  object is decoded exactly if each of its fields is.

  Key definitions include:
    * `Decoded.Gives`
    * `Layout.written`
    * `Layout.Covers`

  Key theorems include:
    * `Decoded.gives_seq`
    * `Layout.find?_written`
    * `Layout.refused?_written`
    * `Layout.decode_written_iff`
    * `Layout.get_required_iff`
    * `Layout.get_optional_iff`
    * `Layout.get_list_iff`
-/

------------------------------------------------------------
-- Parts Of A Value
------------------------------------------------------------

namespace StatusEffect

namespace Decoded

variable {α β : Type}

/- A part is decoded, with something said of its value. -/
def Gives
    (part : Decoded α)
    (holds : α → Prop) : Prop :=
  ∃ value, part = .good value ∧ holds value

/- A part has a value exactly if it gives that value. -/
theorem eq_good_iff_gives
    {part : Decoded α}
    {value : α} :
    part = .good value ↔ part.Gives (· = value) := by
  simp [Gives]

/- Two parts are decoded together exactly if both are. -/
theorem gives_seq
    {first : Decoded (α → β)}
    {second : Decoded α}
    {holds : β → Prop} :
    (first <*> second).Gives holds ↔
      first.Gives fun make =>
        second.Gives fun part => holds (make part) := by
  show (both first second).Gives holds ↔ _
  cases first with
  | good make => cases second <;> simp [both, Gives]
  | bad place error =>
      cases second with
      | good part => simp [both, Gives]
      | bad later other =>
          simp only [both]
          split <;> simp [Gives]

/- A function of a part is decoded exactly if the part is. -/
theorem gives_map
    {make : α → β}
    {part : Decoded α}
    {holds : β → Prop} :
    (make <$> part).Gives holds ↔
      part.Gives fun found => holds (make found) := by
  show (both (.good make) part).Gives holds ↔ _
  cases part <;> simp [both, Gives]

/- A check that passes leaves a part as it is. -/
theorem good_seqRight
    (checked : β)
    (part : Decoded α) :
    (Decoded.good checked *> part) = part := by
  cases part <;> rfl

/- The result of a part is its value. -/
@[simp]
theorem result_eq_ok_iff
    {part : Decoded α}
    {value : α} :
    part.result = .ok value ↔ part = .good value := by
  cases part <;> simp [result]

/- The place of a part only matters for its error. -/
@[simp]
theorem atPlace_eq_good_iff
    {place : Nat}
    {outcome : Except DecodeError α}
    {value : α} :
    atPlace place outcome = .good value ↔
      outcome = .ok value := by
  cases outcome <;> simp [atPlace]

end Decoded

------------------------------------------------------------
-- Single Values
------------------------------------------------------------

namespace Decoder

variable {α : Type}

/- A number below the limit is read back. -/
theorem below_of_lt
    {limit n : Nat}
    {wanted : Wanted}
    (hLimit : n < limit) :
    below limit wanted (.int n) = .ok n := by
  have hRange : (0 : Int) ≤ n ∧ (n : Int) < limit := by
    omega
  rw [below, if_pos hRange, Int.toNat_natCast]

/- A word is read back. -/
@[simp]
theorem word_word
    (n : UInt32) :
    word (.word n) = .ok n := by
  rw [word, Json.word, below_of_lt n.toNat_lt_size]
  exact congrArg Except.ok UInt32.ofNat_toNat

/- A text is read back. -/
theorem text_str
    (value : String) :
    text (.str value) = .ok value := rfl

/- A truth value is read back. -/
theorem truth_bool
    (value : Bool) :
    truth (.bool value) = .ok value := rfl

/- A word of a vocabulary is read back. -/
@[simp]
theorem code_code
    [Vocabulary α]
    [LawfulVocabulary α]
    (value : α) :
    code (.code value) = .ok value := by
  simp only [code, Json.code, ofCode,
    Vocabulary.ofCode?_code]

/- What is not null is decoded as usual. -/
theorem nullable_of_ne_null
    {decode : Decoder α}
    {found : Json}
    (hFound : found ≠ .null) :
    nullable decode found = some <$> decode found := by
  cases found with
  | null => exact absurd rfl hFound
  | _ => rfl

/- Some values are read back exactly if each of them is. -/
theorem mapM_map_eq_ok_iff
    {write : α → Json}
    {decode : Decoder α}
    {values : List α} :
    (values.map write).mapM decode = .ok values ↔
      ∀ found ∈ values, decode (write found) = .ok found := by
  induction values with
  | nil => simp [pure, Except.pure]
  | cons first others ih =>
      rw [List.map_cons, List.mapM_cons,
        List.forall_mem_cons, ← ih]
      cases decode (write first) with
      | error error => simp [bind, Except.bind]
      | ok found =>
          cases (others.map write).mapM decode <;>
            simp [bind, Except.bind, pure, Except.pure]

end Decoder

------------------------------------------------------------
-- Slots
------------------------------------------------------------

namespace Json

/- The slot of a list, which is empty if the list is. -/
def listSlot
    {α : Type}
    (write : α → Json)
    (values : List α) : Option Json :=
  if values.isEmpty then
    none
  else
    some (.arr (values.map write))

end Json

namespace Layout

/- The members of an object, from slots for its fields. -/
def written :
    List (String × Option Json) → List (String × Json)
  | [] => []
  | (name, some value) :: slots =>
      (name, value) :: written slots
  | (_, none) :: slots => written slots

/- A slot is a member that may be left out. -/
theorem written_cons
    (name : String)
    (slot : Option Json)
    (slots : List (String × Option Json)) :
    written ((name, slot) :: slots) =
      Json.optionalMember name id slot ++ written slots := by
  cases slot <;> rfl

/- The member of a slot with a value. -/
theorem optionalMember_some
    (name : String)
    (value : Json) :
    Json.optionalMember name id (some value) =
      [(name, value)] := rfl

/- The member of a slot for an optional value. -/
theorem optionalMember_map
    {α : Type}
    (name : String)
    (write : α → Json)
    (value : Option α) :
    Json.optionalMember name id (value.map write) =
      Json.optionalMember name write value := by
  cases value <;> rfl

/- The member of the slot of a list. -/
theorem optionalMember_listSlot
    {α : Type}
    (name : String)
    (write : α → Json)
    (values : List α) :
    Json.optionalMember name id
        (Json.listSlot write values) =
      Json.listMember name write values := by
  cases values <;> rfl

/- Nothing is found under a name that has no slot. -/
theorem find?_written_of_notMem
    {name : String}
    {slots : List (String × Option Json)}
    (hName : name ∉ slots.map Prod.fst) :
    Members.find? name (written slots) = none := by
  induction slots with
  | nil => rfl
  | cons slot slots ih =>
      rcases slot with ⟨other, value⟩
      simp only [List.map_cons, List.mem_cons,
        not_or] at hName
      cases value with
      | none => exact ih hName.2
      | some value =>
          rw [written, Members.find?,
            if_neg (Ne.symm hName.1), ih hName.2]
          rfl

/- What is found under a name is the value of its slot. -/
theorem find?_written
    {name : String}
    {value : Option Json}
    {slots : List (String × Option Json)}
    (hNames : (slots.map Prod.fst).Nodup)
    (hSlot : (name, value) ∈ slots) :
    (Members.find? name (written slots)).map Prod.snd =
      value := by
  induction slots with
  | nil => simp at hSlot
  | cons slot slots ih =>
      rw [List.map_cons, List.nodup_cons] at hNames
      rcases List.mem_cons.mp hSlot with rfl | hLater
      · cases value with
        | none =>
            rw [written, find?_written_of_notMem hNames.1]
            rfl
        | some value => simp [written, Members.find?]
      · rcases slot with ⟨other, found⟩
        have hOther : other ≠ name := by
          intro hSame
          subst hSame
          exact hNames.1 (List.mem_map.mpr ⟨_, hLater, rfl⟩)
        cases found with
        | none => exact ih hNames.2 hLater
        | some found =>
            rw [written, Members.find?, if_neg hOther,
              Option.map_map]
            exact ih hNames.2 hLater

/- No member is refused that is a field and comes once. -/
theorem refused?_written
    {layout : Layout}
    {seen : List String}
    {place : Nat}
    {slots : List (String × Option Json)}
    (hNames : (slots.map Prod.fst).Nodup)
    (hFields :
      ∀ name ∈ slots.map Prod.fst, name ∈ layout.fields)
    (hSeen : ∀ name ∈ slots.map Prod.fst, name ∉ seen) :
    Members.refused? layout seen place (written slots) =
      none := by
  induction slots generalizing seen place with
  | nil => rfl
  | cons slot slots ih =>
      rcases slot with ⟨name, value⟩
      rw [List.map_cons, List.nodup_cons] at hNames
      rw [List.map_cons, List.forall_mem_cons] at hFields
      rw [List.map_cons, List.forall_mem_cons] at hSeen
      cases value with
      | none => exact ih hNames.2 hFields.2 hSeen.2
      | some value =>
          rw [written, Members.refused?, if_pos hFields.1,
            if_neg hSeen.1]
          apply ih hNames.2 hFields.2
          intro other hOther hMem
          rcases List.mem_cons.mp hMem with rfl | hEarlier
          · exact hNames.1 hOther
          · exact hSeen.2 other hOther hEarlier

/- An object is higher than the value of each slot. -/
theorem height_le_of_mem_slots
    {name : String}
    {value : Json}
    {slots : List (String × Option Json)}
    (hSlot : (name, some value) ∈ slots) :
    value.height ≤ Json.heightMembers (written slots) := by
  induction slots with
  | nil => simp at hSlot
  | cons slot slots ih =>
      rcases List.mem_cons.mp hSlot with rfl | hLater
      · exact Nat.le_max_left _ _
      · have hHeight := ih hLater
        rcases slot with ⟨other, _ | found⟩
        · exact hHeight
        · exact Nat.le_trans hHeight (Nat.le_max_right _ _)

------------------------------------------------------------
-- Objects
------------------------------------------------------------

/- The slots are those of the fields, each of them once. -/
structure Covers
    (layout : Layout)
    (slots : List (String × Option Json)) : Prop where
  names : slots.map Prod.fst = layout.fields
  distinct : layout.fields.Nodup

variable {α : Type}
variable {layout : Layout}
variable {slots : List (String × Option Json)}

/- An object is decoded exactly if it is built from members. -/
theorem decode_written_iff
    {build : Members → Decoded α}
    {value : α}
    (hSlots : layout.Covers slots) :
    layout.decode build (.obj (written slots)) = .ok value ↔
      build (.named (written slots)) = .good value := by
  have hRefused :
      Members.refused? layout [] 0 (written slots) = none := by
    refine refused?_written ?_ ?_ ?_
    · rw [hSlots.names]
      exact hSlots.distinct
    · rw [hSlots.names]
      exact fun _ hName => hName
    · exact fun _ _ => List.not_mem_nil
  have hCheck :
      Members.check layout (.named (written slots)) =
        .good () := by
    simp only [Members.check, hRefused]
  rw [decode, ofMembers, hCheck, Decoded.good_seqRight,
    Decoded.result_eq_ok_iff]

/-
  A field is decoded from the value of its slot, or takes its
  default if the slot is empty.
-/
theorem get_written_iff
    {name : String}
    {slot : Option Json}
    {decode : Decoder α}
    {absent unlisted : Option α}
    {value : α}
    (hSlots : layout.Covers slots)
    (hSlot : (name, slot) ∈ slots) :
    Members.get layout ⟨name, decode, absent, unlisted⟩
        (.named (written slots)) = .good value ↔
      (slot.elim (absent = some value)
        fun found => decode found = .ok value) := by
  have hNames : (slots.map Prod.fst).Nodup := by
    rw [hSlots.names]
    exact hSlots.distinct
  have hFound := find?_written hNames hSlot
  cases hFind : Members.find? name (written slots) with
  | none =>
      rw [hFind, Option.map_none] at hFound
      subst hFound
      cases absent <;> simp [Members.get, hFind]
  | some found =>
      rw [hFind, Option.map_some] at hFound
      subst hFound
      simp [Members.get, hFind]

/- A required field is decoded from its value. -/
theorem get_required_iff
    {name : String}
    {found : Json}
    {decode : Decoder α}
    {value : α}
    (hSlots : layout.Covers slots)
    (hSlot : (name, some found) ∈ slots) :
    Members.get layout (.required name decode)
        (.named (written slots)) = .good value ↔
      decode found = .ok value :=
  get_written_iff hSlots hSlot

/- An optional field is read back exactly if its value is. -/
theorem get_optional_iff
    {name : String}
    {decode : Decoder α}
    (write : α → Json)
    (value : Option α)
    (hSlots : layout.Covers slots)
    (hNull : ∀ found, write found ≠ .null)
    (hSlot : (name, value.map write) ∈ slots) :
    Members.get layout (.optional name decode)
        (.named (written slots)) = .good value ↔
      ∀ found ∈ value, decode (write found) = .ok found := by
  apply (get_written_iff hSlots hSlot).trans
  cases value with
  | none => simp
  | some found =>
      simp only [Option.map_some, Option.elim_some,
        Option.mem_some, forall_eq']
      rw [Decoder.nullable_of_ne_null (hNull found)]
      cases decode (write found) <;>
        simp [Functor.map, Except.map]

/- A list is read back exactly if all its values are. -/
theorem get_list_iff
    {name : String}
    {decode : Decoder α}
    (write : α → Json)
    (values : List α)
    (hSlots : layout.Covers slots)
    (hSlot : (name, Json.listSlot write values) ∈ slots) :
    Members.get layout (.list name decode)
        (.named (written slots)) = .good values ↔
      ∀ found ∈ values, decode (write found) = .ok found := by
  apply (get_written_iff hSlots hSlot).trans
  cases values with
  | nil => simp [Json.listSlot]
  | cons first others =>
      exact Decoder.mapM_map_eq_ok_iff

/- An optional word is always read back. -/
theorem get_optional_word
    {name : String}
    {value : Option UInt32}
    (hSlots : layout.Covers slots)
    (hSlot : (name, value.map Json.word) ∈ slots) :
    Members.get layout (.optional name .word)
        (.named (written slots)) = .good value :=
  (get_optional_iff Json.word value hSlots (fun _ => nofun)
    hSlot).mpr fun found _ => Decoder.word_word found

variable [Vocabulary α] [LawfulVocabulary α]

/- An optional word of a vocabulary is always read back. -/
theorem get_optional_code
    {name : String}
    {value : Option α}
    (hSlots : layout.Covers slots)
    (hSlot : (name, value.map Json.code) ∈ slots) :
    Members.get layout (.optional name .code)
        (.named (written slots)) = .good value :=
  (get_optional_iff Json.code value hSlots (fun _ => nofun)
    hSlot).mpr fun found _ => Decoder.code_code found

/- A list of words of a vocabulary is always read back. -/
theorem get_list_code
    {name : String}
    {values : List α}
    (hSlots : layout.Covers slots)
    (hSlot : (name, Json.listSlot Json.code values) ∈ slots) :
    Members.get layout (.list name .code)
        (.named (written slots)) = .good values :=
  (get_list_iff Json.code values hSlots hSlot).mpr
    fun found _ => Decoder.code_code found

end Layout

end StatusEffect
