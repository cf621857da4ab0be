import StatusEffect.Grammar.Extension

/-
  Records followed by others.

  What sections do to a record does not depend on it: they
  can extend a bare record instead, which is then put behind
  the record. Flags and conditions of the two add up, and of
  everything else the later one is kept. A chain target goes
  with its chain effect.

  Key definitions include:
    * `Effect.followedBy`
    * `Record.followedBy`

  Key theorems include:
    * `Record.extend_followedBy`
    * `Record.foldl_extend_eq_followedBy`
-/

------------------------------------------------------------
-- Later Effects
------------------------------------------------------------

namespace StatusEffect

namespace Effect

/-
  An effect, and what the sections of a later one say: lists
  add up, everything else is replaced if the later one has
  it. The core clauses stay.
-/
def followedBy (effect later : Effect) : Effect :=
  { effect with
    flags := effect.flags ++ later.flags
    removability :=
      later.removability.or effect.removability
    chainEffect := later.chainEffect.or effect.chainEffect
    source := later.source.or effect.source
    stacking := later.stacking.or effect.stacking
    visibility := later.visibility.or effect.visibility
    resource := later.resource.or effect.resource
    conditions := effect.conditions ++ later.conditions
    interaction := later.interaction.or effect.interaction
    metaEffect := later.metaEffect.or effect.metaEffect }

/- A section may be added before or after the two are joined. -/
theorem extend_followedBy
    (effect later : Effect)
    (value : Extension) :
    (effect.followedBy later).extend value =
      effect.followedBy (later.extend value) := by
  cases value <;> simp [followedBy, extend]

end Effect

------------------------------------------------------------
-- Later Records
------------------------------------------------------------

namespace Record

/-
  A record, and what the sections of a later one say. A
  chain target goes with the chain effect that leads to it.
-/
def followedBy (record later : Record) : Record where
  effect := record.effect.followedBy later.effect
  chain :=
    if later.effect.chainEffect.isSome then
      later.chain
    else
      record.chain

/- A section may be added before or after the two are joined. -/
theorem extend_followedBy
    (record later : Record)
    (value : Extension) :
    (record.followedBy later).extend value =
      record.followedBy (later.extend value) := by
  have hEffect :=
    record.effect.extend_followedBy later.effect value
  cases value with
  | chain word target =>
      have hWord :
          (later.effect.extend
            (.chain word target)).chainEffect = some word :=
        rfl
      simp [extend, followedBy, hEffect, withTarget, hWord]
  | _ =>
      simp only [extend, followedBy, hEffect]
      rfl

/-
  Extending a record is the same as extending a bare one and
  putting what comes out behind the record.
-/
theorem foldl_extend_eq_followedBy
    (record : Record)
    (target : Target)
    (change : Change)
    (subject : Subject)
    (values : List Extension) :
    values.foldl extend record =
      record.followedBy
        (values.foldl extend
          ⟨{ target, change, subject }, []⟩) := by
  have hBare :
      record.followedBy ⟨{ target, change, subject }, []⟩ =
        record := by
    simp [followedBy, Effect.followedBy]
  -- the bare record takes in the values one by one
  have hFold :
      ∀ later : Record,
        values.foldl extend (record.followedBy later) =
          record.followedBy (values.foldl extend later) := by
    induction values with
    | nil => simp
    | cons value values ih =>
        intro later
        rw [List.foldl_cons, List.foldl_cons,
          extend_followedBy, ih]
  have hAll := hFold ⟨{ target, change, subject }, []⟩
  rw [hBare] at hAll
  exact hAll

end Record

end StatusEffect
