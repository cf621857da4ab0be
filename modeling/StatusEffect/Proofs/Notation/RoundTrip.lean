import StatusEffect.Proofs.Grammar.Image
import StatusEffect.Proofs.Notation.Record

/-
  Notations and the records they express.

  A record that is written with a gap before every clause is
  read back, so that exactly the expressible records are
  read from some notation. The canonical notation leaves
  most gaps out. It is read back except where a condition
  runs into an element behind it.

  Key definitions include:
    * `Canonical.spaced`
    * `Effect.ClausesFit`

  Key theorems include:
    * `Effect.merges_needsGap_iff`
    * `Grammar.exists_parse_eq_ok_iff`
    * `Grammar.parse_canonical_iff`
    * `Grammar.parse_canonical_of_parse_iff`
-/

------------------------------------------------------------
-- Two Policies
------------------------------------------------------------

namespace StatusEffect

open Text Canonical

namespace Canonical

/- The policy of a gap before every clause. -/
def spaced (_before _part : String) : Bool := true

/- A gap before every clause is more than what is needed. -/
theorem covers_spaced : Covers spaced :=
  fun _ _ _ => rfl

/- The canonical notation has the gaps that it needs. -/
theorem covers_needsGap : Covers needsGap :=
  fun _ _ hNeeds => hNeeds

end Canonical

namespace Effect

/- Nothing merges across a gap. -/
theorem not_merges_spaced
    (effect : Effect) :
    ¬ effect.Merges spaced := by
  intro hMerges
  rcases hMerges with ⟨⟨_, test, hTest, _⟩, hGap⟩
  rcases Option.bind_eq_some_iff.mp hTest with
    ⟨trigger, hTrigger, _⟩
  have hNone := hGap trigger hTrigger
  simp [spaced] at hNone

/-
  In the canonical notation a condition that runs on is
  never kept apart from the elements.
-/
theorem merges_needsGap_iff
    {effect : Effect} :
    effect.Merges needsGap ↔ effect.RunsTogether := by
  constructor
  · exact fun hMerges => hMerges.1
  · intro hRuns
    refine ⟨hRuns, ?_⟩
    rcases hRuns with ⟨hElements, test, hTest, hOn⟩
    intro trigger hTrigger
    rcases List.exists_cons_of_ne_nil hElements with
      ⟨first, others, hCons⟩
    rw [hTrigger, Option.bind_some] at hTest
    cases trigger with
    | event kind => simp [Trigger.condition?] at hTest
    | chance percent => simp [Trigger.condition?] at hTest
    | condition found =>
        rw [hCons]
        rw [Trigger.condition?, Option.mem_some] at hTest
        subst hTest
        exact needsGap_of_runsOn hOn first others

end Effect

------------------------------------------------------------
-- Notations Of A Record
------------------------------------------------------------

namespace Grammar

/- With a gap before every clause a record is read back. -/
theorem parse_spaced
    {record : Record}
    (hRecord : record.Expressible) :
    parse (record.writtenWith spaced) = .ok record := by
  rw [parse_writtenWith_iff covers_spaced hRecord]
  exact fun part _ => part.effect.not_merges_spaced

/- A record is read from a text that is its spaced notation. -/
theorem parse_of_spaced
    {record : Record}
    {source : String}
    (hRecord : record.Expressible)
    (hSource : record.writtenWith spaced = source) :
    parse source = .ok record := by
  rw [← hSource]
  exact parse_spaced hRecord

/-
  Exactly the expressible records are read from a notation,
  whatever its length and spelling.
-/
theorem exists_parse_eq_ok_iff
    (record : Record) :
    (∃ source, parse source = .ok record) ↔
      record.Expressible := by
  constructor
  · intro hNotation
    rcases hNotation with ⟨source, hParse⟩
    exact expressible_of_parse hParse
  · intro hRecord
    exact ⟨record.writtenWith spaced, parse_spaced hRecord⟩

------------------------------------------------------------
-- The Canonical Notation
------------------------------------------------------------

/-
  The canonical notation of an expressible record is read
  back unless a condition runs into an element.
-/
theorem parse_canonical_of_expressible_iff
    {record : Record}
    (hRecord : record.Expressible) :
    parse record.canonical = .ok record ↔
      ∀ part ∈ record.parts, ¬ part.effect.RunsTogether := by
  rw [← record.writtenWith_needsGap,
    parse_writtenWith_iff covers_needsGap hRecord]
  simp only [Effect.merges_needsGap_iff]

/-
  The canonical notation of a record is read back exactly if
  the record has a notation at all and none of its
  conditions runs into an element.
-/
theorem parse_canonical_iff
    (record : Record) :
    parse record.canonical = .ok record ↔
      record.Expressible ∧
        ∀ part ∈ record.parts,
          ¬ part.effect.RunsTogether := by
  constructor
  · intro hParse
    have hRecord := expressible_of_parse hParse
    exact
      ⟨hRecord,
        (parse_canonical_of_expressible_iff hRecord).mp
          hParse⟩
  · intro hBoth
    rcases hBoth with ⟨hRecord, hApart⟩
    exact
      (parse_canonical_of_expressible_iff hRecord).mpr hApart

end Grammar

namespace Effect

/-
  The clauses of an effect fit the notation one by one, and
  those that are written next to each other stay apart.
-/
def ClausesFit (effect : Effect) : Prop :=
  effect.subject.Expressible ∧
    (∀ magnitude ∈ effect.magnitude,
      magnitude.Expressible) ∧
    (∀ duration ∈ effect.duration, duration.Ordered) ∧
    (∀ trigger ∈ effect.trigger, trigger.Bounded) ∧
    (∀ condition ∈ effect.allConditions,
      condition.Expressible) ∧
    ¬ effect.StartsWithFire ∧
    ¬ effect.RunsTogether

instance : DecidablePred ClausesFit :=
  fun effect =>
    inferInstanceAs
      (Decidable
        (effect.subject.Expressible ∧
          (∀ magnitude ∈ effect.magnitude,
            magnitude.Expressible) ∧
          (∀ duration ∈ effect.duration,
            duration.Ordered) ∧
          (∀ trigger ∈ effect.trigger, trigger.Bounded) ∧
          (∀ condition ∈ effect.allConditions,
            condition.Expressible) ∧
          ¬ effect.StartsWithFire ∧
          ¬ effect.RunsTogether))

end Effect

namespace Record

/- A limit on the stacks that names no count. -/
def uncounted : Record :=
  ⟨{ target := .player
     change := .increase
     subject := .stat .strength
     stacking := some ⟨.maxStacks, none⟩ }, []⟩

/- A chain target behind no chain effect. -/
def unchained : Record :=
  ⟨{ target := .player
     change := .increase
     subject := .stat .strength },
    [{ target := .enemy
       change := .decrease
       subject := .stat .defense }]⟩

/- A chain with one effect more than what is accepted. -/
def overlong : Record :=
  let link : Effect :=
    { target := .player
      change := .increase
      subject := .stat .strength
      chainEffect := some .spread }
  ⟨link, List.replicate (maxDepth + 1) link⟩

end Record

namespace Grammar

/- Fitting clauses do not make up for what has no notation. -/
theorem not_parse_canonical_iff_clausesFit
    {record : Record}
    (hFit : ∀ part ∈ record.parts, part.effect.ClausesFit)
    (hRecord : ¬ record.Expressible) :
    ¬ (parse record.canonical = .ok record ↔
      ∀ part ∈ record.parts, part.effect.ClausesFit) := by
  intro hIff
  exact hRecord (expressible_of_parse (hIff.mpr hFit))

/-
  Fitting clauses are not enough: the canonical notation is
  not read back for a limit on the stacks without a count,
  for a chain target without a chain effect, and for a chain
  that is longer than what is accepted.
-/
theorem clausesFit_not_sufficient :
    ¬ (parse Record.uncounted.canonical =
          .ok Record.uncounted ↔
        ∀ part ∈ Record.uncounted.parts,
          part.effect.ClausesFit) ∧
      ¬ (parse Record.unchained.canonical =
            .ok Record.unchained ↔
          ∀ part ∈ Record.unchained.parts,
            part.effect.ClausesFit) ∧
      ¬ (parse Record.overlong.canonical =
            .ok Record.overlong ↔
          ∀ part ∈ Record.overlong.parts,
            part.effect.ClausesFit) := by
  refine ⟨?_, ?_, ?_⟩
  · exact
      not_parse_canonical_iff_clausesFit (by decide)
        (by decide)
  · exact
      not_parse_canonical_iff_clausesFit (by decide)
        (by decide)
  · exact
      not_parse_canonical_iff_clausesFit (by decide)
        (by decide)

end Grammar

namespace Record

/- A loss of health that spreads to an enemy when it ends. -/
def spreading : Record :=
  ⟨{ target := .player
     change := .decrease
     subject := .stat .health
     magnitude := some (.percent 10)
     trigger := some (.condition (.flag "Hp_x"))
     elements := [.fire]
     chainEffect := some .spread },
    [{ target := .enemy
       change := .increase
       subject := .stat .strength
       trigger := some (.chance 25)
       elements := [.water] }]⟩

/- A condition that runs into an element. -/
def runningOn : Record :=
  ⟨{ target := .player
     change := .increase
     subject := .stat .strength
     trigger := some (.condition (.flag "H2"))
     elements := [.fire] }, []⟩

end Record

namespace Grammar

/-
  A parsed record is read back from its canonical notation
  exactly if none of its conditions runs into an element.
-/
theorem parse_canonical_of_parse_iff
    {source : String}
    {record : Record}
    (hParse : parse source = .ok record) :
    parse record.canonical = .ok record ↔
      ∀ part ∈ record.parts, ¬ part.effect.RunsTogether :=
  parse_canonical_of_expressible_iff
    (expressible_of_parse hParse)

/-
  A chance, a percentage and a chain are read back, and so
  is a condition that ends in a letter before an element.
-/
theorem parse_canonical_of_parse_spread :
    parse "P - H 10% ?Hp_x F.>Sprd(E + S ?25% W)" =
        .ok Record.spreading ∧
      parse Record.spreading.canonical =
        .ok Record.spreading := by
  have hParse :
      parse "P - H 10% ?Hp_x F.>Sprd(E + S ?25% W)" =
        .ok Record.spreading :=
    parse_of_spaced (by decide) (by decide)
  exact
    ⟨hParse,
      (parse_canonical_of_parse_iff hParse).mpr (by decide)⟩

/-
  A condition that ends in a digit is read as one name with
  the letter of the element behind it.
-/
theorem parse_canonical_ne_of_parse_digit :
    parse "P + S ?H2 F" = .ok Record.runningOn ∧
      parse Record.runningOn.canonical ≠
        .ok Record.runningOn := by
  have hParse :
      parse "P + S ?H2 F" = .ok Record.runningOn :=
    parse_of_spaced (by decide) (by decide)
  refine ⟨hParse, ?_⟩
  rw [ne_eq,
    parse_canonical_of_expressible_iff
      (expressible_of_parse hParse)]
  decide

end Grammar

end StatusEffect
