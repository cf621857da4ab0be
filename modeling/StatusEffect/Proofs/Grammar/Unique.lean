import Mathlib.Logic.ExistsUnique
import StatusEffect.Proofs.Grammar.Reading

/-
  The core clauses fall apart in one way.

  Each clause of a core has tokens of its own. How many they
  are follows from what the clause says, except that a
  condition can be written as a bare name or be compared
  with the truth; what is left to it then follows from the
  other clauses. So no tokens can be spelled out clause by
  clause in two ways, although every clause but the first
  three may be missing and numbers can stand for more than
  one of them.

  Key definitions include:
    * `CoreTokens`
    * `CoreTokens.all`
    * `CoreTokens.Spell`

  Key theorems include:
    * `CoreTokens.Spell.eq_of_all_eq`
    * `Grammar.core_eq_read_iff_existsUnique`
-/

------------------------------------------------------------
-- Tokens Of Clauses
------------------------------------------------------------

namespace StatusEffect

open Grammar

/- The tokens of the core clauses, clause by clause. -/
@[ext]
structure CoreTokens where
  target : List Token
  change : List Token
  subject : List Token
  magnitude : List Token
  duration : List Token
  trigger : List Token
  elements : List Token

namespace CoreTokens

/- The tokens of all clauses, in their order. -/
def all (clauses : CoreTokens) : List Token :=
  clauses.target ++ (clauses.change ++ (clauses.subject ++
    (clauses.magnitude ++ (clauses.duration ++
      (clauses.trigger ++ clauses.elements)))))

/-
  Each clause of an effect is spelled by tokens of its own,
  and the effect says nothing else. The only event without a
  sign is `K`, and the only units that stand alone are `C`,
  `P` and `A`.
-/
structure Spell
    (clauses : CoreTokens)
    (effect : Effect) : Prop where
  target : SpellsTarget effect.target clauses.target
  change : SpellsChange effect.change clauses.change
  subject : SpellsSubject effect.subject clauses.subject
  magnitude :
    SpellsMagnitude effect.magnitude clauses.magnitude
  duration :
    SpellsDuration effect.duration clauses.duration
  trigger : SpellsTrigger effect.trigger clauses.trigger
  elements :
    SpellsElements effect.elements clauses.elements
  unit :
    ∀ token ∈ clauses.duration.head?,
      token.kind = .durationType →
        token.text ∈ ["C", "P", "A"]
  event :
    ∀ token ∈ clauses.trigger.head?,
      token.kind = .triggerType → token.text = "K"
  bare :
    effect =
      { target := effect.target
        change := effect.change
        subject := effect.subject
        magnitude := effect.magnitude
        duration := effect.duration
        trigger := effect.trigger
        elements := effect.elements }

end CoreTokens

------------------------------------------------------------
-- Lengths Of Clauses
------------------------------------------------------------

namespace Grammar

/- A target is one token. -/
theorem length_of_spellsTarget
    {value : Target}
    {tokens : List Token}
    (hSpells : SpellsTarget value tokens) :
    tokens.length = 1 := by
  cases hSpells
  rfl

/- A change is one token. -/
theorem length_of_spellsChange
    {value : Change}
    {tokens : List Token}
    (hSpells : SpellsChange value tokens) :
    tokens.length = 1 := by
  cases hSpells
  rfl

/- A subject is one token. -/
theorem length_of_spellsSubject
    {value : Subject}
    {tokens : List Token}
    (hSpells : SpellsSubject value tokens) :
    tokens.length = 1 := by
  cases hSpells <;> rfl

/- A magnitude takes the same number of tokens in any spelling. -/
theorem length_eq_of_spellsMagnitude
    {value : Option Magnitude}
    {first second : List Token}
    (hFirst : SpellsMagnitude value first)
    (hSecond : SpellsMagnitude value second) :
    first.length = second.length := by
  cases hFirst <;> cases hSecond <;> rfl

/- A duration takes the same number of tokens in any spelling. -/
theorem length_eq_of_spellsDuration
    {value : Option Duration}
    {first second : List Token}
    (hFirst : SpellsDuration value first)
    (hSecond : SpellsDuration value second) :
    first.length = second.length := by
  cases hFirst with
  | absent =>
      cases hSecond
      rfl
  | @unit text offset span value hCode hUnit =>
      cases span with
      | turns => simp [unitDuration?] at hUnit
      | combat =>
          cases hUnit
          cases hSecond
          rfl
      | permanent =>
          cases hUnit
          cases hSecond
          rfl
      | action =>
          cases hUnit
          cases hSecond
          rfl
  | turns hNumeral =>
      cases hSecond with
      | @unit text offset span value hCode hUnit =>
          cases span <;> simp [unitDuration?] at hUnit
      | turns hNumeral => rfl
  | range hFirst hLast hOrder =>
      cases hSecond with
      | @unit text offset span value hCode hUnit =>
          cases span <;> simp [unitDuration?] at hUnit
      | range hFirst hLast hOrder => rfl

/- Every further element takes two tokens. -/
theorem length_of_spellsMore
    {values : List Element}
    {tokens : List Token}
    (hSpells : SpellsMore values tokens) :
    tokens.length = 2 * values.length := by
  induction hSpells with
  | none => rfl
  | more hCode hOthers ih =>
      simp only [List.length_cons, ih]
      omega

/- Elements take as many tokens as their number says. -/
theorem length_of_spellsElements
    {values : List Element}
    {tokens : List Token}
    (hSpells : SpellsElements values tokens) :
    tokens.length = 2 * values.length - 1 := by
  cases hSpells with
  | absent => rfl
  | some hCode hOthers =>
      simp only [List.length_cons,
        length_of_spellsMore hOthers]
      omega

end Grammar

namespace CoreTokens

variable {clauses others : CoreTokens}
variable {effect : Effect}

/-
  Clauses with the same tokens in all, spelling the same
  effect, have the same tokens each.
-/
theorem Spell.eq_of_all_eq
    (hSpell : clauses.Spell effect)
    (hOthers : others.Spell effect)
    (hAll : clauses.all = others.all) :
    clauses = others := by
  have hTarget :
      clauses.target.length = others.target.length := by
    rw [length_of_spellsTarget hSpell.target,
      length_of_spellsTarget hOthers.target]
  have hChange :
      clauses.change.length = others.change.length := by
    rw [length_of_spellsChange hSpell.change,
      length_of_spellsChange hOthers.change]
  have hSubject :
      clauses.subject.length = others.subject.length := by
    rw [length_of_spellsSubject hSpell.subject,
      length_of_spellsSubject hOthers.subject]
  have hMagnitude :=
    length_eq_of_spellsMagnitude hSpell.magnitude
      hOthers.magnitude
  have hDuration :=
    length_eq_of_spellsDuration hSpell.duration
      hOthers.duration
  have hElements :
      clauses.elements.length = others.elements.length := by
    rw [length_of_spellsElements hSpell.elements,
      length_of_spellsElements hOthers.elements]
  unfold all at hAll
  rcases List.append_inj hAll hTarget with ⟨hFirst, hAll⟩
  rcases List.append_inj hAll hChange with ⟨hSecond, hAll⟩
  rcases List.append_inj hAll hSubject with ⟨hThird, hAll⟩
  rcases List.append_inj hAll hMagnitude with
    ⟨hFourth, hAll⟩
  rcases List.append_inj hAll hDuration with ⟨hFifth, hAll⟩
  -- the trigger has what the elements leave over
  rcases List.append_inj' hAll hElements with
    ⟨hSixth, hLast⟩
  exact
    CoreTokens.ext hFirst hSecond hThird hFourth hFifth
      hSixth hLast

end CoreTokens

------------------------------------------------------------
-- Words That Stand Alone
------------------------------------------------------------

namespace Grammar

/- A text that stands for a word is the code of the word. -/
theorem eq_code_of_ofCode?
    {α : Type}
    [Vocabulary α]
    {text : String}
    {word : α}
    (hCode : Vocabulary.ofCode? text = some word) :
    text = Vocabulary.code word := by
  have hFound := List.find?_some hCode
  exact (beq_iff_eq.mp hFound).symm

/- A unit that stands alone is not the one of turns. -/
theorem unit_of_spellsDuration
    {value : Option Duration}
    {tokens : List Token}
    (hSpells : SpellsDuration value tokens) :
    ∀ token ∈ tokens.head?,
      token.kind = .durationType →
        token.text ∈ ["C", "P", "A"] := by
  intro token hToken hKind
  cases hSpells with
  | absent => simp at hToken
  | @unit text offset span value hCode hUnit =>
      simp only [List.head?_cons,
        Option.mem_some_iff] at hToken
      subst hToken
      have hText := eq_code_of_ofCode? hCode
      cases span with
      | turns => simp [unitDuration?] at hUnit
      | combat => simp [hText, Vocabulary.code]
      | permanent => simp [hText, Vocabulary.code]
      | action => simp [hText, Vocabulary.code]
  | turns hNumeral =>
      simp only [List.head?_cons,
        Option.mem_some_iff] at hToken
      subst hToken
      cases hKind
  | range hFirst hLast hOrder =>
      simp only [List.head?_cons,
        Option.mem_some_iff] at hToken
      subst hToken
      cases hKind

/- The event that stands alone is the kill. -/
theorem event_of_spellsTrigger
    {value : Option Trigger}
    {tokens : List Token}
    (hSpells : SpellsTrigger value tokens) :
    ∀ token ∈ tokens.head?,
      token.kind = .triggerType → token.text = "K" := by
  intro token hToken hKind
  cases hSpells with
  | absent => simp at hToken
  | @plain text offset event hEvent =>
      simp only [List.head?_cons,
        Option.mem_some_iff] at hToken
      subst hToken
      rcases Option.filter_eq_some_iff.mp hEvent with
        ⟨hCode, hSign⟩
      have hText := eq_code_of_ofCode? hCode
      cases event with
      | onKill => exact hText
      | _ => simp [Event.needsSign] at hSign
  | signed hCode =>
      simp only [List.head?_cons,
        Option.mem_some_iff] at hToken
      subst hToken
      cases hKind
  | chance hNumeral hBound =>
      simp only [List.head?_cons,
        Option.mem_some_iff] at hToken
      subst hToken
      cases hKind
  | condition hTest =>
      simp only [List.head?_cons,
        Option.mem_some_iff] at hToken
      subst hToken
      cases hKind

------------------------------------------------------------
-- Core
------------------------------------------------------------

/- A core is spelled exactly if it has clauses that spell it. -/
theorem spellsCore_iff
    {effect : Effect}
    {tokens : List Token} :
    SpellsCore effect tokens ↔
      ∃ clauses : CoreTokens,
        clauses.all = tokens ∧ clauses.Spell effect := by
  constructor
  · intro hSpells
    cases hSpells with
    | @clauses target change subject magnitude duration
        trigger elements first second third fourth fifth
        sixth last hTarget hChange hSubject hMagnitude
        hDuration hTrigger hElements =>
        refine
          ⟨⟨first, second, third, fourth, fifth, sixth, last⟩,
            rfl, ?_⟩
        exact
          { target := hTarget
            change := hChange
            subject := hSubject
            magnitude := hMagnitude
            duration := hDuration
            trigger := hTrigger
            elements := hElements
            unit := unit_of_spellsDuration hDuration
            event := event_of_spellsTrigger hTrigger
            bare := rfl }
  · intro hClauses
    rcases hClauses with ⟨clauses, rfl, hSpell⟩
    rw [hSpell.bare]
    exact
      .clauses hSpell.target hSpell.change hSpell.subject
        hSpell.magnitude hSpell.duration hSpell.trigger
        hSpell.elements

/-
  The core clauses of any tokens are read, up to some rest,
  exactly if nothing or a section starts there and the
  tokens before it can be divided into clauses that spell
  the effect. They can then be divided in one way only.
-/
theorem core_eq_read_iff_existsUnique
    (stop : Nat)
    (tokens rest : List Token)
    (effect : Effect) :
    core stop tokens = .read effect rest ↔
      AtSection rest ∧
        ∃! clauses : CoreTokens,
          clauses.all ++ rest = tokens ∧
            clauses.Spell effect := by
  rw [core_eq_read_iff]
  constructor
  · intro hRead
    rcases hRead with ⟨used, rfl, hSpells, hRest⟩
    rcases spellsCore_iff.mp hSpells with
      ⟨clauses, rfl, hSpell⟩
    refine ⟨hRest, clauses, ⟨rfl, hSpell⟩, ?_⟩
    intro others hOthers
    have hAll := List.append_cancel_right hOthers.1
    exact hOthers.2.eq_of_all_eq hSpell hAll
  · intro hClauses
    rcases hClauses with
      ⟨hRest, clauses, ⟨rfl, hSpell⟩, _⟩
    exact
      ⟨clauses.all, rfl,
        spellsCore_iff.mpr ⟨clauses, rfl, hSpell⟩, hRest⟩

end Grammar

end StatusEffect
