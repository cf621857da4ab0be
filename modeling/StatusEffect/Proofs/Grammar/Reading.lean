import StatusEffect.Proofs.Grammar.Clause

/-
  Spelled clauses are read back.

  A clause reader is greedy and looks at most one token
  ahead. It therefore gives back what its tokens spell as
  soon as the token behind them cannot belong to the clause.
  In the order of the core this holds at each clause, so the
  core is read back whatever stands at its end.

  Key definitions include:
    * `Grammar.Avoids`

  Key theorems include:
    * `Grammar.condition_of_spells`
    * `Grammar.core_of_spells`
    * `Grammar.core_eq_read_iff`
-/

------------------------------------------------------------
-- The Next Token
------------------------------------------------------------

namespace StatusEffect

namespace Grammar

open Reader

/- The next token, if there is one, is of none of the kinds. -/
def Avoids
    (kinds : List TokenKind)
    (tokens : List Token) : Prop :=
  ∀ token ∈ tokens.head?, token.kind ∉ kinds

@[simp]
theorem avoids_nil
    (kinds : List TokenKind) :
    Avoids kinds [] := by
  simp [Avoids]

@[simp]
theorem avoids_cons
    (kinds : List TokenKind)
    (token : Token)
    (tokens : List Token) :
    Avoids kinds (token :: tokens) ↔
      token.kind ∉ kinds := by
  simp [Avoids]

/- Fewer kinds are avoided more easily. -/
theorem Avoids.mono
    {kinds fewer : List TokenKind}
    {tokens : List Token}
    (hAvoids : Avoids kinds tokens)
    (hFewer : fewer ⊆ kinds) :
    Avoids fewer tokens :=
  fun token hToken hMember =>
    hAvoids token hToken (hFewer hMember)

/- The start of a section avoids all other kinds. -/
theorem AtSection.avoids
    {kinds : List TokenKind}
    {tokens : List Token}
    (hSection : AtSection tokens)
    (hKinds : .delimiter ∉ kinds) :
    Avoids kinds tokens := by
  intro token hToken
  rw [hSection token hToken]
  exact hKinds

/- The kinds that the magnitude or the duration looks for. -/
def amountKinds : List TokenKind :=
  [.fullValue, .number, .percent, .rangeDash,
   .durationType]

/- The kinds that the trigger looks for. -/
def triggerKinds : List TokenKind :=
  [.triggerType, .triggerSign, .conditionSign,
   .comparison, .percent]

/- The kinds that some clause of the core looks for first. -/
def clauseKinds : List TokenKind :=
  .element :: amountKinds ++ triggerKinds

------------------------------------------------------------
-- Mandatory Clauses
------------------------------------------------------------

/- A spelled target is read back. -/
theorem target_of_spells
    {value : Target}
    {tokens : List Token}
    (hSpells : SpellsTarget value tokens)
    (stop : Nat)
    (rest : List Token) :
    target stop (tokens ++ rest) = .read value rest := by
  cases hSpells with
  | code hKind hCode => simp [target, hKind, hCode]

/- A spelled change is read back. -/
theorem change_of_spells
    {value : Change}
    {tokens : List Token}
    (hSpells : SpellsChange value tokens)
    (stop : Nat)
    (rest : List Token) :
    change stop (tokens ++ rest) = .read value rest := by
  cases hSpells with
  | code hCode => simp [change, expect, word, hCode]

/- A spelled subject is read back. -/
theorem subject_of_spells
    {value : Subject}
    {tokens : List Token}
    (hSpells : SpellsSubject value tokens)
    (stop : Nat)
    (rest : List Token) :
    subject stop (tokens ++ rest) = .read value rest := by
  cases hSpells with
  | stat hCode => simp [subject, hCode]
  | condition text offset => simp [subject]

------------------------------------------------------------
-- Magnitude And Duration
------------------------------------------------------------

/- A missing token of a kind is not eaten. -/
theorem eat?_of_avoids
    {kind : TokenKind}
    {tokens : List Token}
    (hAvoids : Avoids [kind] tokens)
    (stop : Nat) :
    eat? kind stop tokens = .read none tokens := by
  rw [eat?_eq_none_iff]
  refine ⟨rfl, ?_⟩
  intro token hToken
  simpa using hAvoids token hToken

/- A unit other than turns is not marked by the code of turns. -/
theorem code_ne_of_unitDuration?
    {text : String}
    {span : Span}
    {value : Duration}
    (hCode : Vocabulary.ofCode? text = some span)
    (hUnit : unitDuration? span = some value) :
    text ≠ Vocabulary.code Span.turns := by
  intro hSame
  subst hSame
  have hTurns :
      (Vocabulary.ofCode? (Vocabulary.code Span.turns) :
        Option Span) = some .turns := by
    decide
  rw [hTurns] at hCode
  cases hCode
  simp [unitDuration?] at hUnit

/- A spelled duration is read back. -/
theorem duration_of_spells
    {value : Option Duration}
    {tokens rest : List Token}
    (hSpells : SpellsDuration value tokens)
    (hRest : Avoids amountKinds rest)
    (stop : Nat) :
    duration stop (tokens ++ rest) = .read value rest := by
  cases hSpells with
  | absent =>
      cases rest with
      | nil => rfl
      | cons token rest =>
          simp [amountKinds] at hRest
          simp only [List.nil_append, duration]
          split
          · simp_all
          · simp_all
          · rfl
  | @unit text offset span value hCode hUnit =>
      cases span with
      | turns => simp [unitDuration?] at hUnit
      | combat => simp_all [duration, unitDuration?]
      | permanent => simp_all [duration, unitDuration?]
      | action => simp_all [duration, unitDuration?]
  | turns hNumeral =>
      simp only [List.cons_append, List.nil_append, duration,
        map_eq_read_iff, turns, bind_eq_read_iff,
        numeral_eq_read_iff]
      refine ⟨_, ⟨_, _, ⟨hNumeral, rfl⟩, none, _,
        eat?_of_avoids (by simp) stop, ?_⟩, rfl⟩
      simp [turnsMarker, isTurnsMarker]
  | range hFirst hLast hOrder =>
      simp only [List.cons_append, List.nil_append, duration,
        map_eq_read_iff, turns, bind_eq_read_iff,
        numeral_eq_read_iff]
      refine ⟨_, ⟨_, _, ⟨hFirst, rfl⟩, some _, _,
        eat?_eq_some_iff.mpr ⟨rfl, rfl⟩, ?_⟩, rfl⟩
      simp [number, numeral, expect, hLast, turnsMarker,
        isTurnsMarker, UInt32.not_lt.mpr hOrder]

/-
  A number that the tokens of a duration or of a later clause
  follow does not count turns itself.
-/
theorem countsTurns_of_spells
    {value : Option Duration}
    {tokens rest : List Token}
    (hSpells : SpellsDuration value tokens)
    (hRest : Avoids amountKinds rest) :
    countsTurns (tokens ++ rest) = false := by
  cases hSpells with
  | absent =>
      cases rest with
      | nil => rfl
      | cons token rest =>
          simp [amountKinds] at hRest
          simp [countsTurns, isTurnsMarker, hRest]
  | unit hCode hUnit =>
      have hText := code_ne_of_unitDuration? hCode hUnit
      simp [countsTurns, isTurnsMarker, hText]
  | turns hNumeral => simp [countsTurns, isTurnsMarker]
  | range hFirst hLast hOrder =>
      simp [countsTurns, isTurnsMarker]

/- A duration does not start with a percent sign. -/
theorem avoids_percent_of_spells
    {value : Option Duration}
    {tokens rest : List Token}
    (hSpells : SpellsDuration value tokens)
    (hRest : Avoids amountKinds rest) :
    Avoids [.percent] (tokens ++ rest) := by
  cases hSpells with
  | absent => exact hRest.mono (by simp [amountKinds])
  | unit hCode hUnit => simp
  | turns hNumeral => simp
  | range hFirst hLast hOrder => simp

/- A spelled magnitude is read back before a duration. -/
theorem magnitude_of_spells
    {value : Option Magnitude}
    {next : Option Duration}
    {tokens between rest : List Token}
    (hSpells : SpellsMagnitude value tokens)
    (hNext : SpellsDuration next between)
    (hRest : Avoids amountKinds rest)
    (stop : Nat) :
    magnitude stop (tokens ++ (between ++ rest)) =
      .read value (between ++ rest) := by
  cases hSpells with
  | absent =>
      cases hNext with
      | absent =>
          cases rest with
          | nil => rfl
          | cons token rest =>
              simp [amountKinds] at hRest
              simp only [List.nil_append, magnitude]
              split
              · simp_all
              · simp_all
              · rfl
      | unit hCode hUnit => simp [magnitude]
      | turns hNumeral =>
          simp [magnitude, countsTurns, isTurnsMarker]
      | range hFirst hLast hOrder =>
          simp [magnitude, countsTurns]
  | full text offset => simp [magnitude]
  | flat hNumeral =>
      have hTurns := countsTurns_of_spells hNext hRest
      have hPercent :=
        eat?_of_avoids
          (avoids_percent_of_spells hNext hRest) stop
      simp [magnitude, hTurns, numeral, hNumeral, hPercent]
  | percent hNumeral =>
      simp [magnitude, countsTurns, isTurnsMarker, numeral,
        hNumeral, eat?]

------------------------------------------------------------
-- Conditions And Triggers
------------------------------------------------------------

/- A spelled condition is read back. -/
theorem condition_of_spells
    {value : Condition}
    {tokens rest : List Token}
    (hSpells : SpellsCondition value tokens)
    (hRest : Avoids [.comparison, .percent] rest)
    (stop : Nat) :
    condition stop (tokens ++ rest) = .read value rest := by
  have hComparison :
      eat? .comparison stop rest = .read none rest :=
    eat?_of_avoids (hRest.mono (by simp)) stop
  have hPercent :
      eat? .percent stop rest = .read none rest :=
    eat?_of_avoids (hRest.mono (by simp)) stop
  cases hSpells with
  | flag name offset =>
      simp [condition, expect, hComparison]
  | number hNumeral =>
      simp only [condition, bind_eq_read_iff,
        expect_eq_read_iff, List.cons_append,
        List.nil_append]
      refine
        ⟨_, _, ⟨rfl, rfl⟩, some _, _,
          eat?_eq_some_iff.mpr ⟨rfl, rfl⟩, ?_⟩
      simp [conditionValue, numeral, hNumeral, hPercent]
  | percent hNumeral =>
      simp [condition, expect, eat?, conditionValue, numeral,
        hNumeral]
  | name name operator text offset place start =>
      simp [condition, expect, eat?, conditionValue]

/- A spelled trigger is read back. -/
theorem trigger_of_spells
    {value : Option Trigger}
    {tokens rest : List Token}
    (hSpells : SpellsTrigger value tokens)
    (hRest : Avoids triggerKinds rest)
    (stop : Nat) :
    trigger stop (tokens ++ rest) = .read value rest := by
  cases hSpells with
  | absent =>
      cases rest with
      | nil => rfl
      | cons token rest =>
          simp [triggerKinds] at hRest
          simp only [List.nil_append, trigger]
          split
          · simp_all
          · simp_all
          · simp_all
          · rfl
  | plain hEvent => simp [trigger, hEvent]
  | signed hCode =>
      simp only [List.cons_append, List.nil_append, trigger,
        map_eq_read_iff, signedEvent, bind_eq_read_iff,
        expect_eq_read_iff]
      exact ⟨_, ⟨_, _, ⟨rfl, rfl⟩, by simp [hCode]⟩, rfl⟩
  | chance hNumeral hBound =>
      simp only [List.cons_append, List.nil_append, trigger,
        map_eq_read_iff, chanceOrCondition, chance,
        bind_eq_read_iff, numeral_eq_read_iff,
        expect_eq_read_iff]
      refine
        ⟨_, ⟨_, ⟨_, _, ⟨hNumeral, rfl⟩, _, _, ⟨rfl, rfl⟩,
          ?_⟩, rfl⟩, rfl⟩
      simp [UInt32.not_lt.mpr hBound]
  | @condition sign offset test tokens hTest =>
      have hRead :=
        condition_of_spells hTest
          (hRest.mono (by simp [triggerKinds])) stop
      have hHead :
          ∃ name place others,
            tokens = ⟨.identifier, name, place⟩ :: others := by
        cases hTest with
        | flag name place => exact ⟨name, place, _, rfl⟩
        | number hNumeral => exact ⟨_, _, _, rfl⟩
        | percent hNumeral => exact ⟨_, _, _, rfl⟩
        | name name _ _ place _ _ => exact ⟨name, place, _, rfl⟩
      rcases hHead with ⟨name, place, others, rfl⟩
      simp only [List.cons_append, trigger, map_eq_read_iff,
        chanceOrCondition]
      exact ⟨_, ⟨_, hRead, rfl⟩, rfl⟩

------------------------------------------------------------
-- Elements
------------------------------------------------------------

/- Spelled further elements are read back. -/
theorem moreElements_of_spells
    {values : List Element}
    {tokens rest : List Token}
    (hSpells : SpellsMore values tokens)
    (hRest : Avoids [.comma] rest)
    (stop : Nat) :
    moreElements stop (tokens ++ rest) =
      .read values rest := by
  induction hSpells with
  | none =>
      cases rest with
      | nil => simp [moreElements]
      | cons token rest =>
          simp only [avoids_cons,
            List.mem_singleton] at hRest
          unfold moreElements
          simp [hRest]
  | more hCode hOthers ih =>
      simp [moreElements, element, expect, word, hCode, ih]

/-
  Spelled elements are read back. A comma may only follow if
  there are none.
-/
theorem elements_of_spells
    {values : List Element}
    {tokens rest : List Token}
    (hSpells : SpellsElements values tokens)
    (hRest : Avoids [.element] rest)
    (hComma : values ≠ [] → Avoids [.comma] rest)
    (stop : Nat) :
    elements stop (tokens ++ rest) = .read values rest := by
  cases hSpells with
  | absent =>
      cases rest with
      | nil => rfl
      | cons token rest =>
          simp at hRest
          simp [elements, hRest]
  | some hCode hOthers =>
      have hMore :=
        moreElements_of_spells hOthers (hComma (by simp)) stop
      simp only [List.cons_append, elements, if_true,
        bind_eq_read_iff, element_eq_read_iff]
      refine ⟨_, _, ⟨_, _, rfl, hCode⟩, ?_⟩
      exact bind_eq_read_iff.mpr ⟨_, _, hMore, rfl⟩

/- Elements before another kind start with none of the rest. -/
theorem avoids_of_spellsElements
    {values : List Element}
    {tokens rest : List Token}
    {kinds : List TokenKind}
    (hSpells : SpellsElements values tokens)
    (hKinds : .element ∉ kinds)
    (hRest : Avoids kinds rest) :
    Avoids kinds (tokens ++ rest) := by
  cases hSpells with
  | absent => exact hRest
  | some hCode hOthers => simpa using hKinds

/- A trigger does not start with an amount. -/
theorem avoids_of_spellsTrigger
    {value : Option Trigger}
    {tokens rest : List Token}
    (hSpells : SpellsTrigger value tokens)
    (hRest : Avoids amountKinds rest) :
    Avoids amountKinds (tokens ++ rest) := by
  cases hSpells with
  | absent => exact hRest
  | plain hEvent => simp [amountKinds]
  | signed hCode => simp [amountKinds]
  | chance hNumeral hBound => simp [amountKinds]
  | condition hTest => simp [amountKinds]

------------------------------------------------------------
-- Core
------------------------------------------------------------

/-
  A spelled core is read back up to its end, whatever stands
  there. A comma may only follow if there are no elements.
-/
theorem core_of_spells
    {effect : Effect}
    {tokens rest : List Token}
    (hSpells : SpellsCore effect tokens)
    (hRest : Avoids clauseKinds rest)
    (hComma : effect.elements ≠ [] → Avoids [.comma] rest)
    (stop : Nat) :
    core stop (tokens ++ rest) =
      (coreEnd >>= fun _ => pure effect) stop rest := by
  cases hSpells with
  | @clauses target change subject magnitude duration trigger
      elements first second third fourth fifth sixth last
      hTarget hChange hSubject hMagnitude hDuration hTrigger
      hElements =>
      have hAfterTrigger :
          Avoids triggerKinds (last ++ rest) :=
        avoids_of_spellsElements hElements (by decide)
          (hRest.mono (by decide))
      have hAfterDuration :
          Avoids amountKinds (sixth ++ (last ++ rest)) :=
        avoids_of_spellsTrigger hTrigger
          (avoids_of_spellsElements hElements (by decide)
            (hRest.mono (by decide)))
      simp [core, target_of_spells hTarget,
        change_of_spells hChange,
        subject_of_spells hSubject,
        magnitude_of_spells hMagnitude hDuration
          hAfterDuration,
        duration_of_spells hDuration hAfterDuration,
        trigger_of_spells hTrigger hAfterTrigger,
        elements_of_spells hElements
          (hRest.mono (by decide)) hComma]

/- The core reads exactly its spellings before a section. -/
theorem core_eq_read_iff
    {stop : Nat}
    {tokens rest : List Token}
    {effect : Effect} :
    core stop tokens = .read effect rest ↔
      ∃ used,
        tokens = used ++ rest ∧
          SpellsCore effect used ∧ AtSection rest := by
  constructor
  · exact spellsCore_of_core
  · intro hRead
    rcases hRead with ⟨used, rfl, hSpells, hSection⟩
    have hEnd : coreEnd stop rest = .read () rest :=
      coreEnd_eq_read_iff.mpr ⟨rfl, hSection⟩
    rw [core_of_spells hSpells
      (hSection.avoids (by decide))
      (fun _ => hSection.avoids (by decide))]
    simp [hEnd]

end Grammar

end StatusEffect
