import StatusEffect.Proofs.Grammar.Reading
import StatusEffect.Proofs.Grammar.Section
import StatusEffect.Proofs.Notation.Ending

/-
  The written core is read back, or loses its elements.

  The clauses before the trigger are never continued by what
  stands behind them, under any policy for the gaps. The core
  is therefore read back as it was, unless trigger and
  elements merge. If they do, a core that is still read has
  no elements at all.

  Key definitions include:
    * `Effect.bare`
    * `SpellsFront`
    * `ReadsCore`

  Key theorems include:
    * `plain_of_spellsCore`
    * `scans_front`
    * `scans_core`
-/

------------------------------------------------------------
-- Clauses Before The Trigger
------------------------------------------------------------

namespace StatusEffect

open Text Grammar Canonical

/- The clauses of an effect before its trigger. -/
inductive SpellsFront (effect : Effect) : List Token → Prop where
  | clauses
      {first second third fourth fifth : List Token}
      (hTarget : SpellsTarget effect.target first)
      (hChange : SpellsChange effect.change second)
      (hSubject : SpellsSubject effect.subject third)
      (hMagnitude : SpellsMagnitude effect.magnitude fourth)
      (hDuration : SpellsDuration effect.duration fifth) :
      SpellsFront effect
        (first ++ (second ++ (third ++ (fourth ++ fifth))))

/- With a trigger and elements they make up a core. -/
theorem SpellsFront.core
    {effect : Effect}
    {front used others : List Token}
    {trigger : Option Trigger}
    {elements : List Element}
    (hFront : SpellsFront effect front)
    (hTrigger : SpellsTrigger trigger used)
    (hElements : SpellsElements elements others) :
    SpellsCore
      { target := effect.target
        change := effect.change
        subject := effect.subject
        magnitude := effect.magnitude
        duration := effect.duration
        trigger, elements }
      (front ++ (used ++ others)) := by
  cases hFront with
  | clauses hTarget hChange hSubject hMagnitude hDuration =>
      simp only [List.append_assoc]
      exact
        .clauses hTarget hChange hSubject hMagnitude hDuration
          hTrigger hElements

/- The duration is scanned before trigger and elements. -/
theorem scans_durationParts
    {gap : String → String → Bool}
    {before : String}
    {mode : Mode}
    {rest : List Char}
    {effect : Effect}
    {Ending : Mode → List Token → Prop}
    (hEffect : effect.Expressible)
    (hMode :
      (mode = .opening ∧ effect.magnitude = none) ∨
        mode = .core)
    (hEnding :
      ∀ before mode,
        (mode = .opening ∧ effect.magnitude = none ∧
          effect.duration = none) ∨ mode = .core →
          Scans 0 mode
            (joinAfterWith gap before
              effect.endingParts).toList rest Ending) :
    Scans 0 mode
      (joinAfterWith gap before
        ((effect.duration.map Duration.canonical).toList ++
          effect.endingParts)).toList rest
      fun later tokens =>
        ∃ used others,
          tokens = used ++ others ∧
            SpellsDuration effect.duration used ∧
              Ending later others := by
  cases hDuration : effect.duration with
  | none =>
      refine (hEnding before mode ?_).mono ?_
      · rcases hMode with ⟨hMode, hNone⟩ | hMode
        · exact .inl ⟨hMode, hNone, hDuration⟩
        · exact .inr hMode
      · intro later tokens hTokens
        exact ⟨[], tokens, rfl, .absent, hTokens⟩
  | some duration =>
      have hStart : mode = .opening ∨ mode = .core := by
        rcases hMode with hMode | hMode
        · exact .inl hMode.1
        · exact .inr hMode
      apply
        scans_part (clausal_duration duration)
          (scans_duration hStart
            (hEffect.duration duration hDuration))
      intro later used hScan
      rcases hScan with ⟨rfl, hSpells⟩
      apply (hEnding _ _ (.inr rfl)).mono
      intro later others hOthers
      exact ⟨used, others, rfl, hSpells, hOthers⟩

/- A flat magnitude is not continued by what is behind it. -/
theorem stops_isDecimalDigit_of_flat
    {gap : String → String → Bool}
    {parts : List String}
    {rest : List Char}
    (hGap : Covers gap)
    (hRest : AtBoundary rest)
    (hParts : ∀ part ∈ parts, Clausal part)
    (value : UInt32) :
    Stops isDecimalDigit
      ((joinAfterWith gap (wordDecimal value)
        parts).toList ++ rest) := by
  apply
    stops_joined hRest (by decide) (by decide) (by decide)
      hParts
  intro part hPart hNone
  have hNeeds := hGap.needsGap_eq_false hNone
  rcases hParts part (List.mem_of_mem_head? hPart) with
    ⟨c, cs, hText, _, hHigh, _⟩
  have hLast :
      ∃ last,
        (wordDecimal value).toList.getLast? = some last ∧
          isAsciiDigit last = true := by
    have hDigits := all_isAsciiDigit_wordDecimal value
    refine
      ⟨_, List.getLast?_eq_some_getLast
        (wordDecimal_ne_nil value), ?_⟩
    exact
      List.all_eq_true.mp hDigits _
        (List.getLast_mem (wordDecimal_ne_nil value))
  rcases hLast with ⟨last, hLast, hDigit⟩
  have hNext :=
    isAsciiDigit_of_needsGap hLast hText hNeeds hDigit
  rw [hText]
  apply stops_of_cons
  rw [isDecimalDigit_of_lt (by omega)]
  exact hNext

/- The magnitude is scanned before the clauses behind it. -/
theorem scans_optionalParts
    {gap : String → String → Bool}
    {before : String}
    {rest : List Char}
    {effect : Effect}
    {Ending : Mode → List Token → Prop}
    (hGap : Covers gap)
    (hRest : AtBoundary rest)
    (hEffect : effect.Expressible)
    (hEnding :
      ∀ before mode,
        (mode = .opening ∧ effect.magnitude = none ∧
          effect.duration = none) ∨ mode = .core →
          Scans 0 mode
            (joinAfterWith gap before
              effect.endingParts).toList rest Ending) :
    Scans 0 .opening
      (joinAfterWith gap before effect.optionalParts).toList
      rest
      fun later tokens =>
        ∃ first second others,
          tokens = first ++ (second ++ others) ∧
            SpellsMagnitude effect.magnitude first ∧
              SpellsDuration effect.duration second ∧
                Ending later others := by
  have hClausal := effect.clausal_of_mem_optionalParts
  simp only [Effect.optionalParts,
    List.forall_mem_append] at hClausal
  unfold Effect.optionalParts
  cases hMagnitude : effect.magnitude with
  | none =>
      apply
        (scans_durationParts hEffect (.inl ⟨rfl, hMagnitude⟩)
          hEnding).mono
      intro later tokens hScan
      rcases hScan with
        ⟨used, others, rfl, hSpells, hOthers⟩
      exact
        ⟨[], used, others, rfl, .absent, hSpells, hOthers⟩
  | some magnitude =>
      have hDigit :
          magnitude = .flat magnitude.value →
            Stops isDecimalDigit
              ((joinAfterWith gap magnitude.canonical
                ((effect.duration.map
                  Duration.canonical).toList ++
                  effect.endingParts)).toList ++ rest) := by
        intro hFlat
        have hText :
            magnitude.canonical =
              wordDecimal magnitude.value := by
          rw [hFlat]
          rfl
        rw [hText]
        refine stops_isDecimalDigit_of_flat hGap hRest ?_ _
        rw [List.forall_mem_append]
        exact hClausal.2
      apply
        scans_part (clausal_magnitude magnitude)
          (scans_magnitude
            (hEffect.magnitude magnitude hMagnitude) hDigit)
      intro later used hScan
      rcases hScan with ⟨rfl, hSpells⟩
      apply
        (scans_durationParts hEffect (.inr rfl) hEnding).mono
      intro later tokens hScan
      rcases hScan with
        ⟨between, others, rfl, hNext, hOthers⟩
      exact
        ⟨used, between, others, rfl, hSpells, hNext, hOthers⟩

/- A named condition ends with a letter, behind others. -/
theorem exists_getLast?_of_condition
    {name : String}
    (hName : (Subject.condition name).Expressible) :
    ∃ last,
      name.toList.getLast? = some last ∧
        isLetter last = true ∧ 1 < name.toList.length := by
  rcases hName with hHash | hCapital
  · rcases exists_eq_of_isHashWord hHash with
      ⟨c, cs, hChars, hFirst, hOthers⟩
    have hLetters : ∀ d ∈ c :: cs, isLetter d = true := by
      rw [List.forall_mem_cons]
      exact ⟨hFirst, List.all_eq_true.mp hOthers⟩
    rw [hChars]
    refine
      ⟨(c :: cs).getLast (by simp), ?_,
        hLetters _ (List.getLast_mem _), by simp⟩
    rw [List.getLast?_cons_cons]
    exact List.getLast?_eq_some_getLast (by simp)
  · rcases exists_eq_of_isCapitalWord hCapital with
      ⟨c, d, e, cs, hChars, _, _, hThird, hOthers⟩
    have hLetters : ∀ f ∈ e :: cs, isLetter f = true := by
      have hLower : ∀ f ∈ e :: cs, isLower f = true := by
        rw [List.forall_mem_cons]
        exact ⟨hThird, List.all_eq_true.mp hOthers⟩
      intro f hf
      simp [isLetter, hLower f hf]
    rw [hChars]
    refine
      ⟨(e :: cs).getLast (by simp), ?_,
        hLetters _ (List.getLast_mem _), by simp⟩
    rw [List.getLast?_cons_cons, List.getLast?_cons_cons]
    exact List.getLast?_eq_some_getLast (by simp)

/- A named condition is not continued by what is behind it. -/
theorem stops_isLetter_of_condition
    {gap : String → String → Bool}
    {name : String}
    {parts : List String}
    {rest : List Char}
    (hGap : Covers gap)
    (hRest : AtBoundary rest)
    (hName : (Subject.condition name).Expressible)
    (hParts : ∀ part ∈ parts, Clausal part) :
    Stops isLetter
      ((joinAfterWith gap name parts).toList ++ rest) := by
  rcases exists_getLast?_of_condition hName with
    ⟨last, hLast, hLetter, hLong⟩
  apply
    stops_joined hRest (by decide) (by decide) (by decide)
      hParts
  intro part hPart hNone
  have hNeeds := hGap.needsGap_eq_false hNone
  rcases hParts part (List.mem_of_mem_head? hPart) with
    ⟨c, cs, hText, _⟩
  rw [hText]
  exact
    stops_of_cons
      (isLetter_of_needsGap hLast hText hNeeds hLong hLetter)

/- The core is scanned up to its trigger, and then its end. -/
theorem scans_front
    {gap : String → String → Bool}
    {rest : List Char}
    {effect : Effect}
    {Ending : Mode → List Token → Prop}
    (hGap : Covers gap)
    (hRest : AtBoundary rest)
    (hEffect : effect.Expressible)
    (hEnding :
      ∀ before mode,
        (mode = .opening ∧ effect.magnitude = none ∧
          effect.duration = none) ∨ mode = .core →
          Scans 0 mode
            (joinAfterWith gap before
              effect.endingParts).toList rest Ending) :
    Scans 0 .target
      (joinWith gap effect.coreParts).toList rest
      fun later tokens =>
        ∃ front others,
          tokens = front ++ others ∧
            SpellsFront effect front ∧
              Ending later others := by
  have hClausal := effect.clausal_of_mem_optionalParts
  rw [Effect.coreParts_eq, joinWith, String.toList_append]
  apply (scans_target effect.target).append
  intro later first hScan
  rcases hScan with ⟨rfl, hTarget⟩
  apply
    scans_part (clausal_change effect.change)
      (scans_change effect.change)
  intro later second hScan
  rcases hScan with ⟨rfl, hChange⟩
  refine
    scans_part (clausal_subject hEffect.subject)
      (scans_subject hEffect.subject
        (startsSmall_joined hRest hClausal) ?_) ?_
  · intro name hName
    have hSubject := hEffect.subject
    rw [hName] at hSubject ⊢
    exact
      stops_isLetter_of_condition hGap hRest hSubject hClausal
  intro later third hScan
  rcases hScan with ⟨rfl, hSubject⟩
  apply
    (scans_optionalParts hGap hRest hEffect hEnding).mono
  intro later tokens hScan
  rcases hScan with
    ⟨fourth, fifth, others, rfl, hMagnitude, hDuration,
      hOthers⟩
  refine
    ⟨_, others, ?_,
      .clauses hTarget hChange hSubject hMagnitude hDuration,
      hOthers⟩
  simp only [List.append_assoc]

------------------------------------------------------------
-- Plain Tokens
------------------------------------------------------------

/- A condition has no points and parentheses. -/
theorem plain_of_spellsCondition
    {value : Condition}
    {tokens : List Token}
    (hSpells : SpellsCondition value tokens) :
    Section.Plain tokens := by
  cases hSpells <;> simp [Section.Plain]

/- Further elements have no points and parentheses. -/
theorem plain_of_spellsMore
    {values : List Element}
    {tokens : List Token}
    (hSpells : SpellsMore values tokens) :
    Section.Plain tokens := by
  induction hSpells with
  | none => simp [Section.Plain]
  | more hCode hOthers ih =>
      simp only [Section.Plain, List.forall_mem_cons]
      exact ⟨by simp, by simp, ih⟩

/- A core has no points and parentheses. -/
theorem plain_of_spellsCore
    {effect : Effect}
    {tokens : List Token}
    (hSpells : SpellsCore effect tokens) :
    Section.Plain tokens := by
  cases hSpells with
  | clauses hTarget hChange hSubject hMagnitude hDuration
      hTrigger hElements =>
      refine
        .append ?_ (.append ?_ (.append ?_ (.append ?_
          (.append ?_ (.append ?_ ?_)))))
      · cases hTarget with
        | code hKind hCode =>
            rcases hKind with rfl | rfl <;>
              simp [Section.Plain]
      · cases hChange
        simp [Section.Plain]
      · cases hSubject <;> simp [Section.Plain]
      · cases hMagnitude <;> simp [Section.Plain]
      · cases hDuration <;> simp [Section.Plain]
      · cases hTrigger with
        | condition hTest =>
            have hPlain := plain_of_spellsCondition hTest
            simp only [Section.Plain, List.forall_mem_cons]
            exact ⟨by simp, hPlain⟩
        | _ => simp [Section.Plain]
      · cases hElements with
        | absent => simp [Section.Plain]
        | some hCode hOthers =>
            have hPlain := plain_of_spellsMore hOthers
            simp only [Section.Plain, List.forall_mem_cons]
            exact ⟨by simp, hPlain⟩

------------------------------------------------------------
-- The Whole Core
------------------------------------------------------------

namespace Effect

/- An effect without its sections. -/
def bare (effect : Effect) : Effect where
  target := effect.target
  change := effect.change
  subject := effect.subject
  magnitude := effect.magnitude
  duration := effect.duration
  trigger := effect.trigger
  elements := effect.elements

end Effect

/- A merged core that is read has lost its elements. -/
theorem elements_of_core_merged
    {effect other : Effect}
    {trigger : Trigger}
    {elements : List Element}
    {front used more rest left : List Token}
    {stop : Nat}
    (hFront : SpellsFront effect front)
    (hTrigger : SpellsTrigger (some trigger) used)
    (hMore : SpellsMore elements more)
    (hRest : AtSection rest)
    (hRead :
      core stop (front ++ (used ++ more) ++ rest) =
        .read other left) :
    other.elements = [] := by
  have hSpells := hFront.core hTrigger .absent
  have hTokens :
      front ++ (used ++ more) ++ rest =
        front ++ (used ++ []) ++ (more ++ rest) := by
    simp
  have hAvoids : Avoids clauseKinds (more ++ rest) := by
    cases hMore with
    | none => exact hRest.avoids (by decide)
    | more hCode hOthers =>
        simp [clauseKinds, amountKinds, triggerKinds]
  rw [hTokens,
    core_of_spells hSpells hAvoids (fun h => absurd rfl h),
    Reader.bind_eq_read_iff] at hRead
  rcases hRead with ⟨_, _, _, hPure⟩
  simp only [Reader.pure_apply, Outcome.read.injEq] at hPure
  rw [← hPure.1]

/-
  Tokens are read as the core of an effect before any
  sections, or lose its elements if they merge.
-/
structure ReadsCore
    (gap : String → String → Bool)
    (effect : Effect)
    (tokens : List Token) : Prop where
  kept :
    ¬ effect.Merges gap →
      ∀ stop others,
        AtSection others →
          core stop (tokens ++ others) =
            .read effect.bare others
  lost :
    effect.Merges gap →
      ∀ stop others,
        AtSection others →
          ∀ other left,
            core stop (tokens ++ others) =
              .read other left →
              other.elements = []

/- The text of a core is scanned into its plain tokens. -/
theorem scans_core
    {gap : String → String → Bool}
    {rest : List Char}
    {effect : Effect}
    (hGap : Covers gap)
    (hRest : AtBoundary rest)
    (hEffect : effect.Expressible) :
    Scans 0 .target
      (joinWith gap effect.coreParts).toList rest
      fun later tokens =>
        later.Settled ∧ Section.Plain tokens ∧
          ReadsCore gap effect tokens := by
  by_cases hMerges : effect.Merges gap
  · refine
      (scans_front hGap hRest hEffect fun before mode hMode =>
        scans_merged hRest hEffect hMerges ?_).mono ?_
    · rcases hMode with hMode | hMode
      · exact .inl hMode.1
      · exact .inr hMode
    intro later tokens hScan
    rcases hScan with
      ⟨front, _, rfl, hFront, hLater, trigger, used,
        elements, more, rfl, hTrigger, hMore⟩
    have hPlain :=
      plain_of_spellsCore (hFront.core hTrigger .absent)
    rw [List.append_nil] at hPlain
    refine ⟨hLater, ?_, fun hNot => absurd hMerges hNot, ?_⟩
    · rw [← List.append_assoc]
      exact hPlain.append (plain_of_spellsMore hMore)
    · intro _ stop others hOthers other left hRead
      exact
        elements_of_core_merged hFront hTrigger hMore hOthers
          hRead
  · apply
      (scans_front hGap hRest hEffect fun before mode hMode =>
        scans_ending hGap hRest hEffect hMerges hMode).mono
    intro later tokens hScan
    rcases hScan with
      ⟨front, _, rfl, hFront, hLater, used, more, rfl,
        hTrigger, hElements⟩
    have hSpells := hFront.core hTrigger hElements
    refine
      ⟨hLater, plain_of_spellsCore hSpells, ?_,
        fun h => absurd h hMerges⟩
    intro _ stop others hOthers
    exact core_eq_read_iff.mpr ⟨_, rfl, hSpells, hOthers⟩

end StatusEffect
