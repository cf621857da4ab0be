import StatusEffect.Proofs.Notation.Join

/-
  Trigger and elements, the end of the core.

  Only the condition of a trigger can be continued by what is
  written behind it, which is the letter of an element. The
  canonical notation has a gap there if the condition ends
  with a letter. If it ends with a low line or a digit there
  is none: then the letter is read as part of the name, and
  the further elements are left over.

  Key definitions include:
    * `Effect.endingParts`
    * `Effect.Merges`
    * `Condition.runInto`

  Key theorems include:
    * `needsGap_of_not_runsOn`
    * `needsGap_of_runsOn`
    * `scans_ending`
    * `scans_merged`
-/

------------------------------------------------------------
-- Parts Of The Core
------------------------------------------------------------

namespace StatusEffect

open Text Grammar Canonical

namespace Mode

/- A mode in which a section or a parenthesis is due. -/
def Settled (mode : Mode) : Prop :=
  mode = .opening ∨ mode = .core ∨ mode = .operator

end Mode

namespace Effect

/- The text of the elements, if there are any. -/
def elementParts (effect : Effect) : List String :=
  if effect.elements.isEmpty then
    []
  else
    [elementsText effect.elements]

/- The texts of trigger and elements. -/
def endingParts (effect : Effect) : List String :=
  (effect.trigger.map Trigger.canonical).toList ++
    effect.elementParts

/- The texts behind the subject. -/
def optionalParts (effect : Effect) : List String :=
  (effect.magnitude.map Magnitude.canonical).toList ++
    ((effect.duration.map Duration.canonical).toList ++
      effect.endingParts)

/- The core has three mandatory parts, and optional ones. -/
theorem coreParts_eq
    (effect : Effect) :
    effect.coreParts =
      Vocabulary.code effect.target ::
        Vocabulary.code effect.change ::
          effect.subject.render :: effect.optionalParts := by
  simp [coreParts, optionalParts, endingParts, elementParts,
    elementsText]

/- The text of the elements may follow a subject. -/
theorem clausal_of_mem_elementParts
    (effect : Effect) :
    ∀ part ∈ effect.elementParts, Clausal part := by
  unfold elementParts
  cases effect.elements with
  | nil => simp
  | cons first others =>
      simpa using clausal_elements first others

/- The optional texts may all follow a subject. -/
theorem clausal_of_mem_optionalParts
    (effect : Effect) :
    ∀ part ∈ effect.optionalParts, Clausal part := by
  simp only [optionalParts, endingParts,
    List.forall_mem_append]
  refine ⟨?_, ?_, ?_, effect.clausal_of_mem_elementParts⟩
  · cases effect.magnitude with
    | none => simp
    | some magnitude => simpa using clausal_magnitude magnitude
  · cases effect.duration with
    | none => simp
    | some duration => simpa using clausal_duration duration
  · cases effect.trigger with
    | none => simp
    | some trigger => simpa using clausal_trigger trigger

/-
  Trigger and elements run together, and the policy has no
  gap between them.
-/
def Merges
    (gap : String → String → Bool)
    (effect : Effect) : Prop :=
  effect.RunsTogether ∧
    ∀ trigger ∈ effect.trigger,
      gap trigger.canonical
        (elementsText effect.elements) = false

end Effect

------------------------------------------------------------
-- Names At The End Of A Condition
------------------------------------------------------------

/- The last character of a name can be part of a name. -/
theorem exists_getLast?_of_isName
    {name : String}
    (hName : isName name = true) :
    ∃ last,
      name.toList.getLast? = some last ∧
        isNameChar last = true := by
  rcases exists_eq_of_isName hName with
    ⟨c, cs, hChars, hFirst, hOthers⟩
  rw [hChars]
  refine ⟨(c :: cs).getLast (by simp), ?_, ?_⟩
  · exact List.getLast?_eq_some_getLast (by simp)
  · have hMember : (c :: cs).getLast (by simp) ∈ c :: cs :=
      List.getLast_mem (by simp)
    rcases List.mem_cons.mp hMember with hLast | hLast
    · rw [hLast]
      exact isNameChar_of_isNameStart hFirst
    · exact List.all_eq_true.mp hOthers _ hLast

/- A condition that ends in a name ends as that name does. -/
theorem exists_render_eq_of_endsInName
    {test : Condition}
    (hTest : test.Expressible)
    (hEnds : test.endsInName = true) :
    ∃ before name,
      test.render.toList = before ++ name.toList ∧
        isName name = true ∧
          (test.closingName? = some name ∨
            ∃ last,
              name.toList.getLast? = some last ∧
                isLetter last = true) := by
  rcases hTest with ⟨hAttribute, hOperator, hValue⟩
  cases hFlag : test.isFlag with
  | true =>
      refine ⟨[], test.name, ?_, hAttribute, .inl ?_⟩
      · simp [Condition.render, hFlag]
      · simp [Condition.closingName?, hFlag]
  | false =>
      have hNumber : ∀ n, test.value ≠ .number n := by
        intro n hn
        simp [Condition.endsInName, hn] at hEnds
      rcases nameValue_render hValue hNumber with
        ⟨hFlat, hName, _⟩
      refine
        ⟨test.name.toList ++ test.operator.toList,
          test.value.render, ?_, hName, ?_⟩
      · simp [toList_render_of_not_isFlag hFlag, hFlat,
          percentSign]
      · cases hWord : test.value with
        | number n => exact absurd hWord (hNumber n)
        | text word =>
            left
            simp [Condition.closingName?, hFlag, hWord,
              hFlat, ConditionValue.render]
        | truth value =>
            right
            refine ⟨'e', ?_, by decide⟩
            cases value <;> rfl

/-
  A condition that ends in a name and does not run on ends
  with a letter.
-/
theorem exists_getLast?_of_not_runsOn
    {test : Condition}
    (hTest : test.Expressible)
    (hEnds : test.endsInName = true)
    (hRuns : test.runsOn = false) :
    ∃ last,
      test.render.toList.getLast? = some last ∧
        isLetter last = true := by
  rcases exists_render_eq_of_endsInName hTest hEnds with
    ⟨before, name, hRender, hName, hLast⟩
  rcases exists_getLast?_of_isName hName with
    ⟨last, hGetLast, hChar⟩
  have hRenderLast :
      test.render.toList.getLast? = some last := by
    rw [hRender, List.getLast?_append, hGetLast]
    rfl
  refine ⟨last, hRenderLast, ?_⟩
  rcases hLast with hClosing | ⟨other, hOther, hLetter⟩
  · simp only [Condition.runsOn, hClosing, Option.bind_some,
      hGetLast, Option.any_some,
      Bool.or_eq_false_iff] at hRuns
    simp only [isNameChar, hRuns, Bool.or_false] at hChar
    exact hChar
  · rw [hGetLast, Option.some.injEq] at hOther
    rw [hOther]
    exact hLetter

namespace Condition

/- The condition whose last name a letter continues. -/
def runInto
    (test : Condition)
    (letter : Char) : Condition :=
  if test.isFlag then
    { test with name := test.name.push letter }
  else
    match test.value with
    | .text word =>
        { test with value := .text (word.push letter) }
    | _ => test

/- The name of a flag is continued. -/
theorem runInto_of_isFlag
    {test : Condition}
    (hFlag : test.isFlag = true)
    (letter : Char) :
    test.runInto letter =
      { test with name := test.name.push letter } := by
  simp [runInto, hFlag]

/- The name that is compared with is continued. -/
theorem runInto_of_text
    {test : Condition}
    {word : String}
    (hFlag : test.isFlag = false)
    (hValue : test.value = .text word)
    (letter : Char) :
    test.runInto letter =
      { test with value := .text (word.push letter) } := by
  simp [runInto, hFlag, hValue]

/- A name that a capital letter continues is a name. -/
theorem isName_push
    {name : String}
    {letter : Char}
    (hName : isName name = true)
    (hLetter : isUpper letter = true) :
    isName (name.push letter) = true := by
  rcases exists_eq_of_isName hName with
    ⟨c, cs, hChars, hFirst, hOthers⟩
  have hChar : isNameChar letter = true := by
    simp [isNameChar, isLetter, hLetter]
  simp [isName, hChars, hFirst, hOthers, hChar]

/- A condition runs on as a flag or with a name as its value. -/
theorem isFlag_or_text_of_runsOn
    {test : Condition}
    (hRuns : test.runsOn = true) :
    test.isFlag = true ∨
      test.isFlag = false ∧
        ∃ word,
          test.value = .text word ∧
            test.isPercentage = false := by
  cases hFlag : test.isFlag with
  | true => exact .inl rfl
  | false =>
      refine .inr ⟨rfl, ?_⟩
      cases hValue : test.value with
      | truth value =>
          simp [runsOn, closingName?, hFlag, hValue] at hRuns
      | number n =>
          simp [runsOn, closingName?, hFlag, hValue] at hRuns
      | text word =>
          cases hPercent : test.isPercentage with
          | true =>
              simp [runsOn, closingName?, hFlag, hValue,
                hPercent] at hRuns
          | false => exact ⟨word, rfl, rfl⟩

/- A condition that runs on is written with the letter behind it. -/
theorem toList_render_runInto
    {test : Condition}
    (hRuns : test.runsOn = true)
    (letter : Char) :
    (test.runInto letter).render.toList =
      test.render.toList ++ [letter] := by
  rcases isFlag_or_text_of_runsOn hRuns with
    hFlag | ⟨hFlag, word, hValue, hFlat⟩
  · rw [runInto_of_isFlag hFlag]
    have hStill :
        isFlag { test with name := test.name.push letter } =
          true := hFlag
    simp [render, hStill, hFlag]
  · rw [runInto_of_text hFlag hValue,
      toList_render_of_not_isFlag hFlag,
      toList_render_of_not_isFlag (by simp [isFlag])]
    simp [hValue, hFlat, percentSign, ConditionValue.render]

/- A condition that a capital letter continues is expressible. -/
theorem expressible_runInto
    {test : Condition}
    {letter : Char}
    (hTest : test.Expressible)
    (hRuns : test.runsOn = true)
    (hLetter : isUpper letter = true) :
    (test.runInto letter).Expressible := by
  rcases hTest with ⟨hAttribute, hOperator, hValue⟩
  rcases isFlag_or_text_of_runsOn hRuns with
    hFlag | ⟨hFlag, word, hWord, hFlat⟩
  · rw [runInto_of_isFlag hFlag]
    exact
      ⟨isName_push hAttribute hLetter, hOperator, hValue⟩
  · rw [hWord] at hValue
    rw [runInto_of_text hFlag hWord]
    refine
      ⟨hAttribute, hOperator, hFlat,
        isName_push hValue.2.1 hLetter, ?_, ?_⟩
    · intro hTrue
      have hLast := congrArg (·.toList.getLast?) hTrue
      simp at hLast
      rw [hLast] at hLetter
      exact absurd hLetter (by decide)
    · intro hFalse
      have hLast := congrArg (·.toList.getLast?) hFalse
      simp at hLast
      rw [hLast] at hLetter
      exact absurd hLetter (by decide)

end Condition

------------------------------------------------------------
-- Trigger And Elements
------------------------------------------------------------

/- The elements of an effect are scanned as such. -/
theorem scans_elementParts
    {gap : String → String → Bool}
    {before : String}
    {mode : Mode}
    {rest : List Char}
    {effect : Effect}
    (hMode :
      (mode = .opening ∧
        effect.elements.head? ≠ some .fire) ∨
        mode = .core ∨ mode = .operator) :
    Scans 0 mode
      (joinAfterWith gap before effect.elementParts).toList
      rest
      fun later tokens =>
        later.Settled ∧
          SpellsElements effect.elements tokens := by
  unfold Effect.elementParts
  cases hElements : effect.elements with
  | nil =>
      refine .nil ⟨?_, .absent⟩
      rcases hMode with ⟨hMode, _⟩ | hMode
      · exact .inl hMode
      · exact .inr hMode
  | cons first others =>
      rw [hElements] at hMode
      simp only [List.head?_cons, ne_eq,
        Option.some.injEq] at hMode
      apply
        scans_part (clausal_elements first others)
          (scans_elements hMode)
      intro later tokens hScan
      rcases hScan with ⟨hLater, hSpells⟩
      refine .nil ⟨.inr hLater, ?_⟩
      simpa using hSpells

/- Elements do not continue a numeral. -/
theorem stops_isDecimalDigit_elementParts
    {gap : String → String → Bool}
    {rest : List Char}
    (hRest : AtBoundary rest)
    (before : String)
    (effect : Effect) :
    Stops isDecimalDigit
      ((joinAfterWith gap before
        effect.elementParts).toList ++ rest) := by
  apply
    stops_joined hRest (by decide) (by decide) (by decide)
      effect.clausal_of_mem_elementParts
  intro part hPart _
  cases hElements : effect.elements with
  | nil => simp [Effect.elementParts, hElements] at hPart
  | cons first others =>
      simp only [Effect.elementParts, hElements,
        List.isEmpty_cons, Bool.false_eq_true, if_false,
        List.head?_cons, Option.mem_some_iff] at hPart
      subst hPart
      rcases exists_elementsText_eq first others with
        ⟨c, _, hText, hUpper⟩
      rw [hText]
      refine stops_of_cons (isDecimalDigit_of_isNameStart ?_)
      simp [isNameStart, isLetter, hUpper]

/- A trigger that is a condition is written behind its sign. -/
theorem toList_canonical_condition
    (test : Condition) :
    (Trigger.condition test).canonical.toList =
      '?' :: test.render.toList := by
  simp [Trigger.canonical]

/-
  The canonical notation has a gap between a condition and
  the elements, unless the condition runs on.
-/
theorem needsGap_of_not_runsOn
    {test : Condition}
    (hTest : test.Expressible)
    (hEnds : test.endsInName = true)
    (hRuns : test.runsOn = false)
    (first : Element)
    (others : List Element) :
    needsGap (Trigger.condition test).canonical
      (elementsText (first :: others)) = true := by
  rcases exists_getLast?_of_not_runsOn hTest hEnds hRuns with
    ⟨last, hLast, hLetter⟩
  rcases exists_elementsText_eq first others with
    ⟨c, _, hText, hUpper⟩
  have hCanonical := toList_canonical_condition test
  have hEnd :
      (Trigger.condition test).canonical.toList.getLast? =
        some last := by
    rw [hCanonical, List.getLast?_cons, hLast]
    rfl
  have hLong :
      1 < (Trigger.condition test).canonical.toList.length := by
    rw [hCanonical]
    cases hRender : test.render.toList with
    | nil => simp [hRender] at hLast
    | cons d ds => simp
  rw [← Bool.not_eq_false]
  intro hNeeds
  have hNext :=
    isLetter_of_needsGap hEnd hText hNeeds hLong hLetter
  simp [isLetter, hUpper] at hNext

/- A condition that runs on does not end with a letter. -/
theorem exists_getLast?_of_runsOn
    {test : Condition}
    (hRuns : test.runsOn = true) :
    ∃ last,
      test.render.toList.getLast? = some last ∧
        isLetter last = false := by
  have hName :
      ∃ before name,
        test.render.toList = before ++ name.toList ∧
          test.closingName? = some name := by
    rcases Condition.isFlag_or_text_of_runsOn hRuns with
      hFlag | ⟨hFlag, word, hValue, hFlat⟩
    · refine ⟨[], test.name, ?_, ?_⟩
      · simp [Condition.render, hFlag]
      · simp [Condition.closingName?, hFlag]
    · refine
        ⟨test.name.toList ++ test.operator.toList, word,
          ?_, ?_⟩
      · simp [toList_render_of_not_isFlag hFlag, hValue,
          hFlat, percentSign, ConditionValue.render]
      · simp [Condition.closingName?, hFlag, hValue, hFlat]
  rcases hName with ⟨before, name, hRender, hClosing⟩
  simp only [Condition.runsOn, hClosing, Option.bind_some,
    Option.any_eq_true] at hRuns
  rcases hRuns with ⟨last, hLast, hChar⟩
  refine ⟨last, ?_, ?_⟩
  · rw [hRender, List.getLast?_append, hLast]
    rfl
  · simp only [Bool.or_eq_true, beq_iff_eq, isAsciiDigit,
      Bool.and_eq_true, decide_eq_true_eq] at hChar
    rcases hChar with rfl | hDigit
    · decide
    · simp only [isLetter, isUpper, isLower,
        Bool.or_eq_false_iff, Bool.and_eq_false_iff,
        decide_eq_false_iff_not]
      omega

/- There is no such gap behind a condition that runs on. -/
theorem needsGap_of_runsOn
    {test : Condition}
    (hRuns : test.runsOn = true)
    (first : Element)
    (others : List Element) :
    needsGap (Trigger.condition test).canonical
      (elementsText (first :: others)) = false := by
  rcases exists_elementsText_eq first others with
    ⟨c, _, hText, hUpper⟩
  have hDigit : isAsciiDigit c = false := by
    simp only [isUpper, Bool.and_eq_true,
      decide_eq_true_eq] at hUpper
    simp only [isAsciiDigit, Bool.and_eq_false_iff,
      decide_eq_false_iff_not]
    omega
  rcases exists_getLast?_of_runsOn hRuns with
    ⟨last, hLast, hLetter⟩
  simp [needsGap, hText, toList_canonical_condition,
    List.getLast?_cons, hLast, hDigit, hLetter]

/- Without a merger no name continues behind a trigger. -/
theorem stops_isNameChar_of_not_merges
    {gap : String → String → Bool}
    {rest : List Char}
    {effect : Effect}
    {test : Condition}
    (hGap : Covers gap)
    (hRest : AtBoundary rest)
    (hTrigger : effect.trigger = some (.condition test))
    (hTest : test.Expressible)
    (hMerges : ¬ effect.Merges gap)
    (hEnds : test.endsInName = true) :
    Stops isNameChar
      ((joinAfterWith gap
        (Trigger.condition test).canonical
          effect.elementParts).toList ++ rest) := by
  apply
    stops_joined hRest (by decide) (by decide) (by decide)
      effect.clausal_of_mem_elementParts
  -- only elements can follow, and without a gap they merge
  intro part hPart hNone
  exfalso
  cases hElements : effect.elements with
  | nil => simp [Effect.elementParts, hElements] at hPart
  | cons first others =>
      simp only [Effect.elementParts, hElements,
        List.isEmpty_cons, Bool.false_eq_true, if_false,
        List.head?_cons, Option.mem_some_iff] at hPart
      subst hPart
      cases hRuns : test.runsOn with
      | false =>
          have hNeeds :=
            needsGap_of_not_runsOn hTest hEnds hRuns first
              others
          rw [hGap _ _ hNeeds] at hNone
          simp at hNone
      | true =>
          refine hMerges ⟨⟨?_, test, ?_, hRuns⟩, ?_⟩
          · simp [hElements]
          · simp [hTrigger, Trigger.condition?]
          · simpa [hTrigger, hElements] using hNone

/-
  Trigger and elements are scanned as such, unless they run
  together.
-/
theorem scans_ending
    {gap : String → String → Bool}
    {before : String}
    {mode : Mode}
    {rest : List Char}
    {effect : Effect}
    (hGap : Covers gap)
    (hRest : AtBoundary rest)
    (hEffect : effect.Expressible)
    (hMerges : ¬ effect.Merges gap)
    (hMode :
      (mode = .opening ∧ effect.magnitude = none ∧
        effect.duration = none) ∨ mode = .core) :
    Scans 0 mode
      (joinAfterWith gap before effect.endingParts).toList
      rest
      fun later tokens =>
        later.Settled ∧
          ∃ used others,
            tokens = used ++ others ∧
              SpellsTrigger effect.trigger used ∧
                SpellsElements effect.elements others := by
  unfold Effect.endingParts
  cases hTrigger : effect.trigger with
  | none =>
      refine (scans_elementParts ?_).mono ?_
      · rcases hMode with ⟨hMode, hNone, hNoDuration⟩ | hMode
        · left
          refine ⟨hMode, fun hFire => hEffect.elements ?_⟩
          exact ⟨hNone, hNoDuration, hTrigger, hFire⟩
        · exact .inr (.inl hMode)
      · intro later tokens hScan
        rcases hScan with ⟨hLater, hSpells⟩
        exact ⟨hLater, [], tokens, rfl, .absent, hSpells⟩
  | some trigger =>
      have hStart : mode = .opening ∨ mode = .core := by
        rcases hMode with hMode | hMode
        · exact .inl hMode.1
        · exact .inr hMode
      have hTest :
          ∀ test ∈ trigger.condition?, test.Expressible := by
        intro test hTest
        apply hEffect.conditions test
        simp only [Effect.allConditions, hTrigger,
          Option.bind_some, List.mem_append,
          Option.mem_toList]
        exact .inl hTest
      have hName :
          ∀ test ∈ trigger.condition?,
            test.endsInName = true →
              Stops isNameChar
                ((joinAfterWith gap trigger.canonical
                  effect.elementParts).toList ++ rest) := by
        intro test hCondition hEnds
        have hExpressible := hTest test hCondition
        cases trigger <;> cases hCondition
        exact
          stops_isNameChar_of_not_merges hGap hRest hTrigger
            hExpressible hMerges hEnds
      apply
        scans_part (clausal_trigger trigger)
          (scans_trigger hStart
            (hEffect.trigger trigger hTrigger) hTest hName
            (stops_isDecimalDigit_elementParts hRest _ _))
      intro later used hScan
      rcases hScan with ⟨hLater, hSpells⟩
      apply (scans_elementParts (.inr hLater)).mono
      intro last others hScan
      rcases hScan with ⟨hLast, hElements⟩
      exact ⟨hLast, used, others, rfl, hSpells, hElements⟩

/- Further elements stop a class without their comma. -/
theorem stops_moreText
    {accepts : Char → Bool}
    {rest : List Char}
    (hRest : AtBoundary rest)
    (others : List Element)
    (hComma : accepts ',' = false)
    (hPoint : accepts '.' = false)
    (hParen : accepts ')' = false) :
    Stops accepts (moreText others ++ rest) := by
  cases others with
  | nil => exact hRest.stops hPoint hParen
  | cons next others => exact stops_of_cons hComma

/-
  Trigger and elements that merge are scanned as the trigger
  with a longer name, and the further elements.
-/
theorem scans_merged
    {gap : String → String → Bool}
    {before : String}
    {mode : Mode}
    {rest : List Char}
    {effect : Effect}
    (hRest : AtBoundary rest)
    (hEffect : effect.Expressible)
    (hMerges : effect.Merges gap)
    (hMode : mode = .opening ∨ mode = .core) :
    Scans 0 mode
      (joinAfterWith gap before effect.endingParts).toList
      rest
      fun later tokens =>
        later.Settled ∧
          ∃ trigger used elements others,
            tokens = used ++ others ∧
              SpellsTrigger (some trigger) used ∧
                SpellsMore elements others := by
  rcases hMerges with
    ⟨⟨hElements, test, hTest, hRuns⟩, hNone⟩
  rcases hTrigger : effect.trigger with _ | trigger
  · simp [hTrigger] at hTest
  rw [hTrigger, Option.bind_some] at hTest
  cases trigger <;> cases hTest
  cases hList : effect.elements with
  | nil => exact absurd hList hElements
  | cons first others =>
      rcases exists_elementsText_eq first others with
        ⟨c, _, hText, hUpper⟩
      have hExpressible : test.Expressible := by
        apply hEffect.conditions test
        simp [Effect.allConditions, hTrigger,
          Trigger.condition?]
      have hLonger :=
        Condition.expressible_runInto hExpressible hRuns hUpper
      have hGap :
          gap (Trigger.condition test).canonical
            (elementsText (first :: others)) = false := by
        simpa [hTrigger, hList] using hNone
      -- the text is that of the longer condition
      have hSame :
          (joinAfterWith gap before
              effect.endingParts).toList =
            (gapText gap before
              (Trigger.condition test).canonical).toList ++
              ((Trigger.condition
                (test.runInto c)).canonical.toList ++
                moreText others) := by
        simp [Effect.endingParts, Effect.elementParts,
          hTrigger, hList, joinAfterWith, gapText, hGap,
          toList_canonical_condition, hText,
          Condition.toList_render_runInto hRuns]
      rw [hSame]
      refine Scans.append (scans_gapText ?_) ?_
      · rw [List.append_assoc]
        exact (clausal_trigger _).stops_isBlank _
      intro later tokens hScan
      rcases hScan with ⟨rfl, rfl⟩
      have hBounded :
          (Trigger.condition (test.runInto c)).Bounded :=
        trivial
      have hOnly :
          ∀ other ∈
              (Trigger.condition (test.runInto c)).condition?,
            other.Expressible := by
        intro value hValue
        cases hValue
        exact hLonger
      apply
        (scans_trigger hMode hBounded hOnly
          (fun _ _ _ =>
            stops_moreText hRest others (by decide)
              (by decide) (by decide))
          (stops_moreText hRest others (by decide)
            (by decide) (by decide))).append
      intro later used hScan
      rcases hScan with ⟨hLater, hSpells⟩
      apply (scans_moreElements hLater others).mono
      intro last more hScan
      rcases hScan with ⟨hLast, hMore⟩
      exact
        ⟨.inr hLast, _, used, others, more, rfl, hSpells,
          hMore⟩

end StatusEffect
