import StatusEffect.Proofs.Grammar.Reading
import StatusEffect.Proofs.Grammar.Within

/-
  Readings of more tokens.

  More tokens behind those that a reader has read can change
  what it reads: a flag becomes a comparison, a chain effect
  gets a target. But they can only do so if the reader had
  come to the end of its tokens, and then it goes on within
  the new ones. There is a single exception. A number at the
  end is a magnitude, and a dash or a marker of turns behind
  it makes it the start of a duration.

  Key definitions include:
    * `Outcome.GoesOn`
    * `Reader.Keeps`
    * `Reader.GoesOn`
    * `Grammar.Crosses`
    * `Grammar.RangeEnd`

  Key theorems include:
    * `Reader.GoesOn.bind`
    * `Reader.GoesOn.bind_hungry`
    * `Grammar.goesOnWith_optionalClauses`
    * `Grammar.turns_within`
-/

------------------------------------------------------------
-- Outcomes And Readers
------------------------------------------------------------

namespace StatusEffect

/-
  How the outcome of some tokens relates to the one with more
  tokens behind them. The same value is read and the further
  tokens are left, or nothing was left and the new outcome is
  within the further tokens. A failure promises nothing.
-/
inductive Outcome.GoesOn
    {α : Type}
    (last : Nat)
    (more : List Token) : Outcome α → Outcome α → Prop where
  | stuck
      (failure : Failure)
      (rest : List Token)
      (other : Outcome α) :
      GoesOn last more (.stuck failure rest) other
  | same
      (value : α)
      (rest : List Token) :
      GoesOn last more (.read value rest)
        (.read value (rest ++ more))
  | within
      (value : α)
      {other : Outcome α}
      (hOther : other.Within last more) :
      GoesOn last more (.read value []) other

/- Further tokens behind read ones fail at their own marks. -/
theorem Outcome.GoesOn.offset_mem_marks
    {α : Type}
    {last : Nat}
    {more rest : List Token}
    {value : α}
    {other : Outcome α}
    (hOther : GoesOn last more (.read value rest) other)
    {failure : Failure}
    (hFailure : other.result = .error failure) :
    failure.offset ∈ marks last more := by
  cases hOther with
  | same => cases hFailure
  | within value hWithin =>
      exact hWithin.offset_mem_marks hFailure

namespace Reader

variable {α β : Type}

/- What a reader reads does not depend on what follows. -/
def Keeps (reader : Reader α) : Prop :=
  ∀ stop last tokens more value rest,
    reader stop tokens = .read value rest →
      reader last (tokens ++ more) =
        .read value (rest ++ more)

/- A reader goes on from some tokens to more of them. -/
def GoesOnWith
    (tokens more : List Token)
    (reader : Reader α) : Prop :=
  ∀ stop last,
    (reader stop tokens).GoesOn last more
      (reader last (tokens ++ more))

/- A reader goes on to any more tokens. -/
def GoesOn (reader : Reader α) : Prop :=
  ∀ tokens more, GoesOnWith tokens more reader

/- A reader reads nothing of nothing. -/
def Hungry (reader : Reader α) : Prop :=
  ∀ stop value rest, reader stop [] ≠ .read value rest

/- A reader that keeps its value goes on. -/
theorem Keeps.goesOn
    {reader : Reader α}
    (hReader : Keeps reader) :
    GoesOn reader := by
  intro tokens more stop last
  cases hOutcome : reader stop tokens with
  | read value rest =>
      rw [hReader stop last tokens more value rest hOutcome]
      exact .same value rest
  | stuck failure rest => exact .stuck failure rest _

/- Reading nothing keeps its value. -/
theorem keeps_pure
    (value : α) :
    Keeps (pure value) := by
  intro stop last tokens more other rest hRead
  cases hRead
  rfl

/- Readers that keep their values do so in turn. -/
theorem Keeps.bind
    {reader : Reader α}
    {next : α → Reader β}
    (hReader : Keeps reader)
    (hNext : ∀ value, Keeps (next value)) :
    Keeps (reader >>= next) := by
  intro stop last tokens more value rest hRead
  rcases bind_eq_read_iff.mp hRead with
    ⟨first, between, hFirst, hSecond⟩
  rw [bind_apply,
    hReader stop last tokens more first between hFirst]
  exact hNext first stop last between more value rest hSecond

/- An image is kept along with the value. -/
theorem Keeps.map
    {reader : Reader α}
    (hReader : Keeps reader)
    (image : α → β) :
    Keeps (image <$> reader) :=
  hReader.bind fun value => keeps_pure (image value)

/- Behind a value that is kept it matters how to go on. -/
theorem Keeps.bind_goesOnWith
    {reader : Reader α}
    {next : α → Reader β}
    (hReader : Keeps reader)
    {tokens more : List Token}
    (hNext :
      ∀ stop value rest,
        reader stop tokens = .read value rest →
          GoesOnWith rest more (next value)) :
    GoesOnWith tokens more (reader >>= next) := by
  intro stop last
  rw [bind_apply, bind_apply]
  cases hOutcome : reader stop tokens with
  | read value rest =>
      rw [hReader stop last tokens more value rest hOutcome]
      exact hNext stop value rest hOutcome stop last
  | stuck failure rest => exact .stuck failure rest _

/- The same with a reader that goes on in any case. -/
theorem Keeps.bind_goesOn
    {reader : Reader α}
    {next : α → Reader β}
    (hReader : Keeps reader)
    (hNext : ∀ value, GoesOn (next value)) :
    GoesOn (reader >>= next) :=
  fun _ more =>
    hReader.bind_goesOnWith fun _ value rest _ =>
      hNext value rest more

/-
  Readers go on in turn if the second one stays within its
  tokens: what the first one does with the further tokens
  leaves it nothing else.
-/
theorem GoesOnWith.bind
    {reader : Reader α}
    {next : α → Reader β}
    {tokens more : List Token}
    (hReader : GoesOnWith tokens more reader)
    (hNext : ∀ value, GoesOn (next value))
    (hStays : ∀ value, Stays (next value)) :
    GoesOnWith tokens more (reader >>= next) := by
  intro stop last
  have hFirst := hReader stop last
  have hSecond :=
    @within_bind _ _ reader next last (tokens ++ more) more
  rw [bind_apply] at hSecond
  rw [bind_apply, bind_apply]
  generalize reader stop tokens = outcome at hFirst
  generalize reader last (tokens ++ more) = other
    at hFirst hSecond
  cases hFirst with
  | stuck failure rest => exact .stuck failure rest _
  | same value rest => exact hNext value rest more stop last
  | within value hOther =>
      have hWithin := hSecond hOther hStays
      change (next value stop []).GoesOn last more _
      cases hOutcome : next value stop [] with
      | read result left =>
          have hNil := (hStays value).rest_eq_nil hOutcome
          subst hNil
          exact .within result hWithin
      | stuck failure left => exact .stuck failure left _

/- Readers go on in turn. -/
theorem GoesOn.bind
    {reader : Reader α}
    {next : α → Reader β}
    (hReader : GoesOn reader)
    (hNext : ∀ value, GoesOn (next value))
    (hStays : ∀ value, Stays (next value)) :
    GoesOn (reader >>= next) :=
  fun tokens more =>
    (hReader tokens more).bind hNext hStays

/-
  Readers go on in turn if the second one needs a token, for
  then the first one has not come to the end.
-/
theorem GoesOn.bind_hungry
    {reader : Reader α}
    {next : α → Reader β}
    (hReader : GoesOn reader)
    (hNext : ∀ value, GoesOn (next value))
    (hHungry : ∀ value, Hungry (next value)) :
    GoesOn (reader >>= next) := by
  intro tokens more stop last
  have hFirst := hReader tokens more stop last
  rw [bind_apply, bind_apply]
  generalize reader stop tokens = outcome at hFirst
  generalize reader last (tokens ++ more) = other at hFirst
  cases hFirst with
  | stuck failure rest => exact .stuck failure rest _
  | same value rest => exact hNext value rest more stop last
  | within value hOther =>
      change (next value stop []).GoesOn last more _
      cases hOutcome : next value stop [] with
      | read result left =>
          exact absurd hOutcome (hHungry value stop _ _)
      | stuck failure left => exact .stuck failure left _

/- An image goes on along with the value. -/
theorem GoesOnWith.map
    {reader : Reader α}
    {tokens more : List Token}
    (hReader : GoesOnWith tokens more reader)
    (image : α → β) :
    GoesOnWith tokens more (image <$> reader) :=
  hReader.bind
    (fun value => (keeps_pure (image value)).goesOn)
    fun value => stays_pure (image value)

/- An image goes on to any more tokens. -/
theorem GoesOn.map
    {reader : Reader α}
    (hReader : GoesOn reader)
    (image : α → β) :
    GoesOn (image <$> reader) :=
  fun tokens more => (hReader tokens more).map image

/- A reader that stays goes on if it does from a token on. -/
theorem goesOn_of_cons
    {reader : Reader α}
    (hStays : Stays reader)
    (hCons :
      ∀ token tokens more,
        GoesOnWith (token :: tokens) more reader) :
    GoesOn reader := by
  intro tokens more
  cases tokens with
  | nil =>
      intro stop last
      cases hOutcome : reader stop [] with
      | read value rest =>
          have hNil := hStays.rest_eq_nil hOutcome
          subst hNil
          exact .within value (hStays last more)
      | stuck failure rest => exact .stuck failure rest _
  | cons token tokens => exact hCons token tokens more

/- A reader that needs a token goes on if it does from one on. -/
theorem Hungry.goesOn
    {reader : Reader α}
    (hHungry : Hungry reader)
    (hCons :
      ∀ token tokens more,
        GoesOnWith (token :: tokens) more reader) :
    GoesOn reader := by
  intro tokens more
  cases tokens with
  | nil =>
      intro stop last
      cases hOutcome : reader stop [] with
      | read value rest =>
          exact absurd hOutcome (hHungry stop value rest)
      | stuck failure rest => exact .stuck failure rest _
  | cons token tokens => exact hCons token tokens more

/- A token of a kind is read whatever follows it. -/
theorem keeps_expect
    (kind : TokenKind)
    (what : Expectation) :
    Keeps (expect kind what) := by
  intro stop last tokens more value rest hRead
  rw [expect_eq_read_iff] at hRead ⊢
  rw [hRead.1]
  exact ⟨rfl, hRead.2⟩

/- The word of a token does not depend on what follows. -/
theorem keeps_word
    [Vocabulary α]
    (role : Role)
    (token : Token) :
    Keeps (word role token : Reader α) := by
  intro stop last tokens more value rest hRead
  rw [word_eq_read_iff] at hRead ⊢
  rw [hRead.2]
  exact ⟨hRead.1, rfl⟩

/- The number of a token does not depend on what follows. -/
theorem keeps_numeral
    (token : Token) :
    Keeps (numeral token) := by
  intro stop last tokens more value rest hRead
  rw [numeral_eq_read_iff] at hRead ⊢
  rw [hRead.2]
  exact ⟨hRead.1, rfl⟩

/- A number is read whatever follows it. -/
theorem keeps_number
    (what : Expectation) :
    Keeps (number what) :=
  (keeps_expect .number what).bind keeps_numeral

/- A reader that only fails keeps any value. -/
theorem keeps_failAt
    (offset : Nat)
    (cause : Cause) :
    Keeps (failAt offset cause : Reader α) := by
  intro stop last tokens more value rest hRead
  cases hRead

/- An optional token may also be one of the further tokens. -/
theorem goesOn_eat?
    (kind : TokenKind) :
    GoesOn (eat? kind) := by
  refine goesOn_of_cons (stays_eat? kind) ?_
  intro token tokens more stop last
  by_cases hKind : token.kind = kind
  · simp only [List.cons_append, eat?, hKind, if_true]
    exact .same (some token) tokens
  · simp only [List.cons_append, eat?, hKind, if_false]
    exact .same none (token :: tokens)

/- A reader that starts with a token of a kind needs one. -/
theorem hungry_expect
    (kind : TokenKind)
    (what : Expectation) :
    Hungry (expect kind what) := by
  intro stop value rest hRead
  cases hRead

/- A reader that starts with a hungry one is hungry. -/
theorem Hungry.bind
    {reader : Reader α}
    (hReader : Hungry reader)
    (next : α → Reader β) :
    Hungry (reader >>= next) := by
  intro stop value rest hRead
  rcases bind_eq_read_iff.mp hRead with
    ⟨first, between, hFirst, _⟩
  exact hReader stop first between hFirst

end Reader

------------------------------------------------------------
-- Mandatory Clauses
------------------------------------------------------------

namespace Grammar

open Reader

/- A target does not depend on what follows it. -/
theorem keeps_target : Keeps target := by
  intro stop last tokens more value rest hRead
  rcases spellsTarget_of_target hRead with
    ⟨used, rfl, hSpells⟩
  rw [List.append_assoc]
  exact target_of_spells hSpells last (rest ++ more)

/- An effect marker does not depend on what follows it. -/
theorem keeps_change : Keeps change :=
  (keeps_expect .effectMarker .effectMarker).bind
    fun token => keeps_word .effectType token

/- A subject does not depend on what follows it. -/
theorem keeps_subject : Keeps subject := by
  intro stop last tokens more value rest hRead
  rcases spellsSubject_of_subject hRead with
    ⟨used, rfl, hSpells⟩
  rw [List.append_assoc]
  exact subject_of_spells hSpells last (rest ++ more)

/- The mandatory clauses do not depend on what follows them. -/
theorem keeps_mandatory : Keeps mandatory := by
  refine keeps_target.bind fun target => ?_
  refine keeps_change.bind fun change => ?_
  exact keeps_subject.map fun subject =>
    (target, change, subject)

------------------------------------------------------------
-- Magnitude And Duration
------------------------------------------------------------

/-
  A number at the end of some tokens starts a duration with
  the tokens behind it.
-/
def Crosses (tokens more : List Token) : Prop :=
  ∃ number,
    tokens = [number] ∧
      number.kind = .number ∧ countsTurns more = true

/- The rest of a magnitude that starts with a number. -/
def amount (token : Token) : Reader (Option Magnitude) := do
  let value ← numeral token
  match ← eat? .percent with
  | some _ => pure (some (.percent value))
  | none => pure (some (.flat value))

/- The rest of a magnitude goes on. -/
theorem goesOn_amount
    (token : Token) :
    GoesOn (amount token) := by
  refine (keeps_numeral token).bind_goesOn fun value => ?_
  refine (goesOn_eat? .percent).bind ?_ ?_
  · intro found
    cases found with
    | none => exact (keeps_pure _).goesOn
    | some sign => exact (keeps_pure _).goesOn
  · intro found
    cases found with
    | none => exact stays_pure _
    | some sign => exact stays_pure _

/- A magnitude goes on unless it becomes a duration. -/
theorem goesOnWith_magnitude
    {tokens more : List Token}
    (hApart : ¬ Crosses tokens more) :
    GoesOnWith tokens more magnitude := by
  intro stop last
  rcases tokens with _ | ⟨token, tokens⟩
  · exact .within none (stays_magnitude last more)
  · simp only [List.cons_append, magnitude]
    split
    · exact .same _ tokens
    · rename_i hKind
      have hTurns :
          countsTurns (tokens ++ more) =
            countsTurns tokens := by
        cases tokens with
        | nil =>
            rw [List.nil_append, countsTurns,
              Bool.eq_false_iff]
            intro hMore
            exact hApart ⟨token, rfl, hKind, hMore⟩
        | cons next tokens => rfl
      rw [hTurns]
      split
      · exact .same none (token :: tokens)
      · exact goesOn_amount token tokens more stop last
    · exact .same none (token :: tokens)

/- The marker of turns does not depend on what follows it. -/
theorem keeps_turnsMarker : Keeps turnsMarker := by
  intro stop last tokens more value rest hRead
  rw [turnsMarker_eq_read_iff] at hRead ⊢
  rcases hRead with ⟨place, rfl⟩
  exact ⟨place, rfl⟩

/- Nothing is no marker of turns. -/
theorem hungry_turnsMarker : Hungry turnsMarker := by
  intro stop value rest hRead
  cases hRead

/- A count of turns goes on. -/
theorem goesOn_turns
    (start : Token) :
    GoesOn (turns start) := by
  refine (keeps_numeral start).bind_goesOn fun first => ?_
  refine (goesOn_eat? .rangeDash).bind_hungry ?_ ?_
  · intro found
    cases found with
    | none =>
        exact
          (keeps_turnsMarker.map fun _ =>
            Duration.turns first).goesOn
    | some dash =>
        refine Keeps.goesOn ?_
        refine (keeps_number .rangeEnd).bind fun last => ?_
        refine keeps_turnsMarker.bind fun _ => ?_
        split
        · exact keeps_failAt _ _
        · exact keeps_pure _
  · intro found
    cases found with
    | none => exact hungry_turnsMarker.bind _
    | some dash =>
        exact ((hungry_expect _ _).bind _).bind _

/-
  Some tokens turn the number in front of them into a range of
  turns with a given last number.
-/
inductive RangeEnd (last : UInt32) : List Token → Prop where
  | turns
      {dash numeral marker : Token}
      (behind : List Token)
      (hDash : dash.kind = .rangeDash)
      (hNumeral : numeral.kind = .number)
      (hLast :
        Text.wordOfNumeral? numeral.text = some last)
      (hMarker : isTurnsMarker marker = true) :
      RangeEnd last (dash :: numeral :: marker :: behind)

/-
  Behind its first number a count of turns is read within the
  tokens, unless that number is above the last one.
-/
theorem turns_within
    {start : Token}
    {first : UInt32}
    (hFirst : Text.wordOfNumeral? start.text = some first)
    (stop : Nat)
    (tokens : List Token) :
    (turns start stop tokens).Within stop tokens ∨
      ∃ last left,
        RangeEnd last tokens ∧ last < first ∧
          turns start stop tokens =
            .stuck ⟨.rangeReversed first last, start.offset⟩
              left := by
  have hStart :
      numeral start stop tokens = .read first tokens :=
    numeral_eq_read_iff.mpr ⟨hFirst, rfl⟩
  rcases tokens with _ | ⟨dash, rest⟩
  · left
    simp only [turns, bind_apply, hStart]
    exact stays_turnsMarker stop []
  · by_cases hDash : dash.kind = .rangeDash
    · have hRest : rest ⊆ dash :: rest :=
        List.subset_cons_self dash rest
      simp only [turns, bind_apply, hStart, eat?, hDash,
        if_true]
      have hNumber := stays_rangeEnd stop rest
      cases hLast : number .rangeEnd stop rest with
      | stuck failure left =>
          rw [hLast] at hNumber
          exact .inl (mem_marks_of_subset hRest hNumber)
      | read last between =>
          rw [hLast] at hNumber
          rcases number_eq_read_iff.mp hLast with
            ⟨text, offset, rfl, hText⟩
          have hMarker := stays_turnsMarker stop between
          cases hRead : turnsMarker stop between with
          | stuck failure left =>
              rw [hRead] at hMarker
              simp only [hRead]
              left
              exact
                mem_marks_of_subset hRest
                  (mem_marks_of_subset hNumber hMarker)
          | read value behind =>
              rw [hRead] at hMarker
              rcases turnsMarker_eq_read_iff.mp hRead with
                ⟨place, rfl⟩
              simp only [hRead]
              by_cases hOrder : last < first
              · simp only [hOrder, if_true]
                right
                refine ⟨last, behind, ?_, hOrder, rfl⟩
                exact .turns behind hDash rfl hText rfl
              · simp only [hOrder, if_false]
                left
                exact
                  List.Subset.trans hMarker
                    (List.Subset.trans hNumber hRest)
    · left
      simp only [turns, bind_apply, hStart, eat?, hDash,
        if_false]
      exact
        within_bind (stays_turnsMarker stop (dash :: rest))
          fun _ => stays_pure (Duration.turns first)

/- The end of a reversed range is reported at its start. -/
theorem turns_of_rangeEnd
    {start : Token}
    {first last : UInt32}
    {tokens : List Token}
    (hFirst : Text.wordOfNumeral? start.text = some first)
    (hEnd : RangeEnd last tokens)
    (hOrder : last < first)
    (stop : Nat) :
    ∃ left,
      turns start stop tokens =
        .stuck ⟨.rangeReversed first last, start.offset⟩
          left := by
  rcases hEnd with ⟨behind, hDash, hNumeral, hLast, hMarker⟩
  refine ⟨behind, ?_⟩
  simp [turns, number, numeral, expect, eat?, turnsMarker,
    failAt, hFirst, hDash, hNumeral, hLast, hMarker, hOrder]

/- A duration goes on. -/
theorem goesOn_duration : GoesOn duration := by
  refine goesOn_of_cons stays_duration ?_
  intro token tokens more stop last
  simp only [List.cons_append, duration]
  split
  · split
    · exact .same _ tokens
    · exact .same _ tokens
    · exact .same _ tokens
    · exact .stuck _ _ _
    · exact .stuck _ _ _
  · exact (goesOn_turns token).map some tokens more stop last
  · exact .same none (token :: tokens)

------------------------------------------------------------
-- Conditions
------------------------------------------------------------

/- The value of a condition goes on. -/
theorem goesOn_conditionValue
    (operator : String) :
    GoesOn (conditionValue operator) := by
  refine goesOn_of_cons (stays_conditionValue operator) ?_
  intro token tokens more stop last
  simp only [List.cons_append, conditionValue]
  split
  · refine
      (keeps_numeral token).bind_goesOn (fun value => ?_)
        tokens more stop last
    exact (goesOn_eat? .percent).map _
  · exact .same _ tokens
  · exact .stuck _ _ _

/- A condition goes on. -/
theorem goesOn_condition : GoesOn condition := by
  refine
    (keeps_expect .identifier .attribute).bind_goesOn
      fun name => ?_
  refine (goesOn_eat? .comparison).bind ?_ ?_
  · intro found
    cases found with
    | none => exact (keeps_pure _).goesOn
    | some operator =>
        exact (goesOn_conditionValue operator.text).map _
  · intro found
    cases found with
    | none => exact stays_pure _
    | some operator =>
        exact (stays_conditionValue operator.text).map _

------------------------------------------------------------
-- Trigger
------------------------------------------------------------

/- A signed event does not depend on what follows it. -/
theorem keeps_signedEvent
    (sign : Token) :
    Keeps (signedEvent sign) := by
  refine (keeps_expect _ _).bind fun letter => ?_
  dsimp only
  split
  · exact keeps_pure _
  · exact keeps_failAt _ _

/- A chance does not depend on what follows it. -/
theorem keeps_chance
    (start : Token) :
    Keeps (chance start) := by
  refine (keeps_numeral start).bind fun percent => ?_
  refine (keeps_expect _ _).bind fun sign => ?_
  split
  · exact keeps_failAt _ _
  · exact keeps_pure _

/- A chance or a condition goes on. -/
theorem goesOn_chanceOrCondition :
    GoesOn chanceOrCondition := by
  refine Hungry.goesOn (fun _ _ _ hRead => by cases hRead) ?_
  intro token tokens more stop last
  simp only [List.cons_append, chanceOrCondition]
  split
  · exact
      ((keeps_chance token).map _).goesOn tokens more stop
        last
  · exact
      goesOn_condition.map _ (token :: tokens) more stop last
  · exact .stuck _ _ _

/- A trigger goes on. -/
theorem goesOn_trigger : GoesOn trigger := by
  refine goesOn_of_cons stays_trigger ?_
  intro token tokens more stop last
  simp only [List.cons_append, trigger]
  split
  · split
    · exact .same _ tokens
    · exact .stuck _ _ _
  · exact
      ((keeps_signedEvent token).map _).goesOn tokens more
        stop last
  · exact
      goesOn_chanceOrCondition.map some tokens more stop last
  · exact .same none (token :: tokens)

------------------------------------------------------------
-- Elements
------------------------------------------------------------

/- An element does not depend on what follows it. -/
theorem keeps_element : Keeps element :=
  (keeps_expect .element .element).bind
    fun token => keeps_word .element token

/- An element, and further ones behind commas. -/
def someElements : Reader (List Element) := do
  let first ← element
  let others ← moreElements
  pure (first :: others)

/- Behind a comma there are some elements. -/
theorem moreElements_comma
    {comma : Token}
    (hComma : comma.kind = .comma)
    (stop : Nat)
    (tokens : List Token) :
    moreElements stop (comma :: tokens) =
      someElements stop tokens := by
  cases tokens with
  | nil =>
      simp only [moreElements, hComma, if_true]
      rfl
  | cons token rest =>
      simp only [moreElements, hComma, if_true,
        someElements, bind_apply]
      cases hFirst : element stop (token :: rest) with
      | stuck failure left => rfl
      | read first left =>
          rcases element_eq_read_iff.mp hFirst with
            ⟨text, offset, hToken, _⟩
          cases hToken
          change _ = andThen moreElements _ stop rest
          unfold andThen
          cases moreElements stop rest with
          | stuck failure left => rfl
          | read others left => rfl

/- Further elements go on. -/
theorem goesOn_moreElements :
    GoesOn (moreElements : Reader (List Element)) := by
  intro tokens
  -- the elements behind a comma and an element are fewer
  induction hLength : tokens.length
    using Nat.strongRecOn generalizing tokens with
  | ind length ih =>
      subst hLength
      intro more stop last
      rcases tokens with _ | ⟨comma, tokens⟩
      · exact .within [] (stays_moreElements last more)
      · rw [List.cons_append]
        by_cases hComma : comma.kind = .comma
        · rw [moreElements_comma hComma,
            moreElements_comma hComma]
          refine
            keeps_element.bind_goesOnWith ?_ stop last
          intro stop first rest hFirst
          rcases element_eq_read_iff.mp hFirst with
            ⟨text, offset, rfl, _⟩
          have hShort :
              rest.length <
                (comma :: ⟨.element, text, offset⟩ ::
                  rest).length := by
            simp only [List.length_cons]
            omega
          exact (ih _ hShort rest rfl more).map (first :: ·)
        · unfold moreElements
          simp only [hComma, if_false]
          exact .same [] (comma :: tokens)

/- Elements go on. -/
theorem goesOn_elements : GoesOn elements := by
  refine goesOn_of_cons stays_elements ?_
  intro token tokens more stop last
  by_cases hKind : token.kind = .element
  · simp only [List.cons_append, elements, hKind, if_true]
    refine
      keeps_element.bind_goesOn (fun first => ?_)
        (token :: tokens) more stop last
    exact goesOn_moreElements.map (first :: ·)
  · simp only [List.cons_append, elements, hKind, if_false]
    exact .same [] (token :: tokens)

------------------------------------------------------------
-- Core Clauses
------------------------------------------------------------

/- The end of the core clauses goes on. -/
theorem goesOn_coreEnd : GoesOn coreEnd := by
  refine goesOn_of_cons stays_coreEnd ?_
  intro token tokens more stop last
  by_cases hKind : token.kind = .delimiter
  · simp only [List.cons_append, coreEnd, hKind, if_true]
    exact .same () (token :: tokens)
  · simp only [List.cons_append, coreEnd, hKind, if_false]
    exact .stuck _ _ _

/- The clauses behind the duration go on. -/
theorem goesOn_lastClauses
    (start : Target × Change × Subject)
    (magnitude : Option Magnitude)
    (duration : Option Duration) :
    GoesOn (lastClauses start magnitude duration) := by
  refine goesOn_trigger.bind (fun trigger => ?_) ?_
  · refine goesOn_elements.bind (fun elements => ?_) ?_
    · exact goesOn_coreEnd.map _
    · exact fun elements => stays_coreEnd.map _
  · exact fun trigger =>
      stays_elements.bind fun elements => stays_coreEnd.map _

/- The clauses behind the magnitude go on. -/
theorem goesOn_lateClauses
    (start : Target × Change × Subject)
    (magnitude : Option Magnitude) :
    GoesOn (lateClauses start magnitude) :=
  goesOn_duration.bind (goesOn_lastClauses start magnitude)
    (stays_lastClauses start magnitude)

/-
  The optional clauses go on, unless a magnitude becomes a
  duration.
-/
theorem goesOnWith_optionalClauses
    {tokens more : List Token}
    (hApart : ¬ Crosses tokens more)
    (start : Target × Change × Subject) :
    GoesOnWith tokens more (optionalClauses start) :=
  (goesOnWith_magnitude hApart).bind
    (goesOn_lateClauses start) (stays_lateClauses start)

end Grammar

end StatusEffect
