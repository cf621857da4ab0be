import StatusEffect.Grammar.Core

/-
  The grammar of the core clauses, apart from its reading.

  Each clause has a relation between a value and the tokens
  that spell it. A spelling says nothing about the tokens
  behind it, nor about offsets. Reading a clause only ever
  takes a spelling of the value it gives.

  Key definitions include:
    * `Grammar.SpellsSubject`
    * `Grammar.SpellsMagnitude`
    * `Grammar.SpellsDuration`
    * `Grammar.SpellsCondition`
    * `Grammar.SpellsTrigger`
    * `Grammar.SpellsElements`
    * `Grammar.SpellsCore`

  Key theorems include:
    * `Grammar.spellsCore_of_core`
-/

------------------------------------------------------------
-- Readers In Sequence
------------------------------------------------------------

namespace StatusEffect

namespace Reader

variable {α β : Type}

/- Two readers in sequence succeed one after the other. -/
theorem bind_eq_read_iff
    {reader : Reader α}
    {next : α → Reader β}
    {stop : Nat}
    {tokens rest : List Token}
    {value : β} :
    (reader >>= next) stop tokens = .read value rest ↔
      ∃ first between,
        reader stop tokens = .read first between ∧
          next first stop between = .read value rest := by
  rw [bind_apply]
  cases hFirst : reader stop tokens with
  | read first between =>
      constructor
      · intro hNext
        exact ⟨first, between, rfl, hNext⟩
      · intro hRead
        rcases hRead with ⟨_, _, hSame, hNext⟩
        cases hSame
        exact hNext
  | stuck failure left => simp

/- A mapped reader succeeds with the image of a value. -/
theorem map_eq_read_iff
    {reader : Reader α}
    {image : α → β}
    {stop : Nat}
    {tokens rest : List Token}
    {value : β} :
    (image <$> reader) stop tokens = .read value rest ↔
      ∃ first,
        reader stop tokens = .read first rest ∧
          image first = value := by
  change (reader >>= pure ∘ image) stop tokens = _ ↔ _
  rw [bind_eq_read_iff]
  constructor
  · intro hRead
    rcases hRead with ⟨first, between, hFirst, hImage⟩
    simp only [Function.comp_apply, pure_apply,
      Outcome.read.injEq] at hImage
    rcases hImage with ⟨hImage, rfl⟩
    exact ⟨first, hFirst, hImage⟩
  · intro hRead
    rcases hRead with ⟨first, hFirst, hImage⟩
    exact ⟨first, rest, hFirst, by simp [hImage]⟩

/- An expected token is the first one, and of its kind. -/
theorem expect_eq_read_iff
    {kind : TokenKind}
    {what : Expectation}
    {stop : Nat}
    {tokens rest : List Token}
    {token : Token} :
    expect kind what stop tokens = .read token rest ↔
      tokens = token :: rest ∧ token.kind = kind := by
  cases tokens with
  | nil => simp [expect, missing]
  | cons first tokens =>
      by_cases hKind : first.kind = kind
      · simp only [expect, hKind, if_true,
          Outcome.read.injEq, List.cons.injEq]
        constructor
        · intro hRead
          rcases hRead with ⟨rfl, rfl⟩
          exact ⟨⟨rfl, rfl⟩, hKind⟩
        · intro hRead
          rcases hRead with ⟨⟨rfl, rfl⟩, _⟩
          exact ⟨rfl, rfl⟩
      · simp only [expect, hKind, if_false, missing,
          reduceCtorEq, List.cons.injEq, false_iff]
        intro hRead
        rcases hRead with ⟨⟨rfl, _⟩, hToken⟩
        exact hKind hToken

/- An optional token that is there is of its kind. -/
theorem eat?_eq_some_iff
    {kind : TokenKind}
    {stop : Nat}
    {tokens rest : List Token}
    {token : Token} :
    eat? kind stop tokens = .read (some token) rest ↔
      tokens = token :: rest ∧ token.kind = kind := by
  cases tokens with
  | nil => simp [eat?]
  | cons first tokens =>
      by_cases hKind : first.kind = kind
      · simp only [eat?, hKind, if_true, Outcome.read.injEq,
          Option.some.injEq, List.cons.injEq]
        constructor
        · intro hRead
          rcases hRead with ⟨rfl, rfl⟩
          exact ⟨⟨rfl, rfl⟩, hKind⟩
        · intro hRead
          rcases hRead with ⟨⟨rfl, rfl⟩, _⟩
          exact ⟨rfl, rfl⟩
      · simp only [eat?, hKind, if_false,
          Outcome.read.injEq, reduceCtorEq, false_and,
          List.cons.injEq, false_iff]
        intro hRead
        rcases hRead with ⟨⟨rfl, _⟩, hToken⟩
        exact hKind hToken

/- An optional token that is not there takes nothing. -/
theorem eat?_eq_none_iff
    {kind : TokenKind}
    {stop : Nat}
    {tokens rest : List Token} :
    eat? kind stop tokens = .read none rest ↔
      rest = tokens ∧
        ∀ token ∈ tokens.head?, token.kind ≠ kind := by
  cases tokens with
  | nil => simp [eat?, eq_comm]
  | cons first tokens =>
      by_cases hKind : first.kind = kind
      · simp [eat?, hKind]
      · simp only [eat?, hKind, if_false,
          Outcome.read.injEq, true_and, List.head?_cons,
          Option.mem_some_iff, forall_eq', ne_eq,
          not_false_eq_true, and_true]
        exact eq_comm

/- A recognized word takes no further token. -/
theorem word_eq_read_iff
    [Vocabulary α]
    {role : Role}
    {token : Token}
    {stop : Nat}
    {tokens rest : List Token}
    {value : α} :
    word role token stop tokens = .read value rest ↔
      Vocabulary.ofCode? token.text = some value ∧
        rest = tokens := by
  unfold word
  cases hCode : (Vocabulary.ofCode? token.text : Option α) with
  | none => simp [failAt]
  | some found => simp [eq_comm]

/- A numeral in range takes no further token. -/
theorem numeral_eq_read_iff
    {token : Token}
    {stop : Nat}
    {tokens rest : List Token}
    {value : UInt32} :
    numeral token stop tokens = .read value rest ↔
      Text.wordOfNumeral? token.text = some value ∧
        rest = tokens := by
  unfold numeral
  cases hNumeral : Text.wordOfNumeral? token.text with
  | none => simp [failAt]
  | some found => simp [eq_comm]

/- A number is one token, whose numeral is in range. -/
theorem number_eq_read_iff
    {what : Expectation}
    {stop : Nat}
    {tokens rest : List Token}
    {value : UInt32} :
    number what stop tokens = .read value rest ↔
      ∃ text offset,
        tokens = ⟨.number, text, offset⟩ :: rest ∧
          Text.wordOfNumeral? text = some value := by
  unfold number
  simp only [bind_eq_read_iff, expect_eq_read_iff,
    numeral_eq_read_iff]
  constructor
  · intro hRead
    rcases hRead with
      ⟨⟨kind, text, offset⟩, between, ⟨rfl, hKind⟩,
        hNumeral, rfl⟩
    simp only at hKind
    subst hKind
    exact ⟨text, offset, rfl, hNumeral⟩
  · intro hRead
    rcases hRead with ⟨text, offset, rfl, hNumeral⟩
    exact ⟨_, rest, ⟨rfl, rfl⟩, hNumeral, rfl⟩

end Reader

------------------------------------------------------------
-- Mandatory Clauses
------------------------------------------------------------

namespace Grammar

open Reader

/- A target is one token; a name can stand for it too. -/
inductive SpellsTarget : Target → List Token → Prop where
  | code
      {kind : TokenKind}
      {text : String}
      {offset : Nat}
      {value : Target}
      (hKind : kind = .target ∨ kind = .identifier)
      (hCode : Vocabulary.ofCode? text = some value) :
      SpellsTarget value [⟨kind, text, offset⟩]

/- A change is one effect marker. -/
inductive SpellsChange : Change → List Token → Prop where
  | code
      {text : String}
      {offset : Nat}
      {value : Change}
      (hCode : Vocabulary.ofCode? text = some value) :
      SpellsChange value [⟨.effectMarker, text, offset⟩]

/- A subject is a stat, or a special condition as it stands. -/
inductive SpellsSubject : Subject → List Token → Prop where
  | stat
      {text : String}
      {offset : Nat}
      {value : Stat}
      (hCode : Vocabulary.ofCode? text = some value) :
      SpellsSubject (.stat value) [⟨.stat, text, offset⟩]
  | condition
      (text : String)
      (offset : Nat) :
      SpellsSubject (.condition text)
        [⟨.specialCondition, text, offset⟩]

/- Reading a target takes a spelling of it. -/
theorem spellsTarget_of_target
    {stop : Nat}
    {tokens rest : List Token}
    {value : Target}
    (hRead : target stop tokens = .read value rest) :
    ∃ used,
      tokens = used ++ rest ∧ SpellsTarget value used := by
  rcases tokens with _ | ⟨⟨kind, text, offset⟩, tokens⟩
  · simp [target, missing] at hRead
  · simp only [target] at hRead
    split at hRead
    · rename_i hKind
      cases hCode : (Vocabulary.ofCode? text : Option Target) with
      | none => simp [hCode, failAt] at hRead
      | some found =>
          simp only [hCode, Outcome.read.injEq] at hRead
          rcases hRead with ⟨rfl, rfl⟩
          exact ⟨_, rfl, .code hKind hCode⟩
    · simp [missing] at hRead

/- Reading a change takes a spelling of it. -/
theorem spellsChange_of_change
    {stop : Nat}
    {tokens rest : List Token}
    {value : Change}
    (hRead : change stop tokens = .read value rest) :
    ∃ used,
      tokens = used ++ rest ∧ SpellsChange value used := by
  simp only [change, bind_eq_read_iff, expect_eq_read_iff,
    word_eq_read_iff] at hRead
  rcases hRead with
    ⟨⟨kind, text, offset⟩, between, ⟨rfl, hKind⟩, hCode, rfl⟩
  simp only at hKind
  subst hKind
  exact ⟨_, rfl, .code hCode⟩

/- Reading a subject takes a spelling of it. -/
theorem spellsSubject_of_subject
    {stop : Nat}
    {tokens rest : List Token}
    {value : Subject}
    (hRead : subject stop tokens = .read value rest) :
    ∃ used,
      tokens = used ++ rest ∧ SpellsSubject value used := by
  rcases tokens with _ | ⟨⟨kind, text, offset⟩, tokens⟩
  · simp [subject, missing] at hRead
  · simp only [subject] at hRead
    split at hRead
    · cases hCode : (Vocabulary.ofCode? text : Option Stat) with
      | none => simp [hCode, failAt] at hRead
      | some found =>
          simp only [hCode, Outcome.read.injEq] at hRead
          rcases hRead with ⟨rfl, rfl⟩
          exact ⟨_, rfl, .stat hCode⟩
    · simp only [Outcome.read.injEq] at hRead
      rcases hRead with ⟨rfl, rfl⟩
      exact ⟨_, rfl, .condition text offset⟩
    · simp [missing] at hRead

------------------------------------------------------------
-- Magnitude And Duration
------------------------------------------------------------

/- A magnitude is left out, full, or a number. -/
inductive SpellsMagnitude :
    Option Magnitude → List Token → Prop where
  | absent : SpellsMagnitude none []
  | full
      (text : String)
      (offset : Nat) :
      SpellsMagnitude (some .full)
        [⟨.fullValue, text, offset⟩]
  | flat
      {text : String}
      {offset : Nat}
      {value : UInt32}
      (hNumeral : Text.wordOfNumeral? text = some value) :
      SpellsMagnitude (some (.flat value))
        [⟨.number, text, offset⟩]
  | percent
      {text sign : String}
      {offset place : Nat}
      {value : UInt32}
      (hNumeral : Text.wordOfNumeral? text = some value) :
      SpellsMagnitude (some (.percent value))
        [⟨.number, text, offset⟩, ⟨.percent, sign, place⟩]

/- The duration that a unit other than turns stands for. -/
def unitDuration? : Span → Option Duration
  | .turns => none
  | .combat => some .combat
  | .permanent => some .permanent
  | .action => some .action

/-
  A duration is left out, a unit by itself, a number of
  turns, or a range of turns in order.
-/
inductive SpellsDuration :
    Option Duration → List Token → Prop where
  | absent : SpellsDuration none []
  | unit
      {text : String}
      {offset : Nat}
      {span : Span}
      {value : Duration}
      (hCode : Vocabulary.ofCode? text = some span)
      (hUnit : unitDuration? span = some value) :
      SpellsDuration (some value)
        [⟨.durationType, text, offset⟩]
  | turns
      {text : String}
      {offset place : Nat}
      {count : UInt32}
      (hNumeral : Text.wordOfNumeral? text = some count) :
      SpellsDuration (some (.turns count))
        [⟨.number, text, offset⟩,
         ⟨.durationType, Vocabulary.code Span.turns, place⟩]
  | range
      {text dash other : String}
      {offset dashOffset otherOffset place : Nat}
      {first last : UInt32}
      (hFirst : Text.wordOfNumeral? text = some first)
      (hLast : Text.wordOfNumeral? other = some last)
      (hOrder : first ≤ last) :
      SpellsDuration (some (.turnRange first last))
        [⟨.number, text, offset⟩,
         ⟨.rangeDash, dash, dashOffset⟩,
         ⟨.number, other, otherOffset⟩,
         ⟨.durationType, Vocabulary.code Span.turns, place⟩]

/- Reading a magnitude takes a spelling of it. -/
theorem spellsMagnitude_of_magnitude
    {stop : Nat}
    {tokens rest : List Token}
    {value : Option Magnitude}
    (hRead : magnitude stop tokens = .read value rest) :
    ∃ used,
      tokens = used ++ rest ∧
        SpellsMagnitude value used := by
  rcases tokens with _ | ⟨⟨kind, text, offset⟩, tokens⟩
  · simp only [magnitude, Outcome.read.injEq] at hRead
    rcases hRead with ⟨rfl, rfl⟩
    exact ⟨[], rfl, .absent⟩
  · simp only [magnitude] at hRead
    split at hRead
    · simp only [Outcome.read.injEq] at hRead
      rcases hRead with ⟨rfl, rfl⟩
      exact ⟨_, rfl, .full text offset⟩
    · split at hRead
      · simp only [Outcome.read.injEq] at hRead
        rcases hRead with ⟨rfl, rfl⟩
        exact ⟨[], rfl, .absent⟩
      · simp only [bind_eq_read_iff,
          numeral_eq_read_iff] at hRead
        rcases hRead with
          ⟨number, _, ⟨hNumeral, rfl⟩, sign, between, hSign,
            hValue⟩
        cases sign with
        | none =>
            rw [eat?_eq_none_iff] at hSign
            simp only [pure_apply,
              Outcome.read.injEq] at hValue
            rcases hValue with ⟨rfl, rfl⟩
            rw [hSign.1]
            exact ⟨_, rfl, .flat hNumeral⟩
        | some sign =>
            rw [eat?_eq_some_iff] at hSign
            rcases sign with ⟨kind, sign, place⟩
            rcases hSign with ⟨rfl, hKind⟩
            simp only at hKind
            subst hKind
            simp only [pure_apply,
              Outcome.read.injEq] at hValue
            rcases hValue with ⟨rfl, rfl⟩
            exact ⟨_, rfl, .percent hNumeral⟩
    · simp only [Outcome.read.injEq] at hRead
      rcases hRead with ⟨rfl, rfl⟩
      exact ⟨[], rfl, .absent⟩

/- A marker of turns is one token with the code of turns. -/
theorem turnsMarker_eq_read_iff
    {stop : Nat}
    {tokens rest : List Token}
    {value : Unit} :
    turnsMarker stop tokens = .read value rest ↔
      ∃ place,
        tokens =
          ⟨.durationType, Vocabulary.code Span.turns,
            place⟩ :: rest := by
  rcases tokens with _ | ⟨⟨kind, text, offset⟩, tokens⟩
  · simp [turnsMarker, missing]
  · by_cases hMarker :
        kind = .durationType ∧
          text = Vocabulary.code Span.turns
    · simp [turnsMarker, isTurnsMarker, hMarker]
    · simp only [turnsMarker, isTurnsMarker,
        Bool.and_eq_true, decide_eq_true_eq, beq_iff_eq,
        hMarker, if_false, missing, reduceCtorEq,
        false_iff]
      intro hRead
      rcases hRead with ⟨place, hTokens⟩
      simp only [List.cons.injEq, Token.mk.injEq] at hTokens
      exact hMarker ⟨hTokens.1.1, hTokens.1.2.1⟩

/- Reading turns takes the rest of a spelling of them. -/
theorem spellsDuration_of_turns
    {text : String}
    {offset stop : Nat}
    {tokens rest : List Token}
    {value : Duration}
    (hRead :
      turns ⟨.number, text, offset⟩ stop tokens =
        .read value rest) :
    ∃ used,
      tokens = used ++ rest ∧
        SpellsDuration (some value)
          (⟨.number, text, offset⟩ :: used) := by
  simp only [turns, bind_eq_read_iff,
    numeral_eq_read_iff] at hRead
  rcases hRead with
    ⟨first, _, ⟨hFirst, rfl⟩, dash, between, hDash, hRead⟩
  cases dash with
  | none =>
      rw [eat?_eq_none_iff] at hDash
      simp only [bind_eq_read_iff, turnsMarker_eq_read_iff,
        pure_apply, Outcome.read.injEq] at hRead
      rcases hRead with ⟨_, _, ⟨place, rfl⟩, rfl, rfl⟩
      rw [← hDash.1]
      exact ⟨_, rfl, .turns hFirst⟩
  | some dash =>
      rw [eat?_eq_some_iff] at hDash
      rcases dash with ⟨kind, dash, dashOffset⟩
      rcases hDash with ⟨rfl, hKind⟩
      simp only at hKind
      subst hKind
      simp only [bind_eq_read_iff, number_eq_read_iff,
        turnsMarker_eq_read_iff] at hRead
      rcases hRead with
        ⟨last, _, ⟨other, otherOffset, rfl, hLast⟩, _, _,
          ⟨place, rfl⟩, hRead⟩
      split at hRead
      · simp [failAt] at hRead
      · rename_i hOrder
        simp only [pure_apply, Outcome.read.injEq] at hRead
        rcases hRead with ⟨rfl, rfl⟩
        exact ⟨_, rfl,
          .range hFirst hLast (UInt32.not_lt.mp hOrder)⟩

/- Reading a duration takes a spelling of it. -/
theorem spellsDuration_of_duration
    {stop : Nat}
    {tokens rest : List Token}
    {value : Option Duration}
    (hRead : duration stop tokens = .read value rest) :
    ∃ used,
      tokens = used ++ rest ∧
        SpellsDuration value used := by
  rcases tokens with _ | ⟨⟨kind, text, offset⟩, tokens⟩
  · simp only [duration, Outcome.read.injEq] at hRead
    rcases hRead with ⟨rfl, rfl⟩
    exact ⟨[], rfl, .absent⟩
  · simp only [duration] at hRead
    split at hRead
    · cases hCode : (Vocabulary.ofCode? text : Option Span) with
      | none => simp [hCode, failAt] at hRead
      | some span =>
          cases span with
          | turns => simp [hCode, failAt] at hRead
          | combat =>
              simp only [hCode, Outcome.read.injEq] at hRead
              rcases hRead with ⟨rfl, rfl⟩
              exact ⟨_, rfl, .unit hCode rfl⟩
          | permanent =>
              simp only [hCode, Outcome.read.injEq] at hRead
              rcases hRead with ⟨rfl, rfl⟩
              exact ⟨_, rfl, .unit hCode rfl⟩
          | action =>
              simp only [hCode, Outcome.read.injEq] at hRead
              rcases hRead with ⟨rfl, rfl⟩
              exact ⟨_, rfl, .unit hCode rfl⟩
    · rw [map_eq_read_iff] at hRead
      rcases hRead with ⟨found, hTurns, rfl⟩
      rcases spellsDuration_of_turns hTurns with
        ⟨used, rfl, hSpells⟩
      exact ⟨_, rfl, hSpells⟩
    · simp only [Outcome.read.injEq] at hRead
      rcases hRead with ⟨rfl, rfl⟩
      exact ⟨[], rfl, .absent⟩

------------------------------------------------------------
-- Conditions
------------------------------------------------------------

/-
  A condition is a bare name, or a name, an operator and a
  number, a percentage or another name.
-/
inductive SpellsCondition : Condition → List Token → Prop where
  | flag
      (name : String)
      (offset : Nat) :
      SpellsCondition (.flag name)
        [⟨.identifier, name, offset⟩]
  | number
      {name operator text : String}
      {offset place start : Nat}
      {value : UInt32}
      (hNumeral : Text.wordOfNumeral? text = some value) :
      SpellsCondition ⟨name, operator, .number value, false⟩
        [⟨.identifier, name, offset⟩,
         ⟨.comparison, operator, place⟩,
         ⟨.number, text, start⟩]
  | percent
      {name operator text sign : String}
      {offset place start last : Nat}
      {value : UInt32}
      (hNumeral : Text.wordOfNumeral? text = some value) :
      SpellsCondition ⟨name, operator, .number value, true⟩
        [⟨.identifier, name, offset⟩,
         ⟨.comparison, operator, place⟩,
         ⟨.number, text, start⟩, ⟨.percent, sign, last⟩]
  | name
      (name operator text : String)
      (offset place start : Nat) :
      SpellsCondition ⟨name, operator, nameValue text, false⟩
        [⟨.identifier, name, offset⟩,
         ⟨.comparison, operator, place⟩,
         ⟨.identifier, text, start⟩]

/- Reading a value takes the rest of a condition. -/
theorem spellsCondition_of_conditionValue
    {name operator : String}
    {offset place stop : Nat}
    {tokens rest : List Token}
    {value : ConditionValue × Bool}
    (hRead :
      conditionValue operator stop tokens =
        .read value rest) :
    ∃ used,
      tokens = used ++ rest ∧
        SpellsCondition ⟨name, operator, value.1, value.2⟩
          (⟨.identifier, name, offset⟩ ::
            ⟨.comparison, operator, place⟩ :: used) := by
  rcases tokens with _ | ⟨⟨kind, text, start⟩, tokens⟩
  · simp [conditionValue, missing] at hRead
  · simp only [conditionValue] at hRead
    split at hRead
    · simp only [bind_eq_read_iff,
        numeral_eq_read_iff] at hRead
      rcases hRead with
        ⟨number, _, ⟨hNumeral, rfl⟩, sign, between, hSign,
          hValue⟩
      simp only [pure_apply, Outcome.read.injEq] at hValue
      rcases hValue with ⟨rfl, rfl⟩
      cases sign with
      | none =>
          rw [eat?_eq_none_iff] at hSign
          rw [hSign.1]
          exact ⟨_, rfl, .number hNumeral⟩
      | some sign =>
          rw [eat?_eq_some_iff] at hSign
          rcases sign with ⟨kind, sign, last⟩
          rcases hSign with ⟨rfl, hKind⟩
          simp only at hKind
          subst hKind
          exact ⟨_, rfl, .percent hNumeral⟩
    · simp only [Outcome.read.injEq] at hRead
      rcases hRead with ⟨rfl, rfl⟩
      exact ⟨_, rfl, .name name operator text offset place start⟩
    · simp [missing] at hRead

/- Reading a condition takes a spelling of it. -/
theorem spellsCondition_of_condition
    {stop : Nat}
    {tokens rest : List Token}
    {value : Condition}
    (hRead : condition stop tokens = .read value rest) :
    ∃ used,
      tokens = used ++ rest ∧
        SpellsCondition value used := by
  simp only [condition, bind_eq_read_iff,
    expect_eq_read_iff] at hRead
  rcases hRead with
    ⟨⟨kind, name, offset⟩, _, ⟨rfl, hKind⟩, operator,
      between, hOperator, hRead⟩
  simp only at hKind
  subst hKind
  cases operator with
  | none =>
      rw [eat?_eq_none_iff] at hOperator
      simp only [pure_apply, Outcome.read.injEq] at hRead
      rcases hRead with ⟨rfl, rfl⟩
      rw [hOperator.1]
      exact ⟨_, rfl, .flag name offset⟩
  | some operator =>
      rw [eat?_eq_some_iff] at hOperator
      rcases operator with ⟨kind, operator, place⟩
      rcases hOperator with ⟨rfl, hKind⟩
      simp only at hKind
      subst hKind
      simp only [bind_eq_read_iff, pure_apply,
        Outcome.read.injEq] at hRead
      rcases hRead with ⟨found, _, hFound, rfl, rfl⟩
      rcases spellsCondition_of_conditionValue hFound with
        ⟨used, rfl, hSpells⟩
      exact ⟨_, rfl, hSpells⟩

------------------------------------------------------------
-- Trigger
------------------------------------------------------------

/-
  A trigger is left out, an event with or without its sign,
  a chance of at most one hundred percent, or a condition.
-/
inductive SpellsTrigger :
    Option Trigger → List Token → Prop where
  | absent : SpellsTrigger none []
  | plain
      {text : String}
      {offset : Nat}
      {event : Event}
      (hEvent : plainEvent? text = some event) :
      SpellsTrigger (some (.event event))
        [⟨.triggerType, text, offset⟩]
  | signed
      {sign letter : String}
      {offset place : Nat}
      {event : Event}
      (hCode :
        Vocabulary.ofCode? (sign ++ letter) = some event) :
      SpellsTrigger (some (.event event))
        [⟨.triggerSign, sign, offset⟩,
         ⟨.triggerType, letter, place⟩]
  | chance
      {sign text last : String}
      {offset start place : Nat}
      {percent : UInt32}
      (hNumeral : Text.wordOfNumeral? text = some percent)
      (hBound : percent ≤ 100) :
      SpellsTrigger (some (.chance percent))
        [⟨.conditionSign, sign, offset⟩,
         ⟨.number, text, start⟩, ⟨.percent, last, place⟩]
  | condition
      {sign : String}
      {offset : Nat}
      {test : Condition}
      {tokens : List Token}
      (hTest : SpellsCondition test tokens) :
      SpellsTrigger (some (.condition test))
        (⟨.conditionSign, sign, offset⟩ :: tokens)

/- Reading what follows the sign takes a chance or a condition. -/
theorem spellsTrigger_of_chanceOrCondition
    {sign : String}
    {offset stop : Nat}
    {tokens rest : List Token}
    {value : Trigger}
    (hRead :
      chanceOrCondition stop tokens = .read value rest) :
    ∃ used,
      tokens = used ++ rest ∧
        SpellsTrigger (some value)
          (⟨.conditionSign, sign, offset⟩ :: used) := by
  rcases tokens with _ | ⟨⟨kind, text, start⟩, tokens⟩
  · simp [chanceOrCondition, missing] at hRead
  · simp only [chanceOrCondition] at hRead
    split at hRead
    · simp only [map_eq_read_iff, chance, bind_eq_read_iff,
        numeral_eq_read_iff, expect_eq_read_iff] at hRead
      rcases hRead with
        ⟨_, ⟨percent, _, ⟨hNumeral, rfl⟩,
          ⟨kind, last, place⟩, _, ⟨rfl, hKind⟩, hRead⟩, rfl⟩
      simp only at hKind
      subst hKind
      split at hRead
      · simp [failAt] at hRead
      · rename_i hBound
        simp only [pure_apply, Outcome.read.injEq] at hRead
        rcases hRead with ⟨rfl, rfl⟩
        exact ⟨_, rfl,
          .chance hNumeral (UInt32.not_lt.mp hBound)⟩
    · rw [map_eq_read_iff] at hRead
      rcases hRead with ⟨test, hTest, rfl⟩
      rcases spellsCondition_of_condition hTest with
        ⟨used, hUsed, hSpells⟩
      exact ⟨used, hUsed, .condition hSpells⟩
    · simp [missing] at hRead

/- Reading a trigger takes a spelling of it. -/
theorem spellsTrigger_of_trigger
    {stop : Nat}
    {tokens rest : List Token}
    {value : Option Trigger}
    (hRead : trigger stop tokens = .read value rest) :
    ∃ used,
      tokens = used ++ rest ∧ SpellsTrigger value used := by
  rcases tokens with _ | ⟨⟨kind, text, offset⟩, tokens⟩
  · simp only [trigger, Outcome.read.injEq] at hRead
    rcases hRead with ⟨rfl, rfl⟩
    exact ⟨[], rfl, .absent⟩
  · simp only [trigger] at hRead
    split at hRead
    · cases hEvent : plainEvent? text with
      | none => simp [hEvent, failAt] at hRead
      | some event =>
          simp only [hEvent, Outcome.read.injEq] at hRead
          rcases hRead with ⟨rfl, rfl⟩
          exact ⟨_, rfl, .plain hEvent⟩
    · simp only [map_eq_read_iff, signedEvent,
        bind_eq_read_iff, expect_eq_read_iff] at hRead
      rcases hRead with
        ⟨event, ⟨⟨kind, letter, place⟩, _, ⟨rfl, hKind⟩,
          hEvent⟩, rfl⟩
      simp only at hKind
      subst hKind
      cases hCode :
          (Vocabulary.ofCode? (text ++ letter) :
            Option Event) with
      | none => simp [hCode, failAt] at hEvent
      | some found =>
          simp only [hCode, pure_apply,
            Outcome.read.injEq] at hEvent
          rcases hEvent with ⟨rfl, rfl⟩
          exact ⟨_, rfl, .signed hCode⟩
    · rw [map_eq_read_iff] at hRead
      rcases hRead with ⟨found, hFound, rfl⟩
      rcases spellsTrigger_of_chanceOrCondition hFound with
        ⟨used, rfl, hSpells⟩
      exact ⟨_, rfl, hSpells⟩
    · simp only [Outcome.read.injEq] at hRead
      rcases hRead with ⟨rfl, rfl⟩
      exact ⟨[], rfl, .absent⟩

------------------------------------------------------------
-- Elements
------------------------------------------------------------

/- Further elements, each behind a comma. -/
inductive SpellsMore : List Element → List Token → Prop where
  | none : SpellsMore [] []
  | more
      {comma text : String}
      {offset place : Nat}
      {first : Element}
      {others : List Element}
      {tokens : List Token}
      (hCode : Vocabulary.ofCode? text = some first)
      (hOthers : SpellsMore others tokens) :
      SpellsMore (first :: others)
        (⟨.comma, comma, offset⟩ ::
          ⟨.element, text, place⟩ :: tokens)

/- Elements are left out, or one and further ones. -/
inductive SpellsElements :
    List Element → List Token → Prop where
  | absent : SpellsElements [] []
  | some
      {text : String}
      {offset : Nat}
      {first : Element}
      {others : List Element}
      {tokens : List Token}
      (hCode : Vocabulary.ofCode? text = some first)
      (hOthers : SpellsMore others tokens) :
      SpellsElements (first :: others)
        (⟨.element, text, offset⟩ :: tokens)

/- An element is one token with its code. -/
theorem element_eq_read_iff
    {stop : Nat}
    {tokens rest : List Token}
    {value : Element} :
    element stop tokens = .read value rest ↔
      ∃ text offset,
        tokens = ⟨.element, text, offset⟩ :: rest ∧
          Vocabulary.ofCode? text = some value := by
  simp only [element, bind_eq_read_iff, expect_eq_read_iff,
    word_eq_read_iff]
  constructor
  · intro hRead
    rcases hRead with
      ⟨⟨kind, text, offset⟩, _, ⟨rfl, hKind⟩, hCode, rfl⟩
    simp only at hKind
    subst hKind
    exact ⟨text, offset, rfl, hCode⟩
  · intro hRead
    rcases hRead with ⟨text, offset, rfl, hCode⟩
    exact ⟨_, rest, ⟨rfl, rfl⟩, hCode, rfl⟩

/- Reading further elements takes a spelling of them. -/
theorem spellsMore_of_moreElements
    {stop : Nat}
    {tokens rest : List Token}
    {values : List Element}
    (hRead :
      moreElements stop tokens = .read values rest) :
    ∃ used,
      tokens = used ++ rest ∧ SpellsMore values used := by
  fun_induction moreElements stop tokens
    generalizing values with
  | case1 =>
      simp only [Outcome.read.injEq] at hRead
      rcases hRead with ⟨rfl, rfl⟩
      exact ⟨[], rfl, .none⟩
  | case2 => simp [missing] at hRead
  | case3 => simp at hRead
  | case4 comma hComma token tokens first between hFirst
      others left hOthers ih =>
      simp only [Outcome.read.injEq] at hRead
      rcases hRead with ⟨rfl, rfl⟩
      rw [element_eq_read_iff] at hFirst
      rcases hFirst with ⟨text, place, hToken, hCode⟩
      rcases List.cons.inj hToken with ⟨rfl, rfl⟩
      rcases ih hOthers with ⟨used, rfl, hSpells⟩
      rcases comma with ⟨kind, comma, offset⟩
      simp only at hComma
      subst hComma
      exact ⟨_, rfl, .more hCode hSpells⟩
  | case5 => simp at hRead
  | case6 =>
      simp only [Outcome.read.injEq] at hRead
      rcases hRead with ⟨rfl, rfl⟩
      exact ⟨[], rfl, .none⟩

/- Reading elements takes a spelling of them. -/
theorem spellsElements_of_elements
    {stop : Nat}
    {tokens rest : List Token}
    {values : List Element}
    (hRead : elements stop tokens = .read values rest) :
    ∃ used,
      tokens = used ++ rest ∧
        SpellsElements values used := by
  rcases tokens with _ | ⟨token, tokens⟩
  · simp only [elements, Outcome.read.injEq] at hRead
    rcases hRead with ⟨rfl, rfl⟩
    exact ⟨[], rfl, .absent⟩
  · simp only [elements] at hRead
    split at hRead
    · simp only [bind_eq_read_iff,
        element_eq_read_iff] at hRead
      rcases hRead with
        ⟨first, _, ⟨text, offset, hToken, hCode⟩, hRead⟩
      rcases bind_eq_read_iff.mp hRead with
        ⟨others, _, hOthers, hRead⟩
      simp only [pure_apply, Outcome.read.injEq] at hRead
      rcases hRead with ⟨rfl, rfl⟩
      rcases spellsMore_of_moreElements hOthers with
        ⟨used, rfl, hSpells⟩
      exact ⟨_, hToken, .some hCode hSpells⟩
    · simp only [Outcome.read.injEq] at hRead
      rcases hRead with ⟨rfl, rfl⟩
      exact ⟨[], rfl, .absent⟩

------------------------------------------------------------
-- Core
------------------------------------------------------------

/- The core clauses of an effect, one after the other. -/
inductive SpellsCore : Effect → List Token → Prop where
  | clauses
      {target : Target}
      {change : Change}
      {subject : Subject}
      {magnitude : Option Magnitude}
      {duration : Option Duration}
      {trigger : Option Trigger}
      {elements : List Element}
      {first second third fourth fifth sixth last :
        List Token}
      (hTarget : SpellsTarget target first)
      (hChange : SpellsChange change second)
      (hSubject : SpellsSubject subject third)
      (hMagnitude : SpellsMagnitude magnitude fourth)
      (hDuration : SpellsDuration duration fifth)
      (hTrigger : SpellsTrigger trigger sixth)
      (hElements : SpellsElements elements last) :
      SpellsCore
        { target, change, subject, magnitude, duration,
          trigger, elements }
        (first ++ (second ++ (third ++ (fourth ++
          (fifth ++ (sixth ++ last))))))

/- Nothing is left behind the core, or a section starts. -/
def AtSection (tokens : List Token) : Prop :=
  ∀ token ∈ tokens.head?, token.kind = .delimiter

/- The core ends where nothing or a section follows. -/
theorem coreEnd_eq_read_iff
    {stop : Nat}
    {tokens rest : List Token}
    {value : Unit} :
    coreEnd stop tokens = .read value rest ↔
      rest = tokens ∧ AtSection tokens := by
  rcases tokens with _ | ⟨token, tokens⟩
  · simp [coreEnd, AtSection, eq_comm]
  · by_cases hKind : token.kind = .delimiter
    · simp [coreEnd, AtSection, hKind, eq_comm]
    · simp [coreEnd, AtSection, hKind, failAt]

/- Reading the core takes a spelling of it. -/
theorem spellsCore_of_core
    {stop : Nat}
    {tokens rest : List Token}
    {effect : Effect}
    (hRead : core stop tokens = .read effect rest) :
    ∃ used,
      tokens = used ++ rest ∧
        SpellsCore effect used ∧ AtSection rest := by
  simp only [core, bind_eq_read_iff, coreEnd_eq_read_iff,
    pure_apply, Outcome.read.injEq] at hRead
  rcases hRead with
    ⟨_, _, hTarget, _, _, hChange, _, _, hSubject, _, _,
      hMagnitude, _, _, hDuration, _, _, hTrigger, _, _,
      hElements, _, _, ⟨rfl, hEnd⟩, rfl, rfl⟩
  rcases spellsTarget_of_target hTarget with
    ⟨first, rfl, hSpellsTarget⟩
  rcases spellsChange_of_change hChange with
    ⟨second, rfl, hSpellsChange⟩
  rcases spellsSubject_of_subject hSubject with
    ⟨third, rfl, hSpellsSubject⟩
  rcases spellsMagnitude_of_magnitude hMagnitude with
    ⟨fourth, rfl, hSpellsMagnitude⟩
  rcases spellsDuration_of_duration hDuration with
    ⟨fifth, rfl, hSpellsDuration⟩
  rcases spellsTrigger_of_trigger hTrigger with
    ⟨sixth, rfl, hSpellsTrigger⟩
  rcases spellsElements_of_elements hElements with
    ⟨last, rfl, hSpellsElements⟩
  refine
    ⟨_, ?_, .clauses hSpellsTarget hSpellsChange
      hSpellsSubject hSpellsMagnitude hSpellsDuration
      hSpellsTrigger hSpellsElements, hEnd⟩
  simp only [List.append_assoc]

end Grammar

end StatusEffect
