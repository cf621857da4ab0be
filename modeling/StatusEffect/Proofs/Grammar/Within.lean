import StatusEffect.Proofs.Grammar.Clause
import StatusEffect.Proofs.Grammar.Justified
import StatusEffect.Proofs.Grammar.Places

/-
  Readings within their tokens.

  A reader stays within its tokens if it leaves none but them
  and fails at one of them or where they stop. That holds of
  all that follows the mandatory clauses, for these readers
  know of no other places. So what follows the subject cannot
  fail in front of its own first token.

  Key definitions include:
    * `Outcome.Within`
    * `Reader.Stays`
    * `Grammar.mandatory`
    * `Grammar.optionalClauses`
    * `Grammar.sections`
    * `Grammar.behindMandatory`

  Key theorems include:
    * `Reader.within_bind`
    * `Grammar.stays_optionalClauses`
    * `Grammar.stays_sections`
    * `Grammar.recordWith_eq_mandatory_bind`
-/

------------------------------------------------------------
-- Outcomes Within Tokens
------------------------------------------------------------

namespace StatusEffect

/- The marks of some tokens are marks of any more of them. -/
theorem mem_marks_of_subset
    {stop offset : Nat}
    {tokens all : List Token}
    (hTokens : tokens ⊆ all)
    (hOffset : offset ∈ marks stop tokens) :
    offset ∈ marks stop all := by
  rcases List.mem_append.mp hOffset with hToken | hStop
  · apply List.mem_append_left
    exact List.map_subset _ hTokens hToken
  · exact List.mem_append_right _ hStop

namespace Outcome

variable {α : Type}

/-
  An outcome leaves some of the tokens, or it is stuck at one
  of them or where they stop.
-/
def Within
    (stop : Nat)
    (all : List Token) : Outcome α → Prop
  | .read _ rest => rest ⊆ all
  | .stuck failure _ => failure.offset ∈ marks stop all

/- What is within some tokens is within any more of them. -/
theorem Within.mono
    {stop : Nat}
    {tokens all : List Token}
    {outcome : Outcome α}
    (hOutcome : outcome.Within stop tokens)
    (hTokens : tokens ⊆ all) :
    outcome.Within stop all := by
  cases outcome with
  | read value rest =>
      exact List.Subset.trans hOutcome hTokens
  | stuck failure rest =>
      exact mem_marks_of_subset hTokens hOutcome

/- A failure within some tokens is at one of their marks. -/
theorem Within.offset_mem_marks
    {stop : Nat}
    {all : List Token}
    {outcome : Outcome α}
    (hOutcome : outcome.Within stop all)
    {failure : Failure}
    (hFailure : outcome.result = .error failure) :
    failure.offset ∈ marks stop all := by
  cases outcome with
  | read value rest => cases hFailure
  | stuck other rest =>
      cases hFailure
      exact hOutcome

end Outcome

------------------------------------------------------------
-- Readers Within Tokens
------------------------------------------------------------

namespace Reader

variable {α β : Type}

/- A reader has outcomes within its own tokens only. -/
def Stays (reader : Reader α) : Prop :=
  ∀ stop tokens,
    (reader stop tokens).Within stop tokens

/- Readers that move along stay, if they only leave tokens. -/
theorem stays_of_moves
    {reader : Reader α}
    (hMoves : ∀ place, Moves place id reader reader)
    (hRest :
      ∀ stop tokens value rest,
        reader stop tokens = .read value rest →
          rest ⊆ tokens) :
    Stays reader := by
  intro stop tokens
  cases hOutcome : reader stop tokens with
  | read value rest =>
      exact hRest stop tokens value rest hOutcome
  | stuck failure rest =>
      exact offset_mem_marks hMoves hOutcome

/- Readers that move along and are justified stay. -/
theorem stays_of_justifies
    {reader : Reader α}
    (hMoves : ∀ place, Moves place id reader reader)
    (hReader : ∀ all, Justifies all Any reader) :
    Stays reader := by
  refine stays_of_moves hMoves ?_
  intro stop tokens value rest hRead
  have hOutcome :=
    hReader tokens stop tokens (List.Subset.refl tokens)
  rw [hRead] at hOutcome
  exact hOutcome.2

/- Reading nothing stays. -/
theorem stays_pure
    (value : α) :
    Stays (pure value) :=
  fun _ tokens => List.Subset.refl tokens

/-
  What is within some tokens stays within them with readers
  that stay.
-/
theorem within_bind
    {reader : Reader α}
    {next : α → Reader β}
    {stop : Nat}
    {tokens all : List Token}
    (hReader : (reader stop tokens).Within stop all)
    (hNext : ∀ value, Stays (next value)) :
    ((reader >>= next) stop tokens).Within stop all := by
  rw [bind_apply]
  cases hOutcome : reader stop tokens with
  | read value rest =>
      rw [hOutcome] at hReader
      exact (hNext value stop rest).mono hReader
  | stuck failure rest =>
      rw [hOutcome] at hReader
      exact hReader

/- Readers that stay do so in turn. -/
theorem Stays.bind
    {reader : Reader α}
    {next : α → Reader β}
    (hReader : Stays reader)
    (hNext : ∀ value, Stays (next value)) :
    Stays (reader >>= next) :=
  fun stop tokens => within_bind (hReader stop tokens) hNext

/- An image of a reader stays where the reader does. -/
theorem Stays.map
    {reader : Reader α}
    (hReader : Stays reader)
    (image : α → β) :
    Stays (image <$> reader) :=
  hReader.bind fun value => stays_pure (image value)

/- A reader that stays leaves nothing of nothing. -/
theorem Stays.rest_eq_nil
    {reader : Reader α}
    (hReader : Stays reader)
    {stop : Nat}
    {value : α}
    {rest : List Token}
    (hRead : reader stop [] = .read value rest) :
    rest = [] := by
  have hOutcome := hReader stop []
  rw [hRead] at hOutcome
  exact List.subset_nil.mp hOutcome

/- An optional token is one of the tokens. -/
theorem stays_eat?
    (kind : TokenKind) :
    Stays (eat? kind) := by
  intro stop tokens
  cases tokens with
  | nil => exact List.Subset.refl []
  | cons token rest =>
      by_cases hKind : token.kind = kind
      · simp only [eat?, hKind, if_true]
        exact List.subset_cons_self token rest
      · simp only [eat?, hKind, if_false]
        exact List.Subset.refl _

/- Readings may be grouped in either way. -/
theorem bind_assoc
    {γ : Type}
    (reader : Reader α)
    (next : α → Reader β)
    (last : β → Reader γ) :
    reader >>= next >>= last =
      reader >>= fun value => next value >>= last := by
  funext stop tokens
  simp only [bind_apply]
  cases reader stop tokens with
  | read value rest => rfl
  | stuck failure rest => rfl

end Reader

------------------------------------------------------------
-- Clauses
------------------------------------------------------------

namespace Grammar

open Reader

/- A magnitude is read within the tokens. -/
theorem stays_magnitude : Stays magnitude :=
  stays_of_justifies (fun _ => moves_magnitude)
    fun _ => justifies_magnitude

/- The end of a range is read within the tokens. -/
theorem stays_rangeEnd : Stays (number .rangeEnd) :=
  stays_of_justifies (fun _ => moves_number .rangeEnd)
    fun _ => justifies_number trivial

/- The marker of turns is read within the tokens. -/
theorem stays_turnsMarker : Stays turnsMarker :=
  stays_of_justifies (fun _ => moves_turnsMarker)
    fun _ => justifies_turnsMarker

/- A duration is read within the tokens. -/
theorem stays_duration : Stays duration :=
  stays_of_justifies (fun _ => moves_duration)
    fun _ => justifies_duration

/- The value of a condition is read within the tokens. -/
theorem stays_conditionValue
    (operator : String) :
    Stays (conditionValue operator) := by
  refine
    stays_of_moves (fun _ => moves_conditionValue operator) ?_
  intro stop tokens value rest hRead
  rcases
      @spellsCondition_of_conditionValue "" operator 0 0 stop
        tokens rest value hRead with
    ⟨used, rfl, _⟩
  exact List.subset_append_right used rest

/- A trigger is read within the tokens. -/
theorem stays_trigger : Stays trigger :=
  stays_of_justifies (fun _ => moves_trigger)
    fun _ => justifies_trigger

/- Further elements are read within the tokens. -/
theorem stays_moreElements :
    Stays (moreElements : Reader (List Element)) :=
  stays_of_justifies (fun _ => moves_moreElements)
    fun _ => justifies_moreElements

/- Elements are read within the tokens. -/
theorem stays_elements : Stays elements :=
  stays_of_justifies (fun _ => moves_elements)
    fun _ => justifies_elements

/- The end of the core clauses is within the tokens. -/
theorem stays_coreEnd : Stays coreEnd :=
  stays_of_justifies (fun _ => moves_coreEnd)
    fun _ => justifies_coreEnd

------------------------------------------------------------
-- Core Clauses In Two Parts
------------------------------------------------------------

/- The three clauses that no notation leaves out. -/
def mandatory : Reader (Target × Change × Subject) := do
  let target ← target
  let change ← change
  let subject ← subject
  pure (target, change, subject)

/- The clauses behind the duration, up to the sections. -/
def lastClauses
    (start : Target × Change × Subject)
    (magnitude : Option Magnitude)
    (duration : Option Duration) : Reader Effect := do
  let trigger ← trigger
  let elements ← elements
  coreEnd
  pure
    { target := start.1
      change := start.2.1
      subject := start.2.2
      magnitude, duration, trigger, elements }

/- The clauses behind the magnitude, up to the sections. -/
def lateClauses
    (start : Target × Change × Subject)
    (magnitude : Option Magnitude) : Reader Effect :=
  duration >>= lastClauses start magnitude

/- The clauses behind the mandatory ones. -/
def optionalClauses
    (start : Target × Change × Subject) : Reader Effect :=
  magnitude >>= lateClauses start

/- The core clauses are mandatory ones and optional ones. -/
theorem core_eq_bind :
    core = mandatory >>= optionalClauses := by
  simp only [mandatory, bind_assoc]
  rfl

/- The clauses behind the duration stay. -/
theorem stays_lastClauses
    (start : Target × Change × Subject)
    (magnitude : Option Magnitude)
    (duration : Option Duration) :
    Stays (lastClauses start magnitude duration) := by
  refine stays_trigger.bind fun trigger => ?_
  refine stays_elements.bind fun elements => ?_
  exact stays_coreEnd.map _

/- The clauses behind the magnitude stay. -/
theorem stays_lateClauses
    (start : Target × Change × Subject)
    (magnitude : Option Magnitude) :
    Stays (lateClauses start magnitude) :=
  stays_duration.bind (stays_lastClauses start magnitude)

/- The optional clauses stay. -/
theorem stays_optionalClauses
    (start : Target × Change × Subject) :
    Stays (optionalClauses start) :=
  stays_magnitude.bind (stays_lateClauses start)

------------------------------------------------------------
-- Sections
------------------------------------------------------------

/-
  A reader for nested notations works at all levels, and gives
  reasons for its failures.
-/
structure SoundNested
    (nested : Option (Reader Record)) : Prop where
  moves : ∀ place, MovesNested place nested
  justifies : JustifiesNested nested

/- Notations may be nested in notations. -/
theorem soundNested_record
    (levels : Nat) :
    SoundNested (some (record levels)) := by
  constructor
  · rintro place reader hReader
    cases hReader
    exact moves_record levels
  · rintro reader hReader
    cases hReader
    exact justifies_record levels

/- A chain target is read within the tokens. -/
theorem stays_chainTarget
    {nested : Option (Reader Record)}
    (hNested : SoundNested nested) :
    Stays (chainTarget nested) :=
  stays_of_justifies
    (fun place => moves_chainTarget (hNested.moves place))
    fun _ => justifies_chainTarget hNested.justifies

/- An amount is read within the tokens. -/
theorem stays_resourceAmount : Stays resourceAmount :=
  stays_of_justifies (fun _ => moves_resourceAmount)
    fun _ => justifies_resourceAmount

/- The end of a section is within the tokens. -/
theorem stays_sectionEnd
    (head : Token) :
    Stays (sectionEnd head) := by
  refine stays_of_moves (fun _ => moves_sectionEnd head) ?_
  intro stop tokens value rest hRead
  cases tokens with
  | nil =>
      cases hRead
      exact List.Subset.refl []
  | cons token others => cases hRead

/- A section is read within the tokens. -/
theorem stays_extension
    {nested : Option (Reader Record)}
    (hNested : SoundNested nested) :
    Stays (extension nested) :=
  stays_of_justifies
    (fun place => moves_extension (hNested.moves place))
    fun _ => justifies_extension hNested.justifies

/- All sections behind the core clauses. -/
def sections
    (nested : Option (Reader Record)) :
    Reader (List Extension) :=
  fun stop tokens =>
    match extensions nested (Section.split stop tokens) with
    | .error failure => .stuck failure tokens
    | .ok values => .read values []

/- Sections move along. -/
theorem moves_sections
    {place : Nat → Nat}
    {nested : Option (Reader Record)}
    (hNested : MovesNested place nested) :
    Moves place id (sections nested) (sections nested) := by
  intro stop tokens
  simp only [sections, Section.split_moved,
    extensions_moved hNested]
  cases extensions nested (Section.split stop tokens) with
  | error failure => rfl
  | ok values => rfl

/- All sections are read within the tokens. -/
theorem stays_sections
    {nested : Option (Reader Record)}
    (hNested : SoundNested nested) :
    Stays (sections nested) := by
  refine
    stays_of_moves
      (fun place => moves_sections (hNested.moves place)) ?_
  intro stop tokens value rest hRead
  unfold sections at hRead
  split at hRead
  · cases hRead
  · cases hRead
    exact List.nil_subset tokens

/- The record of an effect and all sections behind it. -/
def withSections
    (nested : Option (Reader Record))
    (effect : Effect) : Reader Record :=
  (·.foldl Record.extend ⟨effect, []⟩) <$> sections nested

/- What follows the mandatory clauses of a record. -/
def behindMandatory
    (nested : Option (Reader Record))
    (start : Target × Change × Subject) : Reader Record :=
  optionalClauses start >>= withSections nested

/- A record is its core clauses and then its sections. -/
theorem recordWith_eq_bind
    (nested : Option (Reader Record)) :
    recordWith nested = core >>= withSections nested := by
  funext stop tokens
  simp only [recordWith, bind_apply]
  cases core stop tokens with
  | stuck failure rest => rfl
  | read effect rest =>
      change _ = (sections nested >>= _) stop rest
      simp only [bind_apply, sections, extended]
      cases extensions nested (Section.split stop rest) with
      | error failure => rfl
      | ok values => rfl

/- A record is its mandatory clauses and what follows them. -/
theorem recordWith_eq_mandatory_bind
    (nested : Option (Reader Record)) :
    recordWith nested =
      mandatory >>= behindMandatory nested := by
  rw [recordWith_eq_bind, core_eq_bind, bind_assoc]
  rfl

/- The sections behind an effect stay. -/
theorem stays_withSections
    {nested : Option (Reader Record)}
    (hNested : SoundNested nested)
    (effect : Effect) :
    Stays (withSections nested effect) :=
  (stays_sections hNested).map _

/- What follows the mandatory clauses stays. -/
theorem stays_behindMandatory
    {nested : Option (Reader Record)}
    (hNested : SoundNested nested)
    (start : Target × Change × Subject) :
    Stays (behindMandatory nested start) := by
  refine (stays_optionalClauses start).bind fun effect => ?_
  exact stays_withSections hNested effect

end Grammar

end StatusEffect
