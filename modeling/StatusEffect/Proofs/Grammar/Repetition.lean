import Mathlib.Control.Monad.Basic
import Mathlib.Logic.Function.Iterate
import StatusEffect.Grammar.Parse
import StatusEffect.Proofs.Grammar.Clause

/-
  Reading some tokens again and again.

  A reading that is repeated goes on where the last one
  ended. Every reader of core clauses leaves the end of its
  tokens, also when it gets stuck. So repeated readings only
  move forward. One that does not move would be stuck in the
  same way for ever, and a reading can move only as often as
  there are tokens.

  Key definitions include:
    * `Reader.Advances`
    * `Grammar.Call`
    * `Grammar.leftAfter`
    * `Grammar.cursorAfter`
    * `Grammar.answer`

  Key theorems include:
    * `Grammar.advances_core`
    * `Grammar.call_parseTokens`
    * `Grammar.leftAfter_eq_of_fixed`
    * `Grammar.parses_settle`
-/

------------------------------------------------------------
-- Readers In General
------------------------------------------------------------

namespace StatusEffect

namespace Reader

variable {α β : Type}

/- A reader leaves the end of its tokens, stuck or not. -/
def Advances (reader : Reader α) : Prop :=
  ∀ stop tokens, (reader stop tokens).rest <:+ tokens

/- What a reader leaves behind a token is an end with it. -/
theorem Advances.behind
    {reader : Reader α}
    (hReader : Advances reader)
    (stop : Nat)
    (token : Token)
    (tokens : List Token) :
    (reader stop tokens).rest <:+ token :: tokens :=
  (hReader stop tokens).trans (List.suffix_cons token tokens)

/- Reading nothing leaves all tokens. -/
theorem advances_pure
    (value : α) :
    Advances (pure value) :=
  fun _ tokens => List.suffix_refl tokens

/- The second reader leaves an end of what the first does. -/
theorem Advances.bind
    {reader : Reader α}
    {next : α → Reader β}
    (hReader : Advances reader)
    (hNext : ∀ value, Advances (next value)) :
    Advances (reader >>= next) := by
  intro stop tokens
  have hFirst := hReader stop tokens
  rw [bind_apply]
  cases hOutcome : reader stop tokens with
  | read value rest =>
      rw [hOutcome] at hFirst
      exact (hNext value stop rest).trans hFirst
  | stuck failure rest =>
      rw [hOutcome] at hFirst
      exact hFirst

/- The image of a value does not matter. -/
theorem Advances.map
    {reader : Reader α}
    (hReader : Advances reader)
    (image : α → β) :
    Advances (image <$> reader) :=
  hReader.bind fun value => advances_pure (image value)

/- A failure at an earlier offset leaves all tokens. -/
theorem advances_failAt
    (offset : Nat)
    (cause : Cause) :
    Advances (failAt offset cause : Reader α) :=
  fun _ tokens => List.suffix_refl tokens

/- A reader advances if it does where there is a token. -/
theorem advances_of_cons
    {reader : Reader α}
    (hNil : ∀ stop, (reader stop []).rest = [])
    (hCons :
      ∀ stop token rest,
        (reader stop (token :: rest)).rest <:+
          token :: rest) :
    Advances reader := by
  intro stop tokens
  cases tokens with
  | nil => simp [hNil]
  | cons token rest => exact hCons stop token rest

/- An optional token leaves what is behind it. -/
theorem advances_eat?
    (kind : TokenKind) :
    Advances (eat? kind) := by
  refine advances_of_cons (fun _ => rfl) ?_
  intro stop token rest
  simp only [eat?]
  split
  · exact List.suffix_cons token rest
  · exact List.suffix_refl _

/- An expected token leaves what is behind it. -/
theorem advances_expect
    (kind : TokenKind)
    (what : Expectation) :
    Advances (expect kind what) := by
  refine advances_of_cons (fun _ => rfl) ?_
  intro stop token rest
  simp only [expect]
  split
  · exact List.suffix_cons token rest
  · exact List.suffix_refl _

/- A text already read leaves all tokens. -/
theorem advances_word
    [Vocabulary α]
    (role : Role)
    (token : Token) :
    Advances (word role token : Reader α) := by
  unfold word
  split
  · exact advances_pure _
  · exact advances_failAt _ _

/- A number already read leaves all tokens. -/
theorem advances_numeral
    (token : Token) :
    Advances (numeral token) := by
  unfold numeral
  split
  · exact advances_pure _
  · exact advances_failAt _ _

/- A number leaves what is behind it. -/
theorem advances_number
    (what : Expectation) :
    Advances (number what) :=
  (advances_expect .number what).bind advances_numeral

end Reader

------------------------------------------------------------
-- Clauses
------------------------------------------------------------

namespace Grammar

open Reader

/- A target moves forward, or stays if it is not known. -/
theorem advances_target : Advances target := by
  refine advances_of_cons (fun _ => rfl) ?_
  intro stop token rest
  simp only [target]
  split
  · split
    · exact List.suffix_cons token rest
    · exact List.suffix_refl _
  · exact List.suffix_refl _

/- A change moves forward. -/
theorem advances_change : Advances change :=
  (advances_expect _ _).bind fun token => advances_word _ token

/- A subject moves forward, or stays if it is not known. -/
theorem advances_subject : Advances subject := by
  refine advances_of_cons (fun _ => rfl) ?_
  intro stop token rest
  simp only [subject]
  split
  · split
    · exact List.suffix_cons token rest
    · exact List.suffix_refl _
  · exact List.suffix_cons token rest
  · exact List.suffix_refl _

/- A magnitude moves forward. -/
theorem advances_magnitude : Advances magnitude := by
  refine advances_of_cons (fun _ => rfl) ?_
  intro stop token rest
  simp only [magnitude]
  split
  · exact List.suffix_cons token rest
  · split
    · exact List.suffix_refl _
    · refine Advances.behind ?_ stop token rest
      refine (advances_numeral token).bind fun value => ?_
      refine (advances_eat? .percent).bind fun sign => ?_
      cases sign <;> exact advances_pure _
  · exact List.suffix_refl _

/- The marker of turns moves forward. -/
theorem advances_turnsMarker : Advances turnsMarker := by
  refine advances_of_cons (fun _ => rfl) ?_
  intro stop token rest
  simp only [turnsMarker]
  split
  · exact List.suffix_cons token rest
  · exact List.suffix_refl _

/- A number of turns moves forward. -/
theorem advances_turns
    (start : Token) :
    Advances (turns start) := by
  refine (advances_numeral start).bind fun first => ?_
  refine (advances_eat? .rangeDash).bind fun dash => ?_
  cases dash with
  | none =>
      exact
        advances_turnsMarker.bind fun _ => advances_pure _
  | some dash =>
      refine (advances_number .rangeEnd).bind fun last => ?_
      refine advances_turnsMarker.bind fun _ => ?_
      split
      · exact advances_failAt _ _
      · exact advances_pure _

/- A duration moves forward, or stays without its count. -/
theorem advances_duration : Advances duration := by
  refine advances_of_cons (fun _ => rfl) ?_
  intro stop token rest
  simp only [duration]
  split
  · split
    · exact List.suffix_cons token rest
    · exact List.suffix_cons token rest
    · exact List.suffix_cons token rest
    · exact List.suffix_refl _
    · exact List.suffix_refl _
  · exact
      ((advances_turns token).map some).behind stop token
        rest
  · exact List.suffix_refl _

/- The value of a condition moves forward. -/
theorem advances_conditionValue
    (operator : String) :
    Advances (conditionValue operator) := by
  refine advances_of_cons (fun _ => rfl) ?_
  intro stop token rest
  simp only [conditionValue]
  split
  · refine Advances.behind ?_ stop token rest
    refine (advances_numeral token).bind fun value => ?_
    exact
      (advances_eat? .percent).bind fun _ =>
        advances_pure _
  · exact List.suffix_cons token rest
  · exact List.suffix_refl _

/- A condition moves forward. -/
theorem advances_condition : Advances condition := by
  refine (advances_expect _ _).bind fun name => ?_
  refine (advances_eat? .comparison).bind fun found => ?_
  cases found with
  | none => exact advances_pure _
  | some operator =>
      exact
        (advances_conditionValue operator.text).bind
          fun _ => advances_pure _

/- An event behind its sign moves forward. -/
theorem advances_signedEvent
    (sign : Token) :
    Advances (signedEvent sign) := by
  refine (advances_expect _ _).bind fun letter => ?_
  simp only
  split
  · exact advances_pure _
  · exact advances_failAt _ _

/- A chance moves forward. -/
theorem advances_chance
    (start : Token) :
    Advances (chance start) := by
  refine (advances_numeral start).bind fun percent => ?_
  refine (advances_expect _ _).bind fun sign => ?_
  split
  · exact advances_failAt _ _
  · exact advances_pure _

/- A chance or a condition moves forward. -/
theorem advances_chanceOrCondition :
    Advances chanceOrCondition := by
  refine advances_of_cons (fun _ => rfl) ?_
  intro stop token rest
  simp only [chanceOrCondition]
  split
  · exact
      ((advances_chance token).map _).behind stop token
        rest
  · exact advances_condition.map _ stop _
  · exact List.suffix_refl _

/- A trigger moves forward, or stays if it is not known. -/
theorem advances_trigger : Advances trigger := by
  refine advances_of_cons (fun _ => rfl) ?_
  intro stop token rest
  simp only [trigger]
  split
  · split
    · exact List.suffix_cons token rest
    · exact List.suffix_refl _
  · exact
      ((advances_signedEvent token).map _).behind stop
        token rest
  · exact
      (advances_chanceOrCondition.map some).behind stop
        token rest
  · exact List.suffix_refl _

/- An element moves forward. -/
theorem advances_element : Advances element :=
  (advances_expect _ _).bind fun token => advances_word _ token

/- Further elements move forward. -/
theorem advances_moreElements :
    Advances (moreElements : Reader (List Element)) := by
  intro stop tokens
  fun_induction moreElements stop tokens with
  | case1 => exact List.suffix_refl []
  | case2 comma hComma => exact List.nil_suffix
  | case3 comma hComma token rest failure left hStuck =>
      have hFirst :=
        advances_element.behind stop comma (token :: rest)
      rw [hStuck] at hFirst
      exact hFirst
  | case4 comma hComma token rest first between hRead others
      left hOthers ih =>
      rw [hOthers] at ih
      exact
        (List.IsSuffix.trans ih
          (List.suffix_cons token rest)).trans
          (List.suffix_cons comma _)
  | case5 comma hComma token rest first between hRead failure
      left hOthers ih =>
      rw [hOthers] at ih
      exact
        (List.IsSuffix.trans ih
          (List.suffix_cons token rest)).trans
          (List.suffix_cons comma _)
  | case6 comma rest hComma => exact List.suffix_refl _

/- Elements move forward. -/
theorem advances_elements : Advances elements := by
  refine advances_of_cons (fun _ => rfl) ?_
  intro stop token rest
  simp only [elements]
  split
  · refine
      advances_element.bind (fun first => ?_) stop
        (token :: rest)
    exact
      advances_moreElements.bind fun others =>
        advances_pure _
  · exact List.suffix_refl _

/- The end of the core clauses is not moved over. -/
theorem advances_coreEnd : Advances coreEnd := by
  refine advances_of_cons (fun _ => rfl) ?_
  intro stop token rest
  simp only [coreEnd]
  split <;> exact List.suffix_refl _

/- The core clauses move forward. -/
theorem advances_core : Advances core := by
  refine advances_target.bind fun target => ?_
  refine advances_change.bind fun change => ?_
  refine advances_subject.bind fun subject => ?_
  refine advances_magnitude.bind fun magnitude => ?_
  refine advances_duration.bind fun duration => ?_
  refine advances_trigger.bind fun trigger => ?_
  refine advances_elements.bind fun elements => ?_
  exact advances_coreEnd.bind fun _ => advances_pure _

------------------------------------------------------------
-- One Reading
------------------------------------------------------------

/- What is due when no token is left of a source. -/
def exhausted (source : String) : Failure :=
  ⟨.expected .target none, source.utf8ByteSize⟩

/- What is due where a section starts. -/
def misplaced (delimiter : Token) : Failure :=
  ⟨.expected .target
      (some (delimiter.kind, delimiter.text)),
    delimiter.offset⟩

/-
  What one reading of some tokens can come to: a record of
  all of them, core clauses that get stuck, or sections that
  do, with the cursor on the delimiter of the first one.
-/
inductive Call
    (source : String)
    (tokens : List Token) : Outcome Record → Prop where
  | whole
      {effect : Effect}
      {rest : List Token}
      (hCore :
        core source.utf8ByteSize tokens = .read effect rest)
      (record : Record) :
      Call source tokens (.read record [])
  | core
      {failure : Failure}
      {rest : List Token}
      (hCore :
        core source.utf8ByteSize tokens =
          .stuck failure rest)
      (hRest : rest <:+ tokens) :
      Call source tokens (.stuck failure rest)
  | sections
      {effect : Effect}
      {delimiter : Token}
      {others : List Token}
      (hCore :
        core source.utf8ByteSize tokens =
          .read effect (delimiter :: others))
      (hDelimiter : delimiter.kind = .delimiter)
      (hRest : delimiter :: others <:+ tokens)
      (failure : Failure) :
      Call source tokens
        (.stuck failure (delimiter :: others))

/- Every reading is one of these. -/
theorem call_parseTokens
    (source : String)
    (tokens : List Token) :
    Call source tokens (parseTokens source tokens) := by
  have hRecord :
      parseTokens source tokens =
        recordWith (some (record 7)) source.utf8ByteSize
          tokens := rfl
  have hAdvances :=
    advances_core source.utf8ByteSize tokens
  rw [hRecord, recordWith]
  cases hCore : core source.utf8ByteSize tokens with
  | stuck failure rest =>
      rw [hCore] at hAdvances
      exact .core hCore hAdvances
  | read effect rest =>
      rw [hCore] at hAdvances
      simp only
      split
      · rename_i failure hFailure
        rcases spellsCore_of_core hCore with ⟨_, _, _, hRest⟩
        cases rest with
        | nil => cases hFailure
        | cons delimiter others =>
            exact
              .sections hCore (hRest delimiter rfl) hAdvances
                failure
      · exact .whole hCore _

/- Without tokens there is no target. -/
theorem parseTokens_nil
    (source : String) :
    parseTokens source [] = .stuck (exhausted source) [] :=
  rfl

/- A section is no target. -/
theorem parseTokens_of_delimiter
    (source : String)
    {delimiter : Token}
    (hDelimiter : delimiter.kind = .delimiter)
    (others : List Token) :
    parseTokens source (delimiter :: others) =
      .stuck (misplaced delimiter) (delimiter :: others) := by
  have hTarget :
      target source.utf8ByteSize (delimiter :: others) =
        .stuck (misplaced delimiter)
          (delimiter :: others) := by
    simp [target, hDelimiter, missing, here, found,
      misplaced]
  have hCore :
      core source.utf8ByteSize (delimiter :: others) =
        .stuck (misplaced delimiter)
          (delimiter :: others) := by
    simp only [core, bind_apply, hTarget]
  change recordWith _ _ _ = _
  simp only [recordWith, hCore]

/- A reading that leaves all its tokens is stuck. -/
theorem exists_stuck_of_rest_eq
    {source : String}
    {tokens : List Token}
    (hRest : (parseTokens source tokens).rest = tokens) :
    ∃ failure,
      parseTokens source tokens = .stuck failure tokens := by
  cases hOutcome : parseTokens source tokens with
  | stuck failure rest =>
      rw [hOutcome] at hRest
      exact ⟨failure, congrArg _ hRest⟩
  | read record rest =>
      have hCall := call_parseTokens source tokens
      rw [hOutcome] at hCall hRest
      cases hCall with
      | whole hCore =>
          change [] = tokens at hRest
          rw [← hRest, parseTokens_nil] at hOutcome
          cases hOutcome

------------------------------------------------------------
-- Repeated Readings
------------------------------------------------------------

/- What a reading leaves, whatever it comes to. -/
def leave
    (source : String)
    (tokens : List Token) : List Token :=
  (parseTokens source tokens).rest

/- The tokens that are left after a number of readings. -/
def leftAfter
    (source : String)
    (tokens : List Token)
    (calls : Nat) : List Token :=
  (leave source)^[calls] tokens

/- How many tokens are passed after a number of readings. -/
def cursorAfter
    (source : String)
    (tokens : List Token)
    (calls : Nat) : Nat :=
  tokens.length - (leftAfter source tokens calls).length

/- What a reading comes to after a number of others. -/
def answer
    (source : String)
    (tokens : List Token)
    (calls : Nat) : Except Failure Record :=
  (parseTokens source
    (leftAfter source tokens calls)).result

variable (source : String)
variable (tokens : List Token)

/- The next reading starts from what is left. -/
theorem leftAfter_succ
    (calls : Nat) :
    leftAfter source tokens (calls + 1) =
      leave source (leftAfter source tokens calls) :=
  Function.iterate_succ_apply' _ _ _

/- The readings answer one after the other. -/
theorem parses_eq_map
    (calls : Nat) :
    parses source tokens calls =
      (List.range calls).map (answer source tokens) := by
  induction calls generalizing tokens with
  | zero => rfl
  | succ calls ih =>
      rw [parses, List.range_succ_eq_map, List.map_cons,
        List.map_map, ih]
      rfl

/- A reading only moves forward. -/
theorem leave_suffix :
    leave source tokens <:+ tokens := by
  have hCall := call_parseTokens source tokens
  unfold leave
  cases hOutcome : parseTokens source tokens with
  | read record rest =>
      rw [hOutcome] at hCall
      cases hCall
      exact List.nil_suffix
  | stuck failure rest =>
      rw [hOutcome] at hCall
      cases hCall with
      | core hCore hRest => exact hRest
      | sections hCore hDelimiter hRest => exact hRest

/- Later readings leave an end of what earlier ones leave. -/
theorem leftAfter_suffix
    {calls later : Nat}
    (hLater : calls ≤ later) :
    leftAfter source tokens later <:+
      leftAfter source tokens calls := by
  induction hLater with
  | refl => exact List.suffix_refl _
  | step hLater ih =>
      rw [leftAfter_succ]
      exact (leave_suffix source _).trans ih

/- What is left are the tokens behind the cursor. -/
theorem leftAfter_eq_drop
    (calls : Nat) :
    leftAfter source tokens calls =
      tokens.drop (cursorAfter source tokens calls) :=
  List.suffix_iff_eq_drop.mp
    (leftAfter_suffix source tokens (Nat.zero_le calls))

variable {source tokens}

/- From where a reading does not move, none does. -/
theorem leftAfter_eq_of_fixed
    {calls later : Nat}
    (hFixed :
      leave source (leftAfter source tokens calls) =
        leftAfter source tokens calls)
    (hLater : calls ≤ later) :
    leftAfter source tokens later =
      leftAfter source tokens calls := by
  rcases Nat.exists_eq_add_of_le hLater with ⟨more, rfl⟩
  have hSame := Function.iterate_fixed hFixed more
  rw [leftAfter, Nat.add_comm, Function.iterate_add_apply]
  exact hSame

/- From where a reading does not move, all answer alike. -/
theorem answer_eq_of_fixed
    {calls later : Nat}
    {failure : Failure}
    (hStuck :
      parseTokens source (leftAfter source tokens calls) =
        .stuck failure (leftAfter source tokens calls))
    (hLater : calls ≤ later) :
    leftAfter source tokens later =
        leftAfter source tokens calls ∧
      answer source tokens later = .error failure := by
  have hFixed :
      leave source (leftAfter source tokens calls) =
        leftAfter source tokens calls := by
    rw [leave, hStuck]
    rfl
  have hSame := leftAfter_eq_of_fixed hFixed hLater
  refine ⟨hSame, ?_⟩
  rw [answer, hSame, hStuck]
  rfl

/- A reading that is not stuck for good passes a token. -/
theorem fixed_or_length_leftAfter_lt
    (source : String)
    (tokens : List Token)
    (calls : Nat) :
    leave source (leftAfter source tokens calls) =
        leftAfter source tokens calls ∨
      (leftAfter source tokens calls).length + calls ≤
        tokens.length := by
  induction calls with
  | zero => exact .inr (Nat.le_refl _)
  | succ calls ih =>
      rw [leftAfter_succ]
      rcases ih with hFixed | hLength
      · exact .inl (by rw [hFixed, hFixed])
      · have hSuffix :=
          leave_suffix source (leftAfter source tokens calls)
        rcases Nat.lt_or_eq_of_le hSuffix.length_le with
          hLess | hSame
        · exact .inr (by omega)
        · have hFixed := hSuffix.eq_of_length hSame
          exact .inl (by rw [hFixed, hFixed])

/- After as many readings as tokens none moves any more. -/
theorem fixed_of_length_le
    {calls : Nat}
    (hCalls : tokens.length ≤ calls) :
    leave source (leftAfter source tokens calls) =
      leftAfter source tokens calls := by
  rcases fixed_or_length_leftAfter_lt source tokens calls with
    hFixed | hLength
  · exact hFixed
  · have hEmpty : leftAfter source tokens calls = [] :=
      List.eq_nil_of_length_eq_zero (by omega)
    rw [hEmpty]
    rfl

/- The cursor is not moved back. -/
theorem cursorAfter_le
    (source : String)
    (tokens : List Token)
    {calls later : Nat}
    (hLater : calls ≤ later) :
    cursorAfter source tokens calls ≤
      cursorAfter source tokens later :=
  Nat.sub_le_sub_left
    (leftAfter_suffix source tokens hLater).length_le _

/- Behind a record the source is exhausted for good. -/
theorem answer_of_record
    {call later : Nat}
    {record : Record}
    (hAnswer : answer source tokens call = .ok record)
    (hLater : call < later) :
    answer source tokens later =
      .error (exhausted source) := by
  have hCall :=
    call_parseTokens source (leftAfter source tokens call)
  have hLeft := leftAfter_succ source tokens call
  unfold answer at hAnswer
  unfold leave at hLeft
  cases hOutcome :
      parseTokens source (leftAfter source tokens call) with
  | stuck failure rest =>
      rw [hOutcome] at hAnswer
      cases hAnswer
  | read found rest =>
      rw [hOutcome] at hCall hLeft
      cases hCall
      have hStuck :
          parseTokens source
              (leftAfter source tokens (call + 1)) =
            .stuck (exhausted source)
              (leftAfter source tokens (call + 1)) := by
        rw [hLeft]
        rfl
      exact (answer_eq_of_fixed hStuck hLater).2

/-
  Behind core clauses that are read and a section that is
  not, all readings are stuck at the delimiter between them.
-/
theorem answer_of_section
    {call : Nat}
    {effect : Effect}
    {rest : List Token}
    {failure : Failure}
    (hCore :
      core source.utf8ByteSize
          (leftAfter source tokens call) =
        .read effect rest)
    (hAnswer : answer source tokens call = .error failure) :
    ∃ delimiter others,
      rest = delimiter :: others ∧
        delimiter.kind = .delimiter ∧
        ∀ later,
          call < later →
            leftAfter source tokens later = rest ∧
              answer source tokens later =
                .error (misplaced delimiter) := by
  have hCall :=
    call_parseTokens source (leftAfter source tokens call)
  have hLeft := leftAfter_succ source tokens call
  unfold answer at hAnswer
  unfold leave at hLeft
  cases hOutcome :
      parseTokens source (leftAfter source tokens call) with
  | read found left =>
      rw [hOutcome] at hAnswer
      cases hAnswer
  | stuck other left =>
      rw [hOutcome] at hCall hLeft
      cases hCall with
      | core hStuck =>
          rw [hCore] at hStuck
          cases hStuck
      | @sections _ delimiter others hRead hDelimiter =>
          rw [hCore] at hRead
          cases hRead
          refine ⟨delimiter, others, rfl, hDelimiter, ?_⟩
          intro later hLater
          have hStuck :=
            parseTokens_of_delimiter source hDelimiter others
          have hRest :
              leftAfter source tokens (call + 1) =
                delimiter :: others := hLeft
          rw [← hRest] at hStuck ⊢
          exact answer_eq_of_fixed hStuck hLater

/- After as many readings as tokens one failure is left. -/
theorem exists_answer
    (source : String)
    (tokens : List Token) :
    ∃ failure,
      ∀ call,
        tokens.length ≤ call →
          answer source tokens call = .error failure := by
  have hFixed :=
    @fixed_of_length_le source tokens _ (Nat.le_refl _)
  rcases exists_stuck_of_rest_eq hFixed with
    ⟨failure, hStuck⟩
  exact
    ⟨failure, fun _ hCall =>
      (answer_eq_of_fixed hStuck hCall).2⟩

/-
  Readings that are repeated only move forward, and settle.
  The cursor is never moved back, and never past the tokens.
  At most one reading gives a record: all behind it find the
  source exhausted. One that gets stuck in a section leaves
  the cursor on the delimiter behind the core clauses, and
  all behind it are stuck there. And once there have been as
  many readings as tokens, all others are rejected for the
  same failure.
-/
theorem parses_settle
    (source : String)
    (tokens : List Token) :
    (∀ calls,
      parses source tokens calls =
        (List.range calls).map (answer source tokens)) ∧
    (∀ calls,
      leftAfter source tokens calls =
          tokens.drop (cursorAfter source tokens calls) ∧
        cursorAfter source tokens calls ≤
          cursorAfter source tokens (calls + 1) ∧
        cursorAfter source tokens calls ≤ tokens.length) ∧
    (∀ call record,
      answer source tokens call = .ok record →
        (exhausted source).cause.message =
            "expected target (P, E, A, X, G)" ∧
          (exhausted source).offset = source.utf8ByteSize ∧
          ∀ later,
            call < later →
              answer source tokens later =
                .error (exhausted source)) ∧
    (∀ call effect rest failure,
      core source.utf8ByteSize
            (leftAfter source tokens call) =
          .read effect rest →
        answer source tokens call = .error failure →
          ∃ delimiter others,
            rest = delimiter :: others ∧
              delimiter.kind = .delimiter ∧
              ∀ later,
                call < later →
                  leftAfter source tokens later = rest ∧
                    answer source tokens later =
                      .error (misplaced delimiter)) ∧
    ∃ failure,
      ∀ call,
        tokens.length ≤ call →
          answer source tokens call = .error failure := by
  refine
    ⟨parses_eq_map source tokens, ?_, ?_, ?_,
      exists_answer source tokens⟩
  · intro calls
    exact
      ⟨leftAfter_eq_drop source tokens calls,
        cursorAfter_le source tokens (Nat.le_succ calls),
        Nat.sub_le _ _⟩
  · intro call record hAnswer
    exact
      ⟨rfl, rfl, fun _ hLater =>
        answer_of_record hAnswer hLater⟩
  · intro call effect rest failure hCore hAnswer
    exact answer_of_section hCore hAnswer

/- The tokens of the shortest notation. -/
def bareTokens : List Token :=
  [⟨.target, "P", 0⟩, ⟨.effectMarker, "+", 1⟩,
   ⟨.stat, "S", 2⟩]

/- These tokens, and a section that is not known. -/
def unknownTokens : List Token :=
  bareTokens ++
    [⟨.delimiter, ".", 3⟩, ⟨.removability, "RX", 4⟩]

/- A record and then nothing, and a section for ever. -/
theorem parses_settle_twice :
    answer "P+S" bareTokens 4 =
        .error ⟨.expected .target none, 3⟩ ∧
      answer "P+S.RX" unknownTokens 9 =
        .error
          ⟨.expected .target (some (.delimiter, ".")), 3⟩ := by
  constructor
  · have hSettle := (parses_settle "P+S" bareTokens).2.2.1
    exact
      (hSettle 0
        ⟨{ target := .player
           change := .increase
           subject := .stat .strength }, []⟩
        (by decide +kernel)).2.2 4 (by decide)
  · have hSettle :=
      (parses_settle "P+S.RX" unknownTokens).2.2.2.1
    rcases
        hSettle 0
          { target := .player
            change := .increase
            subject := .stat .strength }
          [⟨.delimiter, ".", 3⟩, ⟨.removability, "RX", 4⟩]
          ⟨.unrecognized .removability "RX", 4⟩
          (by decide +kernel) (by decide +kernel) with
      ⟨delimiter, others, hRest, _, hLater⟩
    cases hRest
    exact (hLater 9 (by decide)).2

end Grammar

end StatusEffect
