import StatusEffect.Proofs.Grammar.Moved

/-
  What failures are about.

  A reader does not fail without a reason. Every failure says
  that something is missing, or blames a token that the reader
  was given: one of a kind that is not due, one whose text is
  in no vocabulary of its kind, or one whose number does not
  fit. This is shown for one reader after the other, by what a
  reader in sequence may assume of those before it.

  Key definitions include:
    * `Role.kinds`
    * `Role.knows`
    * `Failure.Justified`
    * `Reader.Justifies`

  Key theorems include:
    * `Reader.Justifies.bind`
    * `Grammar.justifies_core`
    * `Grammar.justifies_record`
    * `Failure.Justified.mem_of_quotes`
-/

------------------------------------------------------------
-- Reasons
------------------------------------------------------------

namespace StatusEffect

open Grammar

namespace Role

/- The kinds of the tokens that can play a role. -/
def kinds : Role → List TokenKind
  | .target => [.target, .identifier]
  | .effectType => [.effectMarker]
  | .stat => [.stat]
  | .durationType => [.durationType]
  | .trigger => [.triggerType]
  | .element => [.element]
  | .specialFlag => [.specialFlag]
  | .removability => [.removability]
  | .chainEffect => [.chainEffect]
  | .sourceDependency => [.sourceDependency]
  | .stackingBehavior => [.stackingBehavior]
  | .visibility => [.visibility]
  | .resource => [.resourceMarker]
  | .interaction => [.interaction]

/- A text is a word of a vocabulary. -/
def isWord
    (α : Type)
    [Vocabulary α]
    (text : String) : Bool :=
  (Vocabulary.ofCode? text : Option α).isSome

/- A text by itself can play a role. -/
def knows : Role → String → Bool
  | .target => isWord Target
  | .effectType => isWord Change
  | .stat => isWord Stat
  | .durationType => isWord Span
  | .trigger => fun text => (plainEvent? text).isSome
  | .element => isWord Element
  | .specialFlag => isWord Flag
  | .removability => isWord Removability
  | .chainEffect => isWord ChainEffect
  | .sourceDependency => isWord SourceLink
  | .stackingBehavior => isWord StackRule
  | .visibility => isWord Visibility
  | .resource => isWord Resource
  | .interaction => isWord Interaction

end Role

/- What is due is named after a token of the right kind. -/
def Expectation.NamedAfter
    (tokens : List Token) : Expectation → Prop
  | .triggerType sign =>
      ∃ token ∈ tokens,
        token.kind = .triggerSign ∧ token.text = sign
  | .value operator =>
      ∃ token ∈ tokens,
        token.kind = .comparison ∧ token.text = operator
  | .stackCount head =>
      ∃ token ∈ tokens,
        token.kind = .stackingBehavior ∧ token.text = head
  | _ => True

/- A failure has its reason in some tokens. -/
inductive Failure.Justified (tokens : List Token) :
    Failure → Prop where
  | missing
      {what : Expectation}
      (hWhat : what.NamedAfter tokens)
      (offset : Nat) :
      Justified tokens ⟨.expected what none, offset⟩
  | misplaced
      {what : Expectation}
      {token : Token}
      (hWhat : what.NamedAfter tokens)
      (hToken : token ∈ tokens) :
      Justified tokens
        ⟨.expected what (some (token.kind, token.text)),
          token.offset⟩
  | word
      {role : Role}
      {token : Token}
      (hToken : token ∈ tokens)
      (hKind : token.kind ∈ role.kinds)
      (hUnknown : role.knows token.text = false) :
      Justified tokens
        ⟨.unrecognized role token.text, token.offset⟩
  | event
      {sign letter : Token}
      (hSign : sign ∈ tokens)
      (hSignKind : sign.kind = .triggerSign)
      (hLetter : letter ∈ tokens)
      (hLetterKind : letter.kind = .triggerType)
      (hUnknown :
        Role.isWord Event (sign.text ++ letter.text) =
          false) :
      Justified tokens
        ⟨.unrecognized .trigger (sign.text ++ letter.text),
          sign.offset⟩
  | number
      {token : Token}
      (hToken : token ∈ tokens)
      (hKind : token.kind = .number)
      (hRange : Text.wordOfNumeral? token.text = none) :
      Justified tokens
        ⟨.outOfRange token.text, token.offset⟩
  | turns
      {token : Token}
      (hToken : token ∈ tokens)
      (hKind : token.kind = .durationType) :
      Justified tokens ⟨.turnsWithoutCount, token.offset⟩
  | range
      {token : Token}
      {first last : UInt32}
      (hToken : token ∈ tokens)
      (hKind : token.kind = .number)
      (hOrder : last < first) :
      Justified tokens
        ⟨.rangeReversed first last, token.offset⟩
  | chance
      {token : Token}
      {percent : UInt32}
      (hToken : token ∈ tokens)
      (hKind : token.kind = .number)
      (hBound : 100 < percent) :
      Justified tokens
        ⟨.chanceTooHigh percent, token.offset⟩
  | unexpected
      {token : Token}
      (hToken : token ∈ tokens)
      (hKind : token.kind ≠ .delimiter) :
      Justified tokens
        ⟨.unexpected token.kind token.text, token.offset⟩
  | trailing
      {token head : Token}
      (hToken : token ∈ tokens)
      (hHead : head ∈ tokens) :
      Justified tokens
        ⟨.trailing token.kind token.text head.text,
          token.offset⟩
  | deep
      {token : Token}
      (hToken : token ∈ tokens)
      (hKind : token.kind = .parenOpen) :
      Justified tokens ⟨.chainTooDeep, token.offset⟩

/-
  An outcome gives a good value and leaves some of the tokens,
  or it has a reason among them to be stuck.
-/
def Outcome.Justified
    {α : Type}
    (all : List Token)
    (Good : α → Prop) : Outcome α → Prop
  | .read value rest => Good value ∧ rest ⊆ all
  | .stuck failure _ => failure.Justified all

------------------------------------------------------------
-- Readers In General
------------------------------------------------------------

namespace Reader

variable {α β : Type}
variable {all : List Token}

/- A reader of some tokens has an outcome justified by them. -/
def Justifies
    (all : List Token)
    (Good : α → Prop)
    (reader : Reader α) : Prop :=
  ∀ stop tokens,
    tokens ⊆ all →
      (reader stop tokens).Justified all Good

/- Any value will do. -/
def Any : α → Prop :=
  fun _ => True

/- A token is one of some, and of a given kind. -/
def Found
    (all : List Token)
    (kind : TokenKind)
    (token : Token) : Prop :=
  token ∈ all ∧ token.kind = kind

/- Reading nothing is justified by a good value. -/
theorem justifies_pure
    {Good : α → Prop}
    {value : α}
    (hValue : Good value) :
    Justifies all Good (pure value) :=
  fun _ _ hTokens => ⟨hValue, hTokens⟩

/- The second reader may assume what the first one gives. -/
theorem Justifies.bind
    {First : α → Prop}
    {Second : β → Prop}
    {reader : Reader α}
    {next : α → Reader β}
    (hReader : Justifies all First reader)
    (hNext :
      ∀ value,
        First value → Justifies all Second (next value)) :
    Justifies all Second (reader >>= next) := by
  intro stop tokens hTokens
  have hFirst := hReader stop tokens hTokens
  rw [bind_apply]
  cases hOutcome : reader stop tokens with
  | read value rest =>
      rw [hOutcome] at hFirst
      exact hNext value hFirst.1 stop rest hFirst.2
  | stuck failure rest =>
      rw [hOutcome] at hFirst
      exact hFirst

/- The image of a value is any value. -/
theorem Justifies.map
    {Good : α → Prop}
    {reader : Reader α}
    (hReader : Justifies all Good reader)
    (image : α → β) :
    Justifies all Any (image <$> reader) :=
  hReader.bind fun _ _ => justifies_pure trivial

/- A reader that gets stuck needs a reason. -/
theorem justifies_failAt
    {offset : Nat}
    {cause : Cause}
    {Good : α → Prop}
    (hFailure : Failure.Justified all ⟨cause, offset⟩) :
    Justifies all Good (failAt offset cause) :=
  fun _ _ _ => hFailure

/- Something else than what is due is a reason. -/
theorem justifies_missing
    {what : Expectation}
    {Good : α → Prop}
    (hWhat : what.NamedAfter all) :
    Justifies all Good (missing what) := by
  intro stop tokens hTokens
  cases tokens with
  | nil => exact .missing hWhat stop
  | cons token rest =>
      exact .misplaced hWhat (hTokens List.mem_cons_self)

/- An optional token is one of the tokens. -/
theorem justifies_eat?
    (kind : TokenKind) :
    Justifies all
      (fun found => ∀ token ∈ found, Found all kind token)
      (eat? kind) := by
  intro stop tokens hTokens
  cases tokens with
  | nil => exact ⟨by simp, hTokens⟩
  | cons token rest =>
      rw [List.cons_subset] at hTokens
      by_cases hKind : token.kind = kind
      · simp only [eat?, hKind, if_true]
        refine ⟨?_, hTokens.2⟩
        intro found hFound
        cases hFound
        exact ⟨hTokens.1, hKind⟩
      · simp only [eat?, hKind, if_false]
        exact ⟨by simp, List.cons_subset.mpr hTokens⟩

/- An expected token is one of the tokens. -/
theorem justifies_expect
    (kind : TokenKind)
    {what : Expectation}
    (hWhat : what.NamedAfter all) :
    Justifies all (Found all kind) (expect kind what) := by
  intro stop tokens hTokens
  cases tokens with
  | nil => exact justifies_missing hWhat stop [] hTokens
  | cons token rest =>
      by_cases hKind : token.kind = kind
      · simp only [expect, hKind, if_true]
        rw [List.cons_subset] at hTokens
        exact ⟨⟨hTokens.1, hKind⟩, hTokens.2⟩
      · simp only [expect, hKind, if_false]
        exact justifies_missing hWhat stop _ hTokens

/- A text that is no word of its role is a reason. -/
theorem justifies_word
    [Vocabulary α]
    {role : Role}
    {kind : TokenKind}
    {token : Token}
    (hRole : role.knows = Role.isWord α)
    (hKind : kind ∈ role.kinds)
    (hToken : Found all kind token) :
    Justifies all Any (word role token : Reader α) := by
  rcases hToken with ⟨hToken, rfl⟩
  unfold word
  cases hWord :
      (Vocabulary.ofCode? token.text : Option α) with
  | none =>
      refine justifies_failAt (.word hToken hKind ?_)
      simp [hRole, Role.isWord, hWord]
  | some value => exact justifies_pure trivial

/- A number out of range is a reason. -/
theorem justifies_numeral
    {token : Token}
    (hToken : Found all .number token) :
    Justifies all Any (numeral token) := by
  unfold numeral
  cases hNumeral : Text.wordOfNumeral? token.text with
  | none =>
      exact
        justifies_failAt
          (.number hToken.1 hToken.2 hNumeral)
  | some value => exact justifies_pure trivial

/- A number that is missing or out of range is a reason. -/
theorem justifies_number
    {what : Expectation}
    (hWhat : what.NamedAfter all) :
    Justifies all Any (number what) :=
  (justifies_expect .number hWhat).bind fun _ =>
    justifies_numeral

end Reader

------------------------------------------------------------
-- Core Clauses
------------------------------------------------------------

namespace Grammar

open Reader

variable {all : List Token}

/- A target is read or has a reason not to be. -/
theorem justifies_target :
    Justifies all Any target := by
  intro stop tokens hTokens
  cases tokens with
  | nil => exact .missing (by trivial) stop
  | cons token rest =>
      have hToken := hTokens
      rw [List.cons_subset] at hToken
      simp only [target]
      split
      · rename_i hKind
        split
        · exact ⟨trivial, hToken.2⟩
        · rename_i hWord
          refine .word hToken.1 (by simpa [Role.kinds]) ?_
          simp [Role.knows, Role.isWord, hWord]
      · exact .misplaced (by trivial) hToken.1

/- A change is read or has a reason not to be. -/
theorem justifies_change :
    Justifies all Any change :=
  (justifies_expect .effectMarker (by trivial)).bind
    fun _ => justifies_word rfl (by decide)

/- A subject is read or has a reason not to be. -/
theorem justifies_subject :
    Justifies all Any subject := by
  intro stop tokens hTokens
  cases tokens with
  | nil => exact .missing (by trivial) stop
  | cons token rest =>
      have hToken := hTokens
      rw [List.cons_subset] at hToken
      simp only [subject]
      split
      · rename_i hKind
        split
        · exact ⟨trivial, hToken.2⟩
        · rename_i hWord
          refine
            .word hToken.1 (by simp [Role.kinds, hKind]) ?_
          simp [Role.knows, Role.isWord, hWord]
      · exact ⟨trivial, hToken.2⟩
      · exact .misplaced (by trivial) hToken.1

/- A magnitude is read or has a reason not to be. -/
theorem justifies_magnitude :
    Justifies all Any magnitude := by
  intro stop tokens hTokens
  cases tokens with
  | nil => exact ⟨trivial, hTokens⟩
  | cons token rest =>
      have hToken := hTokens
      rw [List.cons_subset] at hToken
      simp only [magnitude]
      split
      · exact ⟨trivial, hToken.2⟩
      · rename_i hKind
        split
        · exact ⟨trivial, hTokens⟩
        · refine
            (justifies_numeral ⟨hToken.1, hKind⟩).bind
              (fun value _ => ?_) stop rest hToken.2
          refine
            (justifies_eat? .percent).bind fun sign _ => ?_
          cases sign <;> exact justifies_pure trivial
      · exact ⟨trivial, hTokens⟩

/- The marker of turns is read or has a reason not to be. -/
theorem justifies_turnsMarker :
    Justifies all Any turnsMarker := by
  intro stop tokens hTokens
  cases tokens with
  | nil => exact .missing (by trivial) stop
  | cons token rest =>
      rw [List.cons_subset] at hTokens
      simp only [turnsMarker]
      split
      · exact ⟨trivial, hTokens.2⟩
      · exact .misplaced (by trivial) hTokens.1

/- A number of turns is read or has a reason not to be. -/
theorem justifies_turns
    {start : Token}
    (hStart : Found all .number start) :
    Justifies all Any (turns start) := by
  refine (justifies_numeral hStart).bind fun first _ => ?_
  refine (justifies_eat? .rangeDash).bind fun dash _ => ?_
  cases dash with
  | none =>
      exact
        justifies_turnsMarker.bind fun _ _ =>
          justifies_pure trivial
  | some dash =>
      refine (justifies_number (by trivial)).bind fun last _ => ?_
      refine justifies_turnsMarker.bind fun _ _ => ?_
      split
      · rename_i hOrder
        exact
          justifies_failAt (.range hStart.1 hStart.2 hOrder)
      · exact justifies_pure trivial

/- A duration is read or has a reason not to be. -/
theorem justifies_duration :
    Justifies all Any duration := by
  intro stop tokens hTokens
  cases tokens with
  | nil => exact ⟨trivial, hTokens⟩
  | cons token rest =>
      have hToken := hTokens
      rw [List.cons_subset] at hToken
      simp only [duration]
      split
      · rename_i hKind
        split
        · exact ⟨trivial, hToken.2⟩
        · exact ⟨trivial, hToken.2⟩
        · exact ⟨trivial, hToken.2⟩
        · exact .turns hToken.1 hKind
        · rename_i hWord
          refine
            .word hToken.1 (by simp [Role.kinds, hKind]) ?_
          simp [Role.knows, Role.isWord, hWord]
      · rename_i hKind
        exact
          (justifies_turns ⟨hToken.1, hKind⟩).map some stop
            rest hToken.2
      · exact ⟨trivial, hTokens⟩

/- The value of a condition is read or has a reason. -/
theorem justifies_conditionValue
    {operator : Token}
    (hOperator : Found all .comparison operator) :
    Justifies all Any (conditionValue operator.text) := by
  have hNamed :
      (Expectation.value operator.text).NamedAfter all :=
    ⟨operator, hOperator.1, hOperator.2, rfl⟩
  intro stop tokens hTokens
  cases tokens with
  | nil => exact .missing hNamed stop
  | cons token rest =>
      rw [List.cons_subset] at hTokens
      simp only [conditionValue]
      split
      · rename_i hKind
        refine
          (justifies_numeral ⟨hTokens.1, hKind⟩).bind
            (fun value _ => ?_) stop rest hTokens.2
        exact
          (justifies_eat? .percent).bind fun sign _ =>
            justifies_pure trivial
      · exact ⟨trivial, hTokens.2⟩
      · exact .misplaced hNamed hTokens.1

/- A condition is read or has a reason not to be. -/
theorem justifies_condition :
    Justifies all Any condition := by
  refine
    (justifies_expect .identifier (by trivial)).bind
      fun name _ => ?_
  refine
    (justifies_eat? .comparison).bind fun found hFound => ?_
  cases found with
  | none => exact justifies_pure trivial
  | some operator =>
      exact
        (justifies_conditionValue (hFound operator rfl)).bind
          fun value _ => justifies_pure trivial

/- An event behind its sign is read or has a reason. -/
theorem justifies_signedEvent
    {sign : Token}
    (hSign : Found all .triggerSign sign) :
    Justifies all Any (signedEvent sign) := by
  have hNamed :
      (Expectation.triggerType sign.text).NamedAfter all :=
    ⟨sign, hSign.1, hSign.2, rfl⟩
  refine
    (justifies_expect .triggerType hNamed).bind
      fun letter hLetter => ?_
  simp only
  cases hEvent :
      (Vocabulary.ofCode? (sign.text ++ letter.text) :
        Option Event) with
  | none =>
      refine
        justifies_failAt
          (.event hSign.1 hSign.2 hLetter.1 hLetter.2 ?_)
      simp [Role.isWord, hEvent]
  | some event => exact justifies_pure trivial

/- A chance is read or has a reason not to be. -/
theorem justifies_chance
    {start : Token}
    (hStart : Found all .number start) :
    Justifies all Any (chance start) := by
  refine (justifies_numeral hStart).bind fun percent _ => ?_
  refine
    (justifies_expect .percent (by trivial)).bind
      fun sign _ => ?_
  split
  · rename_i hBound
    exact
      justifies_failAt (.chance hStart.1 hStart.2 hBound)
  · exact justifies_pure trivial

/- A chance or a condition is read or has a reason. -/
theorem justifies_chanceOrCondition :
    Justifies all Any chanceOrCondition := by
  intro stop tokens hTokens
  cases tokens with
  | nil => exact .missing (by trivial) stop
  | cons token rest =>
      have hToken := hTokens
      rw [List.cons_subset] at hToken
      simp only [chanceOrCondition]
      split
      · rename_i hKind
        exact
          (justifies_chance ⟨hToken.1, hKind⟩).map _ stop
            rest hToken.2
      · exact justifies_condition.map _ stop _ hTokens
      · exact .misplaced (by trivial) hToken.1

/- A trigger is read or has a reason not to be. -/
theorem justifies_trigger :
    Justifies all Any trigger := by
  intro stop tokens hTokens
  cases tokens with
  | nil => exact ⟨trivial, hTokens⟩
  | cons token rest =>
      have hToken := hTokens
      rw [List.cons_subset] at hToken
      simp only [trigger]
      split
      · rename_i hKind
        split
        · exact ⟨trivial, hToken.2⟩
        · rename_i hEvent
          refine
            .word hToken.1 (by simp [Role.kinds, hKind]) ?_
          simp [Role.knows, hEvent]
      · rename_i hKind
        exact
          (justifies_signedEvent ⟨hToken.1, hKind⟩).map _
            stop rest hToken.2
      · exact
          justifies_chanceOrCondition.map some stop rest
            hToken.2
      · exact ⟨trivial, hTokens⟩

/- An element is read or has a reason not to be. -/
theorem justifies_element :
    Justifies all Any element :=
  (justifies_expect .element (by trivial)).bind
    fun _ => justifies_word rfl (by decide)

/- Further elements are read or have a reason not to be. -/
theorem justifies_moreElements :
    Justifies all Any
      (moreElements : Reader (List Element)) := by
  intro stop tokens hTokens
  fun_induction moreElements stop tokens with
  | case1 => exact ⟨trivial, hTokens⟩
  | case2 comma hComma => exact .missing (by trivial) stop
  | case3 comma hComma token rest failure left hStuck =>
      rw [List.cons_subset] at hTokens
      have hFirst := justifies_element stop _ hTokens.2
      rw [hStuck] at hFirst
      exact hFirst
  | case4 comma hComma token rest first between hRead others
      left hOthers ih =>
      simp only [List.cons_subset] at hTokens
      rw [hOthers] at ih
      exact ⟨trivial, (ih hTokens.2.2).2⟩
  | case5 comma hComma token rest first between hRead failure
      left hOthers ih =>
      simp only [List.cons_subset] at hTokens
      rw [hOthers] at ih
      exact ih hTokens.2.2
  | case6 comma rest hComma => exact ⟨trivial, hTokens⟩

/- Elements are read or have a reason not to be. -/
theorem justifies_elements :
    Justifies all Any elements := by
  intro stop tokens hTokens
  cases tokens with
  | nil => exact ⟨trivial, hTokens⟩
  | cons token rest =>
      simp only [elements]
      split
      · refine
          justifies_element.bind (fun first _ => ?_) stop
            (token :: rest) hTokens
        exact
          justifies_moreElements.bind fun others _ =>
            justifies_pure trivial
      · exact ⟨trivial, hTokens⟩

/- The end of the core is reached or has a reason not to be. -/
theorem justifies_coreEnd :
    Justifies all Any coreEnd := by
  intro stop tokens hTokens
  cases tokens with
  | nil => exact ⟨trivial, hTokens⟩
  | cons token rest =>
      simp only [coreEnd]
      split
      · exact ⟨trivial, hTokens⟩
      · rename_i hKind
        rw [List.cons_subset] at hTokens
        exact .unexpected hTokens.1 hKind

/- The core clauses are read or have a reason not to be. -/
theorem justifies_core :
    Justifies all Any core := by
  refine justifies_target.bind fun target _ => ?_
  refine justifies_change.bind fun change _ => ?_
  refine justifies_subject.bind fun subject _ => ?_
  refine justifies_magnitude.bind fun magnitude _ => ?_
  refine justifies_duration.bind fun duration _ => ?_
  refine justifies_trigger.bind fun trigger _ => ?_
  refine justifies_elements.bind fun elements _ => ?_
  exact
    justifies_coreEnd.bind fun _ _ => justifies_pure trivial

------------------------------------------------------------
-- Sections
------------------------------------------------------------

/- A list of conditions is read or has a reason not to be. -/
theorem justifies_conditionList :
    Justifies all Any
      (conditionList : Reader (List Condition)) := by
  intro stop tokens hTokens
  -- the rest behind a condition and a comma is shorter
  induction hLength : tokens.length
    using Nat.strongRecOn generalizing tokens with
  | ind length ih =>
      subst hLength
      have hCondition := justifies_condition stop tokens hTokens
      rw [conditionList_eq_bind, bind_apply]
      cases hFirst : condition stop tokens with
      | stuck failure left =>
          rw [hFirst] at hCondition
          exact hCondition
      | read first rest =>
          have hShort := length_lt_of_condition hFirst
          rw [hFirst] at hCondition
          rcases rest with _ | ⟨next, others⟩
          · exact .missing (by trivial) stop
          · have hRest := hCondition.2
            rw [List.cons_subset] at hRest
            rw [List.length_cons] at hShort
            simp only [conditionsBehind]
            split
            · have hOthers :=
                ih _ (by omega) others hRest.2 rfl
              cases hList : conditionList stop others with
              | read conditions left =>
                  rw [hList] at hOthers
                  exact ⟨trivial, hOthers.2⟩
              | stuck failure left =>
                  rw [hList] at hOthers
                  exact hOthers
            · exact ⟨trivial, hRest.2⟩
            · exact .misplaced (by trivial) hRest.1

/- The reader of chain targets, if there is one, has reasons. -/
def JustifiesNested
    (nested : Option (Reader Record)) : Prop :=
  ∀ reader ∈ nested, ∀ all, Justifies all Any reader

/- A chain target is read or has a reason not to be. -/
theorem justifies_chainTarget
    {nested : Option (Reader Record)}
    (hNested : JustifiesNested nested) :
    Justifies all Any (chainTarget nested) := by
  intro stop tokens hTokens
  cases tokens with
  | nil => exact ⟨trivial, hTokens⟩
  | cons opening rest =>
      have hOpening := hTokens
      rw [List.cons_subset] at hOpening
      simp only [chainTarget]
      split
      · rename_i hKind
        cases nested with
        | none => exact .deep hOpening.1 hKind
        | some reader =>
            cases hClosing : Section.closing? 0 rest with
            | none => exact .missing (by trivial) stop
            | some found =>
                rcases found with ⟨inner, close, left⟩
                have hRest := hOpening.2
                rw [Section.eq_of_closing? hClosing,
                  List.append_subset,
                  List.cons_subset] at hRest
                have hReader :=
                  hNested reader rfl all close.offset inner
                    hRest.1
                simp only
                cases hInner : reader close.offset inner with
                | read record between =>
                    exact ⟨trivial, hRest.2.2⟩
                | stuck failure between =>
                    rw [hInner] at hReader
                    exact hReader
      · exact ⟨trivial, hTokens⟩

/- The count of a stacking rule is read or has a reason. -/
theorem justifies_stackCount
    {head : Token}
    (hHead : Found all .stackingBehavior head)
    (rule : StackRule) :
    Justifies all Any (stackCount rule head) := by
  have hNamed :
      (Expectation.stackCount head.text).NamedAfter all :=
    ⟨head, hHead.1, hHead.2, rfl⟩
  unfold stackCount
  split
  · exact (justifies_number hNamed).map some
  · exact justifies_pure trivial

/- The amount of a resource is read or has a reason. -/
theorem justifies_resourceAmount :
    Justifies all Any resourceAmount := by
  refine
    (justifies_eat? .number).bind fun found hFound => ?_
  cases found with
  | none => exact justifies_pure trivial
  | some token =>
      exact (justifies_numeral (hFound token rfl)).map some

/- The end of a section is reached or has a reason not to be. -/
theorem justifies_sectionEnd
    {head : Token}
    (hHead : head ∈ all) :
    Justifies all Any (sectionEnd head) := by
  intro stop tokens hTokens
  cases tokens with
  | nil => exact ⟨trivial, hTokens⟩
  | cons token rest =>
      rw [List.cons_subset] at hTokens
      exact .trailing hTokens.1 hHead

/- The body of a section is read or has a reason not to be. -/
theorem justifies_sectionBody?
    {nested : Option (Reader Record)}
    (hNested : JustifiesNested nested)
    {head : Token}
    (hHead : head ∈ all) :
    ∀ body ∈ sectionBody? nested head,
      Justifies all Any body := by
  intro body hBody
  unfold sectionBody? at hBody
  split at hBody
  · rename_i hKind
    cases hBody
    exact
      (justifies_word rfl (by decide) ⟨hHead, hKind⟩).map _
  · rename_i hKind
    cases hBody
    exact
      (justifies_word rfl (by decide) ⟨hHead, hKind⟩).map _
  · rename_i hKind
    cases hBody
    refine
      (justifies_word rfl (by decide) ⟨hHead, hKind⟩).bind
        fun effect _ => ?_
    exact
      (justifies_chainTarget hNested).bind fun target _ =>
        justifies_pure trivial
  · rename_i hKind
    cases hBody
    exact
      (justifies_word rfl (by decide) ⟨hHead, hKind⟩).map _
  · rename_i hKind
    cases hBody
    refine
      (justifies_word rfl (by decide) ⟨hHead, hKind⟩).bind
        fun rule _ => ?_
    exact
      (justifies_stackCount ⟨hHead, hKind⟩ rule).bind
        fun count _ => justifies_pure trivial
  · rename_i hKind
    cases hBody
    exact
      (justifies_word rfl (by decide) ⟨hHead, hKind⟩).map _
  · rename_i hKind
    cases hBody
    refine
      (justifies_word rfl (by decide) ⟨hHead, hKind⟩).bind
        fun resource _ => ?_
    exact
      justifies_resourceAmount.bind fun amount _ =>
        justifies_pure trivial
  · cases hBody
    exact justifies_conditionList.map _
  · cases hBody
    exact
      justifies_condition.bind fun single _ =>
        justifies_pure trivial
  · rename_i hKind
    cases hBody
    exact
      (justifies_word rfl (by decide) ⟨hHead, hKind⟩).map _
  · simp only [Option.mem_def,
      Option.map_eq_some_iff] at hBody
    rcases hBody with ⟨metaEffect, _, rfl⟩
    exact justifies_pure trivial
  · cases hBody

/- A section is read or has a reason not to be. -/
theorem justifies_extension
    {nested : Option (Reader Record)}
    (hNested : JustifiesNested nested) :
    Justifies all Any (extension nested) := by
  intro stop tokens hTokens
  cases tokens with
  | nil => exact ⟨trivial, hTokens⟩
  | cons head rest =>
      rw [List.cons_subset] at hTokens
      have hBodies :=
        justifies_sectionBody? hNested hTokens.1
      simp only [extension]
      cases hBody : sectionBody? nested head with
      | none => exact ⟨trivial, hTokens.2⟩
      | some body =>
          refine
            (hBodies body hBody).bind (fun value _ => ?_)
              stop rest hTokens.2
          exact
            (justifies_sectionEnd hTokens.1).bind fun _ _ =>
              justifies_pure trivial

------------------------------------------------------------
-- Notations
------------------------------------------------------------

/- If sections are not read, one of them is not. -/
theorem exists_stuck_of_extensions
    {nested : Option (Reader Record)}
    {parts : List Section}
    {failure : Failure}
    (hFailure : extensions nested parts = .error failure) :
    ∃ part ∈ parts, ∃ rest,
      extension nested part.stop part.tokens =
        .stuck failure rest := by
  induction parts with
  | nil => cases hFailure
  | cons first parts ih =>
      rw [extensions] at hFailure
      cases hFirst :
          extension nested first.stop first.tokens with
      | stuck other rest =>
          rw [hFirst] at hFailure
          cases hFailure
          exact ⟨first, List.mem_cons_self, rest, hFirst⟩
      | read value rest =>
          rw [hFirst] at hFailure
          cases hOthers : extensions nested parts with
          | ok others =>
              rw [hOthers] at hFailure
              cases hFailure
          | error other =>
              rw [hOthers] at hFailure
              cases hFailure
              rcases ih hOthers with
                ⟨part, hPart, hStuck⟩
              exact
                ⟨part, List.mem_cons_of_mem first hPart,
                  hStuck⟩

/- The first section that fails has a reason. -/
theorem justified_of_extensions
    {nested : Option (Reader Record)}
    (hNested : JustifiesNested nested)
    {parts : List Section}
    (hParts : ∀ part ∈ parts, part.tokens ⊆ all)
    {failure : Failure}
    (hFailure : extensions nested parts = .error failure) :
    failure.Justified all := by
  rcases exists_stuck_of_extensions hFailure with
    ⟨part, hPart, rest, hStuck⟩
  have hOutcome :=
    justifies_extension hNested part.stop part.tokens
      (hParts part hPart)
  rw [hStuck] at hOutcome
  exact hOutcome

/- A notation is read or has a reason not to be. -/
theorem justifies_recordWith
    {nested : Option (Reader Record)}
    (hNested : JustifiesNested nested) :
    Justifies all Any (recordWith nested) := by
  intro stop tokens hTokens
  have hCore := justifies_core stop tokens hTokens
  simp only [recordWith]
  cases hEffect : core stop tokens with
  | stuck failure left =>
      rw [hEffect] at hCore
      exact hCore
  | read effect rest =>
      rw [hEffect] at hCore
      have hParts :
          ∀ part ∈ Section.split stop rest,
            part.tokens ⊆ all := by
        intro part hPart
        exact
          List.Subset.trans
            (Section.infix_of_mem_split hPart).subset hCore.2
      simp only
      cases hExtended :
          extended nested stop ⟨effect, []⟩ rest with
      | error failure =>
          exact
            justified_of_extensions hNested hParts
              (extended_eq_error_iff.mp hExtended)
      | ok record => exact ⟨trivial, List.nil_subset all⟩

/- A notation has a reason to be rejected, at every depth. -/
theorem justifies_record
    (levels : Nat)
    (all : List Token) :
    Justifies all Any (record levels) := by
  induction levels generalizing all with
  | zero =>
      exact
        justifies_recordWith (by simp [JustifiesNested])
  | succ levels ih =>
      refine justifies_recordWith fun reader hReader => ?_
      cases hReader
      exact ih

/- Tokens that are rejected hold the reason. -/
theorem justified_of_parseTokens
    {source : String}
    {tokens : List Token}
    {failure : Failure}
    (hParse :
      (parseTokens source tokens).result = .error failure) :
    failure.Justified tokens := by
  have hRecord :=
    justifies_record Record.maxDepth tokens
      source.utf8ByteSize tokens (List.Subset.refl tokens)
  cases hOutcome : parseTokens source tokens with
  | read record left =>
      rw [hOutcome] at hParse
      cases hParse
  | stuck other left =>
      rw [parseTokens] at hOutcome
      rw [hOutcome] at hRecord
      rw [parseTokens, hOutcome] at hParse
      cases hParse
      exact hRecord

end Grammar

------------------------------------------------------------
-- Quoted Texts
------------------------------------------------------------

/- The texts of a source that the wording of a failure has. -/
def Expectation.quotes : Expectation → List String
  | .triggerType sign => [sign]
  | .value operator => [operator]
  | .stackCount head => [head]
  | _ => []

/- The texts of a source that the wording of a cause has. -/
def Cause.quotes : Cause → List String
  | .invalidCharacter text => [text]
  | .expected what none => what.quotes
  | .expected what (some found) => found.2 :: what.quotes
  | .unrecognized _ text => [text]
  | .outOfRange numeral => [numeral]
  | .unexpected _ text => [text]
  | .trailing _ text head => [text, head]
  | _ => []

/- What is due quotes the token that it is named after. -/
theorem Expectation.NamedAfter.mem_of_quotes
    {tokens : List Token}
    {what : Expectation}
    (hWhat : what.NamedAfter tokens)
    {quote : String}
    (hQuote : quote ∈ what.quotes) :
    ∃ token ∈ tokens, quote = token.text := by
  cases what with
  | triggerType sign =>
      rcases hWhat with ⟨token, hToken, _, rfl⟩
      exact ⟨token, hToken, List.mem_singleton.mp hQuote⟩
  | value operator =>
      rcases hWhat with ⟨token, hToken, _, rfl⟩
      exact ⟨token, hToken, List.mem_singleton.mp hQuote⟩
  | stackCount head =>
      rcases hWhat with ⟨token, hToken, _, rfl⟩
      exact ⟨token, hToken, List.mem_singleton.mp hQuote⟩
  | _ => cases hQuote

namespace Failure.Justified

variable {tokens : List Token}
variable {failure : Failure}

/- A reason among tokens is not an invalid character. -/
theorem stage_eq
    (hFailure : failure.Justified tokens) :
    failure.cause.stage = .validation := by
  cases hFailure <;> rfl

/- What a reason quotes comes from the texts of the tokens. -/
theorem mem_of_quotes
    (hFailure : failure.Justified tokens)
    {quote : String}
    (hQuote : quote ∈ failure.cause.quotes)
    {c : Char}
    (hChar : c ∈ quote.toList) :
    ∃ token ∈ tokens, c ∈ token.text.toList := by
  cases hFailure with
  | missing hWhat offset =>
      rcases hWhat.mem_of_quotes hQuote with
        ⟨token, hToken, rfl⟩
      exact ⟨token, hToken, hChar⟩
  | misplaced hWhat hToken =>
      rcases List.mem_cons.mp hQuote with rfl | hQuote
      · exact ⟨_, hToken, hChar⟩
      · rcases hWhat.mem_of_quotes hQuote with
          ⟨token, hToken, rfl⟩
        exact ⟨token, hToken, hChar⟩
  | word hToken hKind hUnknown =>
      rw [List.mem_singleton.mp hQuote] at hChar
      exact ⟨_, hToken, hChar⟩
  | event hSign hSignKind hLetter hLetterKind hUnknown =>
      rw [List.mem_singleton.mp hQuote, String.toList_append,
        List.mem_append] at hChar
      rcases hChar with hChar | hChar
      · exact ⟨_, hSign, hChar⟩
      · exact ⟨_, hLetter, hChar⟩
  | number hToken hKind hRange =>
      rw [List.mem_singleton.mp hQuote] at hChar
      exact ⟨_, hToken, hChar⟩
  | unexpected hToken hKind =>
      rw [List.mem_singleton.mp hQuote] at hChar
      exact ⟨_, hToken, hChar⟩
  | trailing hToken hHead =>
      rcases List.mem_cons.mp hQuote with rfl | hQuote
      · exact ⟨_, hToken, hChar⟩
      · rw [List.mem_singleton.mp hQuote] at hChar
        exact ⟨_, hHead, hChar⟩
  | turns hToken hKind => cases hQuote
  | range hToken hKind hOrder => cases hQuote
  | chance hToken hKind hBound => cases hQuote
  | deep hToken hKind => cases hQuote

end Failure.Justified

end StatusEffect
