import StatusEffect.Grammar.Parse
import StatusEffect.Proofs.Token.Join

/-
  Reading at other offsets.

  No reader computes with offsets: they are only handed on
  to failures. If the offsets of all tokens are replaced,
  and the one where the tokens stop along with them, then
  the same is read, and a failure has the same cause at the
  offset that replaced its own.

  Key definitions include:
    * `Outcome.moved`
    * `Reader.Moves`

  Key theorems include:
    * `Reader.Moves.bind`
    * `Grammar.moves_core`
    * `Grammar.moves_extension`
    * `Grammar.extensions_moved`
    * `Grammar.moves_record`
-/

------------------------------------------------------------
-- Outcomes
------------------------------------------------------------

namespace StatusEffect

namespace Token

@[simp]
theorem kind_moved
    (place : Nat → Nat)
    (token : Token) :
    (token.moved place).kind = token.kind := rfl

@[simp]
theorem text_moved
    (place : Nat → Nat)
    (token : Token) :
    (token.moved place).text = token.text := rfl

@[simp]
theorem offset_moved
    (place : Nat → Nat)
    (token : Token) :
    (token.moved place).offset = place token.offset := rfl

end Token

namespace Outcome

/- An outcome at other offsets, with the image of its value. -/
def moved
    {α β : Type}
    (place : Nat → Nat)
    (image : α → β) : Outcome α → Outcome β
  | .read value rest =>
      .read (image value) (rest.map (Token.moved place))
  | .stuck failure rest =>
      .stuck (failure.moved place)
        (rest.map (Token.moved place))

/- The result of an outcome moves along with it. -/
theorem result_moved
    {α : Type}
    (place : Nat → Nat)
    (outcome : Outcome α) :
    (outcome.moved place id).result =
      outcome.result.mapError (Failure.moved place) := by
  cases outcome <;> rfl

end Outcome

------------------------------------------------------------
-- Readers In General
------------------------------------------------------------

namespace Reader

variable {α β γ : Type}
variable {place : Nat → Nat}

/- One reader does at other offsets what another does. -/
def Moves
    (place : Nat → Nat)
    (image : α → β)
    (reader : Reader α)
    (other : Reader β) : Prop :=
  ∀ stop tokens,
    other (place stop) (tokens.map (Token.moved place)) =
      (reader stop tokens).moved place image

/- Reading nothing moves along. -/
theorem moves_pure
    (image : α → β)
    (value : α) :
    Moves place image (pure value) (pure (image value)) :=
  fun _ _ => rfl

/- Readers in sequence move along if each of them does. -/
theorem Moves.bind
    {δ : Type}
    {first : α → β}
    {second : γ → δ}
    {reader : Reader α}
    {other : Reader β}
    {next : α → Reader γ}
    {behind : β → Reader δ}
    (hReader : Moves place first reader other)
    (hNext :
      ∀ value,
        Moves place second (next value)
          (behind (first value))) :
    Moves place second (reader >>= next)
      (other >>= behind) := by
  intro stop tokens
  rw [bind_apply, bind_apply, hReader stop tokens]
  cases reader stop tokens with
  | read value rest => exact hNext value stop rest
  | stuck failure rest => rfl

/- The image of what a reader gives moves along. -/
theorem Moves.map
    {reader other : Reader α}
    (hReader : Moves place id reader other)
    (image : α → β) :
    Moves place id (image <$> reader) (image <$> other) :=
  hReader.bind fun value => moves_pure id (image value)

/- A failure at an earlier offset moves along. -/
theorem moves_failAt
    (image : α → β)
    (offset : Nat)
    (cause : Cause) :
    Moves place image (failAt offset cause)
      (failAt (place offset) cause) :=
  fun _ _ => rfl

/- An optional token moves along. -/
theorem moves_eat?
    (kind : TokenKind) :
    Moves place (Option.map (Token.moved place)) (eat? kind)
      (eat? kind) := by
  intro stop tokens
  cases tokens with
  | nil => rfl
  | cons token rest =>
      simp only [List.map_cons, eat?, Token.kind_moved]
      split <;> rfl

/- An expected token moves along. -/
theorem moves_expect
    (kind : TokenKind)
    (what : Expectation) :
    Moves place (Token.moved place) (expect kind what)
      (expect kind what) := by
  intro stop tokens
  cases tokens with
  | nil => rfl
  | cons token rest =>
      simp only [List.map_cons, expect, Token.kind_moved]
      split <;> rfl

/- A word moves along with its token. -/
theorem moves_word
    [Vocabulary α]
    (role : Role)
    (token : Token) :
    Moves place id (word role token : Reader α)
      (word role (token.moved place)) := by
  unfold word
  rw [Token.text_moved]
  cases (Vocabulary.ofCode? token.text : Option α) with
  | none => exact moves_failAt id _ _
  | some value => exact moves_pure id value

/- A numeral moves along with its token. -/
theorem moves_numeral
    (token : Token) :
    Moves place id (numeral token)
      (numeral (token.moved place)) := by
  unfold numeral
  rw [Token.text_moved]
  cases Text.wordOfNumeral? token.text with
  | none => exact moves_failAt id _ _
  | some value => exact moves_pure id value

/- A number moves along. -/
theorem moves_number
    (what : Expectation) :
    Moves place id (number what) (number what) :=
  (moves_expect _ _).bind moves_numeral

end Reader

------------------------------------------------------------
-- Core Clauses
------------------------------------------------------------

namespace Grammar

open Reader

variable {place : Nat → Nat}

/- A target moves along. -/
theorem moves_target :
    Moves place id target target := by
  intro stop tokens
  cases tokens with
  | nil => rfl
  | cons token rest =>
      simp only [List.map_cons, target, Token.kind_moved,
        Token.text_moved]
      split
      · split <;> rfl
      · rfl

/- A change moves along. -/
theorem moves_change :
    Moves place id change change :=
  (moves_expect _ _).bind (moves_word _)

/- A subject moves along. -/
theorem moves_subject :
    Moves place id subject subject := by
  intro stop tokens
  cases tokens with
  | nil => rfl
  | cons token rest =>
      simp only [List.map_cons, subject, Token.kind_moved,
        Token.text_moved]
      split
      · split <;> rfl
      · rfl
      · rfl

/- Whether turns are counted does not depend on offsets. -/
theorem countsTurns_moved
    (tokens : List Token) :
    countsTurns (tokens.map (Token.moved place)) =
      countsTurns tokens := by
  cases tokens <;> rfl

/- A magnitude moves along. -/
theorem moves_magnitude :
    Moves place id magnitude magnitude := by
  intro stop tokens
  cases tokens with
  | nil => rfl
  | cons token rest =>
      simp only [List.map_cons, magnitude, Token.kind_moved,
        countsTurns_moved]
      split
      · rfl
      · split
        · rfl
        · refine
            (moves_numeral token).bind (fun value => ?_) stop
              rest
          refine (moves_eat? .percent).bind fun sign => ?_
          cases sign <;> exact moves_pure id _
      · rfl

/- Whether a token marks turns does not depend on its offset. -/
theorem isTurnsMarker_moved
    (token : Token) :
    isTurnsMarker (token.moved place) =
      isTurnsMarker token := rfl

/- A marker of turns moves along. -/
theorem moves_turnsMarker :
    Moves place id turnsMarker turnsMarker := by
  intro stop tokens
  cases tokens with
  | nil => rfl
  | cons token rest =>
      simp only [List.map_cons, turnsMarker,
        isTurnsMarker_moved]
      split <;> rfl

/- A duration in turns moves along with its first number. -/
theorem moves_turns
    (start : Token) :
    Moves place id (turns start)
      (turns (start.moved place)) := by
  refine (moves_numeral start).bind fun first => ?_
  refine (moves_eat? .rangeDash).bind fun dash => ?_
  cases dash with
  | none =>
      exact
        moves_turnsMarker.bind fun _ => moves_pure id _
  | some dash =>
      refine (moves_number _).bind fun last => ?_
      refine moves_turnsMarker.bind fun _ => ?_
      simp only [id_eq]
      split
      · exact moves_failAt id _ _
      · exact moves_pure id _

/- A duration moves along. -/
theorem moves_duration :
    Moves place id duration duration := by
  intro stop tokens
  cases tokens with
  | nil => rfl
  | cons token rest =>
      simp only [List.map_cons, duration, Token.kind_moved,
        Token.text_moved]
      split
      · split <;> rfl
      · exact (moves_turns token).map some stop rest
      · rfl

/- The value of a condition moves along. -/
theorem moves_conditionValue
    (operator : String) :
    Moves place id (conditionValue operator)
      (conditionValue operator) := by
  intro stop tokens
  cases tokens with
  | nil => rfl
  | cons token rest =>
      simp only [List.map_cons, conditionValue,
        Token.kind_moved, Token.text_moved]
      split
      · refine
          (moves_numeral token).bind (fun value => ?_) stop
            rest
        refine (moves_eat? .percent).bind fun sign => ?_
        simp only [Option.isSome_map]
        exact moves_pure id _
      · rfl
      · rfl

/- A condition moves along. -/
theorem moves_condition :
    Moves place id condition condition := by
  refine (moves_expect _ _).bind fun name => ?_
  refine (moves_eat? .comparison).bind fun operator => ?_
  cases operator with
  | none => exact moves_pure id _
  | some operator =>
      exact
        (moves_conditionValue _).bind fun value =>
          moves_pure id _

/- An event behind its sign moves along. -/
theorem moves_signedEvent
    (sign : Token) :
    Moves place id (signedEvent sign)
      (signedEvent (sign.moved place)) := by
  refine (moves_expect _ _).bind fun letter => ?_
  simp only [Token.text_moved]
  split
  · exact moves_pure id _
  · exact moves_failAt id _ _

/- A chance moves along with its number. -/
theorem moves_chance
    (start : Token) :
    Moves place id (chance start)
      (chance (start.moved place)) := by
  refine (moves_numeral start).bind fun percent => ?_
  refine (moves_expect _ _).bind fun _ => ?_
  simp only [id_eq]
  split
  · exact moves_failAt id _ _
  · exact moves_pure id _

/- A chance or a condition moves along. -/
theorem moves_chanceOrCondition :
    Moves place id chanceOrCondition chanceOrCondition := by
  intro stop tokens
  cases tokens with
  | nil => rfl
  | cons token rest =>
      simp only [List.map_cons, chanceOrCondition,
        Token.kind_moved]
      split
      · exact (moves_chance token).map _ stop rest
      · exact moves_condition.map _ stop (token :: rest)
      · rfl

/- A trigger moves along. -/
theorem moves_trigger :
    Moves place id trigger trigger := by
  intro stop tokens
  cases tokens with
  | nil => rfl
  | cons token rest =>
      simp only [List.map_cons, trigger, Token.kind_moved,
        Token.text_moved]
      split
      · split <;> rfl
      · exact (moves_signedEvent token).map _ stop rest
      · exact moves_chanceOrCondition.map some stop rest
      · rfl

/- An element moves along. -/
theorem moves_element :
    Moves place id element element :=
  (moves_expect _ _).bind (moves_word _)

/- Further elements move along. -/
theorem moves_moreElements :
    Moves place id (moreElements : Reader (List Element))
      moreElements := by
  intro stop tokens
  fun_induction moreElements stop tokens with
  | case1 => rfl
  | case2 comma hComma =>
      simp only [List.map_cons, List.map_nil, moreElements,
        Token.kind_moved, hComma, if_true]
      rfl
  | case3 comma hComma token rest failure left hStuck =>
      have hFirst :=
        @moves_element place stop (token :: rest)
      rw [hStuck, List.map_cons] at hFirst
      simp only [List.map_cons, moreElements,
        Token.kind_moved, hComma, if_true, hFirst]
      rfl
  | case4 comma hComma token rest first between hRead others
      left hOthers ih =>
      have hFirst :=
        @moves_element place stop (token :: rest)
      rw [hRead, List.map_cons] at hFirst
      rw [hOthers] at ih
      simp only [List.map_cons, moreElements,
        Token.kind_moved, hComma, if_true, hFirst,
        Outcome.moved, ih]
      rfl
  | case5 comma hComma token rest first between hRead failure
      left hOthers ih =>
      have hFirst :=
        @moves_element place stop (token :: rest)
      rw [hRead, List.map_cons] at hFirst
      rw [hOthers] at ih
      simp only [List.map_cons, moreElements,
        Token.kind_moved, hComma, if_true, hFirst,
        Outcome.moved, ih]
  | case6 comma rest hComma =>
      rw [List.map_cons]
      unfold moreElements
      simp only [Token.kind_moved, hComma, if_false]
      rfl

/- Elements move along. -/
theorem moves_elements :
    Moves place id elements elements := by
  intro stop tokens
  cases tokens with
  | nil => rfl
  | cons token rest =>
      simp only [List.map_cons, elements, Token.kind_moved]
      split
      · refine
          moves_element.bind (fun first => ?_) stop
            (token :: rest)
        exact
          moves_moreElements.bind fun others =>
            moves_pure id _
      · rfl

/- The end of the core moves along. -/
theorem moves_coreEnd :
    Moves place id coreEnd coreEnd := by
  intro stop tokens
  cases tokens with
  | nil => rfl
  | cons token rest =>
      simp only [List.map_cons, coreEnd, Token.kind_moved]
      split <;> rfl

/- The core clauses move along. -/
theorem moves_core :
    Moves place id core core := by
  refine moves_target.bind fun target => ?_
  refine moves_change.bind fun change => ?_
  refine moves_subject.bind fun subject => ?_
  refine moves_magnitude.bind fun magnitude => ?_
  refine moves_duration.bind fun duration => ?_
  refine moves_trigger.bind fun trigger => ?_
  refine moves_elements.bind fun elements => ?_
  exact moves_coreEnd.bind fun _ => moves_pure id _

------------------------------------------------------------
-- Sections
------------------------------------------------------------

/- What follows a condition of a list. -/
def conditionsBehind
    (first : Condition) : Reader (List Condition) :=
  fun stop tokens =>
    match tokens with
    | [] => missing .closingBrace stop []
    | next :: others =>
        match next.kind with
        | .comma =>
            match conditionList stop others with
            | .read conditions left =>
                .read (first :: conditions) left
            | .stuck failure left => .stuck failure left
        | .braceClose => .read [first] others
        | _ => missing .closingBrace stop (next :: others)

/- A list is a condition and what follows it. -/
theorem conditionList_eq_bind
    (stop : Nat)
    (tokens : List Token) :
    conditionList stop tokens =
      (condition >>= conditionsBehind) stop tokens := by
  rw [conditionList, bind_apply]
  split
  · rename_i hFirst
    rw [hFirst]
  · rename_i first rest hFirst
    cases rest <;> simp only [hFirst] <;> rfl

/- A list of conditions moves along. -/
theorem moves_conditionList :
    Moves place id (conditionList : Reader (List Condition))
      conditionList := by
  intro stop tokens
  -- the rest behind a condition and a comma is shorter
  induction hLength : tokens.length
    using Nat.strongRecOn generalizing tokens with
  | ind length ih =>
      subst hLength
      rw [conditionList_eq_bind, conditionList_eq_bind,
        bind_apply, bind_apply, moves_condition stop tokens]
      cases hFirst : condition stop tokens with
      | stuck failure left => rfl
      | read first rest =>
          have hShort := length_lt_of_condition hFirst
          rcases rest with _ | ⟨next, others⟩
          · rfl
          · rw [List.length_cons] at hShort
            simp only [Outcome.moved, List.map_cons,
              conditionsBehind, Token.kind_moved]
            split
            · rw [ih _ (by omega) others rfl]
              cases conditionList stop others <;> rfl
            · rfl
            · rfl

/- Offsets do not change how many parentheses are open. -/
theorem parensAfter_moved
    (parens : Nat)
    (token : Token) :
    Section.parensAfter parens (token.moved place) =
      Section.parensAfter parens token := rfl

/- Parentheses match at other offsets if they do. -/
theorem balanced_moved
    {tokens : List Token}
    (hTokens : Section.Balanced tokens) :
    Section.Balanced (tokens.map (Token.moved place)) := by
  have hSame :
      ∀ parens,
        Section.parensOver? parens
            (tokens.map (Token.moved place)) =
          Section.parensOver? parens tokens := by
    clear hTokens
    induction tokens with
    | nil => simp
    | cons token tokens ih =>
        intro parens
        simp only [List.map_cons, Section.parensOver?,
          parensAfter_moved, ih]
        rfl
  unfold Section.Balanced
  rw [hSame]
  exact hTokens

/- The closing parenthesis is found at other offsets too. -/
theorem closing?_moved
    (opened : Nat)
    (tokens : List Token) :
    Section.closing? opened
        (tokens.map (Token.moved place)) =
      (Section.closing? opened tokens).map fun found =>
        (found.1.map (Token.moved place),
          found.2.1.moved place,
          found.2.2.map (Token.moved place)) := by
  induction tokens generalizing opened with
  | nil => rfl
  | cons token tokens ih =>
      rw [List.map_cons, Section.closing?, Section.closing?,
        parensAfter_moved, ih]
      by_cases hClose :
          (decide (token.kind = .parenClose) &&
            decide (opened = 0)) = true
      · rw [if_pos hClose]
        exact if_pos hClose
      · rw [if_neg hClose, Option.map_map, Option.map_map]
        exact if_neg hClose

/- A reader of chain targets, if there is one, moves along. -/
def MovesNested
    (place : Nat → Nat)
    (nested : Option (Reader Record)) : Prop :=
  ∀ reader ∈ nested, Moves place id reader reader

/- A chain target moves along if its reader does. -/
theorem moves_chainTarget
    {nested : Option (Reader Record)}
    (hNested : MovesNested place nested) :
    Moves place id (chainTarget nested)
      (chainTarget nested) := by
  intro stop tokens
  cases tokens with
  | nil => rfl
  | cons opening rest =>
      simp only [List.map_cons, chainTarget,
        Token.kind_moved]
      split
      · cases nested with
        | none => rfl
        | some reader =>
            simp only [closing?_moved]
            cases Section.closing? 0 rest with
            | none => rfl
            | some found =>
                rcases found with ⟨inner, close, left⟩
                have hReader :=
                  hNested reader rfl close.offset inner
                simp only [Option.map_some,
                  Token.offset_moved, hReader]
                cases reader close.offset inner <;> rfl
      · rfl

/- The count of a stacking rule moves along. -/
theorem moves_stackCount
    (rule : StackRule)
    (head : Token) :
    Moves place id (stackCount rule head)
      (stackCount rule (head.moved place)) := by
  unfold stackCount
  split
  · exact (moves_number _).map some
  · exact moves_pure id _

/- The amount of a resource moves along. -/
theorem moves_resourceAmount :
    Moves place id resourceAmount resourceAmount := by
  refine (moves_eat? .number).bind fun token => ?_
  cases token with
  | none => exact moves_pure id _
  | some token => exact (moves_numeral token).map some

/- The end of a section moves along. -/
theorem moves_sectionEnd
    (head : Token) :
    Moves place id (sectionEnd head)
      (sectionEnd (head.moved place)) := by
  intro stop tokens
  cases tokens <;> rfl

/- The body of a section moves along with its head. -/
theorem moves_sectionBody?
    {nested : Option (Reader Record)}
    (hNested : MovesNested place nested)
    (head : Token) :
    Option.Rel (Moves place id) (sectionBody? nested head)
      (sectionBody? nested (head.moved place)) := by
  unfold sectionBody?
  rw [Token.kind_moved, Token.text_moved]
  split
  · exact .some ((moves_word _ head).map _)
  · exact .some ((moves_word _ head).map _)
  · exact
      .some ((moves_word _ head).bind fun effect =>
        (moves_chainTarget hNested).bind fun target =>
          moves_pure id _)
  · exact .some ((moves_word _ head).map _)
  · exact
      .some ((moves_word _ head).bind fun rule =>
        (moves_stackCount rule head).bind fun count =>
          moves_pure id _)
  · exact .some ((moves_word _ head).map _)
  · exact
      .some ((moves_word _ head).bind fun resource =>
        moves_resourceAmount.bind fun amount =>
          moves_pure id _)
  · exact .some (moves_conditionList.map _)
  · exact
      .some (moves_condition.bind fun single =>
        moves_pure id _)
  · exact .some ((moves_word _ head).map _)
  · cases MetaEffect.ofName? head.text with
    | none => exact .none
    | some metaEffect => exact .some (moves_pure id _)
  · exact .none

/- A section moves along. -/
theorem moves_extension
    {nested : Option (Reader Record)}
    (hNested : MovesNested place nested) :
    Moves place id (extension nested) (extension nested) := by
  intro stop tokens
  cases tokens with
  | nil => rfl
  | cons head rest =>
      have hBody := moves_sectionBody? hNested head
      simp only [List.map_cons, extension]
      generalize sectionBody? nested head = body,
        sectionBody? nested (head.moved place) = other
        at hBody
      cases hBody with
      | none => rfl
      | some hMoves =>
          exact
            (hMoves.bind fun value =>
              (moves_sectionEnd head).bind fun _ =>
                moves_pure id value) stop rest

end Grammar

------------------------------------------------------------
-- Notations
------------------------------------------------------------

namespace Section

variable {place : Nat → Nat}

/- A section at other offsets. -/
def moved
    (place : Nat → Nat)
    (part : Section) : Section :=
  ⟨part.tokens.map (Token.moved place), place part.stop⟩

/- Tokens are cut at the same places at other offsets. -/
theorem cut_moved
    (stop parens : Nat)
    (tokens : List Token) :
    cut (place stop) parens (tokens.map (Token.moved place)) =
      ((cut stop parens tokens).1.moved place,
        (cut stop parens tokens).2.map (moved place)) := by
  induction tokens generalizing parens with
  | nil => rfl
  | cons token tokens ih =>
      have hCut :
          isCut parens (token.moved place) =
            isCut parens token := rfl
      rw [List.map_cons, cut, cut, hCut,
        Grammar.parensAfter_moved, ih, ih]
      split <;> rfl

/- The sections of tokens at other offsets. -/
theorem split_moved
    (stop : Nat)
    (tokens : List Token) :
    split (place stop) (tokens.map (Token.moved place)) =
      (split stop tokens).map (moved place) := by
  simp only [split, cut_moved, ← List.map_cons,
    List.filter_map]
  congr 2
  funext part
  simp [moved]

end Section

namespace Grammar

open Reader

variable {place : Nat → Nat}

/- What sections say does not depend on their offsets. -/
theorem extensions_moved
    {nested : Option (Reader Record)}
    (hNested : MovesNested place nested)
    (parts : List Section) :
    extensions nested (parts.map (Section.moved place)) =
      (extensions nested parts).mapError
        (Failure.moved place) := by
  induction parts with
  | nil => rfl
  | cons part parts ih =>
      have hFirst :
          (extension nested (part.moved place).stop
              (part.moved place).tokens).result =
            (extension nested part.stop
              part.tokens).result.mapError
              (Failure.moved place) := by
        rw [← Outcome.result_moved]
        exact
          congrArg Outcome.result
            (moves_extension hNested part.stop part.tokens)
      rw [List.map_cons, extensions, extensions, hFirst, ih]
      cases (extension nested part.stop part.tokens).result with
      | error failure => rfl
      | ok value =>
          cases extensions nested parts <;> rfl

/- How sections extend a record does not depend on offsets. -/
theorem extended_moved
    {nested : Option (Reader Record)}
    (hNested : MovesNested place nested)
    (stop : Nat)
    (start : Record)
    (tokens : List Token) :
    extended nested (place stop) start
        (tokens.map (Token.moved place)) =
      (extended nested stop start tokens).mapError
        (Failure.moved place) := by
  simp only [extended, Section.split_moved,
    extensions_moved hNested]
  cases extensions nested (Section.split stop tokens) <;> rfl

/- A record moves along if its chain targets do. -/
theorem moves_recordWith
    {nested : Option (Reader Record)}
    (hNested : MovesNested place nested) :
    Moves place id (recordWith nested)
      (recordWith nested) := by
  intro stop tokens
  have hCore := @moves_core place stop tokens
  simp only [recordWith, hCore]
  cases core stop tokens with
  | stuck failure left => rfl
  | read effect rest =>
      simp only [Outcome.moved, id_eq, extended_moved hNested]
      cases extended nested stop ⟨effect, []⟩ rest <;> rfl

/- A record with any number of levels moves along. -/
theorem moves_record
    (levels : Nat) :
    Moves place id (record levels) (record levels) := by
  induction levels with
  | zero => exact moves_recordWith (by simp [MovesNested])
  | succ levels ih =>
      refine moves_recordWith fun reader hReader => ?_
      cases hReader
      exact ih

end Grammar

end StatusEffect
