import StatusEffect.Grammar.Reader
import StatusEffect.Record.Basic

/-
  The core clauses of a notation.

  A notation starts with a target, an effect marker and a
  subject. Magnitude, duration, trigger and elements follow
  in this order, and each may be left out. What comes after
  them has to be an extended section.

  Key definitions include:
    * `Grammar.target`
    * `Grammar.change`
    * `Grammar.subject`
    * `Grammar.magnitude`
    * `Grammar.duration`
    * `Grammar.condition`
    * `Grammar.trigger`
    * `Grammar.elements`
    * `Grammar.core`
-/

------------------------------------------------------------
-- Mandatory Clauses
------------------------------------------------------------

namespace StatusEffect

namespace Grammar

open Reader

/-
  A target. It is left in place if it is not recognized.
-/
def target : Reader Target :=
  fun stop tokens =>
    match tokens with
    | [] => missing .target stop []
    | token :: rest =>
        if token.kind = .target ∨ token.kind = .identifier then
          match Vocabulary.ofCode? token.text with
          | some value => .read value rest
          | none =>
              failAt token.offset
                (.unrecognized .target token.text) stop tokens
        else
          missing .target stop tokens

/- An effect marker. -/
def change : Reader Change := do
  let token ← expect .effectMarker .effectMarker
  word .effectType token

/-
  A stat, or a special condition under any name. A stat is
  left in place if it is not recognized.
-/
def subject : Reader Subject :=
  fun stop tokens =>
    match tokens with
    | [] => missing .subject stop []
    | token :: rest =>
        match token.kind with
        | .stat =>
            match Vocabulary.ofCode? token.text with
            | some value => .read (.stat value) rest
            | none =>
                failAt token.offset
                  (.unrecognized .stat token.text) stop tokens
        | .specialCondition =>
            .read (.condition token.text) rest
        | _ => missing .subject stop tokens

------------------------------------------------------------
-- Magnitude And Duration
------------------------------------------------------------

/- A token that marks a count of turns. -/
def isTurnsMarker (token : Token) : Bool :=
  token.kind = .durationType &&
    token.text == Vocabulary.code Span.turns

/- The first of some tokens belongs to a duration. -/
def countsTurns : List Token → Bool
  | [] => false
  | next :: _ => next.kind = .rangeDash || isTurnsMarker next

/-
  An optional magnitude. A number directly before a dash or
  a marker of turns is not a magnitude.
-/
def magnitude : Reader (Option Magnitude) :=
  fun stop tokens =>
    match tokens with
    | [] => .read none []
    | token :: rest =>
        match token.kind with
        | .fullValue => .read (some .full) rest
        | .number =>
            if countsTurns rest then
              .read none tokens
            else
              (do
                let value ← numeral token
                match ← eat? .percent with
                | some _ => pure (some (.percent value))
                | none => pure (some (.flat value)) :
                Reader (Option Magnitude)) stop rest
        | _ => .read none tokens

/- The marker behind a count of turns. -/
def turnsMarker : Reader Unit :=
  fun stop tokens =>
    match tokens with
    | [] => missing .turnsMarker stop []
    | token :: rest =>
        if isTurnsMarker token then
          .read () rest
        else
          missing .turnsMarker stop tokens

/-
  The rest of a duration in turns, after its first number.
  A reversed range is reported at that number.
-/
def turns (start : Token) : Reader Duration := do
  let first ← numeral start
  match ← eat? .rangeDash with
  | some _ =>
      let last ← number .rangeEnd
      turnsMarker
      if last < first then
        failAt start.offset (.rangeReversed first last)
      else
        pure (.turnRange first last)
  | none =>
      turnsMarker
      pure (.turns first)

/-
  An optional duration. A unit that cannot stand alone, or
  is not recognized, is left in place.
-/
def duration : Reader (Option Duration) :=
  fun stop tokens =>
    match tokens with
    | [] => .read none []
    | token :: rest =>
        match token.kind with
        | .durationType =>
            match Vocabulary.ofCode? token.text with
            | some Span.combat => .read (some .combat) rest
            | some Span.permanent =>
                .read (some .permanent) rest
            | some Span.action => .read (some .action) rest
            | some Span.turns =>
                failAt token.offset .turnsWithoutCount stop
                  tokens
            | none =>
                failAt token.offset
                  (.unrecognized .durationType token.text)
                  stop tokens
        | .number => (some <$> turns token) stop rest
        | _ => .read none tokens

------------------------------------------------------------
-- Conditions
------------------------------------------------------------

/- The condition value of a name. -/
def nameValue (text : String) : ConditionValue :=
  if text = "true" then .truth true
  else if text = "false" then .truth false
  else .text text

/- The value of a condition, after its operator. -/
def conditionValue
    (operator : String) :
    Reader (ConditionValue × Bool) :=
  fun stop tokens =>
    match tokens with
    | [] => missing (.value operator) stop []
    | token :: rest =>
        match token.kind with
        | .number =>
            (do
              let value ← numeral token
              let percent ← eat? .percent
              pure (.number value, percent.isSome) :
              Reader (ConditionValue × Bool)) stop rest
        | .identifier =>
            .read (nameValue token.text, false) rest
        | _ => missing (.value operator) stop tokens

/- A bare name, or a comparison of a name with a value. -/
def condition : Reader Condition := do
  let name ← expect .identifier .attribute
  match ← eat? .comparison with
  | none => pure (.flag name.text)
  | some operator =>
      let (value, isPercentage) ←
        conditionValue operator.text
      pure ⟨name.text, operator.text, value, isPercentage⟩

------------------------------------------------------------
-- Trigger
------------------------------------------------------------

/- The event of a trigger, after its sign. -/
def signedEvent (sign : Token) : Reader Event := do
  let letter ← expect .triggerType (.triggerType sign.text)
  let code := sign.text ++ letter.text
  match Vocabulary.ofCode? code with
  | some event => pure event
  | none => failAt sign.offset (.unrecognized .trigger code)

/- The chance of a trigger, after its number. -/
def chance (start : Token) : Reader UInt32 := do
  let percent ← numeral start
  let _ ← expect .percent .percentSign
  if 100 < percent then
    failAt start.offset (.chanceTooHigh percent)
  else
    pure percent

/- A chance or a condition, after the sign for both. -/
def chanceOrCondition : Reader Trigger :=
  fun stop tokens =>
    match tokens with
    | [] => missing .chanceOrCondition stop []
    | token :: rest =>
        match token.kind with
        | .number => (.chance <$> chance token) stop rest
        | .identifier => (.condition <$> condition) stop tokens
        | _ => missing .chanceOrCondition stop tokens

/- The event that is written without a sign. -/
def plainEvent? (text : String) : Option Event :=
  (Vocabulary.ofCode? text).filter fun event =>
    !event.needsSign

/-
  An optional trigger. A letter that is no event by itself is
  left in place.
-/
def trigger : Reader (Option Trigger) :=
  fun stop tokens =>
    match tokens with
    | [] => .read none []
    | token :: rest =>
        match token.kind with
        | .triggerType =>
            match plainEvent? token.text with
            | some event => .read (some (.event event)) rest
            | none =>
                failAt token.offset
                  (.unrecognized .trigger token.text)
                  stop tokens
        | .triggerSign =>
            ((fun event => some (.event event)) <$>
              signedEvent token) stop rest
        | .conditionSign =>
            (some <$> chanceOrCondition) stop rest
        | _ => .read none tokens

------------------------------------------------------------
-- Elements
------------------------------------------------------------

/- One element. -/
def element : Reader Element := do
  let token ← expect .element .element
  word .element token

/- Elements behind commas, up to a token that is no comma. -/
def moreElements
    (stop : Nat) :
    List Token → Outcome (List Element)
  | [] => .read [] []
  | comma :: rest =>
      if comma.kind = .comma then
        match rest with
        | [] => missing .element stop []
        | token :: rest =>
            match element stop (token :: rest) with
            | .stuck failure left => .stuck failure left
            | .read first _ =>
                match moreElements stop rest with
                | .read others left =>
                    .read (first :: others) left
                | .stuck failure left => .stuck failure left
      else
        .read [] (comma :: rest)

/- The elements of an effect, separated by commas. -/
def elements : Reader (List Element) :=
  fun stop tokens =>
    match tokens with
    | [] => .read [] []
    | token :: _ =>
        if token.kind = .element then
          (do
            let first ← element
            let others ← moreElements
            pure (first :: others) : Reader (List Element))
            stop tokens
        else
          .read [] tokens

------------------------------------------------------------
-- Core
------------------------------------------------------------

/- Nothing is left, or an extended section follows. -/
def coreEnd : Reader Unit :=
  fun stop tokens =>
    match tokens with
    | [] => .read () []
    | token :: _ =>
        if token.kind = .delimiter then
          .read () tokens
        else
          failAt token.offset
            (.unexpected token.kind token.text) stop tokens

/- The core clauses, in their order. -/
def core : Reader Effect := do
  let target ← target
  let change ← change
  let subject ← subject
  let magnitude ← magnitude
  let duration ← duration
  let trigger ← trigger
  let elements ← elements
  coreEnd
  pure
    { target, change, subject, magnitude, duration, trigger,
      elements }

end Grammar

end StatusEffect
