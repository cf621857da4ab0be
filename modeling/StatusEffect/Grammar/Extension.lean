import StatusEffect.Grammar.Core
import StatusEffect.Grammar.Section

/-
  Extended sections.

  Each section extends a record by one attribute. Its first
  token tells which: most kinds stand for one vocabulary, a
  brace opens a list of conditions, and a special condition
  names a meta effect. A section whose first token says
  nothing is ignored as a whole. A later section replaces
  what an earlier one said, except that flags and conditions
  add up.

  Key definitions include:
    * `Extension`
    * `Record.extend`
    * `Grammar.conditionList`
    * `Grammar.chainTarget`
    * `Grammar.sectionBody?`
    * `Grammar.extension`
    * `Grammar.extensions`
    * `Grammar.extended`
-/

------------------------------------------------------------
-- Extensions
------------------------------------------------------------

namespace StatusEffect

/- What one section says about an effect. -/
inductive Extension where
  | flag (flag : Flag)
  | removability (removability : Removability)
  | chain (effect : ChainEffect) (target : Option Record)
  | source (source : SourceLink)
  | stacking (stacking : Stacking)
  | visibility (visibility : Visibility)
  | resource (link : ResourceLink)
  | conditions (conditions : List Condition)
  | interaction (interaction : Interaction)
  | metaEffect (metaEffect : MetaEffect)
  | ignored
deriving DecidableEq, Repr

namespace Effect

/- An effect with what a section says about it. -/
def extend
    (effect : Effect) : Extension → Effect
  | .flag flag =>
      { effect with flags := effect.flags ++ [flag] }
  | .removability removability =>
      { effect with removability := some removability }
  | .chain chainEffect _ =>
      { effect with chainEffect := some chainEffect }
  | .source source => { effect with source := some source }
  | .stacking stacking =>
      { effect with stacking := some stacking }
  | .visibility visibility =>
      { effect with visibility := some visibility }
  | .resource link => { effect with resource := some link }
  | .conditions conditions =>
      { effect with
        conditions := effect.conditions ++ conditions }
  | .interaction interaction =>
      { effect with interaction := some interaction }
  | .metaEffect metaEffect =>
      { effect with metaEffect := some metaEffect }
  | .ignored => effect

end Effect

namespace Record

/-
  A record with what a section says about it. A chain effect
  replaces the chain target too, also when it has none.
-/
def extend
    (record : Record)
    (extension : Extension) : Record :=
  let extended : Record :=
    { record with effect := record.effect.extend extension }
  match extension with
  | .chain _ target => extended.withTarget target
  | _ => extended

end Record

------------------------------------------------------------
-- Condition Lists
------------------------------------------------------------

namespace Grammar

open Reader

/- A value of a condition takes at least one token. -/
theorem length_lt_of_conditionValue
    {operator : String}
    {stop : Nat}
    {tokens rest : List Token}
    {value : ConditionValue × Bool}
    (hRead :
      conditionValue operator stop tokens =
        .read value rest) :
    rest.length < tokens.length := by
  unfold conditionValue at hRead
  split at hRead
  · simp [missing] at hRead
  · rename_i token tokens
    split at hRead
    · simp only [bind_apply, numeral] at hRead
      cases hNumeral : Text.wordOfNumeral? token.text with
      | none => simp [hNumeral, failAt] at hRead
      | some number =>
          cases tokens with
          | nil =>
              simp [hNumeral, eat?] at hRead
              rw [← hRead.2]
              simp only [List.length_cons]
              omega
          | cons next tokens =>
              by_cases hPercent : next.kind = .percent
              · simp [hNumeral, eat?, hPercent] at hRead
                rw [← hRead.2]
                simp only [List.length_cons]
                omega
              · simp [hNumeral, eat?, hPercent] at hRead
                rw [← hRead.2]
                simp only [List.length_cons]
                omega
    · simp at hRead
      rw [← hRead.2]
      simp only [List.length_cons]
      omega
    · simp [missing] at hRead

/- A condition takes at least one token. -/
theorem length_lt_of_condition
    {stop : Nat}
    {tokens rest : List Token}
    {value : Condition}
    (hRead : condition stop tokens = .read value rest) :
    rest.length < tokens.length := by
  simp only [condition, bind_apply] at hRead
  cases tokens with
  | nil => simp [expect, missing] at hRead
  | cons name tokens =>
      by_cases hName : name.kind = .identifier
      · simp only [expect, hName] at hRead
        cases tokens with
        | nil =>
            simp [eat?] at hRead
            rw [← hRead.2]
            simp only [List.length_cons]
            omega
        | cons operator tokens =>
            by_cases hOperator : operator.kind = .comparison
            · simp [eat?, hOperator] at hRead
              split at hRead
              · rename_i hValue
                have hShort :=
                  length_lt_of_conditionValue hValue
                simp at hRead
                rw [← hRead.2]
                simp only [List.length_cons]
                omega
              · simp at hRead
            · simp [eat?, hOperator] at hRead
              rw [← hRead.2]
              simp only [List.length_cons]
              omega
      · simp [expect, hName, missing] at hRead

/-
  The conditions of a list, after its opening brace, up to
  the closing one.
-/
def conditionList
    (stop : Nat)
    (tokens : List Token) : Outcome (List Condition) :=
  match hFirst : condition stop tokens with
  | .stuck failure left => .stuck failure left
  | .read first rest =>
      match rest with
      | [] => missing .closingBrace stop []
      | next :: others =>
          match next.kind with
          | .comma =>
              have := length_lt_of_condition hFirst
              match conditionList stop others with
              | .read conditions left =>
                  .read (first :: conditions) left
              | .stuck failure left => .stuck failure left
          | .braceClose => .read [first] others
          | _ => missing .closingBrace stop (next :: others)
termination_by tokens.length
decreasing_by
  simp at this
  omega

------------------------------------------------------------
-- Chain Targets
------------------------------------------------------------

/-
  The chain target behind a chain effect: a whole notation
  in parentheses. There is no reader for it at the greatest
  depth.
-/
def chainTarget
    (nested : Option (Reader Record)) :
    Reader (Option Record) :=
  fun stop tokens =>
    match tokens with
    | [] => .read none []
    | opening :: rest =>
        if opening.kind = .parenOpen then
          match nested with
          | none =>
              failAt opening.offset .chainTooDeep stop rest
          | some reader =>
              match Section.closing? 0 rest with
              | none => missing .closingParen stop []
              | some (inner, close, left) =>
                  match reader close.offset inner with
                  | .read record _ => .read (some record) left
                  | .stuck failure _ => .stuck failure left
        else
          .read none tokens

------------------------------------------------------------
-- Sections
------------------------------------------------------------

/- The count behind a stacking rule that takes one. -/
def stackCount
    (rule : StackRule)
    (head : Token) : Reader (Option UInt32) :=
  if rule.takesCount then
    some <$> number (.stackCount head.text)
  else
    pure none

/- The amount behind a resource, if there is one. -/
def resourceAmount : Reader (Option UInt32) := do
  match ← eat? .number with
  | some token => some <$> numeral token
  | none => pure none

/-
  The reader for what follows the first token of a section,
  if that token says anything.
-/
def sectionBody?
    (nested : Option (Reader Record))
    (head : Token) : Option (Reader Extension) :=
  match head.kind with
  | .specialFlag => some (.flag <$> word .specialFlag head)
  | .removability =>
      some (.removability <$> word .removability head)
  | .chainEffect =>
      some do
        let effect ← word .chainEffect head
        let target ← chainTarget nested
        pure (.chain effect target)
  | .sourceDependency =>
      some (.source <$> word .sourceDependency head)
  | .stackingBehavior =>
      some do
        let rule ← word .stackingBehavior head
        let count ← stackCount rule head
        pure (.stacking ⟨rule, count⟩)
  | .visibility =>
      some (.visibility <$> word .visibility head)
  | .resourceMarker =>
      some do
        let resource ← word .resource head
        let amount ← resourceAmount
        pure (.resource ⟨resource, amount⟩)
  | .braceOpen => some (.conditions <$> conditionList)
  | .conditionSign =>
      some do
        let single ← condition
        pure (.conditions [single])
  | .interaction =>
      some (.interaction <$> word .interaction head)
  | .specialCondition =>
      (MetaEffect.ofName? head.text).map fun metaEffect =>
        pure (.metaEffect metaEffect)
  | _ => none

/- Nothing is left of the section that a token heads. -/
def sectionEnd (head : Token) : Reader Unit :=
  fun stop tokens =>
    match tokens with
    | [] => .read () []
    | token :: _ =>
        failAt token.offset
          (.trailing token.kind token.text head.text)
          stop tokens

/- What a section says. -/
def extension
    (nested : Option (Reader Record)) : Reader Extension :=
  fun stop tokens =>
    match tokens with
    | [] => .read .ignored []
    | head :: rest =>
        match sectionBody? nested head with
        | none => .read .ignored rest
        | some body =>
            (do
              let value ← body
              sectionEnd head
              pure value : Reader Extension) stop rest

/- What some sections say, up to the first that fails. -/
def extensions
    (nested : Option (Reader Record)) :
    List Section → Except Failure (List Extension)
  | [] => .ok []
  | part :: parts => do
      let first ←
        (extension nested part.stop part.tokens).result
      let others ← extensions nested parts
      pure (first :: others)

/- A record with what the sections of some tokens say. -/
def extended
    (nested : Option (Reader Record))
    (stop : Nat)
    (start : Record)
    (tokens : List Token) : Except Failure Record :=
  (extensions nested (Section.split stop tokens)).map
    (·.foldl Record.extend start)

/- Sections that are read extend the record one by one. -/
theorem extended_of_extensions
    {nested : Option (Reader Record)}
    {stop : Nat}
    {tokens : List Token}
    {values : List Extension}
    (hValues :
      extensions nested (Section.split stop tokens) =
        .ok values)
    (start : Record) :
    extended nested stop start tokens =
      .ok (values.foldl Record.extend start) := by
  rw [extended, hValues]
  rfl

/- A record is only extended by sections that are all read. -/
theorem exists_of_extended
    {nested : Option (Reader Record)}
    {stop : Nat}
    {start record : Record}
    {tokens : List Token}
    (hExtended :
      extended nested stop start tokens = .ok record) :
    ∃ values,
      extensions nested (Section.split stop tokens) =
          .ok values ∧
        values.foldl Record.extend start = record := by
  unfold extended at hExtended
  cases hValues :
      extensions nested (Section.split stop tokens) with
  | error failure =>
      rw [hValues] at hExtended
      cases hExtended
  | ok values =>
      rw [hValues] at hExtended
      exact ⟨values, rfl, Except.ok.inj hExtended⟩

/- A record is not extended if a section of it fails. -/
theorem extended_eq_error_iff
    {nested : Option (Reader Record)}
    {stop : Nat}
    {start : Record}
    {tokens : List Token}
    {failure : Failure} :
    extended nested stop start tokens = .error failure ↔
      extensions nested (Section.split stop tokens) =
        .error failure := by
  unfold extended
  cases extensions nested (Section.split stop tokens) <;>
    simp [Except.map]

end Grammar

end StatusEffect
