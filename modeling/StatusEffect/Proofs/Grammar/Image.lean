import StatusEffect.Grammar.Parse
import StatusEffect.Proofs.Grammar.Clause
import StatusEffect.Proofs.Grammar.Section
import StatusEffect.Proofs.Record.Expressible

/-
  What is read can be expressed.

  The tokens of a source are well spelled, so each clause
  that is read off them is one that can be written. Sections
  keep this: an effect stays expressible whatever extends
  it, and a chain target comes with its chain effect. By
  recursion on the nested levels every record that is read
  is expressible, for each source that is accepted.

  Key definitions include:
    * `Extension.Fits`

  Key theorems include:
    * `Grammar.expressible_of_spellsCore`
    * `Grammar.fits_of_extension`
    * `Record.expressibleWithin_foldl_extend`
    * `Grammar.expressible_of_parse`
-/

------------------------------------------------------------
-- Clauses
------------------------------------------------------------

namespace StatusEffect

namespace Grammar

/- The value of a name is expressible. -/
theorem expressible_nameValue
    {text : String}
    (hName : isName text = true) :
    (nameValue text).Expressible false := by
  unfold nameValue
  split
  · rfl
  · split
    · rfl
    · rename_i hTrue hFalse
      exact ⟨rfl, hName, hTrue, hFalse⟩

/- A condition of well spelled tokens is expressible. -/
theorem expressible_of_spellsCondition
    {value : Condition}
    {tokens : List Token}
    (hSpells : SpellsCondition value tokens)
    (hTokens : ∀ token ∈ tokens, token.WellSpelled) :
    value.Expressible := by
  cases hSpells with
  | flag name offset =>
      have hName :=
        (hTokens _ (List.mem_singleton_self _)).name rfl
      exact ⟨hName, by simp [Condition.flag, operators], rfl⟩
  | @number name operator text offset place start value
      hNumeral =>
      have hName :=
        (hTokens ⟨.identifier, name, offset⟩ (by simp)).name
          rfl
      have hOperator :=
        (hTokens ⟨.comparison, operator, place⟩
          (by simp)).operator rfl
      exact ⟨hName, hOperator, trivial⟩
  | @percent name operator text sign offset place start last
      value hNumeral =>
      have hName :=
        (hTokens ⟨.identifier, name, offset⟩ (by simp)).name
          rfl
      have hOperator :=
        (hTokens ⟨.comparison, operator, place⟩
          (by simp)).operator rfl
      exact ⟨hName, hOperator, trivial⟩
  | name name operator text offset place start =>
      have hName :=
        (hTokens ⟨.identifier, name, offset⟩ (by simp)).name
          rfl
      have hOperator :=
        (hTokens ⟨.comparison, operator, place⟩
          (by simp)).operator rfl
      have hText :=
        (hTokens ⟨.identifier, text, start⟩ (by simp)).name
          rfl
      exact ⟨hName, hOperator, expressible_nameValue hText⟩

/- A subject of well spelled tokens is expressible. -/
theorem expressible_of_spellsSubject
    {value : Subject}
    {tokens : List Token}
    (hSpells : SpellsSubject value tokens)
    (hTokens : ∀ token ∈ tokens, token.WellSpelled) :
    value.Expressible := by
  cases hSpells with
  | stat hCode => trivial
  | condition text offset =>
      exact
        (hTokens _ (List.mem_singleton_self _)).condition rfl

/- A magnitude that is spelled is expressible. -/
theorem expressible_of_spellsMagnitude
    {value : Option Magnitude}
    {tokens : List Token}
    (hSpells : SpellsMagnitude value tokens) :
    ∀ magnitude ∈ value, magnitude.Expressible := by
  cases hSpells with
  | absent => simp
  | full text offset =>
      intro value hValue
      cases hValue
      exact .inr (.inr rfl)
  | flat hNumeral =>
      intro value hValue
      cases hValue
      exact .inl rfl
  | percent hNumeral =>
      intro value hValue
      cases hValue
      exact .inr (.inl rfl)

/- A duration that is spelled is ordered. -/
theorem ordered_of_spellsDuration
    {value : Option Duration}
    {tokens : List Token}
    (hSpells : SpellsDuration value tokens) :
    ∀ duration ∈ value, duration.Ordered := by
  cases hSpells with
  | absent => simp
  | @unit text offset span value hCode hUnit =>
      intro value hValue
      cases hValue
      cases span <;> cases hUnit <;> trivial
  | turns hNumeral =>
      intro value hValue
      cases hValue
      trivial
  | range hFirst hLast hOrder =>
      intro value hValue
      cases hValue
      exact hOrder

/- A trigger that is spelled is bounded. -/
theorem bounded_of_spellsTrigger
    {value : Option Trigger}
    {tokens : List Token}
    (hSpells : SpellsTrigger value tokens) :
    ∀ trigger ∈ value, trigger.Bounded := by
  cases hSpells with
  | absent => simp
  | plain hEvent =>
      intro value hValue
      cases hValue
      trivial
  | signed hCode =>
      intro value hValue
      cases hValue
      trivial
  | chance hNumeral hBound =>
      intro value hValue
      cases hValue
      exact hBound
  | condition hTest =>
      intro value hValue
      cases hValue
      trivial

/- The condition of a well spelled trigger is expressible. -/
theorem expressible_of_spellsTrigger
    {value : Option Trigger}
    {tokens : List Token}
    (hSpells : SpellsTrigger value tokens)
    (hTokens : ∀ token ∈ tokens, token.WellSpelled) :
    ∀ test ∈ value.bind Trigger.condition?,
      test.Expressible := by
  cases hSpells with
  | absent => simp
  | plain hEvent => simp [Trigger.condition?]
  | signed hCode => simp [Trigger.condition?]
  | chance hNumeral hBound => simp [Trigger.condition?]
  | condition hTest =>
      intro value hValue
      cases hValue
      apply expressible_of_spellsCondition hTest
      intro token hToken
      exact hTokens token (by simp [hToken])

------------------------------------------------------------
-- Core
------------------------------------------------------------

/- The first clause behind a subject is read in its own mode. -/
theorem readIn_opening_of_lexed
    {braces : Nat}
    {target : Target}
    {change : Change}
    {subject : Subject}
    {first second third rest : List Token}
    {token : Token}
    (hTarget : SpellsTarget target first)
    (hChange : SpellsChange change second)
    (hSubject : SpellsSubject subject third)
    (hLexed :
      Lexed .target braces
        (first ++ (second ++ (third ++ token :: rest)))) :
    token.ReadIn .opening := by
  -- the mode moves on at each of the three mandatory tokens
  cases hTarget with
  | code hKind hCode =>
  cases hChange with
  | code hChangeCode =>
  have hThird :
      ∃ kind text offset,
        third = [⟨kind, text, offset⟩] ∧
          (kind = .stat ∨ kind = .specialCondition) := by
    cases hSubject with
    | stat hCode => exact ⟨_, _, _, rfl, .inl rfl⟩
    | condition text offset => exact ⟨_, _, _, rfl, .inr rfl⟩
  rcases hThird with ⟨kind, text, offset, rfl, hThird⟩
  cases hLexed with
  | some _ hLexed =>
  cases hLexed with
  | some _ hLexed =>
  cases hLexed with
  | some _ hLexed =>
  cases hLexed with
  | some hToken _ =>
      rcases hKind with rfl | rfl <;>
        rcases hThird with rfl | rfl <;> exact hToken

/- Fire does not stand directly behind a subject. -/
theorem not_startsWithFire_of_spellsCore
    {effect : Effect}
    {tokens : List Token}
    {braces : Nat}
    (hSpells : SpellsCore effect tokens)
    (hLexed : Lexed .target braces tokens) :
    ¬ effect.StartsWithFire := by
  cases hSpells with
  | clauses hTarget hChange hSubject hMagnitude hDuration
      hTrigger hElements =>
      intro hRead
      rcases hRead with
        ⟨hNone, hNoDuration, hNoTrigger, hFire⟩
      simp only at hNone hNoDuration hNoTrigger hFire
      subst hNone hNoDuration hNoTrigger
      cases hMagnitude
      cases hDuration
      cases hTrigger
      cases hElements with
      | absent => simp at hFire
      | some hCode hOthers =>
          have hToken :=
            readIn_opening_of_lexed hTarget hChange hSubject
              hLexed
          simp only [List.head?_cons,
            Option.some.injEq] at hFire
          subst hFire
          exact hToken.not_fire rfl hCode

/- A core that is read off a source is expressible. -/
theorem expressible_of_spellsCore
    {effect : Effect}
    {tokens : List Token}
    {braces : Nat}
    (hSpells : SpellsCore effect tokens)
    (hLexed : Lexed .target braces tokens) :
    effect.Expressible := by
  have hFire := not_startsWithFire_of_spellsCore hSpells hLexed
  have hTokens : ∀ token ∈ tokens, token.WellSpelled := by
    intro token hToken
    rcases hLexed.readIn_of_mem hToken with ⟨mode, hRead⟩
    exact hRead.wellSpelled
  cases hSpells with
  | clauses hTarget hChange hSubject hMagnitude hDuration
      hTrigger hElements =>
      simp only [List.forall_mem_append] at hTokens
      rcases hTokens with
        ⟨_, _, hThird, _, _, hSixth, _⟩
      refine
        ⟨expressible_of_spellsSubject hSubject hThird,
          expressible_of_spellsMagnitude hMagnitude,
          ordered_of_spellsDuration hDuration,
          bounded_of_spellsTrigger hTrigger, ?_, hFire,
          by simp⟩
      have hTest :=
        expressible_of_spellsTrigger hTrigger hSixth
      simpa [Effect.allConditions] using hTest

end Grammar

------------------------------------------------------------
-- Extensions
------------------------------------------------------------

namespace Extension

/-
  An extension adds only what can be written, and a chain
  target that leaves room for the level above it.
-/
def Fits
    (levels : Nat) : Extension → Prop
  | .stacking limit => limit.Counted
  | .conditions tests =>
      ∀ test ∈ tests, test.Expressible
  | .chain _ target =>
      ∀ next ∈ target,
        ∃ fewer,
          levels = fewer + 1 ∧
            next.ExpressibleWithin fewer
  | _ => True

end Extension

namespace Effect

/- An expressible effect stays so when it is extended. -/
theorem Expressible.extend
    {levels : Nat}
    {effect : Effect}
    {extension : Extension}
    (hEffect : effect.Expressible)
    (hFits : extension.Fits levels) :
    (effect.extend extension).Expressible := by
  rcases hEffect with
    ⟨hSubject, hMagnitude, hDuration, hTrigger, hConditions,
      hElements, hStacking⟩
  cases extension with
  | stacking stacking =>
      refine
        ⟨hSubject, hMagnitude, hDuration, hTrigger,
          hConditions, hElements, ?_⟩
      intro value hValue
      cases hValue
      exact hFits
  | conditions conditions =>
      refine
        ⟨hSubject, hMagnitude, hDuration, hTrigger, ?_,
          hElements, hStacking⟩
      simp only [allConditions, Effect.extend,
        ← List.append_assoc]
      rw [List.forall_mem_append]
      exact ⟨hConditions, hFits⟩
  | _ =>
      exact
        ⟨hSubject, hMagnitude, hDuration, hTrigger,
          hConditions, hElements, hStacking⟩

/- Only a chain effect changes the chain effect. -/
theorem chainEffect_extend
    {effect : Effect}
    {extension : Extension}
    (hChain : effect.chainEffect.isSome = true) :
    (effect.extend extension).chainEffect.isSome = true := by
  cases extension with
  | chain chainEffect target => rfl
  | _ => exact hChain

end Effect

namespace Record

/- The chain of a record may follow from any chain effect. -/
theorem ExpressibleWithin.withEffect
    {levels : Nat}
    {record : Record}
    {effect : Effect}
    (hRecord : record.ExpressibleWithin levels)
    (hEffect : effect.Expressible)
    (hChain :
      record.effect.chainEffect.isSome = true →
        effect.chainEffect.isSome = true) :
    ExpressibleWithin levels ⟨effect, record.chain⟩ := by
  rcases record with ⟨current, _ | ⟨next, chain⟩⟩
  · exact expressibleWithin_nil.mpr hEffect
  · rw [expressibleWithin_cons] at hRecord ⊢
    exact ⟨hEffect, hChain hRecord.2.1, hRecord.2.2⟩

/- An expressible record stays so when it is extended. -/
theorem ExpressibleWithin.extend
    {levels : Nat}
    {record : Record}
    {extension : Extension}
    (hRecord : record.ExpressibleWithin levels)
    (hFits : extension.Fits levels) :
    (record.extend extension).ExpressibleWithin levels := by
  have hEffect : record.effect.Expressible := by
    rcases record with ⟨effect, _ | ⟨next, chain⟩⟩
    · exact expressibleWithin_nil.mp hRecord
    · exact (expressibleWithin_cons.mp hRecord).1
  have hExtended := hEffect.extend hFits
  cases extension with
  | chain chainEffect target =>
      cases target with
      | none => exact expressibleWithin_nil.mpr hExtended
      | some next =>
          exact expressibleWithin_cons.mpr
            ⟨hExtended, rfl, hFits next rfl⟩
  | _ =>
      exact hRecord.withEffect hExtended
        Effect.chainEffect_extend

/- An expressible record stays so through all extensions. -/
theorem expressibleWithin_foldl_extend
    {levels : Nat}
    {record : Record}
    {extensions : List Extension}
    (hRecord : record.ExpressibleWithin levels)
    (hFits :
      ∀ extension ∈ extensions, extension.Fits levels) :
    (extensions.foldl Record.extend record).ExpressibleWithin
      levels := by
  induction extensions generalizing record with
  | nil => exact hRecord
  | cons extension extensions ih =>
      rw [List.forall_mem_cons] at hFits
      exact ih (hRecord.extend hFits.1) hFits.2

end Record

------------------------------------------------------------
-- Sections
------------------------------------------------------------

namespace Grammar

open Reader

/- The conditions of a list of tokens are expressible. -/
theorem expressible_of_conditionList
    {stop : Nat}
    {tokens rest : List Token}
    {values : List Condition}
    (hRead :
      conditionList stop tokens = .read values rest)
    (hTokens : ∀ token ∈ tokens, token.WellSpelled) :
    ∀ value ∈ values, value.Expressible := by
  induction hLength : tokens.length
    using Nat.strongRecOn generalizing tokens values with
  | ind length ih =>
      subst hLength
      rw [conditionList] at hRead
      split at hRead
      · simp at hRead
      · rename_i first between hFirst
        rcases spellsCondition_of_condition hFirst with
          ⟨used, rfl, hSpells⟩
        rw [List.forall_mem_append] at hTokens
        have hExpressible :=
          expressible_of_spellsCondition hSpells hTokens.1
        rcases between with _ | ⟨next, others⟩
        · simp [missing] at hRead
        · simp only at hRead
          split at hRead
          · split at hRead
            · rename_i conditions left hOthers
              simp only [Outcome.read.injEq] at hRead
              rcases hRead with ⟨rfl, rfl⟩
              rw [List.forall_mem_cons] at hTokens ⊢
              refine
                ⟨hExpressible,
                  ih _ ?_ hOthers hTokens.2.2 rfl⟩
              simp only [List.length_append,
                List.length_cons]
              omega
            · simp at hRead
          · simp only [Outcome.read.injEq] at hRead
            rcases hRead with ⟨rfl, rfl⟩
            simpa using hExpressible
          · simp [missing] at hRead

/- A reader of chain targets gives only expressible records. -/
def ReadsExpressible
    (levels : Nat)
    (nested : Option (Reader Record)) : Prop :=
  ∀ reader ∈ nested,
    ∃ fewer,
      levels = fewer + 1 ∧
        ∀ braces stop tokens rest record,
          Lexed .target braces tokens →
            reader stop tokens = .read record rest →
              record.ExpressibleWithin fewer

/- A chain target that is read is expressible. -/
theorem expressible_of_chainTarget
    {levels stop braces : Nat}
    {mode : Mode}
    {nested : Option (Reader Record)}
    {tokens rest : List Token}
    {target : Option Record}
    (hNested : ReadsExpressible levels nested)
    (hLexed : Lexed mode braces tokens)
    (hRead :
      chainTarget nested stop tokens =
        .read target rest) :
    ∀ next ∈ target,
      ∃ fewer,
        levels = fewer + 1 ∧
          next.ExpressibleWithin fewer := by
  rcases tokens with _ | ⟨opening, tokens⟩
  · simp only [chainTarget, Outcome.read.injEq] at hRead
    simp [← hRead.1]
  · simp only [chainTarget] at hRead
    split at hRead
    · rename_i hOpening
      cases nested with
      | none => simp [failAt] at hRead
      | some reader =>
          simp only at hRead
          split at hRead
          · simp [missing] at hRead
          · rename_i inner close left hClosing
            split at hRead
            · rename_i record between hRecord
              simp only [Outcome.read.injEq] at hRead
              rcases hRead with ⟨rfl, rfl⟩
              intro value hValue
              cases hValue
              rcases hNested reader rfl with
                ⟨fewer, hLevels, hReader⟩
              have hInner := hLexed.target_of_parenOpen hOpening
              rw [Section.eq_of_closing? hClosing] at hInner
              exact ⟨fewer, hLevels,
                hReader _ _ _ _ _ hInner.left_of_append
                  hRecord⟩
            · simp at hRead
    · simp only [Outcome.read.injEq] at hRead
      simp [← hRead.1]

/- A stacking rule is read with a count exactly if it takes one. -/
theorem counted_of_stackCount
    {rule : StackRule}
    {head : Token}
    {stop : Nat}
    {tokens rest : List Token}
    {count : Option UInt32}
    (hRead :
      stackCount rule head stop tokens = .read count rest) :
    Stacking.Counted ⟨rule, count⟩ := by
  unfold stackCount at hRead
  cases rule with
  | maxStacks =>
      rcases map_eq_read_iff.mp hRead with ⟨number, _, rfl⟩
      simp [Stacking.Counted]
  | addDuration =>
      simp [StackRule.takesCount] at hRead
      simp [Stacking.Counted, ← hRead.1]
  | multiplyEffect =>
      simp [StackRule.takesCount] at hRead
      simp [Stacking.Counted, ← hRead.1]
  | uniqueStacking =>
      simp [StackRule.takesCount] at hRead
      simp [Stacking.Counted, ← hRead.1]

/- What the body of a section gives can be written. -/
theorem fits_of_sectionBody?
    {levels stop braces : Nat}
    {mode : Mode}
    {nested : Option (Reader Record)}
    {head : Token}
    {body : Reader Extension}
    {tokens rest : List Token}
    {value : Extension}
    (hNested : ReadsExpressible levels nested)
    (hLexed : Lexed mode braces tokens)
    (hBody : sectionBody? nested head = some body)
    (hRead : body stop tokens = .read value rest) :
    value.Fits levels := by
  have hTokens : ∀ token ∈ tokens, token.WellSpelled := by
    intro token hToken
    rcases hLexed.readIn_of_mem hToken with ⟨later, hRead⟩
    exact hRead.wellSpelled
  unfold sectionBody? at hBody
  split at hBody
  case h_3 =>
      -- a chain effect, with or without its target
      cases hBody
      simp only [bind_eq_read_iff, word_eq_read_iff,
        pure_apply, Outcome.read.injEq] at hRead
      rcases hRead with
        ⟨effect, _, ⟨_, rfl⟩, target, _, hTarget, rfl, rfl⟩
      exact expressible_of_chainTarget hNested hLexed hTarget
  case h_5 =>
      -- a stacking rule
      cases hBody
      simp only [bind_eq_read_iff, word_eq_read_iff,
        pure_apply, Outcome.read.injEq] at hRead
      rcases hRead with
        ⟨rule, _, ⟨_, rfl⟩, count, _, hCount, rfl, rfl⟩
      exact counted_of_stackCount hCount
  case h_7 =>
      -- a resource
      cases hBody
      simp only [bind_eq_read_iff, pure_apply,
        Outcome.read.injEq] at hRead
      rcases hRead with ⟨_, _, _, _, _, _, rfl, rfl⟩
      trivial
  case h_8 =>
      -- conditions in braces
      cases hBody
      rcases map_eq_read_iff.mp hRead with
        ⟨conditions, hConditions, rfl⟩
      exact expressible_of_conditionList hConditions hTokens
  case h_9 =>
      -- a single condition
      cases hBody
      simp only [bind_eq_read_iff, pure_apply,
        Outcome.read.injEq] at hRead
      rcases hRead with ⟨single, _, hSingle, rfl, rfl⟩
      rcases spellsCondition_of_condition hSingle with
        ⟨used, rfl, hSpells⟩
      rw [List.forall_mem_append] at hTokens
      have hTest :=
        expressible_of_spellsCondition hSpells hTokens.1
      simpa [Extension.Fits] using hTest
  case h_11 =>
      -- a meta effect
      rcases Option.map_eq_some_iff.mp hBody with
        ⟨metaEffect, _, rfl⟩
      simp only [pure_apply, Outcome.read.injEq] at hRead
      rcases hRead with ⟨rfl, rfl⟩
      trivial
  case h_12 => simp at hBody
  -- all other sections are one word
  all_goals
    cases hBody
    rcases map_eq_read_iff.mp hRead with ⟨_, _, rfl⟩
    trivial

/- What a section says can be written. -/
theorem fits_of_extension
    {levels stop braces : Nat}
    {mode : Mode}
    {nested : Option (Reader Record)}
    {tokens rest : List Token}
    {value : Extension}
    (hNested : ReadsExpressible levels nested)
    (hLexed : Lexed mode braces tokens)
    (hRead :
      extension nested stop tokens = .read value rest) :
    value.Fits levels := by
  unfold extension at hRead
  split at hRead
  · simp only [Outcome.read.injEq] at hRead
    simp [← hRead.1, Extension.Fits]
  · split at hRead
    · simp only [Outcome.read.injEq] at hRead
      simp [← hRead.1, Extension.Fits]
    · rename_i body hBody
      simp only [bind_eq_read_iff, pure_apply,
        Outcome.read.injEq] at hRead
      rcases hRead with ⟨_, _, hRead, _, _, _, rfl, rfl⟩
      cases hLexed with
      | some hHead hLexed =>
          exact
            fits_of_sectionBody? hNested hLexed hBody hRead

/- What the sections of a notation say can be written. -/
theorem fits_of_extensions
    {levels : Nat}
    {nested : Option (Reader Record)}
    {parts : List Section}
    {values : List Extension}
    (hNested : ReadsExpressible levels nested)
    (hLexed :
      ∀ part ∈ parts,
        ∃ mode braces, Lexed mode braces part.tokens)
    (hRead : extensions nested parts = .ok values) :
    ∀ value ∈ values, value.Fits levels := by
  induction parts generalizing values with
  | nil =>
      cases hRead
      simp
  | cons part parts ih =>
      rw [List.forall_mem_cons] at hLexed
      simp only [extensions] at hRead
      cases hFirst :
          extension nested part.stop part.tokens with
      | stuck failure left =>
          simp [hFirst, Outcome.result, bind,
            Except.bind] at hRead
      | read first left =>
          cases hOthers : extensions nested parts with
          | error failure =>
              simp [hFirst, hOthers, Outcome.result, bind,
                Except.bind] at hRead
          | ok others =>
              simp only [hFirst, hOthers, Outcome.result,
                bind, Except.bind, pure, Except.pure,
                Except.ok.injEq] at hRead
              subst hRead
              rw [List.forall_mem_cons]
              rcases hLexed.1 with ⟨mode, braces, hPart⟩
              exact
                ⟨fits_of_extension hNested hPart hFirst,
                  ih hLexed.2 hOthers⟩

------------------------------------------------------------
-- Records
------------------------------------------------------------

/- A notation with sections is read as an expressible record. -/
theorem expressible_of_recordWith
    {levels stop braces : Nat}
    {nested : Option (Reader Record)}
    {tokens rest : List Token}
    {value : Record}
    (hNested : ReadsExpressible levels nested)
    (hLexed : Lexed .target braces tokens)
    (hRead :
      recordWith nested stop tokens = .read value rest) :
    value.ExpressibleWithin levels := by
  unfold recordWith at hRead
  split at hRead
  · simp at hRead
  · rename_i effect left hCore
    split at hRead
    · simp at hRead
    · rename_i found hFound
      simp only [Outcome.read.injEq] at hRead
      rcases hRead with ⟨rfl, rfl⟩
      rcases exists_of_extended hFound with
        ⟨values, hValues, rfl⟩
      rcases spellsCore_of_core hCore with
        ⟨used, rfl, hSpells, hSection⟩
      have hEffect :=
        expressible_of_spellsCore hSpells
          hLexed.left_of_append
      have hFits :=
        fits_of_extensions hNested
          (fun part hPart => by
            rcases hLexed.of_append with
              ⟨mode, depth, hLeft⟩
            exact hLeft.of_infix
              (Section.infix_of_mem_split hPart))
          hValues
      exact Record.expressibleWithin_foldl_extend
        (Record.expressibleWithin_nil.mpr hEffect) hFits

/- A record with nested levels is read as an expressible one. -/
theorem expressible_of_record
    {levels stop braces : Nat}
    {tokens rest : List Token}
    {value : Record}
    (hLexed : Lexed .target braces tokens)
    (hRead :
      record levels stop tokens = .read value rest) :
    value.ExpressibleWithin levels := by
  induction levels generalizing stop braces tokens rest value
      with
  | zero =>
      refine expressible_of_recordWith ?_ hLexed hRead
      intro reader hReader
      cases hReader
  | succ levels ih =>
      refine expressible_of_recordWith ?_ hLexed hRead
      intro reader hReader
      cases hReader
      exact ⟨levels, rfl, fun _ _ _ _ _ => ih⟩

/- Every notation that is accepted gives an expressible record. -/
theorem expressible_of_parse
    {source : String}
    {value : Record}
    (hParse : parse source = .ok value) :
    value.Expressible := by
  unfold parse at hParse
  cases hTokens : tokenize source with
  | error failure =>
      simp [hTokens, bind, Except.bind] at hParse
  | ok tokens =>
      simp only [hTokens, bind, Except.bind] at hParse
      cases hRead : parseTokens source tokens with
      | stuck failure rest =>
          simp [hRead, Outcome.result] at hParse
      | read found rest =>
          simp only [hRead, Outcome.result,
            Except.ok.injEq] at hParse
          subst hParse
          exact expressible_of_record
            (lexed_of_tokenize hTokens) hRead

end Grammar

end StatusEffect
