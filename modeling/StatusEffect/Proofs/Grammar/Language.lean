import Mathlib.Data.List.Forall2
import StatusEffect.Grammar.Parse
import StatusEffect.Proofs.Grammar.Moved
import StatusEffect.Proofs.Grammar.Parts
import StatusEffect.Proofs.Grammar.Reading
import StatusEffect.Proofs.Record.Followed

/-
  The language of extended sections.

  A section is spelled in one of a few forms, and what does
  not have one of them is rejected. The forms say nothing
  about how a section is read: a list of tokens is accepted
  exactly if each of its parts has a form, whatever stands
  in the other ones, and it says what its parts say, in
  their order. Chain targets are spelled as whole records,
  so the language is given level by level.

  Key definitions include:
    * `Token.Idle`
    * `Grammar.SpellsConditions`
    * `Grammar.SpellsSection`
    * `Grammar.SpellsRecord`
    * `Grammar.nestedAt`

  Key theorems include:
    * `Grammar.conditionList_of_spells`
    * `Grammar.chainTarget_eq_read_iff`
    * `Grammar.extension_eq_ok_iff`
    * `Grammar.extended_eq_ok_iff_spells`
    * `Grammar.record_eq_read_iff`
    * `Grammar.record_eq_recordWith`
    * `Grammar.extended_eq_ok_iff`
-/

------------------------------------------------------------
-- Spellings
------------------------------------------------------------

namespace StatusEffect

namespace Token

/- The kinds of tokens that decide what a section says. -/
def sectionKinds : List TokenKind :=
  [.specialFlag, .removability, .chainEffect,
   .sourceDependency, .stackingBehavior, .visibility,
   .resourceMarker, .braceOpen, .conditionSign, .interaction]

/-
  A token at the head of a section says nothing: it is of
  none of those kinds, nor a special condition that names a
  meta effect.
-/
def Idle (token : Token) : Prop :=
  token.kind ∉ sectionKinds ∧
    (token.kind = .specialCondition →
      MetaEffect.ofName? token.text = none)

instance : DecidablePred Idle :=
  fun token =>
    inferInstanceAs
      (Decidable
        (token.kind ∉ sectionKinds ∧
          (token.kind = .specialCondition →
            MetaEffect.ofName? token.text = none)))

end Token

namespace Grammar

open Reader

/- Conditions with commas between them, and a brace behind. -/
inductive SpellsConditions :
    List Condition → List Token → Prop where
  | last
      {single : Condition}
      {tokens : List Token}
      {brace : String}
      {offset : Nat}
      (hSingle : SpellsCondition single tokens) :
      SpellsConditions [single]
        (tokens ++ [⟨.braceClose, brace, offset⟩])
  | more
      {first : Condition}
      {others : List Condition}
      {tokens rest : List Token}
      {comma : String}
      {offset : Nat}
      (hFirst : SpellsCondition first tokens)
      (hOthers : SpellsConditions others rest) :
      SpellsConditions (first :: others)
        (tokens ++ ⟨.comma, comma, offset⟩ :: rest)

/-
  What a section says, and how it is spelled, given how the
  targets of chains are spelled.
-/
inductive SpellsSection
    (Target : Record → List Token → Prop) :
    Extension → List Token → Prop where
  | flag
      {text : String}
      {offset : Nat}
      {value : Flag}
      (hCode : Vocabulary.ofCode? text = some value) :
      SpellsSection Target (.flag value)
        [⟨.specialFlag, text, offset⟩]
  | removability
      {text : String}
      {offset : Nat}
      {value : Removability}
      (hCode : Vocabulary.ofCode? text = some value) :
      SpellsSection Target (.removability value)
        [⟨.removability, text, offset⟩]
  | source
      {text : String}
      {offset : Nat}
      {value : SourceLink}
      (hCode : Vocabulary.ofCode? text = some value) :
      SpellsSection Target (.source value)
        [⟨.sourceDependency, text, offset⟩]
  | visibility
      {text : String}
      {offset : Nat}
      {value : Visibility}
      (hCode : Vocabulary.ofCode? text = some value) :
      SpellsSection Target (.visibility value)
        [⟨.visibility, text, offset⟩]
  | interaction
      {text : String}
      {offset : Nat}
      {value : Interaction}
      (hCode : Vocabulary.ofCode? text = some value) :
      SpellsSection Target (.interaction value)
        [⟨.interaction, text, offset⟩]
  | chain
      {text : String}
      {offset : Nat}
      {value : ChainEffect}
      (hCode : Vocabulary.ofCode? text = some value) :
      SpellsSection Target (.chain value none)
        [⟨.chainEffect, text, offset⟩]
  | chainTarget
      {text opening close : String}
      {offset start finish : Nat}
      {value : ChainEffect}
      {target : Record}
      {inner : List Token}
      (hCode : Vocabulary.ofCode? text = some value)
      (hInner : Section.Balanced inner)
      (hTarget : Target target inner) :
      SpellsSection Target (.chain value (some target))
        (⟨.chainEffect, text, offset⟩ ::
          ⟨.parenOpen, opening, start⟩ ::
            (inner ++ [⟨.parenClose, close, finish⟩]))
  | stackRule
      {text : String}
      {offset : Nat}
      {rule : StackRule}
      (hCode : Vocabulary.ofCode? text = some rule)
      (hRule : rule ≠ .maxStacks) :
      SpellsSection Target (.stacking ⟨rule, none⟩)
        [⟨.stackingBehavior, text, offset⟩]
  | stackLimit
      {text numeral : String}
      {offset place : Nat}
      {count : UInt32}
      (hCode :
        Vocabulary.ofCode? text = some StackRule.maxStacks)
      (hNumeral : Text.wordOfNumeral? numeral = some count) :
      SpellsSection Target
        (.stacking ⟨.maxStacks, some count⟩)
        [⟨.stackingBehavior, text, offset⟩,
         ⟨.number, numeral, place⟩]
  | resource
      {text : String}
      {offset : Nat}
      {value : Resource}
      (hCode : Vocabulary.ofCode? text = some value) :
      SpellsSection Target (.resource ⟨value, none⟩)
        [⟨.resourceMarker, text, offset⟩]
  | resourceAmount
      {text numeral : String}
      {offset place : Nat}
      {value : Resource}
      {amount : UInt32}
      (hCode : Vocabulary.ofCode? text = some value)
      (hNumeral : Text.wordOfNumeral? numeral = some amount) :
      SpellsSection Target (.resource ⟨value, some amount⟩)
        [⟨.resourceMarker, text, offset⟩,
         ⟨.number, numeral, place⟩]
  | conditions
      {brace : String}
      {offset : Nat}
      {values : List Condition}
      {tokens : List Token}
      (hValues : SpellsConditions values tokens) :
      SpellsSection Target (.conditions values)
        (⟨.braceOpen, brace, offset⟩ :: tokens)
  | condition
      {sign : String}
      {offset : Nat}
      {single : Condition}
      {tokens : List Token}
      (hSingle : SpellsCondition single tokens) :
      SpellsSection Target (.conditions [single])
        (⟨.conditionSign, sign, offset⟩ :: tokens)
  | metaEffect
      {text : String}
      {offset : Nat}
      {value : MetaEffect}
      (hName : MetaEffect.ofName? text = some value) :
      SpellsSection Target (.metaEffect value)
        [⟨.specialCondition, text, offset⟩]
  | ignored
      {head : Token}
      {rest : List Token}
      (hIdle : head.Idle) :
      SpellsSection Target .ignored (head :: rest)

/-
  A record is spelled as its core clauses and its sections,
  each behind a delimiter. Parts without tokens say nothing.
-/
inductive SpellsWith
    (Target : Record → List Token → Prop) :
    Record → List Token → Prop where
  | sections
      {effect : Effect}
      {core rest : List Token}
      {parts : List (List Token)}
      {values : List Extension}
      (hCore : SpellsCore effect core)
      (hRest : AtSection rest)
      (hParts : Section.Parts rest parts)
      (hValues :
        List.Forall₂ (SpellsSection Target) values
          (parts.filter fun part => !part.isEmpty)) :
      SpellsWith Target
        (values.foldl Record.extend ⟨effect, []⟩)
        (core ++ rest)

/- A record with at most a number of chain targets below it. -/
def SpellsRecord : Nat → Record → List Token → Prop
  | 0 => SpellsWith fun _ _ => False
  | levels + 1 => SpellsWith (SpellsRecord levels)

------------------------------------------------------------
-- Tails Of Sections
------------------------------------------------------------

/- A list of conditions that is read is spelled. -/
theorem spellsConditions_of_conditionList
    {stop : Nat}
    {tokens rest : List Token}
    {values : List Condition}
    (hRead :
      conditionList stop tokens = .read values rest) :
    ∃ used,
      tokens = used ++ rest ∧
        SpellsConditions values used := by
  -- the rest behind a condition and a comma is shorter
  induction hLength : tokens.length
    using Nat.strongRecOn generalizing tokens values with
  | ind length ih =>
      subst hLength
      rw [conditionList_eq_bind, bind_eq_read_iff] at hRead
      rcases hRead with ⟨first, between, hFirst, hRead⟩
      rcases spellsCondition_of_condition hFirst with
        ⟨used, rfl, hSpells⟩
      rcases between with _ | ⟨⟨kind, text, offset⟩, others⟩
      · simp [conditionsBehind, missing] at hRead
      · simp only [conditionsBehind] at hRead
        split at hRead
        · split at hRead
          · rename_i conditions left hOthers
            simp only [Outcome.read.injEq] at hRead
            rcases hRead with ⟨rfl, rfl⟩
            have hShort :
                others.length <
                  (used ++
                    (⟨.comma, text, offset⟩ : Token) ::
                      others).length := by
              simp only [List.length_append,
                List.length_cons]
              omega
            rcases ih _ hShort hOthers rfl with
              ⟨more, rfl, hMore⟩
            refine
              ⟨used ++ ⟨.comma, text, offset⟩ :: more, ?_,
                .more hSpells hMore⟩
            simp only [List.append_assoc, List.cons_append]
          · simp at hRead
        · simp only [Outcome.read.injEq] at hRead
          rcases hRead with ⟨rfl, rfl⟩
          refine
            ⟨used ++ [⟨.braceClose, text, offset⟩], ?_,
              .last hSpells⟩
          simp only [List.append_assoc, List.cons_append,
            List.nil_append]
        · simp [missing] at hRead

/- A list of conditions that is spelled is read. -/
theorem conditionList_of_spells
    {used : List Token}
    {values : List Condition}
    (hSpells : SpellsConditions values used)
    (stop : Nat)
    (rest : List Token) :
    conditionList stop (used ++ rest) =
      .read values rest := by
  induction hSpells with
  | @last single tokens brace offset hSingle =>
      rw [List.append_assoc, conditionList_eq_bind,
        bind_eq_read_iff]
      exact
        ⟨single, ⟨.braceClose, brace, offset⟩ :: rest,
          condition_of_spells hSingle (by simp) stop, rfl⟩
  | @more first others tokens more comma offset hFirst
      hOthers ih =>
      rw [List.append_assoc, conditionList_eq_bind,
        bind_eq_read_iff]
      refine
        ⟨first, ⟨.comma, comma, offset⟩ :: (more ++ rest),
          condition_of_spells hFirst (by simp) stop, ?_⟩
      simp only [conditionsBehind, ih]

/-
  The reader of chain targets, if there is one, reads the
  tokens that spell a target, wherever they stop.
-/
def Recognizes
    (nested : Option (Reader Record))
    (Target : Record → List Token → Prop) : Prop :=
  ∀ stop inner target,
    (∃ reader ∈ nested, ∃ left,
      reader stop inner = .read target left) ↔
        Target target inner

variable {nested : Option (Reader Record)}
variable {Target : Record → List Token → Prop}
variable {stop : Nat}

/- All of a chain target is read if it is in parentheses. -/
theorem chainTarget_eq_read_iff
    (hNested : Recognizes nested Target)
    {tokens : List Token}
    {target : Option Record} :
    chainTarget nested stop tokens = .read target [] ↔
      (tokens = [] ∧ target = none) ∨
        ∃ opening start inner close finish found,
          tokens =
              ⟨.parenOpen, opening, start⟩ ::
                (inner ++ [⟨.parenClose, close, finish⟩]) ∧
            Section.Balanced inner ∧
            Target found inner ∧
            target = some found := by
  constructor
  · intro hRead
    rcases tokens with _ | ⟨⟨kind, opening, start⟩, rest⟩
    · simp only [chainTarget, Outcome.read.injEq] at hRead
      exact .inl ⟨rfl, hRead.1.symm⟩
    · simp only [chainTarget] at hRead
      split at hRead
      · rename_i hKind
        subst hKind
        cases nested with
        | none => simp [failAt] at hRead
        | some reader =>
            simp only at hRead
            split at hRead
            · simp [missing] at hRead
            · rename_i inner close left hClosing
              split at hRead
              · rename_i found more hFound
                simp only [Outcome.read.injEq] at hRead
                rcases hRead with ⟨rfl, rfl⟩
                rcases Section.parensOver?_of_closing? hClosing with
                  ⟨hClose, hInner⟩
                have hTarget :=
                  (hNested close.offset inner found).mp
                    ⟨reader, rfl, more, hFound⟩
                rcases close with ⟨kind, close, finish⟩
                simp only at hClose
                subst hClose
                have hTokens := Section.eq_of_closing? hClosing
                subst hTokens
                exact
                  .inr ⟨opening, start, inner, close, finish,
                    found, rfl, hInner, hTarget, rfl⟩
              · simp at hRead
      · simp at hRead
  · intro hSpelled
    rcases hSpelled with ⟨rfl, rfl⟩ | hSpelled
    · rfl
    · rcases hSpelled with
        ⟨opening, start, inner, close, finish, found, rfl,
          hInner, hTarget, rfl⟩
      rcases (hNested finish inner found).mpr hTarget with
        ⟨reader, hReader, left, hFound⟩
      cases hReader
      simp [chainTarget, hFound,
        Section.closing?_of_balanced hInner
          (show (⟨.parenClose, close, finish⟩ : Token).kind =
            .parenClose from rfl) []]

/- A count is read exactly behind a rule that takes one. -/
theorem stackCount_eq_read_iff
    {rule : StackRule}
    {head : Token}
    {tokens rest : List Token}
    {count : Option UInt32} :
    stackCount rule head stop tokens = .read count rest ↔
      (rule ≠ .maxStacks ∧ count = none ∧ rest = tokens) ∨
        ∃ text offset number,
          rule = .maxStacks ∧
            tokens = ⟨.number, text, offset⟩ :: rest ∧
            Text.wordOfNumeral? text = some number ∧
            count = some number := by
  cases rule with
  | maxStacks =>
      change (some <$> number _) stop tokens = _ ↔ _
      simp only [map_eq_read_iff, number_eq_read_iff, ne_eq,
        not_true_eq_false, false_and, false_or, true_and]
      constructor
      · intro hRead
        rcases hRead with
          ⟨number, ⟨text, offset, rfl, hNumeral⟩, rfl⟩
        exact ⟨text, offset, number, rfl, hNumeral, rfl⟩
      · intro hRead
        rcases hRead with
          ⟨text, offset, number, rfl, hNumeral, rfl⟩
        exact ⟨number, ⟨text, offset, rfl, hNumeral⟩, rfl⟩
  | _ => simp [stackCount, StackRule.takesCount, eq_comm]

/- An amount is the one token behind a resource, or none. -/
theorem resourceAmount_eq_read_iff
    {tokens : List Token}
    {amount : Option UInt32} :
    resourceAmount stop tokens = .read amount [] ↔
      (tokens = [] ∧ amount = none) ∨
        ∃ text offset number,
          tokens = [⟨.number, text, offset⟩] ∧
            Text.wordOfNumeral? text = some number ∧
            amount = some number := by
  unfold resourceAmount
  rw [bind_eq_read_iff]
  constructor
  · intro hRead
    rcases hRead with ⟨token, between, hToken, hRead⟩
    cases token with
    | none =>
        simp only [pure_apply, Outcome.read.injEq] at hRead
        rcases hRead with ⟨rfl, rfl⟩
        exact .inl ⟨(eat?_eq_none_iff.mp hToken).1.symm, rfl⟩
    | some token =>
        simp only [map_eq_read_iff,
          numeral_eq_read_iff] at hRead
        rcases hRead with ⟨number, ⟨hNumeral, rfl⟩, rfl⟩
        rcases token with ⟨kind, text, offset⟩
        rcases eat?_eq_some_iff.mp hToken with ⟨rfl, hKind⟩
        simp only at hKind
        subst hKind
        exact
          .inr ⟨text, offset, number, rfl, hNumeral, rfl⟩
  · intro hRead
    rcases hRead with ⟨rfl, rfl⟩ | hRead
    · exact ⟨none, [], rfl, rfl⟩
    · rcases hRead with
        ⟨text, offset, number, rfl, hNumeral, rfl⟩
      exact
        ⟨some ⟨.number, text, offset⟩, [], rfl,
          map_eq_read_iff.mpr
            ⟨number, numeral_eq_read_iff.mpr ⟨hNumeral, rfl⟩,
              rfl⟩⟩

------------------------------------------------------------
-- Sections
------------------------------------------------------------

/- A token says nothing exactly if no reader follows it. -/
theorem sectionBody?_eq_none_iff
    {head : Token} :
    sectionBody? nested head = none ↔ head.Idle := by
  unfold sectionBody? Token.Idle
  cases hKind : head.kind <;>
    simp [Token.sectionKinds]

/- Nothing is left of a section that has come to its end. -/
theorem sectionEnd_eq_read_iff
    {head : Token}
    {tokens rest : List Token}
    {value : Unit} :
    sectionEnd head stop tokens = .read value rest ↔
      tokens = [] ∧ rest = [] := by
  cases tokens with
  | nil => simp [sectionEnd, eq_comm]
  | cons token tokens => simp [sectionEnd, failAt]

/- A section is read if all that follows its head is. -/
theorem extension_eq_read_iff
    {head : Token}
    {body : Reader Extension}
    {rest left : List Token}
    {value : Extension}
    (hBody : sectionBody? nested head = some body) :
    extension nested stop (head :: rest) = .read value left ↔
      body stop rest = .read value [] ∧ left = [] := by
  simp only [extension, hBody, bind_eq_read_iff,
    sectionEnd_eq_read_iff, pure_apply, Outcome.read.injEq]
  constructor
  · intro hRead
    rcases hRead with
      ⟨_, _, hValue, _, _, ⟨rfl, rfl⟩, rfl, rfl⟩
    exact ⟨hValue, rfl⟩
  · intro hRead
    rcases hRead with ⟨hValue, rfl⟩
    exact ⟨value, [], hValue, (), [], ⟨rfl, rfl⟩, rfl, rfl⟩

/- What is read behind the head of a section is spelled. -/
theorem spellsSection_of_sectionBody?
    (hNested : Recognizes nested Target)
    {head : Token}
    {body : Reader Extension}
    {rest : List Token}
    {value : Extension}
    (hBody : sectionBody? nested head = some body)
    (hRead : body stop rest = .read value []) :
    SpellsSection Target value (head :: rest) := by
  rcases head with ⟨kind, text, offset⟩
  simp only [sectionBody?] at hBody
  split at hBody
  case h_3 =>
      -- a chain effect, with or without its target
      cases hBody
      simp only [bind_eq_read_iff, word_eq_read_iff,
        pure_apply, Outcome.read.injEq] at hRead
      rcases hRead with
        ⟨effect, _, ⟨hCode, rfl⟩, target, _, hTarget, rfl,
          rfl⟩
      rw [chainTarget_eq_read_iff hNested] at hTarget
      rcases hTarget with ⟨rfl, rfl⟩ | hTarget
      · exact .chain hCode
      · rcases hTarget with
          ⟨_, _, _, _, _, _, rfl, hInner, hTarget, rfl⟩
        exact .chainTarget hCode hInner hTarget
  case h_5 =>
      -- a stacking rule
      cases hBody
      simp only [bind_eq_read_iff, word_eq_read_iff,
        pure_apply, Outcome.read.injEq] at hRead
      rcases hRead with
        ⟨rule, _, ⟨hCode, rfl⟩, count, _, hCount, rfl, rfl⟩
      rw [stackCount_eq_read_iff] at hCount
      rcases hCount with ⟨hRule, rfl, rfl⟩ | hCount
      · exact .stackRule hCode hRule
      · rcases hCount with
          ⟨_, _, _, rfl, rfl, hNumeral, rfl⟩
        exact .stackLimit hCode hNumeral
  case h_7 =>
      -- a resource
      cases hBody
      simp only [bind_eq_read_iff, word_eq_read_iff,
        pure_apply, Outcome.read.injEq] at hRead
      rcases hRead with
        ⟨resource, _, ⟨hCode, rfl⟩, amount, _, hAmount, rfl,
          rfl⟩
      rw [resourceAmount_eq_read_iff] at hAmount
      rcases hAmount with ⟨rfl, rfl⟩ | hAmount
      · exact .resource hCode
      · rcases hAmount with ⟨_, _, _, rfl, hNumeral, rfl⟩
        exact .resourceAmount hCode hNumeral
  case h_8 =>
      -- conditions in braces
      cases hBody
      rcases map_eq_read_iff.mp hRead with
        ⟨conditions, hConditions, rfl⟩
      rcases spellsConditions_of_conditionList hConditions with
        ⟨used, rfl, hSpells⟩
      rw [List.append_nil]
      exact .conditions hSpells
  case h_9 =>
      -- a single condition
      cases hBody
      simp only [bind_eq_read_iff, pure_apply,
        Outcome.read.injEq] at hRead
      rcases hRead with ⟨single, _, hSingle, rfl, rfl⟩
      rcases spellsCondition_of_condition hSingle with
        ⟨used, rfl, hSpells⟩
      rw [List.append_nil]
      exact .condition hSpells
  case h_11 =>
      -- a meta effect
      rcases Option.map_eq_some_iff.mp hBody with
        ⟨metaEffect, hName, rfl⟩
      simp only [pure_apply, Outcome.read.injEq] at hRead
      rcases hRead with ⟨rfl, rfl⟩
      exact .metaEffect hName
  case h_12 => simp at hBody
  -- all other sections are one word
  all_goals
    cases hBody
    rcases map_eq_read_iff.mp hRead with ⟨_, hWord, rfl⟩
    rcases word_eq_read_iff.mp hWord with ⟨hCode, rfl⟩
  · exact .flag hCode
  · exact .removability hCode
  · exact .source hCode
  · exact .visibility hCode
  · exact .interaction hCode

/- A word alone is read behind the head of a section. -/
theorem map_word_of_code
    {α : Type}
    [Vocabulary α]
    {head : Token}
    {value : α}
    (hCode : Vocabulary.ofCode? head.text = some value)
    (role : Role)
    (image : α → Extension) :
    (image <$> word role head) stop [] =
      .read (image value) [] :=
  map_eq_read_iff.mpr
    ⟨value, word_eq_read_iff.mpr ⟨hCode, rfl⟩, rfl⟩

/-
  A spelled section has a head that says nothing, or what is
  spelled behind its head is read.
-/
theorem sectionBody?_of_spells
    (hNested : Recognizes nested Target)
    {head : Token}
    {rest : List Token}
    {value : Extension}
    (hSpells : SpellsSection Target value (head :: rest)) :
    (head.Idle ∧ value = .ignored) ∨
      ∃ body,
        sectionBody? nested head = some body ∧
          body stop rest = .read value [] := by
  cases hSpells with
  | flag hCode =>
      exact .inr ⟨_, rfl, map_word_of_code hCode _ _⟩
  | removability hCode =>
      exact .inr ⟨_, rfl, map_word_of_code hCode _ _⟩
  | source hCode =>
      exact .inr ⟨_, rfl, map_word_of_code hCode _ _⟩
  | visibility hCode =>
      exact .inr ⟨_, rfl, map_word_of_code hCode _ _⟩
  | interaction hCode =>
      exact .inr ⟨_, rfl, map_word_of_code hCode _ _⟩
  | chain hCode =>
      refine .inr ⟨_, rfl, ?_⟩
      simp only [bind_eq_read_iff, word_eq_read_iff]
      exact
        ⟨_, _, ⟨hCode, rfl⟩, none, [],
          (chainTarget_eq_read_iff hNested).mpr
            (.inl ⟨rfl, rfl⟩), rfl⟩
  | chainTarget hCode hInner hTarget =>
      refine .inr ⟨_, rfl, ?_⟩
      simp only [bind_eq_read_iff, word_eq_read_iff]
      exact
        ⟨_, _, ⟨hCode, rfl⟩, some _, [],
          (chainTarget_eq_read_iff hNested).mpr
            (.inr ⟨_, _, _, _, _, _, rfl, hInner, hTarget,
              rfl⟩), rfl⟩
  | stackRule hCode hRule =>
      refine .inr ⟨_, rfl, ?_⟩
      simp only [bind_eq_read_iff, word_eq_read_iff]
      exact
        ⟨_, _, ⟨hCode, rfl⟩, none, [],
          stackCount_eq_read_iff.mpr
            (.inl ⟨hRule, rfl, rfl⟩), rfl⟩
  | stackLimit hCode hNumeral =>
      refine .inr ⟨_, rfl, ?_⟩
      simp only [bind_eq_read_iff, word_eq_read_iff]
      exact
        ⟨_, _, ⟨hCode, rfl⟩, some _, [],
          stackCount_eq_read_iff.mpr
            (.inr ⟨_, _, _, rfl, rfl, hNumeral, rfl⟩), rfl⟩
  | resource hCode =>
      refine .inr ⟨_, rfl, ?_⟩
      simp only [bind_eq_read_iff, word_eq_read_iff]
      exact
        ⟨_, _, ⟨hCode, rfl⟩, none, [],
          resourceAmount_eq_read_iff.mpr
            (.inl ⟨rfl, rfl⟩), rfl⟩
  | resourceAmount hCode hNumeral =>
      refine .inr ⟨_, rfl, ?_⟩
      simp only [bind_eq_read_iff, word_eq_read_iff]
      exact
        ⟨_, _, ⟨hCode, rfl⟩, some _, [],
          resourceAmount_eq_read_iff.mpr
            (.inr ⟨_, _, _, rfl, hNumeral, rfl⟩), rfl⟩
  | conditions hValues =>
      have hRead := conditionList_of_spells hValues stop []
      rw [List.append_nil] at hRead
      exact
        .inr ⟨_, rfl, map_eq_read_iff.mpr ⟨_, hRead, rfl⟩⟩
  | condition hSingle =>
      have hRead :=
        condition_of_spells hSingle (avoids_nil _) stop
      rw [List.append_nil] at hRead
      exact
        .inr
          ⟨_, rfl,
            bind_eq_read_iff.mpr ⟨_, [], hRead, rfl⟩⟩
  | metaEffect hName =>
      exact
        .inr
          ⟨_, Option.map_eq_some_iff.mpr ⟨_, hName, rfl⟩,
            rfl⟩
  | ignored hIdle => exact .inl ⟨hIdle, rfl⟩

/- A section is read exactly as it is spelled. -/
theorem extension_eq_ok_iff
    (hNested : Recognizes nested Target)
    {tokens : List Token}
    {value : Extension}
    (hTokens : tokens ≠ []) :
    (extension nested stop tokens).result = .ok value ↔
      SpellsSection Target value tokens := by
  cases tokens with
  | nil => exact absurd rfl hTokens
  | cons head rest =>
      constructor
      · intro hResult
        cases hBody : sectionBody? nested head with
        | none =>
            simp only [extension, hBody, Outcome.result,
              Except.ok.injEq] at hResult
            subst hResult
            exact .ignored (sectionBody?_eq_none_iff.mp hBody)
        | some body =>
            cases hRead :
                extension nested stop (head :: rest) with
            | stuck failure left =>
                simp [hRead, Outcome.result] at hResult
            | read found left =>
                simp only [hRead, Outcome.result,
                  Except.ok.injEq] at hResult
                subst hResult
                rw [extension_eq_read_iff hBody] at hRead
                exact
                  spellsSection_of_sectionBody? hNested hBody
                    hRead.1
      · intro hSpells
        rcases sectionBody?_of_spells hNested hSpells with
          ⟨hIdle, rfl⟩ | ⟨body, hBody, hRead⟩
        · have hNone :
              sectionBody? nested head = none :=
            sectionBody?_eq_none_iff.mpr hIdle
          simp only [extension, hNone, Outcome.result]
        · rw [(extension_eq_read_iff hBody).mpr ⟨hRead, rfl⟩]
          rfl

/- Sections are read exactly if each of them is spelled. -/
theorem extensions_eq_ok_iff
    (hNested : Recognizes nested Target)
    {parts : List Section}
    {values : List Extension}
    (hParts : ∀ part ∈ parts, part.tokens ≠ []) :
    extensions nested parts = .ok values ↔
      List.Forall₂ (SpellsSection Target) values
        (parts.map Section.tokens) := by
  induction parts generalizing values with
  | nil => simp [extensions, eq_comm]
  | cons part parts ih =>
      rw [List.forall_mem_cons] at hParts
      rw [extensions, List.map_cons,
        List.forall₂_cons_right_iff]
      constructor
      · intro hRead
        cases hFirst :
            (extension nested part.stop part.tokens).result with
        | error failure =>
            simp [hFirst, bind, Except.bind] at hRead
        | ok first =>
            cases hOthers : extensions nested parts with
            | error failure =>
                simp [hFirst, hOthers, bind,
                  Except.bind] at hRead
            | ok others =>
                simp only [hFirst, hOthers, bind, Except.bind,
                  pure, Except.pure,
                  Except.ok.injEq] at hRead
                subst hRead
                exact
                  ⟨first, others,
                    (extension_eq_ok_iff hNested hParts.1).mp
                      hFirst,
                    (ih hParts.2).mp hOthers, rfl⟩
      · intro hSpelled
        rcases hSpelled with
          ⟨first, others, hFirst, hOthers, rfl⟩
        rw [(extension_eq_ok_iff hNested hParts.1).mpr hFirst,
          (ih hParts.2).mpr hOthers]
        rfl

/- The sections of some tokens are read as their parts are. -/
theorem extensions_split_eq_ok_iff
    (hNested : Recognizes nested Target)
    {tokens : List Token}
    {parts : List (List Token)}
    {values : List Extension}
    (hParts : Section.Parts tokens parts) :
    extensions nested (Section.split stop tokens) =
        .ok values ↔
      List.Forall₂ (SpellsSection Target) values
        (parts.filter fun part => !part.isEmpty) := by
  have hFilled :
      ∀ part ∈ Section.split stop tokens,
        part.tokens ≠ [] := by
    intro part hPart
    have hKept := (List.mem_filter.mp hPart).2
    simpa using hKept
  rw [extensions_eq_ok_iff hNested hFilled,
    Section.tokens_split_of_parts hParts]

/- A record is extended exactly by what its parts spell. -/
theorem extended_eq_ok_iff_spells
    (hNested : Recognizes nested Target)
    {start value : Record}
    {tokens : List Token}
    {parts : List (List Token)}
    (hParts : Section.Parts tokens parts) :
    extended nested stop start tokens = .ok value ↔
      ∃ values,
        List.Forall₂ (SpellsSection Target) values
            (parts.filter fun part => !part.isEmpty) ∧
          values.foldl Record.extend start = value := by
  constructor
  · intro hExtended
    rcases exists_of_extended hExtended with
      ⟨values, hValues, hValue⟩
    rw [extensions_split_eq_ok_iff hNested hParts] at hValues
    exact ⟨values, hValues, hValue⟩
  · intro hSpelled
    rcases hSpelled with ⟨values, hValues, rfl⟩
    exact
      extended_of_extensions
        ((extensions_split_eq_ok_iff hNested hParts).mpr
          hValues)
        start

------------------------------------------------------------
-- Records
------------------------------------------------------------

/- A record is read exactly as it is spelled. -/
theorem recordWith_eq_read_iff
    (hNested : Recognizes nested Target)
    {tokens rest : List Token}
    {value : Record} :
    recordWith nested stop tokens = .read value rest ↔
      rest = [] ∧ SpellsWith Target value tokens := by
  constructor
  · intro hRead
    unfold recordWith at hRead
    split at hRead
    · simp at hRead
    · rename_i effect behind hCore
      rcases core_eq_read_iff.mp hCore with
        ⟨used, rfl, hSpells, hBehind⟩
      split at hRead
      · simp at hRead
      · rename_i found hFound
        simp only [Outcome.read.injEq] at hRead
        rcases hRead with ⟨rfl, rfl⟩
        have hParts := Section.parts_pieces stop behind
        rcases
            (extended_eq_ok_iff_spells hNested hParts).mp
              hFound with
          ⟨values, hValues, rfl⟩
        exact ⟨rfl, .sections hSpells hBehind hParts hValues⟩
  · intro hSpelled
    rcases hSpelled with ⟨rfl, hSpells⟩
    cases hSpells with
    | @sections effect used behind parts values hCore hRest
        hParts hValues =>
        have hRead :
            core stop (used ++ behind) =
              .read effect behind :=
          core_eq_read_iff.mpr ⟨used, rfl, hCore, hRest⟩
        have hExtended :
            extended nested stop ⟨effect, []⟩ behind =
              .ok (values.foldl Record.extend ⟨effect, []⟩) :=
          (extended_eq_ok_iff_spells hNested hParts).mpr
            ⟨values, hValues, rfl⟩
        simp only [recordWith, hRead, hExtended]

/- At every level a record is read exactly as it is spelled. -/
theorem record_eq_read_iff
    {levels : Nat}
    {tokens rest : List Token}
    {value : Record} :
    record levels stop tokens = .read value rest ↔
      rest = [] ∧ SpellsRecord levels value tokens := by
  induction levels generalizing stop tokens rest value with
  | zero =>
      refine recordWith_eq_read_iff ?_
      intro stop inner target
      simp
  | succ levels ih =>
      refine recordWith_eq_read_iff ?_
      intro stop inner target
      simp [ih]

------------------------------------------------------------
-- Extended Sections At A Depth
------------------------------------------------------------

/- The reader for the chain targets of a record at a depth. -/
def nestedAt (depth : Nat) : Option (Reader Record) :=
  if depth < Record.maxDepth then
    some (record (Record.maxDepth - (depth + 1)))
  else
    none

/- How a record at a depth is spelled. -/
def SpellsRecordAt
    (depth : Nat)
    (value : Record)
    (tokens : List Token) : Prop :=
  SpellsRecord (Record.maxDepth - depth) value tokens

/-
  How a section of a record at a depth is spelled: its chain
  target is a record one level deeper, if there may be one.
-/
def SpellsSectionAt
    (depth : Nat) : Extension → List Token → Prop :=
  SpellsSection fun target inner =>
    depth < Record.maxDepth ∧
      SpellsRecordAt (depth + 1) target inner

/- The levels left at a depth are those of its chain targets. -/
theorem record_eq_recordWith
    (depth : Nat) :
    record (Record.maxDepth - depth) =
      recordWith (nestedAt depth) := by
  unfold nestedAt
  split
  · rename_i hDepth
    have hLevels :
        Record.maxDepth - depth =
          Record.maxDepth - (depth + 1) + 1 := by
      omega
    rw [hLevels]
    rfl
  · rename_i hDepth
    rw [Nat.sub_eq_zero_of_le (Nat.le_of_not_lt hDepth)]
    rfl

/- The reader at a depth recognizes the records one deeper. -/
theorem recognizes_nestedAt
    (depth : Nat) :
    Recognizes (nestedAt depth) fun target inner =>
      depth < Record.maxDepth ∧
        SpellsRecordAt (depth + 1) target inner := by
  intro stop inner target
  unfold nestedAt SpellsRecordAt
  split
  · rename_i hDepth
    simp [record_eq_read_iff, hDepth]
  · rename_i hDepth
    simp [hDepth]

/- Values for a list are there if each entry has one. -/
theorem exists_forall₂_iff
    {α β : Type}
    {relation : α → β → Prop}
    {entries : List β} :
    (∃ values, List.Forall₂ relation values entries) ↔
      ∀ entry ∈ entries, ∃ value, relation value entry := by
  induction entries with
  | nil => simp
  | cons entry entries ih =>
      simp only [List.forall₂_cons_right_iff,
        List.forall_mem_cons, ← ih]
      constructor
      · intro hValues
        rcases hValues with
          ⟨_, value, values, hValue, hOthers, rfl⟩
        exact ⟨⟨value, hValue⟩, values, hOthers⟩
      · intro hValues
        rcases hValues with ⟨⟨value, hValue⟩, values, hOthers⟩
        exact ⟨_, value, values, hValue, hOthers, rfl⟩

/-
  Extended sections at a depth, over any tokens: the tokens
  have one list of parts, they are accepted exactly if every
  part with a token in it is spelled, and then they extend a
  record by what the parts say, from left to right. What
  they say does not depend on the record. A record one level
  deeper is spelled exactly if its tokens are read as a whole
  there.
-/
theorem extended_eq_ok_iff
    (depth stop : Nat)
    (start : Record)
    (tokens : List Token) :
    record (Record.maxDepth - depth) =
        recordWith (nestedAt depth) ∧
      ∃ parts,
        (∀ others,
          Section.Parts tokens others ↔ others = parts) ∧
        ((∃ value,
            extended (nestedAt depth) stop start tokens =
              .ok value) ↔
          ∀ part ∈ parts,
            part ≠ [] →
              ∃ value, SpellsSectionAt depth value part) ∧
        (∀ values,
          List.Forall₂ (SpellsSectionAt depth) values
              (parts.filter fun part => !part.isEmpty) →
            extended (nestedAt depth) stop start tokens =
                .ok (values.foldl Record.extend start) ∧
              ∀ target change subject,
                values.foldl Record.extend start =
                  start.followedBy
                    (values.foldl Record.extend
                      ⟨{ target, change, subject }, []⟩)) ∧
        (∀ target inner place,
          SpellsRecordAt (depth + 1) target inner ↔
            record (Record.maxDepth - (depth + 1)) place
                inner =
              .read target []) := by
  have hParts := Section.parts_pieces stop tokens
  have hRead :
      ∀ value,
        extended (nestedAt depth) stop start tokens =
            .ok value ↔
          ∃ values,
            List.Forall₂ (SpellsSectionAt depth) values
                ((Section.pieces stop tokens).filter
                  fun part => !part.isEmpty) ∧
              values.foldl Record.extend start = value :=
    fun value =>
      extended_eq_ok_iff_spells (recognizes_nestedAt depth)
        hParts
  refine
    ⟨record_eq_recordWith depth, Section.pieces stop tokens,
      fun others => Section.parts_iff stop, ?_, ?_, ?_⟩
  · have hSpelled :
        (∀ part ∈ Section.pieces stop tokens,
            part ≠ [] →
              ∃ value, SpellsSectionAt depth value part) ↔
          ∃ values,
            List.Forall₂ (SpellsSectionAt depth) values
              ((Section.pieces stop tokens).filter
                fun part => !part.isEmpty) := by
      rw [exists_forall₂_iff]
      simp
    rw [hSpelled]
    constructor
    · rintro ⟨value, hValue⟩
      rcases (hRead value).mp hValue with ⟨values, hValues, _⟩
      exact ⟨values, hValues⟩
    · rintro ⟨values, hValues⟩
      exact ⟨_, (hRead _).mpr ⟨values, hValues, rfl⟩⟩
  · intro values hValues
    exact
      ⟨(hRead _).mpr ⟨values, hValues, rfl⟩,
        fun target change subject =>
          start.foldl_extend_eq_followedBy target change
            subject values⟩
  · intro target inner place
    rw [record_eq_read_iff]
    simp [SpellsRecordAt]

/- An effect without any sections. -/
def strengthened : Effect where
  target := .player
  change := .increase
  subject := .stat .strength

/- Another one, to follow from it. -/
def injured : Effect where
  target := .enemy
  change := .decrease
  subject := .stat .health

/- A chain target between two sections that do not agree. -/
def chainedTokens : List Token :=
  [⟨.delimiter, ".", 3⟩, ⟨.removability, "RN", 4⟩,
   ⟨.delimiter, ".", 6⟩, ⟨.chainEffect, ">Trig", 7⟩,
   ⟨.parenOpen, "(", 12⟩, ⟨.target, "E", 13⟩,
   ⟨.effectMarker, "-", 14⟩, ⟨.stat, "H", 15⟩,
   ⟨.parenClose, ")", 16⟩, ⟨.delimiter, ".", 17⟩,
   ⟨.removability, "RE", 18⟩]

/-
  The chain target is kept, and the last of the others. One
  level deeper a chain target is not spelled, so all of the
  sections are rejected.
-/
theorem extended_eq_ok_iff_chained :
    extended (nestedAt 7) 20 ⟨strengthened, []⟩
          chainedTokens =
        .ok
          ⟨{ strengthened with
              removability := some .easilyRemoved
              chainEffect := some .trigger },
            [injured]⟩ ∧
      ¬ ∃ value,
        extended (nestedAt 8) 20 ⟨strengthened, []⟩
          chainedTokens = .ok value := by
  have hParts :
      Section.Parts chainedTokens
        [[], chainedTokens.extract 1 2,
          chainedTokens.extract 3 9,
          chainedTokens.extract 10 11] :=
    (Section.parts_iff 20).mpr (by decide)
  constructor
  · rcases extended_eq_ok_iff 7 20 ⟨strengthened, []⟩
        chainedTokens with
      ⟨-, parts, hOnly, -, hFold, hRecord⟩
    have hTarget :
        SpellsRecordAt 8 ⟨injured, []⟩
          (chainedTokens.extract 5 8) :=
      (hRecord _ _ 16).mpr rfl
    have hChain :
        SpellsSectionAt 7
          (.chain .trigger (some ⟨injured, []⟩))
          (⟨.chainEffect, ">Trig", 7⟩ ::
            ⟨.parenOpen, "(", 12⟩ ::
              (chainedTokens.extract 5 8 ++
                [⟨.parenClose, ")", 16⟩])) :=
      .chainTarget rfl rfl ⟨by decide, hTarget⟩
    have hValues :
        List.Forall₂ (SpellsSectionAt 7)
          [.removability .nonRemovable,
            .chain .trigger (some ⟨injured, []⟩),
            .removability .easilyRemoved]
          (parts.filter fun part => !part.isEmpty) := by
      rw [← (hOnly _).mp hParts]
      exact
        .cons (.removability rfl)
          (.cons hChain (.cons (.removability rfl) .nil))
    exact (hFold _ hValues).1
  · rcases extended_eq_ok_iff 8 20 ⟨strengthened, []⟩
        chainedTokens with
      ⟨-, parts, hOnly, hAccepts, -, -⟩
    rw [hAccepts, ← (hOnly _).mp hParts]
    intro hSpelled
    rcases hSpelled (chainedTokens.extract 3 9) (by simp)
        (by decide) with
      ⟨value, hChain⟩
    generalize hPart : chainedTokens.extract 3 9 = part
      at hChain
    cases hChain with
    | chainTarget _ _ hTarget =>
        exact absurd hTarget.1 (by decide)
    | ignored hIdle =>
        rcases List.cons.inj hPart with ⟨rfl, -⟩
        exact absurd hIdle (by decide)
    | _ => simp [chainedTokens] at hPart

end Grammar

end StatusEffect
