import StatusEffect.Proofs.Grammar.Image
import StatusEffect.Proofs.Notation.Core

/-
  Written sections are read back.

  What an effect says besides its core is a list of
  extensions, and each of them is written as one section. The
  text of a section is scanned in the mode that a point
  leads to, and its tokens are read back as the extension.
  Extending the bare effect by all of them gives back the
  effect with its chain target.

  Key definitions include:
    * `Effect.extensions`
    * `Extension.canonical`
    * `Extension.Written`

  Key theorems include:
    * `Effect.sections_eq`
    * `Effect.foldl_extend_extensions`
    * `scans_extension`
-/

------------------------------------------------------------
-- Extensions Of An Effect
------------------------------------------------------------

namespace StatusEffect

open Text Grammar Canonical

namespace Extension

/- An extension as a section, given its chain target. -/
def canonical
    (inner : Option String) : Extension → String
  | .flag word => Vocabulary.code word
  | .removability word => Vocabulary.code word
  | .chain word _ => Effect.chainSection word inner
  | .source word => Vocabulary.code word
  | .stacking limit =>
      counted (Vocabulary.code limit.rule) limit.count
  | .visibility word => Vocabulary.code word
  | .resource link =>
      counted (Vocabulary.code link.resource) link.amount
  | .conditions tests =>
      "\x7b" ++ separated "," (tests.map Condition.render) ++
        "\x7d"
  | .interaction word => Vocabulary.code word
  | .metaEffect word => Vocabulary.code word
  | .ignored => ""

end Extension

namespace Effect

/- The extensions that are written before the chain effect. -/
def earlyExtensions (effect : Effect) : List Extension :=
  effect.flags.map .flag ++
    (effect.removability.map .removability).toList

/- The extensions that are written behind the chain effect. -/
def lateExtensions (effect : Effect) : List Extension :=
  (effect.source.map .source).toList ++
    (effect.stacking.map .stacking).toList ++
    (effect.visibility.map .visibility).toList ++
    (effect.resource.map .resource).toList ++
    (if effect.conditions.isEmpty then
      []
    else
      [.conditions effect.conditions]) ++
    (effect.interaction.map .interaction).toList ++
    (effect.metaEffect.map .metaEffect).toList

/- The chain effect of an effect with a chain target. -/
def chainExtension
    (effect : Effect)
    (target : Option Record) : List Extension :=
  (effect.chainEffect.map fun word =>
    .chain word target).toList

/- What an effect says besides its core, in order. -/
def extensions
    (effect : Effect)
    (target : Option Record) : List Extension :=
  effect.earlyExtensions ++
    (effect.chainExtension target ++ effect.lateExtensions)

/- The sections of an effect are those of its extensions. -/
theorem sections_eq
    (effect : Effect)
    (target : Option Record)
    (inner : Option String) :
    effect.sections inner =
      (effect.extensions target).map
        (Extension.canonical inner) := by
  have hConditions :
      (if effect.conditions.isEmpty then
          []
        else
          ["\x7b" ++
            separated ","
              (effect.conditions.map Condition.render) ++
            "\x7d"]) =
        (if effect.conditions.isEmpty then
            []
          else
            [Extension.conditions effect.conditions]).map
          (Extension.canonical inner) := by
    split <;> rfl
  simp only [sections, hConditions, extensions,
    earlyExtensions, chainExtension, lateExtensions,
    List.map_append, List.append_assoc, List.map_map,
    ← Option.toList_map, Option.map_map]
  rfl

/- An optional extension sets an optional attribute. -/
theorem foldl_extend_option
    {α : Type}
    {record : Record}
    {make : α → Extension}
    (update : Option α → Record)
    (value : Option α)
    (hNone : record = update none)
    (hSome :
      ∀ word, record.extend (make word) = update (some word)) :
    (value.map make).toList.foldl Record.extend record =
      update value := by
  cases value with
  | none => exact hNone
  | some word => exact hSome word

/- Flags add up. -/
theorem foldl_extend_flags
    (record : Record)
    (flags : List Flag) :
    (flags.map Extension.flag).foldl Record.extend record =
      { record with
        effect :=
          { record.effect with
            flags := record.effect.flags ++ flags } } := by
  induction flags generalizing record with
  | nil => simp
  | cons flag flags ih =>
      simp only [List.map_cons, List.foldl_cons, ih]
      simp [Record.extend, Effect.extend]

/- The extensions before the chain effect set flags and removability. -/
theorem foldl_extend_early
    (effect : Effect) :
    effect.earlyExtensions.foldl Record.extend
        ⟨effect.bare, []⟩ =
      ⟨{ effect.bare with
          flags := effect.flags
          removability := effect.removability }, []⟩ := by
  unfold earlyExtensions
  rw [List.foldl_append, foldl_extend_flags]
  exact
    foldl_extend_option
      (fun word =>
        ⟨{ effect.bare with
            flags := effect.flags
            removability := word }, []⟩)
      effect.removability rfl fun _ => rfl

/- A chain effect comes with the chain of its target. -/
theorem foldl_extend_chain
    {effect current : Effect}
    {target : Option Record}
    (hCurrent : current.chainEffect = none)
    (hTarget :
      target.isSome = true →
        effect.chainEffect.isSome = true) :
    (effect.chainExtension target).foldl Record.extend
        ⟨current, []⟩ =
      ⟨{ current with chainEffect := effect.chainEffect },
        Record.chainOf target⟩ := by
  unfold chainExtension
  cases hChain : effect.chainEffect with
  | none =>
      cases target with
      | none =>
          cases current
          simp only at hCurrent
          subst hCurrent
          rfl
      | some next => simp [hChain] at hTarget
  | some word => rfl

/- A section of conditions sets them, if there are any. -/
theorem foldl_extend_conditions
    {record : Record}
    (update : List Condition → Record)
    (conditions : List Condition)
    (hNone : record = update [])
    (hSome :
      ∀ tests,
        record.extend (.conditions tests) = update tests) :
    (if conditions.isEmpty then
        []
      else
        [Extension.conditions conditions]).foldl
        Record.extend record =
      update conditions := by
  cases conditions with
  | nil => exact hNone
  | cons first others => exact hSome (first :: others)

/- An effect with other attributes behind the chain effect. -/
def withLate
    (effect : Effect)
    (source : Option SourceLink)
    (stacking : Option Stacking)
    (visibility : Option Visibility)
    (resource : Option ResourceLink)
    (conditions : List Condition)
    (interaction : Option Interaction)
    (metaEffect : Option MetaEffect) : Effect :=
  { effect with
    source, stacking, visibility, resource, conditions,
    interaction, metaEffect }

/- The extensions behind the chain effect set the others. -/
theorem foldl_extend_late
    (effect : Effect)
    (chain : List Effect) :
    effect.lateExtensions.foldl Record.extend
        ⟨effect.withLate none none none none [] none none,
          chain⟩ =
      ⟨effect, chain⟩ := by
  -- the attributes are set one after the other
  simp only [lateExtensions, List.foldl_append]
  rw [foldl_extend_option
    (fun word =>
      ⟨effect.withLate word none none none [] none none,
        chain⟩)
    effect.source rfl fun _ => rfl]
  rw [foldl_extend_option
    (fun word =>
      ⟨effect.withLate effect.source word none none [] none
        none, chain⟩)
    effect.stacking rfl fun _ => rfl]
  rw [foldl_extend_option
    (fun word =>
      ⟨effect.withLate effect.source effect.stacking word none
        [] none none, chain⟩)
    effect.visibility rfl fun _ => rfl]
  rw [foldl_extend_option
    (fun word =>
      ⟨effect.withLate effect.source effect.stacking
        effect.visibility word [] none none, chain⟩)
    effect.resource rfl fun _ => rfl]
  rw [foldl_extend_conditions
    (fun tests =>
      ⟨effect.withLate effect.source effect.stacking
        effect.visibility effect.resource tests none none,
        chain⟩)
    effect.conditions rfl fun _ => rfl]
  rw [foldl_extend_option
    (fun word =>
      ⟨effect.withLate effect.source effect.stacking
        effect.visibility effect.resource effect.conditions
        word none, chain⟩)
    effect.interaction rfl fun _ => rfl]
  exact
    foldl_extend_option
      (fun word => ⟨{ effect with metaEffect := word }, chain⟩)
      effect.metaEffect rfl fun _ => rfl

/-
  Extended by all that it says, the bare effect is the effect
  again, with its chain target.
-/
theorem foldl_extend_extensions
    {effect : Effect}
    {target : Option Record}
    (hTarget :
      target.isSome = true →
        effect.chainEffect.isSome = true) :
    (effect.extensions target).foldl Record.extend
        ⟨effect.bare, []⟩ =
      ⟨effect, Record.chainOf target⟩ := by
  simp only [extensions, List.foldl_append]
  rw [foldl_extend_early, foldl_extend_chain rfl hTarget]
  exact foldl_extend_late effect _

end Effect

------------------------------------------------------------
-- Sections Of One Word
------------------------------------------------------------

namespace Extension

/- Tokens that are read as an extension. -/
def Spelled
    (extension : Extension)
    (tokens : List Token) : Prop :=
  ∀ nested stop,
    Grammar.extension nested stop tokens =
      .read extension []

/- Tokens of a section without points and parentheses. -/
structure Written
    (extension : Extension)
    (later : Mode)
    (tokens : List Token) : Prop where
  settled : later.Settled
  nonempty : tokens ≠ []
  plain : Section.Plain tokens
  spelled : extension.Spelled tokens

end Extension

/- The kinds of the words at the head of a section. -/
def headKinds : List TokenKind :=
  [.specialFlag, .removability, .chainEffect,
   .sourceDependency, .stackingBehavior, .visibility,
   .resourceMarker, .interaction, .specialCondition]

/- The word at the head of a section is one token. -/
theorem scans_head
    {c : Char}
    {cs rest : List Char}
    {kind : TokenKind}
    (hLexeme :
      Mode.extended.lexeme c (cs ++ rest) =
        (kind, c :: cs, rest))
    (hKind : kind ∈ headKinds) :
    Scans 0 .extended (c :: cs) rest
      (One .core kind (String.ofList (c :: cs))) := by
  have hToken :
      kind ∉
        [.whitespace, .invalid, .braceOpen, .braceClose] := by
    intro hOther
    simp only [List.mem_cons, List.not_mem_nil,
      or_false] at hOther
    rcases hOther with rfl | rfl | rfl | rfl <;>
      exact absurd hKind (by decide)
  have hAfter : Mode.extended.after 0 kind = .core := by
    simp only [headKinds, List.mem_cons, List.not_mem_nil,
      or_false] at hKind
    rcases hKind with
      rfl | rfl | rfl | rfl | rfl | rfl | rfl | rfl | rfl <;>
      rfl
  rw [← hAfter]
  exact .token hLexeme hToken

/- A section can consist of its head alone. -/
theorem scans_word
    {c : Char}
    {cs rest : List Char}
    {kind : TokenKind}
    {extension : Extension}
    (hLexeme :
      Mode.extended.lexeme c (cs ++ rest) =
        (kind, c :: cs, rest))
    (hKind : kind ∈ headKinds)
    (hSpelled :
      ∀ offset,
        extension.Spelled
          [⟨kind, String.ofList (c :: cs), offset⟩]) :
    Scans 0 .extended (c :: cs) rest extension.Written := by
  apply (scans_head hLexeme hKind).mono
  intro later tokens hScan
  rcases hScan with ⟨rfl, offset, rfl⟩
  refine ⟨.inr (.inl rfl), by simp, ?_, hSpelled offset⟩
  simp only [Section.Plain, List.mem_singleton, forall_eq]
  intro hOther
  simp only [List.mem_cons, List.not_mem_nil,
    or_false] at hOther
  rcases hOther with rfl | rfl | rfl <;>
    exact absurd hKind (by decide)

/- The name of a meta effect ends where no letter follows. -/
theorem scans_metaEffect
    {rest : List Char}
    (hRest : AtBoundary rest)
    (word : MetaEffect) :
    Scans 0 .extended (Vocabulary.code word).toList rest
      (Extension.metaEffect word).Written := by
  have hLetter : Stops isLetter rest :=
    hRest.stops (by decide) (by decide)
  have hHash : isHashWord (Vocabulary.code word) = true := by
    cases word <;> decide
  have hName :
      MetaEffect.ofName? (Vocabulary.code word) =
        some word := by
    cases word <;> decide
  rcases exists_eq_of_isHashWord hHash with
    ⟨c, cs, hChars, hFirst, hOthers⟩
  have hText :
      String.ofList ('#' :: c :: cs) =
        Vocabulary.code word := by
    rw [← hChars, String.ofList_toList]
  rw [hChars]
  refine
    scans_word
      (Mode.lexeme_hashWord (.inr rfl) hFirst hOthers
        hLetter)
      (by decide) fun offset nested stop => ?_
  simp [extension, sectionBody?, hText, hName, sectionEnd]

/- The word of a chain effect is one token. -/
theorem scans_chainWord
    {rest : List Char}
    (hRest : Stops isLower rest)
    (word : ChainEffect) :
    Scans 0 .extended (Vocabulary.code word).toList rest
      (One .core .chainEffect (Vocabulary.code word)) := by
  have hChars :
      ∃ c d cs,
        (Vocabulary.code word).toList = '>' :: c :: d :: cs ∧
          isUpper c = true ∧ isLower d = true ∧
            cs.all isLower = true := by
    cases word <;>
      exact ⟨_, _, _, rfl, by decide, by decide, by decide⟩
  rcases hChars with
    ⟨c, d, cs, hChars, hFirst, hSecond, hOthers⟩
  have hText :
      String.ofList ('>' :: c :: d :: cs) =
        Vocabulary.code word := by
    rw [← hChars, String.ofList_toList]
  rw [hChars, ← hText]
  exact
    scans_head
      (Mode.lexeme_chainEffect hFirst hSecond hOthers hRest)
      (by decide)

/- A chain effect without a target is its word alone. -/
theorem scans_chainEffect
    {rest : List Char}
    (hRest : AtBoundary rest)
    (word : ChainEffect) :
    Scans 0 .extended (Vocabulary.code word).toList rest
      (Extension.chain word none).Written := by
  have hLower : Stops isLower rest :=
    hRest.stops (by decide) (by decide)
  apply (scans_chainWord hLower word).mono
  intro later tokens hScan
  rcases hScan with ⟨rfl, offset, rfl⟩
  refine
    ⟨.inr (.inl rfl), by simp, by simp [Section.Plain], ?_⟩
  intro nested stop
  cases word <;> rfl

------------------------------------------------------------
-- Sections With A Number
------------------------------------------------------------

/- A digit is none of some characters that are no digits. -/
theorem oneOf_of_isAsciiDigit
    {cs : List Char}
    {c : Char}
    (hDigit : isAsciiDigit c = true)
    (hNone : cs.all (fun d => !isAsciiDigit d) = true) :
    oneOf cs c = false := by
  rw [← Bool.not_eq_true]
  intro hMember
  have hOther :=
    List.all_eq_true.mp hNone c (by simpa [oneOf] using hMember)
  simp [hDigit] at hOther

/- A limit on the stacks is scanned with its count. -/
theorem scans_stackLimit
    {rest : List Char}
    (hRest : AtBoundary rest)
    (count : UInt32) :
    Scans 0 .extended
      (['S'] ++ (wordDecimal count).toList) rest
      (Extension.stacking
        ⟨.maxStacks, some count⟩).Written := by
  have hDigit : Stops isDecimalDigit rest :=
    hRest.stops (by decide) (by decide)
  have hCode :
      (Vocabulary.ofCode? "S" : Option StackRule) =
        some .maxStacks := by
    decide
  have hHead :
      Stops (oneOf ['T', '+', '*', 'U'])
        ((wordDecimal count).toList ++ rest) := by
    rcases exists_wordDecimal_eq count with
      ⟨c, cs, hNumeral, hFirst, _⟩
    rw [hNumeral]
    apply stops_of_cons
    exact oneOf_of_isAsciiDigit hFirst (by decide)
  apply
    (scans_head (Mode.lexeme_stackLimit hHead)
      (by decide)).append
  intro later tokens hScan
  rcases hScan with ⟨rfl, offset, rfl⟩
  apply (scans_numeral count (by decide) hDigit).mono
  intro later tokens hScan
  rcases hScan with ⟨rfl, place, rfl⟩
  refine
    ⟨.inr (.inl rfl), by simp, by simp [Section.Plain], ?_⟩
  intro nested stop
  have hCount :
      stackCount .maxStacks
          ⟨.stackingBehavior, "S", offset⟩ stop
          [⟨.number, wordDecimal count, place⟩] =
        .read (some count) [] := by
    refine Reader.map_eq_read_iff.mpr ⟨count, ?_, rfl⟩
    exact
      Reader.number_eq_read_iff.mpr
        ⟨_, _, rfl, wordOfNumeral?_wordDecimal count⟩
  simp [extension, sectionBody?, Reader.word, hCode, hCount,
    sectionEnd]

/- A stacking rule is scanned as such. -/
theorem scans_stacking
    {rest : List Char}
    {stacking : Stacking}
    (hRest : AtBoundary rest)
    (hCounted : stacking.Counted) :
    Scans 0 .extended
      (counted (Vocabulary.code stacking.rule)
        stacking.count).toList rest
      (Extension.stacking stacking).Written := by
  rcases stacking with ⟨rule, count⟩
  cases rule with
  | maxStacks =>
      cases count with
      | none => simp [Stacking.Counted] at hCounted
      | some count =>
          simp only [counted, String.toList_append]
          exact scans_stackLimit hRest count
  | _ =>
      cases count with
      | some count => simp [Stacking.Counted] at hCounted
      | none =>
          exact
            scans_word (by cases rest <;> rfl) (by decide)
              fun _ _ _ => rfl

/- The word of a resource is one token. -/
theorem scans_resourceWord
    {rest : List Char}
    (hRest : Stops isUpper rest)
    (word : Resource) :
    Scans 0 .extended (Vocabulary.code word).toList rest
      (One .core .resourceMarker (Vocabulary.code word)) := by
  have hChars :
      ∃ c cs,
        (Vocabulary.code word).toList = '$' :: c :: cs ∧
          isUpper c = true ∧ cs.all isUpper = true := by
    cases word <;> exact ⟨_, _, rfl, by decide, by decide⟩
  rcases hChars with ⟨c, cs, hChars, hFirst, hOthers⟩
  have hText :
      String.ofList ('$' :: c :: cs) =
        Vocabulary.code word := by
    rw [← hChars, String.ofList_toList]
  rw [hChars, ← hText]
  exact
    scans_head (Mode.lexeme_resource hFirst hOthers hRest)
      (by decide)

/- A resource is scanned with its amount, if it has one. -/
theorem scans_resource
    {rest : List Char}
    (hRest : AtBoundary rest)
    (link : ResourceLink) :
    Scans 0 .extended
      (counted (Vocabulary.code link.resource)
        link.amount).toList rest
      (Extension.resource link).Written := by
  rcases link with ⟨word, amount⟩
  have hCode := Vocabulary.ofCode?_code word
  cases amount with
  | none =>
      have hUpper : Stops isUpper rest :=
        hRest.stops (by decide) (by decide)
      apply (scans_resourceWord hUpper word).mono
      intro later tokens hScan
      rcases hScan with ⟨rfl, offset, rfl⟩
      refine
        ⟨.inr (.inl rfl), by simp, by simp [Section.Plain],
          ?_⟩
      intro nested stop
      simp [extension, sectionBody?, Reader.word, hCode,
        resourceAmount, Reader.eat?, sectionEnd]
  | some amount =>
      have hDigit : Stops isDecimalDigit rest :=
        hRest.stops (by decide) (by decide)
      have hUpper :
          Stops isUpper
            ((wordDecimal amount).toList ++ rest) := by
        rcases exists_wordDecimal_eq amount with
          ⟨c, cs, hNumeral, hFirst, _⟩
        rw [hNumeral]
        apply stops_of_cons
        simp only [isAsciiDigit, Bool.and_eq_true,
          decide_eq_true_eq] at hFirst
        simp only [isUpper, Bool.and_eq_false_iff,
          decide_eq_false_iff_not]
        omega
      simp only [counted, String.toList_append]
      apply (scans_resourceWord hUpper word).append
      intro later tokens hScan
      rcases hScan with ⟨rfl, offset, rfl⟩
      apply (scans_numeral amount (by decide) hDigit).mono
      intro later tokens hScan
      rcases hScan with ⟨rfl, place, rfl⟩
      refine
        ⟨.inr (.inl rfl), by simp, by simp [Section.Plain],
          ?_⟩
      intro nested stop
      have hAmount :
          resourceAmount stop
              [⟨.number, wordDecimal amount, place⟩] =
            .read (some amount) [] := by
        refine
          Reader.bind_eq_read_iff.mpr
            ⟨_, _, Reader.eat?_eq_some_iff.mpr ⟨rfl, rfl⟩, ?_⟩
        refine Reader.map_eq_read_iff.mpr ⟨amount, ?_, rfl⟩
        exact
          Reader.numeral_eq_read_iff.mpr
            ⟨wordOfNumeral?_wordDecimal amount, rfl⟩
      simp [extension, sectionBody?, Reader.word, hCode,
        hAmount, sectionEnd]

------------------------------------------------------------
-- Sections Of Conditions
------------------------------------------------------------

/- A last condition is read up to the closing brace. -/
theorem conditionList_of_close
    {stop : Nat}
    {tokens rest : List Token}
    {first : Condition}
    {close : Token}
    (hFirst :
      condition stop tokens = .read first (close :: rest))
    (hClose : close.kind = .braceClose) :
    conditionList stop tokens = .read [first] rest := by
  rw [conditionList]
  split
  · simp_all
  · rename_i found left hFound
    rw [hFirst] at hFound
    cases hFound
    simp [hClose]

/- Behind a comma further conditions are read. -/
theorem conditionList_of_comma
    {stop : Nat}
    {tokens between rest : List Token}
    {first : Condition}
    {others : List Condition}
    {comma : Token}
    (hFirst :
      condition stop tokens = .read first (comma :: between))
    (hComma : comma.kind = .comma)
    (hOthers :
      conditionList stop between = .read others rest) :
    conditionList stop tokens =
      .read (first :: others) rest := by
  rw [conditionList]
  split
  · simp_all
  · rename_i found left hFound
    rw [hFirst] at hFound
    cases hFound
    simp [hComma, hOthers]

/- Further conditions, each with a comma in front. -/
def moreConditions (tests : List Condition) : List Char :=
  behindCommas (tests.map Condition.render)

/-
  Conditions before a closing brace are scanned into tokens
  that are read as the whole list.
-/
theorem scans_conditions
    {rest : List Char}
    {first : Condition}
    {others : List Condition}
    (hFirst : first.Expressible)
    (hOthers : ∀ test ∈ others, test.Expressible) :
    Scans 1 .attribute
      (first.render.toList ++ moreConditions others)
      ('\x7d' :: rest)
      fun later tokens =>
        (later = .core ∨ later = .operator) ∧
          Section.Plain tokens ∧
            ∀ stop close left,
              close.kind = .braceClose →
                conditionList stop
                    (tokens ++ close :: left) =
                  .read (first :: others) left := by
  induction others generalizing first with
  | nil =>
      apply
        Scans.append
          (scans_condition hFirst
            (fun _ => stops_of_cons (by decide))
            (stops_of_cons (by decide)))
      intro later tokens hScan
      rcases hScan with ⟨hLater, hSpells⟩
      refine .nil ⟨hLater, ?_, ?_⟩
      · rw [List.append_nil]
        exact plain_of_spellsCondition hSpells
      · intro stop close left hClose
        rw [List.append_nil]
        refine conditionList_of_close ?_ hClose
        exact
          condition_of_spells hSpells (by simp [hClose]) stop
  | cons next others ih =>
      rw [List.forall_mem_cons] at hOthers
      rw [moreConditions, List.map_cons, behindCommas_cons]
      apply
        (scans_condition hFirst
          (fun _ => stops_of_cons (by decide))
          (stops_of_cons (by decide))).append
      intro later tokens hScan
      rcases hScan with ⟨hLater, hSpells⟩
      have hComma :
          Scans 1 later [',']
            ((next.render.toList ++ moreConditions others) ++
              '\x7d' :: rest)
            (One .attribute .comma ",") := by
        rcases hLater with rfl | rfl <;>
          exact
            .sign
              (by
                cases (next.render.toList ++
                  moreConditions others) ++ '\x7d' :: rest <;>
                    rfl)
              (by decide) rfl rfl
      apply hComma.append
      intro later tokens hScan
      rcases hScan with ⟨rfl, offset, rfl⟩
      apply (ih hOthers.1 hOthers.2).mono
      intro last more hScan
      rcases hScan with ⟨hLast, hPlain, hRead⟩
      refine ⟨hLast, ?_, ?_⟩
      · apply (plain_of_spellsCondition hSpells).append
        exact .append (by simp [Section.Plain]) hPlain
      · intro stop close left hClose
        have hHead :
            condition stop
                (tokens ++ ⟨.comma, ",", offset⟩ ::
                  (more ++ close :: left)) =
              .read first
                (⟨.comma, ",", offset⟩ ::
                  (more ++ close :: left)) :=
          condition_of_spells hSpells (by simp) stop
        have hAll :=
          conditionList_of_comma hHead rfl
            (hRead stop close left hClose)
        simpa using hAll

/- A text in braces is scanned with one more brace open. -/
theorem scans_braces
    {text rest : List Char}
    {Inner : Mode → List Token → Prop}
    (hInner : Scans 1 .attribute text ('\x7d' :: rest) Inner)
    (hLater :
      ∀ later tokens,
        Inner later tokens →
          later = .core ∨ later = .operator) :
    Scans 0 .extended ('\x7b' :: (text ++ ['\x7d'])) rest
      fun later tokens =>
        later = .core ∧
          ∃ reached inner start finish,
            Inner reached inner ∧
              tokens =
                ⟨.braceOpen, "\x7b", start⟩ ::
                  (inner ++
                    [⟨.braceClose, "\x7d", finish⟩]) := by
  intro offset
  have hOpen :
      Mode.extended.lexeme '\x7b' (text ++ '\x7d' :: rest) =
        (.braceOpen, ['\x7b'], text ++ '\x7d' :: rest) := by
    cases text ++ '\x7d' :: rest <;> rfl
  have hFirst :=
    Scanner.run_token hOpen (by decide) (by decide) offset 0
  rcases hInner (offset + byteLength ['\x7b']) with
    ⟨reached, inner, between, hRun, hResult⟩
  have hReached := hLater reached inner hResult
  have hClose :
      reached.lexeme '\x7d' rest =
        (.braceClose, ['\x7d'], rest) := by
    rcases hReached with rfl | rfl <;> cases rest <;> rfl
  have hLast :=
    Scanner.run_token hClose (by decide) (by decide) between 1
  have hAfter : reached.after 1 .braceClose = .core := by
    rcases hReached with rfl | rfl <;> rfl
  rw [hAfter] at hLast
  have hAll := hFirst.append (hRun.append hLast)
  have hText :
      '\x7b' :: (text ++ ['\x7d']) ++ rest =
        '\x7b' :: (text ++ '\x7d' :: rest) := by
    simp
  rw [hText]
  exact
    ⟨.core, _, _, hAll, rfl, reached, inner, offset, between,
      hResult, rfl⟩

/- A section of conditions is scanned as such. -/
theorem scans_conditionSection
    {rest : List Char}
    {first : Condition}
    {others : List Condition}
    (hTests : ∀ test ∈ first :: others, test.Expressible) :
    Scans 0 .extended
      ('\x7b' :: ((first.render.toList ++
        moreConditions others) ++ ['\x7d'])) rest
      (Extension.conditions (first :: others)).Written := by
  rw [List.forall_mem_cons] at hTests
  apply
    (scans_braces (scans_conditions hTests.1 hTests.2)
      fun _ _ hResult => hResult.1).mono
  intro later tokens hScan
  rcases hScan with
    ⟨rfl, _, inner, start, finish, ⟨_, hPlain, hRead⟩, rfl⟩
  refine ⟨.inr (.inl rfl), by simp, ?_, ?_⟩
  · simp only [Section.Plain, List.forall_mem_cons,
      List.forall_mem_append]
    exact ⟨by simp, hPlain, by simp⟩
  · intro nested stop
    have hList :=
      hRead stop ⟨.braceClose, "\x7d", finish⟩ [] rfl
    have hBody :
        (Extension.conditions <$> conditionList :
          Reader Extension) stop
            (inner ++ [⟨.braceClose, "\x7d", finish⟩]) =
          .read (.conditions (first :: others)) [] :=
      Reader.map_eq_read_iff.mpr ⟨_, hList, rfl⟩
    simp [extension, sectionBody?, hBody, sectionEnd]

------------------------------------------------------------
-- Sections Without A Chain Target
------------------------------------------------------------

namespace Extension

/- An extension with a section that has no chain target. -/
def Ordinary : Extension → Prop
  | .chain _ (some _) => False
  | .conditions [] => False
  | .ignored => False
  | _ => True

/- An extension with a section that is no chain effect. -/
def Unchained : Extension → Prop
  | .chain _ _ => False
  | value => value.Ordinary

/- An extension that is no chain effect has no chain target. -/
theorem Unchained.ordinary
    {value : Extension}
    (hValue : value.Unchained) :
    value.Ordinary := by
  cases value with
  | chain word target => exact hValue.elim
  | _ => exact hValue

/- A chain target matters only to a chain effect. -/
theorem Unchained.canonical_eq
    {value : Extension}
    (hValue : value.Unchained)
    (inner : Option String) :
    value.canonical inner = value.canonical none := by
  cases value with
  | chain word target => exact hValue.elim
  | _ => rfl

end Extension

/- An ordinary extension is scanned as its section. -/
theorem scans_extension
    {levels : Nat}
    {rest : List Char}
    {value : Extension}
    (hRest : AtBoundary rest)
    (hFits : value.Fits levels)
    (hOrdinary : value.Ordinary) :
    Scans 0 .extended (value.canonical none).toList rest
      value.Written := by
  cases value with
  | chain word target =>
      cases target with
      | none => exact scans_chainEffect hRest word
      | some target => exact hOrdinary.elim
  | stacking stacking => exact scans_stacking hRest hFits
  | resource link => exact scans_resource hRest link
  | conditions tests =>
      cases tests with
      | nil => exact hOrdinary.elim
      | cons first others =>
          have hScans :
              Scans 0 .extended _ rest
                (Extension.conditions
                  (first :: others)).Written :=
            scans_conditionSection hFits
          simpa [Extension.canonical, toList_separated,
            moreConditions] using hScans
  | metaEffect word => exact scans_metaEffect hRest word
  | ignored => exact hOrdinary.elim
  | flag word =>
      cases word <;>
        exact
          scans_word (by cases rest <;> rfl) (by decide)
            fun _ _ _ => rfl
  | removability word =>
      cases word <;>
        exact
          scans_word (by cases rest <;> rfl) (by decide)
            fun _ _ _ => rfl
  | source word =>
      cases word <;>
        exact
          scans_word (by cases rest <;> rfl) (by decide)
            fun _ _ _ => rfl
  | visibility word =>
      cases word <;>
        exact
          scans_word (by cases rest <;> rfl) (by decide)
            fun _ _ _ => rfl
  | interaction word =>
      cases word <;>
        exact
          scans_word (by cases rest <;> rfl) (by decide)
            fun _ _ _ => rfl

namespace Effect

/- The extensions of an effect but its chain effect. -/
theorem unchained_of_mem
    (effect : Effect) :
    (∀ value ∈ effect.earlyExtensions, value.Unchained) ∧
      ∀ value ∈ effect.lateExtensions, value.Unchained := by
  have hConditions :
      ∀ value ∈
        (if effect.conditions.isEmpty then
          []
        else
          [Extension.conditions effect.conditions]),
        value.Unchained := by
    cases effect.conditions with
    | nil => simp
    | cons first others =>
        simp [Extension.Unchained, Extension.Ordinary]
  constructor
  · simp [earlyExtensions, or_imp, forall_and,
      Extension.Unchained, Extension.Ordinary]
  · simp only [lateExtensions, List.forall_mem_append]
    refine ⟨⟨⟨⟨⟨⟨?_, ?_⟩, ?_⟩, ?_⟩, hConditions⟩, ?_⟩, ?_⟩ <;>
      simp [Extension.Unchained, Extension.Ordinary]

/- The extensions of an expressible effect can be written. -/
theorem Expressible.fits_of_mem
    {effect : Effect}
    (hEffect : effect.Expressible)
    (levels : Nat) :
    (∀ value ∈ effect.earlyExtensions,
      value.Fits levels) ∧
      ∀ value ∈ effect.lateExtensions,
        value.Fits levels := by
  have hConditions :
      ∀ value ∈
        (if effect.conditions.isEmpty then
          []
        else
          [Extension.conditions effect.conditions]),
        value.Fits levels := by
    split
    · simp
    · simp only [List.mem_singleton, forall_eq]
      intro test hTest
      exact
        hEffect.conditions test
          (List.mem_append_right _ hTest)
  constructor
  · simp [earlyExtensions, or_imp, forall_and,
      Extension.Fits]
  · simp only [lateExtensions, List.forall_mem_append]
    refine
      ⟨⟨⟨⟨⟨⟨?_, ?_⟩, ?_⟩, ?_⟩, hConditions⟩, ?_⟩, ?_⟩
    · simp [Extension.Fits]
    · simpa [Extension.Fits] using hEffect.stacking
    · simp [Extension.Fits]
    · simp [Extension.Fits]
    · simp [Extension.Fits]
    · simp [Extension.Fits]

end Effect

end StatusEffect
