import StatusEffect.Proofs.Notation.Extension

/-
  Written records are read back.

  A record is written under a policy for the gaps, each
  chain target in parentheses behind its chain effect. Its
  text is scanned into balanced tokens, which are read at
  every level of nesting. The record that is read is the one
  that was written exactly if nowhere in it a trigger and
  elements merge.

  Key definitions include:
    * `Record.writtenWith`
    * `ReadsBack`

  Key theorems include:
    * `Record.writtenWith_needsGap`
    * `scans_sections`
    * `scans_record`
    * `Grammar.parse_writtenWith_iff`
-/

------------------------------------------------------------
-- Written Records
------------------------------------------------------------

namespace StatusEffect

open Text Grammar Canonical

namespace Effect

/- An effect in notation, under a policy for the gaps. -/
def writtenWith
    (gap : String → String → Bool)
    (effect : Effect)
    (target : Option String) : String :=
  joinWith gap effect.coreParts ++
    concat ((effect.sections target).map ("." ++ ·))

end Effect

namespace Record

/- A chain in notation, under a policy for the gaps. -/
def chainWrittenWith
    (gap : String → String → Bool) :
    List Effect → Option String
  | [] => none
  | effect :: chain =>
      some
        (effect.writtenWith gap (chainWrittenWith gap chain))

/- A record in notation, under a policy for the gaps. -/
def writtenWith
    (gap : String → String → Bool)
    (record : Record) : String :=
  record.effect.writtenWith gap
    (chainWrittenWith gap record.chain)

/- The canonical notation follows its own policy. -/
theorem writtenWith_needsGap
    (record : Record) :
    record.writtenWith needsGap = record.canonical := by
  have hChain :
      ∀ chain,
        chainWrittenWith needsGap chain =
          chainCanonical chain := by
    intro chain
    induction chain with
    | nil => rfl
    | cons effect chain ih =>
        simp [chainWrittenWith, chainCanonical,
          Effect.writtenWith, Effect.canonical,
          joinWith_needsGap, ih]
  simp [writtenWith, canonical, hChain, Effect.writtenWith,
    Effect.canonical, joinWith_needsGap]

end Record

------------------------------------------------------------
-- Lists Of Sections
------------------------------------------------------------

/- Sections that are read as some extensions. -/
def SectionsSay
    (values : List Extension)
    (parts : List (List Token)) : Prop :=
  ∀ nested sections,
    sections.map Section.tokens = parts →
      extensions nested sections = .ok values

/- What follows a notation in parentheses or at its end. -/
theorem atBoundary_sections
    {rest : List Char}
    (hRest : AtBoundary rest)
    (texts : List String) :
    AtBoundary
      ((concat (texts.map ("." ++ ·))).toList ++ rest) := by
  cases texts with
  | nil => simpa [concat] using hRest
  | cons text texts =>
      intro c hFirst
      left
      simpa [concat, eq_comm] using hFirst

/- A point behind a notation leads to its next section. -/
theorem scans_delimiter
    {mode : Mode}
    {rest : List Char}
    (hMode : mode.Settled) :
    Scans 0 mode ['.'] rest
      (One .extended .delimiter ".") := by
  rcases hMode with rfl | rfl | rfl <;>
    exact .sign (by cases rest <;> rfl) (by decide) rfl rfl

/- One section and the sections behind it say it all. -/
theorem extensions_cons
    {nested : Option (Reader Record)}
    {value : Extension}
    {values : List Extension}
    {part : Section}
    {parts : List Section}
    {rest : List Token}
    (hPart :
      extension nested part.stop part.tokens =
        .read value rest)
    (hParts : extensions nested parts = .ok values) :
    extensions nested (part :: parts) =
      .ok (value :: values) := by
  simp [extensions, hPart, hParts, Outcome.result, bind,
    Except.bind, pure, Except.pure]

/- Ordinary sections are scanned one after the other. -/
theorem scans_sections
    {levels : Nat}
    {mode : Mode}
    {rest : List Char}
    {values : List Extension}
    (hMode : mode.Settled)
    (hRest : AtBoundary rest)
    (hFits : ∀ value ∈ values, value.Fits levels)
    (hOrdinary : ∀ value ∈ values, value.Ordinary) :
    Scans 0 mode
      (concat
        ((values.map (Extension.canonical none)).map
          ("." ++ ·))).toList rest
      fun later tokens =>
        later.Settled ∧ Section.Balanced tokens ∧
          ∃ parts,
            Section.Delimited parts tokens ∧
              SectionsSay values parts := by
  induction values generalizing mode with
  | nil =>
      refine
        .nil ⟨hMode, Section.balanced_nil, [], .none, ?_⟩
      intro nested sections hParts
      rw [List.map_eq_nil_iff] at hParts
      subst hParts
      rfl
  | cons value values ih =>
      rw [List.forall_mem_cons] at hFits hOrdinary
      simp only [List.map_cons, concat,
        String.toList_append, List.append_assoc]
      apply (scans_delimiter hMode).append
      intro later tokens hScan
      rcases hScan with ⟨rfl, offset, rfl⟩
      apply
        (scans_extension
          (atBoundary_sections hRest _) hFits.1
          hOrdinary.1).append
      intro later tokens hWritten
      apply (ih hWritten.settled hFits.2 hOrdinary.2).mono
      intro last others hScan
      rcases hScan with
        ⟨hLast, hBalanced, parts, hParts, hSay⟩
      refine ⟨hLast, ?_, tokens :: parts, ?_, ?_⟩
      · exact
          Section.Balanced.append rfl
            (hWritten.plain.balanced.append hBalanced)
      · exact
          .some rfl hWritten.nonempty hWritten.plain.uncut
            hParts
      · intro nested sections hSections
        rcases List.map_eq_cons_iff.mp hSections with
          ⟨part, others, rfl, rfl, hOthers⟩
        exact
          extensions_cons (hWritten.spelled nested part.stop)
            (hSay nested others hOthers)

------------------------------------------------------------
-- Chain Targets
------------------------------------------------------------

/- A chain target is scanned inside of parentheses. -/
theorem scans_chainTarget
    {inner : String}
    {rest : List Char}
    {Inner : List Token → Prop}
    (word : ChainEffect)
    (hInner :
      Scans 0 .target inner.toList (')' :: rest)
        fun later tokens =>
          later.Settled ∧ Inner tokens) :
    Scans 0 .extended
      (Effect.chainSection word (some inner)).toList rest
      fun later tokens =>
        later = .core ∧
          ∃ offset start tokensInside finish,
            Inner tokensInside ∧
              tokens =
                ⟨.chainEffect, Vocabulary.code word,
                  offset⟩ ::
                  ⟨.parenOpen, "(", start⟩ ::
                    (tokensInside ++
                      [⟨.parenClose, ")", finish⟩]) := by
  simp only [Effect.chainSection, String.toList_append,
    List.append_assoc]
  apply
    (scans_chainWord (stops_of_cons (by decide)) word).append
  intro later tokens hScan
  rcases hScan with ⟨rfl, offset, rfl⟩
  have hOpen :
      Scans 0 .core ['(']
        ((inner.toList ++ [')']) ++ rest)
        (One .target .parenOpen "(") :=
    .sign (by cases (inner.toList ++ [')']) ++ rest <;> rfl)
      (by decide) rfl rfl
  apply hOpen.append
  intro later tokens hScan
  rcases hScan with ⟨rfl, start, rfl⟩
  apply hInner.append
  intro later inside hScan
  rcases hScan with ⟨hLater, hInside⟩
  have hClose :
      Scans 0 later [')'] rest
        (One .core .parenClose ")") := by
    rcases hLater with rfl | rfl | rfl <;>
      exact .sign (by cases rest <;> rfl) (by decide) rfl rfl
  apply hClose.mono
  intro later tokens hScan
  rcases hScan with ⟨rfl, finish, rfl⟩
  exact
    ⟨rfl, offset, start, inside, finish, hInside, rfl⟩

/- A chain effect is read with what its target is read as. -/
theorem extension_of_chainTarget
    {inner : List Token}
    (hInner : Section.Balanced inner)
    (reader : Reader Record)
    (word : ChainEffect)
    (offset start finish stop : Nat) :
    extension (some reader) stop
        (⟨.chainEffect, Vocabulary.code word, offset⟩ ::
          ⟨.parenOpen, "(", start⟩ ::
            (inner ++ [⟨.parenClose, ")", finish⟩])) =
      match reader finish inner with
      | .read target _ => .read (.chain word (some target)) []
      | .stuck failure _ => .stuck failure [] := by
  have hCode := Vocabulary.ofCode?_code word
  have hClosing :
      Section.closing? 0
          (inner ++ [⟨.parenClose, ")", finish⟩]) =
        some (inner, ⟨.parenClose, ")", finish⟩, []) :=
    Section.closing?_of_balanced hInner rfl []
  cases hReader : reader finish inner <;>
    simp [extension, sectionBody?, Reader.word, hCode,
      chainTarget, hClosing, hReader, sectionEnd]

------------------------------------------------------------
-- Records Of Tokens
------------------------------------------------------------

namespace Record

/- No section changes the elements. -/
theorem elements_foldl_extend
    (record : Record)
    (values : List Extension) :
    (values.foldl Record.extend record).effect.elements =
      record.effect.elements := by
  induction values generalizing record with
  | nil => rfl
  | cons value values ih =>
      rw [List.foldl_cons, ih]
      cases value <;> rfl

end Record

/- A record leaves no tokens. -/
theorem rest_of_record
    {levels stop : Nat}
    {tokens rest : List Token}
    {record : Record}
    (hRead :
      Grammar.record levels stop tokens =
        .read record rest) :
    rest = [] := by
  have hWith :
      ∀ nested,
        recordWith nested stop tokens = .read record rest →
          rest = [] := by
    intro nested hRead
    unfold recordWith at hRead
    split at hRead
    · simp at hRead
    · split at hRead
      · simp at hRead
      · simp only [Outcome.read.injEq] at hRead
        exact hRead.2.symm
  cases levels with
  | zero => exact hWith none hRead
  | succ levels => exact hWith _ hRead

/- A core that does not merge is extended by its sections. -/
theorem recordWith_of_not_merges
    {gap : String → String → Bool}
    {nested : Option (Reader Record)}
    {effect : Effect}
    {tokens others : List Token}
    {values : List Extension}
    {stop : Nat}
    (hCore : ReadsCore gap effect tokens)
    (hOthers : AtSection others)
    (hMerges : ¬ effect.Merges gap)
    (hValues :
      extensions nested (Section.split stop others) =
        .ok values) :
    recordWith nested stop (tokens ++ others) =
      .read (values.foldl Record.extend ⟨effect.bare, []⟩)
        [] := by
  simp [recordWith, hCore.kept hMerges stop others hOthers,
    extended_of_extensions hValues]

/- An effect that is read with its elements did not merge. -/
theorem not_merges_of_recordWith
    {gap : String → String → Bool}
    {nested : Option (Reader Record)}
    {effect : Effect}
    {chain : List Effect}
    {tokens others rest : List Token}
    {stop : Nat}
    (hCore : ReadsCore gap effect tokens)
    (hOthers : AtSection others)
    (hRead :
      recordWith nested stop (tokens ++ others) =
        .read ⟨effect, chain⟩ rest) :
    ¬ effect.Merges gap := by
  intro hMerges
  unfold recordWith at hRead
  split at hRead
  · simp at hRead
  · rename_i other left hOther
    have hLost :=
      hCore.lost hMerges stop others hOthers other left hOther
    split at hRead
    · simp at hRead
    · rename_i found hFound
      simp only [Outcome.read.injEq] at hRead
      rcases exists_of_extended hFound with
        ⟨values, _, hRecord⟩
      have hElements :=
        Record.elements_foldl_extend ⟨other, []⟩ values
      rw [hRecord, hRead.1] at hElements
      exact hMerges.1.1 (hElements.trans hLost)

/-
  Tokens are read back as a record exactly if nowhere in it
  a trigger and elements merge.
-/
def ReadsBack
    (gap : String → String → Bool)
    (levels : Nat)
    (record : Record)
    (tokens : List Token) : Prop :=
  ∀ stop,
    Grammar.record levels stop tokens = .read record [] ↔
      ∀ part ∈ record.parts, ¬ part.effect.Merges gap

/- An effect without a chain is read back. -/
theorem readsBack_nil
    {gap : String → String → Bool}
    {levels : Nat}
    {effect : Effect}
    {tokens others : List Token}
    {parts : List (List Token)}
    (hCore : ReadsCore gap effect tokens)
    (hParts : Section.Delimited parts others)
    (hSay : SectionsSay (effect.extensions none) parts) :
    ReadsBack gap levels ⟨effect, []⟩ (tokens ++ others) := by
  have hOthers : AtSection others := hParts.kind_of_head?
  intro stop
  have hSplit :=
    Section.tokens_split_of_delimited hParts stop
  have hWith :
      ∀ nested,
        recordWith nested stop (tokens ++ others) =
            .read ⟨effect, []⟩ [] ↔
          ¬ effect.Merges gap := by
    intro nested
    constructor
    · exact not_merges_of_recordWith hCore hOthers
    · intro hMerges
      rw [recordWith_of_not_merges hCore hOthers hMerges
        (hSay nested _ hSplit)]
      rw [Effect.foldl_extend_extensions (by simp)]
      rfl
  rw [Record.parts_nil]
  simp only [List.mem_singleton, forall_eq]
  cases levels with
  | zero => exact hWith none
  | succ levels => exact hWith _

/- Sections are read from left to right. -/
theorem extensions_append
    (nested : Option (Reader Record))
    (first second : List Section) :
    extensions nested (first ++ second) =
      (do
        let values ← extensions nested first
        let others ← extensions nested second
        pure (values ++ others)) := by
  induction first with
  | nil =>
      cases hSecond : extensions nested second <;>
        simp [extensions, hSecond, bind, Except.bind, pure,
          Except.pure]
  | cons part first ih =>
      simp only [List.cons_append, extensions, ih]
      cases extension nested part.stop part.tokens <;>
        cases extensions nested first <;>
          cases extensions nested second <;>
            simp [Outcome.result, bind, Except.bind, pure,
              Except.pure]

/- The tokens of a section with a chain target. -/
def chainTokens
    (word : ChainEffect)
    (inner : List Token)
    (offset start finish : Nat) : List Token :=
  ⟨.chainEffect, Vocabulary.code word, offset⟩ ::
    ⟨.parenOpen, "(", start⟩ ::
      (inner ++ [⟨.parenClose, ")", finish⟩])

/- The tokens of a chain target are balanced. -/
theorem balanced_chainTokens
    {inner : List Token}
    (hInner : Section.Balanced inner)
    (word : ChainEffect)
    (offset start finish : Nat) :
    Section.Balanced
      (chainTokens word inner offset start finish) := by
  have hHead :
      Section.Balanced
        [⟨.chainEffect, Vocabulary.code word, offset⟩] := rfl
  exact hHead.append (Section.Balanced.parens rfl rfl hInner)

/- No section is cut inside of a chain target. -/
theorem uncut_chainTokens
    {inner : List Token}
    (hInner : Section.Balanced inner)
    (word : ChainEffect)
    (offset start finish : Nat) :
    Section.Uncut
      (chainTokens word inner offset start finish) :=
  (Section.uncut_singleton (by simp) (by simp)).append
    (Section.uncut_parens rfl rfl hInner)

/- The sections around a chain target are read with it. -/
theorem extensions_of_chainTarget
    {effect : Effect}
    (reader : Reader Record)
    {word : ChainEffect}
    {inner : List Token}
    {first last : List (List Token)}
    {offset start finish : Nat}
    {sections : List Section}
    (hWord : effect.chainEffect = some word)
    (hInner : Section.Balanced inner)
    (hEarly : SectionsSay effect.earlyExtensions first)
    (hLate : SectionsSay effect.lateExtensions last)
    (hSections :
      sections.map Section.tokens =
        first ++
          chainTokens word inner offset start finish ::
            last) :
    extensions (some reader) sections =
      match reader finish inner with
      | .read target _ =>
          .ok (effect.extensions (some target))
      | .stuck failure _ => .error failure := by
  rcases List.map_eq_append_iff.mp hSections with
    ⟨before, others, rfl, hBefore, hOthers⟩
  rcases List.map_eq_cons_iff.mp hOthers with
    ⟨part, behind, rfl, hPart, hBehind⟩
  have hChain :=
    extension_of_chainTarget hInner reader word offset start
      finish part.stop
  rw [extensions_append, hEarly _ before hBefore]
  simp only [extensions, hPart, chainTokens, hChain,
    hLate _ behind hBehind]
  cases reader finish inner <;>
    simp [Outcome.result, bind, Except.bind, pure,
      Except.pure, Effect.extensions, Effect.chainExtension,
      hWord]

/- A chain target is read back inside of the whole. -/
theorem readsBack_cons
    {gap : String → String → Bool}
    {levels : Nat}
    {effect next : Effect}
    {chain : List Effect}
    {word : ChainEffect}
    {tokens others inner : List Token}
    {first last : List (List Token)}
    {offset start finish : Nat}
    (hWord : effect.chainEffect = some word)
    (hCore : ReadsCore gap effect tokens)
    (hParts :
      Section.Delimited
        (first ++
          chainTokens word inner offset start finish :: last)
        others)
    (hEarly : SectionsSay effect.earlyExtensions first)
    (hLate : SectionsSay effect.lateExtensions last)
    (hInner : Section.Balanced inner)
    (hReads : ReadsBack gap levels ⟨next, chain⟩ inner) :
    ReadsBack gap (levels + 1) ⟨effect, next :: chain⟩
      (tokens ++ others) := by
  have hOthers : AtSection others := hParts.kind_of_head?
  intro stop
  have hValues :=
    extensions_of_chainTarget (Grammar.record levels) hWord
      hInner hEarly hLate
      (Section.tokens_split_of_delimited hParts stop)
  have hExtended :
      ∀ target : Record,
        (effect.extensions (some target)).foldl Record.extend
            ⟨effect.bare, []⟩ =
          ⟨effect, target.effects⟩ := by
    intro target
    exact
      Effect.foldl_extend_extensions (by simp [hWord])
  rw [Record.parts_cons, List.forall_mem_cons, ← hReads finish]
  constructor
  · intro hRead
    have hMerges :=
      not_merges_of_recordWith hCore hOthers hRead
    refine ⟨hMerges, ?_⟩
    cases hTarget : Grammar.record levels finish inner with
    | stuck failure left =>
        rw [hTarget] at hValues
        simp [Grammar.record, recordWith,
          hCore.kept hMerges stop others hOthers,
          extended_eq_error_iff.mpr hValues] at hRead
    | read target left =>
        rw [hTarget] at hValues
        rw [Grammar.record,
          recordWith_of_not_merges hCore hOthers hMerges
            hValues,
          hExtended] at hRead
        simp only [Outcome.read.injEq, Record.mk.injEq,
          true_and, and_true, Record.effects,
          List.cons.injEq] at hRead
        rcases target with ⟨targetEffect, targetChain⟩
        rcases hRead with ⟨rfl, rfl⟩
        rw [rest_of_record hTarget]
  · intro hBoth
    rcases hBoth with ⟨hMerges, hTarget⟩
    rw [hTarget] at hValues
    rw [Grammar.record,
      recordWith_of_not_merges hCore hOthers hMerges hValues,
      hExtended]
    rfl

------------------------------------------------------------
-- Whole Records
------------------------------------------------------------

/- Texts that are put together in two steps. -/
theorem concat_append
    (first second : List String) :
    concat (first ++ second) =
      concat first ++ concat second := by
  induction first with
  | nil => simp [concat]
  | cons text first ih =>
      simp [concat, ih, String.append_assoc]

/- An effect without a chain is scanned and read back. -/
theorem scans_record_nil
    {gap : String → String → Bool}
    {levels : Nat}
    {effect : Effect}
    {rest : List Char}
    (hGap : Covers gap)
    (hRest : AtBoundary rest)
    (hEffect : effect.Expressible) :
    Scans 0 .target
      ((⟨effect, []⟩ : Record).writtenWith gap).toList rest
      fun later tokens =>
        later.Settled ∧ Section.Balanced tokens ∧
          ReadsBack gap levels ⟨effect, []⟩ tokens := by
  have hUnchained := effect.unchained_of_mem
  have hFitting := hEffect.fits_of_mem levels
  have hOrdinary :
      ∀ value ∈ effect.extensions none, value.Ordinary := by
    simp only [Effect.extensions, List.forall_mem_append]
    refine
      ⟨fun value hValue => (hUnchained.1 value hValue).ordinary,
        ?_,
        fun value hValue =>
          (hUnchained.2 value hValue).ordinary⟩
    simp [Effect.chainExtension, Extension.Ordinary]
  have hFits :
      ∀ value ∈ effect.extensions none,
        value.Fits levels := by
    simp only [Effect.extensions, List.forall_mem_append]
    refine ⟨hFitting.1, ?_, hFitting.2⟩
    simp [Effect.chainExtension, Extension.Fits]
  simp only [Record.writtenWith, Record.chainWrittenWith,
    Effect.writtenWith, String.toList_append,
    effect.sections_eq none]
  apply
    (scans_core hGap (atBoundary_sections hRest _)
      hEffect).append
  intro later tokens hScan
  rcases hScan with ⟨hLater, hPlain, hCore⟩
  apply (scans_sections hLater hRest hFits hOrdinary).mono
  intro last others hScan
  rcases hScan with ⟨hLast, hBalanced, parts, hParts, hSay⟩
  exact
    ⟨hLast, hPlain.balanced.append hBalanced,
      readsBack_nil hCore hParts hSay⟩

/- The sections of an effect with a chain target. -/
theorem sections_of_chainTarget
    {effect : Effect}
    {word : ChainEffect}
    (hWord : effect.chainEffect = some word)
    (inner : String) :
    effect.sections (some inner) =
      effect.earlyExtensions.map (Extension.canonical none) ++
        (Effect.chainSection word (some inner) ::
          effect.lateExtensions.map
            (Extension.canonical none)) := by
  have hUnchained := effect.unchained_of_mem
  have hEarly :
      effect.earlyExtensions.map
          (Extension.canonical (some inner)) =
        effect.earlyExtensions.map
          (Extension.canonical none) :=
    List.map_congr_left fun value hValue =>
      (hUnchained.1 value hValue).canonical_eq _
  have hLate :
      effect.lateExtensions.map
          (Extension.canonical (some inner)) =
        effect.lateExtensions.map
          (Extension.canonical none) :=
    List.map_congr_left fun value hValue =>
      (hUnchained.2 value hValue).canonical_eq _
  rw [effect.sections_eq none]
  simp [Effect.extensions, Effect.chainExtension, hWord,
    hEarly, hLate, Extension.canonical]

/- An effect with a chain target is scanned and read back. -/
theorem scans_record_cons
    {gap : String → String → Bool}
    {levels : Nat}
    {effect next : Effect}
    {chain : List Effect}
    {rest : List Char}
    (hGap : Covers gap)
    (hRest : AtBoundary rest)
    (hEffect : effect.Expressible)
    (hChain : effect.chainEffect.isSome = true)
    (hNext :
      ∀ behind,
        AtBoundary behind →
          Scans 0 .target
            ((⟨next, chain⟩ : Record).writtenWith gap).toList
            behind
            fun later tokens =>
              later.Settled ∧ Section.Balanced tokens ∧
                ReadsBack gap levels ⟨next, chain⟩ tokens) :
    Scans 0 .target
      ((⟨effect, next :: chain⟩ : Record).writtenWith
        gap).toList rest
      fun later tokens =>
        later.Settled ∧ Section.Balanced tokens ∧
          ReadsBack gap (levels + 1) ⟨effect, next :: chain⟩
            tokens := by
  rcases Option.isSome_iff_exists.mp hChain with ⟨word, hWord⟩
  have hUnchained := effect.unchained_of_mem
  have hFits := hEffect.fits_of_mem levels
  have hText :
      (⟨effect, next :: chain⟩ : Record).writtenWith gap =
        joinWith gap effect.coreParts ++
          concat
            ((effect.sections
              (some ((⟨next, chain⟩ : Record).writtenWith
                gap))).map ("." ++ ·)) := rfl
  rw [hText, String.toList_append]
  apply
    (scans_core hGap (atBoundary_sections hRest _)
      hEffect).append
  intro later tokens hScan
  rcases hScan with ⟨hLater, hPlain, hCore⟩
  rw [sections_of_chainTarget hWord, List.map_append,
    concat_append, String.toList_append]
  -- the sections before the chain effect
  apply
    (scans_sections hLater (atBoundary_sections hRest _)
      hFits.1 fun value hValue =>
        (hUnchained.1 value hValue).ordinary).append
  intro between early hScan
  rcases hScan with
    ⟨hBetween, hEarlyBalanced, first, hFirst, hSayFirst⟩
  simp only [List.map_cons, concat, String.toList_append,
    List.append_assoc]
  -- the chain effect with its target
  apply (scans_delimiter hBetween).append
  intro later tokens hScan
  rcases hScan with ⟨rfl, place, rfl⟩
  apply
    (scans_chainTarget word
      (hNext _ (by simp [AtBoundary]))).append
  intro later tokens hScan
  rcases hScan with
    ⟨rfl, offset, start, inner, finish, ⟨hInner, hReads⟩,
      rfl⟩
  -- the sections behind it
  apply
    (scans_sections (.inr (.inl rfl)) hRest hFits.2
      fun value hValue =>
        (hUnchained.2 value hValue).ordinary).mono
  intro last late hScan
  rcases hScan with
    ⟨hLast, hLateBalanced, parts, hParts, hSayLast⟩
  have hUncut :=
    uncut_chainTokens hInner word offset start finish
  have hBalanced :=
    balanced_chainTokens hInner word offset start finish
  have hChainPart :
      Section.Delimited
        (chainTokens word inner offset start finish :: parts)
        (⟨.delimiter, ".", place⟩ ::
          (chainTokens word inner offset start finish ++
            late)) :=
    .some rfl (by simp [chainTokens]) hUncut hParts
  refine ⟨hLast, ?_, ?_⟩
  · exact
      hPlain.balanced.append
        (hEarlyBalanced.append
          (.append rfl (hBalanced.append hLateBalanced)))
  · exact
      readsBack_cons hWord hCore (hFirst.append hChainPart)
        hSayFirst hSayLast hInner hReads

/- An expressible record is scanned and read back. -/
theorem scans_record
    {gap : String → String → Bool}
    {levels : Nat}
    {effect : Effect}
    {chain : List Effect}
    {rest : List Char}
    (hGap : Covers gap)
    (hRest : AtBoundary rest)
    (hRecord :
      Record.ExpressibleWithin levels ⟨effect, chain⟩) :
    Scans 0 .target
      ((⟨effect, chain⟩ : Record).writtenWith gap).toList rest
      fun later tokens =>
        later.Settled ∧ Section.Balanced tokens ∧
          ReadsBack gap levels ⟨effect, chain⟩ tokens := by
  induction chain generalizing levels effect rest with
  | nil =>
      exact
        scans_record_nil hGap hRest
          (Record.expressibleWithin_nil.mp hRecord)
  | cons next chain ih =>
      rcases Record.expressibleWithin_cons.mp hRecord with
        ⟨hEffect, hChain, fewer, rfl, hNext⟩
      exact
        scans_record_cons hGap hRest hEffect hChain
          fun behind hBehind => ih hBehind hNext

namespace Grammar

/-
  Parsing a written record gives it back exactly if nowhere
  in it a trigger and elements merge.
-/
theorem parse_writtenWith_iff
    {gap : String → String → Bool}
    {record : Record}
    (hGap : Covers gap)
    (hRecord : record.Expressible) :
    parse (record.writtenWith gap) = .ok record ↔
      ∀ part ∈ record.parts, ¬ part.effect.Merges gap := by
  rcases record with ⟨effect, chain⟩
  have hNothing : AtBoundary [] := by
    simp [AtBoundary]
  rcases scans_record hGap hNothing hRecord 0 with
    ⟨later, tokens, last, hRun, _, _, hReads⟩
  rw [List.append_nil] at hRun
  have hEnd :
      (⟨[], last, later, 0⟩ : Scanner).tokens =
        (.ok [], ⟨[], last, later, 0⟩) :=
    Scanner.tokens_of_done rfl
  have hTokens :
      tokenize ((⟨effect, chain⟩ : Record).writtenWith gap) =
        .ok tokens := by
    have hAll := Scanner.tokens_of_run hRun
    rw [hEnd] at hAll
    simp only [tokenize, Scanner.ofSource, hAll, Except.map,
      List.append_nil]
  generalize hText :
    (⟨effect, chain⟩ : Record).writtenWith gap = text at *
  rw [← hReads text.utf8ByteSize]
  simp only [parse, hTokens, bind, Except.bind, parseTokens]
  cases hOutcome :
      Grammar.record Record.maxDepth text.utf8ByteSize
        tokens with
  | stuck failure left => simp [Outcome.result]
  | read found left =>
      rw [rest_of_record hOutcome]
      simp [Outcome.result]

end Grammar

end StatusEffect
