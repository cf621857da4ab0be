import StatusEffect.Proofs.Grammar.Image
import StatusEffect.Proofs.Notation.ChainTarget

/-
  Chains of notations.

  Notations can be chain targets of each other to any depth.
  What is read of them depends on how many levels are left:
  each chain target takes one of them, and with none left it
  is rejected at its opening parenthesis, whatever is inside.
  The notations of the chain do not have brackets of their
  own, so that each is read alike with any number of levels.

  Key definitions include:
    * `Grammar.parseWithin`
    * `Grammar.Flat`
    * `Grammar.Link`
    * `Grammar.nest`
    * `Grammar.linked`

  Key theorems include:
    * `Grammar.Flat.parseWithin_eq`
    * `Grammar.parseWithin_chained`
    * `Grammar.parseWithin_nest`
    * `Grammar.parse_nest`
-/

------------------------------------------------------------
-- Texts Without Brackets
------------------------------------------------------------

namespace StatusEffect

open Text

namespace Text

/- A text has no parentheses and no braces. -/
def Unbracketed (text : String) : Prop :=
  ∀ c ∈ ['(', ')', '\x7b', '\x7d'], c ∉ text.toList

/- A text without brackets is well balanced. -/
theorem Unbracketed.wellBalanced
    {text : String}
    (hText : Unbracketed text) :
    WellBalanced text :=
  ⟨openOver?_of_notMem (hText '(' (by decide))
      (hText ')' (by decide)) 0,
    openOver?_of_notMem (hText '\x7b' (by decide))
      (hText '\x7d' (by decide)) 0⟩

/- Where there is no bracket, nothing is nested. -/
theorem deepest_of_notMem
    {opening close : Char}
    {cs : List Char}
    (hOpening : opening ∉ cs)
    (hClose : close ∉ cs)
    (opened : Nat) :
    deepest opening close opened cs = opened := by
  induction cs with
  | nil => rfl
  | cons c cs ih =>
      simp only [List.mem_cons, not_or] at hOpening hClose
      have hFirst := Ne.symm hOpening.1
      have hSecond := Ne.symm hClose.1
      simp [deepest, openAfter, hFirst, hSecond,
        ih hOpening.2 hClose.2]

end Text

------------------------------------------------------------
-- Levels
------------------------------------------------------------

namespace Grammar

open Reader

/- The record of a notation with a number of nested levels. -/
def parseWithin
    (levels : Nat)
    (source : String) : Except Failure Record := do
  let tokens ← tokenize source
  (record levels source.utf8ByteSize tokens).result

/- A notation is read with the greatest depth. -/
theorem parse_eq_parseWithin
    (source : String) :
    parse source = parseWithin Record.maxDepth source := rfl

/- The reader for chain targets that a number of levels leaves. -/
def below : Nat → Option (Reader Record)
  | 0 => none
  | levels + 1 => some (record levels)

/- The levels of a record are those of its chain targets. -/
theorem record_eq_below
    (levels : Nat) :
    record levels = recordWith (below levels) := by
  cases levels <;> rfl

/- What is not nested is read alike with all levels. -/
theorem record_of_deepest_zero
    {tokens : List Token}
    (hDeepest : Section.deepest 0 tokens = 0)
    (levels stop : Nat) :
    record levels stop tokens = record 0 stop tokens := by
  induction levels with
  | zero => rfl
  | succ levels ih =>
      have hLevels : Section.deepest 0 tokens ≤ levels := by
        omega
      exact (record_succ_of_deepest hLevels stop).trans ih

------------------------------------------------------------
-- Notations Without Brackets
------------------------------------------------------------

/- A notation without brackets, and the record of it. -/
structure Flat where
  source : String
  record : Record
  parsed : parse source = .ok record
  unbracketed : Unbracketed source

namespace Flat

variable (flat : Flat)

/- The tokens of a notation without brackets are not nested. -/
theorem exists_tokens :
    ∃ tokens,
      tokenize flat.source = .ok tokens ∧
        Section.Balanced tokens ∧
        Section.deepest 0 tokens = 0 := by
  have hParsed := flat.parsed
  unfold parse at hParsed
  cases hTokens : tokenize flat.source with
  | error failure =>
      simp [hTokens, bind, Except.bind] at hParsed
  | ok tokens =>
      rcases run_of_tokenize hTokens with
        ⟨_, _, _, _, _, hSigns⟩
      have hBalanced :=
        hSigns.balanced flat.unbracketed.wellBalanced.1
      refine ⟨tokens, rfl, hBalanced, ?_⟩
      rw [hSigns.deepest_eq]
      exact
        deepest_of_notMem (flat.unbracketed '(' (by decide))
          (flat.unbracketed ')' (by decide)) 0

/- A notation without brackets is read alike with all levels. -/
theorem parseWithin_eq
    (levels : Nat) :
    parseWithin levels flat.source = .ok flat.record := by
  rcases flat.exists_tokens with
    ⟨tokens, hTokens, _, hDeepest⟩
  have hParsed := flat.parsed
  rw [parse_eq_parseWithin] at hParsed
  simp only [parseWithin, hTokens] at hParsed ⊢
  change (Grammar.record _ _ tokens).result = _ at hParsed
  change (Grammar.record _ _ tokens).result = _
  rw [record_of_deepest_zero hDeepest] at hParsed ⊢
  exact hParsed

/- A notation without brackets has no chain target. -/
theorem depth_eq_zero :
    flat.record.depth = 0 := by
  have hParsed := flat.parseWithin_eq 0
  unfold parseWithin at hParsed
  cases hTokens : tokenize flat.source with
  | error failure =>
      simp [hTokens, bind, Except.bind] at hParsed
  | ok tokens =>
      rw [hTokens] at hParsed
      change (Grammar.record _ _ tokens).result = _ at hParsed
      cases hRead :
          Grammar.record 0 flat.source.utf8ByteSize tokens with
      | stuck failure rest =>
          rw [hRead] at hParsed
          cases hParsed
      | read value rest =>
          rw [hRead] at hParsed
          cases hParsed
          have hRecord :=
            expressible_of_record (lexed_of_tokenize hTokens)
              hRead
          exact Nat.le_zero.mp hRecord.depth

end Flat

------------------------------------------------------------
-- One Chain Target
------------------------------------------------------------

/- The tokens of a chain target behind a notation. -/
def chainBehind
    (source : String)
    (word : ChainEffect)
    (inner : String)
    (inside : List Token) : List Token :=
  chainTokens word
    (inside.map
      (Token.moved
        (· + innerStart (source.utf8ByteSize + 1) word)))
    (source.utf8ByteSize + 1)
    (source.utf8ByteSize + 1 +
      (Vocabulary.code word).utf8ByteSize)
    (inner.utf8ByteSize +
      innerStart (source.utf8ByteSize + 1) word)

/- The tokens of a notation with a chain target. -/
theorem tokenize_chained
    {source inner : String}
    {tokens inside : List Token}
    (hSource : tokenize source = .ok tokens)
    (hBraces : openBraces source = 0)
    (hInner : tokenize inner = .ok inside)
    (word : ChainEffect) :
    tokenize (chained source word inner) =
      .ok
        (tokens ++
          ⟨.delimiter, ".", source.utf8ByteSize⟩ ::
            chainBehind source word inner inside) := by
  rw [chained_eq, tokenize_append hSource, hBraces,
    tokens_chainSection, hInner]
  rfl

/- Without levels a chain target is too deep. -/
theorem extensions_none_chainTokens
    {inner : List Token}
    (hInner : Section.Balanced inner)
    (word : ChainEffect)
    (offset start finish stop : Nat) :
    extensions none
        (Section.split stop
          (chainTokens word inner offset start finish)) =
      .error ⟨.chainTooDeep, start⟩ := by
  have hCode := Vocabulary.ofCode?_code word
  have hUncut :=
    uncut_chainTokens hInner word offset start finish
  have hSection :
      extension none stop
          (chainTokens word inner offset start finish) =
        .stuck ⟨.chainTooDeep, start⟩
          (inner ++ [⟨.parenClose, ")", finish⟩]) := by
    simp [chainTokens, extension, sectionBody?, Reader.word,
      hCode, chainTarget, failAt]
  rw [Section.split_of_uncut hUncut (by simp [chainTokens]),
    extensions, hSection]
  rfl

/-
  A notation without brackets and a chain target behind it:
  what the target says extends the record of the notation.
-/
theorem parseWithin_chained
    (flat : Flat)
    {inner : String}
    {inside : List Token}
    (hInner : tokenize inner = .ok inside)
    (levels : Nat)
    (word : ChainEffect) :
    parseWithin levels (chained flat.source word inner) =
      extended (below levels)
        (chained flat.source word inner).utf8ByteSize
        flat.record
        (chainBehind flat.source word inner inside) := by
  rcases flat.exists_tokens with
    ⟨tokens, hTokens, hBalanced, _⟩
  have hBraces :=
    openBraces_of_wellBalanced flat.unbracketed.wellBalanced
  have hRead := flat.parseWithin_eq levels
  simp only [parseWithin, hTokens] at hRead
  change (Grammar.record _ _ tokens).result = _ at hRead
  rw [record_eq_below] at hRead
  rcases exists_core_of_recordWith hRead with
    ⟨effect, used, rest, values, rfl, hSpells, hRest,
      hValues, hRecord⟩
  simp only [parseWithin,
    tokenize_chained hTokens hBraces hInner word]
  change (Grammar.record _ _ _).result = _
  rw [record_eq_below, hRecord]
  exact
    recordWith_append hSpells hRest
      (parensOver_of_balanced hSpells hBalanced) rfl hValues _

/- With a level left a chain target is read as by itself. -/
theorem parseWithin_chained_succ
    (flat : Flat)
    {inner : String}
    {inside : List Token}
    (hInner : tokenize inner = .ok inside)
    (hBalanced : Section.Balanced inside)
    (levels : Nat)
    (word : ChainEffect) :
    parseWithin (levels + 1)
        (chained flat.source word inner) =
      ((parseWithin levels inner).map fun target =>
        flat.record.extend (.chain word (some target))).mapError
        (Failure.moved
          (· + innerStart (flat.source.utf8ByteSize + 1)
            word)) := by
  have hMoved :=
    @moves_record
      (· + innerStart (flat.source.utf8ByteSize + 1) word)
      levels inner.utf8ByteSize inside
  have hSections :=
    extensions_chainTokens
      (@balanced_moved
        (· + innerStart (flat.source.utf8ByteSize + 1) word)
        inside hBalanced)
      (record levels) word
      (flat.source.utf8ByteSize + 1)
      (flat.source.utf8ByteSize + 1 +
        (Vocabulary.code word).utf8ByteSize)
      (inner.utf8ByteSize +
        innerStart (flat.source.utf8ByteSize + 1) word)
      (chained flat.source word inner).utf8ByteSize
  rw [hMoved, Outcome.result_moved] at hSections
  rw [parseWithin_chained flat hInner, chainBehind, below,
    extended, hSections, parseWithin, hInner]
  cases hResult :
      (record levels inner.utf8ByteSize inside).result <;>
    simp [bind, Except.bind, Except.map, Except.mapError,
      hResult]

/- Without a level a chain target is too deep. -/
theorem parseWithin_chained_zero
    (flat : Flat)
    {inner : String}
    {inside : List Token}
    (hInner : tokenize inner = .ok inside)
    (hBalanced : Section.Balanced inside)
    (word : ChainEffect) :
    parseWithin 0 (chained flat.source word inner) =
      .error
        ⟨.chainTooDeep,
          (flat.source ++ "." ++
            Vocabulary.code word).utf8ByteSize⟩ := by
  rw [parseWithin_chained flat hInner, chainBehind, below,
    extended,
    extensions_none_chainTokens (balanced_moved hBalanced)]
  simp only [String.utf8ByteSize_append]
  rfl

------------------------------------------------------------
-- Whole Chains
------------------------------------------------------------

/- A notation without brackets, and how the next one follows. -/
structure Link extends Flat where
  word : ChainEffect

/- Each notation of a chain is the chain target of the last. -/
def nest : List Link → String → String
  | [], last => last
  | link :: links, last =>
      chained link.source link.word (nest links last)

/-
  The record of a chain: that of each notation, with its
  chain effect and the next record as its chain target.
-/
def linked : List Link → Record → Record
  | [], last => last
  | link :: links, last =>
      Record.withTarget
        { link.record with
          effect :=
            { link.record.effect with
              chainEffect := some link.word } }
        (some (linked links last))

/- The depth of a chain is the number of its links. -/
theorem depth_linked
    (links : List Link)
    {last : Record}
    (hLast : last.depth = 0) :
    (linked links last).depth = links.length := by
  induction links with
  | nil => exact hLast
  | cons link links ih =>
      simp only [Record.depth] at ih
      simp [linked, Record.depth, Record.withTarget,
        Record.chainOf, Record.effects, ih]

/- A chain is scanned as a whole, and it is balanced. -/
theorem exists_tokens_nest
    (links : List Link)
    (last : Flat) :
    ∃ tokens,
      tokenize (nest links last.source) = .ok tokens ∧
        Section.Balanced tokens := by
  induction links with
  | nil =>
      rcases last.exists_tokens with
        ⟨tokens, hTokens, hBalanced, _⟩
      exact ⟨tokens, hTokens, hBalanced⟩
  | cons link links ih =>
      rcases ih with ⟨inside, hInner, hInside⟩
      rcases link.toFlat.exists_tokens with
        ⟨tokens, hTokens, hBalanced, _⟩
      have hBraces :=
        openBraces_of_wellBalanced
          link.unbracketed.wellBalanced
      have hPoint :
          Section.Balanced
            [⟨.delimiter, ".", link.source.utf8ByteSize⟩] :=
        rfl
      refine
        ⟨_, tokenize_chained hTokens hBraces hInner link.word,
          hBalanced.append (hPoint.append ?_)⟩
      exact
        balanced_chainTokens (balanced_moved hInside) _ _
          _ _

/- A chain is read if there are as many levels as links. -/
theorem parseWithin_nest
    {links : List Link}
    {levels : Nat}
    (hLevels : links.length ≤ levels)
    (last : Flat) :
    parseWithin levels (nest links last.source) =
      .ok (linked links last.record) := by
  induction links generalizing levels with
  | nil => exact last.parseWithin_eq levels
  | cons link links ih =>
      cases levels with
      | zero => exact absurd hLevels (Nat.not_succ_le_zero _)
      | succ levels =>
          rcases exists_tokens_nest links last with
            ⟨inside, hInner, hInside⟩
          rw [nest,
            parseWithin_chained_succ link.toFlat hInner
              hInside,
            ih (Nat.le_of_succ_le_succ hLevels)]
          rfl

/- No parenthesis is opened by a link before its chain target. -/
theorem count_link
    (link : Link) :
    (link.source ++ "." ++
        Vocabulary.code link.word).toList.count '(' = 0 := by
  have hSource :=
    List.count_eq_zero_of_not_mem
      (link.unbracketed '(' (by decide))
  have hWord :
      (Vocabulary.code link.word).toList.count '(' = 0 := by
    cases link.word <;> rfl
  simp [hSource, hWord]

/-
  A chain with more links than levels is rejected at the
  parenthesis for which there is no level.
-/
theorem parseWithin_nest_of_lt
    {links : List Link}
    {levels : Nat}
    (hLevels : levels < links.length)
    (last : Flat) :
    ∃ before behind,
      nest links last.source = before ++ "(" ++ behind ∧
        before.toList.count '(' = levels ∧
        parseWithin levels (nest links last.source) =
          .error ⟨.chainTooDeep, before.utf8ByteSize⟩ := by
  induction links generalizing levels with
  | nil => exact absurd hLevels (Nat.not_lt_zero _)
  | cons link links ih =>
      rcases exists_tokens_nest links last with
        ⟨inside, hInner, hInside⟩
      cases levels with
      | zero =>
          exact
            ⟨link.source ++ "." ++ Vocabulary.code link.word,
              nest links last.source ++ ")",
              by simp [nest, chained, String.append_assoc],
              count_link link,
              parseWithin_chained_zero link.toFlat hInner
                hInside link.word⟩
      | succ levels =>
          rcases ih (Nat.lt_of_succ_lt_succ hLevels) with
            ⟨before, behind, hText, hCount, hParse⟩
          have hLink := count_link link
          refine
            ⟨link.source ++ "." ++
                Vocabulary.code link.word ++ "(" ++ before,
              behind ++ ")", ?_, ?_, ?_⟩
          · simp [nest, chained, hText, String.append_assoc]
          · rw [String.toList_append, String.toList_append,
              List.count_append, List.count_append, hLink,
              hCount]
            simp
            omega
          · rw [nest,
              parseWithin_chained_succ link.toFlat hInner
                hInside, hParse]
            have hPoint : ".".utf8ByteSize = 1 := rfl
            have hOpen : "(".utf8ByteSize = 1 := rfl
            simp only [Except.map, Except.mapError,
              Failure.moved, innerStart,
              String.utf8ByteSize_append, hPoint, hOpen]
            congr 2
            omega

/-
  The depth of chains is limited exactly. With up to eight
  links a chain is accepted, and its record is that of each
  notation with its chain effect and its chain target. With
  more links, however many, it is rejected at the ninth
  opening parenthesis.
-/
theorem parse_nest
    (links : List Link)
    (last : Flat) :
    (links.length ≤ 8 →
      parse (nest links last.source) =
          .ok (linked links last.record) ∧
        (linked links last.record).depth = links.length) ∧
    (8 < links.length →
      ∃ before behind failure,
        nest links last.source = before ++ "(" ++ behind ∧
          before.toList.count '(' = 8 ∧
          parse (nest links last.source) = .error failure ∧
          failure.offset = before.utf8ByteSize ∧
          failure.cause.stage = .validation ∧
          failure.cause.message =
            "chain target nested too deeply") := by
  rw [parse_eq_parseWithin]
  constructor
  · intro hLinks
    exact
      ⟨parseWithin_nest hLinks last,
        depth_linked links last.depth_eq_zero⟩
  · intro hLinks
    rcases parseWithin_nest_of_lt hLinks last with
      ⟨before, behind, hText, hCount, hParse⟩
    exact
      ⟨before, behind, _, hText, hCount, hParse, rfl, rfl,
        rfl⟩

/- The shortest notation, which has no brackets. -/
def shortest : Flat where
  source := "P+S"
  record :=
    ⟨{ target := .player
       change := .increase
       subject := .stat .strength }, []⟩
  parsed := parse_bare
  unbracketed := by simp [Unbracketed]

/- Two links are accepted, and nine are too many. -/
theorem parse_nest_shortest :
    parse "P+S.>Heal(P+S.>Expl(P+S))" =
        .ok
          ⟨{ shortest.record.effect with
             chainEffect := some .heal },
            [{ shortest.record.effect with
               chainEffect := some .explode },
             shortest.record.effect]⟩ ∧
      ∃ failure,
        parse
            (nest (List.replicate 9 ⟨shortest, .trigger⟩)
              "P+S") =
          .error failure ∧
          failure.cause.message =
            "chain target nested too deeply" := by
  constructor
  · exact
      ((parse_nest
        [⟨shortest, .heal⟩, ⟨shortest, .explode⟩]
        shortest).1 (by decide)).1
  · rcases
        (parse_nest (List.replicate 9 ⟨shortest, .trigger⟩)
          shortest).2 (by simp) with
      ⟨_, _, failure, _, _, hParse, _, _, hMessage⟩
    exact ⟨failure, hParse, hMessage⟩

end Grammar

end StatusEffect
