import StatusEffect.Proofs.Grammar.Nesting
import StatusEffect.Proofs.Notation.Sections

/-
  Notations in chain targets.

  A notation in the parentheses of a chain effect is scanned
  together with what stands around it, cut out again at the
  matching parenthesis, and read with one level less. All
  the same it is read as it is by itself, with failures that
  move along with it: one at its end is found at the closing
  parenthesis.

  Key definitions include:
    * `Text.chained`

  Key theorems include:
    * `Grammar.tokens_inner`
    * `Grammar.extensions_chainTokens`
    * `Grammar.sectionsAt_chainSection`
    * `Grammar.parse_chained`
-/

------------------------------------------------------------
-- Scans Of Chain Targets
------------------------------------------------------------

namespace StatusEffect

open Text

namespace Text

/- A notation with another one as its chain target. -/
def chained
    (source : String)
    (word : ChainEffect)
    (inner : String) : String :=
  source ++ "." ++ Vocabulary.code word ++ "(" ++ inner ++ ")"

/- The chain target is a section behind the notation. -/
theorem chained_eq
    (source : String)
    (word : ChainEffect)
    (inner : String) :
    chained source word inner =
      source ++ "." ++
        Effect.chainSection word (some inner) := by
  simp [chained, Effect.chainSection, String.append_assoc]

end Text

namespace Grammar

open Reader

/- Where the notation behind the word of a chain starts. -/
def innerStart
    (offset : Nat)
    (word : ChainEffect) : Nat :=
  offset + (Vocabulary.code word).utf8ByteSize + 1

/- The word of a chain effect is scanned by itself. -/
theorem run_chainWord
    (offset : Nat)
    (word : ChainEffect) :
    Scanner.Run
      ⟨(Vocabulary.code word).toList, offset, .extended, 0⟩
      [⟨.chainEffect, Vocabulary.code word, offset⟩]
      ⟨[], offset + (Vocabulary.code word).utf8ByteSize,
        .core, 0⟩ := by
  cases word <;> exact .token rfl (.stay _)

/- A notation is scanned in parentheses as it is by itself. -/
theorem tokens_inner
    (start : Nat)
    (inner : String) :
    (Scanner.tokens
        ⟨inner.toList ++ [')'], start, .target, 0⟩).1 =
      ((tokenize inner).map fun tokens =>
        tokens.map (Token.moved (· + start)) ++
          [⟨.parenClose, ")",
            inner.utf8ByteSize + start⟩]).mapError
        (Failure.moved (· + start)) := by
  have hSign : (')', TokenKind.parenClose) ∈ signs := by
    decide
  have hScanner :
      (⟨inner.toList ++ [')'], start, .target, 0⟩ : Scanner) =
        ((Scanner.ofSource inner).moved start).followedBy
          [')'] := by
    simp [Scanner.ofSource, Scanner.moved,
      Scanner.followedBy]
  rw [hScanner]
  cases hTokens : tokenize inner with
  | error failure =>
      have hMoved :=
        Scanner.tokens_moved (.ofSource inner) start
      rw [tokenize] at hTokens
      rw [hTokens] at hMoved
      exact
        Scanner.tokens_followedBy_of_error
          (isSign_of_mem hSign) hMoved []
  | ok tokens =>
      rcases run_of_tokenize hTokens with
        ⟨last, hRun, hLast, hOffset, _, _⟩
      have hMoved := hRun.map (Scanner.commutes_moved start)
      rw [Scanner.tokens_followedBy_of_ok hSign hMoved hLast,
        Scanner.tokens_of_done rfl]
      simp only [Scanner.moved, hOffset]
      rfl

/- A chain target is scanned with the tokens around it. -/
theorem tokens_chainSection
    (offset : Nat)
    (word : ChainEffect)
    (inner : String) :
    (Scanner.tokens
        ⟨(Effect.chainSection word (some inner)).toList,
          offset, .extended, 0⟩).1 =
      ((tokenize inner).map fun tokens =>
        chainTokens word
          (tokens.map (Token.moved (· + innerStart offset word)))
          offset
          (offset + (Vocabulary.code word).utf8ByteSize)
          (inner.utf8ByteSize +
            innerStart offset word)).mapError
        (Failure.moved (· + innerStart offset word)) := by
  have hSign : ('(', TokenKind.parenOpen) ∈ signs := by
    decide
  have hScanner :
      (⟨(Effect.chainSection word (some inner)).toList,
          offset, .extended, 0⟩ : Scanner) =
        Scanner.followedBy
          ⟨(Vocabulary.code word).toList, offset, .extended,
            0⟩
          ('(' :: (inner.toList ++ [')'])) := by
    simp [Scanner.followedBy, Effect.chainSection]
  have hInner := tokens_inner (innerStart offset word) inner
  rw [hScanner,
    Scanner.tokens_followedBy_of_ok hSign
      (run_chainWord offset word) rfl]
  refine (congrArg _ hInner).trans ?_
  cases tokenize inner <;> rfl

------------------------------------------------------------
-- Readings Of Chain Targets
------------------------------------------------------------

/- A chain target says what its tokens are read as. -/
theorem extensions_chainTokens
    {tokens : List Token}
    (hTokens : Section.Balanced tokens)
    (reader : Reader Record)
    (word : ChainEffect)
    (offset start finish stop : Nat) :
    extensions (some reader)
        (Section.split stop
          (chainTokens word tokens offset start finish)) =
      (reader finish tokens).result.map fun target =>
        [.chain word (some target)] := by
  have hUncut :=
    uncut_chainTokens hTokens word offset start finish
  have hSection :=
    extension_of_chainTarget hTokens reader word offset start
      finish stop
  rw [Section.split_of_uncut hUncut (by simp [chainTokens]),
    extensions, extensions]
  simp only [chainTokens, hSection]
  cases reader finish tokens <;> rfl

/- A chain target is read as the notation is by itself. -/
theorem sectionsAt_chainSection
    {inner : String}
    (hParens : Matched '(' ')' inner)
    (hNesting : nesting inner < Record.maxDepth)
    (offset : Nat)
    (word : ChainEffect) :
    sectionsAt offset 0
        (Effect.chainSection word (some inner)) =
      ((parse inner).map fun target =>
        [.chain word (some target)]).mapError
        (Failure.moved (· + innerStart offset word)) := by
  simp only [sectionsAt, tokens_chainSection, parse]
  cases hTokens : tokenize inner with
  | error failure => rfl
  | ok tokens =>
      rcases run_of_tokenize hTokens with
        ⟨_, _, _, _, _, hSigns⟩
      have hBalanced :=
        @balanced_moved (· + innerStart offset word) tokens
          (hSigns.balanced hParens)
      have hDeepest :
          Section.deepest 0 tokens ≤ Record.maxDepth - 1 := by
        rw [hSigns.deepest_eq]
        exact Nat.le_sub_one_of_lt hNesting
      -- one level less is enough for what is nested so little
      have hLevels :
          parseTokens inner tokens =
            record (Record.maxDepth - 1) inner.utf8ByteSize
              tokens :=
        record_succ_of_deepest hDeepest _
      have hMoved :=
        @moves_record (· + innerStart offset word)
          (Record.maxDepth - 1) inner.utf8ByteSize tokens
      have hSections :=
        extensions_chainTokens hBalanced
          (record (Record.maxDepth - 1)) word offset
          (offset + (Vocabulary.code word).utf8ByteSize)
          (inner.utf8ByteSize + innerStart offset word)
          (offset +
            (Effect.chainSection word
              (some inner)).utf8ByteSize)
      rw [hMoved, Outcome.result_moved, ← hLevels] at hSections
      refine hSections.trans ?_
      cases hResult : (parseTokens inner tokens).result <;>
        simp [bind, Except.bind, Except.map, Except.mapError,
          hResult]

/-
  A chain effect leads to what its target is by itself. What
  the target is rejected for, the whole is rejected for, at
  the same place of the target. The end of the target is the
  place of the closing parenthesis.
-/
theorem parse_chained
    {source inner : String}
    {record : Record}
    (hSource : parse source = .ok record)
    (hBalanced : WellBalanced source)
    (hParens : Matched '(' ')' inner)
    (hNesting : nesting inner ≤ 7)
    (word : ChainEffect) :
    (∀ target,
      parse inner = .ok target →
        parse (chained source word inner) =
          .ok
            (Record.withTarget
              { record with
                effect :=
                  { record.effect with
                    chainEffect := some word } }
              (some target))) ∧
    (∀ failure,
      parse inner = .error failure →
        ∃ place,
          parse (chained source word inner) =
              .error ⟨failure.cause, place⟩ ∧
            place =
              failure.offset + source.utf8ByteSize +
                (Vocabulary.code word).utf8ByteSize + 2 ∧
            (failure.offset = inner.utf8ByteSize →
              place + ")".utf8ByteSize =
                (chained source word
                  inner).utf8ByteSize)) := by
  have hParse :=
    parse_append hSource hBalanced.1
      (Effect.chainSection word (some inner))
  rw [openBraces_of_wellBalanced hBalanced,
    sectionsAt_chainSection hParens
      (Nat.lt_succ_of_le hNesting), ← chained_eq] at hParse
  constructor
  · intro target hTarget
    rw [hTarget] at hParse
    exact hParse
  · intro failure hFailure
    rw [hFailure] at hParse
    refine ⟨_, hParse, ?_, ?_⟩
    · simp only [innerStart]
      omega
    · intro hEnd
      have hPoint : ".".utf8ByteSize = 1 := rfl
      have hOpen : "(".utf8ByteSize = 1 := rfl
      simp only [chained, String.utf8ByteSize_append,
        innerStart]
      omega

/- A chain target with one of its own, and one without an end. -/
theorem parse_chained_nested :
    parse "E-H.>Expl(P+H.>Heal(A+D))" =
        .ok
          ⟨{ target := .enemy
             change := .decrease
             subject := .stat .health
             chainEffect := some .explode },
            [{ target := .player
               change := .increase
               subject := .stat .health
               chainEffect := some .heal },
             { target := .allAllies
               change := .increase
               subject := .stat .defense }]⟩ ∧
      ∃ place,
        parse "E-H.>Expl(P+)" =
            .error ⟨.expected .subject none, place⟩ ∧
          place + 1 = "E-H.>Expl(P+)".utf8ByteSize := by
  have hSource :
      parse "E-H" =
        .ok
          ⟨{ target := .enemy
             change := .decrease
             subject := .stat .health }, []⟩ := by
    decide +kernel
  have hBalanced : WellBalanced "E-H" := by
    decide
  constructor
  · have hWhole :=
      parse_chained hSource hBalanced
        (show Matched '(' ')' "P+H.>Heal(A+D)" by decide)
        (by decide) .explode
    exact
      hWhole.1
        ⟨{ target := .player
           change := .increase
           subject := .stat .health
           chainEffect := some .heal },
          [{ target := .allAllies
             change := .increase
             subject := .stat .defense }]⟩
        (by decide +kernel)
  · have hWhole :=
      parse_chained hSource hBalanced
        (show Matched '(' ')' "P+" by decide) (by decide)
        .explode
    rcases hWhole.2 ⟨.expected .subject none, 2⟩
        (by decide +kernel) with
      ⟨place, hParse, _, hEnd⟩
    exact ⟨place, hParse, hEnd rfl⟩

end Grammar

end StatusEffect
