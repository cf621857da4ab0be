import StatusEffect.Proofs.Grammar.Language
import StatusEffect.Proofs.Notation.Sections

/-
  Sections that are skipped.

  A section whose first token says nothing is accepted as a
  whole and leaves the record as it is. It still takes part
  in the scan: the braces that it leaves open stay open, and
  behind a comma the sections after it are then scanned for
  the attribute of a condition. So a skipped section leaves
  the sections after it alone exactly if it leaves no brace
  open.

  Key definitions include:
    * `Grammar.headBehind?`
    * `Grammar.SkippedBehind`

  Key theorems include:
    * `Grammar.parse_of_skippedBehind`
    * `Grammar.parse_append_of_skippedBehind`
    * `Grammar.skipped_inert_iff`
-/

------------------------------------------------------------
-- Skipped Sections
------------------------------------------------------------

namespace StatusEffect

open Text

namespace Grammar

open Reader

/- The first token of a text behind a notation and a point. -/
def headBehind?
    (source more : String) : Option Token :=
  match tokenize source, tokenize (source ++ "." ++ more) with
  | .ok before, .ok tokens => tokens[before.length + 1]?
  | _, _ => none

/-
  A text is accepted behind a notation and a point, and the
  first token of the text says nothing.
-/
def SkippedBehind (source text : String) : Prop :=
  (parse (source ++ "." ++ text)).isOk = true ∧
    ∃ head ∈ headBehind? source text, head.Idle

/- Nothing is said by a single section with an idle head. -/
theorem extensions_of_idle
    {nested : Option (Reader Record)}
    {head : Token}
    {rest : List Token}
    (hPlain : Section.Plain (head :: rest))
    (hIdle : head.Idle)
    (stop : Nat) :
    extensions nested (Section.split stop (head :: rest)) =
      .ok [.ignored] := by
  have hNone : sectionBody? nested head = none :=
    sectionBody?_eq_none_iff.mpr hIdle
  rw [Section.split_of_uncut hPlain.uncut (by simp)]
  simp [extensions, extension, hNone, Outcome.result, bind,
    Except.bind, pure, Except.pure]

variable {source text : String}
variable {record : Record}

/- The first token of a text is the first of its scan. -/
theorem tokens_of_headBehind?
    {head : Token}
    (hHead : headBehind? source text = some head) :
    ∃ rest,
      (Scanner.tokens
        ⟨text.toList, source.utf8ByteSize + 1, .extended,
          openBraces source⟩).1 = .ok (head :: rest) := by
  unfold headBehind? at hHead
  split at hHead
  · rename_i before tokens hBefore hTokens
    rw [tokenize_append hBefore] at hTokens
    cases hOthers :
        (Scanner.tokens
          ⟨text.toList, source.utf8ByteSize + 1, .extended,
            openBraces source⟩).1 with
    | error failure => simp [hOthers, Except.map] at hTokens
    | ok others =>
        simp only [hOthers, Except.map,
          Except.ok.injEq] at hTokens
        subst hTokens
        cases others with
        | nil => simp at hHead
        | cons first rest =>
            have hFirst : first = head := by
              simpa [List.getElem?_append_right] using hHead
            exact ⟨rest, by rw [hFirst]⟩
  · simp at hHead

/- A skipped section leaves the record as it is. -/
theorem parse_of_skippedBehind
    (hSource : parse source = .ok record)
    (hBalanced : WellBalanced source)
    (hText : ∀ c ∈ text.toList, c ∉ ['.', '(', ')'])
    (hSkipped : SkippedBehind source text) :
    parse (source ++ "." ++ text) = .ok record := by
  rcases hSkipped with ⟨_, head, hHead, hIdle⟩
  rcases tokens_of_headBehind? hHead with ⟨rest, hTokens⟩
  have hPlain : Section.Plain (head :: rest) := by
    rcases Scanner.run_of_tokens hTokens with
      ⟨last, hRun, hLast⟩
    rcases Scanner.sameSigns_of_run hRun with
      ⟨read, hRead, hSigns⟩
    rw [hLast, List.append_nil] at hRead
    have hSame : text.toList = read := hRead
    rw [← hSame] at hSigns
    exact hSigns.plain hText
  rw [parse_append hSource hBalanced.1, sectionsAt, hTokens]
  exact
    congrArg (Except.map (·.foldl Record.extend record))
      (extensions_of_idle hPlain hIdle _)

/- Text without parentheses leaves them matched. -/
theorem matched_append
    (hSource : Matched '(' ')' source)
    (hText : ∀ c ∈ text.toList, c ∉ ['.', '(', ')']) :
    Matched '(' ')' (source ++ "." ++ text) := by
  have hOpening : '(' ∉ '.' :: text.toList := by
    simpa using fun hMember => hText '(' hMember
  have hClose : ')' ∉ '.' :: text.toList := by
    simpa using fun hMember => hText ')' hMember
  have hChars :
      (source ++ "." ++ text).toList =
        source.toList ++ '.' :: text.toList := by
    simp
  unfold Matched at hSource ⊢
  rw [hChars, openOver?_append, hSource]
  exact openOver?_of_notMem hOpening hClose 0

/- Behind closed braces only the later ones are open. -/
theorem openBraces_append
    (hSource : openBraces source = 0) :
    openBraces (source ++ "." ++ text) = openBraces text := by
  unfold openBraces at hSource ⊢
  simp [List.foldl_append, hSource, openAfter]

/-
  Behind a skipped section the sections are read as without
  it, further on, but with the braces that it leaves open.
-/
theorem parse_append_of_skippedBehind
    (hSource : parse source = .ok record)
    (hBalanced : WellBalanced source)
    (hText : ∀ c ∈ text.toList, c ∉ ['.', '(', ')'])
    (hSkipped : SkippedBehind source text)
    (more : String) :
    (parse (source ++ "." ++ text ++ "." ++ more)).toOption =
      ((sectionsAt (source.utf8ByteSize + 1)
        (openBraces text) more).map
        (·.foldl Record.extend record)).toOption := by
  have hLonger :
      (source ++ "." ++ text).utf8ByteSize + 1 =
        source.utf8ByteSize + 1 +
          (text.utf8ByteSize + 1) := by
    have hPoint : ".".utf8ByteSize = 1 := rfl
    simp only [String.utf8ByteSize_append]
    omega
  rw [parse_append
      (parse_of_skippedBehind hSource hBalanced hText
        hSkipped)
      (matched_append hBalanced.1 hText),
    openBraces_append (openBraces_of_wellBalanced hBalanced),
    hLonger, sectionsAt_add]
  cases sectionsAt (source.utf8ByteSize + 1)
    (openBraces text) more <;> rfl

------------------------------------------------------------
-- Open Braces
------------------------------------------------------------

/- Elements of a chain target, separated by a comma. -/
def spreadElements : String := ">Heal(P+SW,W)"

/- Without open braces the elements are read. -/
theorem sectionsAt_spreadElements :
    (sectionsAt 0 0 spreadElements).isOk = true := by
  decide +kernel

/- The tokens of the text while a brace is open. -/
def spreadTokens : List Token :=
  [⟨.chainEffect, ">Heal", 0⟩, ⟨.parenOpen, "(", 5⟩,
   ⟨.target, "P", 6⟩, ⟨.effectMarker, "+", 7⟩,
   ⟨.stat, "S", 8⟩, ⟨.element, "W", 9⟩,
   ⟨.comma, ",", 10⟩, ⟨.identifier, "W", 11⟩,
   ⟨.parenClose, ")", 12⟩]

/- They do not depend on how many braces are open. -/
theorem tokens_spreadElements
    (braces : Nat) :
    (Scanner.tokens
        ⟨spreadElements.toList, 0, .extended,
          braces + 1⟩).1 =
      .ok spreadTokens := by
  have hRun :
      Scanner.Run
        ⟨spreadElements.toList, 0, .extended, braces + 1⟩
        spreadTokens
        ⟨[], 13, .core, braces + 1⟩ := by
    iterate 9 refine .token rfl ?_
    exact .stay _
  exact Scanner.tokens_of_run_done hRun rfl

/- Behind an open brace the second element is an attribute. -/
theorem sectionsAt_spreadElements_of_braces
    (braces : Nat) :
    sectionsAt 0 (braces + 1) spreadElements =
      .error
        ⟨.expected .element (some (.identifier, "W")),
          11⟩ := by
  have hExtensions :
      extensions (some (record (Record.maxDepth - 1)))
          (Section.split (0 + spreadElements.utf8ByteSize)
            spreadTokens) =
        .error
          ⟨.expected .element (some (.identifier, "W")),
            11⟩ := by
    decide +kernel
  rw [sectionsAt, tokens_spreadElements]
  exact hExtensions

/-
  A skipped section does not change how the sections after
  it are read, whichever they are, exactly if it leaves no
  brace open.
-/
theorem skipped_inert_iff
    (hSource : parse source = .ok record)
    (hBalanced : WellBalanced source)
    (hText : ∀ c ∈ text.toList, c ∉ ['.', '(', ')'])
    (hSkipped : SkippedBehind source text) :
    (∀ more,
      (parse
          (source ++ "." ++ text ++ "." ++ more)).toOption =
        (parse (source ++ "." ++ more)).toOption) ↔
      openBraces text = 0 := by
  have hWith :=
    parse_append_of_skippedBehind hSource hBalanced hText
      hSkipped
  have hWithout :=
    parse_append hSource hBalanced.1
  rw [openBraces_of_wellBalanced hBalanced] at hWithout
  constructor
  · intro hInert
    have hSame := hInert spreadElements
    have hMoved :
        ∀ braces,
          sectionsAt (source.utf8ByteSize + 1) braces
              spreadElements =
            (sectionsAt 0 braces spreadElements).mapError
              (Failure.moved
                (· + (source.utf8ByteSize + 1))) := by
      intro braces
      rw [← sectionsAt_add, Nat.zero_add]
    rw [hWith, hWithout, hMoved, hMoved] at hSame
    cases hBraces : openBraces text with
    | zero => rfl
    | succ braces =>
        rw [hBraces,
          sectionsAt_spreadElements_of_braces] at hSame
        have hRead := sectionsAt_spreadElements
        cases hValues : sectionsAt 0 0 spreadElements with
        | error failure =>
            simp [hValues, Except.isOk,
              Except.toBool] at hRead
        | ok values =>
            simp [hValues, Except.map, Except.mapError,
              Except.toOption] at hSame
  · intro hBraces more
    rw [hWith, hWithout, hBraces]

/- A skipped section with both of its braces is inert. -/
theorem skipped_inert_of_closed :
    (parse "P+S.Foo\x7bA\x7d.>Heal(P+SW,W)").toOption =
      (parse "P+S.>Heal(P+SW,W)").toOption := by
  have hSkipped : SkippedBehind "P+S" "Foo\x7bA\x7d" :=
    ⟨by decide +kernel, ⟨.identifier, "Foo", 4⟩,
      by decide +kernel, by decide⟩
  have hInert :=
    (skipped_inert_iff parse_bare (by decide) (by simp)
      hSkipped).mpr (by decide)
  exact hInert ">Heal(P+SW,W)"

/-
  A skipped section with an open brace is not inert: the
  elements of a chain target behind it are rejected.
-/
theorem not_inert_of_open :
    (parse "P+S").isOk = true ∧
      WellBalanced "P+S" ∧
      (∀ c ∈ "Foo\x7b".toList, c ∉ ['.', '(', ')']) ∧
      SkippedBehind "P+S" "Foo\x7b" ∧
      (parse "P+S.Foo\x7b.>Heal(P+SW,W)").toOption ≠
        (parse "P+S.>Heal(P+SW,W)").toOption := by
  have hSkipped : SkippedBehind "P+S" "Foo\x7b" :=
    ⟨by decide +kernel, ⟨.identifier, "Foo", 4⟩,
      by decide +kernel, by decide⟩
  have hRejected :
      parse "P+S.Foo\x7b.>Heal(P+SW,W)" =
        .error
          ⟨.expected .element (some (.identifier, "W")),
            20⟩ := by
    decide +kernel
  have hAccepted :
      (parse "P+S.>Heal(P+SW,W)").toOption.isSome = true := by
    decide +kernel
  refine ⟨by decide +kernel, by decide, by simp, hSkipped, ?_⟩
  intro hSame
  rw [← hSame, hRejected] at hAccepted
  simp [Except.toOption] at hAccepted

end Grammar

end StatusEffect
