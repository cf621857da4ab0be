import StatusEffect.Proofs.Grammar.Parts

/-
  Sections and the delimiters around them.

  Any tokens are a row of segments: sections that hold some
  token, and the delimiters outside of parentheses, with one
  count of open parentheses that runs over all of them. A
  section stops at the delimiter right behind it. There is
  only one such row, and its sections are the ones that
  tokens are split into. All but the last section leave no
  parenthesis open.

  Key definitions include:
    * `Section.Segment`
    * `Section.Laid`
    * `Section.Splits`

  Key theorems include:
    * `Section.exists_laid`
    * `Section.parts_of_laid`
    * `Section.splits_iff`
    * `Section.last_or_closed_of_split`
-/

------------------------------------------------------------
-- Segments
------------------------------------------------------------

namespace StatusEffect

namespace Section

/- A section, or a delimiter between sections. -/
inductive Segment where
  | part (part : Section)
  | delimiter (token : Token)
deriving DecidableEq, Repr

namespace Segment

/- The tokens of a segment. -/
def tokens : Segment → List Token
  | .part found => found.tokens
  | .delimiter token => [token]

/- The section that a segment is, if it is one. -/
def part? : Segment → Option Section
  | .part found => some found
  | .delimiter _ => none

end Segment

/-
  Where a section stops that some segments follow: at the
  delimiter they start with, or where all tokens stop. There
  is no such place right before another section.
-/
def stopBefore? (stop : Nat) : List Segment → Option Nat
  | [] => some stop
  | .delimiter token :: _ => some token.offset
  | .part _ :: _ => none

/-
  Segments in a row, with the number of parentheses open
  before them. The delimiters are outside of parentheses; the
  sections hold some token, but no delimiter outside of
  parentheses.
-/
inductive Laid (stop : Nat) : Nat → List Segment → Prop where
  | nil
      {parens : Nat} :
      Laid stop parens []
  | delimiter
      {token : Token}
      {segments : List Segment}
      (hDelimiter : token.kind = .delimiter)
      (hSegments : Laid stop 0 segments) :
      Laid stop 0 (.delimiter token :: segments)
  | part
      {parens : Nat}
      {part : Section}
      {segments : List Segment}
      (hTokens : part.tokens ≠ [])
      (hWhole : Whole parens part.tokens)
      (hStop : stopBefore? stop segments = some part.stop)
      (hSegments :
        Laid stop (parensOver parens part.tokens) segments) :
      Laid stop parens (.part part :: segments)

/-
  Some tokens are these sections and the delimiters outside
  of parentheses, put together in a row.
-/
def Splits
    (stop : Nat)
    (tokens : List Token)
    (parts : List Section) : Prop :=
  ∃ segments,
    Laid stop 0 segments ∧
      segments.flatMap Segment.tokens = tokens ∧
      segments.filterMap Segment.part? = parts

------------------------------------------------------------
-- Segments Of Any Tokens
------------------------------------------------------------

/- Tokens that are not cut go before segments in a row. -/
theorem exists_laid_append
    {stop last : Nat}
    {part : List Token}
    {segments : List Segment}
    (hPart : Whole 0 part)
    (hStop : stopBefore? stop segments = some last)
    (hSegments : Laid stop (parensOver 0 part) segments) :
    ∃ others,
      Laid stop 0 others ∧
        others.flatMap Segment.tokens =
          part ++ segments.flatMap Segment.tokens := by
  rcases part with _ | ⟨token, part⟩
  · exact ⟨segments, hSegments, rfl⟩
  · refine
      ⟨.part ⟨token :: part, last⟩ :: segments, ?_, rfl⟩
    exact .part (List.cons_ne_nil _ _) hPart hStop hSegments

/- Any tokens are segments in a row. -/
theorem exists_laid
    (stop : Nat)
    (tokens : List Token) :
    ∃ segments,
      Laid stop 0 segments ∧
        segments.flatMap Segment.tokens = tokens := by
  have hParts := parts_pieces stop tokens
  generalize pieces stop tokens = parts at hParts
  induction hParts with
  | @last part hPart =>
      have hBehind : Laid stop (parensOver 0 part) [] := .nil
      rcases exists_laid_append hPart rfl hBehind with
        ⟨segments, hLaid, hTokens⟩
      exact ⟨segments, hLaid, by simpa using hTokens⟩
  | @more part rest delimiter parts hPart hParens hDelimiter
      hRest ih =>
      rcases ih with ⟨others, hOthers, rfl⟩
      have hBehind :
          Laid stop (parensOver 0 part)
            (.delimiter delimiter :: others) := by
        rw [hParens]
        exact .delimiter hDelimiter hOthers
      exact exists_laid_append hPart rfl hBehind

------------------------------------------------------------
-- Sections In A Row
------------------------------------------------------------

/- A part is one section, if it holds a token. -/
theorem split_of_whole
    {part : List Token}
    (hPart : Whole 0 part)
    (hTokens : part ≠ [])
    (stop : Nat) :
    split stop part = [⟨part, stop⟩] := by
  simp [split, cut_of_whole hPart, hTokens]

/- A delimiter before all other tokens is dropped. -/
theorem split_cons_delimiter
    {delimiter : Token}
    (hDelimiter : delimiter.kind = .delimiter)
    (stop : Nat)
    (tokens : List Token) :
    split stop (delimiter :: tokens) = split stop tokens := by
  have hNothing : parensOver 0 [] = 0 := rfl
  exact split_append hDelimiter hNothing stop tokens

/-
  Behind a section there is nothing, or there is a delimiter
  outside of parentheses.
-/
theorem eq_nil_or_exists_of_laid
    {stop parens last : Nat}
    {segments : List Segment}
    (hStop : stopBefore? stop segments = some last)
    (hSegments : Laid stop parens segments) :
    (segments = [] ∧ last = stop) ∨
      ∃ token others,
        segments = .delimiter token :: others ∧
          last = token.offset ∧
          token.kind = .delimiter ∧
          parens = 0 := by
  cases hSegments with
  | nil =>
      simp only [stopBefore?, Option.some.injEq] at hStop
      exact .inl ⟨rfl, hStop.symm⟩
  | delimiter hDelimiter hOthers =>
      simp only [stopBefore?, Option.some.injEq] at hStop
      exact
        .inr ⟨_, _, rfl, hStop.symm, hDelimiter, rfl⟩
  | part hTokens hWhole hOther hOthers =>
      simp [stopBefore?] at hStop

/- The sections of segments are those of their tokens. -/
theorem parts_of_laid
    {stop parens : Nat}
    {segments : List Segment}
    (hSegments : Laid stop parens segments)
    (hParens : parens = 0) :
    segments.filterMap Segment.part? =
      split stop (segments.flatMap Segment.tokens) := by
  -- the count is zero again wherever a section may start
  induction hSegments with
  | nil => rfl
  | @delimiter token segments hDelimiter hSegments ih =>
      rw [List.filterMap_cons_none rfl, ih rfl,
        List.flatMap_cons]
      exact (split_cons_delimiter hDelimiter stop _).symm
  | @part parens part segments hTokens hWhole hStop hSegments
      ih =>
      subst hParens
      rw [List.filterMap_cons_some (f := Segment.part?) rfl,
        List.flatMap_cons]
      rcases eq_nil_or_exists_of_laid hStop hSegments with
        ⟨rfl, hLast⟩ |
        ⟨token, others, rfl, hLast, hDelimiter, hClosed⟩
      · simp [Segment.tokens, split_of_whole hWhole hTokens,
          ← hLast]
      · rw [ih hClosed]
        simp only [Segment.tokens, List.flatMap_cons,
          List.singleton_append,
          split_cons_delimiter hDelimiter,
          split_append hDelimiter hClosed,
          split_of_whole hWhole hTokens, ← hLast]

/- Tokens are put together from the sections of their own only. -/
theorem splits_iff
    {stop : Nat}
    {tokens : List Token}
    {parts : List Section} :
    Splits stop tokens parts ↔ parts = split stop tokens := by
  constructor
  · rintro ⟨segments, hLaid, rfl, rfl⟩
    exact parts_of_laid hLaid rfl
  · rintro rfl
    rcases exists_laid stop tokens with
      ⟨segments, hLaid, rfl⟩
    exact ⟨segments, hLaid, rfl, parts_of_laid hLaid rfl⟩

------------------------------------------------------------
-- The Last Section
------------------------------------------------------------

/-
  A section leaves no parenthesis open, or it is the last one
  and no token stands behind it.
-/
theorem last_or_closed_of_laid
    {stop parens : Nat}
    {segments : List Segment}
    (hSegments : Laid stop parens segments)
    (hParens : parens = 0)
    {before after : List Section}
    {part : Section}
    (hParts :
      segments.filterMap Segment.part? =
        before ++ part :: after) :
    (after = [] ∧ part.stop = stop ∧
        part.tokens <:+ segments.flatMap Segment.tokens) ∨
      parensOver 0 part.tokens = 0 := by
  induction hSegments generalizing before with
  | nil => simp at hParts
  | @delimiter token segments hDelimiter hSegments ih =>
      rw [List.filterMap_cons_none rfl] at hParts
      refine (ih rfl hParts).imp_left ?_
      rintro ⟨hAfter, hStop, hSuffix⟩
      exact
        ⟨hAfter, hStop,
          hSuffix.trans (List.suffix_append [token] _)⟩
  | @part parens first segments hTokens hWhole hStop hSegments
      ih =>
      subst hParens
      rw [List.filterMap_cons_some (f := Segment.part?) rfl]
        at hParts
      rcases eq_nil_or_exists_of_laid hStop hSegments with
        ⟨rfl, hLast⟩ |
        ⟨token, others, rfl, hLast, hDelimiter, hClosed⟩
      · rcases before with _ | ⟨other, before⟩
        · simp only [List.filterMap_nil, List.nil_append,
            List.cons.injEq] at hParts
          rcases hParts with ⟨rfl, rfl⟩
          exact
            .inl ⟨rfl, hLast, by simp [Segment.tokens]⟩
        · simp at hParts
      · rcases before with _ | ⟨other, before⟩
        · simp only [List.nil_append,
            List.cons.injEq] at hParts
          rcases hParts with ⟨rfl, -⟩
          exact .inr hClosed
        · rw [List.cons_append, List.cons.injEq] at hParts
          refine (ih hClosed hParts.2).imp_left ?_
          rintro ⟨hAfter, hPart, hSuffix⟩
          exact
            ⟨hAfter, hPart,
              hSuffix.trans (List.suffix_append _ _)⟩

/-
  A section of some tokens leaves no parenthesis open, or it
  is the last one and no token stands behind it.
-/
theorem last_or_closed_of_split
    {stop : Nat}
    {tokens : List Token}
    {before after : List Section}
    {part : Section}
    (hParts : split stop tokens = before ++ part :: after) :
    (after = [] ∧ part.stop = stop ∧
        part.tokens <:+ tokens) ∨
      parensOver 0 part.tokens = 0 := by
  rcases exists_laid stop tokens with ⟨segments, hLaid, rfl⟩
  exact
    last_or_closed_of_laid hLaid rfl
      ((parts_of_laid hLaid rfl).trans hParts)

end Section

end StatusEffect
