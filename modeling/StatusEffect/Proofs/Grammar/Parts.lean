import StatusEffect.Proofs.Grammar.Section

/-
  The parts of a list of tokens.

  A list of tokens falls into parts at the delimiters
  outside of its parentheses, and it does so in one way
  only: the one in which it is cut into sections. Where no
  parenthesis is open at a delimiter, the sections before it
  and those behind it are all there are.

  Key definitions include:
    * `Section.parensOver`
    * `Section.Whole`
    * `Section.Parts`

  Key theorems include:
    * `Section.split_append`
    * `Section.parts_iff`
    * `Section.tokens_split_of_parts`
-/

------------------------------------------------------------
-- Joined Tokens
------------------------------------------------------------

namespace StatusEffect

namespace Section

/-
  The number of open parentheses after some tokens. Closing
  what is not open leaves the number at zero.
-/
def parensOver
    (parens : Nat)
    (tokens : List Token) : Nat :=
  tokens.foldl parensAfter parens

@[simp]
theorem parensOver_nil
    (parens : Nat) :
    parensOver parens [] = parens := rfl

@[simp]
theorem parensOver_cons
    (parens : Nat)
    (token : Token)
    (tokens : List Token) :
    parensOver parens (token :: tokens) =
      parensOver (parensAfter parens token) tokens := rfl

/- Where no parenthesis is closed too early the counts agree. -/
theorem parensOver_of_parensOver?
    {parens last : Nat}
    {tokens : List Token}
    (hOver : parensOver? parens tokens = some last) :
    parensOver parens tokens = last := by
  induction tokens generalizing parens with
  | nil => simpa [parensOver?] using hOver
  | cons token tokens ih =>
      simp only [parensOver?] at hOver
      split at hOver
      · simp at hOver
      · exact ih hOver

/- At a delimiter outside of parentheses a new cut starts. -/
theorem cut_append
    {parens : Nat}
    {first : List Token}
    {delimiter : Token}
    (hDelimiter : delimiter.kind = .delimiter)
    (hFirst : parensOver parens first = 0)
    (stop : Nat)
    (second : List Token) :
    cut stop parens (first ++ delimiter :: second) =
      ((cut delimiter.offset parens first).1,
        (cut delimiter.offset parens first).2 ++
          (cut stop 0 second).1 ::
            (cut stop 0 second).2) := by
  induction first generalizing parens with
  | nil =>
      rw [parensOver_nil] at hFirst
      subst hFirst
      simp [cut, isCut, hDelimiter]
  | cons token first ih =>
      rw [parensOver_cons] at hFirst
      simp only [List.cons_append, cut]
      by_cases hCut : isCut parens token = true
      · have hZero : parensOver 0 first = 0 := by
          simp only [isCut, Bool.and_eq_true,
            decide_eq_true_eq] at hCut
          simpa [parensAfter, hCut.1, hCut.2] using hFirst
        simp [hCut, ih hZero]
      · simp [hCut, ih hFirst]

/-
  Where no parenthesis is open at a delimiter, the sections
  before it are followed by those behind it.
-/
theorem split_append
    {first : List Token}
    {delimiter : Token}
    (hDelimiter : delimiter.kind = .delimiter)
    (hFirst : parensOver 0 first = 0)
    (stop : Nat)
    (second : List Token) :
    split stop (first ++ delimiter :: second) =
      split delimiter.offset first ++ split stop second := by
  simp only [split, cut_append hDelimiter hFirst,
    ← List.cons_append, List.filter_append]

/- Tokens into which no cut falls are one section. -/
theorem split_of_uncut
    {tokens : List Token}
    (hUncut : Uncut tokens)
    (hTokens : tokens ≠ [])
    (stop : Nat) :
    split stop tokens = [⟨tokens, stop⟩] := by
  have hNothing : cut stop 0 [] = (⟨[], stop⟩, []) :=
    rfl
  have hCut := hUncut stop []
  rw [hNothing, List.append_nil] at hCut
  simp [split, hCut, hTokens]

------------------------------------------------------------
-- Parts
------------------------------------------------------------

/- No delimiter among some tokens is outside of parentheses. -/
def Whole : Nat → List Token → Prop
  | _, [] => True
  | parens, token :: tokens =>
      isCut parens token = false ∧
        Whole (parensAfter parens token) tokens

/- The parts of some tokens, with delimiters between them. -/
inductive Parts : List Token → List (List Token) → Prop where
  | last
      {part : List Token}
      (hPart : Whole 0 part) :
      Parts part [part]
  | more
      {part rest : List Token}
      {delimiter : Token}
      {parts : List (List Token)}
      (hPart : Whole 0 part)
      (hParens : parensOver 0 part = 0)
      (hDelimiter : delimiter.kind = .delimiter)
      (hRest : Parts rest parts) :
      Parts (part ++ delimiter :: rest) (part :: parts)

/- A part is not cut. -/
theorem cut_of_whole
    {parens : Nat}
    {part : List Token}
    (hPart : Whole parens part)
    (stop : Nat) :
    cut stop parens part = (⟨part, stop⟩, []) := by
  induction part generalizing parens with
  | nil => rfl
  | cons token part ih =>
      simp [cut, hPart.1, ih hPart.2]

/-
  The first section of some tokens is a part of them. Either
  it is all of them, or a delimiter outside of parentheses
  stands behind it.
-/
theorem whole_of_cut
    {stop parens : Nat}
    {tokens : List Token}
    {first : Section}
    {others : List Section}
    (hCut : cut stop parens tokens = (first, others)) :
    Whole parens first.tokens ∧
      ((tokens = first.tokens ∧ others = []) ∨
        ∃ delimiter rest,
          tokens = first.tokens ++ delimiter :: rest ∧
            delimiter.kind = .delimiter ∧
            parensOver parens first.tokens = 0 ∧
            (cut stop 0 rest).1 :: (cut stop 0 rest).2 =
              others) := by
  induction tokens generalizing parens first with
  | nil =>
      simp only [cut, Prod.mk.injEq] at hCut
      rcases hCut with ⟨rfl, rfl⟩
      exact ⟨trivial, .inl ⟨rfl, rfl⟩⟩
  | cons token tokens ih =>
      simp only [cut] at hCut
      split at hCut
      · rename_i hDelimiter
        simp only [isCut, Bool.and_eq_true,
          decide_eq_true_eq] at hDelimiter
        rcases hDelimiter with ⟨hKind, rfl⟩
        simp only [Prod.mk.injEq] at hCut
        rcases hCut with ⟨rfl, rfl⟩
        exact
          ⟨trivial,
            .inr ⟨token, tokens, rfl, hKind, rfl, rfl⟩⟩
      · rename_i hToken
        rw [Bool.not_eq_true] at hToken
        simp only [Prod.mk.injEq] at hCut
        rcases hCut with ⟨rfl, rfl⟩
        rcases ih rfl with ⟨hWhole, hAll | hMore⟩
        · exact
            ⟨⟨hToken, hWhole⟩,
              .inl ⟨congrArg _ hAll.1, hAll.2⟩⟩
        · rcases hMore with
            ⟨delimiter, rest, hTokens, hKind, hParens,
              hOthers⟩
          exact
            ⟨⟨hToken, hWhole⟩,
              .inr ⟨delimiter, rest, congrArg _ hTokens,
                hKind, hParens, hOthers⟩⟩

/- The tokens of all sections, the empty ones included. -/
def pieces
    (stop : Nat)
    (tokens : List Token) : List (List Token) :=
  ((cut stop 0 tokens).1 :: (cut stop 0 tokens).2).map
    Section.tokens

/- The sections of some tokens are parts of them. -/
theorem parts_pieces
    (stop : Nat)
    (tokens : List Token) :
    Parts tokens (pieces stop tokens) := by
  induction hLength : tokens.length
    using Nat.strongRecOn generalizing tokens with
  | ind length ih =>
      subst hLength
      cases hCut : cut stop 0 tokens with
      | mk first others =>
          rw [pieces, hCut]
          rcases whole_of_cut hCut with ⟨hWhole, hAll | hMore⟩
          · rw [hAll.1, hAll.2]
            exact .last hWhole
          · rcases hMore with
              ⟨delimiter, rest, hTokens, hKind, hParens,
                hOthers⟩
            have hShort : rest.length < tokens.length := by
              rw [hTokens]
              simp only [List.length_append,
                List.length_cons]
              omega
            rw [← hOthers, hTokens]
            exact
              .more hWhole hParens hKind (ih _ hShort rest rfl)

/- The parts of some tokens are their sections. -/
theorem pieces_of_parts
    {tokens : List Token}
    {parts : List (List Token)}
    (hParts : Parts tokens parts)
    (stop : Nat) :
    pieces stop tokens = parts := by
  induction hParts with
  | last hPart => simp [pieces, cut_of_whole hPart]
  | more hPart hParens hDelimiter hRest ih =>
      rw [pieces, cut_append hDelimiter hParens,
        cut_of_whole hPart, ← ih]
      rfl

/- Tokens have one list of parts: that of their sections. -/
theorem parts_iff
    {tokens : List Token}
    {parts : List (List Token)}
    (stop : Nat) :
    Parts tokens parts ↔ parts = pieces stop tokens := by
  constructor
  · intro hParts
    exact (pieces_of_parts hParts stop).symm
  · rintro rfl
    exact parts_pieces stop tokens

/- The sections that hold a token are the parts that do. -/
theorem tokens_split_of_parts
    {tokens : List Token}
    {parts : List (List Token)}
    (hParts : Parts tokens parts)
    (stop : Nat) :
    (split stop tokens).map Section.tokens =
      parts.filter fun part => !part.isEmpty := by
  rw [← pieces_of_parts hParts stop]
  simp only [pieces, List.filter_map]
  rfl

end Section

end StatusEffect
