import StatusEffect.Grammar.Extension
import StatusEffect.Proofs.Grammar.Segments

/-
  The search for the end of a chain target.

  A chain target is cut out of its section by a search that
  counts open parentheses, one to start with, and moves a
  cursor up to the token where the count drops to zero. The
  count never drops below zero, the cursor stays in range, and
  it ends at the matching parenthesis if there is one. Up to
  there the count is also the one by which the section itself
  was cut, so only in the last section a parenthesis can be
  without a match.

  Key definitions include:
    * `Section.OpenedAt`
    * `Section.ClosedAt`
    * `Section.seek?`
    * `Section.passed`
    * `Section.Sought`
    * `Grammar.chainTargetAt`

  Key theorems include:
    * `Section.last_of_unclosed`
    * `Section.seek?_succ`
    * `Section.exists_sought`
    * `Grammar.chainTarget_eq_at`
    * `Grammar.sections_exact_in_range`
-/

------------------------------------------------------------
-- Matching Parentheses
------------------------------------------------------------

namespace StatusEffect

namespace Section

/- An opening parenthesis stands at a position. -/
def OpenedAt
    (tokens : List Token)
    (place : Nat) : Prop :=
  ∃ opening,
    tokens[place]? = some opening ∧
      opening.kind = .parenOpen

/-
  A parenthesis that is open from a position on is closed at
  another one: a closing parenthesis stands there, and the
  tokens in between are balanced.
-/
def ClosedAt
    (tokens : List Token)
    (start place : Nat) : Prop :=
  start ≤ place ∧
    (∃ close,
      tokens[place]? = some close ∧
        close.kind = .parenClose) ∧
    Balanced (tokens.extract start place)

/- The tokens around a position. -/
theorem drop_eq_extract_append
    {tokens : List Token}
    {start place : Nat}
    {token : Token}
    (hPlace : start ≤ place)
    (hToken : tokens[place]? = some token) :
    tokens.drop start =
      tokens.extract start place ++
        token :: tokens.drop (place + 1) := by
  rcases List.getElem?_eq_some_iff.mp hToken with ⟨hLt, hAt⟩
  have hCut :=
    List.take_append_drop (place - start) (tokens.drop start)
  rw [List.drop_drop, Nat.add_sub_cancel' hPlace,
    List.drop_eq_getElem_cons hLt, hAt] at hCut
  exact hCut.symm

/- A closing parenthesis that is found is a match. -/
theorem closedAt_of_closing?
    {tokens inner rest : List Token}
    {start : Nat}
    {close : Token}
    (hClosing :
      closing? 0 (tokens.drop start) =
        some (inner, close, rest)) :
    ClosedAt tokens start (start + inner.length) := by
  rcases parensOver?_of_closing? hClosing with
    ⟨hClose, hInner⟩
  have hTokens := eq_of_closing? hClosing
  refine ⟨Nat.le_add_right _ _, ⟨close, ?_, hClose⟩, ?_⟩
  · rw [← List.getElem?_drop, hTokens]
    simp
  · simp only [List.extract_eq_take_drop, hTokens,
      Nat.add_sub_cancel_left, List.take_left]
    exact hInner

/- A match is the closing parenthesis that is found. -/
theorem closing?_of_closedAt
    {tokens : List Token}
    {start place : Nat}
    (hClosed : ClosedAt tokens start place) :
    ∃ close,
      tokens[place]? = some close ∧
        closing? 0 (tokens.drop start) =
          some
            (tokens.extract start place, close,
              tokens.drop (place + 1)) := by
  rcases hClosed with
    ⟨hPlace, ⟨close, hAt, hClose⟩, hInner⟩
  refine ⟨close, hAt, ?_⟩
  rw [drop_eq_extract_append hPlace hAt]
  exact closing?_of_balanced hInner hClose _

/- A parenthesis without a match is still open at the end. -/
theorem parensOver_pos_of_closing?
    {parens opened : Nat}
    {tokens : List Token}
    (hOpened : parens < opened)
    (hClosing : closing? parens tokens = none) :
    0 < parensOver opened tokens := by
  -- the saturating count stays above that of the search
  induction tokens generalizing parens opened with
  | nil => exact Nat.zero_lt_of_lt hOpened
  | cons token tokens ih =>
      simp only [closing?] at hClosing
      split at hClosing
      · simp at hClosing
      · rename_i hClose
        rw [Option.map_eq_none_iff] at hClosing
        refine ih ?_ hClosing
        simp only [Bool.and_eq_true, decide_eq_true_eq,
          not_and] at hClose
        unfold parensAfter
        split
        · omega
        · rename_i hKind
          have := hClose hKind
          omega
        · exact hOpened

/- Only in the last section a parenthesis has no match. -/
theorem last_of_unclosed
    {stop place : Nat}
    {tokens : List Token}
    {before after : List Section}
    {part : Section}
    (hParts : split stop tokens = before ++ part :: after)
    (hOpened : OpenedAt part.tokens place)
    (hUnclosed :
      ∀ close, ¬ ClosedAt part.tokens (place + 1) close) :
    after = [] ∧ part.stop = stop ∧
      part.tokens <:+ tokens := by
  rcases hOpened with ⟨opening, hAt, hOpening⟩
  have hClosing :
      closing? 0 (part.tokens.drop (place + 1)) = none := by
    cases hFound :
        closing? 0 (part.tokens.drop (place + 1)) with
    | none => rfl
    | some found =>
        exact
          absurd (closedAt_of_closing? hFound) (hUnclosed _)
  have hTokens :=
    drop_eq_extract_append (Nat.zero_le place) hAt
  -- no later section starts while a parenthesis is open
  have hOver : 0 < parensOver 0 part.tokens := by
    rw [List.drop_zero] at hTokens
    rw [hTokens, parensOver, List.foldl_append,
      List.foldl_cons]
    refine parensOver_pos_of_closing? ?_ hClosing
    simp [parensAfter, hOpening]
  rcases last_or_closed_of_split hParts with hLast | hClosed
  · exact hLast
  · omega

------------------------------------------------------------
-- The Search
------------------------------------------------------------

/-
  Where the search for a closing parenthesis ends, from a
  cursor on: at the token that brings the count of open
  parentheses down to zero, or behind the last token. There
  is no such place if the count drops below zero.
-/
def seek? : Nat → Nat → List Token → Option Nat
  | _, cursor, [] => some cursor
  | opened, cursor, token :: tokens =>
      match token.kind with
      | .parenOpen => seek? (opened + 1) (cursor + 1) tokens
      | .parenClose =>
          match opened with
          | 0 => none
          | 1 => some cursor
          | opened + 2 =>
              seek? (opened + 1) (cursor + 1) tokens
      | _ => seek? opened (cursor + 1) tokens

/- The tokens before a closing parenthesis, or all of them. -/
def passed
    (parens : Nat)
    (tokens : List Token) : List Token :=
  match closing? parens tokens with
  | none => tokens
  | some (inner, _, _) => inner

/- A token that closes an open parenthesis is not passed. -/
theorem passed_close
    {token : Token}
    (hClose : token.kind = .parenClose)
    (tokens : List Token) :
    passed 0 (token :: tokens) = [] := by
  simp [passed, closing?, hClose]

/- Any other token is passed. -/
theorem passed_cons
    {parens : Nat}
    {token : Token}
    (hOpen : ¬ (token.kind = .parenClose ∧ parens = 0))
    (tokens : List Token) :
    passed parens (token :: tokens) =
      token :: passed (parensAfter parens token) tokens := by
  simp only [passed, closing?, Bool.and_eq_true,
    decide_eq_true_eq, hOpen, if_false]
  cases closing? (parensAfter parens token) tokens <;> rfl

/- The search ends at a token that closes what is open. -/
theorem seek?_close
    {token : Token}
    (hClose : token.kind = .parenClose)
    (cursor : Nat)
    (tokens : List Token) :
    seek? 1 cursor (token :: tokens) = some cursor := by
  simp [seek?, hClose]

/- Any other token counts, and the cursor moves on. -/
theorem seek?_cons
    {parens : Nat}
    {token : Token}
    (hOpen : ¬ (token.kind = .parenClose ∧ parens = 0))
    (cursor : Nat)
    (tokens : List Token) :
    seek? (parens + 1) cursor (token :: tokens) =
      seek? (parensAfter parens token + 1) (cursor + 1)
        tokens := by
  unfold parensAfter
  split
  · rename_i hKind
    simp only [seek?, hKind]
  · rename_i hKind
    rcases parens with _ | parens
    · exact absurd ⟨hKind, rfl⟩ hOpen
    · simp only [seek?, hKind, Nat.add_sub_cancel]
  · simp only [seek?]

/-
  With a parenthesis open the search always ends somewhere:
  the count does not drop below zero.
-/
theorem seek?_succ
    (parens cursor : Nat)
    (tokens : List Token) :
    seek? (parens + 1) cursor tokens =
      some (cursor + (passed parens tokens).length) := by
  induction tokens generalizing parens cursor with
  | nil => rfl
  | cons token tokens ih =>
      by_cases hOpen : token.kind = .parenClose ∧ parens = 0
      · rcases hOpen with ⟨hClose, rfl⟩
        rw [seek?_close hClose, passed_close hClose]
        rfl
      · rw [seek?_cons hOpen, passed_cons hOpen, ih,
          List.length_cons, Nat.add_right_comm, Nat.add_assoc]

/- No token that is passed closes too much. -/
theorem exists_parensOver?_passed
    (parens : Nat)
    (tokens : List Token) :
    ∃ last,
      parensOver? parens (passed parens tokens) =
        some last := by
  induction tokens generalizing parens with
  | nil => exact ⟨parens, rfl⟩
  | cons token tokens ih =>
      by_cases hOpen : token.kind = .parenClose ∧ parens = 0
      · rcases hOpen with ⟨hClose, rfl⟩
        rw [passed_close hClose]
        exact ⟨0, rfl⟩
      · simp only [passed_cons hOpen, parensOver?, hOpen,
          if_false]
        exact ih _

/- What is passed stands in front. -/
theorem passed_prefix
    (parens : Nat)
    (tokens : List Token) :
    passed parens tokens <+: tokens := by
  unfold passed
  split
  · exact List.prefix_rfl
  · rename_i inner close rest hClosing
    rw [eq_of_closing? hClosing]
    exact List.prefix_append _ _

/- The count of some tokens has gone over the first of them. -/
theorem exists_parensOver?_of_prefix
    {parens last : Nat}
    {first tokens : List Token}
    (hFirst : first <+: tokens)
    (hOver : parensOver? parens tokens = some last) :
    ∃ between,
      parensOver? parens first = some between := by
  rcases hFirst with ⟨second, rfl⟩
  rw [parensOver?_append, Option.bind_eq_some_iff] at hOver
  rcases hOver with ⟨between, hBetween, -⟩
  exact ⟨between, hBetween⟩

/-
  The search for the end of a parenthesis that is open from a
  position on, and the cursor where it ends.
-/
structure Sought
    (tokens : List Token)
    (start cursor : Nat) : Prop where
  found : seek? 1 start (tokens.drop start) = some cursor
  start_le : start ≤ cursor
  le_length : cursor ≤ tokens.length
  counted :
    ∀ place, start ≤ place → place ≤ cursor →
      ∃ further,
        parensOver? 1 (tokens.extract start place) =
          some (further + 1)
  closedAt_iff :
    ∀ place,
      ClosedAt tokens start place ↔
        place = cursor ∧ cursor < tokens.length

/- The search goes wrong in no tokens. -/
theorem exists_sought
    {tokens : List Token}
    {start : Nat}
    (hStart : start ≤ tokens.length) :
    ∃ cursor, Sought tokens start cursor := by
  have hPassed := passed_prefix 0 (tokens.drop start)
  have hLength := hPassed.length_le
  rw [List.length_drop] at hLength
  refine
    ⟨start + (passed 0 (tokens.drop start)).length,
      seek?_succ 0 start _, Nat.le_add_right _ _, by omega,
      ?_, ?_⟩
  · intro place hPlace hCursor
    -- what lies before the place has been passed by then
    have hFirst :
        tokens.extract start place <+:
          passed 0 (tokens.drop start) := by
      rw [List.extract_eq_take_drop]
      refine
        List.prefix_of_prefix_length_le
          (List.take_prefix _ _) hPassed ?_
      rw [List.length_take]
      omega
    rcases exists_parensOver?_passed 0 (tokens.drop start) with
      ⟨last, hLast⟩
    rcases exists_parensOver?_of_prefix hFirst hLast with
      ⟨further, hFurther⟩
    exact ⟨further, parensOver?_succ hFurther⟩
  · intro place
    constructor
    · intro hClosed
      rcases closing?_of_closedAt hClosed with
        ⟨close, hAt, hClosing⟩
      have hPlace := hClosed.1
      rcases List.getElem?_eq_some_iff.mp hAt with ⟨hLt, -⟩
      simp only [passed, hClosing, List.extract_eq_take_drop,
        List.length_take, List.length_drop]
      omega
    · rintro ⟨rfl, hLt⟩
      cases hClosing : closing? 0 (tokens.drop start) with
      | none =>
          simp only [passed, hClosing, List.length_drop] at hLt
          omega
      | some found =>
          simpa only [passed, hClosing] using
            closedAt_of_closing? hClosing

/- A section is a slice of the tokens. -/
theorem exists_extract_of_split
    {stop : Nat}
    {tokens : List Token}
    {part : Section}
    (hPart : part ∈ split stop tokens) :
    ∃ first last,
      first < last ∧
        last ≤ tokens.length ∧
        part.tokens = tokens.extract first last := by
  have hHeld : part.tokens ≠ [] := by
    simp only [split] at hPart
    simpa using (List.mem_filter.mp hPart).2
  have hLength := List.length_pos_iff.mpr hHeld
  rcases infix_of_mem_split hPart with
    ⟨before, behind, rfl⟩
  refine
    ⟨before.length, before.length + part.tokens.length,
      by omega, ?_, ?_⟩
  · simp only [List.length_append]
    omega
  · simp [List.extract_eq_take_drop]

end Section

------------------------------------------------------------
-- Chain Targets In Range
------------------------------------------------------------

namespace Grammar

open Section Reader

/-
  The chain target of a section whose second token opens a
  parenthesis: the slice from its third token up to a cursor
  is read, if a token stands there.
-/
def chainTargetAt
    (reader : Reader Record)
    (part : Section)
    (cursor : Nat) : Outcome (Option Record) :=
  match part.tokens[cursor]? with
  | none => missing .closingParen part.stop []
  | some close =>
      match
        reader close.offset
          (part.tokens.extract 2 cursor) with
      | .read record _ =>
          .read (some record)
            (part.tokens.drop (cursor + 1))
      | .stuck failure _ =>
          .stuck failure (part.tokens.drop (cursor + 1))

/- A chain target is read up to where the search for it ends. -/
theorem chainTarget_eq_at
    {part : Section}
    {head opening : Token}
    {behind : List Token}
    {cursor : Nat}
    (hTokens : part.tokens = head :: opening :: behind)
    (hOpening : opening.kind = .parenOpen)
    (hSought : Sought part.tokens 2 cursor)
    (reader : Reader Record) :
    chainTarget (some reader) part.stop
        (opening :: behind) =
      chainTargetAt reader part cursor := by
  have hBehind : part.tokens.drop 2 = behind := by
    rw [hTokens]
    rfl
  by_cases hCursor : cursor < part.tokens.length
  · have hClosed :=
      (hSought.closedAt_iff cursor).mpr ⟨rfl, hCursor⟩
    rcases closing?_of_closedAt hClosed with
      ⟨close, hAt, hClosing⟩
    rw [hBehind] at hClosing
    cases hRead :
        reader close.offset (part.tokens.extract 2 cursor) <;>
      simp only [chainTarget, chainTargetAt, hOpening, if_true,
        hClosing, hAt, hRead]
  · have hClosing : closing? 0 behind = none := by
      cases hFound : closing? 0 behind with
      | none => rfl
      | some found =>
          rw [← hBehind] at hFound
          exact
            absurd
              ((hSought.closedAt_iff _).mp
                (closedAt_of_closing? hFound)).2
              hCursor
    have hAt : part.tokens[cursor]? = none :=
      List.getElem?_eq_none (Nat.le_of_not_lt hCursor)
    simp only [chainTarget, chainTargetAt, hOpening, if_true,
      hClosing, hAt]

/-
  Behind a chain effect and a parenthesis the count by which
  sections are cut is that of the search.
-/
theorem parensOver_take
    {part : Section}
    {head opening : Token}
    {behind : List Token}
    {cursor place : Nat}
    (hTokens : part.tokens = head :: opening :: behind)
    (hHead : head.kind = .chainEffect)
    (hOpening : opening.kind = .parenOpen)
    (hSought : Sought part.tokens 2 cursor)
    (hPlace : 2 ≤ place)
    (hCursor : place ≤ cursor) :
    parensOver? 1 (part.tokens.extract 2 place) =
      some (parensOver 0 (part.tokens.take place)) := by
  rcases hSought.counted place hPlace hCursor with
    ⟨further, hFurther⟩
  have hTake :
      part.tokens.take place =
        head :: opening :: part.tokens.extract 2 place := by
    rcases Nat.exists_eq_add_of_le' hPlace with ⟨more, rfl⟩
    simp [hTokens, List.extract_eq_take_drop]
  have hOver := parensOver_of_parensOver? hFurther
  rw [hTake, parensOver_cons, parensOver_cons]
  simp [parensAfter, hHead, hOpening, hOver, hFurther]

------------------------------------------------------------
-- Sections In Range
------------------------------------------------------------

/-
  Sections are cut exactly, and all slices are in range.

  The tokens from a cursor on are their sections, each of
  which holds a token, and the delimiters outside of
  parentheses, in this order and in no other way. A section
  whose parentheses are not all closed is the last one. In a
  section of a chain effect and a parenthesis the search for
  the end of the chain target ends within the section, at the
  matching parenthesis if there is one; the chain target is
  the slice up to there.
-/
theorem sections_exact_in_range
    (stop position : Nat)
    (tokens : List Token) :
    (∀ parts,
      Splits stop (tokens.drop position) parts ↔
        parts = split stop (tokens.drop position)) ∧
    ∀ before part after,
      split stop (tokens.drop position) =
          before ++ part :: after →
        (∃ first last,
          first < last ∧
            last ≤ (tokens.drop position).length ∧
            part.tokens =
              (tokens.drop position).extract first last) ∧
        (∀ place,
          OpenedAt part.tokens place →
          (∀ close,
            ¬ ClosedAt part.tokens (place + 1) close) →
            after = [] ∧
              part.stop = stop ∧
              part.tokens <:+ tokens.drop position) ∧
        ∀ head opening behind,
          part.tokens = head :: opening :: behind →
          head.kind = .chainEffect →
          opening.kind = .parenOpen →
            ∃ cursor,
              Sought part.tokens 2 cursor ∧
              (∀ place,
                2 ≤ place → place ≤ cursor →
                  parensOver? 1
                      (part.tokens.extract 2 place) =
                    some
                      (parensOver 0
                        (part.tokens.take place))) ∧
              ∀ reader,
                chainTarget (some reader) part.stop
                    (opening :: behind) =
                  chainTargetAt reader part cursor := by
  refine ⟨fun parts => splits_iff, ?_⟩
  intro before part after hParts
  have hPart : part ∈ split stop (tokens.drop position) := by
    simp [hParts]
  refine
    ⟨exists_extract_of_split hPart,
      fun place => last_of_unclosed hParts, ?_⟩
  intro head opening behind hTokens hHead hOpening
  have hStart : 2 ≤ part.tokens.length := by
    simp [hTokens]
  rcases exists_sought hStart with ⟨cursor, hSought⟩
  exact
    ⟨cursor, hSought,
      fun place =>
        parensOver_take hTokens hHead hOpening hSought,
      chainTarget_eq_at hTokens hOpening hSought⟩

/-
  Tokens with a delimiter right behind another one, a closing
  parenthesis that was not open, and one that stays open.
-/
def unclosedTokens : List Token :=
  [⟨.target, "P", 0⟩, ⟨.effectMarker, "+", 1⟩,
   ⟨.stat, "S", 2⟩, ⟨.delimiter, ".", 3⟩,
   ⟨.delimiter, ".", 4⟩, ⟨.parenClose, ")", 5⟩,
   ⟨.specialFlag, "ST", 6⟩, ⟨.delimiter, ".", 8⟩,
   ⟨.chainEffect, ">Heal", 9⟩, ⟨.parenOpen, "(", 14⟩,
   ⟨.target, "E", 15⟩, ⟨.effectMarker, "-", 16⟩,
   ⟨.stat, "H", 17⟩, ⟨.delimiter, ".", 18⟩,
   ⟨.specialFlag, "DOT", 19⟩, ⟨.parenClose, ")", 22⟩,
   ⟨.delimiter, ".", 23⟩, ⟨.chainEffect, ">Trig", 24⟩,
   ⟨.parenOpen, "(", 29⟩, ⟨.target, "P", 30⟩,
   ⟨.effectMarker, "+", 31⟩, ⟨.stat, "S", 32⟩,
   ⟨.delimiter, ".", 33⟩, ⟨.removability, "RN", 34⟩]

/- The first of these chain targets is closed, the last is not. -/
theorem sections_exact_in_range_unclosed :
    Splits 36 (unclosedTokens.drop 3)
        [⟨unclosedTokens.extract 5 7, 8⟩,
         ⟨unclosedTokens.extract 8 16, 23⟩,
         ⟨unclosedTokens.extract 17 24, 36⟩] ∧
      ClosedAt (unclosedTokens.extract 8 16) 2 7 ∧
      (∀ close,
        ¬ ClosedAt (unclosedTokens.extract 17 24) 2 close) ∧
      unclosedTokens.extract 17 24 <:+
        unclosedTokens.drop 3 := by
  have hSplit :
      split 36 (unclosedTokens.drop 3) =
        [⟨unclosedTokens.extract 5 7, 8⟩,
         ⟨unclosedTokens.extract 8 16, 23⟩,
         ⟨unclosedTokens.extract 17 24, 36⟩] := by
    decide
  have hExact := sections_exact_in_range 36 3 unclosedTokens
  have hHeal := hExact.2 [_] _ [_] hSplit
  have hTrig := hExact.2 [_, _] _ [] hSplit
  rcases hHeal.2.2 _ _ _ rfl rfl rfl with ⟨cursor, hSought, -⟩
  rcases hTrig.2.2 _ _ _ rfl rfl rfl with ⟨last, hLast, -⟩
  have hCursor : 7 = cursor := Option.some.inj hSought.found
  have hEnd : 7 = last := Option.some.inj hLast.found
  have hUnclosed :
      ∀ close,
        ¬ ClosedAt (unclosedTokens.extract 17 24) 2 close := by
    intro close hClosed
    have hLt := ((hLast.closedAt_iff close).mp hClosed).2
    rw [← hEnd] at hLt
    exact absurd hLt (by decide)
  refine
    ⟨(hExact.1 _).mpr hSplit.symm, ?_, hUnclosed,
      (hTrig.2.1 1 ⟨_, rfl, rfl⟩ hUnclosed).2.2⟩
  rw [hSought.closedAt_iff, ← hCursor]
  decide

end Grammar

end StatusEffect
