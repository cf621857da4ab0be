import StatusEffect.Grammar.Section

/-
  Sections and parentheses, and the tokens between them.

  Cutting tokens into sections and looking for a closing
  parenthesis both count parentheses. Over balanced tokens
  the counts agree: nothing is cut inside of parentheses, and
  the parenthesis that is found is the matching one. Whatever
  the tokens are, a section is a part of them.

  Key definitions include:
    * `Section.Balanced`
    * `Section.Plain`
    * `Section.Uncut`
    * `Section.Delimited`

  Key theorems include:
    * `Section.closing?_of_balanced`
    * `Section.uncut_parens`
    * `Section.tokens_split_of_delimited`
    * `Section.infix_of_mem_split`
-/

------------------------------------------------------------
-- Balanced Tokens
------------------------------------------------------------

namespace StatusEffect

namespace Section

/-
  The number of open parentheses after some tokens. There is
  none if they close a parenthesis that was not open.
-/
def parensOver? : Nat → List Token → Option Nat
  | parens, [] => some parens
  | parens, token :: tokens =>
      if token.kind = .parenClose ∧ parens = 0 then
        none
      else
        parensOver? (parensAfter parens token) tokens

/- All parentheses of some tokens match. -/
def Balanced (tokens : List Token) : Prop :=
  parensOver? 0 tokens = some 0

/- Parentheses are counted from left to right. -/
theorem parensOver?_append
    (parens : Nat)
    (first second : List Token) :
    parensOver? parens (first ++ second) =
      (parensOver? parens first).bind fun between =>
        parensOver? between second := by
  induction first generalizing parens with
  | nil => rfl
  | cons token first ih =>
      simp only [List.cons_append, parensOver?]
      split
      · rfl
      · exact ih _

/- A parenthesis that stays open counts before and after. -/
theorem parensAfter_succ
    {parens : Nat}
    {token : Token}
    (hOpen : ¬ (token.kind = .parenClose ∧ parens = 0)) :
    parensAfter (parens + 1) token =
      parensAfter parens token + 1 := by
  unfold parensAfter
  split
  · rfl
  · rename_i hKind
    simp only [hKind, true_and] at hOpen
    omega
  · rfl

/- Further open parentheses stay open. -/
theorem parensOver?_succ
    {parens last : Nat}
    {tokens : List Token}
    (hOver : parensOver? parens tokens = some last) :
    parensOver? (parens + 1) tokens = some (last + 1) := by
  induction tokens generalizing parens with
  | nil => simpa [parensOver?] using hOver
  | cons token tokens ih =>
      simp only [parensOver?] at hOver ⊢
      split at hOver
      · simp at hOver
      · rename_i hOpen
        have hNext := ih hOver
        simp [parensAfter_succ hOpen, hNext]

theorem balanced_nil : Balanced [] := rfl

/- Balanced tokens stay so when put together. -/
theorem Balanced.append
    {first second : List Token}
    (hFirst : Balanced first)
    (hSecond : Balanced second) :
    Balanced (first ++ second) := by
  unfold Balanced at *
  rw [parensOver?_append, hFirst]
  exact hSecond

/- Tokens among which there is no point and no parenthesis. -/
def Plain (tokens : List Token) : Prop :=
  ∀ token ∈ tokens,
    token.kind ∉ [.delimiter, .parenOpen, .parenClose]

/- A token other than a parenthesis leaves none open. -/
theorem parensAfter_zero_of_ne
    {token : Token}
    (hOpen : token.kind ≠ .parenOpen) :
    parensAfter 0 token = 0 := by
  unfold parensAfter
  split
  · contradiction
  · rfl
  · rfl

/- Plain tokens stay so when put together. -/
theorem Plain.append
    {first second : List Token}
    (hFirst : Plain first)
    (hSecond : Plain second) :
    Plain (first ++ second) := by
  simp only [Plain, List.forall_mem_append]
  exact ⟨hFirst, hSecond⟩

/- Plain tokens are balanced. -/
theorem Plain.balanced
    {tokens : List Token}
    (hPlain : Plain tokens) :
    Balanced tokens := by
  induction tokens with
  | nil => rfl
  | cons token tokens ih =>
      have hToken := hPlain token (by simp)
      simp only [List.mem_cons, List.not_mem_nil, or_false,
        not_or] at hToken
      have hRest :=
        ih fun other hOther => hPlain other (by simp [hOther])
      unfold Balanced at *
      simp [parensOver?, hToken.2.2,
        parensAfter_zero_of_ne hToken.2.1, hRest]

/- Balanced tokens in parentheses are balanced. -/
theorem Balanced.parens
    {opening close : Token}
    {tokens : List Token}
    (hOpening : opening.kind = .parenOpen)
    (hClose : close.kind = .parenClose)
    (hTokens : Balanced tokens) :
    Balanced (opening :: (tokens ++ [close])) := by
  have hInner := parensOver?_succ hTokens
  unfold Balanced
  simp [parensOver?, parensAfter, parensOver?_append,
    hOpening, hClose, hInner]

------------------------------------------------------------
-- Closing Parentheses
------------------------------------------------------------

/- The search for a closing parenthesis passes by others. -/
theorem closing?_append
    {parens last : Nat}
    {tokens : List Token}
    (hOver : parensOver? parens tokens = some last)
    (rest : List Token) :
    closing? parens (tokens ++ rest) =
      (closing? last rest).map fun found =>
        (tokens ++ found.1, found.2.1, found.2.2) := by
  induction tokens generalizing parens with
  | nil =>
      simp only [parensOver?, Option.some.injEq] at hOver
      subst hOver
      simp
  | cons token tokens ih =>
      simp only [parensOver?] at hOver
      split at hOver
      · simp at hOver
      · rename_i hOpen
        simp only [List.cons_append, closing?,
          Bool.and_eq_true, decide_eq_true_eq, hOpen,
          if_false, ih hOver, Option.map_map]
        rfl

/- The parenthesis that closes balanced tokens is the next one. -/
theorem closing?_of_balanced
    {tokens : List Token}
    (hTokens : Balanced tokens)
    {close : Token}
    (hClose : close.kind = .parenClose)
    (rest : List Token) :
    closing? 0 (tokens ++ close :: rest) =
      some (tokens, close, rest) := by
  rw [closing?_append hTokens]
  simp [closing?, hClose]

/- A closing parenthesis stands behind what it closes. -/
theorem eq_of_closing?
    {parens : Nat}
    {tokens inner rest : List Token}
    {close : Token}
    (hClosing :
      closing? parens tokens = some (inner, close, rest)) :
    tokens = inner ++ close :: rest := by
  induction tokens generalizing parens inner with
  | nil => simp [closing?] at hClosing
  | cons token tokens ih =>
      simp only [closing?] at hClosing
      split at hClosing
      · simp only [Option.some.injEq,
          Prod.mk.injEq] at hClosing
        rcases hClosing with ⟨rfl, rfl, rfl⟩
        rfl
      · simp only [Option.map_eq_some_iff, Prod.exists,
          Prod.mk.injEq] at hClosing
        rcases hClosing with
          ⟨others, close, rest, hOthers, rfl, rfl, rfl⟩
        rw [ih hOthers]
        rfl

/- A closing parenthesis closes balanced tokens. -/
theorem parensOver?_of_closing?
    {parens : Nat}
    {tokens inner rest : List Token}
    {close : Token}
    (hClosing :
      closing? parens tokens = some (inner, close, rest)) :
    close.kind = .parenClose ∧
      parensOver? parens inner = some 0 := by
  induction tokens generalizing parens inner with
  | nil => simp [closing?] at hClosing
  | cons token tokens ih =>
      simp only [closing?] at hClosing
      split at hClosing
      · rename_i hClose
        simp only [Bool.and_eq_true,
          decide_eq_true_eq] at hClose
        simp only [Option.some.injEq,
          Prod.mk.injEq] at hClosing
        rcases hClosing with ⟨rfl, rfl, rfl⟩
        rw [hClose.2]
        exact ⟨hClose.1, rfl⟩
      · rename_i hOpen
        simp only [Bool.and_eq_true,
          decide_eq_true_eq] at hOpen
        simp only [Option.map_eq_some_iff, Prod.exists,
          Prod.mk.injEq] at hClosing
        rcases hClosing with
          ⟨others, close, rest, hOthers, rfl, rfl, rfl⟩
        rcases ih hOthers with ⟨hKind, hOver⟩
        simp only [parensOver?, hOpen, if_false]
        exact ⟨hKind, hOver⟩

------------------------------------------------------------
-- Cuts
------------------------------------------------------------

/- Tokens into which no cut falls. -/
def Uncut (tokens : List Token) : Prop :=
  ∀ stop rest,
    cut stop 0 (tokens ++ rest) =
      (⟨tokens ++ (cut stop 0 rest).1.tokens,
        (cut stop 0 rest).1.stop⟩,
        (cut stop 0 rest).2)

theorem uncut_nil : Uncut [] := by
  intro stop rest
  rfl

/- No cut falls on a token that is no point and opens nothing. -/
theorem uncut_singleton
    {token : Token}
    (hDelimiter : token.kind ≠ .delimiter)
    (hOpen : token.kind ≠ .parenOpen) :
    Uncut [token] := by
  intro stop rest
  simp [cut, isCut, hDelimiter,
    parensAfter_zero_of_ne hOpen]

/- Uncut tokens stay so when put together. -/
theorem Uncut.append
    {first second : List Token}
    (hFirst : Uncut first)
    (hSecond : Uncut second) :
    Uncut (first ++ second) := by
  intro stop rest
  rw [List.append_assoc, hFirst, hSecond]
  simp

/- Plain tokens are uncut. -/
theorem Plain.uncut
    {tokens : List Token}
    (hPlain : Plain tokens) :
    Uncut tokens := by
  induction tokens with
  | nil => exact uncut_nil
  | cons token tokens ih =>
      have hToken := hPlain token (by simp)
      simp only [List.mem_cons, List.not_mem_nil, or_false,
        not_or] at hToken
      have hOthers :=
        ih fun other hOther => hPlain other (by simp [hOther])
      exact
        (uncut_singleton hToken.1 hToken.2.1).append hOthers

/- Inside of parentheses nothing is cut. -/
theorem cut_succ_append
    {parens last : Nat}
    {tokens : List Token}
    (hOver : parensOver? parens tokens = some last)
    (stop : Nat)
    (rest : List Token) :
    cut stop (parens + 1) (tokens ++ rest) =
      (⟨tokens ++ (cut stop (last + 1) rest).1.tokens,
        (cut stop (last + 1) rest).1.stop⟩,
        (cut stop (last + 1) rest).2) := by
  induction tokens generalizing parens with
  | nil =>
      simp only [parensOver?, Option.some.injEq] at hOver
      subst hOver
      rfl
  | cons token tokens ih =>
      have hFirst :
          parensOver? parens [token] =
            some (parensAfter parens token) := by
        simp only [parensOver?] at hOver ⊢
        split at hOver
        · simp at hOver
        · rename_i hOpen
          simp [hOpen]
      have hShift := parensOver?_succ hFirst
      simp only [parensOver?, Nat.add_eq_zero_iff,
        Nat.succ_ne_self, and_false, if_false,
        Option.some.injEq] at hShift
      rw [← List.singleton_append, parensOver?_append,
        hFirst] at hOver
      have hRest := ih hOver
      simp only [List.cons_append, cut, isCut, hShift, hRest]
      simp

/- Balanced tokens in parentheses are uncut. -/
theorem uncut_parens
    {opening close : Token}
    {tokens : List Token}
    (hOpening : opening.kind = .parenOpen)
    (hClose : close.kind = .parenClose)
    (hTokens : Balanced tokens) :
    Uncut (opening :: (tokens ++ [close])) := by
  intro stop rest
  have hInner :=
    cut_succ_append hTokens stop (close :: rest)
  simp only [List.cons_append, List.append_assoc,
    List.nil_append, cut, isCut, hOpening, parensAfter,
    hClose] at hInner ⊢
  simp [hInner]

------------------------------------------------------------
-- Delimited Sections
------------------------------------------------------------

/- Some sections, each behind a delimiter of its own. -/
inductive Delimited : List (List Token) → List Token → Prop where
  | none : Delimited [] []
  | some
      {delimiter : Token}
      {part rest : List Token}
      {parts : List (List Token)}
      (hDelimiter : delimiter.kind = .delimiter)
      (hPart : part ≠ [])
      (hUncut : Uncut part)
      (hRest : Delimited parts rest) :
      Delimited (part :: parts) (delimiter :: (part ++ rest))

/- Delimited sections stay so when put together. -/
theorem Delimited.append
    {first second : List (List Token)}
    {tokens others : List Token}
    (hFirst : Delimited first tokens)
    (hSecond : Delimited second others) :
    Delimited (first ++ second) (tokens ++ others) := by
  induction hFirst with
  | none => exact hSecond
  | some hDelimiter hPart hUncut hRest ih =>
      simp only [List.cons_append, List.append_assoc]
      exact .some hDelimiter hPart hUncut ih

/- Delimited sections start with a delimiter. -/
theorem Delimited.kind_of_head?
    {parts : List (List Token)}
    {tokens : List Token}
    (hTokens : Delimited parts tokens) :
    ∀ token ∈ tokens.head?, token.kind = .delimiter := by
  cases hTokens with
  | none => simp
  | some hDelimiter hPart hUncut hRest => simpa using hDelimiter

/- Nothing stands before the first delimiter. -/
theorem cut_of_delimited
    {parts : List (List Token)}
    {tokens : List Token}
    (hTokens : Delimited parts tokens)
    (stop : Nat) :
    (cut stop 0 tokens).1.tokens = [] ∧
      (cut stop 0 tokens).2.map Section.tokens = parts := by
  induction hTokens with
  | none => exact ⟨rfl, rfl⟩
  | some hDelimiter hPart hUncut hRest ih =>
      have hFirst := hUncut stop
      simp [cut, isCut, hDelimiter, hFirst, ih]

/- Delimited sections are cut where they were put together. -/
theorem tokens_split_of_delimited
    {parts : List (List Token)}
    {tokens : List Token}
    (hTokens : Delimited parts tokens)
    (stop : Nat) :
    (split stop tokens).map Section.tokens = parts := by
  have hCut := cut_of_delimited hTokens stop
  have hParts : ∀ part ∈ parts, part ≠ [] := by
    clear hCut
    induction hTokens with
    | none => simp
    | some hDelimiter hPart hUncut hRest ih =>
        simpa [hPart] using ih
  have hKept :
      (cut stop 0 tokens).2.filter
          (fun part => !part.tokens.isEmpty) =
        (cut stop 0 tokens).2 := by
    rw [List.filter_eq_self]
    intro part hPart
    have hNe :=
      hParts part.tokens
        (hCut.2 ▸ List.mem_map_of_mem hPart)
    simpa using hNe
  simp [split, hCut.1, hKept, hCut.2]

------------------------------------------------------------
-- Sections Of Any Tokens
------------------------------------------------------------

/- The sections of some tokens are parts of them. -/
theorem infix_of_cut
    (stop parens : Nat)
    (tokens : List Token) :
    (cut stop parens tokens).1.tokens <+: tokens ∧
      ∀ part ∈ (cut stop parens tokens).2,
        part.tokens <:+: tokens := by
  induction tokens generalizing parens with
  | nil => simp [cut]
  | cons token tokens ih =>
      simp only [cut]
      split
      · have hNext := ih 0
        refine ⟨List.nil_prefix, ?_⟩
        intro part hPart
        rcases List.mem_cons.mp hPart with rfl | hPart
        · exact hNext.1.isInfix.trans
            (List.suffix_cons token tokens).isInfix
        · exact (hNext.2 part hPart).trans
            (List.suffix_cons token tokens).isInfix
      · have hNext := ih (parensAfter parens token)
        refine ⟨?_, ?_⟩
        · simpa using hNext.1
        · intro part hPart
          exact (hNext.2 part hPart).trans
            (List.suffix_cons token tokens).isInfix

/- A section of some tokens is a part of them. -/
theorem infix_of_mem_split
    {stop : Nat}
    {tokens : List Token}
    {part : Section}
    (hPart : part ∈ split stop tokens) :
    part.tokens <:+: tokens := by
  have hCut := infix_of_cut stop 0 tokens
  simp only [split] at hPart
  have hMember := (List.mem_filter.mp hPart).1
  rcases List.mem_cons.mp hMember with rfl | hMember
  · exact hCut.1.isInfix
  · exact hCut.2 part hMember

end Section

end StatusEffect
