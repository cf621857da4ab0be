import StatusEffect.Json.Basic

/-
  What the text of a string keeps.

  In a quoted string a character stands for itself, except
  for the quotation mark, the backslash and the characters
  before the space, which a backslash announces. No escape
  begins another one. So a quoted string is read in one way
  only, whatever stands behind it.

  Key definitions include:
    * `Json.IsEscaped`
    * `Json.escapeLetters`

  Key theorems include:
    * `Json.escape_of_not_isEscaped`
    * `Json.escape_cases`
    * `Json.exists_escape_of_isEscaped`
    * `Json.eq_of_isPrefix_escape`
    * `Json.quote_append_inj`
-/

------------------------------------------------------------
-- Characters
------------------------------------------------------------

namespace StatusEffect

namespace Json

/- The characters that do not stand for themselves. -/
def IsEscaped (c : Char) : Prop :=
  c = '\x22' ∨ c = '\\' ∨ c.toNat < 0x20

instance : DecidablePred IsEscaped :=
  fun c =>
    inferInstanceAs
      (Decidable (c = '\x22' ∨ c = '\\' ∨ c.toNat < 0x20))

/- All other characters are written as they are. -/
theorem escape_of_not_isEscaped
    {c : Char}
    (hPlain : ¬ IsEscaped c) :
    escape c = [c] := by
  simp only [IsEscaped, not_or, Nat.not_lt] at hPlain
  have hMark : c.toNat ≠ 0x22 :=
    fun hSame => hPlain.1 (Char.toNat_inj.mp hSame)
  have hBackslash : c.toNat ≠ 0x5C :=
    fun hSame => hPlain.2.1 (Char.toNat_inj.mp hSame)
  have hSpace := hPlain.2.2
  unfold escape
  repeat rw [if_neg (by omega)]

/- The letters that announce a character, and which one. -/
def escapeLetters : List (Char × Char) :=
  [('\x22', '\x22'), ('\\', '\\'), ('b', '\x08'),
   ('t', '\x09'), ('n', '\x0A'), ('f', '\x0C'),
   ('r', '\x0D')]

/-
  An escape is a letter that announces one character, or the
  code of the character in two digits.
-/
theorem escape_cases
    {c : Char}
    (hEscaped : IsEscaped c) :
    (∃ letter,
      (letter, c) ∈ escapeLetters ∧
        escape c = ['\\', letter]) ∨
      c.toNat < 0x20 ∧
        escape c =
          ['\\', 'u', '0', '0', hexDigit (c.toNat / 16),
           hexDigit c.toNat] := by
  by_cases hLetter : c ∈ escapeLetters.map Prod.snd
  · rcases List.mem_map.mp hLetter with
      ⟨⟨letter, _⟩, hPair, rfl⟩
    have hEscapes :
        ∀ pair ∈ escapeLetters,
          escape pair.2 = ['\\', pair.1] := by
      decide
    exact .inl ⟨letter, hPair, hEscapes _ hPair⟩
  · have hOther :
        ∀ d ∈ escapeLetters.map Prod.snd,
          c.toNat ≠ d.toNat := by
      intro d hChar hSame
      rw [Char.toNat_inj.mp hSame] at hLetter
      exact hLetter hChar
    have hControl : c.toNat < 0x20 := by
      rcases hEscaped with rfl | rfl | hControl
      · exact absurd rfl (hOther _ (by decide))
      · exact absurd rfl (hOther _ (by decide))
      · exact hControl
    refine .inr ⟨hControl, ?_⟩
    have hCodes :
        c.toNat ∉
          [0x22, 0x5C, 0x08, 0x09, 0x0A, 0x0C, 0x0D] := by
      simpa [escapeLetters] using hOther
    simp only [List.mem_cons, List.not_mem_nil, or_false,
      not_or] at hCodes
    simp [escape, hControl, hCodes]

/- An escaped character starts with a backslash. -/
theorem exists_escape_of_isEscaped
    {c : Char}
    (hEscaped : IsEscaped c) :
    ∃ rest, escape c = '\\' :: rest := by
  rcases escape_cases hEscaped with
    ⟨letter, _, hEscape⟩ | ⟨_, hEscape⟩
  · exact ⟨_, hEscape⟩
  · exact ⟨_, hEscape⟩

/- Hexadecimal digits of different numbers are different. -/
theorem mod_eq_of_hexDigit_eq
    {m n : Nat}
    (hSame : hexDigit m = hexDigit n) :
    m % 16 = n % 16 := by
  have hDigits :
      ∀ m < 16, ∀ n < 16,
        Nat.digitChar m = Nat.digitChar n → m = n := by
    decide
  exact
    hDigits _ (Nat.mod_lt m (by decide)) _
      (Nat.mod_lt n (by decide)) hSame

/- No escape begins one of another character. -/
theorem eq_of_isPrefix_of_isEscaped
    {c d : Char}
    (hFirst : IsEscaped c)
    (hSecond : IsEscaped d)
    (hPrefix : escape c <+: escape d) :
    c = d := by
  have hLetters :
      ∀ first ∈ escapeLetters, ∀ second ∈ escapeLetters,
        first.1 = second.1 → first.2 = second.2 := by
    decide
  have hCode : ∀ pair ∈ escapeLetters, pair.1 ≠ 'u' := by
    decide
  rcases escape_cases hFirst with
    ⟨letter, hLetter, hEscape⟩ | ⟨_, hEscape⟩
  · rcases escape_cases hSecond with
      ⟨other, hOther, hSame⟩ | ⟨_, hSame⟩
    · rw [hEscape, hSame] at hPrefix
      have hMark : letter = other := by simpa using hPrefix
      exact hLetters _ hLetter _ hOther hMark
    · rw [hEscape, hSame] at hPrefix
      have hMark : letter = 'u' := by simpa using hPrefix
      exact absurd hMark (hCode _ hLetter)
  · rcases escape_cases hSecond with
      ⟨other, hOther, hSame⟩ | ⟨_, hSame⟩
    · rw [hEscape, hSame] at hPrefix
      simp at hPrefix
    · rw [hEscape, hSame] at hPrefix
      simp only [List.cons_prefix_cons] at hPrefix
      rcases hPrefix with ⟨_, _, _, _, hTens, hUnit, _⟩
      have hHigh := mod_eq_of_hexDigit_eq hTens
      have hLow := mod_eq_of_hexDigit_eq hUnit
      exact Char.toNat_inj.mp (by omega)

/- What stands for a character begins that of no other one. -/
theorem eq_of_isPrefix_escape
    {c d : Char}
    (hPrefix : escape c <+: escape d) :
    c = d := by
  by_cases hFirst : IsEscaped c
  · by_cases hSecond : IsEscaped d
    · exact
        eq_of_isPrefix_of_isEscaped hFirst hSecond hPrefix
    · rcases exists_escape_of_isEscaped hFirst with
        ⟨rest, hEscape⟩
      rw [hEscape, escape_of_not_isEscaped hSecond] at hPrefix
      simp only [List.cons_prefix_cons] at hPrefix
      exact absurd (.inr (.inl hPrefix.1.symm)) hSecond
  · rw [escape_of_not_isEscaped hFirst] at hPrefix
    by_cases hSecond : IsEscaped d
    · rcases exists_escape_of_isEscaped hSecond with
        ⟨rest, hEscape⟩
      rw [hEscape, List.cons_prefix_cons] at hPrefix
      exact absurd (.inr (.inl hPrefix.1)) hFirst
    · rw [escape_of_not_isEscaped hSecond,
        List.cons_prefix_cons] at hPrefix
      exact hPrefix.1

/- An escape is read in one way, whatever follows it. -/
theorem escape_append_inj
    {c d : Char}
    {rest other : List Char}
    (hSame : escape c ++ rest = escape d ++ other) :
    c = d ∧ rest = other := by
  have hFirst : escape c <+: escape d ++ other :=
    hSame ▸ List.prefix_append _ _
  have hSecond : escape d <+: escape d ++ other :=
    List.prefix_append _ _
  have hChars : c = d := by
    rcases List.prefix_or_prefix_of_prefix hFirst hSecond with
      hPrefix | hPrefix
    · exact eq_of_isPrefix_escape hPrefix
    · exact (eq_of_isPrefix_escape hPrefix).symm
  subst hChars
  exact ⟨rfl, List.append_cancel_left hSame⟩

/- A quotation mark is no escape, nor the start of one. -/
theorem escape_append_ne_mark
    (c : Char)
    (rest other : List Char) :
    escape c ++ rest ≠ '\x22' :: other := by
  by_cases hEscaped : IsEscaped c
  · rcases exists_escape_of_isEscaped hEscaped with
      ⟨more, hEscape⟩
    rw [hEscape]
    simp
  · rw [escape_of_not_isEscaped hEscaped]
    intro hSame
    rw [List.singleton_append, List.cons.injEq] at hSame
    exact hEscaped (.inl hSame.1)

------------------------------------------------------------
-- Strings
------------------------------------------------------------

/- The inside of a string is read up to its quotation mark. -/
theorem flatMap_escape_append_inj
    {first second rest other : List Char}
    (hSame :
      first.flatMap escape ++ '\x22' :: rest =
        second.flatMap escape ++ '\x22' :: other) :
    first = second ∧ rest = other := by
  induction first generalizing second with
  | nil =>
      cases second with
      | nil => exact ⟨rfl, List.tail_eq_of_cons_eq hSame⟩
      | cons d second =>
          rw [List.flatMap_cons, List.append_assoc] at hSame
          exact
            absurd hSame.symm (escape_append_ne_mark d _ _)
  | cons c first ih =>
      rw [List.flatMap_cons, List.append_assoc] at hSame
      cases second with
      | nil =>
          exact absurd hSame (escape_append_ne_mark c _ _)
      | cons d second =>
          rw [List.flatMap_cons, List.append_assoc] at hSame
          rcases escape_append_inj hSame with ⟨rfl, hRest⟩
          rcases ih hRest with ⟨rfl, hOther⟩
          exact ⟨rfl, hOther⟩

/-
  A quoted string is read in one way, whatever follows it: no
  two strings have the same text.
-/
theorem quote_append_inj
    {first second rest other : String}
    (hSame :
      quote first ++ rest = quote second ++ other) :
    first = second ∧ rest = other := by
  have hChars := congrArg String.toList hSame
  simp only [quote, String.toList_append, String.toList_ofList,
    List.cons_append, List.append_assoc, List.nil_append,
    List.cons.injEq, true_and] at hChars
  rcases flatMap_escape_append_inj hChars with ⟨hText, hRest⟩
  exact
    ⟨String.toList_inj.mp hText, String.toList_inj.mp hRest⟩

end Json

end StatusEffect
