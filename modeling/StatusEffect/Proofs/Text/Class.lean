import StatusEffect.Text.Decimal
import StatusEffect.Token.Mode

/-
  Classes of characters, where their runs stop, and numerals.

  A lexeme ends with a run of one class, so what it is depends
  on the character behind it. Below the other scripts the
  decimal digits are those of ASCII. The numeral of a word is
  a run of such digits and is read back as the same word.

  Key definitions include:
    * `Text.Stops`
    * `Text.startsSmall`

  Key theorems include:
    * `Text.takeWhile_append_of_stops`
    * `Text.isDecimalDigit_of_lt`
    * `Text.wordOfNumeral?_wordDecimal`
-/

------------------------------------------------------------
-- Runs
------------------------------------------------------------

namespace StatusEffect

namespace Text

/- A text is empty, or its first character is of no class. -/
def Stops
    (accepts : Char → Bool)
    (rest : List Char) : Prop :=
  ∀ c ∈ rest.head?, accepts c = false

@[simp]
theorem stops_nil
    (accepts : Char → Bool) :
    Stops accepts [] := by
  simp [Stops]

@[simp]
theorem stops_cons
    (accepts : Char → Bool)
    (c : Char)
    (rest : List Char) :
    Stops accepts (c :: rest) ↔ accepts c = false := by
  simp [Stops]

/- Two small letters at the head of a text. -/
def startsSmall : List Char → Bool
  | c :: d :: _ => isLower c && isLower d
  | _ => false

/- A text stops a class that its first character is not in. -/
theorem stops_of_cons
    {accepts : Char → Bool}
    {c : Char}
    {rest : List Char}
    (hFirst : accepts c = false) :
    Stops accepts (c :: rest) := by
  simpa using hFirst

/- A run is taken whole, and nothing behind it. -/
theorem takeWhile_append_of_stops
    {accepts : Char → Bool}
    {run rest : List Char}
    (hRun : run.all accepts = true)
    (hRest : Stops accepts rest) :
    (run ++ rest).takeWhile accepts = run := by
  rw [List.takeWhile_append_of_pos (by simpa using hRun)]
  cases rest with
  | nil => simp
  | cons c rest => simp_all

/- What is left of a run is what stands behind it. -/
theorem dropWhile_append_of_stops
    {accepts : Char → Bool}
    {run rest : List Char}
    (hRun : run.all accepts = true)
    (hRest : Stops accepts rest) :
    (run ++ rest).dropWhile accepts = rest := by
  rw [List.dropWhile_append_of_pos (by simpa using hRun)]
  cases rest with
  | nil => simp
  | cons c rest => simp_all

/- A class without characters has no runs. -/
@[simp]
theorem takeWhile_false
    (cs : List Char) :
    cs.takeWhile (fun _ => false) = [] := by
  cases cs <;> rfl

@[simp]
theorem dropWhile_false
    (cs : List Char) :
    cs.dropWhile (fun _ => false) = cs := by
  cases cs <;> rfl

------------------------------------------------------------
-- Classes
------------------------------------------------------------

/- The decimal digits before those of other scripts. -/
theorem isDecimalDigit_of_lt
    {c : Char}
    (hLow : c.toNat < 0x660) :
    isDecimalDigit c = isAsciiDigit c := by
  have hLater :
      ∀ start ∈ digitZeros.tail, 0x660 ≤ start := by
    decide
  have hZeros : digitZeros = 0x30 :: digitZeros.tail := rfl
  have hNone :
      (digitZeros.tail.any fun start =>
        decide (start ≤ c.toNat) &&
          decide (c.toNat < start + 10)) = false := by
    rw [List.any_eq_false]
    intro start hStart
    have hBound := hLater start hStart
    simp only [Bool.and_eq_true, decide_eq_true_eq, not_and]
    omega
  unfold isDecimalDigit isAsciiDigit
  rw [hZeros, List.any_cons, hNone, Bool.or_false]
  congr 1
  simp only [decide_eq_decide]
  omega

/- The digits of ASCII are decimal digits. -/
theorem isDecimalDigit_of_isAsciiDigit
    {c : Char}
    (hDigit : isAsciiDigit c = true) :
    isDecimalDigit c = true := by
  have hRange := hDigit
  simp only [isAsciiDigit, Bool.and_eq_true,
    decide_eq_true_eq] at hRange
  rw [isDecimalDigit_of_lt (by omega)]
  exact hDigit

/- A letter is an ASCII character other than a digit. -/
theorem isDecimalDigit_of_isNameStart
    {c : Char}
    (hStart : isNameStart c = true) :
    isDecimalDigit c = false := by
  simp only [isNameStart, isLetter, isUpper, isLower,
    Bool.or_eq_true, Bool.and_eq_true, decide_eq_true_eq,
    beq_iff_eq] at hStart
  rcases hStart with (hUpper | hLower) | rfl
  · rw [isDecimalDigit_of_lt (by omega)]
    simp only [isAsciiDigit, Bool.and_eq_false_iff,
      decide_eq_false_iff_not]
    omega
  · rw [isDecimalDigit_of_lt (by omega)]
    simp only [isAsciiDigit, Bool.and_eq_false_iff,
      decide_eq_false_iff_not]
    omega
  · decide

/- What starts a name can also continue it. -/
theorem isNameChar_of_isNameStart
    {c : Char}
    (hStart : isNameStart c = true) :
    isNameChar c = true := by
  simp only [isNameStart, isNameChar, Bool.or_eq_true] at *
  rcases hStart with hLetter | hLow
  · exact .inl (.inl hLetter)
  · exact .inr hLow

------------------------------------------------------------
-- Numerals
------------------------------------------------------------

/- A numeral is a run of ASCII digits. -/
theorem all_isAsciiDigit_wordDecimal
    (n : UInt32) :
    (wordDecimal n).toList.all isAsciiDigit = true := by
  rw [List.all_eq_true]
  intro c hDigit
  simp only [wordDecimal, decimal,
    String.toList_ofList] at hDigit
  have hClass :=
    Nat.isDigit_of_mem_toDigits (by decide) (by decide)
      hDigit
  simp only [Char.isDigit, Bool.and_eq_true,
    decide_eq_true_eq, UInt32.le_iff_toNat_le] at hClass
  simpa [isAsciiDigit] using hClass

/- A numeral has at least one digit. -/
theorem wordDecimal_ne_nil
    (n : UInt32) :
    (wordDecimal n).toList ≠ [] := by
  simp [wordDecimal, decimal, Nat.toDigits_ne_nil]

/- A numeral starts with an ASCII digit. -/
theorem exists_wordDecimal_eq
    (n : UInt32) :
    ∃ c cs,
      (wordDecimal n).toList = c :: cs ∧
        isAsciiDigit c = true ∧
          cs.all isAsciiDigit = true := by
  have hDigits := all_isAsciiDigit_wordDecimal n
  cases hNumeral : (wordDecimal n).toList with
  | nil => exact absurd hNumeral (wordDecimal_ne_nil n)
  | cons c cs =>
      simp only [hNumeral, List.all_cons,
        Bool.and_eq_true] at hDigits
      exact ⟨c, cs, rfl, hDigits⟩

/- The numeral of a word is read back. -/
theorem wordOfNumeral?_wordDecimal
    (n : UInt32) :
    wordOfNumeral? (wordDecimal n) = some n := by
  rcases exists_wordDecimal_eq n with
    ⟨c, cs, hNumeral, hFirst, _⟩
  have hUnsigned :
      unsigned (wordDecimal n).toList =
        (wordDecimal n).toList := by
    rw [hNumeral]
    unfold unsigned
    split
    · rename_i digits hPlus
      rw [(List.cons.inj hPlus).1] at hFirst
      simp [isAsciiDigit] at hFirst
    · rfl
  have hValue :
      digitsValue (wordDecimal n).toList = n.toNat := by
    simp only [wordDecimal, decimal, String.toList_ofList]
    exact Nat.ofDigitChars_ten_toDigits
  have hDigits := all_isAsciiDigit_wordDecimal n
  simp only [wordOfNumeral?, hUnsigned, hValue, hDigits]
  rw [if_pos ⟨wordDecimal_ne_nil n, trivial, n.toNat_lt⟩]
  simp

end Text

end StatusEffect
