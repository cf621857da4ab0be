import StatusEffect.Text.Digit

/-
  Decimal numerals.

  Numbers of the notation are 32-bit words. They are written
  without leading zeros, and read from any non-empty run of
  ASCII digits whose value fits, with an optional plus sign
  in front.

  Key definitions include:
    * `Text.decimal`
    * `Text.digitsValue`
    * `Text.wordOfNumeral?`
-/

namespace StatusEffect

namespace Text

/- The decimal numeral of a number. -/
def decimal (n : Nat) : String :=
  String.ofList (Nat.toDigits 10 n)

/- The decimal numeral of a word. -/
def wordDecimal (n : UInt32) : String :=
  decimal n.toNat

/- The value of a run of ASCII digits, most significant first. -/
def digitsValue (digits : List Char) : Nat :=
  digits.foldl (fun n c => 10 * n + (c.toNat - 0x30)) 0

/- The characters of a numeral after an optional plus sign. -/
def unsigned : List Char → List Char
  | '+' :: digits => digits
  | digits => digits

/-
  The word that a numeral stands for, if the numeral is
  well formed and its value fits in 32 bits.
-/
def wordOfNumeral? (numeral : String) : Option UInt32 :=
  let digits := unsigned numeral.toList
  if digits ≠ [] ∧ digits.all isAsciiDigit = true ∧
      digitsValue digits < UInt32.size then
    some (UInt32.ofNat (digitsValue digits))
  else
    none

end Text

end StatusEffect
