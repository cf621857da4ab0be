import StatusEffect.Text.Digit

/-
  Hexadecimal numerals.

  Key definitions include:
    * `Text.hexValue?`
    * `Text.scalar?`
-/

------------------------------------------------------------
-- Hexadecimal Digits
------------------------------------------------------------

namespace StatusEffect

namespace Text

/- The value of a hexadecimal digit. -/
def hexValue? (c : Char) : Option Nat :=
  if isAsciiDigit c then some (c.toNat - 0x30)
  else if 0x61 ≤ c.toNat ∧ c.toNat ≤ 0x66 then
    some (c.toNat - 0x57)
  else if 0x41 ≤ c.toNat ∧ c.toNat ≤ 0x46 then
    some (c.toNat - 0x37)
  else none

/- The character of a code point in hexadecimal digits. -/
def scalar? (digits : List Char) : Option Char := do
  let values ← digits.mapM hexValue?
  let point := values.foldl (fun n d => 16 * n + d) 0
  if point.isValidChar then some (Char.ofNat point) else none

end Text

end StatusEffect
