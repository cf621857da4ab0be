/-
  Decimal digits of every script.

  The Unicode category Nd comes in runs of ten consecutive
  code points, the digits zero to nine of one script, so the
  table lists only where each run starts. Numerals of the
  notation are read from ASCII digits alone; the wider class
  decides where a number token ends.

  Key definitions include:
    * `Text.digitZeros`
    * `Text.isDecimalDigit`
    * `Text.isAsciiDigit`
    * `Text.isUpper`
    * `Text.isLower`
    * `Text.isLetter`
-/

------------------------------------------------------------
-- Decimal Digits
------------------------------------------------------------

namespace StatusEffect

namespace Text

/- The digit zero of every script that has decimal digits. -/
def digitZeros : List Nat :=
  [0x00030, 0x00660, 0x006F0, 0x007C0, 0x00966, 0x009E6, 0x00A66,
   0x00AE6, 0x00B66, 0x00BE6, 0x00C66, 0x00CE6, 0x00D66, 0x00DE6,
   0x00E50, 0x00ED0, 0x00F20, 0x01040, 0x01090, 0x017E0, 0x01810,
   0x01946, 0x019D0, 0x01A80, 0x01A90, 0x01B50, 0x01BB0, 0x01C40,
   0x01C50, 0x0A620, 0x0A8D0, 0x0A900, 0x0A9D0, 0x0A9F0, 0x0AA50,
   0x0ABF0, 0x0FF10, 0x104A0, 0x10D30, 0x10D40, 0x11066, 0x110F0,
   0x11136, 0x111D0, 0x112F0, 0x11450, 0x114D0, 0x11650, 0x116C0,
   0x116D0, 0x116DA, 0x11730, 0x118E0, 0x11950, 0x11BF0, 0x11C50,
   0x11D50, 0x11DA0, 0x11F50, 0x16130, 0x16A60, 0x16AC0, 0x16B50,
   0x16D70, 0x1CCF0, 0x1D7CE, 0x1D7D8, 0x1D7E2, 0x1D7EC, 0x1D7F6,
   0x1E140, 0x1E2F0, 0x1E4F0, 0x1E5F1, 0x1E950, 0x1FBF0]

/- A decimal digit of some script. -/
def isDecimalDigit (c : Char) : Bool :=
  digitZeros.any fun start =>
    start ≤ c.toNat && c.toNat < start + 10

------------------------------------------------------------
-- ASCII Classes
------------------------------------------------------------

/- A digit from `0` to `9`. -/
def isAsciiDigit (c : Char) : Bool :=
  0x30 ≤ c.toNat && c.toNat ≤ 0x39

/- A letter from `A` to `Z`. -/
def isUpper (c : Char) : Bool :=
  0x41 ≤ c.toNat && c.toNat ≤ 0x5A

/- A letter from `a` to `z`. -/
def isLower (c : Char) : Bool :=
  0x61 ≤ c.toNat && c.toNat ≤ 0x7A

/- An ASCII letter of either case. -/
def isLetter (c : Char) : Bool :=
  isUpper c || isLower c

end Text

end StatusEffect
