import StatusEffect.Text.Range

/-
  Blank characters and the trimming of text.

  A blank is a character with the Unicode property
  White_Space. The property is given as a table of ranges,
  in code point order.

  Key definitions include:
    * `Text.isBlank`
    * `Text.trimmed`
    * `Text.trim`
    * `Text.isBlankText`
-/

------------------------------------------------------------
-- Blanks
------------------------------------------------------------

namespace StatusEffect

namespace Text

/- The ranges of the Unicode property White_Space. -/
def blankRanges : List (Nat × Nat) :=
  [(0x0009, 0x000D), (0x0020, 0x0020), (0x0085, 0x0085),
   (0x00A0, 0x00A0), (0x1680, 0x1680), (0x2000, 0x200A),
   (0x2028, 0x2029), (0x202F, 0x202F), (0x205F, 0x205F),
   (0x3000, 0x3000)]

/- The blank characters. -/
def isBlank (c : Char) : Bool :=
  inRanges blankRanges c.toNat

/- Characters without the leading and trailing blanks. -/
def trimmed (cs : List Char) : List Char :=
  ((cs.dropWhile isBlank).reverse.dropWhile isBlank).reverse

/- Text without its leading and trailing blanks. -/
def trim (text : String) : String :=
  String.ofList (trimmed text.toList)

/- Text that is empty once it is trimmed. -/
def isBlankText (text : String) : Bool :=
  text.toList.all isBlank

end Text

end StatusEffect
