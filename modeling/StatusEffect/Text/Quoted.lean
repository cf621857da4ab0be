import StatusEffect.Text.Combining
import StatusEffect.Text.Unassigned

/-
  Quoted text.

  A text is quoted with marks around it, so that it can be
  told apart from the message it stands in. The quotation
  mark, the backslash and the common control characters have
  short escapes. Characters that do not show by themselves
  are given by their code point: control, format and private
  characters, separators other than the space, fillers,
  unassigned code points, and marks that combine with the
  character before them.

  Key definitions include:
    * `Text.hiddenRanges`
    * `Text.fillerRanges`
    * `Text.shows`
    * `Text.quoted`
-/

------------------------------------------------------------
-- Characters That Show
------------------------------------------------------------

namespace StatusEffect

namespace Text

/- Control, format and private characters, and separators. -/
def hiddenRanges : List (Nat × Nat) :=
  [(0x0000, 0x001F), (0x007F, 0x00A0), (0x00AD, 0x00AD),
   (0x0600, 0x0605), (0x061C, 0x061C), (0x06DD, 0x06DD),
   (0x070F, 0x070F), (0x0890, 0x0891), (0x08E2, 0x08E2),
   (0x1680, 0x1680), (0x180E, 0x180E), (0x2000, 0x200F),
   (0x2028, 0x202F), (0x205F, 0x2064), (0x2066, 0x206F),
   (0x3000, 0x3000), (0xE000, 0xF8FF), (0xFEFF, 0xFEFF),
   (0xFFF9, 0xFFFB), (0x110BD, 0x110BD), (0x110CD, 0x110CD),
   (0x13430, 0x1343F), (0x1BCA0, 0x1BCA3),
   (0x1D173, 0x1D17A), (0xE0001, 0xE0001),
   (0xE0020, 0xE007F), (0xF0000, 0xFFFFD),
   (0x100000, 0x10FFFD)]

/-
  The letters that stand for the absence of one. They are
  the letters with Default_Ignorable_Code_Point; the other
  characters with it are hidden, combining or unassigned.
-/
def fillerRanges : List (Nat × Nat) :=
  [(0x115F, 0x1160), (0x3164, 0x3164), (0xFFA0, 0xFFA0)]

/- A character that shows by itself. -/
def shows (c : Char) : Bool :=
  !(inRanges hiddenRanges c.toNat ||
    inRanges fillerRanges c.toNat ||
    isCombining c ||
    isUnassigned c)

------------------------------------------------------------
-- Quoting
------------------------------------------------------------

/- A character as it stands between quotation marks. -/
def quotedChar (c : Char) : List Char :=
  if c.toNat = 0x00 then ['\\', '0']
  else if c.toNat = 0x09 then ['\\', 't']
  else if c.toNat = 0x0A then ['\\', 'n']
  else if c.toNat = 0x0D then ['\\', 'r']
  else if c.toNat = 0x22 then ['\\', '\x22']
  else if c.toNat = 0x5C then ['\\', '\\']
  else if shows c then [c]
  else
    ['\\', 'u', '\x7b'] ++ Nat.toDigits 16 c.toNat ++ ['\x7d']

/- A text between quotation marks. -/
def quoted (text : String) : String :=
  String.ofList
    ('\x22' :: (text.toList.flatMap quotedChar ++ ['\x22']))

end Text

end StatusEffect
