/-
  Text as UTF-8 bytes.

  Every position in a text is a byte offset, while columns
  count characters. Input comes as bytes, cut into lines
  before it is decoded.

  Key definitions include:
    * `Text.byteLength`
    * `Text.charsBefore?`
    * `Text.encode`
    * `Text.decode?`
    * `Text.lines`
-/

------------------------------------------------------------
-- Byte Offsets
------------------------------------------------------------

namespace StatusEffect

namespace Text

/- The number of bytes of a list of characters. -/
def byteLength : List Char → Nat
  | [] => 0
  | c :: cs => c.utf8Size + byteLength cs

/-
  How many characters stand before a byte offset. There is
  an answer only for an offset on a character boundary.
-/
def charsBefore? : List Char → Nat → Option Nat
  | _, 0 => some 0
  | [], _ + 1 => none
  | c :: cs, offset + 1 =>
      if c.utf8Size ≤ offset + 1 then
        (charsBefore? cs (offset + 1 - c.utf8Size)).map
          (· + 1)
      else
        none

/-
  The column of a byte offset. An offset outside the text or
  inside a character has the column just past the text.
-/
def column
    (text : List Char)
    (offset : Nat) : Nat :=
  (charsBefore? text offset).getD text.length

------------------------------------------------------------
-- Encoded Text
------------------------------------------------------------

/- A text as it is stored in a file or sent to a stream. -/
abbrev Bytes := List UInt8

/- The UTF-8 bytes of a text. -/
def encode (text : String) : Bytes :=
  text.toUTF8.data.toList

/- The text that some bytes encode, if they are UTF-8. -/
def decode? (bytes : Bytes) : Option String :=
  String.fromUTF8? ⟨bytes.toArray⟩

/- The byte that ends a line. -/
def lineFeed : UInt8 := 0x0A

/-
  The lines of some bytes, without the bytes that end them.
  A last line that no line feed ends is a line if it is not
  empty.
-/
def lines : Bytes → List Bytes
  | [] => []
  | byte :: bytes =>
      if byte = lineFeed then
        [] :: lines bytes
      else
        match lines bytes with
        | [] => [[byte]]
        | line :: rest => (byte :: line) :: rest

end Text

end StatusEffect
