import StatusEffect.Text.Decimal
import StatusEffect.Text.Join

/-
  Structured values.

  A structured value is a JSON value whose objects keep the
  order of their members. A number is an integer, or a
  decimal fraction given by its digits and the number of
  them behind the point. Values are written either compactly
  or one item a line. In a string only the quotation mark,
  the backslash and the control characters are escaped.

  Key definitions include:
    * `Json`
    * `Json.quote`
    * `Json.compact`
    * `Json.pretty`
    * `Json.height`
-/

------------------------------------------------------------
-- Values
------------------------------------------------------------

namespace StatusEffect

open Text

/- A structured value. -/
inductive Json where
  | null
  | bool (value : Bool)
  | int (value : Int)
  | fraction (digits : Int) (places : Nat)
  | str (text : String)
  | arr (items : List Json)
  | obj (members : List (String × Json))
deriving Repr

namespace Json

/- The value of a word. -/
def word (n : UInt32) : Json :=
  .int n.toNat

/- The value of a natural number. -/
def nat (n : Nat) : Json :=
  .int n

/- The value of an optional item, null if there is none. -/
def option
    {α : Type}
    (write : α → Json) : Option α → Json
  | some value => write value
  | none => .null

------------------------------------------------------------
-- Numbers And Strings
------------------------------------------------------------

/- An integer in decimal digits. -/
def intText : Int → String
  | .ofNat n => decimal n
  | .negSucc n => "-" ++ decimal (n + 1)

/-
  The digits behind the point of a fraction, without trailing
  zeros but at least one of them.
-/
def placesText
    (fractional : Nat)
    (places : Nat) : List Char :=
  let digits := Nat.toDigits 10 fractional
  let padded :=
    List.replicate (places - digits.length) '0' ++ digits
  match (padded.reverse.dropWhile (· == '0')).reverse with
  | [] => ['0']
  | kept => kept

/- A decimal fraction, with at least one digit on each side. -/
def fractionText
    (digits : Int)
    (places : Nat) : String :=
  let sign := if digits < 0 then "-" else ""
  let scale := Nat.pow 10 places
  sign ++ decimal (digits.natAbs / scale) ++ "." ++
    String.ofList
      (placesText (digits.natAbs % scale) places)

/- A hexadecimal digit, in lower case. -/
def hexDigit (n : Nat) : Char :=
  Nat.digitChar (n % 16)

/- A character inside a string. -/
def escape (c : Char) : List Char :=
  if c.toNat = 0x22 then ['\\', '\x22']
  else if c.toNat = 0x5C then ['\\', '\\']
  else if c.toNat = 0x08 then ['\\', 'b']
  else if c.toNat = 0x09 then ['\\', 't']
  else if c.toNat = 0x0A then ['\\', 'n']
  else if c.toNat = 0x0C then ['\\', 'f']
  else if c.toNat = 0x0D then ['\\', 'r']
  else if c.toNat < 0x20 then
    ['\\', 'u', '0', '0', hexDigit (c.toNat / 16),
     hexDigit c.toNat]
  else
    [c]

/- A string in quotation marks. -/
def quote (text : String) : String :=
  String.ofList
    ('\x22' :: (text.toList.flatMap escape ++ ['\x22']))

------------------------------------------------------------
-- Compact Text
------------------------------------------------------------

mutual

/- A value without any blanks. -/
def compact : Json → String
  | .null => "null"
  | .bool true => "true"
  | .bool false => "false"
  | .int value => intText value
  | .fraction digits places => fractionText digits places
  | .str text => quote text
  | .arr items => "[" ++ compactItems items ++ "]"
  | .obj members =>
      "\x7b" ++ compactMembers members ++ "\x7d"

/- The items of an array, separated by commas. -/
def compactItems : List Json → String
  | [] => ""
  | [item] => item.compact
  | item :: next :: items =>
      item.compact ++ "," ++ compactItems (next :: items)

/- The members of an object, separated by commas. -/
def compactMembers : List (String × Json) → String
  | [] => ""
  | [(name, value)] => quote name ++ ":" ++ value.compact
  | (name, value) :: next :: members =>
      quote name ++ ":" ++ value.compact ++ "," ++
        compactMembers (next :: members)

end

------------------------------------------------------------
-- Indented Text
------------------------------------------------------------

/- A new line with two spaces for each level. -/
def newline (level : Nat) : String :=
  "\n" ++ spaces (2 * level)

mutual

/- A value with one item a line, from a level inwards. -/
def prettyFrom (level : Nat) : Json → String
  | .null => "null"
  | .bool true => "true"
  | .bool false => "false"
  | .int value => intText value
  | .fraction digits places => fractionText digits places
  | .str text => quote text
  | .arr [] => "[]"
  | .arr (item :: items) =>
      "[" ++ newline (level + 1) ++
        prettyItems (level + 1) (item :: items) ++
        newline level ++ "]"
  | .obj [] => "\x7b\x7d"
  | .obj (first :: members) =>
      "\x7b" ++ newline (level + 1) ++
        prettyMembers (level + 1) (first :: members) ++
        newline level ++ "\x7d"

/- The items of an array, one a line. -/
def prettyItems
    (level : Nat) : List Json → String
  | [] => ""
  | [item] => item.prettyFrom level
  | item :: next :: items =>
      item.prettyFrom level ++ "," ++ newline level ++
        prettyItems level (next :: items)

/- The members of an object, one a line. -/
def prettyMembers
    (level : Nat) : List (String × Json) → String
  | [] => ""
  | [(name, value)] =>
      quote name ++ ": " ++ value.prettyFrom level
  | (name, value) :: next :: members =>
      quote name ++ ": " ++ value.prettyFrom level ++ "," ++
        newline level ++ prettyMembers level (next :: members)

end

/- A value with one item a line. -/
def pretty (value : Json) : String :=
  value.prettyFrom 0

------------------------------------------------------------
-- Height
------------------------------------------------------------

mutual

/- The number of values on the longest way into a value. -/
def height : Json → Nat
  | .arr items => heightItems items + 1
  | .obj members => heightMembers members + 1
  | _ => 1

/- The greatest height of some values. -/
def heightItems : List Json → Nat
  | [] => 0
  | item :: items => max item.height (heightItems items)

/- The greatest height of the values of some members. -/
def heightMembers : List (String × Json) → Nat
  | [] => 0
  | (_, value) :: members =>
      max value.height (heightMembers members)

end

end Json

end StatusEffect
