import StatusEffect.Pattern.Mode
import StatusEffect.Text.Hexadecimal

/-
  Escapes of a pattern.

  A backslash gives a sign its plain meaning, or a letter a
  special one: a character by its code point, a class of
  characters, or an anchor. References to groups are not
  known. Boundaries of words are known for ASCII only, and
  the classes that hold bytes outside ASCII for Unicode
  only.

  Key definitions include:
    * `Pattern.Atom`
    * `Pattern.escape?`
-/

------------------------------------------------------------
-- Characters
------------------------------------------------------------

namespace StatusEffect

open Text

namespace Pattern

/- What an escape or a single character stands for. -/
inductive Atom where
  | literal (char : Char)
  | set
  | anchor
deriving DecidableEq, Repr

/- An ASCII character. -/
def isAscii (c : Char) : Bool :=
  c.toNat < 0x80

/- A character that stands for itself behind a backslash. -/
def isEscapable (c : Char) : Bool :=
  isAscii c &&
    !(isLetter c || isAsciiDigit c || c == '<' || c == '>')

/- The character of a short escape. -/
def control? : Char → Option Char
  | 'a' => some '\x07'
  | 'f' => some '\x0c'
  | 't' => some '\t'
  | 'n' => some '\n'
  | 'r' => some '\r'
  | 'v' => some '\x0b'
  | _ => none

/- Some hexadecimal digits, and what follows them. -/
def hexDigits?
    (mode : Mode) :
    Nat → List Char → Option (List Char × List Char)
  | 0, cs => some ([], cs)
  | count + 1, cs =>
      match skip mode cs with
      | c :: rest => do
          let (digits, rest) ← hexDigits? mode count rest
          some (c :: digits, rest)
      | [] => none

/- A character by its code point. -/
def codePoint?
    (mode : Mode)
    (count : Nat)
    (cs : List Char) : Option (Atom × List Char) := do
  let (digits, rest) ← hexDigits? mode count cs
  let char ← scalar? digits
  some (.literal char, rest)

/- A character by the two digits of a byte. -/
def byte?
    (mode : Mode)
    (cs : List Char) : Option (Atom × List Char) := do
  let (atom, rest) ← codePoint? mode 2 cs
  match atom with
  | .literal c =>
      if mode.unicode || isAscii c then some (atom, rest)
      else none
  | _ => none

------------------------------------------------------------
-- Classes
------------------------------------------------------------

/- The letters of the general categories. -/
def categoryLetters : List Char :=
  ['C', 'L', 'M', 'N', 'P', 'S', 'Z',
   'c', 'l', 'm', 'n', 'p', 's', 'z']

/- The class of a general category, by its letter. -/
def category?
    (mode : Mode)
    (cs : List Char) : Option (Atom × List Char) :=
  match skip mode cs with
  | c :: rest =>
      if mode.unicode && categoryLetters.contains c then
        some (.set, rest)
      else
        none
  | [] => none

/- What an escape stands for, after its backslash. -/
def escape?
    (mode : Mode) :
    List Char → Option (Atom × List Char)
  | [] => none
  | 'x' :: rest => byte? mode rest
  | 'u' :: rest => codePoint? mode 4 rest
  | 'U' :: rest => codePoint? mode 8 rest
  | 'p' :: rest => category? mode rest
  | 'P' :: rest => category? mode rest
  | c :: rest =>
      if ['d', 's', 'w'].contains c then
        some (.set, rest)
      else if ['D', 'S', 'W'].contains c then
        if mode.unicode then some (.set, rest) else none
      else if ['A', 'z'].contains c then
        some (.anchor, rest)
      else if ['b', 'B', '<', '>'].contains c then
        if mode.unicode then none else some (.anchor, rest)
      else if isEscapable c then
        some (.literal c, rest)
      else do
        let char ← control? c
        some (.literal char, rest)

end Pattern

end StatusEffect
