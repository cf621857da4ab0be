import StatusEffect.Text.Blank

/-
  How a pattern is read.

  A pattern is a regular expression. This library matches
  nothing with it; a pattern only has to be well formed, and
  not nested too deeply.

  The mode that a pattern is read in can change inside it.
  Blanks and comments stand for themselves, or are skipped.
  Characters are those of Unicode, or of ASCII.

  Key definitions include:
    * `Pattern.Mode`
    * `Pattern.skip`
    * `Pattern.peek`
    * `Pattern.joined`
-/

------------------------------------------------------------
-- Modes
------------------------------------------------------------

namespace StatusEffect

open Text

namespace Pattern

/- How a pattern is read from some place on. -/
structure Mode where
  spaced : Bool := false
  unicode : Bool := true
deriving DecidableEq, Repr

/-
  A text without leading blanks and comments. A comment goes
  on to the end of its line; the truth value tells that the
  text starts inside one.
-/
def skipSpace : Bool → List Char → List Char
  | _, [] => []
  | true, c :: cs => skipSpace (c != '\n') cs
  | false, c :: cs =>
      if isBlank c then skipSpace false cs
      else if c == '#' then skipSpace true cs
      else c :: cs

/- A text without what its mode skips. -/
def skip
    (mode : Mode)
    (cs : List Char) : List Char :=
  if mode.spaced then skipSpace false cs else cs

/-
  The next character of a text. Where blanks are skipped, so
  is the sign of a comment, but not the comment itself.
-/
def peek
    (mode : Mode)
    (cs : List Char) : Option Char :=
  if mode.spaced then
    match cs.dropWhile isBlank with
    | '#' :: rest => (rest.dropWhile isBlank).head?
    | rest => rest.head?
  else
    cs.head?

------------------------------------------------------------
-- Nesting
------------------------------------------------------------

/- The number of levels that a pattern may have. -/
def maxHeight : Nat := 250

/-
  The height of parts that stand together. One part is not
  joined with anything and adds no level.
-/
def joined : List Nat → Nat
  | [] => 0
  | [height] => height
  | heights => heights.foldl max 0 + 1

end Pattern

end StatusEffect
