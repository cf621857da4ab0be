import StatusEffect.Pattern.Set
import StatusEffect.Text.Alphanumeric

/-
  Well-formed patterns.

  A pattern is a choice between sequences of pieces. A piece
  is a character, an escape, a set, a group or a repetition
  of another piece; flags in a group of their own change the
  mode up to the end of the group around them. A count in
  braces is no repetition here: patterns stand in braces
  themselves, so the count would have no closing one.

  Key definitions include:
    * `Pattern.Piece`
    * `Pattern.groupStart?`
    * `Pattern.Reading`
    * `Pattern.isWellFormed`
-/

------------------------------------------------------------
-- Groups
------------------------------------------------------------

namespace StatusEffect

open Text

namespace Pattern

/- The start of a group, or flags without a group. -/
structure GroupStart where
  opens : Bool
  mode : Mode
  name : Option (List Char) := none
deriving DecidableEq, Repr

/- The name of a group. -/
def isGroupName : List Char → Bool
  | [] => false
  | c :: cs =>
      (c == '_' || isAlphabetic c) &&
        cs.all fun c =>
          ['_', '.', '[', ']'].contains c || isAlphanumeric c

/- The start of a group with a name, at that name. -/
def namedStart?
    (mode : Mode)
    (names : List (List Char))
    (cs : List Char) : Option (GroupStart × List Char) :=
  let name := cs.takeWhile (· != '>')
  match cs.dropWhile (· != '>') with
  | '>' :: rest =>
      if isGroupName name && !names.contains name then
        some ({ opens := true, mode, name := some name }, rest)
      else
        none
  | _ => none

/- The letters of the flags, and the sign that clears them. -/
def flagLetters : List Char :=
  ['i', 'm', 's', 'U', 'u', 'R', 'x', '-']

/- Flags, none of them twice, and some behind the sign. -/
def areFlags (flags : List Char) : Bool :=
  flags.all flagLetters.contains && decide flags.Nodup &&
    flags.getLast? != some '-'

/- A flag after others were set and cleared. -/
def flagAfter
    (letter : Char)
    (flags : List Char)
    (before : Bool) : Bool :=
  (flags.takeWhile (· != '-')).contains letter ||
    (before &&
      !(flags.dropWhile (· != '-')).contains letter)

/- A mode with flags set and cleared. -/
def Mode.withFlags
    (mode : Mode)
    (flags : List Char) : Mode where
  spaced := flagAfter 'x' flags mode.spaced
  unicode := flagAfter 'u' flags mode.unicode

/- The end of the flags of a group. -/
def endsFlags (c : Char) : Bool :=
  c == ':' || c == ')'

/- The start of a group with flags, at those flags. -/
def flaggedStart?
    (mode : Mode)
    (cs : List Char) : Option (GroupStart × List Char) :=
  let flags := cs.takeWhile fun c => !endsFlags c
  let start (opens : Bool) : GroupStart :=
    { opens, mode := mode.withFlags flags }
  if areFlags flags then
    match cs.dropWhile fun c => !endsFlags c with
    | ':' :: rest => some (start true, rest)
    | ')' :: rest =>
        if flags.isEmpty then none
        else some (start false, rest)
    | _ => none
  else
    none

/-
  The start of a group, after its parenthesis. What looks
  ahead or behind is neither a name nor a flag.
-/
def groupStart?
    (mode : Mode)
    (names : List (List Char))
    (cs : List Char) : Option (GroupStart × List Char) :=
  match skip mode cs with
  | '?' :: 'P' :: '<' :: rest => namedStart? mode names rest
  | '?' :: '<' :: rest => namedStart? mode names rest
  | '?' :: rest => flaggedStart? mode rest
  | rest => some ({ opens := true, mode }, rest)

------------------------------------------------------------
-- Pieces
------------------------------------------------------------

/- A piece of a sequence. Flags cannot be repeated. -/
inductive Piece where
  | flags
  | item (height : Nat)
deriving DecidableEq, Repr

namespace Piece

/- The height of a piece. -/
def height : Piece → Nat
  | .flags => 0
  | .item height => height

end Piece

/- A group that has not been closed yet, from outside. -/
structure OpenGroup where
  pieces : List Piece
  branches : List Nat
  mode : Mode
deriving DecidableEq, Repr

/-
  The state of reading a pattern: the pieces of the sequence
  at hand, last first, the heights of the sequences before
  it, the groups around it, and the names of groups so far.
-/
structure Reading where
  mode : Mode := {}
  pieces : List Piece := []
  branches : List Nat := []
  outer : List OpenGroup := []
  names : List (List Char) := []
deriving DecidableEq, Repr

namespace Reading

/- The height of the sequence at hand. -/
def sequenceHeight (reading : Reading) : Nat :=
  joined (reading.pieces.map Piece.height)

/- The height of the choice at hand. -/
def height (reading : Reading) : Nat :=
  joined (reading.sequenceHeight :: reading.branches)

/- One more piece of the sequence at hand. -/
def push
    (reading : Reading)
    (piece : Piece) : Reading :=
  { reading with pieces := piece :: reading.pieces }

/- Go on with another sequence of the choice. -/
def branch (reading : Reading) : Reading :=
  { reading with
    pieces := []
    branches := reading.sequenceHeight :: reading.branches }

/- Open a group, or set flags. -/
def enter
    (reading : Reading)
    (start : GroupStart) : Reading :=
  if start.opens then
    { mode := start.mode
      outer :=
        ⟨reading.pieces, reading.branches, reading.mode⟩ ::
          reading.outer
      names := start.name.toList ++ reading.names }
  else
    { reading.push .flags with mode := start.mode }

/- Close the innermost group. -/
def leave? (reading : Reading) : Option Reading :=
  match reading.outer with
  | [] => none
  | group :: outer =>
      some
        { mode := group.mode
          pieces := .item (reading.height + 1) :: group.pieces
          branches := group.branches
          outer
          names := reading.names }

/- Repeat the last piece. -/
def repeat? (reading : Reading) : Option Reading :=
  match reading.pieces with
  | .item height :: pieces =>
      some
        { reading with pieces := .item (height + 1) :: pieces }
  | _ => none

end Reading

------------------------------------------------------------
-- Patterns
------------------------------------------------------------

/- A sign that repeats the piece before it. -/
def isRepetition (c : Char) : Bool :=
  c == '?' || c == '*' || c == '+'

/- A text without a question mark at its head. -/
def skipQuestion : List Char → List Char
  | '?' :: rest => rest
  | cs => cs

/-
  Read a pattern to its end. Each step takes a character. A
  question mark behind a repetition belongs to it.
-/
def read? :
    Nat → Reading → List Char → Option Reading
  | 0, _, _ => none
  | bound + 1, reading, cs =>
      match skip reading.mode cs with
      | [] =>
          if reading.outer.isEmpty then some reading else none
      | '(' :: rest => do
          let (start, rest) ←
            groupStart? reading.mode reading.names rest
          read? bound (reading.enter start) rest
      | ')' :: rest => do
          let reading ← reading.leave?
          read? bound reading rest
      | '|' :: rest => read? bound reading.branch rest
      | '[' :: rest => do
          let (height, rest) ← set? reading.mode rest
          read? bound (reading.push (.item height)) rest
      | '\\' :: rest => do
          let (_, rest) ← escape? reading.mode rest
          read? bound (reading.push (.item 0)) rest
      | '\x7b' :: _ => none
      | c :: rest =>
          if isRepetition c then do
            let reading ← reading.repeat?
            read? bound reading (skipQuestion rest)
          else if c == '.' && !reading.mode.unicode then
            none
          else
            read? bound (reading.push (.item 0)) rest

/- A pattern is well formed and not nested too deeply. -/
def isWellFormed (pattern : List Char) : Bool :=
  match read? (pattern.length + 1) {} pattern with
  | some reading => reading.height ≤ maxHeight
  | none => false

end Pattern

end StatusEffect
