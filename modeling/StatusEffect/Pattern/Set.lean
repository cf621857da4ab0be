import StatusEffect.Pattern.Escape

/-
  Sets of characters in brackets.

  A set holds characters, ranges, classes and other sets. It
  can be negated, and sets can be combined by operators of
  two signs. A closing bracket or a dash at the head of a set
  stands for itself. Outside Unicode a set holds characters
  of ASCII only, and so is not negated.

  Key definitions include:
    * `Pattern.OpenSet`
    * `Pattern.setItem?`
    * `Pattern.openSet?`
    * `Pattern.set?`
-/

------------------------------------------------------------
-- Items
------------------------------------------------------------

namespace StatusEffect

open Text

namespace Pattern

/- A set that has not been closed yet, by heights. -/
structure OpenSet where
  items : List Nat := []
  left : Option Nat := none
deriving DecidableEq, Repr

namespace OpenSet

/- A set with one more item. -/
def push
    (set : OpenSet)
    (height : Nat) : OpenSet :=
  { set with items := height :: set.items }

/- The height of what a set holds. -/
def height (set : OpenSet) : Nat :=
  match set.left with
  | none => joined set.items
  | some left => max left (joined set.items) + 1

/- A set as the left side of an operator. -/
def operand (set : OpenSet) : OpenSet :=
  { left := some set.height }

end OpenSet

/- An item can stand in a set by itself. -/
def isItem
    (mode : Mode) : Atom → Bool
  | .literal c => mode.unicode || isAscii c
  | .set => true
  | .anchor => false

/- Two items are the ends of a range. -/
def isRange
    (mode : Mode) : Atom → Atom → Bool
  | .literal first, .literal last =>
      isItem mode (.literal first) &&
        isItem mode (.literal last) &&
        first.toNat ≤ last.toNat
  | _, _ => false

/- One character or escape in a set. -/
def setAtom?
    (mode : Mode) :
    List Char → Option (Atom × List Char)
  | '\\' :: rest => escape? mode rest
  | c :: rest => some (.literal c, rest)
  | [] => none

/-
  What follows an item or a range of a set. A dash before a
  closing bracket or another dash makes no range.
-/
def setItem?
    (mode : Mode)
    (cs : List Char) : Option (List Char) := do
  let (first, rest) ← setAtom? mode cs
  let rest := skip mode rest
  let single := if isItem mode first then some rest else none
  match rest with
  | '-' :: behind =>
      if peek mode behind == some ']' ||
          peek mode behind == some '-' then
        single
      else do
        let (last, rest) ← setAtom? mode (skip mode behind)
        if isRange mode first last then some rest else none
  | _ => single

------------------------------------------------------------
-- Named Classes
------------------------------------------------------------

/- The names of the classes of ASCII characters. -/
def classNames : List String :=
  ["alnum", "alpha", "ascii", "blank", "cntrl", "digit",
   "graph", "lower", "print", "punct", "space", "upper",
   "word", "xdigit"]

/-
  A class by its name between colons, after its bracket:
  whether it is negated, and what follows it.
-/
def namedClass? : List Char → Option (Bool × List Char)
  | ':' :: rest =>
      let negated := rest.head? == some '^'
      let rest := if negated then rest.tail else rest
      let name := rest.takeWhile (· != ':')
      match rest.dropWhile (· != ':') with
      | ':' :: ']' :: rest =>
          if classNames.contains (String.ofList name) then
            some (negated, rest)
          else
            none
      | _ => none
  | _ => none

------------------------------------------------------------
-- Sets
------------------------------------------------------------

/- The dashes at the head of a set. -/
def leadingDashes
    (mode : Mode) :
    Nat → OpenSet → List Char → OpenSet × List Char
  | 0, set, cs => (set, cs)
  | bound + 1, set, '-' :: rest =>
      leadingDashes mode bound (set.push 0) (skip mode rest)
  | _ + 1, set, cs => (set, cs)

/- The head of a set, after its bracket. -/
def openSet?
    (mode : Mode)
    (cs : List Char) : Option (OpenSet × List Char) :=
  let (negated, cs) :=
    match skip mode cs with
    | '^' :: rest => (true, skip mode rest)
    | cs => (false, cs)
  if negated && !mode.unicode then
    none
  else
    match leadingDashes mode cs.length {} cs with
    | (set, ']' :: rest) =>
        if set.items.isEmpty then
          some (set.push 0, rest)
        else
          some (set, ']' :: rest)
    | (set, rest) => some (set, rest)

/-
  The rest of a set inside others: its height, and what
  follows the outermost one. Each step takes a character.
-/
def setBody?
    (mode : Mode) :
    Nat →
      OpenSet →
        List OpenSet → List Char → Option (Nat × List Char)
  | 0, _, _, _ => none
  | bound + 1, set, outer, cs =>
      match skip mode cs with
      | '[' :: rest =>
          match namedClass? rest with
          | some (negated, rest) =>
              if negated && !mode.unicode then
                none
              else
                setBody? mode bound (set.push 0) outer rest
          | none => do
              let (inner, rest) ← openSet? mode rest
              setBody? mode bound inner (set :: outer) rest
      | ']' :: rest =>
          match outer with
          | [] => some (set.height + 1, rest)
          | parent :: outer =>
              setBody? mode bound
                (parent.push (set.height + 1)) outer rest
      | '&' :: '&' :: rest =>
          setBody? mode bound set.operand outer rest
      | '-' :: '-' :: rest =>
          setBody? mode bound set.operand outer rest
      | '~' :: '~' :: rest =>
          setBody? mode bound set.operand outer rest
      | rest => do
          let rest ← setItem? mode rest
          setBody? mode bound (set.push 0) outer rest

/- A set after its bracket: its height, and what follows. -/
def set?
    (mode : Mode)
    (cs : List Char) : Option (Nat × List Char) := do
  let (set, rest) ← openSet? mode cs
  setBody? mode (rest.length + 1) set [] rest

end Pattern

end StatusEffect
