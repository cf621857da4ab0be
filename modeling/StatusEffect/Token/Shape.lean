import StatusEffect.Text.Blank
import StatusEffect.Text.Digit

/-
  Shapes of lexemes.

  A shape describes the characters of a lexeme: one class
  for each of its first characters, and a class that the
  characters after them run through greedily. Every shape
  asks for at least one character, so that a match always
  consumes something.

  Key definitions include:
    * `Shape`
    * `Shape.match?`
    * `Shape.one`
    * `Shape.run`
    * `Shape.word`
    * `Shape.literal`

  The length of what is left is bounded by:
    * `Shape.length_lt_of_match?`
-/

------------------------------------------------------------
-- Shapes
------------------------------------------------------------

namespace StatusEffect

/-
  The classes of the leading characters of a lexeme, and the
  class of the run that may follow them.
-/
structure Shape where
  head : Char → Bool
  body : List (Char → Bool)
  tail : Char → Bool

namespace Shape

/- Take one character of each class, in order. -/
def takeFixed? :
    List (Char → Bool) →
      List Char → Option (List Char × List Char)
  | [], cs => some ([], cs)
  | _ :: _, [] => none
  | accepts :: rest, c :: cs =>
      if accepts c then
        (takeFixed? rest cs).map fun split =>
          (c :: split.1, split.2)
      else
        none

/- The lexeme of a shape at the head of a text, and the rest. -/
def match?
    (shape : Shape)
    (cs : List Char) :
    Option (List Char × List Char) :=
  (takeFixed? (shape.head :: shape.body) cs).map fun split =>
    (split.1 ++ split.2.takeWhile shape.tail,
      split.2.dropWhile shape.tail)

/- Exactly one character of a class. -/
def one (accepts : Char → Bool) : Shape :=
  ⟨accepts, [], fun _ => false⟩

/- One or more characters of a class. -/
def run (accepts : Char → Bool) : Shape :=
  ⟨accepts, [], accepts⟩

/- A character of one class, then a run of another. -/
def word (first next : Char → Bool) : Shape :=
  ⟨first, [], next⟩

/- One character of each of two classes. -/
def pair (first second : Char → Bool) : Shape :=
  ⟨first, [second], fun _ => false⟩

/- A sign, then one or more characters of a class. -/
def signed
    (sign : Char)
    (accepts : Char → Bool) : Shape :=
  ⟨(· == sign), [accepts], accepts⟩

/- A fixed text, given by its first character and the others. -/
def literal
    (first : Char)
    (others : List Char) : Shape :=
  ⟨(· == first), others.map fun other => (· == other),
    fun _ => false⟩

------------------------------------------------------------
-- Consumption
------------------------------------------------------------

/- Fixed characters and the rest make up the whole text. -/
theorem append_of_takeFixed?
    {classes : List (Char → Bool)}
    {cs lexeme rest : List Char}
    (hTake : takeFixed? classes cs = some (lexeme, rest)) :
    lexeme ++ rest = cs ∧
      lexeme.length = classes.length := by
  induction classes generalizing cs lexeme with
  | nil =>
      simp [takeFixed?] at hTake
      obtain ⟨rfl, rfl⟩ := hTake
      simp
  | cons accepts classes ih =>
      cases cs with
      | nil => simp [takeFixed?] at hTake
      | cons c cs =>
          by_cases hAccepts : accepts c
          · simp [takeFixed?, hAccepts] at hTake
            obtain ⟨taken, hTaken, rfl⟩ := hTake
            simp [ih hTaken]
          · simp [takeFixed?, hAccepts] at hTake

/- A lexeme and the rest make up the whole text. -/
theorem append_of_match?
    {shape : Shape}
    {cs lexeme rest : List Char}
    (hMatch : shape.match? cs = some (lexeme, rest)) :
    lexeme ++ rest = cs := by
  simp [match?] at hMatch
  obtain ⟨taken, left, hTaken, rfl, rfl⟩ := hMatch
  simp [← (append_of_takeFixed? hTaken).1]

/- A lexeme has at least one character. -/
theorem ne_nil_of_match?
    {shape : Shape}
    {cs lexeme rest : List Char}
    (hMatch : shape.match? cs = some (lexeme, rest)) :
    lexeme ≠ [] := by
  simp [match?] at hMatch
  obtain ⟨taken, left, hTaken, rfl, rfl⟩ := hMatch
  have hLength := (append_of_takeFixed? hTaken).2
  intro hNil
  simp at hNil
  simp [hNil.1] at hLength

/- What is left after a lexeme is shorter than the text. -/
theorem length_lt_of_match?
    {shape : Shape}
    {cs lexeme rest : List Char}
    (hMatch : shape.match? cs = some (lexeme, rest)) :
    rest.length < cs.length := by
  have hAppend := append_of_match? hMatch
  have hNe := ne_nil_of_match? hMatch
  have hPos : 0 < lexeme.length :=
    List.length_pos_iff.mpr hNe
  rw [← hAppend, List.length_append]
  omega

end Shape

end StatusEffect
