/-
  Ranges of code points.

  A class of characters is given as a table of closed ranges
  of code points, in ascending order.

  Key definitions include:
    * `Text.inRanges`
-/

------------------------------------------------------------
-- Character Ranges
------------------------------------------------------------

namespace StatusEffect

namespace Text

/- A number lies in one of the closed ranges of a table. -/
def inRanges
    (ranges : List (Nat × Nat))
    (n : Nat) : Bool :=
  ranges.any fun range => range.1 ≤ n && n ≤ range.2

end Text

end StatusEffect
