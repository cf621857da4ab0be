import StatusEffect.Json.Basic
import StatusEffect.Proofs.Notation.Diagnostic

/-
  Compact values stand on one line.

  Strings are the only part of a value that can hold a line
  feed, and there it is escaped. So the compact text of a
  value has no line feed, however deep its strings lie.

  Key theorems include:
    * `Json.oneLine_quote`
    * `Json.oneLine_compact`
-/

------------------------------------------------------------
-- Numbers And Strings
------------------------------------------------------------

namespace StatusEffect

open Text

namespace Json

/- An integer is on one line. -/
theorem oneLine_intText
    (value : Int) :
    OneLine (intText value) := by
  cases value with
  | ofNat n => exact oneLine_decimal n
  | negSucc n =>
      exact OneLine.append (by decide) (oneLine_decimal _)

/- The digits behind a point have no line feed among them. -/
theorem lineFeed_notMem_placesText
    (fractional places : Nat) :
    '\n' ∉ placesText fractional places := by
  have hDigits : '\n' ∉ Nat.toDigits 10 fractional := by
    have hDecimal := oneLine_decimal fractional
    rwa [OneLine, decimal, String.toList_ofList] at hDecimal
  simp only [placesText]
  split
  · decide
  · rename_i hKept
    intro hFeed
    have hPadded := List.mem_reverse.mp hFeed
    have hAll :=
      List.mem_reverse.mp
        ((List.dropWhile_sublist _).subset hPadded)
    rcases List.mem_append.mp hAll with hZero | hDigit
    · exact absurd (List.eq_of_mem_replicate hZero) (by decide)
    · exact hDigits hDigit

/- A decimal fraction is on one line. -/
theorem oneLine_fractionText
    (digits : Int)
    (places : Nat) :
    OneLine (fractionText digits places) := by
  have hSign : OneLine (if digits < 0 then "-" else "") := by
    split <;> decide
  have hPlaces :
      OneLine
        (String.ofList
          (placesText (digits.natAbs % Nat.pow 10 places)
            places)) := by
    rw [OneLine, String.toList_ofList]
    exact lineFeed_notMem_placesText _ _
  have hWhole :=
    (oneLine_decimal
      (digits.natAbs / Nat.pow 10 places)).between hSign
        (by decide : OneLine ".")
  exact hWhole.append hPlaces

/- A hexadecimal digit is no line feed. -/
theorem hexDigit_ne_lineFeed
    (n : Nat) :
    hexDigit n ≠ '\n' := by
  have hDigits :
      ∀ digit < 16, Nat.digitChar digit ≠ '\n' := by
    decide
  exact hDigits (n % 16) (Nat.mod_lt n (by decide))

/- An escaped character has no line feed in it. -/
theorem lineFeed_notMem_escape
    (c : Char) :
    '\n' ∉ escape c := by
  by_cases hFeed : c = '\n'
  · rw [hFeed]
    decide
  · have hHigh := (hexDigit_ne_lineFeed (c.toNat / 16)).symm
    have hLow := (hexDigit_ne_lineFeed c.toNat).symm
    unfold escape
    repeat' split
    all_goals simp [hHigh, hLow, Ne.symm hFeed]

/- A string in quotation marks is on one line. -/
theorem oneLine_quote
    (text : String) :
    OneLine (quote text) := by
  rw [OneLine, quote, String.toList_ofList, List.mem_cons,
    List.mem_append, List.mem_flatMap]
  rintro (hMark | ⟨c, _, hEscape⟩ | hMark)
  · exact absurd hMark (by decide)
  · exact lineFeed_notMem_escape c hEscape
  · exact absurd hMark (by decide)

------------------------------------------------------------
-- Values
------------------------------------------------------------

mutual

/- The compact text of a value is on one line. -/
theorem oneLine_compact :
    ∀ value : Json, OneLine value.compact
  | .null => by decide
  | .bool true => by decide
  | .bool false => by decide
  | .int value => oneLine_intText value
  | .fraction digits places =>
      oneLine_fractionText digits places
  | .str text => oneLine_quote text
  | .arr items =>
      (oneLine_compactItems items).between (by decide)
        (by decide)
  | .obj members =>
      (oneLine_compactMembers members).between (by decide)
        (by decide)

/- The items of an array are on one line. -/
theorem oneLine_compactItems :
    ∀ items : List Json, OneLine (compactItems items)
  | [] => by decide
  | [item] => oneLine_compact item
  | item :: next :: items => by
      have hItem := oneLine_compact item
      have hRest := oneLine_compactItems (next :: items)
      exact OneLine.between (by decide) hItem hRest

/- The members of an object are on one line. -/
theorem oneLine_compactMembers :
    ∀ members : List (String × Json),
      OneLine (compactMembers members)
  | [] => by decide
  | [(name, value)] => by
      have hValue := oneLine_compact value
      exact
        OneLine.between (by decide) (oneLine_quote name)
          hValue
  | (name, value) :: next :: members => by
      have hValue := oneLine_compact value
      have hMember :=
        OneLine.between (by decide : OneLine ":")
          (oneLine_quote name) hValue
      have hRest := oneLine_compactMembers (next :: members)
      exact OneLine.between (by decide) hMember hRest

end

end Json

end StatusEffect
