/-
  Putting texts together.

  Key definitions include:
    * `Text.concat`
    * `Text.separated`
    * `Text.spaces`
-/

namespace StatusEffect

namespace Text

/- Some texts, one directly after the other. -/
def concat : List String → String
  | [] => ""
  | text :: texts => text ++ concat texts

/- Some texts with a separator between each two. -/
def separated
    (separator : String) : List String → String
  | [] => ""
  | [text] => text
  | text :: next :: texts =>
      text ++ separator ++ separated separator (next :: texts)

/- A number of spaces. -/
def spaces (count : Nat) : String :=
  String.ofList (List.replicate count ' ')

end Text

end StatusEffect
