/-
  Closed vocabularies.

  A vocabulary is a finite list of words, each written with
  a code of its own. The codes appear in the notation, in
  structured values and in configuration files alike.

  Key definitions include:
    * `Vocabulary`
    * `Vocabulary.ofCode?`
    * `Vocabulary.codes`
    * `Labelled`
-/

namespace StatusEffect

/- A type whose values are all listed, each with its code. -/
class Vocabulary (α : Type) where
  all : List α
  code : α → String

namespace Vocabulary

variable {α : Type} [Vocabulary α]

/- The word with exactly this code. -/
def ofCode? (text : String) : Option α :=
  (all : List α).find? fun word => code word == text

/- The codes of a vocabulary, in the order of its words. -/
def codes
    (α : Type)
    [Vocabulary α] : List String :=
  (all : List α).map code

end Vocabulary

/- A vocabulary whose words also have a name in prose. -/
class Labelled (α : Type) where
  label : α → String

end StatusEffect
