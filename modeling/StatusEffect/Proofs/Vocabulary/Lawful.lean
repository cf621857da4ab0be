import StatusEffect.Vocabulary.Core
import StatusEffect.Vocabulary.Section

/-
  Codes stand for their words.

  In every vocabulary all words are listed and no two of
  them share a code, so that a code is always read as the
  word that it was written for.

  Key definitions include:
    * `LawfulVocabulary`

  Key theorems include:
    * `Vocabulary.ofCode?_code`
    * `Vocabulary.ofCode?_eq_none_iff`
-/

------------------------------------------------------------
-- Lawful Vocabularies
------------------------------------------------------------

namespace StatusEffect

/- A vocabulary in which every word is found by its code. -/
class LawfulVocabulary
    (α : Type)
    [Vocabulary α] : Prop where
  ofCode?_code :
    ∀ word : α,
      Vocabulary.ofCode? (Vocabulary.code word) = some word

namespace Vocabulary

variable {α : Type} [Vocabulary α]

/- The code of a word stands for it. -/
@[simp]
theorem ofCode?_code
    [LawfulVocabulary α]
    (word : α) :
    ofCode? (code word) = some word :=
  LawfulVocabulary.ofCode?_code word

/- A text stands for no word exactly if it is no code. -/
theorem ofCode?_eq_none_iff
    {text : String} :
    (ofCode? text : Option α) = none ↔ text ∉ codes α := by
  simp [ofCode?, codes]

end Vocabulary

------------------------------------------------------------
-- Words Of The Notation
------------------------------------------------------------

instance : LawfulVocabulary Target :=
  ⟨fun word => by cases word <;> rfl⟩

instance : LawfulVocabulary Change :=
  ⟨fun word => by cases word <;> rfl⟩

instance : LawfulVocabulary Stat :=
  ⟨fun word => by cases word <;> rfl⟩

instance : LawfulVocabulary Span :=
  ⟨fun word => by cases word <;> rfl⟩

instance : LawfulVocabulary Event :=
  ⟨fun word => by cases word <;> rfl⟩

instance : LawfulVocabulary Element :=
  ⟨fun word => by cases word <;> rfl⟩

instance : LawfulVocabulary Flag :=
  ⟨fun word => by cases word <;> rfl⟩

instance : LawfulVocabulary Removability :=
  ⟨fun word => by cases word <;> rfl⟩

instance : LawfulVocabulary ChainEffect :=
  ⟨fun word => by cases word <;> rfl⟩

instance : LawfulVocabulary SourceLink :=
  ⟨fun word => by cases word <;> rfl⟩

instance : LawfulVocabulary StackRule :=
  ⟨fun word => by cases word <;> rfl⟩

instance : LawfulVocabulary Visibility :=
  ⟨fun word => by cases word <;> rfl⟩

instance : LawfulVocabulary Resource :=
  ⟨fun word => by cases word <;> rfl⟩

instance : LawfulVocabulary Interaction :=
  ⟨fun word => by cases word <;> rfl⟩

instance : LawfulVocabulary MetaEffect :=
  ⟨fun word => by cases word <;> rfl⟩

end StatusEffect
