import StatusEffect.Json.Basic
import StatusEffect.Text.Quoted
import StatusEffect.Vocabulary.Core
import StatusEffect.Failure

/-
  Decoding structured values.

  Values of a vocabulary are strings with its codes. A value
  with fields is an object with a member for each field, or
  a list of its fields in order. The members of an
  object may stand in any order, and the first of them that
  cannot be decoded is reported; what is missing is reported
  only when all that is there is acceptable.

  Key definitions include:
    * `Wanted`
    * `DecodeError`
    * `DecodeError.message`
    * `Decoded`
    * `Layout`
    * `Layout.decode`
    * `Field`
    * `Members.get`
-/

------------------------------------------------------------
-- Errors
------------------------------------------------------------

namespace StatusEffect

open Text

/- What a value was expected to be. -/
inductive Wanted where
  | word
  | size
  | text
  | truth
  | list
  | code
  | unit
  | fields (name : String)
deriving DecidableEq, Repr

namespace Wanted

/- The wording of an expected value. -/
def phrase : Wanted → String
  | .word => "u32"
  | .size => "usize"
  | .text => "a string"
  | .truth => "a boolean"
  | .list => "a sequence"
  | .code => "string or map"
  | .unit => "unit"
  | .fields name => "struct " ++ name

end Wanted

namespace Json

/- The wording of a value that was not expected. -/
def describe : Json → String
  | .null => "null"
  | .bool value =>
      "boolean `" ++ (Json.bool value).compact ++ "`"
  | .int value => "integer `" ++ intText value ++ "`"
  | .fraction digits places =>
      "floating point `" ++ fractionText digits places ++ "`"
  | .str text => "string " ++ quoted text
  | .arr _ => "sequence"
  | .obj _ => "map"

end Json

/- Why a value could not be decoded. -/
inductive DecodeError where
  | wrongType (found : Json) (wanted : Wanted)
  | outOfRange (found : Int) (wanted : Wanted)
  | severalKeys
  | unknownCode (text : String) (codes : List String)
  | unknownField (name : String) (fields : List String)
  | missingField (name : String)
  | repeatedField (name : String)
  | tooFew (given : Nat) (name : String) (fields : Nat)
  | tooMany (given : Nat)
  | notAConditionValue
  | rangeReversed (first last : UInt32)
  | turnsUnclear
  | countNotTaken (span : Span)
  | chanceTooHigh (chance : UInt32)
  | triggerUnclear
  | chainTooDeep (limit : Nat)
deriving Repr

namespace DecodeError

/- A name as messages mark it. -/
def marked (name : String) : String :=
  "`" ++ name ++ "`"

/- The names that were possible. -/
def choice : List String → String
  | [] => "there are none"
  | [only] => "expected " ++ marked only
  | [first, second] =>
      "expected " ++ marked first ++ " or " ++ marked second
  | names =>
      "expected one of " ++ separated ", " (names.map marked)

/- The wording of an error. -/
def message : DecodeError → String
  | .wrongType found wanted =>
      "invalid type: " ++ found.describe ++ ", expected " ++
        wanted.phrase
  | .outOfRange found wanted =>
      "invalid value: " ++ (Json.int found).describe ++
        ", expected " ++ wanted.phrase
  | .severalKeys =>
      "invalid value: map, expected map with a single key"
  | .unknownCode text codes =>
      "unknown variant " ++ marked text ++ ", " ++
        choice codes
  | .unknownField name fields =>
      "unknown field " ++ marked name ++ ", " ++
        choice fields
  | .missingField name => "missing field " ++ marked name
  | .repeatedField name => "duplicate field " ++ marked name
  | .tooFew given name fields =>
      "invalid length " ++ decimal given ++ ", expected " ++
        (Wanted.fields name).phrase ++ " with " ++
        decimal fields ++ " elements"
  | .tooMany given =>
      "invalid length " ++ decimal given ++
        ", expected fewer elements in array"
  | .notAConditionValue =>
      "data did not match any variant of untagged enum " ++
        "ConditionValue"
  | .rangeReversed first last =>
      Cause.reversedRange first last
  | .turnsUnclear =>
      "turn duration needs either a value or both range bounds"
  | .countNotTaken span =>
      "duration type '" ++ Vocabulary.code span ++
        "' takes no count"
  | .chanceTooHigh chance => Cause.excessiveChance chance
  | .triggerUnclear =>
      "trigger needs exactly one of type, chance or condition"
  | .chainTooDeep limit =>
      "chain target nested deeper than " ++ decimal limit ++
        " levels"

end DecodeError

/- A decoder of values. -/
abbrev Decoder (α : Type) : Type :=
  Json → Except DecodeError α

------------------------------------------------------------
-- Single Values
------------------------------------------------------------

namespace Decoder

variable {α : Type}

/- An integer below a limit. -/
def below
    (limit : Nat)
    (wanted : Wanted) : Decoder Nat
  | .int value =>
      if 0 ≤ value ∧ value < limit then
        .ok value.toNat
      else
        .error (.outOfRange value wanted)
  | found => .error (.wrongType found wanted)

/- A 32-bit word. -/
def word : Decoder UInt32 :=
  fun value => UInt32.ofNat <$> below UInt32.size .word value

/- An offset, which fits in 64 bits. -/
def size : Decoder Nat :=
  below UInt64.size .size

/- A string. -/
def text : Decoder String
  | .str text => .ok text
  | found => .error (.wrongType found .text)

/- A truth value. -/
def truth : Decoder Bool
  | .bool value => .ok value
  | found => .error (.wrongType found .truth)

/- Any value, as it is. -/
def any : Decoder Json :=
  fun value => .ok value

/- A list of values. -/
def list (item : Decoder α) : Decoder (List α)
  | .arr items => items.mapM item
  | found => .error (.wrongType found .list)

/- A value that may be null. -/
def nullable (value : Decoder α) : Decoder (Option α)
  | .null => .ok none
  | found => some <$> value found

/- The word of a vocabulary with a given code. -/
def ofCode [Vocabulary α] (text : String) :
    Except DecodeError α :=
  match Vocabulary.ofCode? text with
  | some value => .ok value
  | none =>
      .error (.unknownCode text (Vocabulary.codes α))

/-
  A word of a vocabulary: its code as a string, or as the
  only name of an object whose member is null.
-/
def code [Vocabulary α] : Decoder α
  | .str text => ofCode text
  | .obj [(name, value)] => do
      let found ← ofCode name
      match value with
      | .null => .ok found
      | other => .error (.wrongType other .unit)
  | .obj _ => .error .severalKeys
  | found => .error (.wrongType found .code)

end Decoder

------------------------------------------------------------
-- Parts Of A Value
------------------------------------------------------------

/-
  A part of a value that was decoded, or the place of its
  first error. Parts are decoded independently of each other,
  and of two errors the one at the earlier place counts.
-/
inductive Decoded (α : Type) where
  | good (value : α)
  | bad (place : Nat) (error : DecodeError)
deriving Repr

namespace Decoded

variable {α β : Type}

/- A part at a place. -/
def atPlace
    (place : Nat) : Except DecodeError α → Decoded α
  | .ok value => .good value
  | .error error => .bad place error

/- Both parts, or the earlier error; the first one on a tie. -/
def both
    (first : Decoded (α → β))
    (second : Decoded α) : Decoded β :=
  match first, second with
  | .good make, .good value => .good (make value)
  | .good _, .bad place error => .bad place error
  | .bad place error, .good _ => .bad place error
  | .bad place error, .bad later other =>
      if later < place then .bad later other
      else .bad place error

instance : Applicative Decoded where
  pure := .good
  seq first second := both first (second ())

/- The value, or the error without its place. -/
def result : Decoded α → Except DecodeError α
  | .good value => .ok value
  | .bad _ error => .error error

end Decoded

------------------------------------------------------------
-- Values With Fields
------------------------------------------------------------

/-
  The fields of a kind of value, in order. A closed layout
  refuses members that are none of its fields.
-/
structure Layout where
  name : String
  fields : List String
  closed : Bool

/- The two ways in which a value gives its fields. -/
inductive Members where
  | named (members : List (String × Json))
  | listed (items : List Json)

/-
  One field: how it is decoded, and what it is if it is
  missing from an object or from the end of a list.
-/
structure Field (α : Type) where
  name : String
  decode : Decoder α
  absent : Option α
  unlisted : Option α

namespace Field

variable {α : Type}

/- A field that has to be given. -/
def required
    (name : String)
    (decode : Decoder α) : Field α :=
  ⟨name, decode, none, none⟩

/- A field that may be null or left out. -/
def optional
    (name : String)
    (decode : Decoder α) : Field (Option α) :=
  ⟨name, Decoder.nullable decode, some none, some none⟩

/- A field that may be null, and left out of an object. -/
def nullable
    (name : String)
    (decode : Decoder α) : Field (Option α) :=
  ⟨name, Decoder.nullable decode, some none, none⟩

/- A list that is empty if it is left out. -/
def list
    (name : String)
    (decode : Decoder α) : Field (List α) :=
  ⟨name, Decoder.list decode, some [], some []⟩

end Field

namespace Members

variable {α : Type}

/- The value of a member and its place among the members. -/
def find?
    (name : String) :
    List (String × Json) → Option (Nat × Json)
  | [] => none
  | (other, value) :: members =>
      if other = name then
        some (0, value)
      else
        (find? name members).map fun found =>
          (found.1 + 1, found.2)

/- A field of a value with a given layout. -/
def get
    (layout : Layout)
    (field : Field α) : Members → Decoded α
  | .named members =>
      match find? field.name members, field.absent with
      | some (place, value), _ =>
          .atPlace place (field.decode value)
      | none, some value => .good value
      | none, none =>
          .bad members.length (.missingField field.name)
  | .listed items =>
      let place := layout.fields.idxOf field.name
      match items[place]?, field.unlisted with
      | some value, _ => .atPlace place (field.decode value)
      | none, some value => .good value
      | none, none =>
          .bad place
            (.tooFew place layout.name layout.fields.length)

/-
  The first member, at or after a place, that a layout
  refuses: an unknown one if the layout is closed, or a
  field that came before.
-/
def refused?
    (layout : Layout)
    (seen : List String)
    (place : Nat) :
    List (String × Json) → Option (Nat × DecodeError)
  | [] => none
  | (name, _) :: members =>
      if name ∈ layout.fields then
        if name ∈ seen then
          some (place, .repeatedField name)
        else
          refused? layout (name :: seen) (place + 1) members
      else if layout.closed then
        some (place, .unknownField name layout.fields)
      else
        refused? layout seen (place + 1) members

/- The members are those of a layout. -/
def check (layout : Layout) : Members → Decoded Unit
  | .named members =>
      match refused? layout [] 0 members with
      | none => .good ()
      | some (place, error) => .bad place error
  | .listed items =>
      if layout.fields.length < items.length then
        .bad layout.fields.length (.tooMany items.length)
      else
        .good ()

end Members

namespace Layout

variable {α : Type}

/- Decode a value from its members. -/
def ofMembers
    (layout : Layout)
    (build : Members → Decoded α)
    (members : Members) : Except DecodeError α :=
  (Members.check layout members *> build members).result

/- Decode a value given as an object or as a list. -/
def decode
    (layout : Layout)
    (build : Members → Decoded α) : Decoder α
  | .obj members => layout.ofMembers build (.named members)
  | .arr items => layout.ofMembers build (.listed items)
  | found => .error (.wrongType found (.fields layout.name))

end Layout

end StatusEffect
