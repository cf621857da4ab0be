import StatusEffect.Grammar.Parse
import StatusEffect.Record.Canonical
import StatusEffect.Record.Explanation
import StatusEffect.Record.Structured

/-
  Interpretations of notations, and what can be exchanged.

  Interpreting a notation gives its record, the structured
  form of it and, on request, the explanation. Tokens,
  diagnostics and interpretations have a structured form of
  their own, whose decoding ignores members it does not know.

  Key definitions include:
    * `Interpretation`
    * `interpret`
    * `validate`
    * `Token.toJson`
    * `Token.decoder`
    * `Diagnostic.toJson`
    * `Diagnostic.decoder`
    * `Interpretation.toJson`
    * `Interpretation.decoder`
-/

------------------------------------------------------------
-- Interpretation
------------------------------------------------------------

namespace StatusEffect

/- What was made of a notation. -/
structure Interpretation where
  record : Record
  structured : Json
  explanation : Option String

/- The interpretation of a notation, explained on request. -/
def interpret
    (source : String)
    (explain : Bool) :
    Except Failure Interpretation := do
  let record ← Grammar.parse source
  pure
    { record
      structured := record.toJson
      explanation :=
        if explain then some record.explanation else none }

/- A notation is accepted. -/
def validate (source : String) : Except Failure Unit := do
  let _ ← Grammar.parse source
  pure ()

------------------------------------------------------------
-- Structured Forms
------------------------------------------------------------

open Json

namespace Token

/- The structured form of a token. -/
def toJson (token : Token) : Json :=
  .obj
    [("kind", .code token.kind),
     ("text", .str token.text),
     ("offset", .nat token.offset)]

/- The members of the structured form of a token. -/
def layout : Layout :=
  ⟨"Token", ["kind", "text", "offset"], false⟩

/- Decode a token. -/
def decoder : Decoder Token :=
  layout.decode fun members =>
    Token.mk
      <$> members.get layout (.required "kind" .code)
      <*> members.get layout (.required "text" .text)
      <*> members.get layout (.required "offset" .size)

end Token

namespace Diagnostic

/- The structured form of a diagnostic. -/
def toJson (diagnostic : Diagnostic) : Json :=
  .obj
    [("kind", .code diagnostic.stage),
     ("message", .str diagnostic.message),
     ("offset", .option .nat diagnostic.offset),
     ("snippet", .option .str diagnostic.snippet)]

/- The members of the structured form of a diagnostic. -/
def layout : Layout :=
  ⟨"ParseError", ["kind", "message", "offset", "snippet"],
    false⟩

/- Decode a diagnostic. -/
def decoder : Decoder Diagnostic :=
  layout.decode fun members =>
    Diagnostic.mk
      <$> members.get layout (.required "kind" .code)
      <*> members.get layout (.required "message" .text)
      <*> members.get layout (.nullable "offset" .size)
      <*> members.get layout (.nullable "snippet" .text)

end Diagnostic

namespace Interpretation

/- The structured form of an interpretation. -/
def toJson (interpretation : Interpretation) : Json :=
  .obj
    ([("record", interpretation.record.toJson),
      ("structured", interpretation.structured)] ++
      optionalMember "explanation" .str
        interpretation.explanation)

/- The members of an interpretation. -/
def layout : Layout :=
  ⟨"ParseOutput", ["record", "structured", "explanation"],
    false⟩

/- Decode an interpretation. -/
def decoder : Decoder Interpretation :=
  layout.decode fun members =>
    Interpretation.mk
      <$> members.get layout
        (.required "record" Record.decoder)
      <*> members.get layout (.required "structured" .any)
      <*> members.get layout (.optional "explanation" .text)

end Interpretation

end StatusEffect
