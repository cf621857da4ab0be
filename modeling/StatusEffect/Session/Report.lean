import StatusEffect.Interpretation
import StatusEffect.Session.Settings

/-
  Reports on single notations.

  A notation is either accepted or rejected, whatever the
  settings are. The settings decide what is written about
  it: in text form a heading, the explanation and the
  structured form, or the diagnostic of the failure; in JSON
  form one object on a line of its own.

  Key definitions include:
    * `Verdict`
    * `Settings.acceptance`
    * `Settings.rejection`
    * `Settings.verdict`
-/

namespace StatusEffect

/- Whether a notation was accepted, and what is said of it. -/
structure Verdict where
  accepted : Bool
  report : String
deriving DecidableEq, Repr

namespace Settings

/- A line of its own. -/
def line (text : String) : String :=
  text ++ "\n"

/- What a text report says of an accepted notation. -/
def textAcceptance
    (source : String)
    (found : Interpretation) : String :=
  line ("=== " ++ source ++ " ===") ++
    (match found.explanation with
    | some explanation =>
        line ("Explanation: " ++ explanation)
    | none => "") ++
    line "Parsed structure:" ++
    line found.structured.pretty ++
    line ""

/- What a JSON report says of an accepted notation. -/
def jsonAcceptance
    (source : String)
    (found : Interpretation) : Json :=
  .obj
    ([("status", .str "valid"),
      ("notation", .str source),
      ("parsed", found.structured)] ++
      Json.optionalMember "explanation" .str
        found.explanation)

/- The report on an accepted notation. -/
def acceptance
    (settings : Settings)
    (source : String)
    (found : Interpretation) : String :=
  match settings.validateOnly, settings.output with
  | true, .text => line ("✓ " ++ source ++ " is valid")
  | true, .json =>
      line
        (Json.obj
          [("status", .str "valid"),
           ("notation", .str source)]).compact
  | false, .text => textAcceptance source found
  | false, .json =>
      line (jsonAcceptance source found).compact

/- What a JSON report says of a rejected notation. -/
def jsonRejection
    (source : String)
    (diagnostic : Diagnostic) : Json :=
  .obj
    [("status", .str "error"),
     ("notation", .str source),
     ("error", .str diagnostic.headline),
     ("kind", .code diagnostic.stage),
     ("offset", .option .nat diagnostic.offset)]

/- The report on a rejected notation. -/
def rejection
    (settings : Settings)
    (source : String)
    (diagnostic : Diagnostic) : String :=
  match settings.output with
  | .text =>
      line ("Error parsing " ++ source ++ ":") ++
        line diagnostic.render ++
        line ""
  | .json => line (jsonRejection source diagnostic).compact

/- The verdict on a notation, and the report on it. -/
def verdict
    (settings : Settings)
    (source : String) : Verdict :=
  match interpret source settings.explain with
  | .ok found =>
      ⟨true, settings.acceptance source found⟩
  | .error failure =>
      ⟨false,
        settings.rejection source (failure.diagnostic source)⟩

end Settings

end StatusEffect
