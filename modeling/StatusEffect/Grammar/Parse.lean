import StatusEffect.Grammar.Extension
import StatusEffect.Token.Scan

/-
  Whole notations.

  A notation is its core clauses followed by its extended
  sections. A chain target is a notation again, so reading
  is by recursion on the number of levels that may still be
  nested. Sections are read apart from the tokens around
  them: a failure in one leaves all of them unread.

  Key definitions include:
    * `Grammar.record`
    * `Grammar.parseTokens`
    * `Grammar.parses`
    * `Grammar.parse`
-/

------------------------------------------------------------
-- Records
------------------------------------------------------------

namespace StatusEffect

namespace Grammar

/-
  The record of some tokens, given the reader for the chain
  targets in them.
-/
def recordWith
    (nested : Option (Reader Record)) : Reader Record :=
  fun stop tokens =>
    match core stop tokens with
    | .stuck failure left => .stuck failure left
    | .read effect rest =>
        match extended nested stop ⟨effect, []⟩ rest with
        | .error failure => .stuck failure rest
        | .ok record => .read record []

/- The record of some tokens, with a number of nested levels. -/
def record : Nat → Reader Record
  | 0 => recordWith none
  | levels + 1 => recordWith (some (record levels))

/- The record of the tokens of a source, and what is left. -/
def parseTokens
    (source : String)
    (tokens : List Token) : Outcome Record :=
  record Record.maxDepth source.utf8ByteSize tokens

/- Several readings, each from where the last one ended. -/
def parses
    (source : String)
    (tokens : List Token) :
    Nat → List (Except Failure Record)
  | 0 => []
  | calls + 1 =>
      let outcome := parseTokens source tokens
      outcome.result :: parses source outcome.rest calls

/- The record of a notation, or why it was rejected. -/
def parse (source : String) : Except Failure Record := do
  let tokens ← tokenize source
  (parseTokens source tokens).result

end Grammar

end StatusEffect
