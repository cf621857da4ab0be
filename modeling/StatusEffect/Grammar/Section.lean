import StatusEffect.Token.Basic

/-
  Cutting tokens into sections, and parentheses.

  What follows the core clauses is cut at its delimiters,
  but not at those inside parentheses. A closing parenthesis
  without an opening one counts as any other token. Sections
  without tokens are dropped. A section stops at the
  delimiter that ends it, and the last one where all tokens
  stop.

  Key definitions include:
    * `Section`
    * `Section.parensAfter`
    * `Section.cut`
    * `Section.split`
    * `Section.closing?`
-/

------------------------------------------------------------
-- Sections
------------------------------------------------------------

namespace StatusEffect

/- Some tokens, and the offset where they stop. -/
structure Section where
  tokens : List Token
  stop : Nat
deriving DecidableEq, Repr

namespace Section

/- The number of open parentheses after a token. -/
def parensAfter
    (parens : Nat)
    (token : Token) : Nat :=
  match token.kind with
  | .parenOpen => parens + 1
  | .parenClose => parens - 1
  | _ => parens

/- A token ends the section before it. -/
def isCut
    (parens : Nat)
    (token : Token) : Bool :=
  token.kind = .delimiter && parens = 0

/-
  The section that some tokens start with, and the sections
  behind it, the empty ones included.
-/
def cut
    (stop : Nat) :
    Nat → List Token → Section × List Section
  | _, [] => (⟨[], stop⟩, [])
  | parens, token :: tokens =>
      if isCut parens token then
        let (first, others) := cut stop 0 tokens
        (⟨[], token.offset⟩, first :: others)
      else
        let (first, others) :=
          cut stop (parensAfter parens token) tokens
        (⟨token :: first.tokens, first.stop⟩, others)

/- The sections of some tokens that hold a token. -/
def split
    (stop : Nat)
    (tokens : List Token) : List Section :=
  let (first, others) := cut stop 0 tokens
  (first :: others).filter fun part => !part.tokens.isEmpty

------------------------------------------------------------
-- Parentheses
------------------------------------------------------------

/-
  The tokens up to the closing parenthesis of an open one,
  that parenthesis, and the tokens after it. The number is
  that of the further parentheses open in between.
-/
def closing? :
    Nat →
      List Token →
        Option (List Token × Token × List Token)
  | _, [] => none
  | parens, token :: tokens =>
      if token.kind = .parenClose && parens = 0 then
        some ([], token, tokens)
      else
        (closing? (parensAfter parens token) tokens).map
          fun (inner, close, rest) =>
            (token :: inner, close, rest)

end Section

end StatusEffect
