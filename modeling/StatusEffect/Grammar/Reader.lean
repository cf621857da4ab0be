import StatusEffect.Failure

/-
  Readers over tokens.

  A reader takes the offset where its tokens stop and the
  tokens themselves. Either it reads a value off the front,
  or it gets stuck on a failure; both outcomes tell which
  tokens are left, so that a failed reading can be followed
  by another one from where it got stuck.

  Key definitions include:
    * `Outcome`
    * `Reader`
    * `Reader.failAt`
    * `Reader.missing`
    * `Reader.eat?`
    * `Reader.expect`
    * `Reader.word`
    * `Reader.numeral`
-/

------------------------------------------------------------
-- Readers
------------------------------------------------------------

namespace StatusEffect

/- What a reader made of its tokens, and which are left. -/
inductive Outcome (α : Type) where
  | read (value : α) (rest : List Token)
  | stuck (failure : Failure) (rest : List Token)
deriving DecidableEq, Repr

namespace Outcome

variable {α : Type}

/- The tokens that an outcome leaves. -/
def rest : Outcome α → List Token
  | .read _ rest => rest
  | .stuck _ rest => rest

/- The value of an outcome, or its failure. -/
def result : Outcome α → Except Failure α
  | .read value _ => .ok value
  | .stuck failure _ => .error failure

end Outcome

/- A reading of tokens that stop at a given offset. -/
def Reader (α : Type) : Type :=
  Nat → List Token → Outcome α

namespace Reader

variable {α β : Type}

/- Read nothing. -/
def done (value : α) : Reader α :=
  fun _ tokens => .read value tokens

/- Read with one reader, then with the next. -/
def andThen
    (reader : Reader α)
    (next : α → Reader β) : Reader β :=
  fun stop tokens =>
    match reader stop tokens with
    | .read value rest => next value stop rest
    | .stuck failure rest => .stuck failure rest

instance : Monad Reader where
  pure := done
  bind := andThen

/- Reading nothing leaves all tokens. -/
@[simp]
theorem pure_apply
    (value : α)
    (stop : Nat)
    (tokens : List Token) :
    (pure value : Reader α) stop tokens =
      .read value tokens := rfl

/- The second reader starts where the first one ended. -/
@[simp]
theorem bind_apply
    (reader : Reader α)
    (next : α → Reader β)
    (stop : Nat)
    (tokens : List Token) :
    (reader >>= next) stop tokens =
      match reader stop tokens with
      | .read value rest => next value stop rest
      | .stuck failure rest => .stuck failure rest := rfl

------------------------------------------------------------
-- Failures
------------------------------------------------------------

/- The offset of the next token, or where the tokens stop. -/
def here
    (stop : Nat) : List Token → Nat
  | [] => stop
  | token :: _ => token.offset

/- The next token, as messages name it. -/
def found : List Token → Option (TokenKind × String)
  | [] => none
  | token :: _ => some (token.kind, token.text)

/- Get stuck with a failure at an earlier offset. -/
def failAt
    (offset : Nat)
    (cause : Cause) : Reader α :=
  fun _ tokens => .stuck ⟨cause, offset⟩ tokens

/- Get stuck because the next token is not what is due. -/
def missing (what : Expectation) : Reader α :=
  fun stop tokens =>
    .stuck ⟨.expected what (found tokens), here stop tokens⟩
      tokens

------------------------------------------------------------
-- Single Tokens
------------------------------------------------------------

/- The next token if it has a given kind. -/
def eat? (kind : TokenKind) : Reader (Option Token) :=
  fun _ tokens =>
    match tokens with
    | [] => .read none []
    | token :: rest =>
        if token.kind = kind then
          .read (some token) rest
        else
          .read none tokens

/- The next token, which has to be of a given kind. -/
def expect
    (kind : TokenKind)
    (what : Expectation) : Reader Token :=
  fun stop tokens =>
    match tokens with
    | [] => missing what stop []
    | token :: rest =>
        if token.kind = kind then
          .read token rest
        else
          missing what stop tokens

/- The word that the text of a token already read stands for. -/
def word
    [Vocabulary α]
    (role : Role)
    (token : Token) : Reader α :=
  match Vocabulary.ofCode? token.text with
  | some value => pure value
  | none =>
      failAt token.offset (.unrecognized role token.text)

/- The number that a token already read stands for. -/
def numeral (token : Token) : Reader UInt32 :=
  match Text.wordOfNumeral? token.text with
  | some value => pure value
  | none => failAt token.offset (.outOfRange token.text)

/- The next token, which has to be a number. -/
def number (what : Expectation) : Reader UInt32 := do
  let token ← expect .number what
  numeral token

end Reader

end StatusEffect
