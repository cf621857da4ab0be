import StatusEffect.Pattern.Check
import StatusEffect.Text.Bytes
import StatusEffect.Text.Decimal

/-
  Log filters.

  A log filter is a list of directives, separated by commas.
  A directive is a level, or names what it applies to: a
  target, a span in brackets, or both. A span may hold a
  field in braces, with a value: a number or a pattern. A
  level may follow the names behind an equals sign. Logging
  itself is no part of this library; a filter only has to be
  well formed.

  A directive is walked through without the blanks around
  it. Its pieces are counted from there, but cut out of the
  directive with its blanks. So a level or a target by
  itself may have blanks around it, while a level behind an
  equals sign is only found if there are none. A cut that
  falls inside a character breaks the check off.

  Key definitions include:
    * `LogFilter.Fault`
    * `LogFilter.Place`
    * `LogFilter.isLevel`
    * `LogFilter.isField`
    * `LogFilter.step`
    * `LogFilter.check`
-/

------------------------------------------------------------
-- Levels
------------------------------------------------------------

namespace StatusEffect

open Text

namespace LogFilter

/- An ASCII letter in lower case. -/
def lower (c : Char) : Char :=
  if isUpper c then Char.ofNat (c.toNat + 0x20) else c

/- The names of the levels. -/
def levelNames : List String :=
  ["trace", "debug", "info", "warn", "error", "off"]

/- The number of the level that lets everything through. -/
def lastLevel : Nat := 5

/- A level, by its name in either case or by its number. -/
def isLevel (word : List Char) : Bool :=
  levelNames.contains (String.ofList (word.map lower)) ||
    (wordOfNumeral? (String.ofList word)).any fun level =>
      level.toNat ≤ lastLevel

------------------------------------------------------------
-- Fields
------------------------------------------------------------

/- A text without a leading sign. -/
def skipSign : List Char → List Char
  | '+' :: rest => rest
  | '-' :: rest => rest
  | cs => cs

/- The exponent of a number, or nothing. -/
def isExponent : List Char → Bool
  | [] => true
  | c :: rest =>
      let digits := skipSign rest
      lower c == 'e' && !digits.isEmpty &&
        digits.all isAsciiDigit

/- A number with digits on some side of its point. -/
def isDecimal (cs : List Char) : Bool :=
  let whole := cs.takeWhile isAsciiDigit
  match cs.dropWhile isAsciiDigit with
  | '.' :: rest =>
      let behind := rest.takeWhile isAsciiDigit
      !(whole.isEmpty && behind.isEmpty) &&
        isExponent (rest.dropWhile isAsciiDigit)
  | rest => !whole.isEmpty && isExponent rest

/- A number, or a name of what is none. -/
def isNumber (cs : List Char) : Bool :=
  let unsigned := skipSign cs
  ["inf", "infinity", "nan"].contains
      (String.ofList (unsigned.map lower)) ||
    isDecimal unsigned

/-
  A field: a name, and perhaps a value behind an equals sign
  and up to the next.
-/
def isField (field : List Char) : Bool :=
  match field, field.dropWhile (· != '=') with
  | [], _ => false
  | _, '=' :: rest =>
      let value := rest.takeWhile (· != '=')
      isNumber value || Pattern.isWellFormed value
  | _, _ => true

------------------------------------------------------------
-- Directives
------------------------------------------------------------

/- Why a filter was not accepted. -/
inductive Fault where
  /- A directive is not well formed. -/
  | malformed
  /- A piece of a directive ends inside a character. -/
  | misaligned
deriving DecidableEq, Repr

/-
  Where the reading of a directive stands. The numbers are
  the offsets where a piece starts.
-/
inductive Place where
  | start
  | name
  | span (since : Nat)
  | field (since : Nat)
  | fieldEnd
  | named
  | level (since : Nat)
deriving DecidableEq, Repr

/- The piece of a directive between two byte offsets. -/
def piece
    (directive : List Char)
    (start stop : Nat) : Except Fault (List Char) :=
  match
    charsBefore? directive start,
    charsBefore? directive stop
  with
  | some before, some upTo =>
      .ok ((directive.take upTo).drop before)
  | _, _ => .error .misaligned

/- A character that the name of a target can start with. -/
def startsName (c : Char) : Bool :=
  c == '-' || c == ':' || c == '_' || isAlphanumeric c

/- The place after a character at an offset. -/
def step
    (directive : List Char)
    (offset : Nat)
    (c : Char) : Place → Except Fault Place
  | .start =>
      if c == '[' then
        .ok (.span (offset + 1))
      else if startsName c then
        .ok .name
      else
        .error .malformed
  | .name =>
      if c == '=' then do
        let _ ← piece directive 0 offset
        .ok (.level (offset + 1))
      else if c == '[' then do
        let _ ← piece directive 0 offset
        .ok (.span (offset + 1))
      else
        .ok .name
  | .span since =>
      if c == ']' then do
        let _ ← piece directive since offset
        .ok .named
      else if c == '\x7b' then do
        let _ ← piece directive since offset
        .ok (.field (offset + 1))
      else
        .ok (.span since)
  | .field since =>
      if c == '\x7d' then do
        let found ← piece directive since offset
        if isField found then
          .ok .fieldEnd
        else
          .error .malformed
      else
        .ok (.field since)
  | .fieldEnd =>
      if c == ']' then .ok .named else .error .malformed
  | .named =>
      if c == '=' then
        .ok (.level (offset + 1))
      else
        .error .malformed
  | .level since => .ok (.level since)

/- The place after some characters from an offset on. -/
def walk
    (directive : List Char) :
    Nat → Place → List Char → Except Fault Place
  | _, place, [] => .ok place
  | offset, place, c :: cs => do
      let place ← step directive offset c place
      walk directive (offset + c.utf8Size) place cs

/- A directive may end at a place. -/
def finish
    (directive : List Char) : Place → Except Fault Unit
  | .name => .ok ()
  | .named => .ok ()
  | .level since => do
      let word ← piece directive since (byteLength directive)
      if word.isEmpty || isLevel word then
        .ok ()
      else
        .error .malformed
  | _ => .error .malformed

/- A directive is well formed. -/
def checkDirective
    (directive : List Char) : Except Fault Unit := do
  let place ← walk directive 0 .start (trimmed directive)
  finish directive place

------------------------------------------------------------
-- Filters
------------------------------------------------------------

/- A text cut at its commas. -/
def commaParts : List Char → List (List Char)
  | [] => [[]]
  | c :: cs =>
      match commaParts cs with
      | [] => [[c]]
      | part :: parts =>
          if c == ',' then [] :: part :: parts
          else (c :: part) :: parts

/- All directives of a filter are well formed. -/
def check (filter : String) : Except Fault Unit :=
  ((commaParts filter.toList).filter
    fun part => !part.isEmpty).forM checkDirective

end LogFilter

end StatusEffect
