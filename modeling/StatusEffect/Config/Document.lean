import StatusEffect.Text.Decimal
import StatusEffect.Text.Hexadecimal

/-
  Configuration documents.

  A document is written in TOML: settings under dotted keys,
  tables under headings, comments. Of its values this reader
  knows strings, truth values, integers, arrays and inline
  tables; a document with anything else is refused, as is
  one that defines the same key or table twice.

  Key definitions include:
    * `Document.Value`
    * `Document.TableKind`
    * `Document.string?`
    * `Document.value`
    * `Document.define`
    * `Document.openTable`
    * `Document.ofText?`
-/

------------------------------------------------------------
-- Values
------------------------------------------------------------

namespace StatusEffect

open Text

namespace Document

/- How a table came to be, which decides how it can grow. -/
inductive TableKind where
  /- On the way to the table of a heading. -/
  | implied
  /- By a heading of its own. -/
  | headed
  /- On the way to the value of a dotted key. -/
  | dotted
  /- Between braces, and complete. -/
  | inline
deriving DecidableEq, Repr

/- A value of a document. -/
inductive Value where
  | text (text : String)
  | truth (value : Bool)
  | integer (value : Int)
  | list (items : List Value)
  | table
      (kind : TableKind)
      (entries : List (String × Value))
deriving Repr

/- The entries of a table, in order. -/
abbrev Entries := List (String × Value)

------------------------------------------------------------
-- Tables
------------------------------------------------------------

/- The entry of a key. -/
def find?
    (key : String)
    (entries : Entries) : Option Value :=
  (entries.find? fun entry => entry.1 == key).map (·.2)

/- The entries with another value for a key that is there. -/
def replace
    (key : String)
    (value : Value)
    (entries : Entries) : Entries :=
  entries.map fun entry =>
    if entry.1 == key then (key, value) else entry

/-
  Define the value of a dotted key. The tables on the way
  must not have a heading or braces of their own.
-/
def define
    (value : Value) :
    List String → Entries → Option Entries
  | [], _ => none
  | [key], entries =>
      match find? key entries with
      | none => some (entries ++ [(key, value)])
      | some _ => none
  | key :: path, entries =>
      match find? key entries with
      | none => do
          let inner ← define value path []
          some (entries ++ [(key, .table .dotted inner)])
      | some (.table kind inner) =>
          if kind = .implied ∨ kind = .dotted then do
            let inner ← define value path inner
            some (replace key (.table kind inner) entries)
          else
            none
      | some _ => none

/-
  Open the table of a heading. It must not have been opened
  before, nor be the value of a key.
-/
def openTable :
    List String → Entries → Option Entries
  | [], _ => none
  | [key], entries =>
      match find? key entries with
      | none => some (entries ++ [(key, .table .headed [])])
      | some (.table .implied inner) =>
          some (replace key (.table .headed inner) entries)
      | some _ => none
  | key :: path, entries =>
      match find? key entries with
      | none => do
          let inner ← openTable path []
          some (entries ++ [(key, .table .implied inner)])
      | some (.table .inline _) => none
      | some (.table kind inner) => do
          let inner ← openTable path inner
          some (replace key (.table kind inner) entries)
      | some _ => none

/- Define the value of a dotted key inside an open table. -/
def defineIn
    (key : List String)
    (value : Value) :
    List String → Entries → Option Entries
  | [], entries => define value key entries
  | name :: path, entries =>
      match find? name entries with
      | some (.table kind inner) => do
          let inner ← defineIn key value path inner
          some (replace name (.table kind inner) entries)
      | _ => none

------------------------------------------------------------
-- Strings
------------------------------------------------------------

/- A space or a tab. -/
def isGap (c : Char) : Bool :=
  c == ' ' || c == '\t'

/- A text without its leading spaces and tabs. -/
def skipGap (cs : List Char) : List Char :=
  cs.dropWhile isGap

/- A character that may stand in a string or a comment. -/
def isPlain (c : Char) : Bool :=
  c == '\t' || (0x20 ≤ c.toNat && c.toNat ≠ 0x7F)

/- The character of a short escape. -/
def shortEscape? : Char → Option Char
  | 'b' => some '\x08'
  | 't' => some '\t'
  | 'n' => some '\n'
  | 'f' => some '\x0c'
  | 'r' => some '\r'
  | '\x22' => some '\x22'
  | '\\' => some '\\'
  | _ => none

/- The character of an escape, after its backslash. -/
def escape? : List Char → Option (Char × List Char)
  | 'u' :: a :: b :: c :: d :: rest => do
      let char ← scalar? [a, b, c, d]
      some (char, rest)
  | 'U' :: a :: b :: c :: d :: e :: f :: g :: h :: rest => do
      let char ← scalar? [a, b, c, d, e, f, g, h]
      some (char, rest)
  | c :: rest => do
      let char ← shortEscape? c
      some (char, rest)
  | [] => none

/-
  The rest of a string with escapes, and what follows it. The
  number bounds the characters of the string.
-/
def basicText :
    Nat → List Char → Option (List Char × List Char)
  | 0, _ => none
  | _ + 1, [] => none
  | _ + 1, '\x22' :: rest => some ([], rest)
  | bound + 1, '\\' :: rest => do
      let (char, rest) ← escape? rest
      let (text, rest) ← basicText bound rest
      some (char :: text, rest)
  | bound + 1, c :: rest =>
      if isPlain c then do
        let (text, rest) ← basicText bound rest
        some (c :: text, rest)
      else
        none

/- The rest of a string without escapes, and what follows it. -/
def literalText : List Char → Option (List Char × List Char)
  | [] => none
  | '\x27' :: rest => some ([], rest)
  | c :: rest =>
      if isPlain c then do
        let (text, rest) ← literalText rest
        some (c :: text, rest)
      else
        none

------------------------------------------------------------
-- Strings Of Several Lines
------------------------------------------------------------

/- What follows the end of a line. -/
def newline? : List Char → Option (List Char)
  | '\n' :: rest => some rest
  | '\r' :: '\n' :: rest => some rest
  | _ => none

/- A text without a leading end of line. -/
def skipNewline (cs : List Char) : List Char :=
  (newline? cs).getD cs

/- A text without leading gaps and ends of lines. -/
def skipSpace : List Char → List Char
  | '\r' :: '\n' :: rest => skipSpace rest
  | c :: rest =>
      if isGap c || c == '\n' then skipSpace rest
      else c :: rest
  | [] => []

/-
  What follows an escaped end of line, after its backslash.
  It stands for nothing, nor does the space behind it.
-/
def escapedNewline? (cs : List Char) : Option (List Char) :=
  (newline? (skipGap cs)).map skipSpace

/-
  The marks that belong to a string, at a closing row of
  three, and what follows it. Two more marks may stand
  before the row.
-/
def closingMarks?
    (mark : Char) :
    List Char → Option (List Char × List Char)
  | a :: b :: c :: rest =>
      if a == mark && b == mark && c == mark then
        let more := (rest.take 2).takeWhile (· == mark)
        some (more, rest.drop more.length)
      else
        none
  | _ => none

/- The rest of a string of several lines, with escapes. -/
def longBasicText :
    Nat → List Char → Option (List Char × List Char)
  | 0, _ => none
  | bound + 1, cs =>
      match closingMarks? '\x22' cs, cs with
      | some closing, _ => some closing
      | none, '\\' :: rest =>
          match escapedNewline? rest with
          | some rest => longBasicText bound rest
          | none => do
              let (char, rest) ← escape? rest
              let (text, rest) ← longBasicText bound rest
              some (char :: text, rest)
      | none, c :: rest =>
          match newline? (c :: rest) with
          | some rest => do
              let (text, rest) ← longBasicText bound rest
              some ('\n' :: text, rest)
          | none =>
              if isPlain c then do
                let (text, rest) ← longBasicText bound rest
                some (c :: text, rest)
              else
                none
      | none, [] => none

/- The rest of a string of several lines, without escapes. -/
def longLiteralText :
    Nat → List Char → Option (List Char × List Char)
  | 0, _ => none
  | bound + 1, cs =>
      match closingMarks? '\x27' cs, cs with
      | some closing, _ => some closing
      | none, c :: rest =>
          match newline? (c :: rest) with
          | some rest => do
              let (text, rest) ← longLiteralText bound rest
              some ('\n' :: text, rest)
          | none =>
              if isPlain c then do
                let (text, rest) ← longLiteralText bound rest
                some (c :: text, rest)
              else
                none
      | none, [] => none

/- A string with its marks, and what follows it. -/
def string? : List Char → Option (List Char × List Char)
  | '\x22' :: '\x22' :: '\x22' :: rest =>
      longBasicText (rest.length + 1) (skipNewline rest)
  | '\x27' :: '\x27' :: '\x27' :: rest =>
      longLiteralText (rest.length + 1) (skipNewline rest)
  | '\x22' :: rest => basicText (rest.length + 1) rest
  | '\x27' :: rest => literalText rest
  | _ => none

------------------------------------------------------------
-- Keys
------------------------------------------------------------

/- A character of a key without quotation marks. -/
def isBare (c : Char) : Bool :=
  isLetter c || isAsciiDigit c || c == '_' || c == '-'

/- One part of a key. -/
def keyPart : List Char → Option (String × List Char)
  | '\x22' :: rest => do
      let (text, rest) ← basicText (rest.length + 1) rest
      some (String.ofList text, rest)
  | '\x27' :: rest => do
      let (text, rest) ← literalText rest
      some (String.ofList text, rest)
  | cs =>
      let bare := cs.takeWhile isBare
      if bare.isEmpty then
        none
      else
        some (String.ofList bare, cs.dropWhile isBare)

/- The parts of a dotted key, at most as many as given. -/
def dottedKey :
    Nat → List Char → Option (List String × List Char)
  | 0, _ => none
  | parts + 1, cs => do
      let (first, rest) ← keyPart (skipGap cs)
      match skipGap rest with
      | '.' :: rest => do
          let (others, rest) ← dottedKey parts rest
          some (first :: others, rest)
      | rest => some ([first], rest)

/- A dotted key, and what follows it. -/
def key (cs : List Char) :
    Option (List String × List Char) :=
  dottedKey cs.length cs

------------------------------------------------------------
-- Lines
------------------------------------------------------------

/- A text without a leading comment. -/
def skipComment (cs : List Char) : List Char :=
  match cs with
  | '#' :: rest => rest.dropWhile isPlain
  | _ => cs

/- What follows the rest of a line that says nothing more. -/
def lineEnd? (cs : List Char) : Option (List Char) :=
  match skipComment (skipGap cs) with
  | [] => some []
  | rest => newline? rest

/- A text without leading gaps, comments and line ends. -/
def skipLines :
    Nat → List Char → List Char
  | 0, cs => cs
  | lines + 1, cs =>
      let rest := skipComment (skipGap cs)
      match newline? rest with
      | some rest => skipLines lines rest
      | none => rest

------------------------------------------------------------
-- Reading Values
------------------------------------------------------------

/- An integer in decimal digits. -/
def integer? (word : List Char) : Option Int :=
  let (sign, digits) : Int × List Char :=
    match word with
    | '-' :: rest => (-1, rest)
    | '+' :: rest => (1, rest)
    | rest => (1, rest)
  if digits.isEmpty || !digits.all isAsciiDigit ||
      (digits.length != 1 && digits.head? == some '0') then
    none
  else
    some (sign * digitsValue digits)

/- A value that is written without any marks. -/
def plainValue? (word : List Char) : Option Value :=
  if word = "true".toList then some (.truth true)
  else if word = "false".toList then some (.truth false)
  else (integer? word).map .integer

mutual

/-
  A value and what follows it. The number bounds the number
  of values inside it, so that reading always ends.
-/
def value :
    Nat → List Char → Option (Value × List Char)
  | 0, _ => none
  | bound + 1, '[' :: rest =>
      match skipLines rest.length rest with
      | ']' :: rest => some (.list [], rest)
      | rest => do
          let (items, rest) ← listItems bound rest
          some (.list items, rest)
  | bound + 1, '\x7b' :: rest =>
      match skipGap rest with
      | '\x7d' :: rest => some (.table .inline [], rest)
      | rest => do
          let (entries, rest) ← inlineEntries bound [] rest
          some (.table .inline entries, rest)
  | _ + 1, cs =>
      match string? cs with
      | some (text, rest) =>
          some (.text (String.ofList text), rest)
      | none => do
          let isMark (c : Char) : Bool := isBare c || c == '+'
          let found ← plainValue? (cs.takeWhile isMark)
          some (found, cs.dropWhile isMark)

/- The items of an array that has at least one. -/
def listItems :
    Nat → List Char → Option (List Value × List Char)
  | 0, _ => none
  | bound + 1, cs => do
      let (item, rest) ← value bound cs
      match skipLines rest.length rest with
      | ']' :: rest => some ([item], rest)
      | ',' :: rest =>
          match skipLines rest.length rest with
          | ']' :: rest => some ([item], rest)
          | rest => do
              let (items, rest) ← listItems bound rest
              some (item :: items, rest)
      | _ => none

/- The entries of an inline table that has at least one. -/
def inlineEntries :
    Nat →
      Entries →
        List Char → Option (Entries × List Char)
  | 0, _, _ => none
  | bound + 1, entries, cs => do
      let (name, rest) ← key cs
      match rest with
      | '=' :: rest => do
          let (item, rest) ← value bound (skipGap rest)
          let entries ← define item name entries
          match skipGap rest with
          | '\x7d' :: rest => some (entries, rest)
          | ',' :: rest => inlineEntries bound entries rest
          | _ => none
      | _ => none

end

------------------------------------------------------------
-- Reading Documents
------------------------------------------------------------

/- A heading, after its bracket, and what follows its line. -/
def heading? (cs : List Char) :
    Option (List String × List Char) := do
  let (name, rest) ← key cs
  match rest with
  | ']' :: rest => do
      let rest ← lineEnd? rest
      some (name, rest)
  | _ => none

/- A setting, and what follows its line. -/
def setting? (cs : List Char) :
    Option (List String × Value × List Char) := do
  let (name, rest) ← key cs
  match rest with
  | '=' :: rest => do
      let (found, rest) ← value rest.length (skipGap rest)
      let rest ← lineEnd? rest
      some (name, found, rest)
  | _ => none

/-
  Read settings and headings up to the end, under the table
  that was opened last. Each takes at least one character.
-/
def readLines :
    Nat →
      List String → Entries → List Char → Option Entries
  | 0, _, _, _ => none
  | bound + 1, path, entries, cs =>
      match skipLines cs.length cs with
      | [] => some entries
      | '[' :: rest => do
          let (name, rest) ← heading? rest
          let entries ← openTable name entries
          readLines bound name entries rest
      | rest => do
          let (name, found, rest) ← setting? rest
          let entries ← defineIn name found path entries
          readLines bound path entries rest

/- The entries of a document, if it can be read. -/
def ofText? (text : String) : Option Entries :=
  let cs :=
    match text.toList with
    | '\ufeff' :: rest => rest
    | cs => cs
  readLines (cs.length + 1) [] [] cs

end Document

end StatusEffect
