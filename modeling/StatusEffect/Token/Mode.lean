import StatusEffect.Token.Basic
import StatusEffect.Token.Shape

/-
  Lexical modes and their rules.

  The same letter means different things in different places
  of a notation, so the rules that apply depend on a mode.
  A rule gives a kind to the lexemes of some shapes. In each
  mode the rules are tried in order, the mode's own first
  and the shared ones after them, and the first that matches
  wins. A mode follows from the mode before it, the kind
  of the token just read and the number of open braces.

  Key definitions include:
    * `Rule`
    * `Rule.match?`
    * `Mode`
    * `Mode.rules`
    * `Mode.lexeme`
    * `Mode.after`
-/

------------------------------------------------------------
-- Rules
------------------------------------------------------------

namespace StatusEffect

open Text

/- A kind, and the shapes of its lexemes in order. -/
structure Rule where
  kind : TokenKind
  shapes : List Shape

namespace Rule

/- The lexeme of the first shape that matches, and the rest. -/
def match?
    (rule : Rule)
    (cs : List Char) :
    Option (TokenKind × List Char × List Char) :=
  (rule.shapes.findSome? fun shape => shape.match? cs).map
    fun split => (rule.kind, split.1, split.2)

end Rule

/- Membership in a list of characters. -/
def oneOf (cs : List Char) : Char → Bool :=
  fun c => cs.contains c

/- A character that can start an identifier. -/
def isNameStart (c : Char) : Bool :=
  isLetter c || c == '_'

/- A character that can continue an identifier. -/
def isNameChar (c : Char) : Bool :=
  isLetter c || isAsciiDigit c || c == '_'

namespace Shape

/- A run of decimal digits of any script. -/
def digits : Shape := run isDecimalDigit

/- A name of a condition attribute or value. -/
def name : Shape := word isNameStart isNameChar

/- A word with a hash sign in front. -/
def hashWord : Shape := signed '#' isLetter

/- The comparison operators, the longer ones first. -/
def comparisons : List Shape :=
  [literal '<' ['='], literal '>' ['='], literal '!' ['='],
   literal '=' ['='], one (oneOf ['<', '>', '='])]

end Shape

------------------------------------------------------------
-- Modes
------------------------------------------------------------

/- The places of a notation that have rules of their own. -/
inductive Mode where
  /- At the start of a notation or of a chain target. -/
  | target
  /- Right after the target. -/
  | effect
  /- Right after the effect marker. -/
  | subject
  /- Right after the subject, where `F` is the full value. -/
  | opening
  /- In the core clauses. -/
  | core
  /- Right after the sign of a trigger. -/
  | trigger
  /- Where the attribute of a condition is due. -/
  | attribute
  /- Right after an attribute, where a comparison may follow. -/
  | operator
  /- Right after a comparison. -/
  | value
  /- At the head of an extended section. -/
  | extended
deriving DecidableEq, Repr

namespace Mode

open Shape

/- The rules that every mode shares, tried last. -/
def sharedRules : List Rule :=
  [⟨.whitespace, [run isBlank]⟩,
   ⟨.delimiter, [one (· == '.')]⟩,
   ⟨.comma, [one (· == ',')]⟩,
   ⟨.braceOpen, [one (· == '\x7b')]⟩,
   ⟨.braceClose, [one (· == '\x7d')]⟩,
   ⟨.parenOpen, [one (· == '(')]⟩,
   ⟨.parenClose, [one (· == ')')]⟩,
   ⟨.comparison, comparisons⟩,
   ⟨.specialCondition, [hashWord]⟩,
   ⟨.effectMarker, [one (oneOf ['+', '-', '*', '!', '#'])]⟩,
   ⟨.number, [digits]⟩,
   ⟨.percent, [one (· == '%')]⟩,
   ⟨.conditionSign, [one (· == '?')]⟩,
   ⟨.triggerSign, [one (· == '^')]⟩,
   ⟨.sourceDependency, [pair (· == '~') isLetter]⟩,
   ⟨.resourceMarker, [signed '$' isLetter]⟩,
   ⟨.identifier, [name]⟩]

/- The rules of the core clauses. -/
def coreRules : List Rule :=
  [⟨.number, [digits]⟩,
   ⟨.percent, [one (· == '%')]⟩,
   ⟨.rangeDash, [one (· == '-')]⟩,
   ⟨.durationType, [one (oneOf ['T', 'C', 'P', 'A'])]⟩,
   ⟨.triggerSign, [one (oneOf ['>', '<', '^', 'v'])]⟩,
   ⟨.triggerType, [one (· == 'K')]⟩,
   ⟨.conditionSign, [one (· == '?')]⟩,
   ⟨.element, [one (oneOf ['F', 'W', 'E', 'S', 'D'])]⟩,
   ⟨.comma, [one (· == ',')]⟩,
   ⟨.delimiter, [one (· == '.')]⟩]

/- The rules of the parts of a condition. -/
def conditionRules : List Rule :=
  [⟨.number, [digits]⟩,
   ⟨.identifier, [name]⟩]

/-
  The rules at the head of a section. The codes of flags
  stand before the single letter of a stack limit, which
  would otherwise hide one of them.
-/
def sectionRules : List Rule :=
  [⟨.chainEffect, [⟨(· == '>'), [isUpper, isLower], isLower⟩]⟩,
   ⟨.specialFlag,
    [literal 'D' ['O', 'T'], literal 'S' ['T'],
     literal 'A' ['R']]⟩,
   ⟨.stackingBehavior,
    [pair (· == 'S') (oneOf ['+', '*', 'U'])]⟩,
   ⟨.stackingBehavior, [one (· == 'S')]⟩,
   ⟨.removability, [pair (· == 'R') isUpper]⟩,
   ⟨.visibility, [pair (· == 'V') isUpper]⟩,
   ⟨.interaction, [pair (· == 'I') isUpper]⟩,
   ⟨.sourceDependency, [pair (· == '~') isLetter]⟩,
   ⟨.resourceMarker, [signed '$' isUpper]⟩,
   ⟨.braceOpen, [one (· == '\x7b')]⟩,
   ⟨.conditionSign, [one (· == '?')]⟩,
   ⟨.specialCondition, [hashWord]⟩]

/- The rules that a mode has of its own. -/
def ownRules : Mode → List Rule
  | .target =>
      [⟨.target, [one (oneOf ['P', 'E', 'A', 'X', 'G'])]⟩]
  | .effect =>
      [⟨.effectMarker,
        [one (oneOf ['+', '-', '=', '*', '!', '#'])]⟩]
  | .subject =>
      [⟨.specialCondition, [hashWord]⟩,
       ⟨.specialCondition,
        [⟨isUpper, [isLower, isLower], isLower⟩]⟩,
       ⟨.stat, [one isUpper]⟩]
  | .opening => ⟨.fullValue, [one (· == 'F')]⟩ :: coreRules
  | .core => coreRules
  | .trigger => [⟨.triggerType, [one isLetter]⟩]
  | .attribute => conditionRules
  | .operator => ⟨.comparison, comparisons⟩ :: coreRules
  | .value => conditionRules
  | .extended => sectionRules

/- The rules of a mode, in the order they are tried. -/
def rules (mode : Mode) : List Rule :=
  mode.ownRules ++ sharedRules

/-
  The kind and text of the lexeme at the head of a text, and
  the rest. A character that no rule of the mode accepts is
  an invalid lexeme by itself.
-/
def lexeme
    (mode : Mode)
    (c : Char)
    (cs : List Char) :
    TokenKind × List Char × List Char :=
  match mode.rules.findSome? fun rule =>
      rule.match? (c :: cs) with
  | some found => found
  | none => (.invalid, [c], cs)

/- The number of open braces after a token. -/
def bracesAfter
    (braces : Nat)
    (kind : TokenKind) : Nat :=
  match kind with
  | .braceOpen => braces + 1
  | .braceClose => braces - 1
  | _ => braces

/- The mode after a token that no mode treats specially. -/
def afterKind
    (braces : Nat)
    (kind : TokenKind) : Mode :=
  match kind with
  | .triggerSign => .trigger
  | .conditionSign => .attribute
  | .comparison => .value
  | .comma => if 0 < braces then .attribute else .core
  | _ => .core

/-
  The mode after a token. Parentheses, delimiters and braces
  decide the mode by themselves; the mandatory clauses then
  follow one another whatever the token is.
-/
def after
    (mode : Mode)
    (braces : Nat)
    (kind : TokenKind) : Mode :=
  match kind with
  | .parenOpen => .target
  | .delimiter => .extended
  | .braceOpen => .attribute
  | .braceClose => .core
  | _ =>
      match mode with
      | .target => .effect
      | .effect => .subject
      | .subject => .opening
      | .attribute =>
          if kind = .identifier then
            .operator
          else
            afterKind braces kind
      | _ => afterKind braces kind

------------------------------------------------------------
-- Consumption
------------------------------------------------------------

/- A lexeme and the rest make up the whole text. -/
theorem append_lexeme
    (mode : Mode)
    (c : Char)
    (cs : List Char) :
    (mode.lexeme c cs).2.1 ++ (mode.lexeme c cs).2.2 =
      c :: cs := by
  unfold lexeme
  split
  · rename_i found hFound
    obtain ⟨rule, _, hRule⟩ :=
      List.exists_of_findSome?_eq_some hFound
    simp only [Rule.match?, Option.map_eq_some_iff] at hRule
    obtain ⟨split, hShape, rfl⟩ := hRule
    obtain ⟨shape, _, hMatch⟩ :=
      List.exists_of_findSome?_eq_some hShape
    exact Shape.append_of_match? hMatch
  · rfl

/- What is left after a lexeme is shorter than the text. -/
theorem length_lexeme_lt
    (mode : Mode)
    (c : Char)
    (cs : List Char) :
    (mode.lexeme c cs).2.2.length < (c :: cs).length := by
  unfold lexeme
  split
  · rename_i found hFound
    obtain ⟨rule, _, hRule⟩ :=
      List.exists_of_findSome?_eq_some hFound
    simp only [Rule.match?, Option.map_eq_some_iff] at hRule
    obtain ⟨split, hShape, rfl⟩ := hRule
    obtain ⟨shape, _, hMatch⟩ :=
      List.exists_of_findSome?_eq_some hShape
    exact Shape.length_lt_of_match? hMatch
  · simp

end Mode

end StatusEffect
