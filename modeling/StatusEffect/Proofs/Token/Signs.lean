import StatusEffect.Proofs.Token.Lexeme
import StatusEffect.Proofs.Grammar.Section

/-
  Points, parentheses and braces.

  Each of these signs is a lexeme by itself in every mode,
  and no other lexeme has one of them in it. The signs of a
  text are therefore the signs of its tokens, so that the
  brackets of a text and those of its tokens can be counted
  in the same way.

  Key definitions include:
    * `Text.openAfter`
    * `Text.Matched`
    * `Text.WellBalanced`
    * `Text.nesting`
    * `Text.openBraces`
    * `signs`
    * `SameSigns`

  Key theorems include:
    * `Mode.lexeme_sign`
    * `Mode.not_sign_of_lexeme`
    * `Scanner.sameSigns_of_run`
    * `SameSigns.parensOver?_eq`
    * `SameSigns.braces_eq`
-/

------------------------------------------------------------
-- Brackets Of Texts
------------------------------------------------------------

namespace StatusEffect

namespace Text

/-
  The number of open brackets after a character. Closing
  what is not open leaves the number at zero.
-/
def openAfter
    (opening close : Char)
    (opened : Nat)
    (c : Char) : Nat :=
  if c = opening then
    opened + 1
  else if c = close then
    opened - 1
  else
    opened

/-
  The number of open brackets after some characters. There
  is none if they close a bracket that was not open.
-/
def openOver?
    (opening close : Char) : Nat → List Char → Option Nat
  | opened, [] => some opened
  | opened, c :: cs =>
      if c = close ∧ opened = 0 then
        none
      else
        openOver? opening close
          (openAfter opening close opened c) cs

/- The greatest number of brackets open at the same time. -/
def deepest
    (opening close : Char) : Nat → List Char → Nat
  | opened, [] => opened
  | opened, c :: cs =>
      max opened
        (deepest opening close
          (openAfter opening close opened c) cs)

/- Every bracket is closed, and none that was not open. -/
def Matched
    (opening close : Char)
    (text : String) : Prop :=
  openOver? opening close 0 text.toList = some 0

/- The parentheses of a text match, and so do its braces. -/
def WellBalanced (text : String) : Prop :=
  Matched '(' ')' text ∧ Matched '\x7b' '\x7d' text

/- How deep the parentheses of a text are nested. -/
def nesting (text : String) : Nat :=
  deepest '(' ')' 0 text.toList

/- The number of braces that a text leaves open. -/
def openBraces (text : String) : Nat :=
  text.toList.foldl (openAfter '\x7b' '\x7d') 0

instance
    (opening close : Char) :
    DecidablePred (Matched opening close) :=
  fun text =>
    inferInstanceAs
      (Decidable
        (openOver? opening close 0 text.toList = some 0))

instance : DecidablePred WellBalanced :=
  fun text =>
    inferInstanceAs
      (Decidable
        (Matched '(' ')' text ∧
          Matched '\x7b' '\x7d' text))

/- Where no bracket is closed too early the counts agree. -/
theorem foldl_openAfter_of_openOver?
    {opening close : Char}
    {opened last : Nat}
    {cs : List Char}
    (hOver : openOver? opening close opened cs = some last) :
    cs.foldl (openAfter opening close) opened = last := by
  induction cs generalizing opened with
  | nil => simpa [openOver?] using hOver
  | cons c cs ih =>
      simp only [openOver?] at hOver
      split at hOver
      · simp at hOver
      · exact ih hOver

/- Brackets are counted from left to right. -/
theorem openOver?_append
    {opening close : Char}
    (opened : Nat)
    (first second : List Char) :
    openOver? opening close opened (first ++ second) =
      (openOver? opening close opened first).bind
        fun between =>
          openOver? opening close between second := by
  induction first generalizing opened with
  | nil => rfl
  | cons c first ih =>
      simp only [List.cons_append, openOver?]
      split
      · rfl
      · exact ih _

/- Where there is no bracket, none is opened or closed. -/
theorem openOver?_of_notMem
    {opening close : Char}
    {cs : List Char}
    (hOpening : opening ∉ cs)
    (hClose : close ∉ cs)
    (opened : Nat) :
    openOver? opening close opened cs = some opened := by
  induction cs with
  | nil => rfl
  | cons c cs ih =>
      simp only [List.mem_cons, not_or] at hOpening hClose
      have hFirst := Ne.symm hOpening.1
      have hSecond := Ne.symm hClose.1
      simp [openOver?, openAfter, hFirst, hSecond,
        ih hOpening.2 hClose.2]

/- A text with matching braces leaves none open. -/
theorem openBraces_of_wellBalanced
    {text : String}
    (hText : WellBalanced text) :
    openBraces text = 0 :=
  foldl_openAfter_of_openOver? hText.2

end Text

------------------------------------------------------------
-- Signs
------------------------------------------------------------

/- The signs that are one token each, with its kind. -/
def signs : List (Char × TokenKind) :=
  [('.', .delimiter), ('(', .parenOpen),
   (')', .parenClose), ('\x7b', .braceOpen),
   ('\x7d', .braceClose)]

/- A character is one of the signs. -/
def isSign (c : Char) : Bool :=
  signs.any (·.1 == c)

/- A kind is that of one of the signs. -/
def isSignKind (kind : TokenKind) : Bool :=
  signs.any (·.2 == kind)

/- A sign is found by its character. -/
theorem isSign_of_mem
    {sign : Char × TokenKind}
    (hSign : sign ∈ signs) :
    isSign sign.1 = true :=
  List.any_eq_true.mpr ⟨sign, hSign, beq_self_eq_true _⟩

/- A character that is a sign has an entry of its own. -/
theorem exists_of_isSign
    {c : Char}
    (hSign : isSign c = true) :
    ∃ sign ∈ signs, sign.1 = c := by
  simpa [isSign] using hSign

/- A kind that is that of a sign has an entry of its own. -/
theorem exists_of_isSignKind
    {kind : TokenKind}
    (hKind : isSignKind kind = true) :
    ∃ sign ∈ signs, sign.2 = kind := by
  simpa [isSignKind] using hKind

/- No two signs have the same character. -/
theorem eq_of_sign_eq
    {first second : Char × TokenKind}
    (hFirst : first ∈ signs)
    (hSecond : second ∈ signs)
    (hSame : first.1 = second.1) :
    first = second := by
  have hAll :
      ∀ one ∈ signs, ∀ other ∈ signs,
        one.1 = other.1 → one = other := by
    decide
  exact hAll first hFirst second hSecond hSame

namespace Shape

/- A character can only be the first one of a lexeme. -/
def breaksAt
    (shape : Shape)
    (c : Char) : Bool :=
  shape.body.all (fun accepts => !accepts c) &&
    !shape.tail c

/- A character that no class accepts is not in a lexeme. -/
theorem not_mem_of_fits
    {classes : List (Char → Bool)}
    {tail : Char → Bool}
    {lexeme : List Char}
    {c : Char}
    (hClasses : ∀ accepts ∈ classes, accepts c = false)
    (hTail : tail c = false)
    (hFits : fits classes tail lexeme = true) :
    c ∉ lexeme := by
  induction classes generalizing lexeme with
  | nil =>
      intro hMember
      have hAccepts := List.all_eq_true.mp hFits c hMember
      rw [hTail] at hAccepts
      cases hAccepts
  | cons accepts classes ih =>
      rw [List.forall_mem_cons] at hClasses
      cases lexeme with
      | nil => simp
      | cons d lexeme =>
          simp only [fits, Bool.and_eq_true] at hFits
          rw [List.mem_cons, not_or]
          refine ⟨?_, ih hClasses.2 hFits.2⟩
          intro hSame
          rw [← hSame, hClasses.1] at hFits
          simp at hFits

end Shape

namespace Mode

/- A text is its first lexeme and the rest. -/
theorem eq_append_of_lexeme
    {mode : Mode}
    {c : Char}
    {cs lexeme rest : List Char}
    {kind : TokenKind}
    (hLexeme : mode.lexeme c cs = (kind, lexeme, rest)) :
    c :: cs = lexeme ++ rest := by
  have hAppend := mode.append_lexeme c cs
  rw [hLexeme] at hAppend
  exact hAppend.symm

/- Every sign breaks every lexeme that it does not start. -/
theorem breaksAt_of_sign
    {c : Char}
    (hSign : isSign c = true)
    (mode : Mode) :
    ∀ rule ∈ mode.rules, ∀ shape ∈ rule.shapes,
      shape.breaksAt c = true := by
  have hAll :
      ∀ rule ∈ mode.rules, ∀ shape ∈ rule.shapes,
        ∀ sign ∈ signs, shape.breaksAt sign.1 = true := by
    cases mode <;> decide
  rcases exists_of_isSign hSign with ⟨sign, hMember, rfl⟩
  intro rule hRule shape hShape
  exact hAll rule hRule shape hShape sign hMember

/- The rules of a sign match that sign and nothing else. -/
theorem shapes_of_sign
    {mode : Mode}
    {rule : Rule}
    {sign : Char × TokenKind}
    (hRule : rule ∈ mode.rules)
    (hSign : sign ∈ signs)
    (hKind : rule.kind = sign.2) :
    rule.shapes = [Shape.one (· == sign.1)] := by
  have hAll :
      ∀ rule ∈ mode.rules, ∀ sign ∈ signs,
        rule.kind = sign.2 →
          rule.shapes = [Shape.one (· == sign.1)] := by
    unfold rules
    rw [List.forall_mem_append]
    constructor
    · cases mode <;>
        simp [ownRules, coreRules, conditionRules,
          sectionRules, signs]
    · simp [sharedRules, signs]
  exact hAll rule hRule sign hSign hKind

/- The rules of other kinds do not start with a sign. -/
theorem rejects_of_sign
    {mode : Mode}
    {rule : Rule}
    {sign : Char × TokenKind}
    (hRule : rule ∈ mode.rules)
    (hSign : sign ∈ signs)
    (hKind : isSignKind rule.kind = false) :
    rule.rejects sign.1 = true := by
  have hAll :
      ∀ rule ∈ mode.rules, ∀ sign ∈ signs,
        isSignKind rule.kind = false →
          rule.rejects sign.1 = true := by
    cases mode <;> decide
  exact hAll rule hRule sign hSign hKind

/- Every mode has a rule for every sign. -/
theorem exists_rule_of_sign
    {sign : Char × TokenKind}
    (hSign : sign ∈ signs)
    (mode : Mode) :
    ∃ rule ∈ mode.rules, rule.kind = sign.2 := by
  have hAll :
      ∀ sign ∈ signs,
        ∃ rule ∈ sharedRules, rule.kind = sign.2 := by
    decide
  rcases hAll sign hSign with ⟨rule, hRule, hKind⟩
  exact ⟨rule, List.mem_append_right _ hRule, hKind⟩

/- A rule that matches at a sign matches that sign alone. -/
theorem eq_of_match?_sign
    {mode : Mode}
    {rule : Rule}
    {sign : Char × TokenKind}
    {rest : List Char}
    {found : TokenKind × List Char × List Char}
    (hRule : rule ∈ mode.rules)
    (hSign : sign ∈ signs)
    (hMatch : rule.match? (sign.1 :: rest) = some found) :
    found = (sign.2, [sign.1], rest) := by
  cases hKind : isSignKind rule.kind with
  | false =>
      have hRejects := rejects_of_sign hRule hSign hKind
      rw [Rule.match?_of_rejects hRejects rest] at hMatch
      cases hMatch
  | true =>
      rcases exists_of_isSignKind hKind with
        ⟨other, hOther, hSame⟩
      have hShapes := shapes_of_sign hRule hOther hSame.symm
      simp only [Rule.match?, hShapes] at hMatch
      by_cases hChar : sign.1 = other.1
      · have hEq := eq_of_sign_eq hSign hOther hChar
        subst hEq
        simp [Shape.one, Shape.match?, Shape.takeFixed?,
          ← hSame] at hMatch
        rw [← hMatch]
      · simp [Shape.one, Shape.match?, Shape.takeFixed?,
          hChar] at hMatch

/- A sign is a lexeme by itself, whatever follows it. -/
theorem lexeme_sign
    {sign : Char × TokenKind}
    (hSign : sign ∈ signs)
    (mode : Mode)
    (rest : List Char) :
    mode.lexeme sign.1 rest = (sign.2, [sign.1], rest) := by
  unfold lexeme
  split
  · rename_i found hFound
    rcases List.exists_of_findSome?_eq_some hFound with
      ⟨rule, hRule, hMatch⟩
    exact eq_of_match?_sign hRule hSign hMatch
  · rename_i hNone
    rw [List.findSome?_eq_none_iff] at hNone
    rcases exists_rule_of_sign hSign mode with
      ⟨rule, hRule, hKind⟩
    have hMatch := hNone rule hRule
    simp [Rule.match?, shapes_of_sign hRule hSign hKind,
      Shape.one, Shape.match?, Shape.takeFixed?] at hMatch

/- A lexeme that starts with no sign has nothing of a sign. -/
theorem not_sign_of_lexeme
    {mode : Mode}
    {c : Char}
    {cs lexeme rest : List Char}
    {kind : TokenKind}
    (hLexeme : mode.lexeme c cs = (kind, lexeme, rest))
    (hValid : kind ≠ .invalid)
    (hFirst : isSign c = false) :
    isSignKind kind = false ∧
      ∀ d ∈ lexeme, isSign d = false := by
  rcases describes_of_lexeme hLexeme hValid with
    ⟨rule, hRule, rfl, shape, hShape, hDescribes⟩
  have hAppend := eq_append_of_lexeme hLexeme
  rcases lexeme with _ | ⟨first, others⟩
  · simp [Shape.describes, Shape.fits] at hDescribes
  · simp only [List.cons_append, List.cons.injEq] at hAppend
    rcases hAppend with ⟨rfl, _⟩
    simp only [Shape.describes, Shape.fits,
      Bool.and_eq_true] at hDescribes
    refine ⟨?_, ?_⟩
    · rw [Bool.eq_false_iff]
      intro hKind
      rcases exists_of_isSignKind hKind with
        ⟨sign, hSign, hSame⟩
      rw [shapes_of_sign hRule hSign hSame.symm,
        List.mem_singleton] at hShape
      subst hShape
      have hChar : c = sign.1 := by
        simpa [Shape.one] using hDescribes.1
      rw [hChar, isSign_of_mem hSign] at hFirst
      cases hFirst
    · intro d hMember
      rw [Bool.eq_false_iff]
      intro hSign
      have hBreaks := breaksAt_of_sign hSign mode rule hRule
        shape hShape
      simp only [Shape.breaksAt, Bool.and_eq_true,
        List.all_eq_true, Bool.not_eq_true'] at hBreaks
      rcases List.mem_cons.mp hMember with rfl | hOther
      · rw [hSign] at hFirst
        cases hFirst
      · exact
          Shape.not_mem_of_fits hBreaks.1 hBreaks.2
            hDescribes.2 hOther

end Mode

------------------------------------------------------------
-- Texts And Tokens
------------------------------------------------------------

/-
  The signs of a text are those of some tokens, in the same
  order. Between them each may have anything else.
-/
inductive SameSigns : List Char → List Token → Prop where
  | none : SameSigns [] []
  | text
      {lexeme cs : List Char}
      {tokens : List Token}
      (hLexeme : ∀ c ∈ lexeme, isSign c = false)
      (hRest : SameSigns cs tokens) :
      SameSigns (lexeme ++ cs) tokens
  | word
      {token : Token}
      {cs : List Char}
      {tokens : List Token}
      (hKind : isSignKind token.kind = false)
      (hRest : SameSigns cs tokens) :
      SameSigns cs (token :: tokens)
  | sign
      {sign : Char × TokenKind}
      {token : Token}
      {cs : List Char}
      {tokens : List Token}
      (hSign : sign ∈ signs)
      (hKind : token.kind = sign.2)
      (hRest : SameSigns cs tokens) :
      SameSigns (sign.1 :: cs) (token :: tokens)

namespace Scanner

/- What a step that skips blanks has read. -/
theorem lexeme_of_skipped
    {scanner next : Scanner}
    (hStep : scanner.step = .skipped next) :
    ∃ c cs lexeme,
      scanner.rest = c :: cs ∧
        scanner.rest = lexeme ++ next.rest ∧
        scanner.mode.lexeme c cs =
          (.whitespace, lexeme, next.rest) ∧
        next.offset =
          scanner.offset + Text.byteLength lexeme := by
  unfold step at hStep
  split at hStep
  · simp at hStep
  · rename_i c cs hRest
    simp only at hStep
    split at hStep
    · rename_i hKind
      simp only [ScanStep.skipped.injEq] at hStep
      subst hStep
      refine
        ⟨c, cs, _, hRest, ?_, Prod.ext hKind rfl, rfl⟩
      rw [hRest]
      exact (scanner.mode.append_lexeme c cs).symm
    · simp at hStep
    · simp at hStep

/- What a step that gives a token has read. -/
theorem lexeme_of_token
    {scanner next : Scanner}
    {token : Token}
    (hStep : scanner.step = .token token next) :
    ∃ c cs lexeme,
      scanner.rest = c :: cs ∧
        scanner.rest = lexeme ++ next.rest ∧
        scanner.mode.lexeme c cs =
          (token.kind, lexeme, next.rest) ∧
        token.kind ≠ .invalid ∧
        next.offset =
          scanner.offset + Text.byteLength lexeme := by
  unfold step at hStep
  split at hStep
  · simp at hStep
  · rename_i c cs hRest
    simp only at hStep
    split at hStep
    · simp at hStep
    · simp at hStep
    · rename_i kind hBlank hInvalid
      simp only [ScanStep.token.injEq] at hStep
      rcases hStep with ⟨rfl, rfl⟩
      refine ⟨c, cs, _, hRest, ?_, rfl, hInvalid, rfl⟩
      rw [hRest]
      exact (scanner.mode.append_lexeme c cs).symm

/- The signs that a run has read are those of its tokens. -/
theorem sameSigns_of_run
    {scanner last : Scanner}
    {tokens : List Token}
    (hRun : Run scanner tokens last) :
    ∃ used,
      scanner.rest = used ++ last.rest ∧
        SameSigns used tokens := by
  induction hRun with
  | stay scanner => exact ⟨[], rfl, .none⟩
  | @skip scanner next last tokens hStep hRun ih =>
      rcases ih with ⟨used, hUsed, hSigns⟩
      rcases lexeme_of_skipped hStep with
        ⟨c, cs, lexeme, _, hRest, hLexeme, _⟩
      refine ⟨lexeme ++ used, ?_, .text ?_ hSigns⟩
      · rw [hRest, hUsed, List.append_assoc]
      · refine
          (Mode.not_sign_of_lexeme hLexeme (by decide) ?_).2
        rw [Bool.eq_false_iff]
        intro hSign
        rcases exists_of_isSign hSign with
          ⟨sign, hMember, rfl⟩
        rw [Mode.lexeme_sign hMember] at hLexeme
        have hKind := (Prod.ext_iff.mp hLexeme).1
        have hNone : ∀ sign ∈ signs, sign.2 ≠ .whitespace := by
          decide
        exact hNone sign hMember hKind
  | @token scanner next last token tokens hStep hRun ih =>
      rcases ih with ⟨used, hUsed, hSigns⟩
      rcases lexeme_of_token hStep with
        ⟨c, cs, lexeme, _, hRest, hLexeme, hValid, _⟩
      refine ⟨lexeme ++ used, ?_, ?_⟩
      · rw [hRest, hUsed, List.append_assoc]
      · cases hSign : isSign c with
        | false =>
            have hNone :=
              Mode.not_sign_of_lexeme hLexeme hValid hSign
            exact .text hNone.2 (.word hNone.1 hSigns)
        | true =>
            rcases exists_of_isSign hSign with
              ⟨sign, hMember, rfl⟩
            rw [Mode.lexeme_sign hMember] at hLexeme
            simp only [Prod.mk.injEq] at hLexeme
            rcases hLexeme with ⟨hKind, rfl, _⟩
            exact .sign hMember hKind.symm hSigns

end Scanner

------------------------------------------------------------
-- Counted Brackets
------------------------------------------------------------

/- What is no sign differs from every sign. -/
theorem ne_of_not_sign
    {c d : Char}
    (hChar : isSign c = false)
    (hSign : isSign d = true) :
    c ≠ d := by
  intro hSame
  rw [hSame, hSign] at hChar
  cases hChar

namespace Text

variable {opening close : Char}
variable {lexeme : List Char}

/- A character that is no bracket opens and closes nothing. -/
theorem openAfter_of_not_sign
    (hOpening : isSign opening = true)
    (hClose : isSign close = true)
    {c : Char}
    (hChar : isSign c = false)
    (opened : Nat) :
    openAfter opening close opened c = opened := by
  simp [openAfter, ne_of_not_sign hChar hOpening,
    ne_of_not_sign hChar hClose]

/- Characters that are no signs are no brackets. -/
theorem openOver?_of_not_sign
    (hOpening : isSign opening = true)
    (hClose : isSign close = true)
    (hLexeme : ∀ c ∈ lexeme, isSign c = false)
    (opened : Nat) :
    openOver? opening close opened lexeme = some opened := by
  apply openOver?_of_notMem
  · intro hMember
    exact ne_of_not_sign (hLexeme _ hMember) hOpening rfl
  · intro hMember
    exact ne_of_not_sign (hLexeme _ hMember) hClose rfl

end Text

/- A token that is no sign opens and closes nothing. -/
theorem parensAfter_of_not_sign
    {token : Token}
    (hKind : isSignKind token.kind = false)
    (opened : Nat) :
    Section.parensAfter opened token = opened := by
  unfold Section.parensAfter
  split
  · rename_i hParen
    simp [hParen, isSignKind, signs] at hKind
  · rename_i hParen
    simp [hParen, isSignKind, signs] at hKind
  · rfl

/- A sign counts as a token what it counts as a character. -/
theorem parensAfter_of_sign
    {sign : Char × TokenKind}
    {token : Token}
    (hSign : sign ∈ signs)
    (hKind : token.kind = sign.2)
    (opened : Nat) :
    Section.parensAfter opened token =
      Text.openAfter '(' ')' opened sign.1 := by
  unfold Section.parensAfter
  rw [hKind]
  simp only [signs, List.mem_cons, List.not_mem_nil,
    or_false] at hSign
  rcases hSign with rfl | rfl | rfl | rfl | rfl <;> rfl

/- Closing parentheses are those of the text. -/
theorem kind_eq_parenClose_iff
    {sign : Char × TokenKind}
    {token : Token}
    (hSign : sign ∈ signs)
    (hKind : token.kind = sign.2) :
    token.kind = .parenClose ↔ sign.1 = ')' := by
  rw [hKind]
  have hAll :
      ∀ sign ∈ signs, sign.2 = .parenClose ↔ sign.1 = ')' := by
    decide
  exact hAll sign hSign

namespace SameSigns

/- The parentheses of the text are those of the tokens. -/
theorem parensOver?_eq
    {cs : List Char}
    {tokens : List Token}
    (hSigns : SameSigns cs tokens)
    (opened : Nat) :
    Section.parensOver? opened tokens =
      Text.openOver? '(' ')' opened cs := by
  induction hSigns generalizing opened with
  | none => rfl
  | text hLexeme hRest ih =>
      rw [ih, Text.openOver?_append,
        Text.openOver?_of_not_sign (by decide) (by decide)
          hLexeme]
      rfl
  | @word token cs tokens hKind hRest ih =>
      have hOther : token.kind ≠ .parenClose := by
        intro hParen
        simp [hParen, isSignKind, signs] at hKind
      simp only [Section.parensOver?, hOther, false_and,
        if_false, parensAfter_of_not_sign hKind, ih]
  | sign hSign hKind hRest ih =>
      simp only [Section.parensOver?, Text.openOver?,
        kind_eq_parenClose_iff hSign hKind,
        parensAfter_of_sign hSign hKind, ih]

/- Tokens of a text with matching parentheses are balanced. -/
theorem balanced
    {text : String}
    {tokens : List Token}
    (hSigns : SameSigns text.toList tokens)
    (hText : Text.Matched '(' ')' text) :
    Section.Balanced tokens := by
  unfold Section.Balanced
  rw [hSigns.parensOver?_eq 0]
  exact hText

/- The braces of the text are those of the tokens. -/
theorem braces_eq
    {cs : List Char}
    {tokens : List Token}
    (hSigns : SameSigns cs tokens)
    (opened : Nat) :
    (tokens.map Token.kind).foldl Mode.bracesAfter opened =
      cs.foldl (Text.openAfter '\x7b' '\x7d') opened := by
  induction hSigns generalizing opened with
  | none => rfl
  | text hLexeme hRest ih =>
      rw [ih, List.foldl_append,
        Text.foldl_openAfter_of_openOver?
          (Text.openOver?_of_not_sign (by decide)
            (by decide) hLexeme opened)]
  | @word token cs tokens hKind hRest ih =>
      have hSame :
          Mode.bracesAfter opened token.kind = opened := by
        unfold Mode.bracesAfter
        split
        · rename_i hBrace
          simp [hBrace, isSignKind, signs] at hKind
        · rename_i hBrace
          simp [hBrace, isSignKind, signs] at hKind
        · rfl
      rw [List.map_cons, List.foldl_cons, hSame, ih]
  | @sign sign token cs tokens hSign hKind hRest ih =>
      have hSame :
          Mode.bracesAfter opened token.kind =
            Text.openAfter '\x7b' '\x7d' opened sign.1 := by
        rw [hKind]
        simp only [signs, List.mem_cons, List.not_mem_nil,
          or_false] at hSign
        rcases hSign with rfl | rfl | rfl | rfl | rfl <;> rfl
      rw [List.map_cons, List.foldl_cons, List.foldl_cons,
        hSame, ih]

/- Text without points and parentheses has plain tokens. -/
theorem plain
    {cs : List Char}
    {tokens : List Token}
    (hSigns : SameSigns cs tokens)
    (hText : ∀ c ∈ cs, c ∉ ['.', '(', ')']) :
    Section.Plain tokens := by
  induction hSigns with
  | none => simp [Section.Plain]
  | text hLexeme hRest ih =>
      rw [List.forall_mem_append] at hText
      exact ih hText.2
  | @word token cs tokens hKind hRest ih =>
      unfold Section.Plain
      rw [List.forall_mem_cons]
      refine ⟨?_, ih hText⟩
      intro hMember
      simp only [List.mem_cons, List.not_mem_nil,
        or_false] at hMember
      rcases hMember with hSame | hSame | hSame <;>
        simp [hSame, isSignKind, signs] at hKind
  | @sign sign token cs tokens hSign hKind hRest ih =>
      rw [List.forall_mem_cons] at hText
      unfold Section.Plain
      rw [List.forall_mem_cons]
      refine ⟨?_, ih hText.2⟩
      rw [hKind]
      have hAll :
          ∀ sign ∈ signs,
            sign.1 ∉ ['.', '(', ')'] →
              sign.2 ∉
                [TokenKind.delimiter, .parenOpen,
                  .parenClose] := by
        decide
      exact hAll sign hSign hText.1

end SameSigns

------------------------------------------------------------
-- Places And Braces Of Runs
------------------------------------------------------------

namespace Text

/- The bytes of two texts add up. -/
theorem byteLength_append
    (first second : List Char) :
    byteLength (first ++ second) =
      byteLength first + byteLength second := by
  induction first with
  | nil => simp [byteLength]
  | cons c first ih =>
      simp only [List.cons_append, byteLength, ih]
      omega

/- The bytes of a text are those of its characters. -/
theorem byteLength_toList
    (text : String) :
    byteLength text.toList = text.utf8ByteSize := by
  have hChars :
      ∀ cs : List Char,
        byteLength cs = (String.ofList cs).utf8ByteSize := by
    intro cs
    induction cs with
    | nil => rfl
    | cons c cs ih =>
        rw [byteLength, ih, String.ofList_cons,
          String.utf8ByteSize_append,
          String.utf8ByteSize_singleton]
  rw [hChars, String.ofList_toList]

end Text

namespace Scanner

/- A run moves on by the bytes that it has read. -/
theorem offset_of_run
    {scanner last : Scanner}
    {tokens : List Token}
    (hRun : Run scanner tokens last) :
    last.offset + Text.byteLength last.rest =
      scanner.offset + Text.byteLength scanner.rest := by
  induction hRun with
  | stay scanner => rfl
  | @skip scanner next last tokens hStep hRun ih =>
      rcases lexeme_of_skipped hStep with
        ⟨c, cs, lexeme, _, hRest, _, hOffset⟩
      rw [ih, hRest, Text.byteLength_append, hOffset]
      omega
  | @token scanner next last token tokens hStep hRun ih =>
      rcases lexeme_of_token hStep with
        ⟨c, cs, lexeme, _, hRest, _, _, hOffset⟩
      rw [ih, hRest, Text.byteLength_append, hOffset]
      omega

/- A run counts the braces of its tokens. -/
theorem braces_of_run
    {scanner last : Scanner}
    {tokens : List Token}
    (hRun : Run scanner tokens last) :
    last.braces =
      (tokens.map Token.kind).foldl Mode.bracesAfter
        scanner.braces := by
  induction hRun with
  | stay scanner => rfl
  | skip hStep hRun ih =>
      rw [ih, (mode_of_skipped hStep).2]
  | token hStep hRun ih =>
      rw [ih, (readIn_of_step hStep).2.2]
      rfl

end Scanner

end StatusEffect
