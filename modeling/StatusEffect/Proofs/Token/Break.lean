import StatusEffect.Proofs.Token.Join

/-
  Where lexemes break.

  The characters of a source fall into four kinds. A blank is
  skipped. A plain character starts a token by itself, and
  only plain characters continue one. A lead starts a token
  if a letter is behind it. Any other character is in no
  token at all. None of this depends on the mode: the modes
  differ in how long a lexeme gets and in what it means, not
  in which characters can be read.

  Key definitions include:
    * `isPlain`
    * `isLead`
    * `startsToken`
    * `Shape.Regular`

  Key theorems include:
    * `Mode.lexeme_of_isBlank`
    * `Mode.lexeme_of_startsToken`
    * `Mode.lexeme_of_not_startsToken`
    * `Mode.lexeme_append_of_stops`
    * `Scanner.tokens_of_blanks`
    * `Scanner.exists_lexeme_of_tokens`
-/

------------------------------------------------------------
-- Kinds Of Characters
------------------------------------------------------------

namespace StatusEffect

open Text

/- The signs that start a token whatever follows them. -/
def plainSigns : List Char :=
  ['.', ',', '\x7b', '\x7d', '(', ')', '<', '>', '=', '!',
   '#', '+', '-', '*', '%', '?', '^', '_']

/- A character that starts or continues a token. -/
def isPlain (c : Char) : Bool :=
  isDecimalDigit c || isLetter c || oneOf plainSigns c

/- A character that starts a token before a letter only. -/
def isLead : Char → Bool :=
  oneOf ['~', '$']

/- A character starts a token before some text. -/
def startsToken
    (c : Char)
    (cs : List Char) : Bool :=
  isPlain c || (isLead c && cs.head?.any isLetter)

/- A plain character is a digit, a letter or a sign. -/
theorem isPlain_iff
    {c : Char} :
    isPlain c = true ↔
      isDecimalDigit c = true ∨ isLetter c = true ∨
        c ∈ plainSigns := by
  simp [isPlain, oneOf, or_assoc]

/- A class of plain characters. -/
def PlainClass (accepts : Char → Bool) : Prop :=
  ∀ c, accepts c = true → isPlain c = true

@[simp]
theorem plainClass_false :
    PlainClass fun _ => false := by
  simp [PlainClass]

@[simp]
theorem plainClass_beq
    (d : Char) :
    PlainClass (· == d) ↔ isPlain d = true := by
  simp [PlainClass]

@[simp]
theorem plainClass_oneOf
    (cs : List Char) :
    PlainClass (oneOf cs) ↔ ∀ c ∈ cs, isPlain c = true := by
  simp [PlainClass, oneOf]

@[simp]
theorem plainClass_isDecimalDigit :
    PlainClass isDecimalDigit := by
  intro c hDigit
  simp [isPlain, hDigit]

@[simp]
theorem plainClass_isLetter :
    PlainClass isLetter := by
  intro c hLetter
  simp [isPlain, hLetter]

@[simp]
theorem plainClass_isUpper :
    PlainClass isUpper := by
  intro c hUpper
  simp [isPlain, isLetter, hUpper]

@[simp]
theorem plainClass_isLower :
    PlainClass isLower := by
  intro c hLower
  simp [isPlain, isLetter, hLower]

@[simp]
theorem plainClass_isNameChar :
    PlainClass isNameChar := by
  intro c hName
  simp only [isNameChar, Bool.or_eq_true,
    beq_iff_eq] at hName
  rcases hName with (hLetter | hDigit) | rfl
  · exact plainClass_isLetter c hLetter
  · exact
      plainClass_isDecimalDigit c
        (isDecimalDigit_of_isAsciiDigit hDigit)
  · decide

@[simp]
theorem plainClass_isNameStart :
    PlainClass isNameStart := by
  intro c hStart
  exact
    plainClass_isNameChar c
      (isNameChar_of_isNameStart hStart)

/- Blanks and decimal digits lie in ranges of their own. -/
theorem isDecimalDigit_of_isBlank
    {c : Char}
    (hBlank : isBlank c = true) :
    isDecimalDigit c = false := by
  have hApart :
      ∀ range ∈ blankRanges, ∀ start ∈ digitZeros,
        range.2 < start ∨ start + 10 ≤ range.1 := by
    decide
  simp only [isBlank, inRanges, List.any_eq_true,
    Bool.and_eq_true, decide_eq_true_eq] at hBlank
  rcases hBlank with ⟨range, hRange, hLow, hHigh⟩
  simp only [isDecimalDigit, List.any_eq_false,
    Bool.and_eq_true, decide_eq_true_eq, not_and]
  intro start hStart
  have hPlace := hApart range hRange start hStart
  omega

/- No blank is a letter. -/
theorem isLetter_of_isBlank
    {c : Char}
    (hBlank : isBlank c = true) :
    isLetter c = false := by
  have hApart :
      ∀ range ∈ blankRanges,
        range.2 < 0x41 ∨ 0x7A < range.1 := by
    decide
  simp only [isBlank, inRanges, List.any_eq_true,
    Bool.and_eq_true, decide_eq_true_eq] at hBlank
  rcases hBlank with ⟨range, hRange, hLow, hHigh⟩
  have hPlace := hApart range hRange
  simp only [isLetter, isUpper, isLower,
    Bool.or_eq_false_iff, Bool.and_eq_false_iff,
    decide_eq_false_iff_not]
  omega

/- No blank is one of some signs. -/
theorem oneOf_of_isBlank
    {cs : List Char}
    {c : Char}
    (hSigns : cs.all (!isBlank ·) = true)
    (hBlank : isBlank c = true) :
    oneOf cs c = false := by
  rw [Bool.eq_false_iff]
  intro hMember
  have hSign := List.all_eq_true.mp hSigns c
  simp only [oneOf, List.contains_iff_mem] at hMember
  simp [hBlank, hMember] at hSign

/- No blank is part of a token. -/
theorem isPlain_of_isBlank
    {c : Char}
    (hBlank : isBlank c = true) :
    isPlain c = false := by
  have hSigns : oneOf plainSigns c = false :=
    oneOf_of_isBlank (by decide) hBlank
  simp [isPlain, isDecimalDigit_of_isBlank hBlank,
    isLetter_of_isBlank hBlank, hSigns]

/- No blank starts a token. -/
theorem startsToken_of_isBlank
    {c : Char}
    (hBlank : isBlank c = true)
    (cs : List Char) :
    startsToken c cs = false := by
  have hLead : isLead c = false :=
    oneOf_of_isBlank (by decide) hBlank
  simp [startsToken, isPlain_of_isBlank hBlank, hLead]

------------------------------------------------------------
-- Shapes
------------------------------------------------------------

namespace Shape

/-
  A shape takes only plain characters, but for a lead in
  front of a letter.
-/
structure Regular (shape : Shape) : Prop where
  head :
    ∀ c, shape.head c = true →
      isPlain c = true ∨
        (isLead c = true ∧
          ∃ accepts ∈ shape.body.head?,
            ∀ d, accepts d = true → isLetter d = true)
  body : ∀ accepts ∈ shape.body, PlainClass accepts
  tail : PlainClass shape.tail

/- A shape of plain classes is regular. -/
theorem regular_of_plain
    {shape : Shape}
    (hHead : PlainClass shape.head)
    (hBody : ∀ accepts ∈ shape.body, PlainClass accepts)
    (hTail : PlainClass shape.tail) :
    shape.Regular :=
  ⟨fun c hAccepts => .inl (hHead c hAccepts), hBody, hTail⟩

/- A lead and the letters behind it have a regular shape. -/
theorem regular_of_lead
    {sign : Char}
    {accepts tail : Char → Bool}
    (hLead : isLead sign = true)
    (hLetter : ∀ c, accepts c = true → isLetter c = true)
    (hTail : PlainClass tail) :
    Regular ⟨(· == sign), [accepts], tail⟩ := by
  refine ⟨?_, ?_, hTail⟩
  · intro c hSign
    right
    rw [beq_iff_eq.mp hSign]
    exact ⟨hLead, accepts, rfl, hLetter⟩
  · intro other hOther
    rw [List.mem_singleton.mp hOther]
    intro c hAccepts
    exact plainClass_isLetter c (hLetter c hAccepts)

/- Only a plain character can continue a lexeme. -/
theorem Regular.breaksAt
    {shape : Shape}
    (hRegular : shape.Regular)
    {d : Char}
    (hPlain : isPlain d = false) :
    shape.breaksAt d = true := by
  have hRejects :
      ∀ accepts : Char → Bool,
        PlainClass accepts → accepts d = false := by
    intro accepts hClass
    rw [Bool.eq_false_iff]
    intro hAccepts
    rw [hClass d hAccepts] at hPlain
    cases hPlain
  simp only [Shape.breaksAt, Bool.and_eq_true,
    List.all_eq_true, Bool.not_eq_true']
  refine ⟨?_, hRejects _ hRegular.tail⟩
  intro accepts hAccepts
  exact hRejects accepts (hRegular.body accepts hAccepts)

/- Where no token starts, no regular shape matches. -/
theorem Regular.match?_eq_none
    {shape : Shape}
    (hRegular : shape.Regular)
    {c : Char}
    {cs : List Char}
    (hStarts : startsToken c cs = false) :
    shape.match? (c :: cs) = none := by
  simp only [startsToken, Bool.or_eq_false_iff] at hStarts
  rcases hStarts with ⟨hPlain, hLead⟩
  rcases shape with ⟨head, body, tail⟩
  by_cases hHead : head c = true
  · rcases hRegular.head c hHead with hSame | hLetter
    · rw [hSame] at hPlain
      cases hPlain
    · -- the class behind a lead asks for a letter
      rcases hLetter with ⟨hSame, accepts, hFirst, hLetter⟩
      rw [hSame, Bool.true_and] at hLead
      cases body with
      | nil => simp at hFirst
      | cons other body =>
          simp only [List.head?_cons,
            Option.mem_some_iff] at hFirst
          subst hFirst
          cases cs with
          | nil => simp [match?, takeFixed?, hHead]
          | cons d cs =>
              have hReject : other d = false := by
                rw [Bool.eq_false_iff]
                intro hAccepts
                simp [hLetter d hAccepts] at hLead
              simp [match?, takeFixed?, hHead, hReject]
  · simp [match?, takeFixed?, hHead]

end Shape

------------------------------------------------------------
-- Rules
------------------------------------------------------------

/- A rule gives tokens, and has only regular shapes. -/
structure Rule.Regular (rule : Rule) : Prop where
  kind : rule.kind ∉ [.whitespace, .invalid]
  shapes : ∀ shape ∈ rule.shapes, shape.Regular

/- Where no token starts, no regular rule matches. -/
theorem Rule.Regular.match?_eq_none
    {rule : Rule}
    (hRegular : rule.Regular)
    {c : Char}
    {cs : List Char}
    (hStarts : startsToken c cs = false) :
    rule.match? (c :: cs) = none := by
  simp only [match?, Option.map_eq_none_iff,
    List.findSome?_eq_none_iff]
  intro shape hShape
  exact (hRegular.shapes shape hShape).match?_eq_none hStarts

/- A regular rule matches the same before a break. -/
theorem Rule.Regular.match?_append
    {rule : Rule}
    (hRegular : rule.Regular)
    (c : Char)
    (cs : List Char)
    {broken : List Char}
    (hBroken : Stops isPlain broken) :
    rule.match? (c :: (cs ++ broken)) =
      (rule.match? (c :: cs)).map fun found =>
        (found.1, found.2.1, found.2.2 ++ broken) := by
  cases broken with
  | nil => simp
  | cons d more =>
      apply Rule.match?_append
      intro shape hShape
      exact
        (hRegular.shapes shape hShape).breaksAt
          (by simpa using hBroken)

namespace Mode

/- The rule for blanks, the first of the shared ones. -/
def blankRule : Rule :=
  ⟨.whitespace, [Shape.run isBlank]⟩

/- The rules of a mode that give tokens. -/
def tokenRules (mode : Mode) : List Rule :=
  mode.ownRules ++ sharedRules.tail

/- All shapes of some rules are regular. -/
def AllRegular (rules : List Rule) : Prop :=
  ∀ rule ∈ rules, ∀ shape ∈ rule.shapes, shape.Regular

/- The shapes of comparisons are regular. -/
theorem regular_of_mem_comparisons :
    ∀ shape ∈ Shape.comparisons, shape.Regular := by
  simp [Shape.comparisons, Shape.literal, Shape.one,
    Shape.regular_of_plain, isPlain_iff, plainSigns]

/- The shape of a hash word is regular. -/
theorem regular_hashWord :
    Shape.hashWord.Regular := by
  simp [Shape.hashWord, Shape.signed,
    Shape.regular_of_plain, isPlain_iff, plainSigns]

/- The shape of a source, which has a lead, is regular. -/
theorem regular_source :
    (Shape.pair (· == '~') isLetter).Regular :=
  Shape.regular_of_lead (by decide) (fun _ => id)
    plainClass_false

/- The rules of the core clauses are regular. -/
theorem allRegular_coreRules :
    AllRegular coreRules := by
  simp [AllRegular, coreRules, Shape.digits, Shape.run,
    Shape.one, Shape.regular_of_plain, isPlain_iff,
    plainSigns, isLetter, isUpper, isLower]

/- The rules of the parts of a condition are regular. -/
theorem allRegular_conditionRules :
    AllRegular conditionRules := by
  simp [AllRegular, conditionRules, Shape.digits, Shape.run,
    Shape.name, Shape.word, Shape.regular_of_plain]

/- The rules at the head of a section are regular. -/
theorem allRegular_sectionRules :
    AllRegular sectionRules := by
  have hResource :
      Shape.Regular ⟨(· == '$'), [isUpper], isUpper⟩ := by
    refine
      Shape.regular_of_lead (by decide) ?_ plainClass_isUpper
    intro c hUpper
    simp [isLetter, hUpper]
  have hSource := regular_source
  simp only [Shape.pair] at hSource
  simp [AllRegular, sectionRules, Shape.literal, Shape.pair,
    Shape.one, Shape.signed, Shape.regular_of_plain,
    isPlain_iff, plainSigns, isLetter, isUpper, isLower,
    regular_hashWord, hSource, hResource]

/- The rules that a mode has of its own are regular. -/
theorem allRegular_ownRules
    (mode : Mode) :
    AllRegular mode.ownRules := by
  have hCore := allRegular_coreRules
  unfold AllRegular at hCore ⊢
  cases mode with
  | target =>
      simp [ownRules, Shape.one, Shape.regular_of_plain,
        isPlain_iff, isLetter, isUpper, isLower]
  | effect =>
      simp [ownRules, Shape.one, Shape.regular_of_plain,
        isPlain_iff, plainSigns]
  | subject =>
      simp [ownRules, Shape.one, Shape.regular_of_plain,
        regular_hashWord]
  | opening =>
      rw [ownRules, List.forall_mem_cons]
      refine ⟨?_, hCore⟩
      simp [Shape.one, Shape.regular_of_plain, isPlain_iff,
        isLetter, isUpper, isLower]
  | core => exact hCore
  | trigger =>
      simp [ownRules, Shape.one, Shape.regular_of_plain]
  | operator =>
      rw [ownRules, List.forall_mem_cons]
      exact ⟨regular_of_mem_comparisons, hCore⟩
  | extended => exact allRegular_sectionRules
  | _ => exact allRegular_conditionRules

/- The rules that all modes share are regular. -/
theorem allRegular_sharedRules :
    AllRegular sharedRules.tail := by
  have hResource :
      Shape.Regular ⟨(· == '$'), [isLetter], isLetter⟩ :=
    Shape.regular_of_lead (by decide) (fun _ => id)
      plainClass_isLetter
  have hSource := regular_source
  simp only [Shape.pair] at hSource
  simpa [AllRegular, sharedRules, Shape.digits, Shape.name,
    Shape.one, Shape.run, Shape.word, Shape.pair,
    Shape.signed, Shape.regular_of_plain, isPlain_iff,
    plainSigns, regular_hashWord, hSource, hResource]
    using regular_of_mem_comparisons

/- All rules that give tokens are regular. -/
theorem regular_of_mem_tokenRules
    (mode : Mode) :
    ∀ rule ∈ mode.tokenRules, rule.Regular := by
  have hKind :
      ∀ rule ∈ mode.tokenRules,
        rule.kind ∉ [.whitespace, .invalid] := by
    cases mode <;> decide
  intro rule hRule
  refine ⟨hKind rule hRule, ?_⟩
  rcases List.mem_append.mp hRule with hOwn | hShared
  · exact mode.allRegular_ownRules rule hOwn
  · exact allRegular_sharedRules rule hShared

/- The rules that give tokens stand around the one for blanks. -/
theorem rules_eq
    (mode : Mode) :
    mode.rules =
      mode.ownRules ++ blankRule :: sharedRules.tail :=
  rfl

/- The rule for blanks matches nothing else. -/
theorem match?_blankRule_eq_none
    {c : Char}
    (hBlank : isBlank c = false)
    (cs : List Char) :
    blankRule.match? (c :: cs) = none := by
  simp [blankRule, Rule.match?, Shape.match?, Shape.run,
    Shape.takeFixed?, hBlank]

/- Behind no blank only the rules that give tokens count. -/
theorem lexeme_eq_of_not_isBlank
    {c : Char}
    (hBlank : isBlank c = false)
    (mode : Mode)
    (cs : List Char) :
    mode.lexeme c cs =
      (mode.tokenRules.findSome? fun rule =>
          rule.match? (c :: cs)).getD
        (.invalid, [c], cs) := by
  have hRules :
      (mode.rules.findSome? fun rule =>
          rule.match? (c :: cs)) =
        mode.tokenRules.findSome? fun rule =>
          rule.match? (c :: cs) := by
    rw [rules_eq, tokenRules, List.findSome?_append,
      List.findSome?_cons, List.findSome?_append,
      match?_blankRule_eq_none hBlank]
  simp only [lexeme, hRules]
  cases mode.tokenRules.findSome? fun rule =>
    rule.match? (c :: cs) <;> rfl

------------------------------------------------------------
-- Lexemes
------------------------------------------------------------

/- In every mode blanks are one lexeme, up to the last one. -/
theorem lexeme_of_isBlank
    {c : Char}
    (hBlank : isBlank c = true)
    (mode : Mode)
    (cs : List Char) :
    mode.lexeme c cs =
      (.whitespace, c :: cs.takeWhile isBlank,
        cs.dropWhile isBlank) := by
  have hOwn :
      (mode.ownRules.findSome? fun rule =>
        rule.match? (c :: cs)) = none := by
    rw [List.findSome?_eq_none_iff]
    intro rule hRule
    have hRegular :=
      mode.regular_of_mem_tokenRules rule
        (List.mem_append_left _ hRule)
    exact
      hRegular.match?_eq_none
        (startsToken_of_isBlank hBlank cs)
  have hMatch :
      blankRule.match? (c :: cs) =
        some (.whitespace, c :: cs.takeWhile isBlank,
          cs.dropWhile isBlank) := by
    simp [blankRule, Rule.match?, Shape.match?, Shape.run,
      Shape.takeFixed?, hBlank]
  simp [lexeme, rules_eq, List.findSome?_append, hOwn,
    hMatch]

/- A character that starts no token is invalid in every mode. -/
theorem lexeme_of_not_startsToken
    {c : Char}
    {cs : List Char}
    (hBlank : isBlank c = false)
    (hStarts : startsToken c cs = false)
    (mode : Mode) :
    mode.lexeme c cs = (.invalid, [c], cs) := by
  have hNone :
      (mode.tokenRules.findSome? fun rule =>
        rule.match? (c :: cs)) = none := by
    rw [List.findSome?_eq_none_iff]
    intro rule hRule
    exact
      (mode.regular_of_mem_tokenRules rule
        hRule).match?_eq_none hStarts
  rw [lexeme_eq_of_not_isBlank hBlank, hNone]
  rfl

/- A rule with a shape of one class matches by that class. -/
theorem match?_ne_none_of_head
    {rule : Rule}
    {shape : Shape}
    (hShape : shape ∈ rule.shapes)
    (hBody : shape.body.isEmpty = true)
    {c : Char}
    (hHead : shape.head c = true)
    (cs : List Char) :
    rule.match? (c :: cs) ≠ none := by
  intro hNone
  simp only [Rule.match?, Option.map_eq_none_iff,
    List.findSome?_eq_none_iff] at hNone
  have hMatch := hNone shape hShape
  simp [Shape.match?, Shape.takeFixed?, hHead,
    List.isEmpty_iff.mp hBody] at hMatch

/- All modes share a rule for every plain character. -/
theorem exists_shape_of_isPlain
    {c : Char}
    (hPlain : isPlain c = true) :
    ∃ rule ∈ sharedRules.tail, ∃ shape ∈ rule.shapes,
      shape.body.isEmpty = true ∧ shape.head c = true := by
  have hSigns :
      (plainSigns.all fun d =>
        sharedRules.tail.any fun rule =>
          rule.shapes.any fun shape =>
            shape.body.isEmpty && shape.head d) = true := by
    decide
  rw [isPlain_iff] at hPlain
  rcases hPlain with hDigit | hLetter | hSign
  · refine
      ⟨⟨.number, [Shape.digits]⟩, by simp [sharedRules],
        Shape.digits, by simp, rfl, hDigit⟩
  · refine
      ⟨⟨.identifier, [Shape.name]⟩, by simp [sharedRules],
        Shape.name, by simp, rfl, ?_⟩
    simp [Shape.name, Shape.word, isNameStart, hLetter]
  · simpa using List.all_eq_true.mp hSigns c hSign

/- All modes share a rule for every lead. -/
theorem exists_match?_of_isLead
    {c d : Char}
    (hLead : isLead c = true)
    (hLetter : isLetter d = true)
    (cs : List Char) :
    ∃ rule ∈ sharedRules.tail,
      rule.match? (c :: d :: cs) ≠ none := by
  simp only [isLead, oneOf, List.contains_iff_mem,
    List.mem_cons, List.not_mem_nil, or_false] at hLead
  rcases hLead with rfl | rfl
  · refine
      ⟨⟨.sourceDependency,
        [Shape.pair (· == '~') isLetter]⟩,
        by simp [sharedRules], ?_⟩
    simp [Rule.match?, Shape.pair, Shape.match?,
      Shape.takeFixed?, hLetter]
  · refine
      ⟨⟨.resourceMarker, [Shape.signed '$' isLetter]⟩,
        by simp [sharedRules], ?_⟩
    simp [Rule.match?, Shape.signed, Shape.match?,
      Shape.takeFixed?, hLetter]

/- Some rule that all modes share takes what starts a token. -/
theorem exists_match?_of_startsToken
    {c : Char}
    {cs : List Char}
    (hStarts : startsToken c cs = true) :
    ∃ rule ∈ sharedRules.tail,
      rule.match? (c :: cs) ≠ none := by
  simp only [startsToken, Bool.or_eq_true,
    Bool.and_eq_true] at hStarts
  rcases hStarts with hPlain | ⟨hLead, hLetter⟩
  · rcases exists_shape_of_isPlain hPlain with
      ⟨rule, hRule, shape, hShape, hBody, hHead⟩
    exact
      ⟨rule, hRule,
        match?_ne_none_of_head hShape hBody hHead cs⟩
  · cases cs with
    | nil => simp at hLetter
    | cons d cs =>
        exact
          exists_match?_of_isLead hLead
            (by simpa using hLetter) cs

/- In every mode a character that starts a token gives one. -/
theorem lexeme_of_startsToken
    {c : Char}
    {cs : List Char}
    (hStarts : startsToken c cs = true)
    (mode : Mode) :
    (mode.lexeme c cs).1 ∉ [.whitespace, .invalid] := by
  have hBlank : isBlank c = false := by
    rw [Bool.eq_false_iff]
    intro hBlank
    rw [startsToken_of_isBlank hBlank] at hStarts
    cases hStarts
  rw [lexeme_eq_of_not_isBlank hBlank]
  cases hFound :
      mode.tokenRules.findSome? fun rule =>
        rule.match? (c :: cs) with
  | none =>
      rcases exists_match?_of_startsToken hStarts with
        ⟨rule, hRule, hMatch⟩
      rw [List.findSome?_eq_none_iff] at hFound
      exact
        absurd
          (hFound rule (List.mem_append_right _ hRule))
          hMatch
  | some found =>
      rcases List.exists_of_findSome?_eq_some hFound with
        ⟨rule, hRule, hMatch⟩
      have hRegular :=
        mode.regular_of_mem_tokenRules rule hRule
      simp only [Rule.match?,
        Option.map_eq_some_iff] at hMatch
      rcases hMatch with ⟨split, _, rfl⟩
      exact hRegular.kind

/- A lexeme is the same before a break. -/
theorem lexeme_append_of_stops
    {c : Char}
    (hBlank : isBlank c = false)
    (mode : Mode)
    (cs : List Char)
    {broken : List Char}
    (hBroken : Stops isPlain broken) :
    mode.lexeme c (cs ++ broken) =
      ((mode.lexeme c cs).1, (mode.lexeme c cs).2.1,
        (mode.lexeme c cs).2.2 ++ broken) := by
  have hRules :
      (mode.tokenRules.findSome? fun rule =>
          rule.match? (c :: (cs ++ broken))) =
        (mode.tokenRules.findSome? fun rule =>
          rule.match? (c :: cs)).map fun found =>
            (found.1, found.2.1, found.2.2 ++ broken) := by
    apply findSome?_eq_map
    intro rule hRule
    exact
      (mode.regular_of_mem_tokenRules rule
        hRule).match?_append c cs hBroken
  rw [lexeme_eq_of_not_isBlank hBlank,
    lexeme_eq_of_not_isBlank hBlank, hRules]
  cases mode.tokenRules.findSome? fun rule =>
    rule.match? (c :: cs) <;> rfl

/- Behind its first character a token has only plain ones. -/
theorem all_isPlain_of_lexeme
    {mode : Mode}
    {c : Char}
    {cs lexeme rest : List Char}
    {kind : TokenKind}
    (hLexeme : mode.lexeme c cs = (kind, lexeme, rest))
    (hKind : kind ∉ [.whitespace, .invalid]) :
    ∃ others,
      lexeme = c :: others ∧ cs = others ++ rest ∧
        others.all isPlain = true := by
  have hValid : kind ≠ .invalid := by
    intro hSame
    simp [hSame] at hKind
  have hAppend := eq_append_of_lexeme hLexeme
  rcases describes_of_lexeme hLexeme hValid with
    ⟨rule, hRule, rfl, shape, hShape, hDescribes⟩
  have hToken : rule ∈ mode.tokenRules := by
    rw [rules_eq, List.mem_append, List.mem_cons] at hRule
    rw [tokenRules, List.mem_append]
    rcases hRule with hOwn | rfl | hShared
    · exact .inl hOwn
    · simp [blankRule] at hKind
    · exact .inr hShared
  have hRegular :=
    (mode.regular_of_mem_tokenRules rule hToken).shapes
      shape hShape
  cases lexeme with
  | nil => simp [Shape.describes, Shape.fits] at hDescribes
  | cons d others =>
      simp only [List.cons_append, List.cons.injEq] at hAppend
      rcases hAppend with ⟨rfl, hBehind⟩
      refine ⟨others, rfl, hBehind, ?_⟩
      simp only [Shape.describes, Shape.fits,
        Bool.and_eq_true] at hDescribes
      rw [List.all_eq_true]
      intro e hMember
      cases hPlain : isPlain e with
      | true => rfl
      | false =>
          have hBreaks := hRegular.breaksAt hPlain
          simp only [Shape.breaksAt, Bool.and_eq_true,
            List.all_eq_true, Bool.not_eq_true'] at hBreaks
          exact
            absurd hMember
              (Shape.not_mem_of_fits hBreaks.1 hBreaks.2
                hDescribes.2)

end Mode

------------------------------------------------------------
-- Steps
------------------------------------------------------------

namespace Scanner

/- A lexeme of a token is a step that gives the token. -/
theorem step_of_lexeme
    {mode : Mode}
    {c : Char}
    {cs lexeme rest : List Char}
    {kind : TokenKind}
    (hLexeme : mode.lexeme c cs = (kind, lexeme, rest))
    (hKind : kind ∉ [.whitespace, .invalid])
    (offset braces : Nat) :
    step ⟨c :: cs, offset, mode, braces⟩ =
      .token ⟨kind, String.ofList lexeme, offset⟩
        ⟨rest, offset + byteLength lexeme,
          mode.after braces kind,
          Mode.bracesAfter braces kind⟩ := by
  simp only [List.mem_cons, List.not_mem_nil, or_false,
    not_or] at hKind
  simp only [step, hLexeme]
  split
  · exact absurd rfl hKind.1
  · exact absurd rfl hKind.2
  · rfl

/- A scanner skips the blanks that it stands before. -/
theorem tokens_eq_dropWhile
    (cs : List Char)
    (offset : Nat)
    (mode : Mode)
    (braces : Nat) :
    tokens ⟨cs, offset, mode, braces⟩ =
      tokens
        ⟨cs.dropWhile isBlank,
          offset + byteLength (cs.takeWhile isBlank),
          mode, braces⟩ := by
  cases cs with
  | nil => rfl
  | cons c cs =>
      by_cases hBlank : isBlank c = true
      · apply tokens_of_skipped
        simp [step, past, hBlank,
          Mode.lexeme_of_isBlank hBlank]
      · simp [hBlank, byteLength]

/- Blanks in front of a text only move it. -/
theorem tokens_of_blanks
    {blanks : List Char}
    (hBlanks : blanks.all isBlank = true)
    (rest : List Char)
    (offset : Nat)
    (mode : Mode)
    (braces : Nat) :
    tokens ⟨blanks ++ rest, offset, mode, braces⟩ =
      tokens
        ⟨rest, offset + byteLength blanks, mode, braces⟩ := by
  rw [List.all_eq_true] at hBlanks
  rw [tokens_eq_dropWhile, tokens_eq_dropWhile rest,
    List.takeWhile_append_of_pos hBlanks,
    List.dropWhile_append_of_pos hBlanks,
    byteLength_append, Nat.add_assoc]

/- A blank in front of a text only moves it. -/
theorem tokens_of_isBlank
    {c : Char}
    (hBlank : isBlank c = true)
    (rest : List Char)
    (offset : Nat)
    (mode : Mode)
    (braces : Nat) :
    tokens ⟨c :: rest, offset, mode, braces⟩ =
      tokens ⟨rest, offset + c.utf8Size, mode, braces⟩ := by
  have hBlanks : [c].all isBlank = true := by
    simp [hBlank]
  exact tokens_of_blanks hBlanks rest offset mode braces

/- A character that starts no token is the next failure. -/
theorem tokens_of_not_startsToken
    {c : Char}
    {cs : List Char}
    (hBlank : isBlank c = false)
    (hStarts : startsToken c cs = false)
    (offset : Nat)
    (mode : Mode)
    (braces : Nat) :
    tokens ⟨c :: cs, offset, mode, braces⟩ =
      (.error
        ⟨.invalidCharacter (String.ofList [c]), offset⟩,
        ⟨cs, offset + c.utf8Size, mode, braces⟩) := by
  apply tokens_of_invalid
  simp [step, past, byteLength,
    Mode.lexeme_of_not_startsToken hBlank hStarts]

/- Tokens of a text without a blank in front start there. -/
theorem exists_lexeme_of_tokens
    {c : Char}
    {cs : List Char}
    {offset braces : Nat}
    {mode : Mode}
    {found : List Token}
    (hBlank : isBlank c = false)
    (hFound :
      (tokens ⟨c :: cs, offset, mode, braces⟩).1 =
        .ok found) :
    ∃ kind others rest later,
      cs = others ++ rest ∧
        mode.lexeme c (others ++ rest) =
          (kind, c :: others, rest) ∧
        kind ∉ [.whitespace, .invalid] ∧
        found =
          ⟨kind, String.ofList (c :: others), offset⟩ ::
            later ∧
        (tokens
          ⟨rest, offset + byteLength (c :: others),
            mode.after braces kind,
            Mode.bracesAfter braces kind⟩).1 =
          .ok later := by
  cases hStarts : startsToken c cs with
  | false =>
      rw [tokens_of_not_startsToken hBlank hStarts] at hFound
      cases hFound
  | true =>
      have hKind := Mode.lexeme_of_startsToken hStarts mode
      rcases hLexeme : mode.lexeme c cs with
        ⟨kind, lexeme, rest⟩
      rw [hLexeme] at hKind
      rcases Mode.all_isPlain_of_lexeme hLexeme hKind with
        ⟨others, rfl, rfl, _⟩
      have hStep :=
        step_of_lexeme hLexeme hKind offset braces
      rw [tokens_of_token hStep] at hFound
      cases hLater :
          (tokens
            ⟨rest, offset + byteLength (c :: others),
              mode.after braces kind,
              Mode.bracesAfter braces kind⟩).1 with
      | error failure =>
          simp [hLater, Except.map] at hFound
      | ok later =>
          simp only [hLater, Except.map,
            Except.ok.injEq] at hFound
          exact
            ⟨kind, others, rest, later, rfl, hLexeme, hKind,
              hFound.symm, hLater⟩

end Scanner

end StatusEffect
