import StatusEffect.Proofs.Token.Language

/-
  Where the lexemes of written words end.

  The rules of a mode are tried in order, and a rule cannot
  match a text whose first character starts none of its
  shapes. A word of the notation is therefore one lexeme as
  soon as no earlier rule takes its first character, and the
  character behind it does not continue it.

  Key definitions include:
    * `Rule.rejects`

  Key theorems include:
    * `Mode.lexeme_of_rules`
    * `Mode.lexeme_blank`
    * `Mode.lexeme_numeral`
    * `Mode.lexeme_name`
    * `Mode.lexeme_operator`
    * `Mode.lexeme_stat`
    * `Mode.lexeme_stackLimit`
-/

------------------------------------------------------------
-- Order Of Rules
------------------------------------------------------------

namespace StatusEffect

open Text

namespace Rule

/- No shape of a rule can start with a character. -/
def rejects
    (rule : Rule)
    (c : Char) : Bool :=
  rule.shapes.all fun shape => !shape.head c

/- A rule does not match where no shape of it can start. -/
theorem match?_of_rejects
    {rule : Rule}
    {c : Char}
    (hRejects : rule.rejects c = true)
    (cs : List Char) :
    rule.match? (c :: cs) = none := by
  simp only [match?, Option.map_eq_none_iff,
    List.findSome?_eq_none_iff]
  intro shape hShape
  have hHead : shape.head c = false := by
    simpa using List.all_eq_true.mp hRejects shape hShape
  simp [Shape.match?, Shape.takeFixed?, hHead]

end Rule

namespace Mode

/- The first rule that does not reject a text decides. -/
theorem lexeme_of_rules
    {mode : Mode}
    {rule : Rule}
    {c : Char}
    {cs : List Char}
    (before behind : List Rule)
    {found : TokenKind × List Char × List Char}
    (hRules : mode.rules = before ++ rule :: behind)
    (hBefore : before.all (Rule.rejects · c) = true)
    (hMatch : rule.match? (c :: cs) = some found) :
    mode.lexeme c cs = found := by
  have hNone :
      (before.findSome? fun rule => rule.match? (c :: cs)) =
        none := by
    rw [List.findSome?_eq_none_iff]
    intro other hOther
    exact Rule.match?_of_rejects
      (List.all_eq_true.mp hBefore other hOther) cs
  simp [lexeme, hRules, List.findSome?_append, hNone, hMatch]

/- A run of a class is matched up to where it stops. -/
theorem match?_run
    (kind : TokenKind)
    {accepts : Char → Bool}
    {c : Char}
    {cs rest : List Char}
    (hFirst : accepts c = true)
    (hOthers : cs.all accepts = true)
    (hRest : Stops accepts rest) :
    Rule.match? ⟨kind, [Shape.run accepts]⟩
        (c :: (cs ++ rest)) =
      some (kind, c :: cs, rest) := by
  simp [Rule.match?, Shape.run, Shape.match?,
    Shape.takeFixed?, hFirst,
    takeWhile_append_of_stops hOthers hRest,
    dropWhile_append_of_stops hOthers hRest]

------------------------------------------------------------
-- Blanks And Numerals
------------------------------------------------------------

/- In every mode a single blank is skipped. -/
theorem lexeme_blank
    (mode : Mode)
    {rest : List Char}
    (hRest : Stops isBlank rest) :
    mode.lexeme ' ' rest = (.whitespace, [' '], rest) := by
  have hMatch :
      Rule.match? ⟨.whitespace, [Shape.run isBlank]⟩
          (' ' :: ([] ++ rest)) =
        some (.whitespace, [' '], rest) :=
    match?_run .whitespace (by decide) rfl hRest
  refine
    lexeme_of_rules mode.ownRules sharedRules.tail rfl ?_
      hMatch
  cases mode <;> decide

/- The modes in which a number is due. -/
def numeralModes : List Mode :=
  [.opening, .core, .attribute, .value]

/- A numeral is one lexeme where no digit follows. -/
theorem lexeme_numeral
    {mode : Mode}
    (hMode : mode ∈ numeralModes)
    {c : Char}
    {cs rest : List Char}
    (hFirst : isAsciiDigit c = true)
    (hOthers : cs.all isAsciiDigit = true)
    (hRest : Stops isDecimalDigit rest) :
    mode.lexeme c (cs ++ rest) = (.number, c :: cs, rest) := by
  have hDigits : cs.all isDecimalDigit = true := by
    rw [List.all_eq_true] at hOthers ⊢
    intro d hd
    exact isDecimalDigit_of_isAsciiDigit (hOthers d hd)
  have hMatch :=
    match?_run .number
      (isDecimalDigit_of_isAsciiDigit hFirst) hDigits hRest
  simp only [numeralModes, List.mem_cons, List.not_mem_nil,
    or_false] at hMode
  rcases hMode with rfl | rfl | rfl | rfl
  · have hLetter : (c == 'F') = false := by
      rw [beq_eq_false_iff_ne]
      intro hSame
      subst hSame
      exact absurd hFirst (by decide)
    refine
      lexeme_of_rules [⟨.fullValue, [Shape.one (· == 'F')]⟩]
        _ rfl ?_ hMatch
    simp [Rule.rejects, Shape.one, hLetter]
  · exact lexeme_of_rules [] _ rfl rfl hMatch
  · exact lexeme_of_rules [] _ rfl rfl hMatch
  · exact lexeme_of_rules [] _ rfl rfl hMatch

------------------------------------------------------------
-- Conditions
------------------------------------------------------------

/- A name is one lexeme where no character continues it. -/
theorem lexeme_name
    {mode : Mode}
    (hMode : mode = .attribute ∨ mode = .value)
    {c : Char}
    {cs rest : List Char}
    (hFirst : isNameStart c = true)
    (hOthers : cs.all isNameChar = true)
    (hRest : Stops isNameChar rest) :
    mode.lexeme c (cs ++ rest) =
      (.identifier, c :: cs, rest) := by
  have hDigit := isDecimalDigit_of_isNameStart hFirst
  have hMatch :
      Rule.match? ⟨.identifier, [Shape.name]⟩
          (c :: (cs ++ rest)) =
        some (.identifier, c :: cs, rest) := by
    simp [Rule.match?, Shape.name, Shape.word, Shape.match?,
      Shape.takeFixed?, hFirst,
      takeWhile_append_of_stops hOthers hRest,
      dropWhile_append_of_stops hOthers hRest]
  have hBefore :
      [(⟨.number, [Shape.digits]⟩ : Rule)].all
        (Rule.rejects · c) = true := by
    simp [Rule.rejects, Shape.digits, Shape.run, hDigit]
  rcases hMode with rfl | rfl
  · exact lexeme_of_rules [_] _ rfl hBefore hMatch
  · exact lexeme_of_rules [_] _ rfl hBefore hMatch

/- An operator is one lexeme where no equals sign follows. -/
theorem lexeme_operator
    {operator : String}
    (hOperator : operator ∈ operators)
    {rest : List Char}
    (hRest : Stops (· == '=') rest) :
    ∃ c cs,
      operator.toList = c :: cs ∧
        Mode.operator.lexeme c (cs ++ rest) =
          (.comparison, c :: cs, rest) := by
  -- a single sign is only taken once the longer ones fail
  have hSingle :
      ∀ c ∈ ['<', '>', '='],
        Rule.match? ⟨.comparison, Shape.comparisons⟩
            (c :: rest) =
          some (.comparison, [c], rest) := by
    intro c hSign
    have hSecond :
        Shape.takeFixed? [(· == '=')] rest = none := by
      cases rest <;> simp_all [Shape.takeFixed?]
    simp only [List.mem_cons, List.not_mem_nil,
      or_false] at hSign
    rcases hSign with rfl | rfl | rfl <;>
      simp [Rule.match?, Shape.comparisons, Shape.literal,
        Shape.one, Shape.match?, Shape.takeFixed?, oneOf,
        hSecond]
  have hDouble :
      ∀ c ∈ ['<', '>', '!', '='],
        Rule.match? ⟨.comparison, Shape.comparisons⟩
            (c :: '=' :: rest) =
          some (.comparison, [c, '='], rest) := by
    intro c hSign
    simp only [List.mem_cons, List.not_mem_nil,
      or_false] at hSign
    rcases hSign with rfl | rfl | rfl | rfl <;>
      simp [Rule.match?, Shape.comparisons, Shape.literal,
        Shape.match?, Shape.takeFixed?]
  have hFirst :
      ∀ c cs,
        Rule.match? ⟨.comparison, Shape.comparisons⟩
            (c :: (cs ++ rest)) =
          some (.comparison, c :: cs, rest) →
        Mode.operator.lexeme c (cs ++ rest) =
          (.comparison, c :: cs, rest) :=
    fun c cs hMatch => lexeme_of_rules [] _ rfl rfl hMatch
  simp only [operators, List.mem_cons, List.not_mem_nil,
    or_false] at hOperator
  rcases hOperator with
    rfl | rfl | rfl | rfl | rfl | rfl | rfl
  · exact
      ⟨'<', [], rfl, hFirst '<' [] (hSingle '<' (by simp))⟩
  · exact
      ⟨'>', [], rfl, hFirst '>' [] (hSingle '>' (by simp))⟩
  · exact
      ⟨'=', [], rfl, hFirst '=' [] (hSingle '=' (by simp))⟩
  · exact
      ⟨'<', ['='], rfl,
        hFirst '<' ['='] (hDouble '<' (by simp))⟩
  · exact
      ⟨'>', ['='], rfl,
        hFirst '>' ['='] (hDouble '>' (by simp))⟩
  · exact
      ⟨'!', ['='], rfl,
        hFirst '!' ['='] (hDouble '!' (by simp))⟩
  · exact
      ⟨'=', ['='], rfl,
        hFirst '=' ['='] (hDouble '=' (by simp))⟩

------------------------------------------------------------
-- Subjects
------------------------------------------------------------

/- A hash word is one lexeme where no letter follows. -/
theorem lexeme_hashWord
    {mode : Mode}
    (hMode : mode = .subject ∨ mode = .extended)
    {c : Char}
    {cs rest : List Char}
    (hFirst : isLetter c = true)
    (hOthers : cs.all isLetter = true)
    (hRest : Stops isLetter rest) :
    mode.lexeme '#' (c :: cs ++ rest) =
      (.specialCondition, '#' :: c :: cs, rest) := by
  have hMatch :
      Rule.match? ⟨.specialCondition, [Shape.hashWord]⟩
          ('#' :: (c :: cs ++ rest)) =
        some (.specialCondition, '#' :: c :: cs, rest) := by
    simp [Rule.match?, Shape.hashWord, Shape.signed,
      Shape.match?, Shape.takeFixed?, hFirst,
      takeWhile_append_of_stops hOthers hRest,
      dropWhile_append_of_stops hOthers hRest]
  rcases hMode with rfl | rfl
  · exact lexeme_of_rules [] _ rfl rfl hMatch
  · exact
      lexeme_of_rules (sectionRules.take 11) _ rfl (by decide)
        hMatch

/- A capital word is one lexeme where no small letter follows. -/
theorem lexeme_capitalWord
    {c d e : Char}
    {cs rest : List Char}
    (hFirst : isUpper c = true)
    (hSecond : isLower d = true)
    (hThird : isLower e = true)
    (hOthers : cs.all isLower = true)
    (hRest : Stops isLower rest) :
    Mode.subject.lexeme c (d :: e :: cs ++ rest) =
      (.specialCondition, c :: d :: e :: cs, rest) := by
  have hSign : (c == '#') = false := by
    rw [beq_eq_false_iff_ne]
    intro hSame
    subst hSame
    exact absurd hFirst (by decide)
  refine
    lexeme_of_rules [⟨.specialCondition, [Shape.hashWord]⟩]
      _ rfl ?_ ?_
  · simp [Rule.rejects, Shape.hashWord, Shape.signed, hSign]
  · simp [Rule.match?, Shape.match?, Shape.takeFixed?,
      hFirst, hSecond, hThird,
      takeWhile_append_of_stops hOthers hRest,
      dropWhile_append_of_stops hOthers hRest]

/- A capital letter is a stat where it starts no longer word. -/
theorem lexeme_stat
    {c : Char}
    {rest : List Char}
    (hFirst : isUpper c = true)
    (hRest : startsSmall rest = false) :
    Mode.subject.lexeme c rest = (.stat, [c], rest) := by
  have hSign : (c == '#') = false := by
    rw [beq_eq_false_iff_ne]
    intro hSame
    subst hSame
    exact absurd hFirst (by decide)
  have hWord :
      Shape.takeFixed? [isUpper, isLower, isLower]
        (c :: rest) = none := by
    rcases rest with _ | ⟨d, _ | ⟨e, rest⟩⟩
    · simp [Shape.takeFixed?]
    · simp [Shape.takeFixed?]
    · simp only [startsSmall, Bool.and_eq_false_iff] at hRest
      rcases hRest with hSecond | hThird
      · simp [Shape.takeFixed?, hSecond]
      · simp [Shape.takeFixed?, hThird]
  have hNone :
      Rule.match?
        ⟨.specialCondition,
          [⟨isUpper, [isLower, isLower], isLower⟩]⟩
        (c :: rest) = none := by
    simp [Rule.match?, Shape.match?, hWord]
  have hMatch :
      Rule.match? ⟨.stat, [Shape.one isUpper]⟩ (c :: rest) =
        some (.stat, [c], rest) := by
    simp [Rule.match?, Shape.match?, Shape.one,
      Shape.takeFixed?, hFirst]
  have hHash :
      Rule.match? ⟨.specialCondition, [Shape.hashWord]⟩
        (c :: rest) = none := by
    refine Rule.match?_of_rejects ?_ rest
    simp [Rule.rejects, Shape.hashWord, Shape.signed, hSign]
  simp only [lexeme, rules, ownRules, List.cons_append,
    List.findSome?_cons, hHash, hNone, hMatch]

------------------------------------------------------------
-- Sections
------------------------------------------------------------

/-
  The letter of a stack limit is one lexeme where it starts
  no flag and no other stacking rule.
-/
theorem lexeme_stackLimit
    {rest : List Char}
    (hRest : Stops (oneOf ['T', '+', '*', 'U']) rest) :
    Mode.extended.lexeme 'S' rest =
      (.stackingBehavior, ['S'], rest) := by
  have hFlag :
      Shape.takeFixed? [(· == 'T')] rest = none := by
    rcases rest with _ | ⟨c, cs⟩
    · rfl
    · simp only [stops_cons, oneOf] at hRest
      simp_all [Shape.takeFixed?]
  have hOther :
      Shape.takeFixed? [oneOf ['+', '*', 'U']] rest =
        none := by
    rcases rest with _ | ⟨c, cs⟩
    · rfl
    · simp only [stops_cons, oneOf] at hRest
      simp_all [Shape.takeFixed?, oneOf]
  simp [lexeme, rules, ownRules, sectionRules, Rule.match?,
    Shape.literal, Shape.pair, Shape.one, Shape.match?,
    Shape.takeFixed?, hFlag, hOther]

/- A resource is one lexeme where no capital follows. -/
theorem lexeme_resource
    {c : Char}
    {cs rest : List Char}
    (hFirst : isUpper c = true)
    (hOthers : cs.all isUpper = true)
    (hRest : Stops isUpper rest) :
    Mode.extended.lexeme '$' (c :: cs ++ rest) =
      (.resourceMarker, '$' :: c :: cs, rest) := by
  apply
    lexeme_of_rules (sectionRules.take 8) _ rfl (by decide)
  simp [Rule.match?, Shape.signed, Shape.match?,
    Shape.takeFixed?, hFirst,
    takeWhile_append_of_stops hOthers hRest,
    dropWhile_append_of_stops hOthers hRest]

/- A chain effect is one lexeme where no small letter follows. -/
theorem lexeme_chainEffect
    {c d : Char}
    {cs rest : List Char}
    (hFirst : isUpper c = true)
    (hSecond : isLower d = true)
    (hOthers : cs.all isLower = true)
    (hRest : Stops isLower rest) :
    Mode.extended.lexeme '>' (c :: d :: cs ++ rest) =
      (.chainEffect, '>' :: c :: d :: cs, rest) := by
  apply lexeme_of_rules [] _ rfl rfl
  simp [Rule.match?, Shape.match?, Shape.takeFixed?, hFirst,
    hSecond, takeWhile_append_of_stops hOthers hRest,
    dropWhile_append_of_stops hOthers hRest]

end Mode

end StatusEffect
