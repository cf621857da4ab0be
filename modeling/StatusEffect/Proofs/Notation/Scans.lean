import StatusEffect.Proofs.Grammar.Clause
import StatusEffect.Proofs.Record.Expressible
import StatusEffect.Proofs.Token.Lexeme
import StatusEffect.Proofs.Vocabulary.Lawful
import StatusEffect.Record.Canonical

/-
  How the text of a single clause is scanned.

  The scan of a text depends on the mode that it starts in
  and on what stands behind the text. Both are kept apart
  from the text here, so that the scans of two adjacent
  texts can be put together. The text of each clause is then
  scanned into a spelling of the clause, if what stands
  behind it does not continue its last lexeme.

  Key definitions include:
    * `Scans`
    * `Condition.endsInName`

  Key theorems include:
    * `Scans.append`
    * `scans_subject`
    * `scans_magnitude`
    * `scans_duration`
    * `scans_condition`
    * `scans_trigger`
    * `scans_elements`
-/

------------------------------------------------------------
-- Scans
------------------------------------------------------------

namespace StatusEffect

open Text Grammar

/-
  From a mode on, a text before some rest is scanned up to
  that rest, with a result about the mode reached and the
  tokens found. As many braces are open as before.
-/
def Scans
    (braces : Nat)
    (mode : Mode)
    (text rest : List Char)
    (Result : Mode → List Token → Prop) : Prop :=
  ∀ offset, ∃ later tokens last,
    Scanner.Run ⟨text ++ rest, offset, mode, braces⟩ tokens
        ⟨rest, last, later, braces⟩ ∧
      Result later tokens

/- One token, with the mode that is reached behind it. -/
def One
    (reached : Mode)
    (kind : TokenKind)
    (text : String) : Mode → List Token → Prop :=
  fun later tokens =>
    later = reached ∧
      ∃ offset, tokens = [⟨kind, text, offset⟩]

namespace Scanner

/- A lexeme that is no blank is one token. -/
theorem run_token
    {mode : Mode}
    {c : Char}
    {cs lexeme rest : List Char}
    {kind : TokenKind}
    (hLexeme : mode.lexeme c cs = (kind, lexeme, rest))
    (hBlank : kind ≠ .whitespace)
    (hValid : kind ≠ .invalid)
    (offset braces : Nat) :
    Run ⟨c :: cs, offset, mode, braces⟩
      [⟨kind, String.ofList lexeme, offset⟩]
      ⟨rest, offset + byteLength lexeme,
        mode.after braces kind,
        Mode.bracesAfter braces kind⟩ := by
  refine .token ?_ (.stay _)
  simp only [step, hLexeme]
  rfl

end Scanner

namespace Scans

variable {braces : Nat}
variable {mode : Mode}
variable {text rest : List Char}
variable {Result : Mode → List Token → Prop}

/- Nothing is scanned without a change of mode. -/
theorem nil
    (hResult : Result mode []) :
    Scans braces mode [] rest Result := by
  intro offset
  exact ⟨mode, [], offset, .stay _, hResult⟩

/- What follows from a result is a result too. -/
theorem mono
    {Other : Mode → List Token → Prop}
    (hScans : Scans braces mode text rest Result)
    (hOther :
      ∀ later tokens,
        Result later tokens → Other later tokens) :
    Scans braces mode text rest Other := by
  intro offset
  rcases hScans offset with
    ⟨later, tokens, last, hRun, hResult⟩
  exact ⟨later, tokens, last, hRun, hOther _ _ hResult⟩

/- Two texts are scanned one after the other. -/
theorem append
    {next : List Char}
    {First : Mode → List Token → Prop}
    (hFirst : Scans braces mode text (next ++ rest) First)
    (hNext :
      ∀ later tokens,
        First later tokens →
          Scans braces later next rest fun last others =>
            Result last (tokens ++ others)) :
    Scans braces mode (text ++ next) rest Result := by
  intro offset
  rcases hFirst offset with
    ⟨later, tokens, between, hRun, hResult⟩
  rcases hNext later tokens hResult between with
    ⟨last, others, stop, hOthers, hAll⟩
  refine
    ⟨last, tokens ++ others, stop, ?_, hAll⟩
  rw [List.append_assoc]
  exact hRun.append hOthers

/- A text that is one lexeme is scanned as one token. -/
theorem token
    {c : Char}
    {cs : List Char}
    {kind : TokenKind}
    (hLexeme :
      mode.lexeme c (cs ++ rest) = (kind, c :: cs, rest))
    (hKind :
      kind ∉
        [.whitespace, .invalid, .braceOpen, .braceClose]) :
    Scans braces mode (c :: cs) rest
      (One (mode.after braces kind) kind
        (String.ofList (c :: cs))) := by
  simp only [List.mem_cons, List.not_mem_nil, or_false,
    not_or] at hKind
  rcases hKind with ⟨hBlank, hValid, hOpen, hClose⟩
  intro offset
  have hBraces : Mode.bracesAfter braces kind = braces := by
    unfold Mode.bracesAfter
    split
    · contradiction
    · contradiction
    · rfl
  have hRun :=
    Scanner.run_token hLexeme hBlank hValid offset braces
  rw [hBraces] at hRun
  exact ⟨_, _, _, hRun, rfl, offset, rfl⟩

/- A single character that is one lexeme is one token. -/
theorem sign
    {c : Char}
    {kind : TokenKind}
    {reached : Mode}
    {sign : String}
    (hLexeme : mode.lexeme c rest = (kind, [c], rest))
    (hKind :
      kind ∉
        [.whitespace, .invalid, .braceOpen, .braceClose])
    (hReached : mode.after braces kind = reached)
    (hSign : String.ofList [c] = sign) :
    Scans braces mode [c] rest (One reached kind sign) := by
  subst hReached hSign
  exact token hLexeme hKind

/- A blank before some other text is skipped. -/
theorem blank
    (hRest : Stops isBlank rest) :
    Scans braces mode [' '] rest fun later tokens =>
      later = mode ∧ tokens = [] := by
  intro offset
  have hStep :
      (⟨' ' :: rest, offset, mode, braces⟩ : Scanner).step =
        .skipped ⟨rest, offset + 1, mode, braces⟩ := by
    simp only [Scanner.step, mode.lexeme_blank hRest]
    rfl
  exact
    ⟨mode, [], offset + 1, .skip hStep (.stay _), rfl, rfl⟩

end Scans

------------------------------------------------------------
-- Numerals And Names
------------------------------------------------------------

/- A numeral is scanned as a number. -/
theorem scans_numeral
    {braces : Nat}
    {mode : Mode}
    {rest : List Char}
    (n : UInt32)
    (hMode : mode ∈ Mode.numeralModes)
    (hRest : Stops isDecimalDigit rest) :
    Scans braces mode (wordDecimal n).toList rest
      (One .core .number (wordDecimal n)) := by
  rcases exists_wordDecimal_eq n with
    ⟨c, cs, hNumeral, hFirst, hOthers⟩
  have hText : String.ofList (c :: cs) = wordDecimal n := by
    rw [← hNumeral, String.ofList_toList]
  have hAfter : mode.after braces .number = .core := by
    simp only [Mode.numeralModes, List.mem_cons,
      List.not_mem_nil, or_false] at hMode
    rcases hMode with rfl | rfl | rfl | rfl <;> rfl
  rw [hNumeral, ← hText, ← hAfter]
  exact
    .token (Mode.lexeme_numeral hMode hFirst hOthers hRest)
      (by decide)

/- The characters of a name. -/
theorem exists_eq_of_isName
    {name : String}
    (hName : isName name = true) :
    ∃ c cs,
      name.toList = c :: cs ∧
        isNameStart c = true ∧
          cs.all isNameChar = true := by
  unfold isName at hName
  cases hChars : name.toList with
  | nil => simp [hChars] at hName
  | cons c cs =>
      simp only [hChars, Bool.and_eq_true] at hName
      exact ⟨c, cs, rfl, hName.1, hName.2⟩

/- A name is scanned as an identifier. -/
theorem scans_name
    {braces : Nat}
    {mode : Mode}
    {name : String}
    {rest : List Char}
    (hMode : mode = .attribute ∨ mode = .value)
    (hName : isName name = true)
    (hRest : Stops isNameChar rest) :
    Scans braces mode name.toList rest
      (One (mode.after braces .identifier) .identifier
        name) := by
  rcases exists_eq_of_isName hName with
    ⟨c, cs, hChars, hFirst, hOthers⟩
  have hText : String.ofList (c :: cs) = name := by
    rw [← hChars, String.ofList_toList]
  rw [hChars, ← hText]
  exact
    .token (Mode.lexeme_name hMode hFirst hOthers hRest)
      (by decide)

/- A single character ends a clause. -/
theorem scans_sign
    {braces : Nat}
    {mode reached : Mode}
    {kind : TokenKind}
    {c : Char}
    {rest : List Char}
    {Result : Mode → List Token → Prop}
    (hLexeme : mode.lexeme c rest = (kind, [c], rest))
    (hKind :
      kind ∉
        [.whitespace, .invalid, .braceOpen, .braceClose])
    (hReached : mode.after braces kind = reached)
    (hResult :
      ∀ offset,
        Result reached
          [⟨kind, String.ofList [c], offset⟩]) :
    Scans braces mode [c] rest Result := by
  apply (Scans.sign hLexeme hKind hReached rfl).mono
  intro later tokens hScan
  rcases hScan with ⟨rfl, offset, rfl⟩
  exact hResult offset

------------------------------------------------------------
-- Mandatory Clauses
------------------------------------------------------------

/- A target is scanned as such. -/
theorem scans_target
    {rest : List Char}
    (target : Target) :
    Scans 0 .target (Vocabulary.code target).toList rest
      fun later tokens =>
        later = .effect ∧ SpellsTarget target tokens := by
  cases target <;>
    exact
      scans_sign (by cases rest <;> rfl) (by decide) rfl
        fun _ => ⟨rfl, .code (.inl rfl) rfl⟩

/- A change is scanned as such. -/
theorem scans_change
    {rest : List Char}
    (change : Change) :
    Scans 0 .effect (Vocabulary.code change).toList rest
      fun later tokens =>
        later = .subject ∧ SpellsChange change tokens := by
  cases change <;>
    exact
      scans_sign (by cases rest <;> rfl) (by decide) rfl
        fun _ => ⟨rfl, .code rfl⟩

/- The characters of a hash word. -/
theorem exists_eq_of_isHashWord
    {name : String}
    (hName : isHashWord name = true) :
    ∃ c cs,
      name.toList = '#' :: c :: cs ∧
        isLetter c = true ∧ cs.all isLetter = true := by
  unfold isHashWord at hName
  split at hName
  · rename_i c d cs hChars
    simp only [Bool.and_eq_true, beq_iff_eq] at hName
    rcases hName with ⟨⟨rfl, hFirst⟩, hOthers⟩
    exact ⟨d, cs, hChars, hFirst, hOthers⟩
  · simp at hName

/- The characters of a capital word. -/
theorem exists_eq_of_isCapitalWord
    {name : String}
    (hName : isCapitalWord name = true) :
    ∃ c d e cs,
      name.toList = c :: d :: e :: cs ∧
        isUpper c = true ∧ isLower d = true ∧
          isLower e = true ∧ cs.all isLower = true := by
  unfold isCapitalWord at hName
  split at hName
  · rename_i c d e cs hChars
    simp only [Bool.and_eq_true] at hName
    rcases hName with ⟨⟨⟨hFirst, hSecond⟩, hThird⟩, hOthers⟩
    exact
      ⟨c, d, e, cs, hChars, hFirst, hSecond, hThird,
        hOthers⟩
  · simp at hName

/- The code of a stat is one capital letter. -/
theorem exists_code_stat_eq
    (stat : Stat) :
    ∃ c,
      (Vocabulary.code stat).toList = [c] ∧
        isUpper c = true := by
  cases stat <;> exact ⟨_, rfl, by decide⟩

/- A subject is scanned as such where nothing continues it. -/
theorem scans_subject
    {rest : List Char}
    {subject : Subject}
    (hSubject : subject.Expressible)
    (hSmall : startsSmall rest = false)
    (hLetter :
      ∀ name, subject = .condition name →
        Stops isLetter rest) :
    Scans 0 .subject subject.render.toList rest
      fun later tokens =>
        later = .opening ∧ SpellsSubject subject tokens := by
  cases subject with
  | stat stat =>
      rcases exists_code_stat_eq stat with ⟨c, hCode, hUpper⟩
      have hText :
          String.ofList [c] = Vocabulary.code stat := by
        rw [← hCode, String.ofList_toList]
      simp only [Subject.render, hCode]
      refine
        scans_sign (Mode.lexeme_stat hUpper hSmall)
          (by decide) rfl fun offset => ⟨rfl, ?_⟩
      exact .stat (by rw [hText, Vocabulary.ofCode?_code])
  | condition name =>
      have hRest := hLetter name rfl
      rcases hSubject with hHash | hCapital
      · rcases exists_eq_of_isHashWord hHash with
          ⟨c, cs, hChars, hFirst, hOthers⟩
        have hText : String.ofList ('#' :: c :: cs) = name := by
          rw [← hChars, String.ofList_toList]
        simp only [Subject.render, hChars]
        apply
          (Scans.token
            (Mode.lexeme_hashWord (.inl rfl) hFirst hOthers
              hRest)
            (by decide)).mono
        intro later tokens hScan
        rcases hScan with ⟨rfl, offset, rfl⟩
        rw [hText]
        exact ⟨rfl, .condition name offset⟩
      · rcases exists_eq_of_isCapitalWord hCapital with
          ⟨c, d, e, cs, hChars, hFirst, hSecond, hThird,
            hOthers⟩
        have hText :
            String.ofList (c :: d :: e :: cs) = name := by
          rw [← hChars, String.ofList_toList]
        have hLower : Stops isLower rest := by
          intro next hNext
          have hOther := hRest next hNext
          simp only [isLetter, Bool.or_eq_false_iff] at hOther
          exact hOther.2
        simp only [Subject.render, hChars]
        apply
          (Scans.token
            (Mode.lexeme_capitalWord hFirst hSecond hThird
              hOthers hLower)
            (by decide)).mono
        intro later tokens hScan
        rcases hScan with ⟨rfl, offset, rfl⟩
        rw [hText]
        exact ⟨rfl, .condition name offset⟩

------------------------------------------------------------
-- Magnitude And Duration
------------------------------------------------------------

/- A magnitude is scanned as such behind a subject. -/
theorem scans_magnitude
    {rest : List Char}
    {magnitude : Magnitude}
    (hMagnitude : magnitude.Expressible)
    (hDigit :
      magnitude = .flat magnitude.value →
        Stops isDecimalDigit rest) :
    Scans 0 .opening magnitude.canonical.toList rest
      fun later tokens =>
        later = .core ∧
          SpellsMagnitude (some magnitude) tokens := by
  rcases hMagnitude with hFlat | hPercent | rfl
  · have hRest := hDigit hFlat
    rw [hFlat]
    apply (scans_numeral _ (by decide) hRest).mono
    intro later tokens hScan
    rcases hScan with ⟨rfl, offset, rfl⟩
    exact ⟨rfl, .flat (wordOfNumeral?_wordDecimal _)⟩
  · rw [hPercent]
    simp only [Magnitude.canonical, Magnitude.percent,
      Bool.false_eq_true, if_false, if_true,
      String.toList_append]
    apply
      (scans_numeral _ (by decide)
        (stops_of_cons (by decide))).append
    intro later tokens hScan
    rcases hScan with ⟨rfl, offset, rfl⟩
    exact
      scans_sign (by cases rest <;> rfl) (by decide) rfl
        fun place =>
          ⟨rfl, .percent (wordOfNumeral?_wordDecimal _)⟩
  · exact
      scans_sign (by cases rest <;> rfl) (by decide) rfl
        fun offset => ⟨rfl, .full _ offset⟩

/- A number of turns is scanned as a number and a marker. -/
theorem scans_turns
    {mode : Mode}
    {rest : List Char}
    (count : UInt32)
    (hMode : mode = .opening ∨ mode = .core) :
    Scans 0 mode ((wordDecimal count).toList ++ ['T']) rest
      fun later tokens =>
        later = .core ∧
          ∃ offset place,
            tokens =
              [⟨.number, wordDecimal count, offset⟩,
               ⟨.durationType, Vocabulary.code Span.turns,
                place⟩] := by
  have hNumeral : mode ∈ Mode.numeralModes := by
    rcases hMode with rfl | rfl <;> decide
  apply
    (scans_numeral count hNumeral
      (stops_of_cons (by decide))).append
  intro later tokens hScan
  rcases hScan with ⟨rfl, offset, rfl⟩
  exact
    scans_sign (by cases rest <;> rfl) (by decide) rfl
      fun place => ⟨rfl, offset, place, rfl⟩

/- A duration is scanned as such. -/
theorem scans_duration
    {mode : Mode}
    {rest : List Char}
    {duration : Duration}
    (hMode : mode = .opening ∨ mode = .core)
    (hDuration : duration.Ordered) :
    Scans 0 mode duration.canonical.toList rest
      fun later tokens =>
        later = .core ∧
          SpellsDuration (some duration) tokens := by
  have hNumeral : mode ∈ Mode.numeralModes := by
    rcases hMode with rfl | rfl <;> decide
  cases duration with
  | turns count =>
      simp only [Duration.canonical, String.toList_append]
      apply (scans_turns count hMode).mono
      intro later tokens hScan
      rcases hScan with ⟨rfl, offset, place, rfl⟩
      exact ⟨rfl, .turns (wordOfNumeral?_wordDecimal count)⟩
  | turnRange first last =>
      simp only [Duration.canonical, String.toList_append,
        List.append_assoc]
      apply
        (scans_numeral first hNumeral
          (stops_of_cons (by decide))).append
      intro later tokens hScan
      rcases hScan with ⟨rfl, offset, rfl⟩
      apply
        (Scans.sign
          (by cases (wordDecimal last).toList <;> rfl)
          (by decide) rfl rfl).append
      intro later tokens hScan
      rcases hScan with ⟨rfl, place, rfl⟩
      apply (scans_turns last (.inr rfl)).mono
      intro later tokens hScan
      rcases hScan with ⟨rfl, start, finish, rfl⟩
      exact
        ⟨rfl,
          .range (wordOfNumeral?_wordDecimal first)
            (wordOfNumeral?_wordDecimal last) hDuration⟩
  | combat =>
      rcases hMode with rfl | rfl <;>
        exact
          scans_sign (by cases rest <;> rfl) (by decide) rfl
            fun offset => ⟨rfl, .unit rfl rfl⟩
  | permanent =>
      rcases hMode with rfl | rfl <;>
        exact
          scans_sign (by cases rest <;> rfl) (by decide) rfl
            fun offset => ⟨rfl, .unit rfl rfl⟩
  | action =>
      rcases hMode with rfl | rfl <;>
        exact
          scans_sign (by cases rest <;> rfl) (by decide) rfl
            fun offset => ⟨rfl, .unit rfl rfl⟩

------------------------------------------------------------
-- Conditions
------------------------------------------------------------

/- A condition is written with a name at its end. -/
def Condition.endsInName (condition : Condition) : Bool :=
  match condition.value with
  | .number _ => false
  | _ => true

/- An operator is scanned as a comparison. -/
theorem scans_operator
    {braces : Nat}
    {operator : String}
    {rest : List Char}
    (hOperator : operator ∈ operators)
    (hRest : Stops (· == '=') rest) :
    Scans braces .operator operator.toList rest
      (One .value .comparison operator) := by
  rcases Mode.lexeme_operator hOperator hRest with
    ⟨c, cs, hChars, hLexeme⟩
  have hText : String.ofList (c :: cs) = operator := by
    rw [← hChars, String.ofList_toList]
  rw [hChars, ← hText]
  exact .token hLexeme (by decide)

/- An operator does not continue a name. -/
theorem stops_isNameChar_operator
    {operator : String}
    (hOperator : operator ∈ operators)
    (rest : List Char) :
    Stops isNameChar (operator.toList ++ rest) := by
  simp only [operators, List.mem_cons, List.not_mem_nil,
    or_false] at hOperator
  rcases hOperator with
    rfl | rfl | rfl | rfl | rfl | rfl | rfl <;>
    exact stops_of_cons (by decide)

/- A value that is no number is written as a name for it. -/
theorem nameValue_render
    {isPercentage : Bool}
    {value : ConditionValue}
    (hValue : value.Expressible isPercentage)
    (hNumber : ∀ n, value ≠ .number n) :
    isPercentage = false ∧
      isName value.render = true ∧
        nameValue value.render = value := by
  cases value with
  | truth value =>
      cases value with
      | true => exact ⟨hValue, by decide, rfl⟩
      | false => exact ⟨hValue, by decide, rfl⟩
  | number n => exact absurd rfl (hNumber n)
  | text word =>
      rcases hValue with ⟨hFlat, hName, hTrue, hFalse⟩
      refine ⟨hFlat, hName, ?_⟩
      simp [nameValue, ConditionValue.render, hTrue, hFalse]

/- A flag is written as its bare name. -/
theorem eq_flag_of_isFlag
    {condition : Condition}
    (hFlag : condition.isFlag = true) :
    condition = .flag condition.name := by
  rcases condition with ⟨name, operator, value, isPercentage⟩
  simp only [Condition.isFlag, Bool.and_eq_true, beq_iff_eq,
    Bool.not_eq_true'] at hFlag
  rcases hFlag with ⟨⟨rfl, rfl⟩, rfl⟩
  rfl

/- The sign behind the value of a percentage. -/
def percentSign (isPercentage : Bool) : String :=
  if isPercentage then "%" else ""

/- A comparison is written from left to right. -/
theorem toList_render_of_not_isFlag
    {condition : Condition}
    (hFlag : condition.isFlag = false) :
    condition.render.toList =
      condition.name.toList ++ (condition.operator.toList ++
        (condition.value.render ++
          percentSign condition.isPercentage).toList) := by
  simp [Condition.render, percentSign, hFlag]

/- A value is scanned as the end of a condition. -/
theorem scans_conditionValue
    {braces : Nat}
    {rest : List Char}
    {value : ConditionValue}
    {isPercentage : Bool}
    (hValue : value.Expressible isPercentage)
    (hName :
      (∀ n, value ≠ .number n) → Stops isNameChar rest)
    (hDigit : Stops isDecimalDigit rest) :
    Scans braces .value
      (value.render ++ percentSign isPercentage).toList rest
      fun later tokens =>
        later = .core ∧
          ∀ name operator offset place,
            SpellsCondition
              ⟨name, operator, value, isPercentage⟩
              (⟨.identifier, name, offset⟩ ::
                ⟨.comparison, operator, place⟩ ::
                  tokens) := by
  by_cases hNumber : ∃ n, value = .number n
  · rcases hNumber with ⟨n, rfl⟩
    have hNumeral := wordOfNumeral?_wordDecimal n
    cases isPercentage with
    | false =>
        simp only [ConditionValue.render, percentSign,
          Bool.false_eq_true, if_false, String.append_empty]
        apply (scans_numeral n (by decide) hDigit).mono
        intro later tokens hScan
        rcases hScan with ⟨rfl, start, rfl⟩
        exact ⟨rfl, fun _ _ _ _ => .number hNumeral⟩
    | true =>
        simp only [ConditionValue.render, percentSign,
          if_true, String.toList_append]
        apply
          (scans_numeral n (by decide)
            (stops_of_cons (by decide))).append
        intro later tokens hScan
        rcases hScan with ⟨rfl, start, rfl⟩
        exact
          scans_sign (by cases rest <;> rfl) (by decide) rfl
            fun last =>
              ⟨rfl, fun _ _ _ _ => .percent hNumeral⟩
  · have hOther : ∀ n, value ≠ .number n :=
      fun n hn => hNumber ⟨n, hn⟩
    rcases nameValue_render hValue hOther with
      ⟨rfl, hWord, hSame⟩
    simp only [percentSign, Bool.false_eq_true, if_false,
      String.append_empty]
    apply (scans_name (.inr rfl) hWord (hName hOther)).mono
    intro later tokens hScan
    rcases hScan with ⟨rfl, start, rfl⟩
    refine ⟨rfl, fun name operator offset place => ?_⟩
    have hSpells :=
      SpellsCondition.name name operator value.render offset
        place start
    rw [hSame] at hSpells
    exact hSpells

/- A value does not continue an operator. -/
theorem stops_equals_conditionValue
    {value : ConditionValue}
    {isPercentage : Bool}
    (hValue : value.Expressible isPercentage)
    (rest : List Char) :
    Stops (· == '=') (value.render.toList ++ rest) := by
  by_cases hNumber : ∃ n, value = .number n
  · rcases hNumber with ⟨n, rfl⟩
    rcases exists_wordDecimal_eq n with
      ⟨c, cs, hNumeral, hFirst, _⟩
    simp only [ConditionValue.render, hNumeral]
    apply stops_of_cons
    rw [beq_eq_false_iff_ne]
    intro hSame
    subst hSame
    exact absurd hFirst (by decide)
  · have hWord :=
      nameValue_render hValue fun n hn => hNumber ⟨n, hn⟩
    rcases exists_eq_of_isName hWord.2.1 with
      ⟨c, cs, hChars, hFirst, _⟩
    rw [hChars]
    apply stops_of_cons
    rw [beq_eq_false_iff_ne]
    intro hSame
    subst hSame
    exact absurd hFirst (by decide)

/- A condition is scanned as such where nothing continues it. -/
theorem scans_condition
    {braces : Nat}
    {rest : List Char}
    {test : Condition}
    (hTest : test.Expressible)
    (hName :
      test.endsInName = true → Stops isNameChar rest)
    (hDigit : Stops isDecimalDigit rest) :
    Scans braces .attribute test.render.toList rest
      fun later tokens =>
        (later = .core ∨ later = .operator) ∧
          SpellsCondition test tokens := by
  rcases hTest with ⟨hAttribute, hOperator, hValue⟩
  cases hFlag : test.isFlag with
  | true =>
      have hEq := eq_flag_of_isFlag hFlag
      have hRest : Stops isNameChar rest := by
        apply hName
        rw [hEq]
        rfl
      simp only [Condition.render, hFlag, if_true]
      apply (scans_name (.inl rfl) hAttribute hRest).mono
      intro later tokens hScan
      rcases hScan with ⟨rfl, offset, rfl⟩
      refine ⟨.inr rfl, ?_⟩
      rw [hEq]
      exact .flag _ offset
  | false =>
      have hEnds :
          (∀ n, test.value ≠ .number n) →
            Stops isNameChar rest := by
        intro hOther
        apply hName
        unfold Condition.endsInName
        split
        · rename_i n hn
          exact absurd hn (hOther n)
        · rfl
      rw [toList_render_of_not_isFlag hFlag]
      refine (scans_name (.inl rfl) hAttribute ?_).append ?_
      · rw [List.append_assoc]
        exact stops_isNameChar_operator hOperator _
      intro later tokens hScan
      rcases hScan with ⟨rfl, offset, rfl⟩
      refine (scans_operator hOperator ?_).append ?_
      · rw [String.toList_append, List.append_assoc]
        exact stops_equals_conditionValue hValue _
      intro later tokens hScan
      rcases hScan with ⟨rfl, place, rfl⟩
      apply (scans_conditionValue hValue hEnds hDigit).mono
      intro later tokens hScan
      rcases hScan with ⟨rfl, hSpells⟩
      exact ⟨.inl rfl, hSpells _ _ _ _⟩

------------------------------------------------------------
-- Triggers
------------------------------------------------------------

/- An event behind a sign is scanned as sign and letter. -/
theorem scans_signedEvent
    {mode : Mode}
    {rest : List Char}
    {c d : Char}
    {event : Event}
    (hSign :
      ∀ cs, mode.lexeme c cs = (.triggerSign, [c], cs))
    (hReached : mode.after 0 .triggerSign = .trigger)
    (hLetter :
      ∀ cs,
        Mode.trigger.lexeme d cs = (.triggerType, [d], cs))
    (hCode :
      Vocabulary.ofCode?
        (String.ofList [c] ++ String.ofList [d]) =
        some event) :
    Scans 0 mode ([c] ++ [d]) rest
      fun later tokens =>
        (later = .core ∨ later = .operator) ∧
          SpellsTrigger (some (.event event)) tokens := by
  apply
    (Scans.sign (hSign _) (by decide) hReached rfl).append
  intro later tokens hScan
  rcases hScan with ⟨rfl, offset, rfl⟩
  exact
    scans_sign (hLetter _) (by decide) rfl
      fun place => ⟨.inl rfl, .signed hCode⟩

/- An event is scanned as such. -/
theorem scans_event
    {mode : Mode}
    {rest : List Char}
    (hMode : mode = .opening ∨ mode = .core)
    (event : Event) :
    Scans 0 mode (Vocabulary.code event).toList rest
      fun later tokens =>
        (later = .core ∨ later = .operator) ∧
          SpellsTrigger (some (.event event)) tokens := by
  cases event with
  | onKill =>
      rcases hMode with rfl | rfl <;>
        exact
          scans_sign (by cases rest <;> rfl) (by decide) rfl
            fun offset => ⟨.inl rfl, .plain rfl⟩
  | _ =>
      rcases hMode with rfl | rfl <;>
        exact
          scans_signedEvent (by intro cs; cases cs <;> rfl)
            rfl (by intro cs; cases cs <;> rfl) rfl

/- The sign of a chance or condition starts its own mode. -/
theorem scans_conditionSign
    {mode : Mode}
    {rest : List Char}
    (hMode : mode = .opening ∨ mode = .core) :
    Scans 0 mode ['?'] rest
      (One .attribute .conditionSign "?") := by
  rcases hMode with rfl | rfl <;>
    exact .sign (by cases rest <;> rfl) (by decide) rfl rfl

/- A trigger is scanned as such where nothing continues it. -/
theorem scans_trigger
    {mode : Mode}
    {rest : List Char}
    {trigger : Trigger}
    (hMode : mode = .opening ∨ mode = .core)
    (hTrigger : trigger.Bounded)
    (hTest :
      ∀ test ∈ trigger.condition?, test.Expressible)
    (hName :
      ∀ test ∈ trigger.condition?,
        test.endsInName = true → Stops isNameChar rest)
    (hDigit : Stops isDecimalDigit rest) :
    Scans 0 mode trigger.canonical.toList rest
      fun later tokens =>
        (later = .core ∨ later = .operator) ∧
          SpellsTrigger (some trigger) tokens := by
  cases trigger with
  | event event => exact scans_event hMode event
  | chance percent =>
      simp only [Trigger.canonical, String.toList_append,
        List.append_assoc]
      apply (scans_conditionSign hMode).append
      intro later tokens hScan
      rcases hScan with ⟨rfl, offset, rfl⟩
      apply
        (scans_numeral percent (by decide)
          (stops_of_cons (by decide))).append
      intro later tokens hScan
      rcases hScan with ⟨rfl, start, rfl⟩
      exact
        scans_sign (by cases rest <;> rfl) (by decide) rfl
          fun place =>
            ⟨.inl rfl,
              .chance (wordOfNumeral?_wordDecimal percent)
                hTrigger⟩
  | condition test =>
      simp only [Trigger.canonical, String.toList_append]
      apply (scans_conditionSign hMode).append
      intro later tokens hScan
      rcases hScan with ⟨rfl, offset, rfl⟩
      apply
        (scans_condition (hTest test rfl) (hName test rfl)
          hDigit).mono
      intro later tokens hScan
      rcases hScan with ⟨hLater, hSpells⟩
      exact ⟨hLater, .condition hSpells⟩

------------------------------------------------------------
-- Elements
------------------------------------------------------------

/- Texts, each with a comma in front. -/
def behindCommas (texts : List String) : List Char :=
  texts.flatMap fun text => ',' :: text.toList

/- Separated texts are the first and those behind commas. -/
theorem toList_separated
    (first : String)
    (others : List String) :
    (separated "," (first :: others)).toList =
      first.toList ++ behindCommas others := by
  induction others generalizing first with
  | nil => simp [separated, behindCommas]
  | cons next others ih =>
      simp only [separated, String.toList_append, ih]
      simp [behindCommas]

/- The first of some texts stands behind the first comma. -/
theorem behindCommas_cons
    (text : String)
    (texts : List String) :
    behindCommas (text :: texts) =
      [','] ++ (text.toList ++ behindCommas texts) := by
  simp [behindCommas]

/- Further elements, each with a comma in front. -/
def moreText (elements : List Element) : List Char :=
  behindCommas (elements.map Vocabulary.code)

/- An element is scanned as such in the core. -/
theorem scans_element
    {rest : List Char}
    (element : Element) :
    Scans 0 .core (Vocabulary.code element).toList rest
      (One .core .element (Vocabulary.code element)) := by
  cases element <;>
    exact .sign (by cases rest <;> rfl) (by decide) rfl rfl

/- Further elements are scanned as such. -/
theorem scans_moreElements
    {mode : Mode}
    {rest : List Char}
    (hMode : mode = .core ∨ mode = .operator)
    (elements : List Element) :
    Scans 0 mode (moreText elements) rest
      fun later tokens =>
        (later = .core ∨ later = .operator) ∧
          SpellsMore elements tokens := by
  induction elements generalizing mode with
  | nil => exact .nil ⟨hMode, .none⟩
  | cons first others ih =>
      rw [moreText, List.map_cons, behindCommas_cons]
      have hComma :
          Scans 0 mode [',']
            (((Vocabulary.code first).toList ++
              moreText others) ++ rest)
            (One .core .comma ",") := by
        rcases hMode with rfl | rfl <;>
          exact
            .sign (by cases first <;> rfl) (by decide) rfl rfl
      apply hComma.append
      intro later tokens hScan
      rcases hScan with ⟨rfl, offset, rfl⟩
      apply (scans_element first).append
      intro later tokens hScan
      rcases hScan with ⟨rfl, place, rfl⟩
      apply (ih (.inl rfl)).mono
      intro later tokens hScan
      rcases hScan with ⟨hLater, hSpells⟩
      exact
        ⟨hLater, .more (Vocabulary.ofCode?_code first) hSpells⟩

/-
  Elements are scanned as such. Directly behind a subject the
  first of them must not be fire.
-/
theorem scans_elements
    {mode : Mode}
    {rest : List Char}
    {first : Element}
    {others : List Element}
    (hMode :
      (mode = .opening ∧ first ≠ .fire) ∨
        mode = .core ∨ mode = .operator) :
    Scans 0 mode
      (separated ","
        ((first :: others).map Vocabulary.code)).toList rest
      fun later tokens =>
        (later = .core ∨ later = .operator) ∧
          SpellsElements (first :: others) tokens := by
  rw [List.map_cons, toList_separated]
  have hFirst :
      Scans 0 mode (Vocabulary.code first).toList
        (moreText others ++ rest)
        (One .core .element (Vocabulary.code first)) := by
    rcases hMode with ⟨rfl, hFire⟩ | rfl | rfl
    · cases first with
      | fire => contradiction
      | _ =>
          exact
            .sign (by cases moreText others ++ rest <;> rfl)
              (by decide) rfl rfl
    · exact scans_element first
    · cases first <;>
        exact
          .sign (by cases moreText others ++ rest <;> rfl)
            (by decide) rfl rfl
  apply hFirst.append
  intro later tokens hScan
  rcases hScan with ⟨rfl, offset, rfl⟩
  apply (scans_moreElements (.inl rfl) others).mono
  intro later tokens hScan
  rcases hScan with ⟨hLater, hSpells⟩
  exact ⟨hLater, .some (Vocabulary.ofCode?_code first) hSpells⟩

end StatusEffect
