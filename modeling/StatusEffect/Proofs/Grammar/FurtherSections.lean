import StatusEffect.Proofs.Grammar.Further

/-
  Sections of more tokens.

  More tokens behind the sections of a notation first belong
  to the last of them, up to the next cut; all others stay as
  they are. The last section goes on as its reader does, and
  those behind it are all new. So if the sections of a notation
  are read, more tokens are only rejected for themselves.

  Key definitions include:
    * `Section.cuts`
    * `Section.extendedBy`

  Key theorems include:
    * `Section.cuts_append`
    * `Grammar.goesOn_extension`
    * `Grammar.goesOn_sections`
    * `Grammar.behindMandatory_within`
-/

------------------------------------------------------------
-- Single Sections
------------------------------------------------------------

namespace StatusEffect

namespace Grammar

open Reader

/- A condition, and the rest of its list behind a comma. -/
def conditionsAfter
    (first : Condition) : Reader (List Condition) := do
  let others ← conditionList
  pure (first :: others)

/- Behind a comma the rest of a list is read. -/
theorem conditionsBehind_comma
    {comma : Token}
    (hComma : comma.kind = .comma)
    (first : Condition)
    (stop : Nat)
    (tokens : List Token) :
    conditionsBehind first stop (comma :: tokens) =
      conditionsAfter first stop tokens := by
  simp only [conditionsBehind, hComma]
  change _ = andThen conditionList _ stop tokens
  unfold andThen
  cases conditionList stop tokens with
  | stuck failure left => rfl
  | read others left => rfl

/- A list of conditions goes on. -/
theorem goesOn_conditionList :
    GoesOn (conditionList : Reader (List Condition)) := by
  intro tokens
  -- the rest behind a condition and a comma is shorter
  induction hLength : tokens.length
    using Nat.strongRecOn generalizing tokens with
  | ind length ih =>
      subst hLength
      intro more stop last
      have hCondition :=
        goesOn_condition tokens more stop last
      rw [conditionList_eq_bind, conditionList_eq_bind,
        bind_apply, bind_apply]
      cases hFirst : condition stop tokens with
      | stuck failure left => exact .stuck _ _ _
      | read first rest =>
          have hShort := length_lt_of_condition hFirst
          rw [hFirst] at hCondition
          generalize condition last (tokens ++ more) = other
            at hCondition
          rcases rest with _ | ⟨next, others⟩
          · exact .stuck _ _ _
          · rw [List.length_cons] at hShort
            cases hCondition with
            | same =>
                by_cases hComma : next.kind = .comma
                · simp only [List.cons_append,
                    conditionsBehind_comma hComma]
                  exact
                    (ih _ (by omega) others rfl more).map
                      (first :: ·) stop last
                · simp only [List.cons_append,
                    conditionsBehind]
                  split
                  · contradiction
                  · exact .same [first] others
                  · exact .stuck _ _ _

/- A chain target goes on. -/
theorem goesOn_chainTarget
    {nested : Option (Reader Record)}
    (hNested : SoundNested nested) :
    GoesOn (chainTarget nested) := by
  refine goesOn_of_cons (stays_chainTarget hNested) ?_
  intro opening rest more stop last
  by_cases hOpening : opening.kind = .parenOpen
  · simp only [List.cons_append, chainTarget, hOpening,
      if_true]
    cases nested with
    | none => exact .stuck _ _ _
    | some reader =>
        cases hClosing : Section.closing? 0 rest with
        | none => exact .stuck _ _ _
        | some found =>
            rcases found with ⟨inner, close, left⟩
            rcases Section.parensOver?_of_closing?
                hClosing with
              ⟨hClose, hInner⟩
            rw [Section.eq_of_closing? hClosing,
              List.append_assoc, List.cons_append]
            simp only [Section.closing?_of_balanced hInner
              hClose]
            cases reader close.offset inner with
            | stuck failure others => exact .stuck _ _ _
            | read record others => exact .same _ left
  · simp only [List.cons_append, chainTarget, hOpening,
      if_false]
    exact .same none (opening :: rest)

/- The count of a stacking rule does not depend on the rest. -/
theorem keeps_stackCount
    (rule : StackRule)
    (head : Token) :
    Keeps (stackCount rule head) := by
  unfold stackCount
  split
  · exact (keeps_number _).map some
  · exact keeps_pure none

/- The amount of a resource goes on. -/
theorem goesOn_resourceAmount : GoesOn resourceAmount := by
  refine goesOn_of_cons stays_resourceAmount ?_
  intro token tokens more stop last
  by_cases hKind : token.kind = .number
  · simp only [List.cons_append, resourceAmount, bind_apply,
      eat?, hKind, if_true]
    exact
      ((keeps_numeral token).map some).goesOn tokens more stop
        last
  · simp only [List.cons_append, resourceAmount, bind_apply,
      eat?, hKind, if_false]
    exact .same none (token :: tokens)

/- The body of a section goes on. -/
theorem goesOn_sectionBody?
    {nested : Option (Reader Record)}
    (hNested : SoundNested nested)
    (head : Token) :
    ∀ body ∈ sectionBody? nested head, GoesOn body := by
  unfold sectionBody?
  split
  · rintro _ ⟨⟩
    exact ((keeps_word _ head).map _).goesOn
  · rintro _ ⟨⟩
    exact ((keeps_word _ head).map _).goesOn
  · rintro _ ⟨⟩
    exact
      (keeps_word _ head).bind_goesOn fun effect =>
        (goesOn_chainTarget hNested).map _
  · rintro _ ⟨⟩
    exact ((keeps_word _ head).map _).goesOn
  · rintro _ ⟨⟩
    exact
      (keeps_word _ head).bind_goesOn fun rule =>
        ((keeps_stackCount rule head).map _).goesOn
  · rintro _ ⟨⟩
    exact ((keeps_word _ head).map _).goesOn
  · rintro _ ⟨⟩
    exact
      (keeps_word _ head).bind_goesOn fun resource =>
        goesOn_resourceAmount.map _
  · rintro _ ⟨⟩
    exact goesOn_conditionList.map _
  · rintro _ ⟨⟩
    exact goesOn_condition.map _
  · rintro _ ⟨⟩
    exact ((keeps_word _ head).map _).goesOn
  · intro body hBody
    cases hName : MetaEffect.ofName? head.text with
    | none =>
        rw [hName] at hBody
        cases hBody
    | some metaEffect =>
        rw [hName] at hBody
        cases hBody
        exact (keeps_pure _).goesOn
  · rintro _ ⟨⟩

/- The end of a section goes on. -/
theorem goesOn_sectionEnd
    (head : Token) :
    GoesOn (sectionEnd head) := by
  refine goesOn_of_cons (stays_sectionEnd head) ?_
  intro token tokens more stop last
  exact .stuck _ _ _

/- A section goes on. -/
theorem goesOn_extension
    {nested : Option (Reader Record)}
    (hNested : SoundNested nested) :
    GoesOn (extension nested) := by
  refine goesOn_of_cons (stays_extension hNested) ?_
  intro head rest more stop last
  have hBody := goesOn_sectionBody? hNested head
  simp only [List.cons_append, extension]
  cases hHead : sectionBody? nested head with
  | none => exact .same _ rest
  | some body =>
      refine
        (hBody body hHead).bind (fun value => ?_)
          (fun value => ?_) rest more stop last
      · exact (goesOn_sectionEnd head).map _
      · exact (stays_sectionEnd head).map _

end Grammar

------------------------------------------------------------
-- All Sections
------------------------------------------------------------

namespace Section

/- The sections that tokens are cut into, empty ones too. -/
def cuts
    (stop parens : Nat)
    (tokens : List Token) : List Section :=
  (cut stop parens tokens).1 :: (cut stop parens tokens).2

/-
  A section with more tokens behind it: those up to the next
  cut are its own.
-/
def extendedBy (part next : Section) : Section :=
  ⟨part.tokens ++ next.tokens, next.stop⟩

/- Where a token ends no section, the first one is longer. -/
theorem cuts_cons_of_not_isCut
    {parens : Nat}
    {token : Token}
    (hCut : isCut parens token = false)
    (stop : Nat)
    (tokens : List Token) :
    cuts stop parens (token :: tokens) =
      (extendedBy ⟨[token], 0⟩
          (cut stop (parensAfter parens token) tokens).1) ::
        (cut stop (parensAfter parens token) tokens).2 := by
  simp only [cuts, cut, hCut, Bool.false_eq_true, if_false]
  rfl

/- Where a token ends a section, there is an empty one. -/
theorem cuts_cons_of_isCut
    {parens : Nat}
    {token : Token}
    (hCut : isCut parens token = true)
    (stop : Nat)
    (tokens : List Token) :
    cuts stop parens (token :: tokens) =
      ⟨[], token.offset⟩ :: cuts stop 0 tokens := by
  simp only [cuts, cut, hCut, if_true]

/-
  More tokens leave all sections as they are but the last one,
  which goes on up to the first cut in the further tokens.
-/
theorem cuts_append
    (stop last parens : Nat)
    (tokens more : List Token) :
    ∃ before part depth,
      cuts stop parens tokens = before ++ [⟨part, stop⟩] ∧
        cuts last parens (tokens ++ more) =
          before ++
            extendedBy ⟨part, stop⟩
                (cut last depth more).1 ::
              (cut last depth more).2 := by
  induction tokens generalizing parens with
  | nil => exact ⟨[], [], parens, rfl, rfl⟩
  | cons token tokens ih =>
      rw [List.cons_append]
      cases hCut : isCut parens token with
      | true =>
          rw [cuts_cons_of_isCut hCut, cuts_cons_of_isCut hCut]
          rcases ih 0 with
            ⟨before, part, depth, hTokens, hMore⟩
          rw [hTokens, hMore]
          exact ⟨_ :: before, part, depth, rfl, rfl⟩
      | false =>
          rw [cuts_cons_of_not_isCut hCut,
            cuts_cons_of_not_isCut hCut]
          rcases ih (parensAfter parens token) with
            ⟨before, part, depth, hTokens, hMore⟩
          unfold cuts at hTokens hMore
          cases before with
          | nil =>
              rw [List.nil_append, List.cons.injEq]
                at hTokens hMore
              rw [hTokens.1, hTokens.2, hMore.1, hMore.2]
              exact ⟨[], token :: part, depth, rfl, rfl⟩
          | cons first before =>
              rw [List.cons_append, List.cons.injEq]
                at hTokens hMore
              rw [hTokens.1, hTokens.2, hMore.1, hMore.2]
              exact ⟨_ :: before, part, depth, rfl, rfl⟩

/- A section stops at a mark of the tokens that are cut. -/
theorem stop_mem_marks_of_cuts
    {stop parens : Nat}
    {tokens : List Token}
    {part : Section}
    (hPart : part ∈ cuts stop parens tokens) :
    part.stop ∈ marks stop tokens := by
  induction tokens generalizing parens part with
  | nil =>
      rw [List.mem_singleton.mp hPart]
      exact List.mem_singleton_self stop
  | cons token tokens ih =>
      have hSubset : tokens ⊆ token :: tokens :=
        List.subset_cons_self token tokens
      cases hCut : isCut parens token with
      | true =>
          rw [cuts_cons_of_isCut hCut] at hPart
          rcases List.mem_cons.mp hPart with rfl | hPart
          · exact List.mem_cons_self
          · exact mem_marks_of_subset hSubset (ih hPart)
      | false =>
          rw [cuts_cons_of_not_isCut hCut] at hPart
          apply mem_marks_of_subset hSubset
          rcases List.mem_cons.mp hPart with rfl | hPart
          · have hFirst :
                (cut stop (parensAfter parens token)
                    tokens).1 ∈
                  cuts stop (parensAfter parens token)
                    tokens :=
              List.mem_cons_self
            have hStop := ih hFirst
            exact hStop
          · exact ih (List.mem_cons_of_mem _ hPart)

/- Sections are read where they hold a token. -/
theorem mem_split_iff
    {stop : Nat}
    {tokens : List Token}
    {part : Section} :
    part ∈ split stop tokens ↔
      part ∈ cuts stop 0 tokens ∧ part.tokens ≠ [] := by
  simp [split, cuts, List.mem_filter]

/- The marks of a section are marks of the tokens it is of. -/
theorem marks_subset_of_cuts
    {stop parens : Nat}
    {tokens : List Token}
    {part : Section}
    (hPart : part ∈ cuts stop parens tokens) :
    marks part.stop part.tokens ⊆ marks stop tokens := by
  have hInfix : part.tokens <:+: tokens := by
    have hCut := infix_of_cut stop parens tokens
    rcases List.mem_cons.mp hPart with rfl | hPart
    · exact hCut.1.isInfix
    · exact hCut.2 part hPart
  intro offset hOffset
  rcases List.mem_append.mp hOffset with hToken | hStop
  · apply List.mem_append_left
    exact List.map_subset _ hInfix.subset hToken
  · rw [List.mem_singleton.mp hStop]
    exact stop_mem_marks_of_cuts hPart

end Section

namespace Grammar

open Reader

/- If sections are read, each of them is. -/
theorem exists_read_of_extensions
    {nested : Option (Reader Record)}
    {parts : List Section}
    {values : List Extension}
    (hValues : extensions nested parts = .ok values) :
    ∀ part ∈ parts, ∃ value rest,
      extension nested part.stop part.tokens =
        .read value rest := by
  induction parts generalizing values with
  | nil =>
      intro part hPart
      cases hPart
  | cons first parts ih =>
      rw [extensions] at hValues
      cases hFirst :
          extension nested first.stop first.tokens with
      | stuck failure rest =>
          rw [hFirst] at hValues
          cases hValues
      | read value rest =>
          rw [hFirst] at hValues
          cases hOthers : extensions nested parts with
          | error failure =>
              rw [hOthers] at hValues
              cases hValues
          | ok others =>
              intro part hPart
              rcases List.mem_cons.mp hPart with rfl | hPart
              · exact ⟨value, rest, hFirst⟩
              · exact ih hOthers part hPart

/-
  The sections of more tokens fail within the further ones if
  the sections of the first tokens do not fail.
-/
theorem offset_mem_marks_of_extensions
    {nested : Option (Reader Record)}
    (hNested : SoundNested nested)
    {stop last : Nat}
    {tokens more : List Token}
    {values : List Extension}
    (hValues :
      extensions nested (Section.split stop tokens) =
        .ok values)
    {failure : Failure}
    (hFailure :
      extensions nested (Section.split last (tokens ++ more)) =
        .error failure) :
    failure.offset ∈ marks last more := by
  have hRead := exists_read_of_extensions hValues
  rcases exists_stuck_of_extensions hFailure with
    ⟨part, hPart, left, hStuck⟩
  rcases Section.cuts_append stop last 0 tokens more with
    ⟨before, tail, depth, hTokens, hMore⟩
  rw [Section.mem_split_iff, hMore, List.mem_append,
    List.mem_cons] at hPart
  have hFirst :
      ∃ value rest,
        extension nested stop tail = .read value rest := by
    by_cases hTail : tail = []
    · rw [hTail]
      exact ⟨.ignored, [], rfl⟩
    · apply hRead ⟨tail, stop⟩
      rw [Section.mem_split_iff, hTokens]
      exact ⟨by simp, hTail⟩
  rcases hPart with ⟨hBefore | rfl | hBehind, hNonempty⟩
  · -- a section in front of the last one is still the same
    have hSame : part ∈ Section.split stop tokens := by
      rw [Section.mem_split_iff, hTokens]
      exact ⟨List.mem_append_left _ hBefore, hNonempty⟩
    rcases hRead part hSame with ⟨value, rest, hPartRead⟩
    rw [hPartRead] at hStuck
    cases hStuck
  · -- the last section goes on, maybe from nothing
    rcases hFirst with ⟨value, rest, hTailRead⟩
    have hGoesOn :=
      goesOn_extension hNested tail
        (Section.cut last depth more).1.tokens stop
        (Section.cut last depth more).1.stop
    unfold Section.extendedBy at hStuck
    rw [hTailRead, hStuck] at hGoesOn
    cases hGoesOn with
    | within value hOther =>
        exact
          Section.marks_subset_of_cuts List.mem_cons_self
            hOther
  · -- a section behind it has further tokens only
    have hStays :=
      stays_extension hNested part.stop part.tokens
    rw [hStuck] at hStays
    exact
      Section.marks_subset_of_cuts
        (List.mem_cons_of_mem _ hBehind) hStays

/- All sections go on. -/
theorem goesOn_sections
    {nested : Option (Reader Record)}
    (hNested : SoundNested nested) :
    GoesOn (sections nested) := by
  intro tokens more stop last
  unfold sections
  cases hValues :
      extensions nested (Section.split stop tokens) with
  | error failure => exact .stuck _ _ _
  | ok values =>
      refine .within values ?_
      cases hOutcome :
          extensions nested
            (Section.split last (tokens ++ more)) with
      | ok others => exact List.nil_subset more
      | error failure =>
          exact
            offset_mem_marks_of_extensions hNested hValues
              hOutcome

------------------------------------------------------------
-- Records
------------------------------------------------------------

/-
  What follows the mandatory clauses goes on, unless a
  magnitude becomes a duration.
-/
theorem goesOnWith_behindMandatory
    {nested : Option (Reader Record)}
    (hNested : SoundNested nested)
    {tokens more : List Token}
    (hApart : ¬ Crosses tokens more)
    (start : Target × Change × Subject) :
    GoesOnWith tokens more (behindMandatory nested start) :=
  (goesOnWith_optionalClauses hApart start).bind
    (fun _ => (goesOn_sections hNested).map _)
    (stays_withSections hNested)

variable {number : Token}
variable {more : List Token}

/- A number that counts turns is no magnitude. -/
theorem magnitude_of_countsTurns
    (hNumber : number.kind = .number)
    (hTurns : countsTurns more = true)
    (stop : Nat) :
    magnitude stop (number :: more) =
      .read none (number :: more) := by
  simp only [magnitude, hNumber, hTurns, if_true]

/- A number that is no magnitude starts a duration. -/
theorem behindMandatory_of_countsTurns
    (nested : Option (Reader Record))
    (start : Target × Change × Subject)
    (hNumber : number.kind = .number)
    (hTurns : countsTurns more = true)
    (stop : Nat) :
    behindMandatory nested start stop (number :: more) =
      (turns number >>= fun duration =>
        lastClauses start none (some duration) >>=
          withSections nested) stop more := by
  have hMagnitude :=
    magnitude_of_countsTurns hNumber hTurns stop
  have hDuration :
      duration stop (number :: more) =
        (turns number >>= fun duration =>
          pure (some duration)) stop more := by
    simp only [duration, hNumber]
    rfl
  simp only [behindMandatory, optionalClauses, lateClauses,
    bind_apply, hMagnitude, hDuration]
  cases turns number stop more with
  | read duration rest => rfl
  | stuck failure rest => rfl

/-
  Where a magnitude becomes a duration, the clauses behind the
  mandatory ones are read within the further tokens, or the
  duration is a reversed range.
-/
theorem behindMandatory_within
    {nested : Option (Reader Record)}
    (hNested : SoundNested nested)
    (start : Target × Change × Subject)
    (hNumber : number.kind = .number)
    (hTurns : countsTurns more = true)
    {first : UInt32}
    (hFirst : Text.wordOfNumeral? number.text = some first)
    (stop : Nat) :
    (behindMandatory nested start stop
        (number :: more)).Within stop more ∨
      ∃ last left,
        RangeEnd last more ∧ last < first ∧
          behindMandatory nested start stop
              (number :: more) =
            .stuck
              ⟨.rangeReversed first last, number.offset⟩
              left := by
  rw [behindMandatory_of_countsTurns nested start hNumber
    hTurns]
  rcases turns_within hFirst stop more with
    hWithin | ⟨last, left, hEnd, hOrder, hStuck⟩
  · left
    refine within_bind hWithin fun duration => ?_
    refine (stays_lastClauses start none _).bind ?_
    exact stays_withSections hNested
  · right
    refine ⟨last, left, hEnd, hOrder, ?_⟩
    rw [bind_apply, hStuck]

/- A reversed range is reported at its first number. -/
theorem behindMandatory_of_rangeEnd
    (nested : Option (Reader Record))
    (start : Target × Change × Subject)
    (hNumber : number.kind = .number)
    {first last : UInt32}
    (hFirst : Text.wordOfNumeral? number.text = some first)
    (hEnd : RangeEnd last more)
    (hOrder : last < first)
    (stop : Nat) :
    ∃ left,
      behindMandatory nested start stop (number :: more) =
        .stuck ⟨.rangeReversed first last, number.offset⟩
          left := by
  have hTurns : countsTurns more = true := by
    rcases hEnd with ⟨behind, hDash, _, _, _⟩
    simp [countsTurns, hDash]
  rcases turns_of_rangeEnd hFirst hEnd hOrder stop with
    ⟨left, hStuck⟩
  refine ⟨left, ?_⟩
  rw [behindMandatory_of_countsTurns nested start hNumber
    hTurns, bind_apply, hStuck]

/- A number alone behind the mandatory clauses is flat. -/
theorem magnitude_of_behindMandatory
    {nested : Option (Reader Record)}
    {start : Target × Change × Subject}
    {stop : Nat}
    {record : Record}
    {left : List Token}
    (hNumber : number.kind = .number)
    (hRead :
      behindMandatory nested start stop [number] =
        .read record left) :
    ∃ first,
      Text.wordOfNumeral? number.text = some first ∧
        record.effect.magnitude = some (.flat first) := by
  cases hFirst : Text.wordOfNumeral? number.text with
  | none =>
      simp [behindMandatory, optionalClauses, magnitude,
        numeral, failAt, hNumber, countsTurns,
        hFirst] at hRead
  | some first =>
      have hMagnitude :
          magnitude stop [number] =
            .read (some (.flat first)) [] := by
        simp [magnitude, numeral, eat?, hNumber,
          countsTurns, hFirst]
      simp only [behindMandatory, optionalClauses,
        bind_apply, hMagnitude] at hRead
      cases hRead
      exact ⟨first, rfl, rfl⟩

end Grammar

end StatusEffect
