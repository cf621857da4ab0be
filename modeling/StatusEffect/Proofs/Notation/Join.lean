import StatusEffect.Proofs.Notation.Scans

/-
  The parts of the core, and the gaps between them.

  A part of the core may be followed by a blank or directly by
  the next part. Which of the two is left to a policy here,
  which has to put a blank wherever the canonical notation
  does. What stands behind a part is then a blank, a point, a
  parenthesis, or the start of a part that does not continue
  it.

  Key definitions include:
    * `Canonical.joinWith`
    * `Canonical.Covers`
    * `Canonical.Clausal`
    * `Canonical.AtBoundary`

  Key theorems include:
    * `Canonical.joinWith_needsGap`
    * `Canonical.stops_joined`
    * `Canonical.startsSmall_joined`
    * `Canonical.scans_part`
-/

------------------------------------------------------------
-- Policies
------------------------------------------------------------

namespace StatusEffect

open Text

namespace Canonical

/- The blank between two parts, if a policy asks for it. -/
def gapText
    (gap : String → String → Bool)
    (before part : String) : String :=
  if gap before part then " " else ""

/- Parts that follow another part, under a policy. -/
def joinAfterWith
    (gap : String → String → Bool)
    (before : String) : List String → String
  | [] => ""
  | part :: parts =>
      gapText gap before part ++ part ++
        joinAfterWith gap part parts

/- The parts of a notation in one text, under a policy. -/
def joinWith
    (gap : String → String → Bool) : List String → String
  | [] => ""
  | part :: parts => part ++ joinAfterWith gap part parts

/- A policy has every gap that the canonical notation has. -/
def Covers (gap : String → String → Bool) : Prop :=
  ∀ before part,
    needsGap before part = true → gap before part = true

/- Where a policy has no gap, none is needed. -/
theorem Covers.needsGap_eq_false
    {gap : String → String → Bool}
    {before part : String}
    (hGap : Covers gap)
    (hNone : gap before part = false) :
    needsGap before part = false := by
  rw [← Bool.not_eq_true]
  intro hNeeds
  rw [hGap before part hNeeds] at hNone
  exact absurd hNone (by decide)

/- The canonical notation follows its own policy. -/
theorem joinAfterWith_needsGap
    (before : String)
    (parts : List String) :
    joinAfterWith needsGap before parts =
      joinAfter before parts := by
  induction parts generalizing before with
  | nil => rfl
  | cons part parts ih =>
      simp [joinAfterWith, joinAfter, gapText, ih]

theorem joinWith_needsGap
    (parts : List String) :
    joinWith needsGap parts = join parts := by
  cases parts with
  | nil => rfl
  | cons part parts =>
      simp [joinWith, join, joinAfterWith_needsGap]

/- A further part stands behind its gap. -/
theorem toList_joinAfterWith_cons
    (gap : String → String → Bool)
    (before part : String)
    (parts : List String) :
    (joinAfterWith gap before (part :: parts)).toList =
      (gapText gap before part).toList ++ (part.toList ++
        (joinAfterWith gap part parts).toList) := by
  simp [joinAfterWith]

------------------------------------------------------------
-- Characters At A Gap
------------------------------------------------------------

/- A string has at least as many bytes as characters. -/
theorem length_le_utf8ByteSize
    (text : String) :
    text.toList.length ≤ text.utf8ByteSize := by
  have hChars :
      ∀ cs : List Char,
        cs.length ≤ (String.ofList cs).utf8ByteSize := by
    intro cs
    induction cs with
    | nil => simp
    | cons c cs ih =>
        rw [String.ofList_cons, String.utf8ByteSize_append,
          String.utf8ByteSize_singleton, List.length_cons]
        have hPos := c.utf8Size_pos
        omega
  simpa using hChars text.toList

/- Without a gap no digit follows a digit. -/
theorem isAsciiDigit_of_needsGap
    {before part : String}
    {last next : Char}
    {others : List Char}
    (hLast : before.toList.getLast? = some last)
    (hNext : part.toList = next :: others)
    (hGap : needsGap before part = false)
    (hDigit : isAsciiDigit last = true) :
    isAsciiDigit next = false := by
  simp only [needsGap, hNext, hLast, Option.getD_some,
    hDigit, Bool.true_and, Bool.or_eq_false_iff] at hGap
  exact hGap.1

/- Without a gap no letter follows a longer word. -/
theorem isLetter_of_needsGap
    {before part : String}
    {last next : Char}
    {others : List Char}
    (hLast : before.toList.getLast? = some last)
    (hNext : part.toList = next :: others)
    (hGap : needsGap before part = false)
    (hLong : 1 < before.toList.length)
    (hLetter : isLetter last = true) :
    isLetter next = false := by
  have hBytes : 1 < before.utf8ByteSize :=
    Nat.lt_of_lt_of_le hLong (length_le_utf8ByteSize before)
  simp only [needsGap, hNext, hLast, Option.getD_some,
    hLetter, hBytes, decide_true, Bool.true_and,
    Bool.or_eq_false_iff] at hGap
  exact hGap.2

------------------------------------------------------------
-- Starts Of Parts
------------------------------------------------------------

/-
  A text that may follow a subject: it starts with a visible
  ASCII character, and not with two small letters, whatever
  stands behind it.
-/
def Clausal (part : String) : Prop :=
  ∃ c cs,
    part.toList = c :: cs ∧
      0x20 < c.toNat ∧ c.toNat < 0x7F ∧
        ∀ rest, startsSmall (c :: cs ++ rest) = false

/- A visible ASCII character is no blank. -/
theorem isBlank_of_visible
    {c : Char}
    (hLow : 0x20 < c.toNat)
    (hHigh : c.toNat < 0x7F) :
    isBlank c = false := by
  simp only [isBlank, inRanges, blankRanges]
  simp
  omega

/- A text that starts with no small letter, and visibly. -/
theorem clausal_of_cons
    {part : String}
    (c : Char)
    (cs : List Char)
    (hPart : part.toList = c :: cs)
    (hLow : 0x20 < c.toNat)
    (hHigh : c.toNat < 0x7F)
    (hSmall : isLower c = false) :
    Clausal part := by
  refine ⟨c, cs, hPart, hLow, hHigh, fun rest => ?_⟩
  rcases hText : cs ++ rest with _ | ⟨d, ds⟩
  · simp [startsSmall, hText]
  · simp [startsSmall, hText, hSmall]

/- A text that starts with a numeral. -/
theorem clausal_wordDecimal
    (n : UInt32)
    (behind : String) :
    Clausal (wordDecimal n ++ behind) := by
  rcases exists_wordDecimal_eq n with
    ⟨c, cs, hNumeral, hFirst, _⟩
  simp only [isAsciiDigit, Bool.and_eq_true,
    decide_eq_true_eq] at hFirst
  have hText :
      (wordDecimal n ++ behind).toList =
        c :: (cs ++ behind.toList) := by
    simp [hNumeral]
  refine clausal_of_cons _ _ hText ?_ ?_ ?_
  · omega
  · omega
  · simp only [isLower, Bool.and_eq_false_iff,
      decide_eq_false_iff_not]
    omega

/- The text of a capital letter may follow a subject. -/
theorem clausal_of_isUpper
    {part : String}
    {c : Char}
    {cs : List Char}
    (hPart : part.toList = c :: cs)
    (hUpper : isUpper c = true) :
    Clausal part := by
  simp only [isUpper, Bool.and_eq_true,
    decide_eq_true_eq] at hUpper
  refine clausal_of_cons c cs hPart ?_ ?_ ?_
  · omega
  · omega
  · simp only [isLower, Bool.and_eq_false_iff,
      decide_eq_false_iff_not]
    omega

/- The text of a change may follow a target. -/
theorem clausal_change
    (change : Change) :
    Clausal (Vocabulary.code change) := by
  cases change <;>
    exact
      clausal_of_cons _ _ rfl (by decide) (by decide)
        (by decide)

/- The text of a subject may follow a change. -/
theorem clausal_subject
    {subject : Subject}
    (hSubject : subject.Expressible) :
    Clausal subject.render := by
  cases subject with
  | stat stat =>
      rcases exists_code_stat_eq stat with ⟨c, hCode, hUpper⟩
      exact clausal_of_isUpper hCode hUpper
  | condition name =>
      rcases hSubject with hHash | hCapital
      · rcases exists_eq_of_isHashWord hHash with
          ⟨c, cs, hChars, _⟩
        exact
          clausal_of_cons '#' (c :: cs) hChars (by decide)
            (by decide) (by decide)
      · rcases exists_eq_of_isCapitalWord hCapital with
          ⟨c, d, e, cs, hChars, hUpper, _⟩
        exact clausal_of_isUpper hChars hUpper

/- The text of a magnitude may follow a subject. -/
theorem clausal_magnitude
    (magnitude : Magnitude) :
    Clausal magnitude.canonical := by
  unfold Magnitude.canonical
  split
  · exact
      clausal_of_cons 'F' [] rfl (by decide) (by decide)
        (by decide)
  · split
    · exact clausal_wordDecimal _ _
    · have hText := clausal_wordDecimal magnitude.value ""
      rwa [String.append_empty] at hText

/- The text of a duration may follow a subject. -/
theorem clausal_duration
    (duration : Duration) :
    Clausal duration.canonical := by
  cases duration with
  | turns count => exact clausal_wordDecimal _ _
  | turnRange first last =>
      simp only [Duration.canonical, String.append_assoc]
      exact clausal_wordDecimal _ _
  | combat =>
      exact
        clausal_of_cons 'C' [] rfl (by decide) (by decide)
          (by decide)
  | permanent =>
      exact
        clausal_of_cons 'P' [] rfl (by decide) (by decide)
          (by decide)
  | action =>
      exact
        clausal_of_cons 'A' [] rfl (by decide) (by decide)
          (by decide)

/- The text of a trigger may follow a subject. -/
theorem clausal_trigger
    (trigger : Trigger) :
    Clausal trigger.canonical := by
  cases trigger with
  | event event =>
      cases event with
      | turnEnd =>
          exact
            ⟨'v', ['E'], rfl, by decide, by decide,
              fun rest => rfl⟩
      | _ =>
          exact
            clausal_of_cons _ _ rfl (by decide) (by decide)
              (by decide)
  | chance percent =>
      refine
        clausal_of_cons '?'
          ((wordDecimal percent).toList ++ ['%']) ?_
          (by decide) (by decide) (by decide)
      simp [Trigger.canonical]
  | condition test =>
      refine
        clausal_of_cons '?' test.render.toList ?_
          (by decide) (by decide) (by decide)
      simp [Trigger.canonical]

/- The elements of an effect in one text. -/
def elementsText (elements : List Element) : String :=
  separated "," (elements.map Vocabulary.code)

/- The letter of an element starts the text of elements. -/
theorem exists_elementsText_eq
    (first : Element)
    (others : List Element) :
    ∃ c,
      (Vocabulary.code first).toList = [c] ∧
        (elementsText (first :: others)).toList =
          c :: moreText others ∧
        isUpper c = true := by
  unfold elementsText
  rw [List.map_cons, toList_separated]
  cases first <;> exact ⟨_, rfl, rfl, by decide⟩

/- The text of elements may follow a subject. -/
theorem clausal_elements
    (first : Element)
    (others : List Element) :
    Clausal (elementsText (first :: others)) := by
  rcases exists_elementsText_eq first others with
    ⟨c, _, hText, hUpper⟩
  exact clausal_of_isUpper hText hUpper

------------------------------------------------------------
-- Behind A Part
------------------------------------------------------------

/- Nothing stands behind a core, or a section or the end. -/
def AtBoundary (rest : List Char) : Prop :=
  ∀ c ∈ rest.head?, c = '.' ∨ c = ')'

/- A boundary stops a class without point and parenthesis. -/
theorem AtBoundary.stops
    {rest : List Char}
    (hRest : AtBoundary rest)
    {accepts : Char → Bool}
    (hPoint : accepts '.' = false)
    (hParen : accepts ')' = false) :
    Stops accepts rest := by
  intro c hFirst
  rcases hRest c hFirst with rfl | rfl
  · exact hPoint
  · exact hParen

/-
  What stands behind a part stops a class that has neither
  blank, point nor parenthesis, if the next part does so where
  it follows without a gap.
-/
theorem stops_joined
    {gap : String → String → Bool}
    {before : String}
    {parts : List String}
    {rest : List Char}
    {accepts : Char → Bool}
    (hRest : AtBoundary rest)
    (hPoint : accepts '.' = false)
    (hParen : accepts ')' = false)
    (hBlank : accepts ' ' = false)
    (hParts : ∀ part ∈ parts, Clausal part)
    (hFirst :
      ∀ part ∈ parts.head?,
        gap before part = false →
          Stops accepts part.toList) :
    Stops accepts
      ((joinAfterWith gap before parts).toList ++ rest) := by
  cases parts with
  | nil => simpa [joinAfterWith] using hRest.stops hPoint hParen
  | cons part parts =>
      rw [toList_joinAfterWith_cons]
      cases hGap : gap before part with
      | true =>
          simp only [gapText, hGap, if_true]
          exact stops_of_cons hBlank
      | false =>
          have hStops := hFirst part rfl hGap
          rcases hParts part (by simp) with ⟨c, cs, hText, _⟩
          rw [hText, stops_cons] at hStops
          simp [gapText, hGap, hText, hStops]

/- What stands behind a part does not start with two small letters. -/
theorem startsSmall_joined
    {gap : String → String → Bool}
    {before : String}
    {parts : List String}
    {rest : List Char}
    (hRest : AtBoundary rest)
    (hParts : ∀ part ∈ parts, Clausal part) :
    startsSmall
      ((joinAfterWith gap before parts).toList ++ rest) =
        false := by
  cases parts with
  | nil =>
      simp only [joinAfterWith, String.toList_empty,
        List.nil_append]
      rcases rest with _ | ⟨c, _ | ⟨d, rest⟩⟩
      · rfl
      · rfl
      · rcases hRest c rfl with rfl | rfl <;> rfl
  | cons part parts =>
      rw [toList_joinAfterWith_cons]
      cases hGap : gap before part with
      | true =>
          simp only [gapText, hGap, if_true]
          rcases hText :
              (part.toList ++
                (joinAfterWith gap part parts).toList) ++
                  rest with _ | ⟨c, cs⟩
          · simp [startsSmall, hText]
          · simp [startsSmall, hText, isLower]
      | false =>
          rcases hParts part (by simp) with
            ⟨c, cs, hText, _, _, hSmall⟩
          simpa [gapText, hGap, hText] using
            hSmall
              ((joinAfterWith gap part parts).toList ++ rest)

/- The gap before a part is skipped, if there is one. -/
theorem scans_gapText
    {gap : String → String → Bool}
    {before part : String}
    {mode : Mode}
    {rest : List Char}
    (hRest : Stops isBlank rest) :
    Scans 0 mode (gapText gap before part).toList rest
      fun later tokens => later = mode ∧ tokens = [] := by
  unfold gapText
  split
  · exact .blank hRest
  · exact .nil ⟨rfl, rfl⟩

/- A part of the core does not start with a blank. -/
theorem Clausal.stops_isBlank
    {part : String}
    (hPart : Clausal part)
    (rest : List Char) :
    Stops isBlank (part.toList ++ rest) := by
  rcases hPart with ⟨c, cs, hText, hLow, hHigh, _⟩
  rw [hText]
  exact stops_of_cons (isBlank_of_visible hLow hHigh)

/- A further part is scanned behind its gap. -/
theorem scans_part
    {gap : String → String → Bool}
    {before part : String}
    {parts : List String}
    {mode : Mode}
    {rest : List Char}
    {First Result : Mode → List Token → Prop}
    (hClausal : Clausal part)
    (hPart :
      Scans 0 mode part.toList
        ((joinAfterWith gap part parts).toList ++ rest)
        First)
    (hNext :
      ∀ later tokens,
        First later tokens →
          Scans 0 later
            (joinAfterWith gap part parts).toList rest
            fun last others =>
              Result last (tokens ++ others)) :
    Scans 0 mode
      (joinAfterWith gap before (part :: parts)).toList rest
      Result := by
  rw [toList_joinAfterWith_cons]
  refine Scans.append (scans_gapText ?_) ?_
  · rw [List.append_assoc]
    exact hClausal.stops_isBlank _
  · intro later tokens hScan
    rcases hScan with ⟨rfl, rfl⟩
    exact hPart.append hNext

end Canonical

end StatusEffect
