import Mathlib.Control.Monad.Basic
import Mathlib.Logic.Function.Basic
import StatusEffect.Proofs.Grammar.Places
import StatusEffect.Proofs.Token.Break

/-
  Blanks between tokens.

  A blank continues no lexeme, so a lexeme in front of it is
  read as if the text ended there. Nor does a rule match that
  did not match before: what a rule reads ahead of it only
  gets less. So blanks between tokens move the tokens behind
  them and change nothing else, and neither the record of a
  notation nor the cause of its failure depends on them.

  Key definitions include:
    * `IsGap`
    * `Spaced`

  Key theorems include:
    * `Mode.lexeme_of_append`
    * `follows_of_spaced`
    * `Grammar.parse_eq_of_spaced`
-/

------------------------------------------------------------
-- Shorter Texts
------------------------------------------------------------

namespace StatusEffect

open Text

/- A search in which a given answer is replaced by another. -/
theorem findSome?_eq_some_of_imp
    {α β : Type}
    {items : List α}
    {first second : α → Option β}
    {answer other : β}
    (hNone :
      ∀ item ∈ items,
        first item = none → second item = none)
    (hSome :
      ∀ item ∈ items,
        first item = some answer →
          second item = some other)
    (hFound : items.findSome? first = some answer) :
    items.findSome? second = some other := by
  induction items with
  | nil => simp at hFound
  | cons item items ih =>
      rw [List.forall_mem_cons] at hNone hSome
      rw [List.findSome?_cons] at hFound ⊢
      cases hItem : first item with
      | none =>
          rw [hItem] at hFound
          rw [hNone.1 hItem]
          exact ih hNone.2 hSome.2 hFound
      | some found =>
          rw [hItem] at hFound
          cases hFound
          rw [hSome.1 hItem]

/- What a run leaves does not go on with it. -/
theorem Text.stops_dropWhile
    (accepts : Char → Bool)
    (cs : List Char) :
    Stops accepts (cs.dropWhile accepts) := by
  induction cs with
  | nil => exact stops_nil accepts
  | cons c cs ih =>
      by_cases hAccepts : accepts c = true
      · rw [List.dropWhile_cons_of_pos hAccepts]
        exact ih
      · rw [List.dropWhile_cons_of_neg hAccepts]
        exact stops_of_cons (Bool.eq_false_iff.mpr hAccepts)

/- What stops a class in front of a text stops it alone. -/
theorem Text.Stops.left_of_append
    {accepts : Char → Bool}
    {before behind : List Char}
    (hStops : Stops accepts (before ++ behind)) :
    Stops accepts before := by
  cases before with
  | nil => exact stops_nil accepts
  | cons c before => simpa using hStops

namespace Shape

/- Fixed characters that a text has not are in no part of it. -/
theorem takeFixed?_of_append
    {classes : List (Char → Bool)}
    {cs behind : List Char}
    (hNone : takeFixed? classes (cs ++ behind) = none) :
    takeFixed? classes cs = none := by
  induction classes generalizing cs with
  | nil => simp [takeFixed?] at hNone
  | cons accepts classes ih =>
      cases cs with
      | nil => rfl
      | cons c cs =>
          by_cases hAccepts : accepts c = true
          · simp only [List.cons_append, takeFixed?,
              hAccepts, if_true,
              Option.map_eq_none_iff] at hNone ⊢
            exact ih hNone
          · simp [takeFixed?, hAccepts]

/- A text of a shape has the characters that the shape fixes. -/
theorem takeFixed?_of_fits
    {classes : List (Char → Bool)}
    {tail : Char → Bool}
    {lexeme : List Char}
    (hFits : fits classes tail lexeme = true)
    (rest : List Char) :
    ∃ fixed run,
      lexeme = fixed ++ run ∧ run.all tail = true ∧
        takeFixed? classes (lexeme ++ rest) =
          some (fixed, run ++ rest) := by
  induction classes generalizing lexeme with
  | nil => exact ⟨[], lexeme, rfl, hFits, rfl⟩
  | cons accepts classes ih =>
      cases lexeme with
      | nil => simp [fits] at hFits
      | cons c lexeme =>
          simp only [fits, Bool.and_eq_true] at hFits
          rcases ih hFits.2 with
            ⟨fixed, run, rfl, hRun, hTake⟩
          refine ⟨c :: fixed, run, rfl, hRun, ?_⟩
          simp only [List.cons_append, takeFixed?, hFits.1,
            if_true, hTake, Option.map_some]

/-
  A shape matches a lexeme exactly if the lexeme is of that
  shape and the rest does not go on with its run.
-/
theorem match?_eq_some_iff
    {shape : Shape}
    {lexeme rest : List Char} :
    shape.match? (lexeme ++ rest) = some (lexeme, rest) ↔
      shape.describes lexeme = true ∧
        Stops shape.tail rest := by
  constructor
  · intro hMatch
    refine ⟨describes_of_match? hMatch, ?_⟩
    simp only [match?, Option.map_eq_some_iff, Prod.exists,
      Prod.mk.injEq] at hMatch
    rcases hMatch with ⟨fixed, left, _, _, rfl⟩
    exact stops_dropWhile shape.tail left
  · rintro ⟨hDescribes, hRest⟩
    rcases takeFixed?_of_fits hDescribes rest with
      ⟨fixed, run, rfl, hRun, hTake⟩
    simp only [match?, hTake, Option.map_some,
      takeWhile_append_of_stops hRun hRest,
      dropWhile_append_of_stops hRun hRest]

/- A shape that does not match a text matches no part of it. -/
theorem match?_of_append_none
    {shape : Shape}
    {cs behind : List Char}
    (hNone : shape.match? (cs ++ behind) = none) :
    shape.match? cs = none := by
  simp only [match?, Option.map_eq_none_iff] at hNone ⊢
  exact takeFixed?_of_append hNone

/- A lexeme is matched in any part of a text that has it. -/
theorem match?_of_append
    {shape : Shape}
    {lexeme before behind : List Char}
    (hMatch :
      shape.match? (lexeme ++ (before ++ behind)) =
        some (lexeme, before ++ behind)) :
    shape.match? (lexeme ++ before) =
      some (lexeme, before) := by
  rw [match?_eq_some_iff] at hMatch ⊢
  exact ⟨hMatch.1, hMatch.2.left_of_append⟩

end Shape

namespace Rule

/- A rule that does not match a text matches no part of it. -/
theorem match?_of_append_none
    {rule : Rule}
    {cs behind : List Char}
    (hNone : rule.match? (cs ++ behind) = none) :
    rule.match? cs = none := by
  simp only [match?, Option.map_eq_none_iff,
    List.findSome?_eq_none_iff] at hNone ⊢
  intro shape hShape
  exact Shape.match?_of_append_none (hNone shape hShape)

/- A lexeme is matched in any part of a text that has it. -/
theorem match?_of_append
    {rule : Rule}
    {kind : TokenKind}
    {lexeme before behind : List Char}
    (hMatch :
      rule.match? (lexeme ++ (before ++ behind)) =
        some (kind, lexeme, before ++ behind)) :
    rule.match? (lexeme ++ before) =
      some (kind, lexeme, before) := by
  simp only [match?, Option.map_eq_some_iff, Prod.exists,
    Prod.mk.injEq] at hMatch ⊢
  rcases hMatch with
    ⟨taken, left, hFound, hKind, hTaken, hLeft⟩
  rw [hTaken, hLeft] at hFound
  refine ⟨lexeme, before, ?_, hKind, rfl, rfl⟩
  refine
    findSome?_eq_some_of_imp ?_
      (fun _ _ => Shape.match?_of_append) hFound
  intro shape _ hNone
  rw [← List.append_assoc] at hNone
  exact Shape.match?_of_append_none hNone

end Rule

namespace Mode

/- A token is read the same in any part of a text that has it. -/
theorem lexeme_of_append
    {mode : Mode}
    {c : Char}
    {others before behind : List Char}
    {kind : TokenKind}
    (hLexeme :
      mode.lexeme c (others ++ (before ++ behind)) =
        (kind, c :: others, before ++ behind))
    (hBlank : isBlank c = false)
    (hValid : kind ≠ .invalid) :
    mode.lexeme c (others ++ before) =
      (kind, c :: others, before) := by
  rw [lexeme_eq_of_not_isBlank hBlank] at hLexeme ⊢
  cases hFound :
      mode.tokenRules.findSome? fun rule =>
        rule.match? (c :: (others ++ (before ++ behind))) with
  | none =>
      rw [hFound] at hLexeme
      simp only [Option.getD_none, Prod.mk.injEq] at hLexeme
      exact absurd hLexeme.1.symm hValid
  | some found =>
      rw [hFound, Option.getD_some] at hLexeme
      subst hLexeme
      have hShorter :
          (mode.tokenRules.findSome? fun rule =>
            rule.match? (c :: (others ++ before))) =
              some (kind, c :: others, before) := by
        refine findSome?_eq_some_of_imp ?_ ?_ hFound
        · intro rule _ hNone
          rw [← List.append_assoc,
            ← List.cons_append] at hNone
          exact Rule.match?_of_append_none hNone
        · intro rule _ hMatch
          rw [← List.cons_append] at hMatch ⊢
          exact Rule.match?_of_append hMatch
      rw [hShorter, Option.getD_some]

end Mode

------------------------------------------------------------
-- Spaced Texts
------------------------------------------------------------

/- An offset is in front of, behind or between some tokens. -/
def IsGap
    (tokens : List Token)
    (offset : Nat) : Prop :=
  ∀ token ∈ tokens,
    offset ≤ token.offset ∨ token.finish ≤ offset

/-
  A text from some offset on, and the same text with more
  blanks in the gaps of its tokens.
-/
inductive Spaced (tokens : List Token) :
    Nat → List Char → List Char → Prop where
  | none (offset : Nat) : Spaced tokens offset [] []
  | keep
      {offset : Nat}
      {c : Char}
      {cs spaced : List Char}
      (hRest : Spaced tokens (offset + c.utf8Size) cs spaced) :
      Spaced tokens offset (c :: cs) (c :: spaced)
  | blank
      {offset : Nat}
      {c : Char}
      {cs spaced : List Char}
      (hBlank : isBlank c = true)
      (hGap : IsGap tokens offset)
      (hRest : Spaced tokens offset cs spaced) :
      Spaced tokens offset cs (c :: spaced)

namespace Spaced

variable {tokens : List Token}
variable {offset : Nat}
variable {cs spaced : List Char}

/- Up to the first blank a spaced text is the same. -/
theorem exists_break
    (hSpaced : Spaced tokens offset cs spaced) :
    ∃ before behind broken,
      cs = before ++ behind ∧ spaced = before ++ broken ∧
        Stops isPlain broken := by
  induction hSpaced with
  | none offset => exact ⟨[], [], [], rfl, rfl, by simp⟩
  | @keep offset c cs spaced hRest ih =>
      rcases ih with
        ⟨before, behind, broken, rfl, rfl, hBroken⟩
      exact ⟨c :: before, behind, broken, rfl, rfl, hBroken⟩
  | @blank offset c cs spaced hBlank hGap hRest ih =>
      exact
        ⟨[], cs, c :: spaced, rfl, rfl,
          stops_of_cons (isPlain_of_isBlank hBlank)⟩

/- No blanks come in between the characters of a token. -/
theorem of_token
    {token : Token}
    (hToken : token ∈ tokens)
    {part rest : List Char}
    (hStart : token.offset < offset)
    (hFinish : offset + byteLength part = token.finish)
    (hSpaced : Spaced tokens offset (part ++ rest) spaced) :
    ∃ others,
      spaced = part ++ others ∧
        Spaced tokens token.finish rest others := by
  induction part generalizing offset spaced with
  | nil =>
      rw [byteLength, Nat.add_zero] at hFinish
      subst hFinish
      exact ⟨spaced, rfl, hSpaced⟩
  | cons c part ih =>
      have hSize := c.utf8Size_pos
      rw [byteLength] at hFinish
      cases hSpaced with
      | keep hRest =>
          rcases ih (by omega) (by omega) hRest with
            ⟨others, rfl, hOthers⟩
          exact ⟨others, rfl, hOthers⟩
      | blank hBlank hGap hRest =>
          have hInside := hGap token hToken
          omega

/- A token is read the same in a spaced text. -/
theorem lexeme_eq
    {start : Nat}
    {mode : Mode}
    {c : Char}
    {others rest : List Char}
    {kind : TokenKind}
    (hLexeme :
      mode.lexeme c (others ++ rest) =
        (kind, c :: others, rest))
    (hBlank : isBlank c = false)
    (hValid : kind ≠ .invalid)
    (hSpaced : Spaced tokens start rest spaced) :
    mode.lexeme c (others ++ spaced) =
      (kind, c :: others, spaced) := by
  rcases hSpaced.exists_break with
    ⟨before, behind, broken, rfl, rfl, hBroken⟩
  have hShorter :=
    Mode.lexeme_of_append hLexeme hBlank hValid
  rw [← List.append_assoc,
    Mode.lexeme_append_of_stops hBlank mode _ hBroken,
    hShorter]

/-
  A token in front of a spaced text is read as before, and
  what is behind it is spaced as before.
-/
theorem exists_lexeme
    {mode : Mode}
    {c : Char}
    {others rest : List Char}
    {kind : TokenKind}
    (hToken :
      ⟨kind, String.ofList (c :: others), offset⟩ ∈ tokens)
    (hLexeme :
      mode.lexeme c (others ++ rest) =
        (kind, c :: others, rest))
    (hBlank : isBlank c = false)
    (hValid : kind ≠ .invalid)
    (hSpaced :
      Spaced tokens (offset + c.utf8Size) (others ++ rest)
        spaced) :
    ∃ behind,
      spaced = others ++ behind ∧
        Spaced tokens (offset + byteLength (c :: others))
          rest behind ∧
        mode.lexeme c (others ++ behind) =
          (kind, c :: others, behind) := by
  have hSize := c.utf8Size_pos
  have hFinish :
      Token.finish
          ⟨kind, String.ofList (c :: others), offset⟩ =
        offset + byteLength (c :: others) := by
    rw [Token.finish, ← byteLength_toList,
      String.toList_ofList]
  have hStart : offset < offset + c.utf8Size := by
    omega
  have hEnd :
      offset + c.utf8Size + byteLength others =
        offset + byteLength (c :: others) := by
    rw [byteLength, Nat.add_assoc]
  rcases hSpaced.of_token hToken hStart
    (hEnd.trans hFinish.symm) with ⟨behind, hText, hBehind⟩
  refine
    ⟨behind, hText, ?_,
      hBehind.lexeme_eq hLexeme hBlank hValid⟩
  rw [← hFinish]
  exact hBehind

end Spaced

------------------------------------------------------------
-- Scans
------------------------------------------------------------

namespace Scanner

/- No token of a scanner is before it. -/
theorem le_offset_of_tokens
    {scanner : Scanner}
    {found : List Token}
    (hFound : scanner.tokens.1 = .ok found)
    {token : Token}
    (hToken : token ∈ found) :
    scanner.offset ≤ token.offset := by
  rcases run_of_tokens hFound with ⟨last, hRun, _⟩
  rcases at_of_run hRun hToken with ⟨distance, hOffset, _⟩
  omega

/-
  Some tokens of a text at one offset are those of another
  text at another offset, at other places.
-/
def Follows
    (first second : Scanner)
    (found : List Token) : Prop :=
  ∃ place : Nat → Nat,
    second.tokens.1 = .ok (found.map (Token.moved place)) ∧
      place (first.offset + byteLength first.rest) =
        second.offset + byteLength second.rest

/- A blank in front of the first text does not matter. -/
theorem Follows.blank_left
    {c : Char}
    {cs : List Char}
    {offset braces : Nat}
    {mode : Mode}
    {second : Scanner}
    {found : List Token}
    (hFollows :
      Follows ⟨cs, offset + c.utf8Size, mode, braces⟩
        second found) :
    Follows ⟨c :: cs, offset, mode, braces⟩ second
      found := by
  rcases hFollows with ⟨place, hTokens, hStop⟩
  refine ⟨place, hTokens, ?_⟩
  simp only [byteLength, ← Nat.add_assoc]
  exact hStop

/- A blank in front of the second text does not matter. -/
theorem Follows.blank_right
    {c : Char}
    {cs : List Char}
    {offset braces : Nat}
    {mode : Mode}
    {first : Scanner}
    {found : List Token}
    (hBlank : isBlank c = true)
    (hFollows :
      Follows first
        ⟨cs, offset + c.utf8Size, mode, braces⟩ found) :
    Follows first ⟨c :: cs, offset, mode, braces⟩
      found := by
  rcases hFollows with ⟨place, hTokens, hStop⟩
  refine ⟨place, ?_, ?_⟩
  · rw [tokens_of_isBlank hBlank]
    exact hTokens
  · simp only [byteLength, ← Nat.add_assoc]
    exact hStop

/- The token in front of both texts has a place in each. -/
theorem Follows.cons
    {first second next behind : Scanner}
    {token : Token}
    {found : List Token}
    (hFollows : Follows next behind found)
    (hFound : next.tokens.1 = .ok found)
    (hFirst : first.step = .token token next)
    (hSecond :
      second.step =
        .token { token with offset := second.offset }
          behind)
    (hMoved : first.offset < next.offset) :
    Follows first second (token :: found) := by
  rcases hFollows with ⟨place, hTokens, hStop⟩
  rcases token_of_step hFirst with ⟨hRest, hOffset, hNext⟩
  rcases token_of_step hSecond with ⟨hOther, _, hBehind⟩
  -- the place of the first token, and those behind it
  let moved : Nat → Nat :=
    Function.update place first.offset second.offset
  have hLater :
      ∀ other ∈ found,
        Token.moved moved other =
          Token.moved place other := by
    intro other hMember
    have hLe := le_offset_of_tokens hFound hMember
    have hNe : other.offset ≠ first.offset := by
      omega
    simp [Token.moved, moved, Function.update_of_ne hNe]
  refine ⟨moved, ?_, ?_⟩
  · rw [tokens_of_token hSecond, hTokens, List.map_cons,
      List.map_congr_left hLater]
    simp [Except.map, Token.moved, moved, hOffset]
  · have hNe :
        next.offset + byteLength next.rest ≠
          first.offset := by
      omega
    rw [hRest, hOther, byteLength_append,
      byteLength_append, ← Nat.add_assoc, ← Nat.add_assoc,
      ← hNext, ← hBehind, ← hStop]
    exact Function.update_of_ne hNe _ _

/-
  The tokens of a spaced text are the same, at other places.
  The induction is on the spaced text, which is the longer
  one of the two.
-/
theorem follows_of_spaced
    {tokens found : List Token}
    {cs spaced : List Char}
    {offset braces : Nat}
    {mode : Mode}
    (hSpaced : Spaced tokens offset cs spaced)
    (hMember : ∀ token ∈ found, token ∈ tokens)
    (hFound :
      (Scanner.tokens ⟨cs, offset, mode, braces⟩).1 =
        .ok found)
    (start : Nat) :
    Follows ⟨cs, offset, mode, braces⟩
      ⟨spaced, start, mode, braces⟩ found := by
  induction hLength : spaced.length
    using Nat.strongRecOn
      generalizing offset cs spaced mode braces found start with
  | ind length ih =>
      subst hLength
      cases hSpaced with
      | none =>
          rw [tokens_of_done rfl] at hFound
          cases hFound
          refine ⟨fun _ => start, ?_, rfl⟩
          rw [tokens_of_done rfl]
          rfl
      | @blank offset c cs others hBlank hGap hRest =>
          have hNext :=
            ih others.length (by simp) hRest hMember hFound
              (start + c.utf8Size) rfl
          exact hNext.blank_right hBlank
      | @keep offset c rest others hRest =>
          by_cases hBlank : isBlank c = true
          · rw [tokens_of_isBlank hBlank] at hFound
            have hNext :=
              ih others.length (by simp) hRest hMember
                hFound (start + c.utf8Size) rfl
            exact (hNext.blank_right hBlank).blank_left
          · rw [Bool.not_eq_true] at hBlank
            rcases exists_lexeme_of_tokens hBlank hFound with
              ⟨kind, part, rest, later, rfl, hLexeme, hKind,
                rfl, hLater⟩
            rw [List.forall_mem_cons] at hMember
            have hValid : kind ≠ .invalid := by
              intro hSame
              simp [hSame] at hKind
            rcases hRest.exists_lexeme hMember.1 hLexeme
              hBlank hValid with
              ⟨behind, rfl, hBehind, hSame⟩
            have hShort :
                behind.length <
                  (c :: (part ++ behind)).length := by
              simp only [List.length_cons,
                List.length_append]
              omega
            have hNext :=
              ih behind.length hShort hBehind hMember.2
                hLater (start + byteLength (c :: part)) rfl
            refine
              hNext.cons hLater
                (step_of_lexeme hLexeme hKind offset braces)
                (step_of_lexeme hSame hKind start braces) ?_
            have hSize := c.utf8Size_pos
            simp only [byteLength]
            omega

end Scanner

------------------------------------------------------------
-- Notations
------------------------------------------------------------

namespace Grammar

/- What is read of moved tokens is the same, moved. -/
theorem parseTokens_moved
    {source spaced : String}
    {place : Nat → Nat}
    (hStop :
      place source.utf8ByteSize = spaced.utf8ByteSize)
    (tokens : List Token) :
    (parseTokens spaced
        (tokens.map (Token.moved place))).result =
      (parseTokens source tokens).result.mapError
        (Failure.moved place) := by
  have hMoves :
      Reader.Moves place id (record Record.maxDepth)
        (record Record.maxDepth) :=
    moves_record Record.maxDepth
  have hOutcome := hMoves source.utf8ByteSize tokens
  rw [hStop] at hOutcome
  rw [parseTokens, hOutcome]
  exact Outcome.result_moved place _

/-
  More blanks before, between and behind the tokens of a
  source move the tokens. The record is the same, and so is
  the cause of a failure, which moves along with its token
  or with the end of the source.
-/
theorem parse_eq_of_spaced
    {source spaced : String}
    {tokens : List Token}
    (hTokens : tokenize source = .ok tokens)
    (hSpaced :
      Spaced tokens 0 source.toList spaced.toList) :
    ∃ others,
      tokenize spaced = .ok others ∧
        (others.map fun token => (token.kind, token.text)) =
          (tokens.map fun token =>
            (token.kind, token.text)) ∧
        (∀ record,
          parse source = .ok record →
            parse spaced = .ok record) ∧
        ∀ failure,
          parse source = .error failure →
            ∃ other,
              parse spaced = .error other ∧
                other.cause = failure.cause ∧
                (failure.offset, other.offset) ∈
                  (marks source.utf8ByteSize tokens).zip
                    (marks spaced.utf8ByteSize others) := by
  rcases Scanner.follows_of_spaced hSpaced (fun _ => id)
    hTokens 0 with ⟨place, hOthers, hStop⟩
  simp only [Nat.zero_add, byteLength_toList] at hStop
  have hResult := parseTokens_moved hStop tokens
  have hParse :
      parse source = (parseTokens source tokens).result := by
    rw [parse, hTokens]
    rfl
  have hSpacedParse :
      parse spaced =
        (parseTokens source tokens).result.mapError
          (Failure.moved place) := by
    rw [← hResult, parse, tokenize, Scanner.ofSource, hOthers]
    rfl
  refine ⟨tokens.map (Token.moved place), hOthers, ?_, ?_, ?_⟩
  · simp [Function.comp_def]
  · intro record hRecord
    rw [hSpacedParse, ← hParse, hRecord]
    rfl
  · intro failure hFailure
    refine ⟨failure.moved place, ?_, rfl, ?_⟩
    · rw [hSpacedParse, ← hParse, hFailure]
      rfl
    · have hMark :=
        offset_mem_marks_of_parseTokens
          (hParse.symm.trans hFailure)
      rw [← hStop, marks_moved, ← List.map_prod_left_eq_zip]
      exact List.mem_map.mpr ⟨failure.offset, hMark, rfl⟩

/- Blanks around a notation without its subject. -/
theorem parse_spaced_unfinished :
    ∃ others other,
      tokenize " P\u3000+ " = .ok others ∧
        (others.map fun token => (token.kind, token.text)) =
          [(.target, "P"), (.effectMarker, "+")] ∧
        parse " P\u3000+ " = .error other ∧
        other.cause = .expected .subject none ∧
        (2, other.offset) ∈
          [0, 1, 2].zip (marks 7 others) := by
  have hTokens :
      tokenize "P+" =
        .ok
          [⟨.target, "P", 0⟩, ⟨.effectMarker, "+", 1⟩] := by
    decide +kernel
  have hSpaced :
      Spaced [⟨.target, "P", 0⟩, ⟨.effectMarker, "+", 1⟩] 0
        "P+".toList " P\u3000+ ".toList := by
    refine .blank (by decide) (by simp [IsGap]) ?_
    refine .keep (.blank (by decide) ?_ ?_)
    · simp [IsGap, Token.finish]
      decide
    · refine .keep (.blank (by decide) ?_ (.none _))
      simp [IsGap, Token.finish]
      decide
  rcases parse_eq_of_spaced hTokens hSpaced with
    ⟨others, hOthers, hSame, _, hFailure⟩
  rcases hFailure ⟨.expected .subject none, 2⟩
      (by decide +kernel) with
    ⟨other, hParse, hCause, hPlace⟩
  exact ⟨others, other, hOthers, hSame, hParse, hCause, hPlace⟩

end Grammar

end StatusEffect
