import Mathlib.Control.Monad.Basic
import Mathlib.Data.List.Pairwise
import Mathlib.Logic.ExistsUnique
import Mathlib.Tactic.ByContra
import StatusEffect.Proofs.Grammar.Places
import StatusEffect.Proofs.Token.Break

/-
  Tokens tile their source.

  A scan drops blanks and nothing else. Each step of it either
  skips a blank or puts the characters of a token where the
  last token or blank ended, so the tokens of a source are its
  other characters, in their order and each of them once.

  Key definitions include:
    * `Token.Solid`
    * `Token.Covers`
    * `Tiles`

  Key theorems include:
    * `Scanner.tiles_of_tokens`
    * `Tiles.pairwise`
    * `Tiles.exists_covers_iff`
    * `tokens_tile_source`
-/

------------------------------------------------------------
-- Tiled Texts
------------------------------------------------------------

namespace StatusEffect

open Text

namespace Token

/- A token of a valid kind has text, and no blank in it. -/
structure Solid (token : Token) : Prop where
  kind : token.kind ∉ [.whitespace, .invalid]
  text : token.text.toList ≠ []
  solid : ∀ c ∈ token.text.toList, isBlank c = false

/- A place of a source is within a token. -/
def Covers
    (token : Token)
    (place : Nat) : Prop :=
  token.offset ≤ place ∧ place < token.finish

/- One of two tokens ends before the other one starts. -/
def Apart (first second : Token) : Prop :=
  first.finish ≤ second.offset ∨
    second.finish ≤ first.offset

instance : Std.Symm Apart :=
  ⟨fun _ _ hApart => hApart.symm⟩

/- A token ends as many bytes behind its start as it has. -/
theorem finish_eq
    (token : Token) :
    token.finish =
      token.offset + byteLength token.text.toList := by
  rw [byteLength_toList]
  rfl

end Token

/-
  A text from an offset on consists of tokens, each at its
  offset, and of blanks in front of, between and behind them.
-/
inductive Tiles : Nat → List Char → List Token → Prop where
  | blanks
      {offset : Nat}
      {blanks : List Char}
      (hBlanks : blanks.all isBlank = true) :
      Tiles offset blanks []
  | token
      {offset : Nat}
      {blanks rest : List Char}
      {token : Token}
      {tokens : List Token}
      (hBlanks : blanks.all isBlank = true)
      (hOffset : token.offset = offset + byteLength blanks)
      (hSolid : token.Solid)
      (hRest : Tiles token.finish rest tokens) :
      Tiles offset (blanks ++ (token.text.toList ++ rest))
        (token :: tokens)

/- A blank in front of a tiled text leaves it tiled. -/
theorem Tiles.cons_blank
    {offset : Nat}
    {c : Char}
    {cs : List Char}
    {tokens : List Token}
    (hBlank : isBlank c = true)
    (hTiles : Tiles (offset + c.utf8Size) cs tokens) :
    Tiles offset (c :: cs) tokens := by
  cases hTiles with
  | blanks hBlanks =>
      apply Tiles.blanks
      rw [List.all_cons, hBlank, hBlanks]
      rfl
  | @token _ blanks rest token tokens hBlanks hOffset hSolid
      hRest =>
      rw [← List.cons_append]
      refine .token ?_ ?_ hSolid hRest
      · rw [List.all_cons, hBlank, hBlanks]
        rfl
      · rw [hOffset, byteLength, Nat.add_assoc]

/- A token in front of a tiled text leaves it tiled. -/
theorem Tiles.cons_token
    {token : Token}
    {part rest : List Char}
    {tokens : List Token}
    (hTiles :
      Tiles (token.offset + byteLength part) rest tokens)
    (hSolid : token.Solid)
    (hPart : token.text.toList = part) :
    Tiles token.offset (part ++ rest) (token :: tokens) := by
  subst hPart
  rw [← token.finish_eq] at hTiles
  rw [← List.nil_append (token.text.toList ++ rest)]
  exact .token rfl rfl hSolid hTiles

/- A lexeme that starts with no blank is a solid token. -/
theorem Mode.solid_of_lexeme
    {mode : Mode}
    {c : Char}
    {others rest : List Char}
    {kind : TokenKind}
    (hLexeme :
      mode.lexeme c (others ++ rest) =
        (kind, c :: others, rest))
    (hKind : kind ∉ [.whitespace, .invalid])
    (hBlank : isBlank c = false)
    (offset : Nat) :
    Token.Solid
      ⟨kind, String.ofList (c :: others), offset⟩ := by
  rcases all_isPlain_of_lexeme hLexeme hKind with
    ⟨plain, hText, _, hPlain⟩
  rw [List.cons.injEq] at hText
  rcases hText with ⟨_, rfl⟩
  refine ⟨hKind, ?_, ?_⟩
  · simp
  · intro d hMember
    rw [String.toList_ofList, List.mem_cons] at hMember
    rcases hMember with rfl | hMember
    · exact hBlank
    · rw [Bool.eq_false_iff]
      intro hOther
      have hNot := isPlain_of_isBlank hOther
      rw [List.all_eq_true.mp hPlain d hMember] at hNot
      cases hNot

/-
  The tokens that a scanner still gives tile what is left of
  its source.
-/
theorem Scanner.tiles_of_tokens
    {scanner : Scanner}
    {found : List Token}
    (hFound : scanner.tokens.1 = .ok found) :
    Tiles scanner.offset scanner.rest found := by
  induction hLength : scanner.rest.length
    using Nat.strongRecOn generalizing scanner found with
  | ind length ih =>
      subst hLength
      rcases scanner with ⟨_ | ⟨c, cs⟩, offset, mode, braces⟩
      · rw [tokens_of_done rfl] at hFound
        cases hFound
        exact .blanks rfl
      · by_cases hBlank : isBlank c = true
        · rw [tokens_of_isBlank hBlank] at hFound
          have hShort : cs.length < (c :: cs).length := by
            simp
          exact (ih _ hShort hFound rfl).cons_blank hBlank
        · rw [Bool.not_eq_true] at hBlank
          rcases exists_lexeme_of_tokens hBlank hFound with
            ⟨kind, others, rest, later, rfl, hLexeme, hKind,
              rfl, hLater⟩
          have hShort :
              rest.length <
                (c :: (others ++ rest)).length := by
            simp only [List.length_cons, List.length_append]
            omega
          have hSolid :=
            Mode.solid_of_lexeme hLexeme hKind hBlank offset
          have hRest := ih _ hShort hLater rfl
          exact hRest.cons_token hSolid String.toList_ofList

------------------------------------------------------------
-- Places Of Tokens
------------------------------------------------------------

/- A solid token ends behind its start. -/
theorem Token.Solid.offset_lt_finish
    {token : Token}
    (hSolid : token.Solid) :
    token.offset < token.finish := by
  rw [token.finish_eq]
  cases hText : token.text.toList with
  | nil => exact absurd hText hSolid.text
  | cons c cs =>
      have hSize := c.utf8Size_pos
      rw [byteLength]
      omega

/- A character of a joined text is in one of the two parts. -/
theorem Text.mem_part_of_append
    {first second before behind : List Char}
    {c : Char}
    (hText : first ++ second = before ++ c :: behind) :
    (∃ other, first = before ++ c :: other) ∨
      ∃ other,
        before = first ++ other ∧
          second = other ++ c :: behind := by
  rcases List.append_eq_append_iff.mp hText with
    ⟨other, hBefore, hSecond⟩ | ⟨other, hFirst, hSecond⟩
  · exact .inr ⟨other, hBefore, hSecond⟩
  · cases other with
    | nil =>
        right
        refine ⟨[], ?_, hSecond.symm⟩
        rw [hFirst, List.append_nil, List.append_nil]
    | cons d other =>
        rw [List.cons_append, List.cons.injEq] at hSecond
        left
        exact ⟨other, by rw [hFirst, hSecond.1]⟩

namespace Tiles

variable {offset : Nat}
variable {cs : List Char}
variable {tokens : List Token}

/- All tokens of a tiled text are solid. -/
theorem solid_of_mem
    (hTiles : Tiles offset cs tokens)
    {token : Token}
    (hToken : token ∈ tokens) :
    token.Solid := by
  induction hTiles with
  | blanks hBlanks => cases hToken
  | token hBlanks hOffset hSolid hRest ih =>
      rcases List.mem_cons.mp hToken with rfl | hToken
      · exact hSolid
      · exact ih hToken

/- No token of a tiled text is in front of it. -/
theorem le_offset_of_mem
    (hTiles : Tiles offset cs tokens)
    {token : Token}
    (hToken : token ∈ tokens) :
    offset ≤ token.offset := by
  induction hTiles with
  | blanks hBlanks => cases hToken
  | @token offset blanks rest first tokens hBlanks hOffset
      hSolid hRest ih =>
      rcases List.mem_cons.mp hToken with rfl | hToken
      · omega
      · have hLater := ih hToken
        have hFinish := first.finish_eq
        omega

/- Each token of a tiled text ends before the next starts. -/
theorem pairwise
    (hTiles : Tiles offset cs tokens) :
    tokens.Pairwise fun first second =>
      first.finish ≤ second.offset := by
  induction hTiles with
  | blanks hBlanks => exact .nil
  | token hBlanks hOffset hSolid hRest ih =>
      refine .cons ?_ ih
      intro later hLater
      exact hRest.le_offset_of_mem hLater

/- No place of a tiled text is within two of its tokens. -/
theorem eq_of_covers
    (hTiles : Tiles offset cs tokens)
    {first second : Token}
    (hFirst : first ∈ tokens)
    (hSecond : second ∈ tokens)
    {place : Nat}
    (hCovers : first.Covers place)
    (hOther : second.Covers place) :
    first = second := by
  have hApart : tokens.Pairwise Token.Apart :=
    hTiles.pairwise.imp Or.inl
  by_contra hNe
  rcases hApart.forall hFirst hSecond hNe with
    hOrder | hOrder
  · have hEnd := hCovers.2
    have hStart := hOther.1
    omega
  · have hEnd := hOther.2
    have hStart := hCovers.1
    omega

/- A token of a tiled text is in it where its offset says. -/
theorem at_of_mem
    (hTiles : Tiles offset cs tokens)
    {token : Token}
    (hToken : token ∈ tokens) :
    ∃ before behind,
      cs = before ++ (token.text.toList ++ behind) ∧
        offset + byteLength before = token.offset := by
  induction hTiles with
  | blanks hBlanks => cases hToken
  | @token offset blanks rest first tokens hBlanks hOffset
      hSolid hRest ih =>
      rcases List.mem_cons.mp hToken with rfl | hToken
      · exact ⟨blanks, rest, rfl, hOffset.symm⟩
      · rcases ih hToken with ⟨before, behind, rfl, hPlace⟩
        refine
          ⟨blanks ++ (first.text.toList ++ before), behind,
            ?_, ?_⟩
        · simp only [List.append_assoc]
        · have hFinish := first.finish_eq
          rw [byteLength_append, byteLength_append]
          omega

/-
  A character of a tiled text is within one of the tokens
  exactly if it is no blank.
-/
theorem exists_covers_iff
    (hTiles : Tiles offset cs tokens)
    {before behind : List Char}
    {c : Char}
    (hText : cs = before ++ c :: behind) :
    (∃ token ∈ tokens,
        token.Covers (offset + byteLength before)) ↔
      isBlank c = false := by
  induction hTiles generalizing before with
  | @blanks offset blanks hBlanks =>
      have hBlank : isBlank c = true := by
        apply List.all_eq_true.mp hBlanks
        simp [hText]
      simp [hBlank]
  | @token offset blanks rest first tokens hBlanks hOffset
      hSolid hRest ih =>
      have hFinish := first.finish_eq
      rcases mem_part_of_append hText with
        ⟨other, rfl⟩ | ⟨between, rfl, hOthers⟩
      · -- the character is in front of the first token
        have hBlank : isBlank c = true := by
          apply List.all_eq_true.mp hBlanks
          simp
        have hSize := c.utf8Size_pos
        have hNone :
            ∀ token ∈ first :: tokens,
              ¬ token.Covers (offset + byteLength before) := by
          intro token hToken hCovers
          have hStart : first.offset ≤ token.offset := by
            rcases List.mem_cons.mp hToken with rfl | hToken
            · exact Nat.le_refl _
            · have hLater := hRest.le_offset_of_mem hToken
              omega
          rw [byteLength_append, byteLength] at hOffset
          have hPlace := hCovers.1
          omega
        simpa [hBlank] using hNone
      · rcases mem_part_of_append hOthers with
          ⟨other, hPart⟩ | ⟨last, rfl, rfl⟩
        · -- the character is one of the first token
          have hBlank : isBlank c = false := by
            apply hSolid.solid
            simp [hPart]
          have hSize := c.utf8Size_pos
          refine iff_of_true ?_ hBlank
          refine ⟨first, List.mem_cons_self, ?_, ?_⟩
          · rw [byteLength_append]
            omega
          · rw [hFinish, hPart, byteLength_append,
              byteLength_append, byteLength]
            omega
        · -- the character is behind the first token
          have hPlace :
              offset +
                  byteLength
                    (blanks ++ (first.text.toList ++ last)) =
                first.finish + byteLength last := by
            rw [byteLength_append, byteLength_append]
            omega
          rw [hPlace, ← ih rfl]
          have hFirst :
              ¬ first.Covers
                (first.finish + byteLength last) := by
            intro hCovers
            have hBound := hCovers.2
            omega
          simp [hFirst]

end Tiles

------------------------------------------------------------
-- Sources
------------------------------------------------------------

/-
  The tokens of a source have texts, are of valid kinds and
  stand in the source, in their order, each from its offset
  to its end. Around them there are only blanks. Every other
  character of the source is in one token and in no second
  one, so none is dropped or read twice.
-/
theorem tokens_tile_source
    {source : String}
    {tokens : List Token}
    (hTokens : tokenize source = .ok tokens) :
    Tiles 0 source.toList tokens ∧
      (∀ token ∈ tokens,
        token.text ≠ "" ∧
          token.kind ≠ .whitespace ∧
          token.kind ≠ .invalid ∧
          ∃ before behind,
            source.toList =
                before ++ (token.text.toList ++ behind) ∧
              byteLength before = token.offset ∧
              byteLength (before ++ token.text.toList) =
                token.finish) ∧
      (tokens.Pairwise fun first second =>
        first.offset < second.offset ∧
          first.finish ≤ second.offset) ∧
      ∀ before c behind,
        source.toList = before ++ c :: behind →
          (isBlank c = true →
            ∀ token ∈ tokens,
              ¬ token.Covers (byteLength before)) ∧
          (isBlank c = false →
            ∃! token,
              token ∈ tokens ∧
                token.Covers (byteLength before)) := by
  have hTiles : Tiles 0 source.toList tokens :=
    Scanner.tiles_of_tokens hTokens
  have hPairwise := hTiles.pairwise
  refine ⟨hTiles, ?_, ?_, ?_⟩
  · intro token hToken
    have hSolid := hTiles.solid_of_mem hToken
    have hKind := hSolid.kind
    simp only [List.mem_cons, List.not_mem_nil, or_false,
      not_or] at hKind
    refine ⟨?_, hKind.1, hKind.2, ?_⟩
    · intro hEmpty
      apply hSolid.text
      rw [hEmpty]
      rfl
    · rcases hTiles.at_of_mem hToken with
        ⟨before, behind, hSource, hOffset⟩
      rw [Nat.zero_add] at hOffset
      refine ⟨before, behind, hSource, hOffset, ?_⟩
      rw [byteLength_append, hOffset, token.finish_eq]
  · refine hPairwise.imp_of_mem ?_
    intro first second hFirst _ hOrder
    have hSolid := hTiles.solid_of_mem hFirst
    have hStart := hSolid.offset_lt_finish
    exact ⟨by omega, hOrder⟩
  · intro before c behind hSource
    have hCovers := hTiles.exists_covers_iff hSource
    rw [Nat.zero_add] at hCovers
    constructor
    · intro hBlank token hToken hCovered
      have hSolid := hCovers.mp ⟨token, hToken, hCovered⟩
      rw [hBlank] at hSolid
      cases hSolid
    · intro hBlank
      rcases hCovers.mpr hBlank with
        ⟨token, hToken, hCovered⟩
      refine ⟨token, ⟨hToken, hCovered⟩, ?_⟩
      rintro other ⟨hOther, hOtherCovered⟩
      exact
        hTiles.eq_of_covers hOther hToken hOtherCovered
          hCovered

/- Blanks of any script around the tokens of a notation. -/
theorem tokens_tile_source_blanks :
    Tiles 0 " P+\u3000Ste 5".toList
      [⟨.target, "P", 1⟩, ⟨.effectMarker, "+", 2⟩,
       ⟨.specialCondition, "Ste", 6⟩, ⟨.number, "5", 10⟩] := by
  have hTokens :
      tokenize " P+\u3000Ste 5" =
        .ok
          [⟨.target, "P", 1⟩, ⟨.effectMarker, "+", 2⟩,
           ⟨.specialCondition, "Ste", 6⟩,
           ⟨.number, "5", 10⟩] := by
    decide +kernel
  exact (tokens_tile_source hTokens).1

end StatusEffect
