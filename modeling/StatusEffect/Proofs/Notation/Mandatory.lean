import StatusEffect.Proofs.Grammar.Reading
import StatusEffect.Proofs.Grammar.Within
import StatusEffect.Proofs.Notation.Spacing
import StatusEffect.Proofs.Token.Lexeme
import StatusEffect.Proofs.Vocabulary.Lawful

/-
  The mandatory clauses, on characters.

  A notation has to start with a target, an effect marker and
  a subject, with any blanks in between. Which characters can
  start them can be told without a scan. At the first place
  where the right ones are missing the notation is rejected,
  and with all three in place any failure is behind them.

  Key definitions include:
    * `Text.startsWith`
    * `Text.opensSubject`
    * `Text.placeOf`
    * `Remains`
    * `SpelledWith`

  Key theorems include:
    * `Remains.exists_lexeme`
    * `SpelledWith.eq_none_of_remains`
    * `Grammar.stuckHere_subject`
    * `Grammar.mandatory_of_characters`
-/

------------------------------------------------------------
-- Characters Of The Mandatory Clauses
------------------------------------------------------------

namespace StatusEffect

open Text

namespace Text

/- A text from its first character on that is no blank. -/
def skipBlanks (cs : List Char) : List Char :=
  cs.dropWhile isBlank

/- The byte offset where a text at the end of a source starts. -/
def placeOf
    (source : String)
    (ending : List Char) : Nat :=
  source.utf8ByteSize - byteLength ending

/- The letters of the targets. -/
def targetLetters : List Char :=
  ['P', 'E', 'A', 'X', 'G']

/- The signs of the effect markers. -/
def changeSigns : List Char :=
  ['+', '-', '=', '*', '!', '#']

/- The letters of the stats. -/
def statLetters : List Char :=
  ['S', 'D', 'E', 'L', 'G', 'H', 'M', 'I', 'C', 'R']

/- The first character of a text is one of some. -/
def startsWith
    (letters cs : List Char) : Bool :=
  cs.head?.any (oneOf letters)

/- A hash word, a capital word or a stat starts a text. -/
def opensSubject : List Char → Bool
  | [] => false
  | c :: cs =>
      (c == '#' && cs.head?.any isLetter) ||
        (isUpper c && startsSmall cs) ||
        oneOf statLetters c

/- A source from where its target is due. -/
def atTarget (source : String) : List Char :=
  skipBlanks source.toList

/- A source from where its effect marker is due. -/
def atChange (source : String) : List Char :=
  skipBlanks (atTarget source).tail

/- A source from where its subject is due. -/
def atSubject (source : String) : List Char :=
  skipBlanks (atChange source).tail

end Text

------------------------------------------------------------
-- Scans Of The End Of A Source
------------------------------------------------------------

/-
  A text is left of a source, and the scan of the source goes
  on with some tokens.
-/
structure Remains
    (source : String)
    (found : List Token)
    (ending : List Char)
    (mode : Mode)
    (braces : Nat) : Prop where
  size : byteLength ending ≤ source.utf8ByteSize
  tokens :
    (Scanner.tokens
        ⟨ending, placeOf source ending, mode, braces⟩).1 =
      .ok found

/- At first all of a source is left. -/
theorem remains_of_tokenize
    {source : String}
    {tokens : List Token}
    (hTokens : tokenize source = .ok tokens) :
    Remains source tokens source.toList .target 0 := by
  have hSize := byteLength_toList source
  refine ⟨by omega, ?_⟩
  rw [placeOf, hSize, Nat.sub_self]
  exact hTokens

namespace Remains

variable {source : String}
variable {found : List Token}
variable {ending : List Char}
variable {mode : Mode}
variable {braces : Nat}

/- A scan goes on behind the blanks that it is in front of. -/
theorem skip
    (hRemains : Remains source found ending mode braces) :
    Remains source found (skipBlanks ending) mode braces := by
  have hParts :=
    byteLength_append (ending.takeWhile isBlank)
      (skipBlanks ending)
  rw [skipBlanks, List.takeWhile_append_dropWhile,
    ← skipBlanks] at hParts
  have hSize := hRemains.size
  have hPlace :
      placeOf source ending +
          byteLength (ending.takeWhile isBlank) =
        placeOf source (skipBlanks ending) := by
    unfold placeOf
    omega
  refine ⟨by omega, ?_⟩
  rw [← hPlace, skipBlanks, ← Scanner.tokens_eq_dropWhile]
  exact hRemains.tokens

/- There are no tokens in blanks. -/
theorem eq_nil
    (hRemains : Remains source found ending mode braces)
    (hEnding : skipBlanks ending = []) :
    found = [] := by
  have hTokens := hRemains.skip.tokens
  rw [hEnding, Scanner.tokens_of_done rfl] at hTokens
  cases hTokens
  rfl

/- The next token starts at the next character. -/
theorem exists_lexeme
    (hRemains : Remains source found ending mode braces)
    {c : Char}
    {cs : List Char}
    (hEnding : skipBlanks ending = c :: cs) :
    ∃ kind others rest later,
      cs = others ++ rest ∧
        mode.lexeme c cs = (kind, c :: others, rest) ∧
        kind ≠ .invalid ∧
        found =
          ⟨kind, String.ofList (c :: others),
            placeOf source (c :: cs)⟩ :: later ∧
        Remains source later rest (mode.after braces kind)
          (Mode.bracesAfter braces kind) := by
  have hBlank : isBlank c = false := by
    apply stops_dropWhile isBlank ending
    rw [← skipBlanks, hEnding]
    rfl
  have hSkip := hRemains.skip
  rw [hEnding] at hSkip
  rcases Scanner.exists_lexeme_of_tokens hBlank
      hSkip.tokens with
    ⟨kind, others, rest, later, rfl, hLexeme, hKind, hToken,
      hLater⟩
  have hSize := hSkip.size
  rw [← List.cons_append, byteLength_append] at hSize
  have hPlace :
      placeOf source (c :: (others ++ rest)) +
          byteLength (c :: others) =
        placeOf source rest := by
    unfold placeOf
    rw [← List.cons_append, byteLength_append]
    omega
  rw [hPlace] at hLater
  refine
    ⟨kind, others, rest, later, rfl, hLexeme, ?_, hToken,
      ⟨by omega, hLater⟩⟩
  rintro rfl
  exact hKind (by decide)

/- The next token starts at the next character that is left. -/
theorem here_eq
    (hRemains : Remains source found ending mode braces) :
    Reader.here source.utf8ByteSize found =
      placeOf source (skipBlanks ending) := by
  cases hEnding : skipBlanks ending with
  | nil =>
      rw [hRemains.eq_nil hEnding]
      rfl
  | cons c cs =>
      rcases hRemains.exists_lexeme hEnding with
        ⟨kind, others, rest, later, _, _, _, rfl, _⟩
      rfl

/- No mark of what remains is in front of what is left. -/
theorem le_of_mem_marks
    (hRemains : Remains source found ending mode braces)
    {offset : Nat}
    (hOffset :
      offset ∈ marks source.utf8ByteSize found) :
    placeOf source ending ≤ offset := by
  rcases List.mem_append.mp hOffset with hToken | hStop
  · rcases List.mem_map.mp hToken with ⟨token, hMember, rfl⟩
    exact
      Scanner.le_offset_of_tokens hRemains.tokens hMember
  · rw [List.mem_singleton.mp hStop]
    exact Nat.sub_le _ _

end Remains

------------------------------------------------------------
-- Clauses Of One Letter
------------------------------------------------------------

/- The codes of a vocabulary are some letters. -/
def SpelledWith
    (α : Type)
    [Vocabulary α]
    (letters : List Char) : Prop :=
  Vocabulary.codes α =
    letters.map fun c => String.ofList [c]

/- The letters of the targets spell all targets. -/
theorem spelledWith_target :
    SpelledWith Target targetLetters := rfl

/- The signs of the effect markers spell all changes. -/
theorem spelledWith_change :
    SpelledWith Change changeSigns := rfl

/- The letters of the stats spell all stats. -/
theorem spelledWith_stat :
    SpelledWith Stat statLetters := rfl

namespace SpelledWith

variable {α : Type} [Vocabulary α]
variable {letters : List Char}

/- A letter of a vocabulary is one of its words. -/
theorem exists_word
    (hSpelled : SpelledWith α letters)
    {c : Char}
    (hLetter : oneOf letters c = true) :
    ∃ word : α,
      Vocabulary.ofCode? (String.ofList [c]) = some word := by
  rw [oneOf, List.contains_iff_mem] at hLetter
  rw [← Option.isSome_iff_exists, Option.isSome_iff_ne_none]
  intro hNone
  rw [Vocabulary.ofCode?_eq_none_iff, hSpelled] at hNone
  exact hNone (List.mem_map_of_mem hLetter)

/-
  The next token is no word of a vocabulary where none of the
  letters is next.
-/
theorem eq_none_of_remains
    (hSpelled : SpelledWith α letters)
    {source : String}
    {found : List Token}
    {ending : List Char}
    {mode : Mode}
    {braces : Nat}
    (hRemains : Remains source found ending mode braces)
    (hStart :
      startsWith letters (skipBlanks ending) = false) :
    ∀ token ∈ found.head?,
      (Vocabulary.ofCode? token.text : Option α) = none := by
  intro token hToken
  cases hEnding : skipBlanks ending with
  | nil =>
      rw [hRemains.eq_nil hEnding] at hToken
      cases hToken
  | cons c cs =>
      rcases hRemains.exists_lexeme hEnding with
        ⟨kind, others, rest, later, _, _, _, rfl, _⟩
      cases hToken
      rw [Vocabulary.ofCode?_eq_none_iff, hSpelled]
      intro hCode
      rcases List.mem_map.mp hCode with
        ⟨letter, hLetter, hText⟩
      rw [String.ofList_inj] at hText
      cases hText
      rw [hEnding] at hStart
      rw [← List.contains_iff_mem] at hLetter
      exact absurd hLetter (Bool.eq_false_iff.mp hStart)

end SpelledWith

/- The first rule of a mode reads the letters it is for. -/
theorem Mode.lexeme_of_oneOf
    {mode : Mode}
    {kind : TokenKind}
    {letters : List Char}
    {behind : List Rule}
    (hRules :
      mode.rules =
        ⟨kind, [Shape.one (oneOf letters)]⟩ :: behind)
    {c : Char}
    (hLetter : oneOf letters c = true)
    (cs : List Char) :
    mode.lexeme c cs = (kind, [c], cs) := by
  apply lexeme_of_rules [] behind hRules rfl
  simp [Rule.match?, Shape.one, Shape.match?,
    Shape.takeFixed?, hLetter]

/-
  A letter that the first rule of a mode is for is the next
  token, and the scan goes on right behind it.
-/
theorem Remains.exists_letter
    {source : String}
    {found : List Token}
    {ending : List Char}
    {mode : Mode}
    {braces : Nat}
    (hRemains : Remains source found ending mode braces)
    {kind : TokenKind}
    {letters : List Char}
    {behind : List Rule}
    (hRules :
      mode.rules =
        ⟨kind, [Shape.one (oneOf letters)]⟩ :: behind)
    (hStart :
      startsWith letters (skipBlanks ending) = true) :
    ∃ c offset later,
      oneOf letters c = true ∧
        found =
          ⟨kind, String.ofList [c], offset⟩ :: later ∧
        Remains source later (skipBlanks ending).tail
          (mode.after braces kind)
          (Mode.bracesAfter braces kind) := by
  cases hEnding : skipBlanks ending with
  | nil =>
      rw [hEnding] at hStart
      cases hStart
  | cons c cs =>
      rw [hEnding] at hStart
      have hLetter : oneOf letters c = true := hStart
      rcases hRemains.exists_lexeme hEnding with
        ⟨found, others, rest, later, hText, hLexeme, _,
          hToken, hLater⟩
      rw [Mode.lexeme_of_oneOf hRules hLetter] at hLexeme
      cases hLexeme
      exact ⟨c, _, later, hLetter, hToken, hLater⟩

namespace Grammar

open Reader

/- A reader is stuck at the next token. -/
def StuckHere
    {α : Type}
    (reader : Reader α)
    (stop : Nat)
    (tokens : List Token) : Prop :=
  ∃ failure left,
    reader stop tokens = .stuck failure left ∧
      failure.offset = here stop tokens

/- A target is missing where the next token is none. -/
theorem stuckHere_target
    {tokens : List Token}
    (hCode :
      ∀ token ∈ tokens.head?,
        (Vocabulary.ofCode? token.text : Option Target) =
          none)
    (stop : Nat) :
    StuckHere target stop tokens := by
  cases tokens with
  | nil => exact ⟨_, _, rfl, rfl⟩
  | cons token rest =>
      have hNone := hCode token rfl
      by_cases hKind :
          token.kind = .target ∨ token.kind = .identifier
      · simp only [StuckHere, target, hKind, if_true, hNone]
        exact ⟨_, _, rfl, rfl⟩
      · simp only [StuckHere, target, hKind, if_false]
        exact ⟨_, _, rfl, rfl⟩

/- An effect marker is missing where the next token is none. -/
theorem stuckHere_change
    {tokens : List Token}
    (hCode :
      ∀ token ∈ tokens.head?,
        (Vocabulary.ofCode? token.text : Option Change) =
          none)
    (stop : Nat) :
    StuckHere change stop tokens := by
  cases tokens with
  | nil => exact ⟨_, _, rfl, rfl⟩
  | cons token rest =>
      have hNone := hCode token rfl
      by_cases hKind : token.kind = .effectMarker
      · simp only [StuckHere, change, bind_apply, expect,
          hKind, if_true, word, hNone]
        exact ⟨_, _, rfl, rfl⟩
      · simp only [StuckHere, change, bind_apply, expect,
          hKind, if_false]
        exact ⟨_, _, rfl, rfl⟩

/-
  A subject is missing where the next token is no stat and no
  special condition.
-/
theorem stuckHere_subject
    {tokens : List Token}
    (hKind :
      ∀ token ∈ tokens.head?,
        token.kind ≠ .specialCondition)
    (hCode :
      ∀ token ∈ tokens.head?,
        (Vocabulary.ofCode? token.text : Option Stat) =
          none)
    (stop : Nat) :
    StuckHere subject stop tokens := by
  cases tokens with
  | nil => exact ⟨_, _, rfl, rfl⟩
  | cons token rest =>
      have hNone := hCode token rfl
      have hOther := hKind token rfl
      simp only [StuckHere, subject, hNone]
      split
      · exact ⟨_, _, rfl, rfl⟩
      · contradiction
      · exact ⟨_, _, rfl, rfl⟩

end Grammar

------------------------------------------------------------
-- The Three Clauses
------------------------------------------------------------

namespace Remains

variable {source : String}
variable {found : List Token}
variable {ending : List Char}
variable {braces : Nat}

/- Where a target starts, the scan goes on behind it. -/
theorem exists_target
    (hRemains : Remains source found ending .target braces)
    (hStart :
      startsWith targetLetters (skipBlanks ending) = true)
    (stop : Nat) :
    ∃ value later,
      Grammar.target stop found = .read value later ∧
        Remains source later (skipBlanks ending).tail .effect
          braces := by
  rcases hRemains.exists_letter rfl hStart with
    ⟨c, offset, later, hLetter, rfl, hLater⟩
  rcases spelledWith_target.exists_word hLetter with
    ⟨value, hValue⟩
  refine ⟨value, later, ?_, hLater⟩
  exact
    Grammar.target_of_spells (.code (.inl rfl) hValue) stop
      later

/- Where an effect marker starts, the scan goes on behind it. -/
theorem exists_change
    (hRemains : Remains source found ending .effect braces)
    (hStart :
      startsWith changeSigns (skipBlanks ending) = true)
    (stop : Nat) :
    ∃ value later,
      Grammar.change stop found = .read value later ∧
        Remains source later (skipBlanks ending).tail .subject
          braces := by
  rcases hRemains.exists_letter rfl hStart with
    ⟨c, offset, later, hLetter, rfl, hLater⟩
  rcases spelledWith_change.exists_word hLetter with
    ⟨value, hValue⟩
  refine ⟨value, later, ?_, hLater⟩
  exact Grammar.change_of_spells (.code hValue) stop later

end Remains

/- A hash word is a special condition. -/
theorem Mode.kind_of_hashWord
    {d : Char}
    (hLetter : isLetter d = true)
    (cs : List Char) :
    (Mode.subject.lexeme '#' (d :: cs)).1 =
      .specialCondition := by
  have hRun : (cs.takeWhile isLetter).all isLetter = true :=
    List.all_takeWhile
  have hLexeme :=
    lexeme_hashWord (.inl rfl) hLetter hRun
      (stops_dropWhile isLetter cs)
  rw [List.cons_append,
    List.takeWhile_append_dropWhile] at hLexeme
  rw [hLexeme]

/- A capital word is a special condition. -/
theorem Mode.kind_of_capitalWord
    {c : Char}
    {cs : List Char}
    (hUpper : isUpper c = true)
    (hSmall : startsSmall cs = true) :
    (Mode.subject.lexeme c cs).1 = .specialCondition := by
  rcases cs with _ | ⟨d, _ | ⟨e, cs⟩⟩
  · cases hSmall
  · cases hSmall
  · simp only [startsSmall, Bool.and_eq_true] at hSmall
    have hRun : (cs.takeWhile isLower).all isLower = true :=
      List.all_takeWhile
    have hLexeme :=
      lexeme_capitalWord hUpper hSmall.1 hSmall.2 hRun
        (stops_dropWhile isLower cs)
    rw [List.cons_append, List.cons_append,
      List.takeWhile_append_dropWhile] at hLexeme
    rw [hLexeme]

/- The letters of the stats are capital letters. -/
theorem isUpper_of_statLetters
    {c : Char}
    (hLetter : oneOf statLetters c = true) :
    isUpper c = true := by
  have hUpper : statLetters.all isUpper = true := rfl
  rw [oneOf, List.contains_iff_mem] at hLetter
  exact List.all_eq_true.mp hUpper c hLetter

/-
  A lexeme where a subject starts is a special condition, or
  the letter of a stat.
-/
theorem Mode.kind_of_opensSubject
    {c : Char}
    {cs : List Char}
    (hStart : opensSubject (c :: cs) = true) :
    (Mode.subject.lexeme c cs).1 = .specialCondition ∨
      (oneOf statLetters c = true ∧
        Mode.subject.lexeme c cs = (.stat, [c], cs)) := by
  simp only [opensSubject, Bool.or_eq_true,
    Bool.and_eq_true, beq_iff_eq] at hStart
  rcases hStart with (⟨rfl, hLetter⟩ | ⟨hUpper, hSmall⟩) |
    hLetter
  · cases cs with
    | nil => cases hLetter
    | cons d cs => exact .inl (kind_of_hashWord hLetter cs)
  · exact .inl (kind_of_capitalWord hUpper hSmall)
  · have hUpper := isUpper_of_statLetters hLetter
    by_cases hSmall : startsSmall cs = true
    · exact .inl (kind_of_capitalWord hUpper hSmall)
    · rw [Bool.not_eq_true] at hSmall
      exact .inr ⟨hLetter, lexeme_stat hUpper hSmall⟩

/- A special condition is where a subject starts. -/
theorem Mode.opensSubject_of_lexeme
    {mode : Mode}
    {c : Char}
    {others rest : List Char}
    (hLexeme :
      mode.lexeme c (others ++ rest) =
        (.specialCondition, c :: others, rest)) :
    opensSubject (c :: (others ++ rest)) = true := by
  have hToken :
      Token.ReadIn
        ⟨.specialCondition, String.ofList (c :: others), 0⟩
        mode :=
    ⟨c, _, _, _, hLexeme, rfl, by simp⟩
  rcases hToken.wellSpelled.condition rfl with
    hWord | hWord
  · cases others with
    | nil => simp [isHashWord] at hWord
    | cons d others =>
        simp only [isHashWord, String.toList_ofList,
          Bool.and_eq_true] at hWord
        simp [opensSubject, hWord.1.1, hWord.1.2]
  · rcases others with _ | ⟨d, _ | ⟨e, others⟩⟩
    · simp [isCapitalWord] at hWord
    · simp [isCapitalWord] at hWord
    · simp only [isCapitalWord, String.toList_ofList,
        Bool.and_eq_true] at hWord
      simp [opensSubject, startsSmall, hWord.1.1.1,
        hWord.1.1.2, hWord.1.2]

namespace Remains

variable {source : String}
variable {found : List Token}
variable {ending : List Char}
variable {braces : Nat}

/- Where a subject starts, what remains is behind its start. -/
theorem exists_subject
    (hRemains : Remains source found ending .subject braces)
    (hStart : opensSubject (skipBlanks ending) = true)
    (stop : Nat) :
    ∃ value later rest mode depth,
      Grammar.subject stop found = .read value later ∧
        Remains source later rest mode depth ∧
        placeOf source (skipBlanks ending) <
          placeOf source rest := by
  cases hEnding : skipBlanks ending with
  | nil =>
      rw [hEnding] at hStart
      cases hStart
  | cons c cs =>
      rw [hEnding] at hStart
      rcases hRemains.exists_lexeme hEnding with
        ⟨kind, others, rest, later, rfl, hLexeme, _, rfl,
          hLater⟩
      have hSkip := hRemains.skip.size
      rw [hEnding, byteLength, byteLength_append] at hSkip
      have hPlace :
          placeOf source (c :: (others ++ rest)) <
            placeOf source rest := by
        have hPositive := c.utf8Size_pos
        unfold placeOf
        rw [byteLength, byteLength_append]
        omega
      rcases Mode.kind_of_opensSubject hStart with
        hKind | ⟨hLetter, hStat⟩
      · rw [hLexeme] at hKind
        cases hKind
        exact ⟨_, _, _, _, _, rfl, hLater, hPlace⟩
      · rw [hLexeme] at hStat
        cases hStat
        rcases spelledWith_stat.exists_word hLetter with
          ⟨value, hValue⟩
        refine ⟨.stat value, _, _, _, _, ?_, hLater, hPlace⟩
        exact
          Grammar.subject_of_spells (.stat hValue) stop later

/- Where no subject starts, none is next. -/
theorem stuckHere_subject
    (hRemains : Remains source found ending .subject braces)
    (hStart : opensSubject (skipBlanks ending) = false)
    (stop : Nat) :
    Grammar.StuckHere Grammar.subject stop found := by
  apply Grammar.stuckHere_subject
  · intro token hToken hKind
    cases hEnding : skipBlanks ending with
    | nil =>
        rw [hRemains.eq_nil hEnding] at hToken
        cases hToken
    | cons c cs =>
        rcases hRemains.exists_lexeme hEnding with
          ⟨kind, others, rest, later, rfl, hLexeme, _, rfl,
            _⟩
        cases hToken
        have hKind : kind = .specialCondition := hKind
        subst hKind
        rw [hEnding, Mode.opensSubject_of_lexeme hLexeme]
          at hStart
        cases hStart
  · apply spelledWith_stat.eq_none_of_remains hRemains
    cases hEnding : skipBlanks ending with
    | nil => rfl
    | cons c cs =>
        rw [hEnding] at hStart
        simp only [opensSubject,
          Bool.or_eq_false_iff] at hStart
        exact hStart.2

end Remains

------------------------------------------------------------
-- Notations
------------------------------------------------------------

namespace Grammar

open Reader

/- A source is rejected for its tokens, at a byte offset. -/
def FailsAt
    (source : String)
    (offset : Nat) : Prop :=
  ∃ cause,
    parse source = .error ⟨cause, offset⟩ ∧
      cause.stage = .validation

variable {source : String}
variable {tokens : List Token}

/- A source with tokens is read as its tokens are. -/
theorem parse_of_tokenize
    (hTokens : tokenize source = .ok tokens) :
    parse source = (parseTokens source tokens).result := by
  rw [parse, hTokens]
  rfl

/- A source with tokens is only rejected for its tokens. -/
theorem stage_of_parse
    (hTokens : tokenize source = .ok tokens)
    {failure : Failure}
    (hParse : parse source = .error failure) :
    failure.cause.stage = .validation := by
  rw [parse_of_tokenize hTokens] at hParse
  exact (justified_of_parseTokens hParse).stage_eq

/- The reader for what follows the mandatory clauses. -/
def behindStart :
    Target × Change × Subject → Reader Record :=
  behindMandatory (some (record (Record.maxDepth - 1)))

/- A source with tokens starts with its mandatory clauses. -/
theorem parse_eq_bind
    (hTokens : tokenize source = .ok tokens) :
    parse source =
      ((mandatory >>= behindStart)
        source.utf8ByteSize tokens).result := by
  rw [parse_of_tokenize hTokens, parseTokens, behindStart,
    ← recordWith_eq_mandatory_bind]
  rfl

/- A source fails where its mandatory clauses are stuck. -/
theorem failsAt_of_stuck
    (hTokens : tokenize source = .ok tokens)
    {failure : Failure}
    {left : List Token}
    (hStuck :
      mandatory source.utf8ByteSize tokens =
        .stuck failure left) :
    FailsAt source failure.offset := by
  have hParse : parse source = .error failure := by
    rw [parse_eq_bind hTokens, bind_apply, hStuck]
    rfl
  exact ⟨failure.cause, hParse, stage_of_parse hTokens hParse⟩

/-
  A source with complete mandatory clauses fails at a mark of
  what is behind them.
-/
theorem offset_mem_marks_of_mandatory
    (hTokens : tokenize source = .ok tokens)
    {start : Target × Change × Subject}
    {rest : List Token}
    (hRead :
      mandatory source.utf8ByteSize tokens =
        .read start rest)
    {failure : Failure}
    (hParse : parse source = .error failure) :
    failure.offset ∈ marks source.utf8ByteSize rest := by
  rw [parse_eq_bind hTokens, bind_apply, hRead] at hParse
  have hStays :=
    stays_behindMandatory
      (soundNested_record (Record.maxDepth - 1)) start
      source.utf8ByteSize rest
  exact hStays.offset_mem_marks hParse

/-
  A source with tokens is rejected at the first of the places
  for target, effect marker and subject where none of them
  starts, blanks aside. Where all three start, it is either
  accepted or rejected behind the start of the subject.
-/
theorem mandatory_of_characters
    (hTokens : tokenize source = .ok tokens) :
    (startsWith targetLetters (atTarget source) = false →
      FailsAt source (placeOf source (atTarget source))) ∧
    (startsWith targetLetters (atTarget source) = true →
      (startsWith changeSigns (atChange source) = false →
        FailsAt source (placeOf source (atChange source))) ∧
      (startsWith changeSigns (atChange source) = true →
        (opensSubject (atSubject source) = false →
          FailsAt source
            (placeOf source (atSubject source))) ∧
        (opensSubject (atSubject source) = true →
          ∀ failure,
            parse source = .error failure →
              placeOf source (atSubject source) <
                failure.offset))) := by
  have hFirst := remains_of_tokenize hTokens
  constructor
  · intro hTarget
    have hCode :=
      spelledWith_target.eq_none_of_remains hFirst hTarget
    rcases stuckHere_target hCode source.utf8ByteSize with
      ⟨failure, left, hStuck, hOffset⟩
    rw [atTarget, ← hFirst.here_eq, ← hOffset]
    apply failsAt_of_stuck hTokens
    simp only [mandatory, bind_apply, hStuck]
    rfl
  · intro hTarget
    rcases hFirst.exists_target hTarget source.utf8ByteSize with
      ⟨target, second, hReadTarget, hSecond⟩
    constructor
    · intro hChange
      have hCode :=
        spelledWith_change.eq_none_of_remains hSecond hChange
      rcases stuckHere_change hCode source.utf8ByteSize with
        ⟨failure, left, hStuck, hOffset⟩
      rw [atChange, atTarget, ← hSecond.here_eq, ← hOffset]
      apply failsAt_of_stuck hTokens
      simp only [mandatory, bind_apply, hReadTarget, hStuck]
      rfl
    · intro hChange
      rcases hSecond.exists_change hChange
          source.utf8ByteSize with
        ⟨change, third, hReadChange, hThird⟩
      constructor
      · intro hSubject
        rcases hThird.stuckHere_subject hSubject
            source.utf8ByteSize with
          ⟨failure, left, hStuck, hOffset⟩
        rw [atSubject, atChange, atTarget, ← hThird.here_eq,
          ← hOffset]
        apply failsAt_of_stuck hTokens
        simp only [mandatory, bind_apply, hReadTarget,
          hReadChange, hStuck]
        rfl
      · intro hSubject failure hParse
        rcases hThird.exists_subject hSubject
            source.utf8ByteSize with
          ⟨subject, later, rest, mode, depth, hReadSubject,
            hLater, hPlace⟩
        have hRead :
            mandatory source.utf8ByteSize tokens =
              .read (target, change, subject) later := by
          simp only [mandatory, bind_apply, hReadTarget,
            hReadChange, hReadSubject, pure_apply]
        have hMark :=
          offset_mem_marks_of_mandatory hTokens hRead hParse
        exact
          Nat.lt_of_lt_of_le hPlace
            (hLater.le_of_mem_marks hMark)

/-
  A word of small letters where the effect marker is due, and
  a duration that is only wrong behind the subject.
-/
theorem mandatory_of_characters_spaced :
    FailsAt " P x" 3 ∧
      ∀ failure,
        parse "P + S9-2T" = .error failure →
          4 < failure.offset := by
  have hMissing :
      tokenize " P x" =
        .ok
          [⟨.target, "P", 1⟩, ⟨.identifier, "x", 3⟩] := by
    decide +kernel
  have hReversed :
      tokenize "P + S9-2T" =
        .ok
          [⟨.target, "P", 0⟩, ⟨.effectMarker, "+", 2⟩,
           ⟨.stat, "S", 4⟩, ⟨.number, "9", 5⟩,
           ⟨.rangeDash, "-", 6⟩, ⟨.number, "2", 7⟩,
           ⟨.durationType, "T", 8⟩] := by
    decide +kernel
  have hUnread :=
    (mandatory_of_characters hMissing).2 (by decide)
  have hRead :=
    (mandatory_of_characters hReversed).2 (by decide)
  exact
    ⟨hUnread.1 (by decide),
      (hRead.2 (by decide)).2 (by decide +kernel)⟩

end Grammar

end StatusEffect
