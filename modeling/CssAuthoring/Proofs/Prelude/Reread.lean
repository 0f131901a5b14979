import CssAuthoring.Proofs.Prelude.Piece

/-!
# Tokens of preludes in another place

In front of separated text, the content of a token is read as that token again.  There are two
exceptions.  A word takes an argument that opens behind it along, and an argument that was left open
in a string or in another parenthesis is not closed by the parenthesis that is written behind it.
In both cases another token is read.
-/

namespace CssAuthoring.Prelude

open CssAuthoring.Numeric

/-! ## The two exceptions -/

/-- Whether a segment is an argument that one more closing parenthesis does not end. -/
def Segment.LeavesOpen : Segment → Prop
  | .call _ _ _ (.unclosed depth quoting) => 0 < depth ∨ quoting ≠ .outside
  | _ => False

/-- A word that is neither a logical operator nor the name of a function. -/
def IsWord (token : PreludeToken) : Prop :=
  ∃ value, token.part = .identifier value

/-- A parenthesis opens at the start of a text, perhaps behind white space. -/
def OpensArgument (text : Text) : Prop :=
  ∃ inner, text.dropWhile isSpace = '(' :: inner

/-- The content of a token begins with a character and is read as that token in front of a text. -/
def ReadsAs (character : Char) (token : PreludeToken) (tail : Text) : Prop :=
  ∃ rest segment, token.content = character :: rest ∧
    readSegment character (rest ++ tail) = .ok (segment, tail) ∧ segment.token? = some token

/-- The content of a token begins with a character, and another token is read from it. -/
def Misreads (character : Char) (token : PreludeToken) (tail : Text) : Prop :=
  ∃ rest segment after other, token.content = character :: rest ∧
    readSegment character (rest ++ tail) = .ok (segment, after) ∧
      segment.token? = some other ∧ other ≠ token

/-- How the content of the token of a segment is read in front of a text. -/
inductive Reread (character : Char) (segment : Segment) (token : PreludeToken) (tail : Text) :
    Prop where
  | same (reads : ReadsAs character token tail) (closed : ¬ segment.LeavesOpen)
      (apart : ¬ (IsWord token ∧ OpensArgument tail))
  | other (misreads : Misreads character token tail)
      (joined : segment.LeavesOpen ∨ IsWord token ∧ OpensArgument tail)

/-! ## Classes of first characters -/

/-- A character that does not by itself say what token it begins. -/
structure Ordinary (character : Char) : Prop where
  noSpace : isSpace character = false
  notAt : character ≠ '@'
  noQuote : Text.isQuote character = false
  notHash : character ≠ '#'

theorem readSegment_ordinary {character : Char} (ordinary : Ordinary character) (rest : Text) :
    readSegment character rest =
      if startsNumber character rest then readNumeric (character :: rest)
      else if startsIdentifier character then .ok (readWord (character :: rest))
      else if startsComparison character then .ok (readComparison character rest)
      else if isDelimiter character then
        .ok (.token (.canonical (.delimiter [character])), rest)
      else .ok (.dropped character, rest) := by
  rw [readSegment]
  rw [if_neg (by simp [ordinary.noSpace]), if_neg ordinary.notAt,
    if_neg (by simp [ordinary.noQuote]), if_neg ordinary.notHash]

/-- What is read as a segment, by the character that it begins with. -/
inductive Reads (character : Char) (rest : Text) : Segment → Text → Prop where
  | blank (white : isSpace character = true) :
      Reads character rest (.blank (character :: rest.takeWhile isSpace)) (rest.dropWhile isSpace)
  | atName (sign : character = '@') :
      Reads character rest (.token (.canonical (.atName (rest.takeWhile isIdentifierCharacter))))
        (rest.dropWhile isIdentifierCharacter)
  | string (isQuote : Text.isQuote character = true) :
      Reads character rest
        (.token (.canonical (.string (character :: (splitString character rest).1))))
        (splitString character rest).2
  | hash (sign : character = '#') :
      Reads character rest (.token (.canonical (.hash (rest.takeWhile isIdentifierCharacter))))
        (rest.dropWhile isIdentifierCharacter)
  | number {segment : Segment} {after : Text} (ordinary : Ordinary character)
      (starts : startsNumber character rest = true)
      (read : readNumeric (character :: rest) = .ok (segment, after)) :
      Reads character rest segment after
  | word {segment : Segment} {after : Text} (ordinary : Ordinary character)
      (noNumber : startsNumber character rest = false)
      (starts : startsIdentifier character = true)
      (read : readWord (character :: rest) = (segment, after)) :
      Reads character rest segment after
  | comparison {segment : Segment} {after : Text} (starts : startsComparison character = true)
      (read : readComparison character rest = (segment, after)) :
      Reads character rest segment after
  | delimiter (delimits : isDelimiter character = true) :
      Reads character rest (.token (.canonical (.delimiter [character]))) rest
  | dropped : Reads character rest (.dropped character) rest

theorem reads_of_readSegment {character : Char} {rest after : Text} {segment : Segment}
    (read : readSegment character rest = .ok (segment, after)) :
    Reads character rest segment after := by
  unfold readSegment at read
  split at read
  · rename_i white
    cases read
    exact .blank white
  · rename_i noSpace
    split at read
    · rename_i sign
      cases read
      exact .atName sign
    · rename_i notAt
      split at read
      · rename_i isQuote
        cases read
        exact .string isQuote
      · rename_i noQuote
        split at read
        · rename_i sign
          cases read
          exact .hash sign
        · rename_i notHash
          have ordinary : Ordinary character :=
            ⟨by simpa using noSpace, notAt, by simpa using noQuote, notHash⟩
          split at read
          · rename_i starts
            exact .number ordinary starts read
          · rename_i noNumber
            split at read
            · rename_i starts
              exact .word ordinary (by simpa using noNumber) starts (Except.ok.inj read)
            · split at read
              · rename_i starts
                exact .comparison starts (Except.ok.inj read)
              · split at read
                · rename_i delimits
                  cases read
                  exact .delimiter delimits
                · cases read
                  exact .dropped

/-! ## Names, strings and numbers -/

theorem readsAs_atName {name tail : Text}
    (stays : ∀ character ∈ name, isIdentifierCharacter character = true)
    (stops : Text.Stops isIdentifierCharacter tail) :
    ReadsAs '@' (.canonical (.atName name)) tail := by
  refine ⟨name, .token (.canonical (.atName name)), rfl, ?_, rfl⟩
  rw [readSegment]
  rw [if_neg (by decide), if_pos rfl]
  dsimp only
  rw [Text.takeWhile_run stays stops, Text.dropWhile_run stays stops]

theorem readsAs_hash {value tail : Text}
    (stays : ∀ character ∈ value, isIdentifierCharacter character = true)
    (stops : Text.Stops isIdentifierCharacter tail) :
    ReadsAs '#' (.canonical (.hash value)) tail := by
  refine ⟨value, .token (.canonical (.hash value)), rfl, ?_, rfl⟩
  rw [readSegment]
  rw [if_neg (by decide), if_neg (by decide), if_neg (by decide), if_pos rfl]
  dsimp only
  rw [Text.takeWhile_run stays stops, Text.dropWhile_run stays stops]

theorem readSegment_quote {quote : Char} (isQuote : Text.isQuote quote = true) (rest : Text) :
    readSegment quote rest =
      .ok (.token (.canonical (.string (quote :: (splitString quote rest).1))),
        (splitString quote rest).2) := by
  have quotes : quote = '"' ∨ quote = '\'' := by
    simpa [Text.isQuote] using isQuote
  rw [readSegment]
  rw [if_neg (by rcases quotes with rfl | rfl <;> decide),
    if_neg (by rcases quotes with rfl | rfl <;> decide), if_pos isQuote]

theorem readsAs_string {quote : Char} {text tail : Text} (isQuote : Text.isQuote quote = true)
    (ends : (splitString quote text).2 = [] → tail = []) :
    ReadsAs quote (.canonical (.string (quote :: (splitString quote text).1))) tail := by
  refine ⟨(splitString quote text).1,
    .token (.canonical (.string (quote :: (splitString quote text).1))), rfl, ?_, rfl⟩
  have quotes : quote = '"' ∨ quote = '\'' := by
    simpa [Text.isQuote] using isQuote
  have notEscape : quote ≠ '\\' := by
    rcases quotes with rfl | rfl <;> decide
  rw [readSegment_quote isQuote, splitString_append_tail notEscape ends]

/-- A number is read again with the unit or percent sign behind it. -/
theorem readsAs_numeric {character : Char} {rest after tail : Text} {segment : Segment}
    (ordinary : Ordinary character) (starts : startsNumber character rest = true)
    (read : readNumeric (character :: rest) = .ok (segment, after)) (separated : Separated tail) :
    ∃ token, segment = .token token ∧ ¬ IsWord token ∧ ReadsAs character token tail := by
  rcases keepsNumber starts with ⟨number, numberSplit, numberAgain⟩
  rcases splitMeasure_append (splitNumber (character :: rest)).2 with ⟨unit, unitSplit, unitAgain⟩
  rcases unitAgain tail separated with ⟨unitStops, unitSame⟩
  rcases numberAgain (unit ++ tail) unitStops with ⟨startsAgain, numberSame⟩
  unfold readNumeric at read
  dsimp only at read
  cases value : (splitNumber (character :: rest)).1.value with
  | error failure =>
      rw [value] at read
      cases read
  | ok found =>
      rw [value] at read
      rcases Prod.mk.inj (Except.ok.inj read) with ⟨rfl, rfl⟩
      have content : Text.before (character :: rest)
          (splitMeasure (splitNumber (character :: rest)).2).2 = character :: (number ++ unit) := by
        have whole : character :: rest = character :: (number ++ unit) ++
            (splitMeasure (splitNumber (character :: rest)).2).2 := by
          calc character :: rest
              = character :: number ++ (splitNumber (character :: rest)).2 := numberSplit
            _ = character :: number ++ (unit ++
                (splitMeasure (splitNumber (character :: rest)).2).2) := by rw [← unitSplit]
            _ = _ := by simp
        calc Text.before (character :: rest) (splitMeasure (splitNumber (character :: rest)).2).2
            = Text.before (character :: (number ++ unit) ++
                (splitMeasure (splitNumber (character :: rest)).2).2)
                (splitMeasure (splitNumber (character :: rest)).2).2 := by rw [← whole]
          _ = character :: (number ++ unit) := Text.before_left _ _
      refine ⟨_, rfl, ?_, number ++ unit, .token _, content, ?_, rfl⟩
      · rintro ⟨word, isWord⟩
        cases measure : (splitMeasure (splitNumber (character :: rest)).2).1 <;>
          simp [Measure.part, measure] at isWord
      · rw [List.append_assoc, readSegment_ordinary ordinary, if_pos startsAgain]
        rw [readNumeric]
        dsimp only
        rw [numberSame]
        dsimp only
        rw [unitSame, value, content, ← List.append_assoc, ← List.cons_append, Text.before_left]
        rfl

/-! ## Words -/

/-- A word up to where it stops, by what follows it. -/
theorem readWord_append {word other : Text}
    (stays : ∀ character ∈ word, isIdentifierCharacter character = true)
    (stops : Text.Stops isIdentifierCharacter other) :
    readWord (word ++ other) =
      if isLogical word then (.token ⟨.operator word, word⟩, other)
      else
        match other.dropWhile isSpace with
        | '(' :: inner =>
          (.call word (other.takeWhile isSpace) (readArgument 0 .outside inner).1
              (readArgument 0 .outside inner).2.1, (readArgument 0 .outside inner).2.2)
        | _ => (.token ⟨.identifier word, word⟩, other) := by
  have read := readWord.eq_def (word ++ other)
  dsimp only at read
  rw [Text.takeWhile_run stays stops, Text.dropWhile_run stays stops] at read
  exact read

/-- A word that began with a sign does not become a number. -/
theorem not_startsNumber_word {character : Char} {rest other : Text}
    (noNumber : startsNumber character rest = false)
    (stops : Text.Stops isIdentifierCharacter other) :
    startsNumber character (rest.takeWhile isIdentifierCharacter ++ other) = false := by
  rw [Bool.eq_false_iff, Ne, startsNumber_iff] at noNumber ⊢
  rintro (digit | ⟨sign, digit⟩)
  · exact noNumber (.inl digit)
  · refine noNumber (.inr ⟨sign, ?_⟩)
    intro stopsDigit
    apply digit
    cases rest with
    | nil => exact stops.of_imp fun _ isDigit => by simp [isIdentifierCharacter, isDigit]
    | cons next more =>
        rw [List.takeWhile_cons]
        split
        · exact (Text.stops_cons _ _ _).2 ((Text.stops_cons _ _ _).1 stopsDigit)
        · exact stops.of_imp fun _ isDigit => by simp [isIdentifierCharacter, isDigit]

/-- The token of a function or address has its name and its argument in its content. -/
theorem exists_token_call (name gap argument : Text) (closing : Closing) :
    ∃ token, (Segment.call name gap argument closing).token? = some token ∧
      token.content = name ++ '(' :: argument ++ [')'] ∧ ¬ IsWord token ∧
        ∀ gap closing, (Segment.call name gap argument closing).token? = some token := by
  by_cases address : isUrlName name = true
  · refine ⟨_, if_pos address, rfl, ?_, fun _ _ => if_pos address⟩
    rintro ⟨value, isWord⟩
    cases isWord
  · refine ⟨_, if_neg address, rfl, ?_, fun _ _ => if_neg address⟩
    rintro ⟨value, isWord⟩
    cases isWord

/-- An argument that is left open takes a closing parenthesis along. -/
theorem readArgument_open {depth : Nat} {quoting : Quoting}
    (leavesOpen : 0 < depth ∨ quoting ≠ .outside) :
    (readArgument depth quoting [')']).1 = [')'] := by
  rw [readArgument]
  cases step : advance depth quoting ')' with
  | none =>
      rcases advance_eq_none step with ⟨rfl, rfl, _⟩
      rcases leavesOpen with positive | inString
      · exact absurd positive (Nat.lt_irrefl 0)
      · exact absurd rfl inString
  | some next => rfl

/-- A function or address is read again, unless its argument is left open. -/
theorem reread_call {character : Char} {wordRest gap inner argument after tail : Text}
    {closing : Closing} {token : PreludeToken}
    (again : ∀ other, readSegment character (wordRest ++ '(' :: other) =
      .ok (.call (character :: wordRest) [] (readArgument 0 .outside other).1
          (readArgument 0 .outside other).2.1, (readArgument 0 .outside other).2.2))
    (read : readArgument 0 .outside inner = (argument, closing, after))
    (found : (Segment.call (character :: wordRest) gap argument closing).token? = some token)
    (ends : after = [] → tail = []) :
    Reread character (.call (character :: wordRest) gap argument closing) token tail := by
  rcases exists_token_call (character :: wordRest) gap argument closing with
    ⟨same, isSame, content, notWord, anyEnd⟩
  rw [found] at isSame
  cases isSame
  have shape : wordRest ++ '(' :: argument ++ [')'] ++ tail =
      wordRest ++ '(' :: (argument ++ ')' :: tail) := by simp
  have closes (closed : readArgument 0 .outside (argument ++ ')' :: tail) =
      (argument, .closed, tail)) : ReadsAs character token tail := by
    refine ⟨wordRest ++ '(' :: argument ++ [')'], _, content, ?_, anyEnd [] .closed⟩
    rw [shape, again, closed]
  cases closing with
  | closed =>
      exact .same (closes (readArgument_closed read tail)) id fun both => notWord both.1
  | unclosed depth quoting =>
      rcases readArgument_unclosed read (')' :: tail) with ⟨ended, goesOn⟩
      by_cases leavesOpen : 0 < depth ∨ quoting ≠ .outside
      · -- The written parenthesis is taken into the argument, so its text grows by one.
        have nothing : tail = [] := ends ended
        subst nothing
        rw [readArgument_open leavesOpen] at goesOn
        have called := exists_token_call (character :: wordRest) [] (argument ++ [')'])
          (readArgument depth quoting [')']).2.1
        rcases called with ⟨other, isOther, otherContent, _, _⟩
        refine .other ⟨wordRest ++ '(' :: argument ++ [')'], _,
          (readArgument depth quoting [')']).2.2, other, content, ?_, isOther, ?_⟩ (.inl leavesOpen)
        · rw [shape, again, goesOn]
        · rintro rfl
          rw [content] at otherContent
          simp at otherContent
      · have outside : depth = 0 ∧ quoting = .outside := by
          simpa using leavesOpen
        rcases outside with ⟨rfl, rfl⟩
        refine .same (closes ?_) leavesOpen fun both => notWord both.1
        have closed : readArgument 0 .outside (')' :: tail) = ([], .closed, tail) := rfl
        rw [goesOn, closed, List.append_nil]

/-- A word without an argument is read again, unless it takes along one that opens behind it. -/
theorem reread_plain {character : Char} {wordRest tail : Text}
    (again : readSegment character (wordRest ++ tail) =
      .ok (readWord (character :: wordRest ++ tail)))
    (stays : ∀ other ∈ character :: wordRest, isIdentifierCharacter other = true)
    (notLogical : ¬ isLogical (character :: wordRest) = true)
    (tailStops : Text.Stops isIdentifierCharacter tail) :
    Reread character
      (.token ⟨.identifier (character :: wordRest), character :: wordRest⟩)
      ⟨.identifier (character :: wordRest), character :: wordRest⟩ tail := by
  rw [readWord_append stays tailStops, if_neg notLogical] at again
  by_cases opens : OpensArgument tail
  · rcases opens with ⟨inner, opened⟩
    have called := exists_token_call (character :: wordRest) (tail.takeWhile isSpace)
      (readArgument 0 .outside inner).1 (readArgument 0 .outside inner).2.1
    rcases called with ⟨other, isOther, _, notWord, _⟩
    refine .other ⟨wordRest, _, (readArgument 0 .outside inner).2.2, other, rfl, ?_, isOther, ?_⟩
      (.inr ⟨⟨_, rfl⟩, inner, opened⟩)
    · rw [again, opened]
      rfl
    · rintro rfl
      exact notWord ⟨_, rfl⟩
  · refine .same ⟨wordRest, .token _, rfl, ?_, rfl⟩ id fun both => opens both.2
    rw [again]
    split
    · rename_i inner opened
      exact absurd ⟨inner, opened⟩ opens
    · rfl

/-- A word is read again, with the argument that was read behind it. -/
theorem reread_word {character : Char} {rest after tail : Text} {segment : Segment}
    {token : PreludeToken} (ordinary : Ordinary character)
    (noNumber : startsNumber character rest = false)
    (starts : startsIdentifier character = true)
    (read : readWord (character :: rest) = (segment, after))
    (found : segment.token? = some token) (separated : Separated tail)
    (ends : after = [] → tail = []) : Reread character segment token tail := by
  have startStays : isIdentifierCharacter character = true := by
    simp [isIdentifierCharacter, starts]
  have wordText : (character :: rest).takeWhile isIdentifierCharacter =
      character :: rest.takeWhile isIdentifierCharacter := by simp [startStays]
  have stays : ∀ other ∈ character :: rest.takeWhile isIdentifierCharacter,
      isIdentifierCharacter other = true := by
    rw [← wordText]
    exact Text.mem_takeWhile
  have again {other : Text} (stops : Text.Stops isIdentifierCharacter other) :
      readSegment character (rest.takeWhile isIdentifierCharacter ++ other) =
        .ok (readWord (character :: rest.takeWhile isIdentifierCharacter ++ other)) := by
    have noNumber := not_startsNumber_word noNumber stops
    rw [readSegment_ordinary ordinary, if_neg (by simp [noNumber]), if_pos starts]
    rfl
  have tailStops : Text.Stops isIdentifierCharacter tail := separated.stops (by decide)
  rw [← List.takeWhile_append_dropWhile (p := isIdentifierCharacter) (l := character :: rest),
    wordText, readWord_append stays (Text.stops_dropWhile _ _)] at read
  -- Only the word matters from here on, not the text that it was read from.
  generalize rest.takeWhile isIdentifierCharacter = wordRest at *
  split at read
  · rename_i logical
    cases read
    cases found
    refine .same ⟨wordRest, .token _, rfl, ?_, rfl⟩ id ?_
    · rw [again tailStops, readWord_append stays tailStops, if_pos logical]
    · rintro ⟨⟨value, isWord⟩, _⟩
      cases isWord
  · rename_i notLogical
    split at read
    · rename_i inner opened
      rcases Prod.mk.inj read with ⟨isCall, left⟩
      subst isCall left
      have againCall (other : Text) : readSegment character (wordRest ++ '(' :: other) =
          .ok (.call (character :: wordRest) [] (readArgument 0 .outside other).1
              (readArgument 0 .outside other).2.1, (readArgument 0 .outside other).2.2) := by
        have stops : Text.Stops isIdentifierCharacter ('(' :: other) :=
          (Text.stops_cons _ _ _).2 (by decide)
        rw [again stops, readWord_append stays stops, if_neg notLogical]
        rfl
      exact reread_call againCall rfl found ends
    · rename_i notOpened
      cases read
      cases found
      exact reread_plain (again tailStops) stays notLogical tailStops

/-! ## Every token -/

/-- A comparison is read again. -/
theorem readsAs_comparison {character : Char} {rest after tail : Text} {segment : Segment}
    (starts : startsComparison character = true)
    (read : readComparison character rest = (segment, after)) (separated : Separated tail) :
    ∃ token, segment = .token token ∧ ¬ IsWord token ∧ ReadsAs character token tail := by
  have signs : character = '<' ∨ character = '>' ∨ character = '=' := by
    simpa [startsComparison, or_assoc] using starts
  have alone : ReadsAs character ⟨.operator [character], [character]⟩ tail := by
    refine ⟨[], .token ⟨.operator [character], [character]⟩, rfl, ?_, rfl⟩
    cases tail with
    | nil => rcases signs with rfl | rfl | rfl <;> rfl
    | cons space more =>
        have isSpace := separated space rfl
        subst isSpace
        rcases signs with rfl | rfl | rfl <;> rfl
  unfold readComparison at read
  split at read
  · split at read
    · rename_i equals
      subst equals
      cases read
      exact ⟨_, rfl, nofun, alone⟩
    · rename_i notEquals
      cases read
      refine ⟨_, rfl, nofun, ['='], .token _, rfl, ?_, rfl⟩
      rcases signs with rfl | rfl | rfl
      · rfl
      · rfl
      · exact absurd rfl notEquals
  · cases read
    exact ⟨_, rfl, nofun, alone⟩

/-- A delimiter is read again. -/
theorem readsAs_delimiter {character : Char} (delimits : isDelimiter character = true)
    (tail : Text) : ReadsAs character (.canonical (.delimiter [character])) tail := by
  refine ⟨[], .token (.canonical (.delimiter [character])), rfl, ?_, rfl⟩
  simp only [isDelimiter, Bool.or_eq_true, decide_eq_true_eq] at delimits
  rcases delimits with (((rfl | rfl) | rfl) | rfl) | rfl <;> rfl

/-- The content of every token is read as that token, but for the two exceptions. -/
theorem reread_of_readSegment {character : Char} {rest after tail : Text} {segment : Segment}
    {token : PreludeToken} (read : readSegment character rest = .ok (segment, after))
    (found : segment.token? = some token) (separated : Separated tail)
    (ends : after = [] → tail = []) : Reread character segment token tail := by
  have single {token' : PreludeToken} (isToken : segment = .token token')
      (notWord : ¬ IsWord token') (reads : ReadsAs character token' tail) :
      Reread character segment token tail := by
    subst isToken
    cases found
    exact .same reads id fun both => notWord both.1
  cases reads_of_readSegment read with
  | blank => cases found
  | atName sign =>
      subst sign
      exact single rfl nofun (readsAs_atName Text.mem_takeWhile (separated.stops (by decide)))
  | string isQuote =>
      exact single rfl nofun (readsAs_string isQuote ends)
  | hash sign =>
      subst sign
      exact single rfl nofun (readsAs_hash Text.mem_takeWhile (separated.stops (by decide)))
  | number ordinary starts numeric =>
      rcases readsAs_numeric ordinary starts numeric separated with
        ⟨token', isToken, notWord, reads⟩
      exact single isToken notWord reads
  | word ordinary noNumber starts word =>
      exact reread_word ordinary noNumber starts word found separated ends
  | comparison starts comparison =>
      rcases readsAs_comparison starts comparison separated with ⟨token', isToken, notWord, reads⟩
      exact single isToken notWord reads
  | delimiter delimits =>
      exact single rfl nofun (readsAs_delimiter delimits tail)
  | dropped => cases found

/-- No parenthesis opens behind what is read as a word. -/
theorem not_opensArgument_of_isWord {character : Char} {rest after : Text} {segment : Segment}
    {token : PreludeToken} (read : readSegment character rest = .ok (segment, after))
    (found : segment.token? = some token) (isWord : IsWord token) : ¬ OpensArgument after := by
  have refuse {token' : PreludeToken} (isToken : segment = .token token')
      (notWord : ¬ IsWord token') : ¬ OpensArgument after := by
    subst isToken
    cases found
    exact absurd isWord notWord
  cases reads_of_readSegment read with
  | blank => cases found
  | atName => exact refuse rfl nofun
  | string => exact refuse rfl nofun
  | hash => exact refuse rfl nofun
  | number ordinary starts numeric =>
      rcases readsAs_numeric ordinary starts numeric separated_nil with
        ⟨token', isToken, notWord, _⟩
      exact refuse isToken notWord
  | word ordinary noNumber starts word =>
      unfold readWord at word
      dsimp only at word
      split at word
      · cases word
        exact refuse rfl nofun
      · split at word
        · cases word
          rcases exists_token_call _ _ _ _ with ⟨token', isToken, _, notWord, _⟩
          rw [found] at isToken
          cases isToken
          exact absurd isWord notWord
        · rename_i notOpened
          cases word
          rintro ⟨inner, opened⟩
          exact notOpened inner opened
  | comparison starts comparison =>
      rcases readsAs_comparison starts comparison separated_nil with ⟨token', isToken, notWord, _⟩
      exact refuse isToken notWord
  | delimiter => exact refuse rfl nofun
  | dropped => cases found

end CssAuthoring.Prelude
