import CssAuthoring.Proofs.Argument
import CssAuthoring.Proofs.Prelude.Number
import CssAuthoring.Proofs.Prelude.RoundTrip

/-!
# Segments and what follows them

This module says which texts are segments of a prelude, and what may follow each of them, without
a word on how a prelude is cut.  A word goes as far as it can, a number takes the unit behind it, a
name with a parenthesis behind it is a function, and a character is dropped only if it can begin
nothing in front of what follows.

The reader of segments finds exactly the segments that stand before what is left: `Stands.read` and
`stands_of_readSegment`.
-/

namespace CssAuthoring.Prelude

open CssAuthoring.Numeric
open Selector (Balanced IsString OpenString closeString?)

/-! ## Runs and words -/

/-- Identifier characters, of which the first one begins no number. -/
structure IsIdentifier (word : Text) : Prop where
  stays : ∀ character ∈ word, isIdentifierCharacter character = true
  begins : ∃ first more, word = first :: more ∧ startsIdentifier first = true ∧
    startsNumber first more = false

/-- A comparison up to its equals sign, if it has one. -/
inductive Compares : Text → Text → Prop where
  | single {sign : Char} {after : Text} (isSign : startsComparison sign = true)
      (alone : sign = '=' ∨ Text.Stops (fun character => character = '=') after) :
      Compares [sign] after
  | double {sign : Char} {after : Text} (isSign : sign = '<' ∨ sign = '>') :
      Compares [sign, '='] after

/-- A character outside the grammar. -/
structure Stranger (character : Char) (after : Text) : Prop where
  noSpace : isSpace character = false
  noSign : character ∉ ['@', '#']
  noQuote : Text.isQuote character = false
  noIdentifier : isIdentifierCharacter character = false
  noComparison : startsComparison character = false
  noDelimiter : isDelimiter character = false
  noNumber : character = '+' ∨ character = '.' → Text.Stops Text.isDigit after

/-! ## Segments -/

/-- A segment stands in a prelude before the text that follows it. -/
inductive Stands : Segment → Text → Prop where
  | blank {run after : Text} (nonempty : run ≠ [])
      (white : ∀ character ∈ run, isSpace character = true) (stops : Text.Stops isSpace after) :
      Stands (.blank run) after
  | dropped {character : Char} {after : Text} (stranger : Stranger character after) :
      Stands (.dropped character) after
  | atName {name after : Text} (longest : Longest name after) :
      Stands (.token (.canonical (.atName name))) after
  | hash {value after : Text} (longest : Longest value after) :
      Stands (.token (.canonical (.hash value))) after
  | logical {word after : Text} (isIdentifier : IsIdentifier word)
      (isLogical : isLogical word = true) (stops : Text.Stops isIdentifierCharacter after) :
      Stands (.token (.canonical (.operator word))) after
  | identifier {word after : Text} (isIdentifier : IsIdentifier word)
      (notLogical : isLogical word = false) (stops : Text.Stops isIdentifierCharacter after)
      (alone : ¬ OpensArgument after) :
      Stands (.token (.canonical (.identifier word))) after
  | comparison {sign after : Text} (compares : Compares sign after) :
      Stands (.token (.canonical (.operator sign))) after
  | delimiter {sign : Char} {after : Text} (delimits : isDelimiter sign = true) :
      Stands (.token (.canonical (.delimiter [sign]))) after
  | string {string after : Text} (isString : IsString string) :
      Stands (.token (.canonical (.string string))) after
  | openString {string : Text} (openString : OpenString string) :
      Stands (.token (.canonical (.string string))) []
  | number {written : Written} {value : Numeral} {measure : Measure} {number unit after : Text}
      (isNumber : IsNumber written number (unit ++ after))
      (isMeasure : IsMeasure measure unit after) (hasValue : written.value = .ok value) :
      Stands (.token ⟨measure.part value, number ++ unit⟩) after
  | call {name gap argument after : Text} (isIdentifier : IsIdentifier name)
      (notLogical : isLogical name = false) (white : ∀ character ∈ gap, isSpace character = true)
      (balanced : Balanced 0 argument) :
      Stands (.call name gap argument .closed) after
  | openCall {name gap argument : Text} {depth : Nat} {quoting : Quoting}
      (isIdentifier : IsIdentifier name) (notLogical : isLogical name = false)
      (white : ∀ character ∈ gap, isSpace character = true)
      (unmatched : ∀ inner rest, Balanced 0 inner → argument ≠ inner ++ ')' :: rest) :
      Stands (.call name gap argument (.unclosed depth quoting)) []

/-! ## Reading strings -/

/-- A string goes up to the quote that closes it, or to the end. -/
theorem splitString_eq (quote : Char) (text : Text) :
    splitString quote text = (closeString? quote text).getD (text, []) := by
  fun_induction closeString? quote text with
  | case1 escaped rest hypothesis =>
      rw [splitString, hypothesis]
      cases closeString? quote rest <;> rfl
  | case2 =>
      rw [splitString]
      · split <;> rfl
      · intro escaped rest _ pair
        cases pair
  | case3 rest notPair =>
      rw [splitString, if_pos rfl]
      · rfl
      · exact notPair
  | case4 character rest notPair notLast notQuote hypothesis =>
      rw [splitString, if_neg notQuote, hypothesis]
      · cases closeString? quote rest <;> rfl
      · exact notPair
  | case5 => rfl

/-! ## Reading segments -/

/-- The characters that say by themselves what they begin. -/
def heralds : Text :=
  [' ', '\t', '\n', '\r', '@', '#', '"', '\'']

theorem Ordinary.of_kind {isKind : Char → Bool} {character : Char}
    (outside : heralds.any isKind = false) (inKind : isKind character = true) :
    Ordinary character := by
  have apart : ∀ other ∈ heralds, character ≠ other := by
    rintro other herald rfl
    exact List.any_eq_false.1 outside character herald inKind
  simp only [heralds, List.forall_mem_cons] at apart
  rcases apart with ⟨space, tab, lineFeed, carriageReturn, atSign, hash, double, single, _⟩
  constructor
  · simp [isSpace, space, tab, lineFeed, carriageReturn]
  · exact atSign
  · simp [Text.isQuote, double, single]
  · exact hash

/-- In front of a text, the reader finds the token of a segment and leaves the text. -/
def ReadsIn (segment : Segment) (after : Text) : Prop :=
  ∃ character rest found, segment.source ++ after = character :: rest ∧
    readSegment character rest = .ok (found, after) ∧ found.token? = segment.token?

theorem ReadsAs.readsIn {character : Char} {token : PreludeToken} {after : Text}
    (reads : ReadsAs character token after) : ReadsIn (.token token) after := by
  rcases reads with ⟨rest, found, content, read, isToken⟩
  exact ⟨character, rest ++ after, found, congrArg (· ++ after) content, read, isToken⟩

/-- A word is read up to where it stops, by what follows it. -/
theorem IsIdentifier.read {word after : Text} (isIdentifier : IsIdentifier word)
    (stops : Text.Stops isIdentifierCharacter after) :
    ∃ character rest, word ++ after = character :: rest ∧
      readSegment character rest = .ok (readWord (word ++ after)) := by
  rcases isIdentifier with ⟨stays, first, more, rfl, starts, noNumber⟩
  refine ⟨first, more ++ after, rfl, ?_⟩
  have run : more.takeWhile isIdentifierCharacter = more := by
    have inMore := (List.forall_mem_cons.1 stays).2
    simpa using Text.takeWhile_run inMore (Text.stops_nil _)
  have noNumberAfter := not_startsNumber_word noNumber stops
  rw [run] at noNumberAfter
  have ordinary : Ordinary first := .of_kind rfl starts
  rw [readSegment_ordinary ordinary, if_neg (by simp [noNumberAfter]), if_pos starts]
  rfl

theorem not_isIdentifierCharacter_of_isSpace {character : Char}
    (white : isSpace character = true) : isIdentifierCharacter character = false := by
  simp only [isSpace, Bool.or_eq_true, decide_eq_true_eq] at white
  rcases white with ((rfl | rfl) | rfl) | rfl <;> decide

/-- A name with a parenthesis behind it, perhaps after white space, takes the argument along. -/
theorem IsIdentifier.read_call {name gap : Text} (isIdentifier : IsIdentifier name)
    (notLogical : isLogical name = false) (white : ∀ character ∈ gap, isSpace character = true)
    (inner : Text) :
    ∃ character rest, name ++ (gap ++ '(' :: inner) = character :: rest ∧
      readSegment character rest =
        .ok (.call name gap (readArgument 0 .outside inner).1 (readArgument 0 .outside inner).2.1,
          (readArgument 0 .outside inner).2.2) := by
  have opening : Text.Stops isSpace ('(' :: inner) := (Text.stops_cons _ _ _).2 (by decide)
  have stops : Text.Stops isIdentifierCharacter (gap ++ '(' :: inner) := by
    cases gap with
    | nil => exact (Text.stops_cons _ _ _).2 (by decide)
    | cons space more =>
        exact (Text.stops_cons _ _ _).2
          (not_isIdentifierCharacter_of_isSpace (white space List.mem_cons_self))
  rcases isIdentifier.read stops with ⟨character, rest, shape, read⟩
  refine ⟨character, rest, shape, ?_⟩
  rw [read, readWord_append isIdentifier.stays stops, if_neg (by simp [notLogical]),
    Text.dropWhile_run white opening, Text.takeWhile_run white opening]
  rfl

theorem Stranger.read {character : Char} {after : Text} (stranger : Stranger character after) :
    readSegment character after = .ok (.dropped character, after) := by
  have noDigit : Text.isDigit character = false := (Bool.or_eq_false_iff.1 stranger.noIdentifier).2
  have noStart : startsIdentifier character = false :=
    (Bool.or_eq_false_iff.1 stranger.noIdentifier).1
  have noNumber : startsNumber character after = false := by
    rw [Bool.eq_false_iff, Ne, startsNumber_iff]
    rintro (isDigit | ⟨rfl | sign, digits⟩)
    · rw [noDigit] at isDigit
      contradiction
    · exact absurd noStart (by decide)
    · exact digits (stranger.noNumber sign)
  have noSign := stranger.noSign
  simp only [List.mem_cons, List.not_mem_nil, or_false, not_or] at noSign
  have ordinary : Ordinary character :=
    ⟨stranger.noSpace, noSign.1, stranger.noQuote, noSign.2⟩
  rw [readSegment_ordinary ordinary]
  simp [noNumber, noStart, stranger.noComparison, stranger.noDelimiter]

theorem Compares.read {sign after : Text} (compares : Compares sign after) :
    ReadsIn (.token (.canonical (.operator sign))) after := by
  cases compares with
  | @single sign _ isSign alone =>
      have signs : sign = '<' ∨ sign = '>' ∨ sign = '=' := by
        simpa [startsComparison, or_assoc] using isSign
      have read : readSegment sign after = .ok (readComparison sign after) := by
        rcases signs with rfl | rfl | rfl <;> rfl
      refine ⟨sign, after, .token ⟨.operator [sign], [sign]⟩, rfl, ?_, rfl⟩
      rw [read, readComparison.eq_def]
      split
      · rcases alone with rfl | stops
        · rfl
        · exact absurd stops (by simp)
      · rfl
  | @double sign _ isSign =>
      rcases isSign with rfl | rfl
      · exact ⟨'<', '=' :: after, _, rfl, rfl, rfl⟩
      · exact ⟨'>', '=' :: after, _, rfl, rfl, rfl⟩

/-- Whether a number may begin with a character. -/
def beginsNumber (character : Char) : Bool :=
  Text.isDigit character || character = '-' || character = '+' || character = '.'

theorem ordinary_of_startsNumber {character : Char} {rest : Text}
    (starts : startsNumber character rest = true) : Ordinary character := by
  have begins : beginsNumber character = true := by
    rw [startsNumber_iff] at starts
    simp only [beginsNumber, Bool.or_eq_true, decide_eq_true_eq]
    rcases starts with isDigit | ⟨minus | plus | point, _⟩
    · exact .inl (.inl (.inl isDigit))
    · exact .inl (.inl (.inr minus))
    · exact .inl (.inr plus)
    · exact .inr point
  exact .of_kind rfl begins

/-- Where a number begins, the reader takes it with its percent sign or unit, or fails on it. -/
theorem IsNumber.read {written : Written} {number after : Text}
    (isNumber : IsNumber written number after) :
    ∃ character rest, number ++ after = character :: rest ∧
      readSegment character rest = written.value.map fun value =>
        (.token ⟨(splitMeasure after).1.part value,
          Text.before (number ++ after) (splitMeasure after).2⟩, (splitMeasure after).2) := by
  rcases isNumber.writes.starts after with ⟨character, rest, shape, starts⟩
  refine ⟨character, rest, shape, ?_⟩
  rw [readSegment_ordinary (ordinary_of_startsNumber starts), if_pos starts, ← shape, readNumeric,
    isNumber.split]

/-- A segment that stands before a text is read there. -/
theorem Stands.read {segment : Segment} {after : Text} (stands : Stands segment after) :
    ReadsIn segment after := by
  cases stands with
  | @blank run _ nonempty white stops =>
      rcases List.exists_cons_of_ne_nil nonempty with ⟨first, more, rfl⟩
      rw [List.forall_mem_cons] at white
      refine ⟨first, more ++ after, .blank (first :: more), rfl, ?_, rfl⟩
      rw [readSegment_space white.1, Text.takeWhile_run white.2 stops,
        Text.dropWhile_run white.2 stops]
  | @dropped character _ stranger => exact ⟨character, after, _, rfl, stranger.read, rfl⟩
  | atName longest => exact (readsAs_atName longest.stays longest.stops).readsIn
  | hash longest => exact (readsAs_hash longest.stays longest.stops).readsIn
  | @logical word _ isIdentifier isLogical stops =>
      rcases isIdentifier.read stops with ⟨character, rest, shape, read⟩
      refine ⟨character, rest, .token ⟨.operator word, word⟩, shape, ?_, rfl⟩
      rw [read, readWord_append isIdentifier.stays stops, if_pos isLogical]
  | @identifier word _ isIdentifier notLogical stops alone =>
      rcases isIdentifier.read stops with ⟨character, rest, shape, read⟩
      refine ⟨character, rest, .token ⟨.identifier word, word⟩, shape, ?_, rfl⟩
      rw [read, readWord_append isIdentifier.stays stops, if_neg (by simp [notLogical])]
      split
      · rename_i inner opened
        exact absurd ⟨inner, opened⟩ alone
      · rfl
  | comparison compares => exact compares.read
  | delimiter delimits => exact (readsAs_delimiter delimits after).readsIn
  | string isString =>
      rcases isString.read with ⟨quote, inside, rfl, isQuote, closes⟩
      refine ⟨quote, inside ++ after, .token (.canonical (.string (quote :: inside))), rfl, ?_, rfl⟩
      rw [readSegment_quote isQuote, splitString_eq, closes after]
      rfl
  | openString openString =>
      rcases openString.not_closed with ⟨quote, rest, rfl, isQuote, unclosed⟩
      refine ⟨quote, rest, .token (.canonical (.string (quote :: rest))), List.append_nil _, ?_,
        rfl⟩
      rw [readSegment_quote isQuote, splitString_eq, unclosed]
      rfl
  | @number written value measure number unit _ isNumber isMeasure hasValue =>
      rcases isNumber.read with ⟨character, rest, shape, read⟩
      rw [isMeasure.split, hasValue, ← List.append_assoc, Text.before_left] at read
      refine ⟨character, rest, _, ?_, read, rfl⟩
      rw [← shape, ← List.append_assoc]
      rfl
  | @call name gap argument _ isIdentifier notLogical white balanced =>
      rcases isIdentifier.read_call notLogical white (argument ++ ')' :: after) with
        ⟨character, rest, shape, read⟩
      have closed := Selector.closeArgument_eq_ok_iff.1
        (Selector.closeArgument_balanced balanced after)
      rw [closed] at read
      refine ⟨character, rest, _, ?_, read, rfl⟩
      rw [← shape]
      simp [Segment.source, Closing.text]
  | @openCall name gap argument depth quoting isIdentifier notLogical white unmatched =>
      rcases isIdentifier.read_call notLogical white argument with ⟨character, rest, shape, read⟩
      have unclosed (inner after : Text) :
          Selector.closeArgument 0 argument ≠ .ok (inner, after) := by
        rw [Ne, Selector.closeArgument_eq_ok_iff_balanced]
        rintro ⟨shape, balanced⟩
        exact unmatched inner after balanced shape
      rcases Selector.readArgument_of_unclosed unclosed with ⟨_, _, left, _⟩
      rw [left] at read
      refine ⟨character, rest, _, ?_, read, rfl⟩
      rw [← shape]
      simp [Segment.source, Closing.text]

/-! ## What is read as a segment -/

/-- A name and white space stand with the argument that is read behind them. -/
theorem stands_call {name gap inner argument after : Text} {closing : Closing}
    (isIdentifier : IsIdentifier name) (notLogical : isLogical name = false)
    (white : ∀ character ∈ gap, isSpace character = true)
    (read : readArgument 0 .outside inner = (argument, closing, after)) :
    Stands (.call name gap argument closing) after := by
  cases closing with
  | closed =>
      have closed := Selector.closeArgument_eq_ok_iff.2 read
      exact .call isIdentifier notLogical white (Selector.balanced_of_closeArgument closed)
  | unclosed depth quoting =>
      rcases readArgument_unclosed read [] with ⟨rfl, _⟩
      have whole : argument = inner := by
        simpa [read, Closing.text] using readArgument_append 0 .outside inner
      refine .openCall isIdentifier notLogical white ?_
      intro other rest balanced shape
      have closed := Selector.closeArgument_eq_ok_iff.1
        (Selector.closeArgument_balanced balanced rest)
      rw [← shape, whole, read] at closed
      cases closed

/-- What is read as a word stands before what is left. -/
theorem stands_of_readWord {character : Char} {rest after : Text} {segment : Segment}
    (noNumber : startsNumber character rest = false) (starts : startsIdentifier character = true)
    (read : readWord (character :: rest) = (segment, after)) : Stands segment after := by
  have isIdentifier : IsIdentifier ((character :: rest).takeWhile isIdentifierCharacter) := by
    refine ⟨Text.mem_takeWhile, character, rest.takeWhile isIdentifierCharacter,
      takeWhile_of_startsIdentifier starts rest, starts, ?_⟩
    simpa using not_startsNumber_word noNumber (Text.stops_nil _)
  have stops := Text.stops_dropWhile isIdentifierCharacter (character :: rest)
  rw [← List.takeWhile_append_dropWhile (p := isIdentifierCharacter) (l := character :: rest),
    readWord_append isIdentifier.stays stops] at read
  generalize (character :: rest).takeWhile isIdentifierCharacter = word at *
  generalize (character :: rest).dropWhile isIdentifierCharacter = behind at *
  split at read
  · rename_i isLogical
    cases read
    exact .logical isIdentifier isLogical stops
  · rename_i notLogical
    rw [Bool.not_eq_true] at notLogical
    split at read
    · rename_i inner opened
      rcases reading : readArgument 0 .outside inner with ⟨argument, closing, left⟩
      rw [reading] at read
      cases read
      exact stands_call isIdentifier notLogical Text.mem_takeWhile reading
    · rename_i notOpened
      cases read
      refine .identifier isIdentifier notLogical stops ?_
      rintro ⟨inner, opened⟩
      exact notOpened inner opened

theorem stands_of_readComparison {character : Char} {rest after : Text} {segment : Segment}
    (starts : startsComparison character = true)
    (read : readComparison character rest = (segment, after)) : Stands segment after := by
  have signs : character = '<' ∨ character = '>' ∨ character = '=' := by
    simpa [startsComparison, or_assoc] using starts
  unfold readComparison at read
  split at read
  · split at read
    · rename_i equals
      cases read
      subst equals
      exact .comparison (.single starts (.inl rfl))
    · rename_i notEquals
      cases read
      refine .comparison (.double ?_)
      simpa [notEquals] using signs
  · rename_i alone
    cases read
    refine .comparison (.single starts (.inr ?_))
    intro next member
    rw [decide_eq_false_iff_not]
    rintro rfl
    rcases List.head?_eq_some_iff.1 member with ⟨more, rfl⟩
    exact alone more rfl

theorem stands_of_readNumeric {character : Char} {rest after : Text} {segment : Segment}
    (starts : startsNumber character rest = true)
    (read : readNumeric (character :: rest) = .ok (segment, after)) : Stands segment after := by
  rcases exists_isNumber starts with ⟨number, shape, isNumber⟩
  rcases exists_isMeasure (splitNumber (character :: rest)).2 with ⟨unit, behind, isMeasure⟩
  rw [behind] at isNumber
  have content : Text.before (character :: rest)
      (splitMeasure (splitNumber (character :: rest)).2).2 = number ++ unit := by
    calc Text.before (character :: rest) (splitMeasure (splitNumber (character :: rest)).2).2
        = Text.before (number ++ unit ++ (splitMeasure (splitNumber (character :: rest)).2).2)
            (splitMeasure (splitNumber (character :: rest)).2).2 := by
          rw [List.append_assoc, ← behind, ← shape]
      _ = number ++ unit := Text.before_left _ _
  unfold readNumeric at read
  dsimp only at read
  cases value : (splitNumber (character :: rest)).1.value with
  | error failure =>
      rw [value] at read
      cases read
  | ok found =>
      rw [value] at read
      rcases Prod.mk.inj (Except.ok.inj read) with ⟨rfl, rfl⟩
      rw [content]
      exact .number isNumber isMeasure value

/-- A character that is dropped begins nothing else. -/
theorem stranger_of_readSegment {character : Char} {rest : Text}
    (read : readSegment character rest = .ok (.dropped character, rest)) :
    Stranger character rest := by
  have ordinary : Ordinary character := by
    constructor
    · rw [Bool.eq_false_iff]
      intro white
      rw [readSegment_space white] at read
      cases read
    · rintro rfl
      cases read
    · rw [Bool.eq_false_iff]
      intro isQuote
      rw [readSegment_quote isQuote] at read
      cases read
    · rintro rfl
      cases read
  rw [readSegment_ordinary ordinary] at read
  split at read
  · rename_i starts
    cases stands_of_readNumeric starts read with
    | dropped stranger => exact stranger
  · rename_i noNumber
    rw [Bool.not_eq_true] at noNumber
    split at read
    · rename_i starts
      cases stands_of_readWord noNumber starts (Except.ok.inj read) with
      | dropped stranger => exact stranger
    · rename_i noStart
      split at read
      · rename_i starts
        cases stands_of_readComparison starts (Except.ok.inj read) with
        | dropped stranger => exact stranger
      · rename_i noComparison
        split at read
        · cases read
        · rename_i noDelimiter
          rw [Bool.eq_false_iff, Ne, startsNumber_iff, not_or, not_and, Classical.not_not]
            at noNumber
          constructor
          · exact ordinary.noSpace
          · simpa using ⟨ordinary.notAt, ordinary.notHash⟩
          · exact ordinary.noQuote
          · simp [isIdentifierCharacter, noStart, noNumber.1]
          · simpa using noComparison
          · simpa using noDelimiter
          · exact fun sign => noNumber.2 (.inr sign)

/-- What is read as a segment stands before what is left. -/
theorem stands_of_readSegment {character : Char} {rest after : Text} {segment : Segment}
    (read : readSegment character rest = .ok (segment, after)) : Stands segment after := by
  cases reads_of_readSegment read with
  | blank white =>
      refine .blank (List.cons_ne_nil _ _) ?_ (Text.stops_dropWhile _ _)
      exact List.forall_mem_cons.2 ⟨white, Text.mem_takeWhile⟩
  | atName => exact .atName ⟨Text.mem_takeWhile, Text.stops_dropWhile _ _⟩
  | string isQuote =>
      rw [splitString_eq]
      cases closed : closeString? character rest with
      | some found => exact .string (Selector.isString_of_closeString? isQuote closed)
      | none => exact .openString (Selector.openString_of_not_closed isQuote closed)
  | hash => exact .hash ⟨Text.mem_takeWhile, Text.stops_dropWhile _ _⟩
  | number _ starts numeric => exact stands_of_readNumeric starts numeric
  | word _ noNumber starts word => exact stands_of_readWord noNumber starts word
  | comparison starts comparison => exact stands_of_readComparison starts comparison
  | delimiter delimits => exact .delimiter delimits
  | dropped => exact .dropped (stranger_of_readSegment read)

/-! ## Failures -/

/-- The reader of segments fails only on integers that are too long. -/
theorem tooLong_of_readSegment {character : Char} {rest : Text} {failure : NumeralTooLong}
    (failed : readSegment character rest = .error failure) :
    TooLong (character :: rest) failure := by
  have noValue : startsNumber character rest = true ∧
      (splitNumber (character :: rest)).1.value = .error failure := by
    unfold readSegment at failed
    split at failed
    · cases failed
    split at failed
    · cases failed
    split at failed
    · cases failed
    split at failed
    · cases failed
    split at failed
    · exact ⟨‹_›, Selector.error_of_map failed⟩
    split at failed
    · cases failed
    split at failed
    · cases failed
    split at failed <;> cases failed
  rcases exists_isNumber noValue.1 with ⟨number, shape, isNumber⟩
  rw [shape]
  exact isNumber.tooLong noValue.2

/-- The reader of segments fails on every integer that is too long. -/
theorem TooLong.read {text : Text} {failure : NumeralTooLong} (tooLong : TooLong text failure) :
    ∃ character rest, text = character :: rest ∧ readSegment character rest = .error failure := by
  rcases tooLong.exists_isNumber with ⟨written, number, after, rfl, isNumber, noValue⟩
  rcases isNumber.read with ⟨character, rest, shape, read⟩
  rw [noValue] at read
  exact ⟨character, rest, shape, read⟩

/-! ## Where runs end -/

theorem not_isIdentifierCharacter_of_startsComparison {character : Char}
    (starts : startsComparison character = true) : isIdentifierCharacter character = false := by
  simp only [startsComparison, Bool.or_eq_true, decide_eq_true_eq] at starts
  rcases starts with (rfl | rfl) | rfl <;> decide

theorem not_isIdentifierCharacter_of_isDelimiter {character : Char}
    (delimits : isDelimiter character = true) : isIdentifierCharacter character = false := by
  simp only [isDelimiter, Bool.or_eq_true, decide_eq_true_eq] at delimits
  rcases delimits with (((rfl | rfl) | rfl) | rfl) | rfl <;> decide

theorem not_isIdentifierCharacter_of_isQuote {character : Char}
    (isQuote : Text.isQuote character = true) : isIdentifierCharacter character = false := by
  simp only [Text.isQuote, Bool.or_eq_true, decide_eq_true_eq] at isQuote
  rcases isQuote with rfl | rfl <;> decide

/-- Behind a segment that ends in an identifier character there is no other one. -/
theorem Stands.stops {segment : Segment} {after front : Text} {last : Char}
    (stands : Stands segment after) (ends : segment.source = front ++ [last])
    (inRun : isIdentifierCharacter last = true) : Text.Stops isIdentifierCharacter after := by
  -- Where a segment ends in a character outside of identifiers, nothing is to be shown.
  have outside {other : Char} (notInRun : isIdentifierCharacter other = false) (text : Text)
      (shape : segment.source = text ++ [other]) : Text.Stops isIdentifierCharacter after := by
    rw [ends] at shape
    rw [List.singleton_inj.1 (List.append_inj_right' shape rfl), notInRun] at inRun
    contradiction
  cases stands with
  | blank _ white _ =>
      have member : last ∈ front ++ [last] := by simp
      rw [← ends] at member
      rw [not_isIdentifierCharacter_of_isSpace (white last member)] at inRun
      contradiction
  | dropped stranger => exact outside stranger.noIdentifier [] rfl
  | atName longest => exact longest.stops
  | hash longest => exact longest.stops
  | logical _ _ stops => exact stops
  | identifier _ _ stops => exact stops
  | comparison compares =>
      cases compares with
      | single isSign =>
          exact outside (not_isIdentifierCharacter_of_startsComparison isSign) [] rfl
      | @double sign _ _ =>
          have equals : isIdentifierCharacter '=' = false := by decide
          exact outside equals [sign] rfl
  | delimiter delimits =>
      exact outside (not_isIdentifierCharacter_of_isDelimiter delimits) [] rfl
  | string isString =>
      cases isString with
      | between isQuote => exact outside (not_isIdentifierCharacter_of_isQuote isQuote) _ rfl
  | openString => exact Text.stops_nil _
  | @number _ _ _ number _ _ isNumber isMeasure hasValue =>
      cases isMeasure with
      | none alone =>
          intro character member
          have noDigit := isNumber.noDigit character member
          have noMeasure := alone character member
          rw [startsMeasure, Bool.or_eq_false_iff] at noMeasure
          rw [isIdentifierCharacter, noMeasure.2, noDigit]
          rfl
      | percent =>
          have percent : isIdentifierCharacter '%' = false := by decide
          exact outside percent number rfl
      | unit _ longest => exact longest.stops
  | call =>
      have closing : isIdentifierCharacter ')' = false := by decide
      exact outside closing _ rfl
  | openCall => exact Text.stops_nil _

end CssAuthoring.Prelude
