import CssAuthoring.Numeric.Written
import CssAuthoring.Prelude.Argument
import CssAuthoring.Prelude.Token
import CssAuthoring.Text.Blank

/-!
# Segments of preludes

A prelude is cut into segments from left to right: runs of white space, tokens, and characters
outside the grammar, which are dropped.  No text is refused for its form; the one failure is an
integer with too many digits.  The tokens of a prelude are those of its segments.

Main statement: `readSegment_source`, the source of a segment followed by what is left is the text.
-/

namespace CssAuthoring.Prelude

open CssAuthoring.Numeric

/-- Whether a character is white space between the tokens of a prelude. -/
def isSpace (character : Char) : Bool :=
  character = ' ' || character = '\t' || character = '\n' || character = '\r'

/-- Whether a character starts an identifier: an ASCII letter, a hyphen or an underscore. -/
def startsIdentifier (character : Char) : Bool :=
  ('a' ≤ character && character ≤ 'z') || ('A' ≤ character && character ≤ 'Z')
    || character = '-' || character = '_'

/-- Whether a character stands in identifiers. -/
def isIdentifierCharacter (character : Char) : Bool :=
  startsIdentifier character || Text.isDigit character

/-- Whether a character is a delimiter. -/
def isDelimiter (character : Char) : Bool :=
  character = '(' || character = ')' || character = ',' || character = ':' || character = '/'

/-- Whether a character starts a comparison. -/
def startsComparison (character : Char) : Bool :=
  character = '<' || character = '>' || character = '='

/-- Whether a word is a logical operator, which is never the name of a function. -/
def isLogical (word : Text) : Bool :=
  word = ['a', 'n', 'd'] || word = ['o', 'r'] || word = ['n', 'o', 't']

/-- Whether the word names a function whose argument is an address. -/
def isUrlName (word : Text) : Bool :=
  word = ['u', 'r', 'l']

/-- A piece of a prelude. -/
inductive Segment where
  | blank (run : Text)
  /-- A token that stands in the text as its content. -/
  | token (found : PreludeToken)
  /-- A function or address, whose argument may begin after white space. -/
  | call (name gap argument : Text) (closing : Closing)
  | dropped (character : Char)
  deriving DecidableEq, Repr

namespace Segment

/-- The token of a segment. -/
def token? : Segment → Option PreludeToken
  | .blank _ => none
  | .token found => some found
  | .call name _ argument _ =>
    let content := name ++ '(' :: argument ++ [')']
    if isUrlName name then some ⟨.url (Text.trim argument), content⟩
    else some ⟨.function name argument, content⟩
  | .dropped _ => none

/-- The text that a segment was read from. -/
def source : Segment → Text
  | .blank run => run
  | .token found => found.content
  | .call name gap argument closing => name ++ gap ++ '(' :: argument ++ closing.text
  | .dropped character => [character]

end Segment

/-- What follows an opening quote up to the closing one or the end, and what is left. -/
def splitString (quote : Char) : Text → Text × Text
  | '\\' :: escaped :: rest =>
    ('\\' :: escaped :: (splitString quote rest).1, (splitString quote rest).2)
  | character :: rest =>
    if character = quote then ([character], rest)
    else (character :: (splitString quote rest).1, (splitString quote rest).2)
  | [] => ([], [])

/-- Whether a number starts with a character, given what follows it. -/
def startsNumber (character : Char) (rest : Text) : Bool :=
  Text.isDigit character ||
    ((character = '-' || character = '+' || character = '.') &&
      match rest with
      | [] => false
      | next :: _ => Text.isDigit next)

/-- What may follow a number directly. -/
inductive Measure where
  | none
  | percent
  | unit (name : Text)
  deriving DecidableEq, Repr

/-- The percent sign or unit at the start of a text, and what follows it. -/
def splitMeasure (text : Text) : Measure × Text :=
  match text with
  | [] => (.none, [])
  | character :: rest =>
    if character = '%' then (.percent, rest)
    else if startsIdentifier character then
      (.unit (text.takeWhile isIdentifierCharacter), text.dropWhile isIdentifierCharacter)
    else (.none, text)

/-- The part of a number with what follows it. -/
def Measure.part (value : Numeral) : Measure → Part
  | .none => .number value
  | .percent => .percentage value
  | .unit name => .dimension value name

/-- The number at the start of a text with its unit or percent sign, and what follows. -/
def readNumeric (text : Text) : Except NumeralTooLong (Segment × Text) :=
  let (written, afterNumber) := splitNumber text
  let (measure, after) := splitMeasure afterNumber
  written.value.map fun value => (.token ⟨measure.part value, Text.before text after⟩, after)

/-- The word at the start of a text, with the argument that may follow it, and what is left. -/
def readWord (text : Text) : Segment × Text :=
  let word := text.takeWhile isIdentifierCharacter
  let rest := text.dropWhile isIdentifierCharacter
  if isLogical word then (.token ⟨.operator word, word⟩, rest)
  else
    match rest.dropWhile isSpace with
    | '(' :: inner =>
      let (argument, closing, after) := readArgument 0 .outside inner
      (.call word (rest.takeWhile isSpace) argument closing, after)
    | _ => (.token ⟨.identifier word, word⟩, rest)

/-- The comparison that starts with a character, and what follows it. -/
def readComparison (character : Char) (rest : Text) : Segment × Text :=
  match rest with
  | '=' :: after =>
    if character = '=' then (.token ⟨.operator ['='], ['=']⟩, rest)
    else (.token ⟨.operator [character, '='], [character, '=']⟩, after)
  | _ => (.token ⟨.operator [character], [character]⟩, rest)

/-- The segment at the start of a text, and what follows it. -/
def readSegment (character : Char) (rest : Text) : Except NumeralTooLong (Segment × Text) :=
  if isSpace character then
    .ok (.blank (character :: rest.takeWhile isSpace), rest.dropWhile isSpace)
  else if character = '@' then
    let name := rest.takeWhile isIdentifierCharacter
    .ok (.token (.canonical (.atName name)), rest.dropWhile isIdentifierCharacter)
  else if Text.isQuote character then
    let (inside, after) := splitString character rest
    .ok (.token (.canonical (.string (character :: inside))), after)
  else if character = '#' then
    let value := rest.takeWhile isIdentifierCharacter
    .ok (.token (.canonical (.hash value)), rest.dropWhile isIdentifierCharacter)
  else if startsNumber character rest then readNumeric (character :: rest)
  else if startsIdentifier character then .ok (readWord (character :: rest))
  else if startsComparison character then .ok (readComparison character rest)
  else if isDelimiter character then .ok (.token (.canonical (.delimiter [character])), rest)
  else .ok (.dropped character, rest)

theorem splitString_append (quote : Char) (text : Text) :
    (splitString quote text).1 ++ (splitString quote text).2 = text := by
  fun_induction splitString quote text <;> simp_all

/-- A number takes at least its first character. -/
theorem splitNumber_shorter (character : Char) (rest : Text)
    (starts : startsNumber character rest = true) :
    (splitNumber (character :: rest)).2.length ≤ rest.length := by
  have behindDigits (text : Text) :
      (splitFraction (text.dropWhile Text.isDigit)).2.length ≤ text.length :=
    Nat.le_trans (splitFraction_suffix _).length_le (Text.length_dropWhile_le _ text)
  change (splitFraction ((splitSign (character :: rest)).2.dropWhile Text.isDigit)).2.length ≤ _
  by_cases sign : character = '-' ∨ character = '+'
  · have unsigned : (splitSign (character :: rest)).2 = rest := by
      rcases sign with rfl | rfl <;> rfl
    rw [unsigned]
    exact behindDigits rest
  · have minus : character ≠ '-' := fun same => sign (.inl same)
    have plus : character ≠ '+' := fun same => sign (.inr same)
    have unsigned : (splitSign (character :: rest)).2 = character :: rest := by
      unfold splitSign
      split <;> simp_all
    rw [unsigned, List.dropWhile_cons]
    by_cases digit : Text.isDigit character = true
    · simp only [digit, if_true]
      exact behindDigits rest
    · simp only [digit, Bool.false_eq_true, if_false]
      have point : character = '.' := by simp_all [startsNumber]
      subst point
      cases rest with
      | nil => simp [startsNumber, digit] at starts
      | cons next more =>
        have nextDigit : Text.isDigit next = true := by
          simpa [startsNumber, digit] using starts
        simp only [splitFraction, nextDigit, if_true]
        exact Text.length_dropWhile_le _ _

theorem splitMeasure_suffix (text : Text) : (splitMeasure text).2 <:+ text := by
  unfold splitMeasure
  split
  · exact List.suffix_refl _
  · split
    · exact List.suffix_cons _ _
    · split
      · exact List.dropWhile_suffix _
      · exact List.suffix_refl _

/-- The source of a number, unit included, and what is left make up the text. -/
theorem readNumeric_source {text after : Text} {segment : Segment}
    (read : readNumeric text = .ok (segment, after)) :
    segment.source ++ after = text ∧ after.length ≤ (splitNumber text).2.length := by
  unfold readNumeric at read
  simp only at read
  cases value : (splitNumber text).1.value with
  | error failure => rw [value] at read; cases read
  | ok number =>
    rw [value] at read
    cases read
    have left := splitMeasure_suffix (splitNumber text).2
    exact ⟨Text.before_append (left.trans (splitNumber_suffix text)), left.length_le⟩

/-- The source of a word, argument included, and what is left make up the text. -/
theorem readWord_source (text : Text) : (readWord text).1.source ++ (readWord text).2 = text := by
  unfold readWord
  simp only
  split
  · simp [Segment.source]
  · split
    · rename_i inner opened
      have argument := readArgument_append 0 .outside inner
      have gap := List.takeWhile_append_dropWhile
        (p := isSpace) (l := text.dropWhile isIdentifierCharacter)
      rw [opened] at gap
      have word := List.takeWhile_append_dropWhile (p := isIdentifierCharacter) (l := text)
      simp only [Segment.source]
      rw [List.append_assoc] at argument
      simp only [List.append_assoc, List.cons_append, argument, gap, word]
    · simp [Segment.source]

theorem readComparison_source (character : Char) (rest : Text) :
    (readComparison character rest).1.source ++ (readComparison character rest).2 =
      character :: rest := by
  fun_cases readComparison character rest <;> simp_all [Segment.source]

/-- A reading that succeeds gives what it says it gives. -/
private theorem parts_of_ok {reading : Segment × Text} {segment : Segment} {after : Text}
    (read : (Except.ok reading : Except NumeralTooLong (Segment × Text)) = .ok (segment, after)) :
    reading.1 = segment ∧ reading.2 = after := by
  cases read
  exact ⟨rfl, rfl⟩

/-- The source of a segment and what is left make up the text. -/
theorem readSegment_source {character : Char} {rest after : Text} {segment : Segment}
    (read : readSegment character rest = .ok (segment, after)) :
    segment.source ++ after = character :: rest := by
  unfold readSegment at read
  split at read
  · cases read; simp [Segment.source]
  split at read
  · rename_i at_sign
    cases read; simp [Segment.source, PreludeToken.canonical, Part.text, at_sign]
  split at read
  · cases read
    simpa [Segment.source, PreludeToken.canonical, Part.text] using
      splitString_append character rest
  split at read
  · rename_i hash
    cases read; simp [Segment.source, PreludeToken.canonical, Part.text, hash]
  split at read
  · exact (readNumeric_source read).1
  split at read
  · obtain ⟨rfl, rfl⟩ := parts_of_ok read
    exact readWord_source _
  split at read
  · obtain ⟨rfl, rfl⟩ := parts_of_ok read
    exact readComparison_source _ _
  split at read
  · cases read; simp [Segment.source, PreludeToken.canonical, Part.text]
  · cases read; simp [Segment.source]

/-- A segment takes at least one character. -/
theorem readSegment_shorter {character : Char} {rest after : Text} {segment : Segment}
    (read : readSegment character rest = .ok (segment, after)) : after.length ≤ rest.length := by
  unfold readSegment at read
  split at read
  · cases read; exact Text.length_dropWhile_le _ _
  split at read
  · cases read; exact Text.length_dropWhile_le _ _
  split at read
  · cases read
    have string := congrArg List.length (splitString_append character rest)
    rw [List.length_append] at string
    omega
  split at read
  · cases read; exact Text.length_dropWhile_le _ _
  split at read
  · rename_i starts
    exact Nat.le_trans (readNumeric_source read).2 (splitNumber_shorter _ _ starts)
  split at read
  · rename_i starts
    obtain ⟨rfl, rfl⟩ := parts_of_ok read
    have stays : isIdentifierCharacter character = true := by simp [isIdentifierCharacter, starts]
    have behind := Text.length_dropWhile_le isIdentifierCharacter rest
    unfold readWord
    simp only [List.dropWhile_cons, stays, if_true]
    split
    · exact behind
    · split
      · rename_i inner opened
        have argument := congrArg List.length (readArgument_append 0 .outside inner)
        have gap := Text.length_lt_of_dropWhile opened
        simp only [List.length_append] at argument
        change (readArgument 0 .outside inner).2.2.length ≤ rest.length
        omega
      · exact behind
  split at read
  · obtain ⟨rfl, rfl⟩ := parts_of_ok read
    fun_cases readComparison character rest <;> simp_all
  split at read
  · cases read; exact Nat.le_refl _
  · cases read; exact Nat.le_refl _

end CssAuthoring.Prelude
