import CssAuthoring.Component.Value
import CssAuthoring.Numeric.Written

/-!
# Lexemes of style values

A text falls into lexemes: atoms, the openings of functions and blocks, and closing characters.  The
kinds are tried in a fixed order, and every character starts some lexeme.  The one failure is an
integer with too many digits.

Main statement: `readLexeme_shorter`, every step takes at least one character.
-/

namespace CssAuthoring.Component

open CssAuthoring.Numeric

/-- What opens a level of nesting. -/
inductive Opening where
  | function (name : Text)
  | block (bracket : Bracket)
  deriving DecidableEq, Repr

/-- A piece of a flat text. -/
inductive Lexeme where
  | atom (atom : Atom)
  | enter (opening : Opening)
  | leave (bracket : Bracket)
  deriving DecidableEq, Repr

/-- What was read, and what is left. -/
abbrev Reading := List Lexeme × Text

/-- A reading of a single atom. -/
def single (atom : Atom) (rest : Text) : Reading :=
  ([.atom atom], rest)

/-- The reading of a string behind its opening quote. -/
def lexString (quote : Char) (text : Text) : Reading :=
  match readString quote text with
  | (value, .closed, rest) => single (.string value true) rest
  | (value, .unclosed, rest) => ([.atom (.string value false), .atom (.flaw .unclosed)], rest)
  | (_, .broken, rest) => single (.flaw .brokenString) rest

/-- The reading of an address behind its opening parenthesis. -/
def lexAddress (text : Text) : Reading :=
  match readAddress (text.dropWhile isSpace) with
  | (value, .closed, rest) => single (.address value true) rest
  | (value, .unclosed, rest) => ([.atom (.address value false), .atom (.flaw .unclosed)], rest)
  | (_, .broken, rest) => single (.flaw .brokenAddress) rest

/-- Whether what follows the parenthesis after `url` is an address rather than arguments. -/
def holdsAddress (text : Text) : Bool :=
  match text.dropWhile isSpace with
  | [] => true
  | character :: _ => !Text.isQuote character

/-- The reading of an identifier, with the parenthesis that may follow it directly. -/
def lexWord (text : Text) : Reading :=
  let name := (readName text).1
  match (readName text).2 with
  | '(' :: inner =>
    if Text.asciiLower name = "url".toList && holdsAddress inner then lexAddress inner
    else ([.enter (.function name)], inner)
  | rest => single (.identifier name) rest

/-- The exponent at the start of a text, and what follows it; a mark without digits is none. -/
def splitExponent (text : Text) : Text × Text :=
  match text with
  | [] => ([], [])
  | mark :: rest =>
    let digits := (splitSign rest).2
    if (mark = 'e' || mark = 'E') && (digits.head?.map Text.isDigit).getD false then
      (Text.before text (digits.dropWhile Text.isDigit), digits.dropWhile Text.isDigit)
    else ([], text)

/-- The length of the number at the start of a text; an integer must not be too long. -/
def splitNumeral (text : Text) : Except NumeralTooLong (Option (Text × Text)) :=
  let (written, afterFraction) := splitNumber text
  if written.whole.isEmpty && written.fraction.isEmpty then .ok none
  else
    let (exponent, rest) := splitExponent afterFraction
    if written.fraction.isEmpty && exponent.isEmpty then
      (readInteger written.negative written.whole).map fun _ => some (Text.before text rest, rest)
    else .ok (some (Text.before text rest, rest))

/-- The reading of what follows a number: a unit, a percent sign, or nothing of the kind. -/
def lexMeasure (written : Text) (rest : Text) : Reading :=
  if startsIdentifier rest then
    single (.dimension written (readName rest).1) (readName rest).2
  else
    match rest with
    | '%' :: after => single (.percentage written) after
    | _ => single (.number written) rest

/-- Whether a range of character codes starts at the start of a text. -/
def startsRange : Text → Bool
  | mark :: '+' :: next :: _ => (mark = 'u' || mark = 'U') && (Text.isHexDigit next || next = '?')
  | _ => false

/-- The reading of a range of character codes behind its plus sign. -/
def lexRange (text : Text) : Reading :=
  let digits := (text.take 6).takeWhile Text.isHexDigit
  let afterDigits := text.drop digits.length
  let marks := (afterDigits.take (6 - digits.length)).takeWhile (· = '?')
  let afterMarks := afterDigits.drop marks.length
  let first := Text.ofDigits 16 (digits ++ marks.map fun _ => '0')
  if !marks.isEmpty then
    single (.unicodeRange first (Text.ofDigits 16 (digits ++ marks.map fun _ => 'F'))) afterMarks
  else
    match afterMarks with
    | '-' :: rest =>
      let last := (rest.take 6).takeWhile Text.isHexDigit
      if last.isEmpty then single (.unicodeRange first first) afterMarks
      else single (.unicodeRange first (Text.ofDigits 16 last)) (rest.drop last.length)
    | _ => single (.unicodeRange first first) afterMarks

/-- Whether an equals sign may follow a character in one literal. -/
def joinsEquals (character : Char) : Bool :=
  character = '~' || character = '|' || character = '^' || character = '$' || character = '*'

/-- The reading of the signs that stand for themselves. -/
def lexSign (character : Char) (rest : Text) : Reading :=
  match character, rest with
  | '<', '!' :: '-' :: '-' :: after => single (.literal "<!--") after
  | '|', '|' :: after => single (.literal "||") after
  | _, '=' :: after =>
    if joinsEquals character then single (.literal [character, '=']) after
    else single (.literal [character]) rest
  | _, _ => single (.literal [character]) rest

/-- The reading of everything that starts with a mark of its own. -/
def lexMark (character : Char) (rest : Text) : Reading :=
  match character, rest with
  | '@', _ =>
    if startsIdentifier rest then single (.atKeyword (readName rest).1) (readName rest).2
    else single (.literal ['@']) rest
  | '#', _ =>
    if startsHash rest then
      single (.hash (readName rest).1 (startsIdentifier rest)) (readName rest).2
    else single (.literal ['#']) rest
  | '/', '*' :: inner => single (.comment (readComment inner).1) (readComment inner).2
  | _, _ =>
    if Text.isQuote character then lexString character rest
    else
      match Bracket.ofOpening? character, Bracket.ofClosing? character with
      | some bracket, _ => ([.enter (.block bracket)], rest)
      | none, some bracket => ([.leave bracket], rest)
      | none, none => lexSign character rest

/-- The lexemes at the start of a text, and what follows them. -/
def readLexeme (character : Char) (rest : Text) : Except NumeralTooLong Reading :=
  if isSpace character then
    .ok (single (.whitespace (character :: rest.takeWhile isSpace)) (rest.dropWhile isSpace))
  else if startsRange (character :: rest) then .ok (lexRange (rest.drop 1))
  else if "-->".toList.isPrefixOf (character :: rest) then
    .ok (single (.literal "-->") (rest.drop 2))
  else if startsIdentifier (character :: rest) then .ok (lexWord (character :: rest))
  else
    (splitNumeral (character :: rest)).map fun number =>
      match number with
      | some (written, after) => lexMeasure written after
      | none => lexMark character rest

theorem lexString_length (quote : Char) (text : Text) :
    (lexString quote text).2.length ≤ text.length := by
  have string := readString_length quote text
  unfold lexString
  split <;> simp_all [single]

theorem lexAddress_length (text : Text) : (lexAddress text).2.length ≤ text.length := by
  have address :=
    Nat.le_trans (readAddress_length _) (Text.length_dropWhile_le isSpace text)
  unfold lexAddress
  split <;> simp_all [single]

theorem lexWord_shorter (character : Char) (rest : Text)
    (starts : startsIdentifier (character :: rest) = true) :
    (lexWord (character :: rest)).2.length ≤ rest.length := by
  have name := readName_shorter character rest (.inl starts)
  unfold lexWord
  simp only
  split
  · rename_i inner shape
    rw [shape, List.length_cons] at name
    split
    · exact Nat.le_trans (lexAddress_length inner) (Nat.le_of_succ_le name)
    · exact Nat.le_of_succ_le name
  · exact name

theorem splitExponent_length (text : Text) : (splitExponent text).2.length ≤ text.length := by
  unfold splitExponent
  split
  · simp
  · rename_i mark rest
    have sign := (splitSign_suffix rest).length_le
    have digits := Text.length_dropWhile_le Text.isDigit (splitSign rest).2
    simp only
    split
    · simp only [List.length_cons]; omega
    · simp

/-- A number takes some of the text. -/
theorem splitNumeral_shorter {text written after : Text}
    (read : splitNumeral text = .ok (some (written, after))) : after.length < text.length := by
  unfold splitNumeral at read
  simp only at read
  split at read
  · cases read
  · rename_i filled
    have number : (splitNumber text).2.length < text.length := by
      apply splitNumber_shorter
      simp only [Bool.and_eq_true, List.isEmpty_iff] at filled
      by_cases whole : (splitNumber text).1.whole = []
      · exact .inr fun fraction => filled ⟨whole, fraction⟩
      · exact .inl whole
    have exponent := splitExponent_length (splitNumber text).2
    have rest : (splitExponent (splitNumber text).2).2 = after := by
      split at read
      · generalize readInteger _ _ = value at read
        cases value with
        | error failure => cases read
        | ok whole => cases read; rfl
      · cases read; rfl
    rw [← rest]
    omega

theorem lexMeasure_length (written rest : Text) :
    (lexMeasure written rest).2.length ≤ rest.length := by
  unfold lexMeasure
  split
  · exact readName_length rest
  · split <;> simp [single]

theorem lexRange_length (text : Text) : (lexRange text).2.length ≤ text.length := by
  unfold lexRange
  simp only
  split
  · simp only [single, List.length_drop]; omega
  · split
    · rename_i rest shape
      have here := congrArg List.length shape
      simp only [List.length_drop, List.length_cons] at here
      split <;> simp only [single, List.length_drop] <;> omega
    · simp only [single, List.length_drop]; omega

theorem lexSign_length (character : Char) (rest : Text) :
    (lexSign character rest).2.length ≤ rest.length := by
  unfold lexSign
  split
  · simp [single]; omega
  · simp [single]
  · split <;> simp [single]
  · simp [single]

theorem lexMark_length (character : Char) (rest : Text) :
    (lexMark character rest).2.length ≤ rest.length := by
  unfold lexMark
  split
  · split
    · exact readName_length rest
    · simp [single]
  · split
    · exact readName_length rest
    · simp [single]
  · exact Nat.le_succ_of_le (readComment_length _)
  · split
    · exact lexString_length _ _
    · split
      · simp
      · simp
      · exact lexSign_length _ _

/-- Every step takes at least one character. -/
theorem readLexeme_shorter {character : Char} {rest after : Text} {lexemes : List Lexeme}
    (read : readLexeme character rest = .ok (lexemes, after)) : after.length ≤ rest.length := by
  have left {reading : Reading} {bound : Nat} (short : reading.2.length ≤ bound)
      (found : (Except.ok reading : Except NumeralTooLong Reading) = .ok (lexemes, after)) :
      after.length ≤ bound := by
    cases found
    exact short
  unfold readLexeme at read
  split at read
  · exact left (Text.length_dropWhile_le _ _) read
  split at read
  · exact left (Nat.le_trans (lexRange_length _) (by simp)) read
  split at read
  · exact left (by simp [single]) read
  split at read
  · rename_i starts
    exact left (lexWord_shorter _ _ starts) read
  · cases number : splitNumeral (character :: rest) with
    | error failure => rw [number] at read; cases read
    | ok found =>
      rw [number] at read
      cases found with
      | none => exact left (lexMark_length _ _) read
      | some pair =>
        have shorter : pair.2.length < (character :: rest).length := splitNumeral_shorter number
        exact left (Nat.le_trans (lexMeasure_length _ _) (Nat.le_of_lt_succ shorter)) read

end CssAuthoring.Component
