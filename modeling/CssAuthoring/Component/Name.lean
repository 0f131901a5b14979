import CssAuthoring.Text.Basic

/-!
# Names in style values

Names of identifiers, functions, units and hashes.  A backslash in a name takes the character after
it literally, or stands for the character with a hexadecimal code.  A name holds the characters that
are meant; writing it puts backslashes where reading it needs them.

Main statements: `readEscape_length` and `readName_length`, a reader leaves no more than it was
given.
-/

namespace CssAuthoring.Component

/-- Whether a character is white space once line breaks are all line feeds. -/
def isSpace (character : Char) : Bool :=
  character = ' ' || character = '\n' || character = '\t'

/-- Whether a character starts a name. -/
def isNameStart (character : Char) : Bool :=
  ('a' ≤ character && character ≤ 'z') || ('A' ≤ character && character ≤ 'Z')
    || character = '_' || 128 ≤ character.toNat

/-- Whether a character stands in names. -/
def isNameCharacter (character : Char) : Bool :=
  isNameStart character || Text.isDigit character || character = '-'

/-- The character that stands for one that cannot be shown. -/
def replacement : Char := '\uFFFD'

/-- The character with a code; a code without a character, or zero, gives the replacement. -/
def ofCode (code : Nat) : Char :=
  if code ≠ 0 ∧ code.isValidChar then Char.ofNat code else replacement

/-- A text without one white space character at its start. -/
def dropSpace : Text → Text
  | character :: rest => if isSpace character then rest else character :: rest
  | [] => []

/-- The character that an escape stands for, given what follows its backslash, and what is left. -/
def readEscape (text : Text) : Char × Text :=
  match (text.take 6).takeWhile Text.isHexDigit, text with
  | [], [] => (replacement, [])
  | [], character :: rest => (character, rest)
  | digits, _ => (ofCode (Text.ofDigits 16 digits), dropSpace (text.drop digits.length))

/-- Whether what follows a backslash lets it start an escape: anything but a line feed. -/
def escapes (rest : Text) : Bool :=
  rest.head? ≠ some '\n'

/-- Whether a name can start at the start of a text. -/
def startsIdentifier (text : Text) : Bool :=
  match text with
  | [] => false
  | '\\' :: rest => escapes rest
  | '-' :: rest =>
    match rest with
    | [] => false
    | '\\' :: after => escapes after
    | next :: _ => isNameStart next || next = '-'
  | character :: _ => isNameStart character

/-- Whether the text of a hash can start at the start of a text. -/
def startsHash (text : Text) : Bool :=
  match text with
  | [] => false
  | '\\' :: rest => escapes rest
  | character :: _ => isNameCharacter character

theorem dropSpace_length (text : Text) : (dropSpace text).length ≤ text.length := by
  unfold dropSpace
  split
  · split <;> simp
  · simp

theorem readEscape_length (text : Text) : (readEscape text).2.length ≤ text.length := by
  unfold readEscape
  split
  · simp
  · simp
  · exact Nat.le_trans (dropSpace_length _) (by simp)

/-- The name at the start of a text, which may be empty, and what follows it. -/
def readName (text : Text) : Text × Text :=
  match text with
  | [] => ([], [])
  | character :: rest =>
    if isNameCharacter character then (character :: (readName rest).1, (readName rest).2)
    else if character = '\\' && escapes rest then
      have := readEscape_length rest
      ((readEscape rest).1 :: (readName (readEscape rest).2).1, (readName (readEscape rest).2).2)
    else ([], character :: rest)
termination_by text.length

theorem readName_length (text : Text) : (readName text).2.length ≤ text.length := by
  fun_induction readName text with
  | case1 => simp
  | case2 character rest stays hypothesis => exact Nat.le_succ_of_le hypothesis
  | case3 character rest stays escape shorter hypothesis =>
    exact Nat.le_trans hypothesis (Nat.le_succ_of_le shorter)
  | case4 => simp

/-- Reading where a name can start takes at least one character. -/
theorem readName_shorter (character : Char) (rest : Text)
    (starts : startsIdentifier (character :: rest) = true ∨ startsHash (character :: rest) = true) :
    (readName (character :: rest)).2.length ≤ rest.length := by
  unfold readName
  split
  · exact readName_length rest
  · split
    · exact Nat.le_trans (readName_length _) (readEscape_length rest)
    · rename_i notName notEscape
      exfalso
      have notStart : isNameStart character = false := by
        cases start : isNameStart character <;> simp_all [isNameCharacter]
      have notDash : character ≠ '-' := by
        rintro rfl
        simp [isNameCharacter] at notName
      by_cases escape : character = '\\'
      · subst escape
        simp_all [startsIdentifier, startsHash]
      · rcases starts with starts | starts
        · unfold startsIdentifier at starts
          split at starts <;> simp_all
        · unfold startsHash at starts
          split at starts <;> simp_all

/-- The written form of a line break inside a name or string; none for other characters. -/
def writeBreak? (character : Char) : Option Text :=
  match character with
  | '\n' => some "\\A "
  | '\r' => some "\\D "
  | '\x0c' => some "\\C "
  | _ => none

/-- The written form of one character of a name. -/
def writeNameCharacter (character : Char) : Text :=
  (writeBreak? character).getD
    (if isNameCharacter character then [character] else ['\\', character])

/-- The written form of a name behind a mark that lets it start with any character. -/
def writeName (name : Text) : Text :=
  name.flatMap writeNameCharacter

/-- The hexadecimal digits of a number in upper case. -/
def hexadecimalUpper (number : Nat) : Text :=
  (Text.hexadecimal 1 number).map Char.toUpper

/-- The written form of a name whose first character must be one that starts a name. -/
def writeStart : Text → Text
  | [] => []
  | character :: rest =>
    (if Text.isDigit character then '\\' :: hexadecimalUpper character.toNat ++ [' ']
      else writeNameCharacter character) ++ writeName rest

/-- The written form of a name that stands alone. -/
def writeIdentifier : Text → Text
  | ['-'] => "\\-"
  | '-' :: '-' :: rest => '-' :: '-' :: writeName rest
  | '-' :: rest => '-' :: writeStart rest
  | name => writeStart name

/-- The written form of a unit, which must not read as the exponent of the number before it. -/
def writeUnit (unit : Text) : Text :=
  match unit with
  | 'e' :: [] | 'E' :: [] => "\\65 "
  | 'e' :: '-' :: rest | 'E' :: '-' :: rest => "\\65 " ++ writeName ('-' :: rest)
  | _ => writeIdentifier unit

end CssAuthoring.Component
