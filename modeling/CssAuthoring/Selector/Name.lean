import CssAuthoring.Text.Basic

/-!
# Names in selectors

A name is a run of units.  A unit is an ASCII letter or digit, an underscore, a hyphen, a character
outside ASCII, or a backslash with the character after it, which stays in the name as written.

Main statements: `splitName_append`, nothing is lost when a name is read; `startsName_iff`, a name
starts exactly where reading one yields some text.
-/

namespace CssAuthoring.Selector

/-- Whether a character is white space between the parts of a selector. -/
def isSpace (character : Char) : Bool :=
  character = ' ' || character = '\t' || character = '\n' || character = '\r'
    || character = '\x0c'

/-- Whether a character is an ASCII letter or digit, or an underscore. -/
def isWordCharacter (character : Char) : Bool :=
  ('a' ≤ character && character ≤ 'z') || ('A' ≤ character && character ≤ 'Z')
    || ('0' ≤ character && character ≤ '9') || character = '_'

/-- Whether a character stands in names without a backslash. -/
def isNameCharacter (character : Char) : Bool :=
  isWordCharacter character || character = '-' || 128 ≤ character.toNat

/-- A text without the white space at its start. -/
def skipSpace (text : Text) : Text :=
  text.dropWhile isSpace

/-- Whether a name starts a text; a backslash at the very end starts none. -/
def startsName : Text → Bool
  | '\\' :: _ :: _ => true
  | character :: _ => isNameCharacter character
  | [] => false

/-- The longest name at the start of a text, and what follows it. -/
def splitName : Text → Text × Text
  | '\\' :: escaped :: rest =>
    ('\\' :: escaped :: (splitName rest).1, (splitName rest).2)
  | character :: rest =>
    if isNameCharacter character then (character :: (splitName rest).1, (splitName rest).2)
    else ([], character :: rest)
  | [] => ([], [])

/-- The name that was read, followed by what is left, is the text. -/
@[simp]
theorem splitName_append (text : Text) : (splitName text).1 ++ (splitName text).2 = text := by
  fun_induction splitName text <;> simp_all

theorem splitName_suffix (text : Text) : (splitName text).2 <:+ text :=
  ⟨_, splitName_append text⟩

/-- A name is what was read of the text when it is split off. -/
@[simp]
theorem before_splitName (text : Text) :
    Text.before text (splitName text).2 = (splitName text).1 := by
  simpa using Text.before_left (splitName text).1 (splitName text).2

theorem splitName_length (text : Text) :
    (splitName text).1.length + (splitName text).2.length = text.length := by
  rw [← List.length_append, splitName_append]

/-- A name starts a text exactly if reading one yields some of it. -/
theorem startsName_iff (text : Text) : startsName text = true ↔ (splitName text).1 ≠ [] := by
  fun_cases startsName text <;> simp_all [splitName]
  split <;> simp_all

/-- What follows a name does not start another one. -/
theorem not_startsName_splitName (text : Text) : startsName (splitName text).2 = false := by
  fun_induction splitName text with
  | case1 escaped rest hypothesis => exact hypothesis
  | case2 character rest notEscape name hypothesis => exact hypothesis
  | case3 character rest notEscape stop => 
    unfold startsName
    split <;> simp_all
  | case4 => rfl

theorem skipSpace_suffix (text : Text) : skipSpace text <:+ text :=
  List.dropWhile_suffix isSpace

end CssAuthoring.Selector
