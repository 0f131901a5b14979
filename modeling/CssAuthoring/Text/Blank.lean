import CssAuthoring.Separated

/-!
# Blank characters

The characters that count as blank space at the ends of a text and between its words: the spaces
and line breaks of Unicode together with the four information separators.  The scanners of
selectors and preludes have smaller sets of their own.

Main statements: `isBlank_of_isWhitespace`, blank space includes the ASCII kind; `trimStart_eq_drop`
and `trim_eq_nil_iff`, what trimming takes away.
-/

namespace CssAuthoring.Text

/-- Whether a character is blank space. -/
def isBlank (character : Char) : Bool :=
  let code := character.toNat
  (9 ≤ code && code ≤ 13) || (28 ≤ code && code ≤ 32) || code == 0x85 || code == 0xa0
    || code == 0x1680 || (0x2000 ≤ code && code ≤ 0x200a) || code == 0x2028 || code == 0x2029
    || code == 0x202f || code == 0x205f || code == 0x3000

/-- A text without the blank space at its start. -/
def trimStart (text : Text) : Text :=
  text.dropWhile isBlank

/-- A text without the blank space at its end. -/
def trimEnd (text : Text) : Text :=
  (text.reverse.dropWhile isBlank).reverse

/-- A text without the blank space at either end. -/
def trim (text : Text) : Text :=
  trimEnd (trimStart text)

/-- The words of a text: its maximal runs without blank space. -/
def words (text : Text) : List Text :=
  Separated.groups isBlank text

/-- A text with every run of blank space made a single space, and none at the ends. -/
def collapse (text : Text) : Text :=
  List.intercalate [' '] (words text)

theorem isBlank_of_isWhitespace {character : Char} (white : character.isWhitespace) :
    isBlank character := by
  simp only [Char.isWhitespace, Bool.or_eq_true, decide_eq_true_eq] at white
  rcases white with ((rfl | rfl) | rfl) | rfl <;> decide

theorem trimStart_eq_drop (text : Text) :
    trimStart text = text.drop (text.takeWhile isBlank).length := by
  unfold trimStart
  induction text with
  | nil => rfl
  | cons character rest hypothesis =>
    simp only [List.dropWhile_cons, List.takeWhile_cons]
    split <;> simp_all

theorem length_trimEnd_le (text : Text) : (trimEnd text).length ≤ text.length := by
  have shorter := length_dropWhile_le isBlank text.reverse
  rwa [List.length_reverse, ← List.length_reverse] at shorter

/-- Trimming leaves nothing exactly when all characters are blank. -/
theorem trim_eq_nil_iff (text : Text) :
    trim text = [] ↔ ∀ character ∈ text, isBlank character = true := by
  have drop_nil (list : Text) :
      list.dropWhile isBlank = [] ↔ ∀ character ∈ list, isBlank character = true := by
    induction list with
    | nil => simp
    | cons character rest hypothesis =>
      by_cases blank : isBlank character <;> simp [blank, hypothesis]
  constructor
  · intro nothing
    have allBlank : ∀ character ∈ trimStart text, isBlank character = true := by
      intro character member
      refine (drop_nil (trimStart text).reverse).1 ?_ character (by simpa using member)
      simpa [trim, trimEnd] using nothing
    cases shape : trimStart text with
    | nil => exact (drop_nil text).1 shape
    | cons character rest =>
      have stopped : isBlank character = false := by
        unfold trimStart at shape
        have := List.head?_dropWhile_not isBlank text
        simp_all
      simp [allBlank character (by simp [shape])] at stopped
  · intro allBlank
    simp [trim, trimStart, (drop_nil text).2 allBlank, trimEnd]

end CssAuthoring.Text
