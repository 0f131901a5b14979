import CssAuthoring.Numeric.Numeral

/-!
# Written numbers

A number at the start of a text, taken apart into its sign, its whole digits and the digits of its
fraction.  A point without a digit behind it is no part of the number.  Preludes and style values
share this form.

Main statements: `splitNumber_suffix`, a suffix is left; `splitNumber_shorter`, it is a proper one
if there is any digit.
-/

namespace CssAuthoring.Numeric

/-- A number in its written parts. -/
structure Written where
  negative : Bool
  whole : Text
  fraction : Text
  deriving DecidableEq, Repr

/-- The value of a number; without a fraction it is an integer. -/
def Written.value (written : Written) : Except NumeralTooLong Numeral :=
  if written.fraction.isEmpty then (readInteger written.negative written.whole).map .int
  else .ok (.float (.ofParts written.negative written.whole written.fraction 0))

/-- The digits of a fraction at the start of a text, and what follows; a point alone is none. -/
def splitFraction (text : Text) : Text × Text :=
  match text with
  | '.' :: digit :: rest =>
    if Text.isDigit digit then
      ((digit :: rest).takeWhile Text.isDigit, (digit :: rest).dropWhile Text.isDigit)
    else ([], text)
  | _ => ([], text)

/-- The number at the start of a text in its parts, and what follows it. -/
def splitNumber (text : Text) : Written × Text :=
  let (negative, unsigned) := splitSign text
  let (fraction, rest) := splitFraction (unsigned.dropWhile Text.isDigit)
  (⟨negative, unsigned.takeWhile Text.isDigit, fraction⟩, rest)

theorem splitSign_suffix (text : Text) : (splitSign text).2 <:+ text := by
  fun_cases splitSign text <;> simp [List.suffix_cons]

theorem splitFraction_suffix (text : Text) : (splitFraction text).2 <:+ text := by
  fun_cases splitFraction text
  · exact (List.dropWhile_suffix _).trans (List.suffix_cons _ _)
  · exact List.suffix_refl _
  · exact List.suffix_refl _

theorem splitNumber_suffix (text : Text) : (splitNumber text).2 <:+ text := by
  unfold splitNumber
  exact (splitFraction_suffix _).trans
    ((List.dropWhile_suffix _).trans (splitSign_suffix text))

/-- A fraction that is there takes some of the text. -/
theorem splitFraction_shorter {text : Text} (filled : (splitFraction text).1 ≠ []) :
    (splitFraction text).2.length < text.length := by
  fun_cases splitFraction text with
  | case1 digit rest isDigit =>
    exact Nat.lt_succ_of_le (Text.length_dropWhile_le _ _)
  | case2 digit rest noDigit => simp [splitFraction, noDigit] at filled
  | case3 => simp_all [splitFraction]

/-- A number with any digit takes some of the text. -/
theorem splitNumber_shorter {text : Text}
    (filled : (splitNumber text).1.whole ≠ [] ∨ (splitNumber text).1.fraction ≠ []) :
    (splitNumber text).2.length < text.length := by
  have sign := (splitSign_suffix text).length_le
  have digits := congrArg List.length
    (List.takeWhile_append_dropWhile (p := Text.isDigit) (l := (splitSign text).2))
  rw [List.length_append] at digits
  have fraction := (splitFraction_suffix ((splitSign text).2.dropWhile Text.isDigit)).length_le
  change (splitFraction ((splitSign text).2.dropWhile Text.isDigit)).2.length < text.length
  rcases filled with whole | part
  · have positive : 0 < ((splitSign text).2.takeWhile Text.isDigit).length :=
      List.length_pos_iff.2 whole
    omega
  · have shorter : (splitFraction ((splitSign text).2.dropWhile Text.isDigit)).2.length <
        ((splitSign text).2.dropWhile Text.isDigit).length := splitFraction_shorter part
    omega

end CssAuthoring.Numeric
