import CssAuthoring.Numeric.Reading
import CssAuthoring.Numeric.Shortest

/-!
# Numerals

The numbers that style authors and scanners handle are integers of any size, or binary64 numbers.
An integer-valued binary64 number is still told apart from the integer, except where values are
compared and where CSS text is written.

Main statement: `plain_int`, the CSS text of an integer is its decimal digits.
-/

namespace CssAuthoring.Numeric

/-- An integer or a binary64 number. -/
inductive Numeral where
  | int (value : Int)
  | float (value : Binary64)
  deriving DecidableEq, Repr

namespace Numeral

/-- The text of a numeral, which tells the two kinds apart. -/
def text : Numeral → Text
  | .int value => Text.integer value
  | .float value => value.text

/-- The CSS text of a numeral: an integer value has no fraction. -/
def plain : Numeral → Text
  | .int value => Text.integer value
  | .float value =>
    match value.toInt? with
    | some whole => Text.integer whole
    | none => value.text

/-- Whether two numerals have the same value. -/
def sameValue : Numeral → Numeral → Bool
  | .int left, .int right => left == right
  | .float left, .float right => left.sameValue right
  | .int left, .float right => right.toInt? == some left
  | .float left, .int right => left.toInt? == some right

@[simp]
theorem plain_int (value : Int) : (Numeral.int value).plain = Text.integer value := rfl

end Numeral

/-- A run of digits longer than the reader of integers accepts, by its length. -/
structure NumeralTooLong where
  digits : Nat
  deriving DecidableEq, Repr

namespace NumeralTooLong

/-- The greatest number of digits in an integer. -/
def limit : Nat := 4300

/-- The message for an integer with too many digits. -/
def message (failure : NumeralTooLong) : Text :=
  "Exceeds the limit (" ++ Text.decimal limit ++
    " digits) for integer string conversion: value has " ++ Text.decimal failure.digits ++
    " digits; use sys.set_int_max_str_digits() to increase the limit"

end NumeralTooLong

/-- The integer that a run of digits with a sign stands for. -/
def readInteger (negative : Bool) (digits : Text) : Except NumeralTooLong Int :=
  if NumeralTooLong.limit < digits.length then .error ⟨digits.length⟩
  else
    let magnitude : Int := Text.ofDigits 10 digits
    .ok (if negative then -magnitude else magnitude)

end CssAuthoring.Numeric
