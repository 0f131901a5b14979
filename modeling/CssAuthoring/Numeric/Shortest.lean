import CssAuthoring.Numeric.Binary64

/-!
# The shortest decimal of a binary64 number

Among the decimals that read back as a given number, the one with the fewest digits is written, and
among those the nearest.  The reals that read back as a number form an interval; for one digit, two
digits and so on, the two neighbours of the number on the grid of decimals with so many digits are
tried.  How the digits are laid out is one record value, `Layout.standard`.
-/

namespace CssAuthoring.Numeric

/-- A positive decimal, `digits * 10 ^ exponent`. -/
structure Decimal where
  digits : Nat
  exponent : Int
  deriving DecidableEq, Repr

namespace Binary64

/-- The least power of ten above a positive fraction. -/
def decimalOrder (numerator denominator : Nat) : Int :=
  if denominator ≤ numerator then (Nat.toDigits 10 (numerator / denominator)).length
  else 1 - ((Nat.toDigits 10 ((denominator - 1) / numerator)).length : Int)

/--
A decimal on the grid of multiples of `10 ^ place` that reads back as `mantissa * 2 ^ exponent`, and
is nearest to it among those, if there is one.
-/
def onGrid? (mantissa : Nat) (exponent : Int) (place : Int) : Option Decimal :=
  let narrowBelow := mantissa = Nat.pow 2 52 ∧ leastExponent < exponent
  let scale := Nat.pow 2 exponent.toNat * Nat.pow 10 (-place).toNat
  let step := 4 * Nat.pow 2 (-exponent).toNat * Nat.pow 10 place.toNat
  let value := 4 * mantissa * scale
  let low := (4 * mantissa - if narrowBelow then 1 else 2) * scale
  let high := (4 * mantissa + 2) * scale
  let inside (candidate : Nat) : Bool :=
    if mantissa % 2 = 0 then low ≤ candidate * step && candidate * step ≤ high
    else low < candidate * step && candidate * step < high
  let lower := value / step
  let upper := lower + 1
  match 0 < lower && inside lower, inside upper with
  | false, false => none
  | true, false => some ⟨lower, place⟩
  | false, true => some ⟨upper, place⟩
  | true, true =>
    let twice := (lower + upper) * step
    if twice < 2 * value ∨ (twice = 2 * value ∧ lower % 2 = 1) then some ⟨upper, place⟩
    else some ⟨lower, place⟩

/-- The shortest decimal that reads back as a positive number. -/
def shortest (mantissa : Nat) (exponent : Int) : Decimal :=
  let order := decimalOrder (mantissa * Nat.pow 2 exponent.toNat) (Nat.pow 2 (-exponent).toNat)
  let exact : Decimal :=
    if exponent < 0 then ⟨mantissa * Nat.pow 5 (-exponent).toNat, exponent⟩
    else ⟨mantissa * Nat.pow 2 exponent.toNat, 0⟩
  let shorter := (List.range 17).findSome? fun (count : Nat) =>
    onGrid? mantissa exponent (order - 1 - count)
  shorter.getD exact

end Binary64

/-- How the digits of a number with a fraction are laid out. -/
structure Layout where
  /-- The least power of ten of the first digit that is written without an exponent. -/
  leastPositional : Int
  /-- The greatest power of ten of the first digit that is written without an exponent. -/
  greatestPositional : Int
  /-- The least number of digits in a written exponent. -/
  exponentWidth : Nat

/--
Numbers from a ten-thousandth up to ten quadrillion are written positionally, with at least one
digit after the point; others have a signed exponent of at least two digits.
-/
def Layout.standard : Layout := ⟨-4, 15, 2⟩

/-- The text of significant digits whose first stands for `10 ^ order`. -/
def Layout.write (layout : Layout) (digits : Text) (order : Int) : Text :=
  if order < layout.leastPositional ∨ layout.greatestPositional < order then
    let sign := if order < 0 then '-' else '+'
    let power := Text.decimal order.natAbs
    let fraction := if digits.length ≤ 1 then [] else '.' :: digits.drop 1
    digits.take 1 ++ fraction ++
      'e' :: sign :: (List.replicate (layout.exponentWidth - power.length) '0' ++ power)
  else if order < 0 then
    '0' :: '.' :: (List.replicate (order.natAbs - 1) '0' ++ digits)
  else
    let whole := order.toNat + 1
    if digits.length ≤ whole then
      digits ++ List.replicate (whole - digits.length) '0' ++ ['.', '0']
    else digits.take whole ++ '.' :: digits.drop whole

/-- The text of a decimal, with a point or an exponent as the layout asks. -/
def Layout.writeDecimal (layout : Layout) (decimal : Decimal) : Text :=
  let digits := Text.decimal decimal.digits
  let significant := (digits.reverse.dropWhile (· = '0')).reverse
  layout.write significant (decimal.exponent + digits.length - 1)

/-- The text of a number. -/
def Binary64.text : Binary64 → Text
  | .notANumber => "nan"
  | .infinite negative => if negative then "-inf" else "inf"
  | .finite negative mantissa exponent =>
    let magnitude : Text :=
      if mantissa = 0 then "0.0"
      else Layout.standard.writeDecimal (Binary64.shortest mantissa exponent)
    if negative then '-' :: magnitude else magnitude

example : (Binary64.ofDecimal false 1 (-1)).text = "0.1" := by decide +kernel
example : (Binary64.ofDecimal false 1 23).text = "1e+23" := by decide +kernel
example : (Binary64.ofDecimal true 5 (-324)).text = "-5e-324" := by decide +kernel
example : (Binary64.ofDecimal false 12345678901234567 (-1)).text = "1234567890123456.8" := by
  decide +kernel

end CssAuthoring.Numeric
