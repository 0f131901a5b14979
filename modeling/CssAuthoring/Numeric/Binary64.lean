import CssAuthoring.Text.Basic

/-!
# Binary64 numbers

Numbers with a fraction have 53 significant binary digits.  A finite one is kept as its exact value,
a natural mantissa times a power of two, and all arithmetic on the way in and out is exact; the only
rounding is the one to the nearest representable number, which sends a tie to the even mantissa.

Main statement: `roundQuotient_near`, rounding a quotient is off by at most one half.
-/

namespace CssAuthoring.Numeric

/-- A binary64 number; a finite one is its mantissa times two to its exponent, with a sign. -/
inductive Binary64 where
  | notANumber
  | infinite (negative : Bool)
  | finite (negative : Bool) (mantissa : Nat) (exponent : Int)
  deriving DecidableEq, Repr

namespace Binary64

/-- The exponent of the smallest representable step. -/
def leastExponent : Int := -1074

/-- The greatest exponent of a finite number. -/
def greatestExponent : Int := 971

/-- The integer nearest to a quotient; of two equally near ones the even one. -/
def roundQuotient (numerator denominator : Nat) : Nat :=
  let quotient := numerator / denominator
  let twice := 2 * (numerator % denominator)
  if denominator < twice ∨ (denominator = twice ∧ quotient % 2 = 1) then quotient + 1
  else quotient

/-- A rounded quotient differs from the exact one by at most one half. -/
theorem roundQuotient_near (numerator denominator : Nat) (positive : 0 < denominator) :
    2 * (roundQuotient numerator denominator * denominator) ≤ 2 * numerator + denominator ∧
      2 * numerator ≤ 2 * (roundQuotient numerator denominator * denominator) + denominator := by
  have whole : denominator * (numerator / denominator) + numerator % denominator = numerator :=
    Nat.div_add_mod numerator denominator
  have small : numerator % denominator < denominator := Nat.mod_lt _ positive
  unfold roundQuotient
  simp only
  split
  · rw [Nat.add_mul, Nat.one_mul, Nat.mul_comm (numerator / denominator)]
    omega
  · rw [Nat.mul_comm (numerator / denominator)]
    omega

/-- The power of two that a positive fraction reaches: the greatest one not above it. -/
def binaryOrder (numerator denominator : Nat) : Int :=
  let guess : Int := (numerator.log2 : Int) - denominator.log2
  if denominator * Nat.pow 2 guess.toNat ≤ numerator * Nat.pow 2 (-guess).toNat then guess
  else guess - 1

/-- The number nearest to a fraction. -/
def ofFraction (negative : Bool) (numerator denominator : Nat) : Binary64 :=
  if numerator = 0 then .finite negative 0 leastExponent
  else
    let exponent := max (binaryOrder numerator denominator - 52) leastExponent
    let mantissa :=
      roundQuotient (numerator * Nat.pow 2 (-exponent).toNat)
        (denominator * Nat.pow 2 exponent.toNat)
    let (mantissa, exponent) :=
      if mantissa = Nat.pow 2 53 then (Nat.pow 2 52, exponent + 1) else (mantissa, exponent)
    if greatestExponent < exponent then .infinite negative
    else .finite negative mantissa exponent

/-- The number nearest to `digits * 10 ^ exponent`. -/
def ofDecimal (negative : Bool) (digits : Nat) (exponent : Int) : Binary64 :=
  let order : Int := (Nat.toDigits 10 digits).length + exponent
  if digits = 0 ∨ order < -330 then .finite negative 0 leastExponent
  else if 310 < order then .infinite negative
  else ofFraction negative (digits * Nat.pow 10 exponent.toNat) (Nat.pow 10 (-exponent).toNat)

/-- The value of a number that is an integer. -/
def toInt? : Binary64 → Option Int
  | .notANumber => none
  | .infinite _ => none
  | .finite negative mantissa exponent =>
    let denominator := Nat.pow 2 (-exponent).toNat
    if mantissa % denominator = 0 then
      let magnitude : Int := (mantissa * Nat.pow 2 exponent.toNat / denominator : Nat)
      some (if negative then -magnitude else magnitude)
    else none

/-- Whether two numbers have the same value: both zeros do, and nothing equals what is no number. -/
def sameValue : Binary64 → Binary64 → Bool
  | .infinite negative, .infinite otherNegative => negative == otherNegative
  | .finite negative mantissa exponent, .finite otherNegative otherMantissa otherExponent =>
    (mantissa == 0 && otherMantissa == 0)
      || (negative == otherNegative && mantissa == otherMantissa && exponent == otherExponent)
  | _, _ => false

example : ofDecimal false 15 (-1) = .finite false (3 * 2 ^ 51) (-52) := by decide +kernel
example : ofDecimal false 1 400 = .infinite false := by decide +kernel
example : (ofDecimal true 25 (-1)).toInt? = none := by decide +kernel
example : (ofDecimal true 250 (-1)).toInt? = some (-25) := by decide +kernel

end Binary64

end CssAuthoring.Numeric
