import CssAuthoring.Numeric.Binary64
import CssAuthoring.Text.Blank
import CssAuthoring.Text.Lowercase

/-!
# Reading numbers

The text of a number with an optional fraction and exponent, and the more liberal form in which a
person may write one: blank space around it, a sign, single underscores between digits, decimal
digits of any script, and words for infinity and for what is no number.
-/

namespace CssAuthoring.Numeric

/-- The codes at which ten decimal digits of some script begin. -/
def digitStarts : List Nat :=
  [0x30, 0x660, 0x6f0, 0x7c0, 0x966, 0x9e6, 0xa66, 0xae6, 0xb66, 0xbe6, 0xc66, 0xce6, 0xd66,
    0xde6, 0xe50, 0xed0, 0xf20, 0x1040, 0x1090, 0x17e0, 0x1810, 0x1946, 0x19d0, 0x1a80, 0x1a90,
    0x1b50, 0x1bb0, 0x1c40, 0x1c50, 0xa620, 0xa8d0, 0xa900, 0xa9d0, 0xa9f0, 0xaa50, 0xabf0,
    0xff10, 0x104a0, 0x10d30, 0x11066, 0x110f0, 0x11136, 0x111d0, 0x112f0, 0x11450, 0x114d0,
    0x11650, 0x116c0, 0x11730, 0x118e0, 0x11950, 0x11c50, 0x11d50, 0x11da0, 0x16a60, 0x16ac0,
    0x16b50, 0x1d7ce, 0x1d7d8, 0x1d7e2, 0x1d7ec, 0x1d7f6, 0x1e140, 0x1e2f0, 0x1e950, 0x1fbf0]

/-- The ASCII digit with the value of a decimal digit of any script; other characters stay. -/
def asciiDigit (character : Char) : Char :=
  match digitStarts.find? fun start => start ≤ character.toNat && character.toNat < start + 10 with
  | some start => Char.ofNat (character.toNat - start + '0'.toNat)
  | none => character

/-- The number that `whole.fraction` stands for, scaled by a power of ten. -/
def Binary64.ofParts (negative : Bool) (whole fraction : Text) (power : Int) : Binary64 :=
  .ofDecimal negative (Text.ofDigits 10 (whole ++ fraction)) (power - fraction.length)

/-- Whether a text is made of decimal digits only. -/
def allDigits (text : Text) : Bool :=
  text.all Text.isDigit

/-- A sign at the start of a text, and what follows it. -/
def splitSign : Text → Bool × Text
  | '-' :: rest => (true, rest)
  | '+' :: rest => (false, rest)
  | text => (false, text)

/-- An exponent, which may be missing; nothing else may follow. -/
def readPower? : Text → Option Int
  | [] => some 0
  | mark :: rest =>
    let (negative, digits) := splitSign rest
    if (mark = 'e' || mark = 'E') && !digits.isEmpty && allDigits digits then
      let power : Int := Text.ofDigits 10 digits
      some (if negative then -power else power)
    else none

/-- Digits with an optional fraction and exponent. -/
def readUnsigned? (negative : Bool) (text : Text) : Option Binary64 :=
  let whole := text.takeWhile Text.isDigit
  let afterWhole := text.dropWhile Text.isDigit
  let (fraction, afterFraction) :=
    match afterWhole with
    | '.' :: rest => (rest.takeWhile Text.isDigit, rest.dropWhile Text.isDigit)
    | rest => ([], rest)
  if whole.isEmpty && fraction.isEmpty then none
  else (readPower? afterFraction).map fun power => .ofParts negative whole fraction power

/-- A text without its underscores, each of which has to stand between two digits. -/
def dropUnderscores? (previousIsDigit : Bool) : Text → Option Text
  | [] => some []
  | '_' :: rest =>
    match rest with
    | [] => none
    | next :: _ =>
      if previousIsDigit && Text.isDigit next then dropUnderscores? false rest else none
  | character :: rest =>
    (dropUnderscores? (Text.isDigit character) rest).map (character :: ·)

/-- The number that a person wrote. -/
def Binary64.ofText? (text : Text) : Option Binary64 :=
  let (negative, body) := splitSign ((Text.trim text).map asciiDigit)
  let word := Text.asciiLower body
  if word = "inf".toList ∨ word = "infinity".toList then some (.infinite negative)
  else if word = "nan".toList then some .notANumber
  else (dropUnderscores? false body).bind (readUnsigned? negative)

example : Binary64.ofText? " +1_0.5e1 " = some (.ofDecimal false 105 0) := by decide +kernel
example : Binary64.ofText? "1__0" = none ∧ Binary64.ofText? "." = none := by decide +kernel

end CssAuthoring.Numeric
