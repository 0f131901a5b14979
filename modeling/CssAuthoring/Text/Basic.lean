/-!
# Text

Everything this library reads or writes is a list of Unicode characters.  Scanning is then recursion
on a list, a position is a length, and what is left to read is a suffix.  Strings appear only in the
outermost layer, which converts them.

Main statement: `before_append`, what was read of a text followed by what is left is the text.
-/

namespace CssAuthoring

/-- A text, as the list of its characters. -/
abbrev Text := List Char

instance : Coe String Text := ⟨String.toList⟩

namespace Text

/-- The part of `text` that was read when `rest` is what is left of it. -/
def before (text rest : Text) : Text :=
  text.take (text.length - rest.length)

/-- What was read, followed by what is left, is the whole text. -/
theorem before_append {text rest : Text} (left : rest <:+ text) :
    before text rest ++ rest = text := by
  obtain ⟨front, rfl⟩ := left
  simp [before]

@[simp]
theorem before_left (front rest : Text) : before (front ++ rest) rest = front := by
  simp [before]

/-- What stands in front of a text is read together with what is read of the text. -/
theorem before_front {text rest : Text} (left : rest <:+ text) (front : Text) :
    before (front ++ text) rest = front ++ before text rest := by
  conv => lhs; rw [← before_append left]
  rw [← List.append_assoc, before_left]

/-- How many bytes a text takes in a file name. -/
def byteLength (text : Text) : Nat :=
  text.foldr (fun character count => character.utf8Size + count) 0

theorem length_dropWhile_le (isSkipped : Char → Bool) (text : Text) :
    (text.dropWhile isSkipped).length ≤ text.length :=
  (List.dropWhile_suffix isSkipped).length_le

/-- What stands behind the first character that a scan stops at is shorter than the text. -/
theorem length_lt_of_dropWhile
    {isSkipped : Char → Bool} {text after : Text} {stop : Char}
    (stopped : text.dropWhile isSkipped = stop :: after) : after.length < text.length := by
  have bound := (List.dropWhile_sublist isSkipped (l := text)).length_le
  rw [stopped] at bound
  exact bound

/-- The decimal digits of a natural number, without leading zeros. -/
def decimal (number : Nat) : Text :=
  Nat.toDigits 10 number

/-- The decimal digits of an integer, after a minus sign if it is negative. -/
def integer : Int → Text
  | .ofNat number => decimal number
  | .negSucc number => '-' :: decimal (number + 1)

/-- The hexadecimal digits of a number in lower case, filled with zeros to at least `width`. -/
def hexadecimal (width number : Nat) : Text :=
  let digits := Nat.toDigits 16 number
  List.replicate (width - digits.length) '0' ++ digits

/-- Whether a character is one of the digits `0` to `9`. -/
def isDigit (character : Char) : Bool :=
  '0' ≤ character && character ≤ '9'

/-- Whether a character opens and closes a string. -/
def isQuote (character : Char) : Bool :=
  character = '"' || character = '\''

/-- Whether a character is a hexadecimal digit of either case. -/
def isHexDigit (character : Char) : Bool :=
  isDigit character || ('a' ≤ character && character ≤ 'f')
    || ('A' ≤ character && character ≤ 'F')

/-- The value of a hexadecimal digit; zero for any other character. -/
def hexValue (character : Char) : Nat :=
  if isDigit character then character.toNat - '0'.toNat
  else if 'a' ≤ character && character ≤ 'f' then character.toNat - 'a'.toNat + 10
  else if 'A' ≤ character && character ≤ 'F' then character.toNat - 'A'.toNat + 10
  else 0

/-- The number that a list of digits stands for in a given base, most significant digit first. -/
def ofDigits (base : Nat) (digits : Text) : Nat :=
  digits.foldl (fun number digit => base * number + hexValue digit) 0

/-- Lower case for the letters `A` to `Z`; every other character stays. -/
def asciiLower (text : Text) : Text :=
  text.map fun character =>
    if 'A' ≤ character && character ≤ 'Z' then Char.ofNat (character.toNat + 32) else character

/-- Fills a text with spaces on the right up to a width. -/
def padded (width : Nat) (text : Text) : Text :=
  text ++ List.replicate (width - text.length) ' '

example : integer (-40) = "-40" := by decide
example : hexadecimal 4 0x3b1 = "03b1" := by decide
example : ofDigits 16 "1F" = 31 := by decide

end Text

end CssAuthoring
