import CssAuthoring.Token.Any

/-!
# Listings of tokens

Tokens are listed one to a line, by kind and content, or as a JSON array of objects.  JSON text is
made of printable ASCII characters only.

Main statement: `escaped_plain`, a plain character stands for itself in JSON.
-/

namespace CssAuthoring.CommandLine

/-- The width of the column of kinds. -/
def kindWidth : Nat := 15

/-- The line for a token. -/
def line (token : AnyToken) : Text :=
  Text.padded kindWidth token.description.kind ++ ' ' :: Text.quoted token.content ++ ['\n']

/-- Whether a character stands for itself in JSON. -/
def isPlain (character : Char) : Bool :=
  ' ' ≤ character && character ≤ '~' && character ≠ '"' && character ≠ '\\'

/-- A unit of sixteen bits as an escape. -/
def escapedUnit (unit : Nat) : Text :=
  '\\' :: 'u' :: Text.hexadecimal 4 unit

/-- A character in JSON; beyond the sixteen-bit codes it is a pair of units. -/
def escaped (character : Char) : Text :=
  let code := character.toNat
  if isPlain character then [character]
  else
    match character with
    | '"' => ['\\', '"']
    | '\\' => ['\\', '\\']
    | '\n' => ['\\', 'n']
    | '\r' => ['\\', 'r']
    | '\t' => ['\\', 't']
    | '\x08' => ['\\', 'b']
    | '\x0c' => ['\\', 'f']
    | _ =>
      if code < 0x10000 then escapedUnit code
      else
        escapedUnit (0xd800 + (code - 0x10000) / 0x400) ++
          escapedUnit (0xdc00 + (code - 0x10000) % 0x400)

/-- A text in JSON. -/
def jsonText (text : Text) : Text :=
  '"' :: text.flatMap escaped ++ ['"']

/-- A numeral in JSON. -/
def jsonNumeral : Numeric.Numeral → Text
  | .int value => Text.integer value
  | .float .notANumber => "NaN"
  | .float (.infinite negative) => if negative then "-Infinity" else "Infinity"
  | .float value => value.text

/-- A field in JSON. -/
def jsonField : FieldValue → Text
  | .text value => jsonText value
  | .numeral value => jsonNumeral value

/-- A line break and the spaces of a depth. -/
def lineBreak (depth : Nat) : Text :=
  '\n' :: List.replicate (2 * depth) ' '

/-- Items of JSON on lines of their own, between two brackets; nothing stands in an empty pair. -/
def jsonGroup (opening closing : Char) (depth : Nat) (items : List Text) : Text :=
  match items with
  | [] => [opening, closing]
  | _ =>
    opening :: lineBreak (depth + 1) ++
      List.intercalate (',' :: lineBreak (depth + 1)) items ++ lineBreak depth ++ [closing]

/-- A token in JSON. -/
def jsonToken (token : AnyToken) : Text :=
  let description := token.description
  let fields := (("type".toList, FieldValue.text description.kind) :: description.fields) ++
    [("content".toList, .text token.content)]
  jsonGroup '\x7b' '\x7d' 1 (fields.map fun (name, value) =>
    jsonText name ++ ": ".toList ++ jsonField value)

/-- Tokens in JSON. -/
def jsonTokens (tokens : List AnyToken) : Text :=
  jsonGroup '[' ']' 0 (tokens.map jsonToken)

/-- A plain character stands for itself in JSON. -/
theorem escaped_plain (character : Char) (plain : isPlain character = true) :
    escaped character = [character] := by
  simp [escaped, plain]

end CssAuthoring.CommandLine
