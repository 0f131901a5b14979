import CssAuthoring.Component.Delimited

/-!
# Component values

The values that preludes and declarations are made of: atoms such as identifiers and numbers,
functions with their arguments, and bracketed blocks.  Flaws in a text stay among the values as
atoms.  Values are written one after the other without anything between them.

Main statement: `textAll_append`, writing goes value by value.
-/

namespace CssAuthoring.Component

/-- The three kinds of brackets. -/
inductive Bracket where
  | round
  | square
  | curly
  deriving DecidableEq, Repr

namespace Bracket

/-- The character that opens a block. -/
def opening : Bracket → Char
  | round => '('
  | square => '['
  | curly => '\x7b'

/-- The character that closes a block. -/
def closing : Bracket → Char
  | round => ')'
  | square => ']'
  | curly => '\x7d'

/-- All brackets. -/
def all : List Bracket := [round, square, curly]

/-- The bracket that a character opens. -/
def ofOpening? (character : Char) : Option Bracket :=
  all.find? fun bracket => bracket.opening = character

/-- The bracket that a character closes. -/
def ofClosing? (character : Char) : Option Bracket :=
  all.find? fun bracket => bracket.closing = character

end Bracket

/-- What can be wrong with the text of a value. -/
inductive Flaw where
  /-- A closing character without the opening one. -/
  | unmatched (bracket : Bracket)
  | brokenString
  | brokenAddress
  /-- The end of the text inside a string or address. -/
  | unclosed
  deriving DecidableEq, Repr

/-- The text that stands for a flaw. -/
def Flaw.text : Flaw → Text
  | unmatched bracket => [bracket.closing]
  | brokenString => "\"[bad string]\n"
  | brokenAddress => "url([bad url])"
  | unclosed => []

/-- A value without values inside. -/
inductive Atom where
  | whitespace (run : Text)
  /-- A range of character codes. -/
  | unicodeRange (first last : Nat)
  | literal (symbol : Text)
  | identifier (name : Text)
  | atKeyword (name : Text)
  /-- A hash, and whether its name could stand alone. -/
  | hash (name : Text) (isIdentifier : Bool)
  | number (written : Text)
  | percentage (written : Text)
  | dimension (written unit : Text)
  | string (value : Text) (closed : Bool)
  | address (value : Text) (closed : Bool)
  | comment (inside : Text)
  | flaw (cause : Flaw)
  deriving DecidableEq, Repr

/-- The written form of a range of character codes. -/
def writeRange (first last : Nat) : Text :=
  if first = last then "U+" ++ hexadecimalUpper first
  else "U+" ++ hexadecimalUpper first ++ '-' :: hexadecimalUpper last

namespace Atom

/-- The written form of an atom. -/
def text : Atom → Text
  | whitespace run => run
  | unicodeRange first last => writeRange first last
  | literal symbol => symbol
  | identifier name => writeIdentifier name
  | atKeyword name => '@' :: writeIdentifier name
  | hash name isIdentifier => '#' :: if isIdentifier then writeIdentifier name else writeName name
  | number written => written
  | percentage written => written ++ ['%']
  | dimension written unit => written ++ writeUnit unit
  | string value closed => writeString value closed
  | address value closed => writeAddress value closed
  | comment inside => "/*" ++ inside ++ "*/".toList
  | flaw cause => cause.text

/-- The name of the kind of an atom. -/
def kind : Atom → Text
  | whitespace _ => "whitespace"
  | unicodeRange _ _ => "unicode-range"
  | literal _ => "literal"
  | identifier _ => "ident"
  | atKeyword _ => "at-keyword"
  | hash _ _ => "hash"
  | number _ => "number"
  | percentage _ => "percentage"
  | dimension _ _ => "dimension"
  | string _ _ => "string"
  | address _ _ => "url"
  | comment _ => "comment"
  | flaw _ => "error"

/-- Whether an atom is white space. -/
def isWhitespace : Atom → Bool
  | whitespace _ => true
  | _ => false

end Atom

/-- A component value. -/
inductive Value where
  | atom (atom : Atom)
  | function (name : Text) (arguments : List Value)
  | block (bracket : Bracket) (content : List Value)
  deriving Repr

namespace Value

/-- The name of the kind of a value. -/
def kind : Value → Text
  | .atom leaf => leaf.kind
  | .function _ _ => "function"
  | .block bracket _ => [bracket.opening, bracket.closing] ++ " block"

/-- Whether a value is white space. -/
def isWhitespace : Value → Bool
  | .atom leaf => leaf.isWhitespace
  | _ => false

mutual

/-- The written form of a value; functions and blocks are always closed. -/
def text : Value → Text
  | .atom leaf => leaf.text
  | .function name arguments => writeIdentifier name ++ '(' :: textAll arguments ++ [')']
  | .block bracket content => bracket.opening :: textAll content ++ [bracket.closing]

/-- The written form of values, one after the other. -/
def textAll : List Value → Text
  | [] => []
  | value :: rest => value.text ++ textAll rest

end

@[simp]
theorem textAll_nil : textAll [] = [] := by
  simp [textAll]

@[simp]
theorem textAll_cons (value : Value) (rest : List Value) :
    textAll (value :: rest) = value.text ++ textAll rest := by
  simp [textAll]

/-- Values are written one after the other. -/
@[simp]
theorem textAll_append (front back : List Value) :
    textAll (front ++ back) = textAll front ++ textAll back := by
  induction front with
  | nil => simp
  | cons value rest hypothesis => simp [hypothesis]

end Value

end CssAuthoring.Component
