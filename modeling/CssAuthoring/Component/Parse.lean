import CssAuthoring.Component.Lexeme

/-!
# Parsing style values

A text is first made uniform: every line break is a line feed and no character is the null
character.  Then it is cut into lexemes, and these are put together: the openings that are still
open wait on a stack, a closing character ends the innermost one if it fits and is a flaw otherwise,
and the end of the text closes whatever is open.

Main statements: `close_nil`, without openings the values are as collected; `parse_nil`, an empty
text has no values.
-/

namespace CssAuthoring.Component

open CssAuthoring.Numeric

/-- A text whose line breaks are line feeds and which has no null character. -/
def uniform : Text → Text
  | '\r' :: '\n' :: rest => '\n' :: uniform rest
  | character :: rest =>
    (if character = '\r' || character = '\x0c' then '\n'
      else if character = '\x00' then replacement
      else character) :: uniform rest
  | [] => []

/-- The lexemes of a uniform text. -/
def lexemes (text : Text) : Except NumeralTooLong (List Lexeme) :=
  match text with
  | [] => .ok []
  | character :: rest =>
    match read : readLexeme character rest with
    | .error failure => .error failure
    | .ok (first, after) =>
      have := readLexeme_shorter read
      (lexemes after).map (first ++ ·)
termination_by text.length

/-- Whether a lexeme is a comment. -/
def Lexeme.isComment : Lexeme → Bool
  | .atom (.comment _) => true
  | _ => false

namespace Opening

/-- The bracket that ends what was opened. -/
def bracket : Opening → Bracket
  | .function _ => .round
  | .block bracket => bracket

/-- The value that was opened, with what it holds. -/
def enclose (opening : Opening) (content : List Value) : Value :=
  match opening with
  | .function name => .function name content
  | .block bracket => .block bracket content

end Opening

/-- An opening that waits for its end, and the values before it, the latest first. -/
structure Pending where
  opening : Opening
  before : List Value
  deriving Repr

/-- Ends the innermost opening, given the values it holds, the latest first. -/
def Pending.finish (pending : Pending) (content : List Value) : List Value :=
  pending.opening.enclose content.reverse :: pending.before

/-- Ends all openings at the end of the text. -/
def close : List Pending → List Value → List Value
  | [], collected => collected.reverse
  | innermost :: outer, collected => close outer (innermost.finish collected)

/-- Puts lexemes together; the openings wait innermost first, and values are collected backwards. -/
def assemble : List Pending → List Value → List Lexeme → List Value
  | waiting, collected, [] => close waiting collected
  | waiting, collected, .atom leaf :: rest => assemble waiting (.atom leaf :: collected) rest
  | waiting, collected, .enter opening :: rest => assemble (⟨opening, collected⟩ :: waiting) [] rest
  | innermost :: outer, collected, .leave bracket :: rest =>
    if innermost.opening.bracket = bracket then assemble outer (innermost.finish collected) rest
    else assemble (innermost :: outer) (.atom (.flaw (.unmatched bracket)) :: collected) rest
  | [], collected, .leave bracket :: rest =>
    assemble [] (.atom (.flaw (.unmatched bracket)) :: collected) rest

/-- The values of a text, its comments included. -/
def parse (text : Text) : Except NumeralTooLong (List Value) :=
  (lexemes (uniform text)).map (assemble [] [])

/-- The values of a text without its comments. -/
def parseWithoutComments (text : Text) : Except NumeralTooLong (List Value) :=
  (lexemes (uniform text)).map fun found =>
    assemble [] [] (found.filter fun lexeme => !lexeme.isComment)

/-- The written form of the values that a text holds. -/
def rewritten (text : Text) : Except NumeralTooLong Text :=
  (parse text).map Value.textAll

@[simp]
theorem close_nil (collected : List Value) : close [] collected = collected.reverse := rfl

/-- An empty text has no values. -/
theorem parse_nil : parse [] = .ok [] := by
  simp [parse, uniform, lexemes, assemble, Except.map]

end CssAuthoring.Component
