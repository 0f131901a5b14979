import CssAuthoring.Text.Printable

/-!
# Quoted text

The form in which a text is shown inside messages and listings.  Single quotes stand around it,
unless the text has a single quote and no double one.  The quote in use and the backslash are
escaped, and so is every character that cannot be printed.

Main statement: `quoted_plain`, a text without quotes, backslashes and unprintable characters
stands between single quotes as it is.
-/

namespace CssAuthoring.Text

/-- The quote that stands around a text. -/
def quoteFor (text : Text) : Char :=
  if text.contains '\'' && !text.contains '"' then '"' else '\''

/-- The form of one character between the given quotes. -/
def quotedCharacter (quote character : Char) : Text :=
  if character = quote || character = '\\' then ['\\', character]
  else if character = '\t' then ['\\', 't']
  else if character = '\n' then ['\\', 'n']
  else if character = '\r' then ['\\', 'r']
  else if isPrintable character then [character]
  else
    let code := character.toNat
    if code ≤ 0xff then '\\' :: 'x' :: hexadecimal 2 code
    else if code ≤ 0xffff then '\\' :: 'u' :: hexadecimal 4 code
    else '\\' :: 'U' :: hexadecimal 8 code

/-- A text in quotes, with escapes where they are needed. -/
def quoted (text : Text) : Text :=
  let quote := quoteFor text
  quote :: text.flatMap (quotedCharacter quote) ++ [quote]

theorem quoted_plain
    (text : Text)
    (plain : ∀ character ∈ text,
      character ≠ '\'' ∧ character ≠ '\\' ∧ character ≠ '\t' ∧ character ≠ '\n' ∧
        character ≠ '\r' ∧ isPrintable character = true) :
    quoted text = '\'' :: text ++ ['\''] := by
  have noQuote : '\'' ∉ text := fun member => (plain _ member).1 rfl
  have same : text.flatMap (quotedCharacter '\'') = text := by
    clear noQuote
    induction text with
    | nil => rfl
    | cons character rest hypothesis =>
      have here := plain character (by simp)
      simp [quotedCharacter, here, hypothesis fun other member => plain other (by simp [member])]
  simp [quoted, quoteFor, noQuote, same]

end CssAuthoring.Text
