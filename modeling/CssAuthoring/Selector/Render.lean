import CssAuthoring.Selector.Tokenize
import CssAuthoring.Separated

/-!
# Writing selectors

Tokens are written one after the other.  A combinator stands between single spaces, the descendant
combinator is a single space, a comma is followed by one, and every other token is its content.  A
selector list is its complex selectors with commas between them.

Main statements: `render_append`, writing goes token by token; `flatten_groups`, the complex
selectors hold all tokens but the commas.
-/

namespace CssAuthoring.Selector

/-- A token as it stands in a written selector. -/
def spaced (token : SelectorToken) : Text :=
  match token.part with
  | .combinator =>
    match Text.trim token.content with
    | [] => [' ']
    | symbol => ' ' :: symbol ++ [' ']
  | .comma => [',', ' ']
  | _ => token.content

/-- The written form of a selector. -/
def render (tokens : List SelectorToken) : Text :=
  tokens.flatMap spaced

/-- The written form of the selector that a text holds. -/
def normalize (selector : Text) : Except Error Text :=
  (tokenize selector).map render

/-- The complex selectors of a selector list; empty ones are left out. -/
def groups (tokens : List SelectorToken) : List (List SelectorToken) :=
  Separated.groups SelectorToken.isComma tokens

/-- The selector list with the given complex selectors. -/
def join (complexes : List (List SelectorToken)) : List SelectorToken :=
  Separated.join .comma complexes

@[simp]
theorem render_append (front back : List SelectorToken) :
    render (front ++ back) = render front ++ render back := by
  simp [render]

/-- The complex selectors of a list hold all its tokens but the commas. -/
theorem flatten_groups (tokens : List SelectorToken) :
    (groups tokens).flatten = tokens.filter fun token => !token.isComma :=
  Separated.flatten_groups tokens

end CssAuthoring.Selector
