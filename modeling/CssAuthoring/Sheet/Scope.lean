import CssAuthoring.Component.Parse
import CssAuthoring.Prelude.Scan
import CssAuthoring.Sheet.Failure
import CssAuthoring.Text.Lowercase

/-!
# Scopes

A scope is an at-rule as an author names it: a keyword and a prelude.  The prelude may repeat the
keyword at its start.  Two scopes with the same keyword up to case are the same block if their
preludes agree as tokens, once both are read as style values and written back.

Main statement: `heading_text`, the text of a heading is collapsed.
-/

namespace CssAuthoring.Sheet

open CssAuthoring.Component
open CssAuthoring.Numeric

/-- An at-rule as its author names it. -/
structure Scope where
  keyword : Text
  prelude : Text
  deriving DecidableEq, Repr

/-- The keyword at the start of the tokens of a prelude, with its text. -/
def leadingKeyword? : List PreludeToken → Option (Text × Text)
  | ⟨.atName name, content⟩ :: _ => some (name, content)
  | _ => none

/-- A prelude without the keyword it may begin with, and with single spaces. -/
def Scope.text (scope : Scope) : Except Failure Text :=
  let trimmed := Text.trim scope.prelude
  match Prelude.tokenize trimmed with
  | .error failure => .error (.numeral failure)
  | .ok tokens =>
    match leadingKeyword? tokens with
    | none => .ok (Text.collapse trimmed)
    | some (name, content) =>
      if Text.lower name = Text.lower scope.keyword then
        .ok (Text.collapse (trimmed.drop content.length))
      else .error (.style (.mismatchedAtRule scope.keyword))

/-- The form of a prelude by which at-rules are merged. -/
def preludeKey (values : List Value) : Except NumeralTooLong Text :=
  Prelude.normalize (Value.textAll values)

/-- What an at-rule of a stylesheet is made from. -/
structure Heading where
  text : Text
  values : List Value
  key : Text
  deriving Repr

/-- The heading of a scope. -/
def Scope.heading (scope : Scope) : Except Failure Heading :=
  match scope.text with
  | .error failure => .error failure
  | .ok text =>
    match parse text with
    | .error failure => .error (.numeral failure)
    | .ok values =>
      match preludeKey values with
      | .error failure => .error (.numeral failure)
      | .ok key => .ok ⟨text, values, key⟩

/-- The text of a heading is that of the scope, and its values are what the text holds. -/
theorem heading_text {scope : Scope} {heading : Heading} (found : scope.heading = .ok heading) :
    scope.text = .ok heading.text ∧ parse heading.text = .ok heading.values ∧
      preludeKey heading.values = .ok heading.key := by
  unfold Scope.heading at found
  split at found
  · contradiction
  · rename_i text shown
    split at found
    · contradiction
    · rename_i values parsed
      split at found
      · contradiction
      · rename_i key keyed
        cases found
        exact ⟨shown, parsed, keyed⟩

end CssAuthoring.Sheet
