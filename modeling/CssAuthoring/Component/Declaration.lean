import CssAuthoring.Component.Parse
import CssAuthoring.Text.Blank

/-!
# Declarations

A declaration is an identifier, a colon and a value, around which white space may stand.  Its value
is everything behind the colon, apart from `!important` at the end.  A value that puts a block in
curly brackets behind other content would read as a rule, so it makes no declaration.

Main statement: `splitImportant_value`, the value of a declaration is the start of what was given.
-/

namespace CssAuthoring.Component

open CssAuthoring.Numeric

/-- A property with its value. -/
structure Declaration where
  name : Text
  value : List Value
  important : Bool
  deriving Repr

/-- How far the mark of importance has been read. -/
inductive Importance where
  | none
  /-- An exclamation mark, after so many values. -/
  | mark (position : Nat)
  /-- The whole mark, which started after so many values. -/
  | whole (position : Nat)
  deriving DecidableEq, Repr

/-- Where the exclamation mark stands, if the whole mark has been read. -/
def Importance.position? : Importance → Option Nat
  | whole position => some position
  | _ => Option.none

/-- The mark of importance after one more value, at a position, that is not white space. -/
def Importance.next (state : Importance) (position : Nat) (value : Value) : Importance :=
  match state, value with
  | .mark before, .atom (.identifier name) =>
    if Text.asciiLower name = "important".toList then .whole before else .none
  | .none, .atom (.literal ['!']) => .mark position
  | _, _ => .none

/-- Whether a value is content: neither white space nor a part of a mark of importance. -/
def isContent (state : Importance) (position : Nat) (value : Value) : Bool :=
  !value.isWhitespace && state.next position value = .none

/-- Whether a value is a block in curly brackets. -/
def isCurlyBlock : Value → Bool
  | .block .curly _ => true
  | _ => false

/-- What is known of the values of a declaration after some of them. -/
structure Scanned where
  state : Importance
  /-- Whether there was content. -/
  content : Bool
  /-- Whether a block in curly brackets stands behind other content. -/
  ruleLike : Bool
  deriving DecidableEq, Repr

/-- Goes through the values of a declaration from a position on. -/
def scanValues (position : Nat) (scanned : Scanned) : List Value → Scanned
  | [] => scanned
  | value :: rest =>
    if value.isWhitespace then scanValues (position + 1) scanned rest
    else
      let filled := isContent scanned.state position value
      scanValues (position + 1)
        ⟨scanned.state.next position value, scanned.content || filled,
          scanned.ruleLike || (filled && scanned.content && isCurlyBlock value)⟩ rest

/-- A value without its mark of importance, and whether it had one; none for a rule-like value. -/
def splitImportant? (values : List Value) : Option (List Value × Bool) :=
  let scanned := scanValues 0 ⟨.none, false, false⟩ values
  if scanned.ruleLike then none
  else
    match scanned.state.position? with
    | some position => some (values.take position, true)
    | none => some (values, false)

/-- The values behind the white space at the start. -/
def skipWhitespace (values : List Value) : List Value :=
  values.dropWhile Value.isWhitespace

/-- The declaration that values make, if they do. -/
def Declaration.ofValues? (values : List Value) : Option Declaration :=
  match skipWhitespace values with
  | .atom (.identifier name) :: afterName =>
    match skipWhitespace afterName with
    | .atom (.literal [':']) :: rest =>
      (splitImportant? rest).map fun (value, important) => ⟨name, value, important⟩
    | _ => none
  | _ => none

/-- The declaration that a text holds, if it does; comments are left out. -/
def Declaration.parse? (text : Text) : Except NumeralTooLong (Option Declaration) :=
  (parseWithoutComments text).map Declaration.ofValues?

/-- The written form of a declaration. -/
def Declaration.text (declaration : Declaration) : Text :=
  let value := Text.trim (Value.textAll declaration.value)
  let mark : Text := if declaration.important then " !important" else []
  declaration.name ++ ": " ++ value ++ mark ++ [';']

/-- The value of a declaration is the start of what was given. -/
theorem splitImportant_value {values value : List Value} {important : Bool}
    (found : splitImportant? values = some (value, important)) : value <+: values := by
  unfold splitImportant? at found
  simp only at found
  split at found
  · contradiction
  · split at found
    · cases found
      exact List.take_prefix _ _
    · cases found
      exact List.prefix_refl _

end CssAuthoring.Component
