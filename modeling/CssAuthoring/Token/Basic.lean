import CssAuthoring.Numeric.Numeral
import CssAuthoring.Text.Quoted

/-!
# Tokens

A token is a part of a selector or of an at-rule prelude, together with its content: the text it was
read from, or the text to write for a token that was built.  Both grammars share this shape and
differ in their parts.

A description lists what a part holds under the names that listings show.  Two tokens are the same
when their descriptions and contents agree, numbers being compared by value.

Main statement: `sameFields_self`, fields agree with themselves as far as their numbers do.
-/

namespace CssAuthoring

/-- A part with the text it stands for. -/
structure Token (Part : Type) where
  part : Part
  content : Text
  deriving DecidableEq, Repr

/-- What a field of a part holds. -/
inductive FieldValue where
  | text (value : Text)
  | numeral (value : Numeric.Numeral)
  deriving DecidableEq, Repr

/-- The kind of a part, the title under which it is shown, and its fields that are set. -/
structure Description where
  kind : Text
  title : Text
  fields : List (Text × FieldValue)
  deriving DecidableEq, Repr

namespace FieldValue

/-- Whether two field values agree. -/
def sameValue : FieldValue → FieldValue → Bool
  | .text left, .text right => left == right
  | .numeral left, .numeral right => left.sameValue right
  | _, _ => false

/-- The form in which a field value is shown. -/
def shown : FieldValue → Text
  | .text value => Text.quoted value
  | .numeral value => value.text

end FieldValue

namespace Description

/-- Whether two lists of fields agree in names and values. -/
def sameFields : List (Text × FieldValue) → List (Text × FieldValue) → Bool
  | [], [] => true
  | (leftName, left) :: leftRest, (rightName, right) :: rightRest =>
    leftName == rightName && left.sameValue right && sameFields leftRest rightRest
  | _, _ => false

/-- Whether two descriptions agree. -/
def sameAs (left right : Description) : Bool :=
  left.kind == right.kind && sameFields left.fields right.fields

/-- A field that is always set. -/
def required (name value : Text) : List (Text × FieldValue) :=
  [(name, .text value)]

/-- A field that may be unset. -/
def optional (name : Text) (value : Option Text) : List (Text × FieldValue) :=
  match value with
  | some text => [(name, .text text)]
  | none => []

/-- The form in which a part with the given content is shown. -/
def shown (description : Description) (content : Text) : Text :=
  let fields := description.fields.map fun (name, value) => name ++ '=' :: value.shown
  let last : Text := "content=" ++ Text.quoted content
  description.title ++ '(' :: List.intercalate [',', ' '] (fields ++ [last]) ++ [')']

/-- A description agrees with itself unless one of its numbers does not equal itself. -/
theorem sameFields_self
    (fields : List (Text × FieldValue))
    (regular : ∀ field ∈ fields, field.2.sameValue field.2 = true) :
    sameFields fields fields = true := by
  induction fields with
  | nil => rfl
  | cons field rest hypothesis =>
    simp [sameFields, regular field (by simp),
      hypothesis fun other member => regular other (by simp [member])]

end Description

end CssAuthoring
