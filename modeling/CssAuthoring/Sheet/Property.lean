import CssAuthoring.Component.Declaration
import CssAuthoring.OrderedTable
import CssAuthoring.Sheet.Failure
import CssAuthoring.Text.Lowercase

/-!
# Properties

A property may be named in words joined by capitals or underscores, as is usual in programs; its CSS
name has hyphens and lower case.  Custom properties keep their name.  A setting is a text or number;
a missing one is skipped, and a truth value is refused.

Main statements: `propertyName_custom`, custom properties keep their name;
`declarations_append_of_ok`, properties are declared from left to right.
-/

namespace CssAuthoring.Sheet

open CssAuthoring.Component
open CssAuthoring.Numeric

/-- What a property is set to. -/
inductive Setting where
  | text (value : Text)
  | numeral (value : Numeral)
  | truth (value : Bool)
  | missing
  deriving DecidableEq, Repr

/-- Properties with their settings, in order. -/
abbrev Properties := OrderedTable Text Setting

/-- Whether a name is that of a custom property. -/
def isCustomName (name : Text) : Bool :=
  ['-', '-'].isPrefixOf name

/-- A character of a name, with a hyphen for an underscore and one before a capital. -/
def hyphenated (character : Char) : Text :=
  if character = '_' then ['-']
  else if 'A' ≤ character && character ≤ 'Z' then ['-', character]
  else [character]

/-- The CSS name of a property. -/
def propertyName (name : Text) : Text :=
  if isCustomName name then name else Text.lower (name.flatMap hyphenated)

/-- The CSS text of a setting for a property. -/
def settingText (property : Text) : Setting → Except StyleError Text
  | .text value => .ok value
  | .numeral value => .ok value.plain
  | .truth _ => .error (.invalidPropertyValue property)
  | .missing => .ok "None"

/-- The declaration of a property; none if the setting is missing. -/
def declarationOf (name : Text) (setting : Setting) : Except Failure (Option Declaration) :=
  if setting = .missing then .ok none
  else
    let property := propertyName name
    match settingText property setting with
    | .error error => .error (.style error)
    | .ok value =>
      match Declaration.parse? (property ++ ": " ++ value) with
      | .error failure => .error (.numeral failure)
      | .ok none => .error (.style (.invalidDeclaration property))
      | .ok (some declaration) => .ok (some declaration)

/-- The declarations of properties up to the first failure, and that failure. -/
def declarations : List (Text × Setting) → List Declaration × Option Failure
  | [] => ([], none)
  | (name, setting) :: rest =>
    match declarationOf name setting with
    | .error failure => ([], some failure)
    | .ok declaration =>
      (declaration.toList ++ (declarations rest).1, (declarations rest).2)

theorem propertyName_custom (name : Text) (custom : isCustomName name = true) :
    propertyName name = name := by
  simp [propertyName, custom]

/-- Properties are declared from left to right. -/
theorem declarations_append_of_ok (front back : List (Text × Setting))
    (succeeded : (declarations front).2 = none) :
    declarations (front ++ back) =
      ((declarations front).1 ++ (declarations back).1, (declarations back).2) := by
  induction front with
  | nil => simp [declarations]
  | cons property rest hypothesis =>
    obtain ⟨name, setting⟩ := property
    cases declared : declarationOf name setting with
    | error failure => simp [declarations, declared] at succeeded
    | ok declaration =>
      simp only [declarations, declared] at succeeded
      simp [declarations, declared, hypothesis succeeded]

end CssAuthoring.Sheet
