import CssAuthoring.ErrorCode

/-!
# Faults in selectors

What can be wrong with a selector, as causes that carry what their message names.  A scan that fails
gives the fault together with what is left of the text at the culprit, so that the position of the
culprit is a difference of lengths.
-/

namespace CssAuthoring.Selector

/-- What is wrong with a selector. -/
inductive Fault where
  | unexpectedCharacter (character : Char)
  | expectedIdName
  | expectedClassName
  | expectedPseudoClassName
  | expectedPseudoElementName
  | expectedAttributeName
  | invalidAttributeOperator (character : Char)
  | expectedAttributeValue
  | unterminatedAttribute
  | unterminatedString
  /-- An argument without its closing parenthesis, after the kind of part it belongs to. -/
  | unclosedParenthesis (owner : Text)
  deriving DecidableEq, Repr

namespace Fault

/-- The code that a fault belongs to. -/
def code : Fault → ErrorCode
  | unexpectedCharacter _ => .unexpectedCharacter
  | expectedIdName => .expectedIdName
  | expectedClassName => .expectedClassName
  | expectedPseudoClassName => .expectedPseudoClassName
  | expectedPseudoElementName => .expectedPseudoElementName
  | expectedAttributeName => .expectedAttributeName
  | invalidAttributeOperator _ => .invalidAttributeOperator
  | expectedAttributeValue => .expectedAttributeValue
  | unterminatedAttribute => .unterminatedAttribute
  | unterminatedString => .unterminatedString
  | unclosedParenthesis _ => .unclosedParenthesis

/-- The detail that the message of a fault names. -/
def detail : Fault → Option Text
  | unexpectedCharacter character => some [character]
  | invalidAttributeOperator character => some [character]
  | unclosedParenthesis owner => some owner
  | _ => none

/-- The message of a fault. -/
def message (fault : Fault) : Text :=
  fault.code.message fault.detail

end Fault

/-- A fault, with what is left of the text where it was found. -/
structure Culprit where
  fault : Fault
  here : Text
  deriving DecidableEq, Repr

/-- A selector that cannot be scanned: the fault, where it is, and the selector as given. -/
structure Error where
  fault : Fault
  position : Nat
  selector : Text
  deriving DecidableEq, Repr

/-- The message of an error, which shows the selector as given. -/
def Error.message (error : Error) : Text :=
  error.fault.message ++ " at position " ++ Text.decimal error.position ++ " in selector " ++
    Text.quoted error.selector

end CssAuthoring.Selector
