import CssAuthoring.Text.Quoted

/-!
# Error codes

Every error in a selector or a stylesheet belongs to a code with a fixed name and a message.  Some
messages name a detail, such as the offending character or the property.
-/

namespace CssAuthoring

/-- The kinds of error in selectors and stylesheets. -/
inductive ErrorCode where
  | unexpectedCharacter
  | expectedIdName
  | expectedClassName
  | expectedPseudoClassName
  | expectedPseudoElementName
  | expectedAttributeName
  | invalidAttributeOperator
  | expectedAttributeValue
  | unterminatedAttribute
  | unterminatedString
  | unclosedParenthesis
  | invalidDeclaration
  | invalidPropertyValue
  | mismatchedAtRule
  | emptySelector
  deriving DecidableEq, Repr

namespace ErrorCode

/-- All codes. -/
def all : List ErrorCode :=
  [unexpectedCharacter, expectedIdName, expectedClassName, expectedPseudoClassName,
    expectedPseudoElementName, expectedAttributeName, invalidAttributeOperator,
    expectedAttributeValue, unterminatedAttribute, unterminatedString, unclosedParenthesis,
    invalidDeclaration, invalidPropertyValue, mismatchedAtRule, emptySelector]

/-- The name of a code. -/
def name : ErrorCode → Text
  | unexpectedCharacter => "unexpected-character"
  | expectedIdName => "expected-id-name"
  | expectedClassName => "expected-class-name"
  | expectedPseudoClassName => "expected-pseudo-class-name"
  | expectedPseudoElementName => "expected-pseudo-element-name"
  | expectedAttributeName => "expected-attribute-name"
  | invalidAttributeOperator => "invalid-attribute-operator"
  | expectedAttributeValue => "expected-attribute-value"
  | unterminatedAttribute => "unterminated-attribute"
  | unterminatedString => "unterminated-string"
  | unclosedParenthesis => "unclosed-parenthesis"
  | invalidDeclaration => "invalid-declaration"
  | invalidPropertyValue => "invalid-property-value"
  | mismatchedAtRule => "mismatched-at-rule"
  | emptySelector => "empty-selector"

/-- The code with a given name. -/
def ofName? (text : Text) : Option ErrorCode :=
  all.find? fun code => code.name = text

/-- A detail as it stands in a message; a missing one is named `None`. -/
def shown (detail : Option Text) : Text :=
  detail.getD "None"

/-- A detail in quotes; a missing one is named `None`. -/
def shownQuoted (detail : Option Text) : Text :=
  (detail.map Text.quoted).getD "None"

/-- The message of a code about a detail. -/
def message (code : ErrorCode) (detail : Option Text) : Text :=
  match code with
  | unexpectedCharacter => "Unexpected character " ++ shownQuoted detail
  | expectedIdName => "Expected identifier after #"
  | expectedClassName => "Expected identifier after ."
  | expectedPseudoClassName => "Expected pseudo-class name after :"
  | expectedPseudoElementName => "Expected pseudo-element name after ::"
  | expectedAttributeName => "Expected attribute name after ["
  | invalidAttributeOperator => "Expected = after " ++ shown detail ++ " in attribute selector"
  | expectedAttributeValue => "Expected a value after the attribute operator"
  | unterminatedAttribute => "Expected ] to close attribute selector"
  | unterminatedString => "Unterminated string"
  | unclosedParenthesis => "Expected ) to close the argument of " ++ shown detail
  | invalidDeclaration => "Invalid declaration for property " ++ shownQuoted detail
  | invalidPropertyValue => "Unsupported value for property " ++ shownQuoted detail
  | mismatchedAtRule => "Prelude names a different at-rule than @" ++ shown detail
  | emptySelector => "Cannot style an empty selector"

/-- The message that belongs to the name of a code; an unknown name stands for itself. -/
def messageOfName (name : Text) (detail : Option Text) : Text :=
  match ofName? name with
  | some code => code.message detail
  | none => name

end ErrorCode

end CssAuthoring
