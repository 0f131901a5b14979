import CssAuthoring.Numeric.Numeral
import CssAuthoring.Selector.Fault

/-!
# Failures of styling

Why rules, declarations or at-rules cannot be added to a stylesheet: the selector cannot be scanned,
what was asked for makes no declaration or at-rule, an integer has too many digits, or a declaration
was to be put into a node that has no block.
-/

namespace CssAuthoring.Sheet

open CssAuthoring.Numeric

/-- What is wrong with a declaration, an at-rule or a rule. -/
inductive StyleError where
  /-- A name and value that together make no declaration. -/
  | invalidDeclaration (property : Text)
  /-- A truth value, which no property takes. -/
  | invalidPropertyValue (property : Text)
  /-- A prelude that begins with the name of another at-rule. -/
  | mismatchedAtRule (keyword : Text)
  | emptySelector
  deriving DecidableEq, Repr

namespace StyleError

/-- The code that an error belongs to. -/
def code : StyleError → ErrorCode
  | invalidDeclaration _ => .invalidDeclaration
  | invalidPropertyValue _ => .invalidPropertyValue
  | mismatchedAtRule _ => .mismatchedAtRule
  | emptySelector => .emptySelector

/-- The detail that the message of an error names. -/
def detail : StyleError → Option Text
  | invalidDeclaration property => some property
  | invalidPropertyValue property => some property
  | mismatchedAtRule keyword => some keyword
  | emptySelector => none

/-- The message of an error. -/
def message (error : StyleError) : Text :=
  error.code.message error.detail

end StyleError

/-- Why a stylesheet was not changed as asked. -/
inductive Failure where
  | selector (error : Selector.Error)
  | style (error : StyleError)
  | numeral (failure : NumeralTooLong)
  /--
  A declaration that was to be put into a node without a block, which is no error of an author.
  -/
  | noBlock (message : Text)
  deriving DecidableEq, Repr

/-- The message of a failure. -/
def Failure.message : Failure → Text
  | selector error => error.message
  | style error => error.message
  | numeral failure => failure.message
  | noBlock message => message

end CssAuthoring.Sheet
