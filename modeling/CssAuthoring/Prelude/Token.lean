import CssAuthoring.Token.Basic

/-!
# Tokens of at-rule preludes

The words, numbers, strings and signs that stand between an at-keyword and its block.  White space
is not a token.  A function is one token with its argument as text.

Main statement: `canonical_part`, the canonical token of a part stands for that part.
-/

namespace CssAuthoring.Prelude

open CssAuthoring.Numeric

/-- What a token of a prelude stands for. -/
inductive Part where
  | atName (name : Text)
  | identifier (value : Text)
  | function (name argument : Text)
  /-- A string, its quotes included. -/
  | string (value : Text)
  | number (value : Numeral)
  | dimension (value : Numeral) (unit : Text)
  | percentage (value : Numeral)
  | operator (symbol : Text)
  | delimiter (symbol : Text)
  | hash (value : Text)
  | url (value : Text)
  /-- Text outside the grammar; no scan yields it. -/
  | unknown
  deriving DecidableEq, Repr

namespace Part

/-- The canonical text of a part. -/
def text : Part → Text
  | atName name => '@' :: name
  | identifier value => value
  | function name argument => name ++ '(' :: argument ++ [')']
  | string value => value
  | number value => value.plain
  | dimension value unit => value.plain ++ unit
  | percentage value => value.plain ++ ['%']
  | operator symbol => symbol
  | delimiter symbol => symbol
  | hash value => '#' :: value
  | url value => "url(" ++ value ++ [')']
  | unknown => []

/-- The names under which a part is listed. -/
def description : Part → Description
  | atName name => ⟨"at-rule-name", "AtRuleNameToken", [("name", .text name)]⟩
  | identifier value => ⟨"identifier", "IdentifierToken", [("value", .text value)]⟩
  | function name argument =>
    ⟨"function", "FunctionToken", [("name", .text name), ("argument", .text argument)]⟩
  | string value => ⟨"string", "StringToken", [("value", .text value)]⟩
  | number value => ⟨"number", "NumberToken", [("value", .numeral value)]⟩
  | dimension value unit =>
    ⟨"dimension", "DimensionToken", [("value", .numeral value), ("unit", .text unit)]⟩
  | percentage value => ⟨"percentage", "PercentageToken", [("value", .numeral value)]⟩
  | operator symbol => ⟨"operator", "OperatorToken", [("operator", .text symbol)]⟩
  | delimiter symbol => ⟨"delimiter", "DelimiterToken", [("delimiter", .text symbol)]⟩
  | hash value => ⟨"hash", "HashToken", [("value", .text value)]⟩
  | url value => ⟨"url", "UrlToken", [("value", .text value)]⟩
  | unknown => ⟨"unknown", "UnknownToken", []⟩

end Part

end CssAuthoring.Prelude

namespace CssAuthoring

/-- A token of an at-rule prelude. -/
abbrev PreludeToken := Token Prelude.Part

namespace PreludeToken

/-- The token of a part with its canonical text. -/
def canonical (part : Prelude.Part) : PreludeToken := ⟨part, part.text⟩

@[simp]
theorem canonical_part (part : Prelude.Part) : (canonical part).part = part := rfl

end PreludeToken

end CssAuthoring
