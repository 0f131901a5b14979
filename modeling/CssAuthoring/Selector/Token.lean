import CssAuthoring.Token.Basic

/-!
# Tokens of selectors

The simple selectors, the combinators between them and the commas between complex selectors.
Optional parts are told apart from empty ones: a type selector without a namespace, one with no
namespace allowed and one with any namespace are three tokens.

Main statement: `canonical_part`, the canonical token of a part stands for that part.
-/

namespace CssAuthoring.Selector

/-- What a token of a selector stands for. -/
inductive Part where
  /-- A type selector, with the namespace before its bar. -/
  | element (name : Text) (space : Option Text)
  | universal (space : Option Text)
  | id (name : Text)
  | className (name : Text)
  /-- An attribute selector; a quoted value keeps its quotes. -/
  | attribute (name : Text) (space operator value caseFlag : Option Text)
  | pseudoClass (name : Text) (argument : Option Text)
  | pseudoElement (name : Text) (argument : Option Text)
  | combinator
  | comma
  deriving DecidableEq, Repr

namespace Part

/-- A name with the namespace before it. -/
def qualified (space : Option Text) (name : Text) : Text :=
  match space with
  | none => name
  | some outer => outer ++ '|' :: name

/-- A name with the argument after it in parentheses. -/
def called (name : Text) (argument : Option Text) : Text :=
  match argument with
  | none => name
  | some inner => name ++ '(' :: inner ++ [')']

/-- What stands in the brackets of an attribute selector after the name. -/
def condition (operator value caseFlag : Option Text) : Text :=
  match operator with
  | none => []
  | some comparison =>
    comparison ++ value.getD [] ++
      match caseFlag with
      | none => []
      | some flag => ' ' :: flag

/-- The canonical text of a part. -/
def text : Part → Text
  | .element name space => qualified space name
  | .universal space => qualified space ['*']
  | .id name => '#' :: name
  | .className name => '.' :: name
  | .attribute name space operator value caseFlag =>
    '[' :: qualified space name ++ condition operator value caseFlag ++ [']']
  | .pseudoClass name argument => ':' :: called name argument
  | .pseudoElement name argument => ':' :: ':' :: called name argument
  | .combinator => [' ']
  | .comma => [',']

/-- The names under which a part is listed. -/
def description : Part → Description
  | .element name space =>
    ⟨"type", "TypeToken", named name ++ Description.optional "namespace" space⟩
  | .universal space => ⟨"universal", "UniversalToken", Description.optional "namespace" space⟩
  | .id name => ⟨"id", "IdToken", named name⟩
  | .className name => ⟨"class", "ClassToken", named name⟩
  | .attribute name space operator value caseFlag =>
    ⟨"attribute", "AttributeToken",
      named name ++ Description.optional "namespace" space ++
        Description.optional "operator" operator ++ Description.optional "value" value ++
        Description.optional "case_sensitive" caseFlag⟩
  | .pseudoClass name argument =>
    ⟨"pseudo-class", "PseudoClassToken", named name ++ Description.optional "argument" argument⟩
  | .pseudoElement name argument =>
    ⟨"pseudo-element", "PseudoElementToken", named name ++ Description.optional "argument" argument⟩
  | .combinator => ⟨"combinator", "CombinatorToken", []⟩
  | .comma => ⟨"comma", "CommaToken", []⟩
where
  named (name : Text) := Description.required "name" name

end Part

end CssAuthoring.Selector

namespace CssAuthoring

/-- A token of a selector. -/
abbrev SelectorToken := Token Selector.Part

namespace SelectorToken

/-- The token of a part with its canonical text. -/
def canonical (part : Selector.Part) : SelectorToken := ⟨part, part.text⟩

/-- A combinator with the given symbol; a space stands for the descendant combinator. -/
def combinator (symbol : Char) : SelectorToken := ⟨.combinator, [symbol]⟩

/-- The comma between two complex selectors. -/
def comma : SelectorToken := canonical .comma

/-- Whether a token separates two complex selectors. -/
def isComma (token : SelectorToken) : Bool :=
  token.part = .comma

@[simp]
theorem canonical_part (part : Selector.Part) : (canonical part).part = part := rfl

@[simp]
theorem isComma_comma : isComma comma = true := rfl

end SelectorToken

end CssAuthoring
