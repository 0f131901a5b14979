import CssAuthoring.Prelude.Token
import CssAuthoring.Selector.Token

/-!
# Tokens of either grammar

Listings and comparisons take tokens of selectors and of preludes alike.  The two grammars share no
kind of token, so a token of one never agrees with a token of the other.

Main statement: `sameAs_content`, tokens that agree have the same content.
-/

namespace CssAuthoring

/-- A part of a selector or of a prelude. -/
abbrev AnyPart := Selector.Part ⊕ Prelude.Part

/-- A token of either grammar. -/
abbrev AnyToken := Token AnyPart

namespace AnyToken

/-- A selector token as a token of either grammar. -/
def ofSelector (token : SelectorToken) : AnyToken := ⟨.inl token.part, token.content⟩

/-- A prelude token as a token of either grammar. -/
def ofPrelude (token : PreludeToken) : AnyToken := ⟨.inr token.part, token.content⟩

/-- The token of a part with its canonical text. -/
def canonical (part : AnyPart) : AnyToken :=
  ⟨part, part.elim Selector.Part.text Prelude.Part.text⟩

/-- The names under which a token is listed. -/
def description (token : AnyToken) : Description :=
  token.part.elim Selector.Part.description Prelude.Part.description

/-- The form in which a token is shown. -/
def shown (token : AnyToken) : Text :=
  token.description.shown token.content

/-- Whether two tokens agree in kind, fields and content. -/
def sameAs (left right : AnyToken) : Bool :=
  left.description.sameAs right.description && left.content == right.content

/-- How many different tokens there are among two. -/
def distinct (left right : AnyToken) : Nat :=
  if left.sameAs right then 1 else 2

theorem sameAs_content {left right : AnyToken} (same : left.sameAs right = true) :
    left.content = right.content := by
  simp only [sameAs, Bool.and_eq_true, beq_iff_eq] at same
  exact same.2

end AnyToken

end CssAuthoring
