import CssAuthoring.Prelude.Scan
import CssAuthoring.Selector.Render
import CssAuthoring.Token.Any

/-!
# Writing tokens of either grammar

A list that mixes tokens of both grammars can be written in either way.  As a selector, tokens of
preludes stand for their content.

Main statements: `render_ofSelector` and `join_ofSelector`, on the tokens of a selector this is what
selectors do.
-/

namespace CssAuthoring.AnyToken

/-- A token as it stands in a written selector. -/
def spaced (token : AnyToken) : Text :=
  token.part.elim (fun part => Selector.spaced ⟨part, token.content⟩) fun _ => token.content

/-- The written form of a selector. -/
def render (tokens : List AnyToken) : Text :=
  tokens.flatMap spaced

/-- The written form of a prelude. -/
def renderPrelude (tokens : List AnyToken) : Text :=
  Prelude.render (tokens.map Token.content)

/-- The comma between two complex selectors. -/
def comma : AnyToken := ofSelector .comma

/-- Whether a token separates two complex selectors. -/
def isComma (token : AnyToken) : Bool :=
  token.part = .inl .comma

/-- The complex selectors of a selector list; empty ones are left out. -/
def groups (tokens : List AnyToken) : List (List AnyToken) :=
  Separated.groups isComma tokens

/-- The selector list with the given complex selectors. -/
def join (complexes : List (List AnyToken)) : List AnyToken :=
  Separated.join comma complexes

theorem render_ofSelector (tokens : List SelectorToken) :
    render (tokens.map ofSelector) = Selector.render tokens := by
  simp [render, Selector.render, List.flatMap_map, spaced, ofSelector]

theorem join_ofSelector (complexes : List (List SelectorToken)) :
    join (complexes.map (List.map ofSelector)) = (Selector.join complexes).map ofSelector := by
  have dropped : (complexes.map (List.map ofSelector)).dropWhile List.isEmpty =
      (complexes.dropWhile List.isEmpty).map (List.map ofSelector) := by
    simp [List.dropWhile_map, Function.comp_def]
  simp only [join, Selector.join, Separated.join, dropped]
  generalize complexes.dropWhile List.isEmpty = parts
  induction parts with
  | nil => rfl
  | cons part rest hypothesis =>
    cases rest with
    | nil => simp
    | cons next more => simp_all [comma]

end CssAuthoring.AnyToken
