import CssAuthoring.Proofs.Component.Collapse
import CssAuthoring.Proofs.Sheet.Origin
import CssAuthoring.Proofs.Text.Collapse

/-!
# Strings of preludes

The prelude of a scope is collapsed as plain text before it is read as style values, and blank space
inside a string is no exception.  What a prelude holds besides its strings stays the same but for
spacing.  A string stays the same only if it is collapsed text already.

Main statement: `strings_of_created`, the prelude of a node that a call makes, and when its strings
are those of the prelude of the scope.
-/

namespace CssAuthoring.Sheet

open CssAuthoring.Component

/-- A prelude that does not begin with a keyword. -/
def Scope.Unnamed (scope : Scope) : Prop :=
  ∀ tokens, Prelude.tokenize (Text.trim scope.prelude) = .ok tokens → leadingKeyword? tokens = none

instance : DecidablePred Scope.Unnamed := fun scope =>
  match cut : Prelude.tokenize (Text.trim scope.prelude) with
  | .error _ => .isTrue fun _ read => nomatch cut.symm.trans read
  | .ok tokens => decidable_of_iff (leadingKeyword? tokens = none)
      ⟨fun none _ read => Except.ok.inj (cut.symm.trans read) ▸ none,
        fun unnamed => unnamed tokens cut⟩

/-- A prelude that does not begin with a keyword is collapsed, and nothing is left out. -/
theorem text_of_unnamed {scope : Scope} {text : Text} (unnamed : scope.Unnamed)
    (shown : scope.text = .ok text) : text = Text.collapse scope.prelude := by
  unfold Scope.text at shown
  dsimp only at shown
  split at shown
  · cases shown
  · rename_i tokens read
    rw [unnamed tokens read] at shown
    cases shown
    exact Text.collapse_trim scope.prelude

/-- The values that a heading has, from those of the prelude of its scope. -/
theorem respaced_of_heading {scope : Scope} {heading : Heading} {values : List Value}
    (isHeading : scope.heading = .ok heading) (unnamed : scope.Unnamed)
    (collapsible : Collapsible scope.prelude) (read : parse scope.prelude = .ok values)
    (noFlaw : ∀ lexeme ∈ Value.piecesAll values, lexeme.isFlaw = false) :
    Respaced (∀ part ∈ quotedParts (uniform scope.prelude), Text.collapse part = part)
      (Value.piecesAll values) (Value.piecesAll heading.values) := by
  rcases heading_text isHeading with ⟨shown, parsed, _⟩
  rcases parse_collapse collapsible read noFlaw with ⟨again, readAgain, respaced⟩
  rw [text_of_unnamed unnamed shown, readAgain] at parsed
  cases parsed
  exact respaced

/--
An at-rule that a call makes has the keyword and the prelude of the scope at its depth.  Where the
prelude of the scope does not begin with a keyword and has no flaws, that of the at-rule differs
from it in spacing and in strings at most.  The strings are the same, at any depth, exactly if
collapsing leaves every string of the text as it is.
-/
theorem strings_of_created {sheet : Sheet} {call : Call} {path : List Nat} {node : Node}
    {keyword : Text} {prelude : List Value}
    (created : nodeAt? path (sheet.after call).nodes = some node)
    (fresh : nodeAt? path sheet.nodes = none) (isHead : node.head? = some (keyword, prelude)) :
    ∃ scope heading, call.asked[path.length - 1]? = some scope ∧ scope.heading = .ok heading ∧
      keyword = scope.keyword ∧ prelude = heading.values ∧
      ∀ values, scope.Unnamed → Collapsible scope.prelude → parse scope.prelude = .ok values →
        (∀ lexeme ∈ Value.piecesAll values, lexeme.isFlaw = false) →
        unspaced (Value.piecesAll prelude) = unspaced (Value.piecesAll values) ∧
        (strings (Value.piecesAll prelude) = strings (Value.piecesAll values) ↔
          ∀ part ∈ quotedParts (uniform scope.prelude), Text.collapse part = part) := by
  rcases stems_after sheet call path node _ created isHead with ⟨old, there, _⟩ | isAsked
  · rw [fresh] at there
    cases there
  · cases path with
    | nil => cases created
    | cons index inner =>
        rcases isAsked with ⟨scope, heading, atDepth, isHeading, same⟩
        cases same
        refine ⟨scope, heading, atDepth, isHeading, rfl, rfl, ?_⟩
        intro values unnamed collapsible read noFlaw
        have respaced := respaced_of_heading isHeading unnamed collapsible read noFlaw
        exact ⟨respaced.unspaced, respaced.strings⟩

/-- A prelude with white space to collapse in a function and around it, but not in its string. -/
def iconScope : Scope :=
  ⟨"container", "style(--icon:\n  \"\\41 b c\")  and (orientation: portrait)"⟩

/-- The values of that prelude. -/
def iconValues : List Value :=
  [.function "style" [.atom (.identifier "--icon"), .atom (.literal ":"),
      .atom (.whitespace "\n  "), .atom (.string "Ab c" true)],
    .atom (.whitespace "  "), .atom (.identifier "and"), .atom (.whitespace " "),
    .block .round [.atom (.identifier "orientation"), .atom (.literal ":"),
      .atom (.whitespace " "), .atom (.identifier "portrait")]]

/-- A rule in a block for that scope, which is in another block. -/
def iconRule : Call := .rule ".card" [⟨"layer", "theme"⟩, iconScope]

/-- The string in a function is kept, with white space around the function collapsed. -/
theorem strings_of_created_icon :
    ∃ node prelude, nodeAt? [0, 0] (Sheet.empty.after iconRule).nodes = some node ∧
      nodeAt? [0, 0] Sheet.empty.nodes = none ∧ node.head? = some (iconScope.keyword, prelude) ∧
      parse iconScope.prelude = .ok iconValues ∧
      unspaced (Value.piecesAll prelude) = unspaced (Value.piecesAll iconValues) ∧
      strings (Value.piecesAll prelude) = ["Ab c".toList] := by
  have made : ((nodeAt? [0, 0] (Sheet.empty.after iconRule).nodes).bind Node.head?).map Prod.fst =
      some iconScope.keyword := by
    decide +kernel
  rcases Option.map_eq_some_iff.1 made with ⟨⟨keyword, prelude⟩, isHead, rfl⟩
  rcases Option.bind_eq_some_iff.1 isHead with ⟨node, created, isHead⟩
  have fresh : nodeAt? [0, 0] Sheet.empty.nodes = none := rfl
  have read : parse iconScope.prelude = .ok iconValues := by with_unfolding_all rfl
  have unnamed : iconScope.Unnamed := by decide +kernel
  have collapsible : Collapsible iconScope.prelude := ⟨by decide +kernel, by decide +kernel⟩
  have noFlaw : ∀ lexeme ∈ Value.piecesAll iconValues, lexeme.isFlaw = false := by decide +kernel
  have parts : ∀ part ∈ quotedParts (uniform iconScope.prelude), Text.collapse part = part := by
    decide +kernel
  rcases strings_of_created created fresh isHead with ⟨scope, _, atDepth, _, _, _, kept⟩
  cases atDepth
  rcases kept iconValues unnamed collapsible read noFlaw with ⟨sameValues, sameStrings⟩
  have held : strings (Value.piecesAll iconValues) = ["Ab c".toList] := by decide +kernel
  exact ⟨node, prelude, created, fresh, isHead, read, sameValues, (sameStrings.2 parts).trans held⟩

/-- The address of a stylesheet whose name has two spaces in it. -/
def importScope : Scope := ⟨"import", "\"a  b.css\""⟩

/-- An import by a name with two spaces is made one by another name, with a single space. -/
theorem strings_collapsed :
    ∃ node prelude values, nodeAt? [0] (Sheet.empty.after (.statement importScope)).nodes =
        some node ∧ node.head? = some (importScope.keyword, prelude) ∧ importScope.Unnamed ∧
      parse importScope.prelude = .ok values ∧
      (∀ lexeme ∈ Value.piecesAll values, lexeme.isFlaw = false) ∧
      strings (Value.piecesAll values) = ["a  b.css".toList] ∧
      strings (Value.piecesAll prelude) = ["a b.css".toList] := by
  have made : ((nodeAt? [0] (Sheet.empty.after (.statement importScope)).nodes).bind
      Node.head?).map (fun head => (head.1, strings (Value.piecesAll head.2))) =
        some (importScope.keyword, ["a b.css".toList]) := by
    decide +kernel
  rcases Option.map_eq_some_iff.1 made with ⟨⟨keyword, prelude⟩, isHead, same⟩
  rcases Prod.mk.inj same with ⟨rfl, held⟩
  rcases Option.bind_eq_some_iff.1 isHead with ⟨node, created, isHead⟩
  have read : parse importScope.prelude = .ok [.atom (.string "a  b.css" true)] := by
    with_unfolding_all rfl
  exact ⟨node, prelude, _, created, isHead, by decide +kernel, read, by decide +kernel,
    by decide +kernel, held⟩

end CssAuthoring.Sheet
