import CssAuthoring.Sheet.Edit

/-!
# Selector builders

A builder holds the tokens of a selector list and the scopes that the rules it writes are nested in.
Every step gives a new builder.  A simple selector is attached to each complex selector of the list,
and a combination is made for each pair of complex selectors.

Main statement: `combineWith_nil`, combining with an empty selector changes nothing.
-/

namespace CssAuthoring

/-- A selector under construction. -/
structure Builder where
  tokens : List SelectorToken
  scopes : List Sheet.Scope
  deriving DecidableEq, Repr

namespace Builder

/-- A builder for selectors that are given as separate texts. -/
def select (selectors : List Text) : Except Selector.Error Builder :=
  (selectors.mapM Selector.tokenize).map fun lists =>
    ⟨Selector.join (lists.filter fun tokens => !tokens.isEmpty), []⟩

/-- The text of the selector. -/
def selector (builder : Builder) : Text :=
  Selector.render builder.tokens

/-- The complex selectors; an empty selector counts as one without tokens. -/
def targets (builder : Builder) : List (List SelectorToken) :=
  match Selector.groups builder.tokens with
  | [] => [[]]
  | groups => groups

/-- Attaches a simple selector to every complex selector. -/
def attach (builder : Builder) (token : SelectorToken) : Builder :=
  { builder with tokens := Selector.join (builder.targets.map (· ++ [token])) }

/-- Attaches a pseudo-class. -/
def pseudoClass (builder : Builder) (name : Text) (argument : Option Text) : Builder :=
  builder.attach (.canonical (.pseudoClass name argument))

/-- Attaches a pseudo-element. -/
def pseudoElement (builder : Builder) (name : Text) (argument : Option Text) : Builder :=
  builder.attach (.canonical (.pseudoElement name argument))

/-- Attaches the pseudo-class for children at certain places. -/
def nthChild (builder : Builder) (expression : Text) : Builder :=
  builder.pseudoClass "nth-child" (some (Text.trim expression))

/-- Attaches the negation of a selector. -/
def negate (builder : Builder) (selector : Text) : Except Selector.Error Builder :=
  (Selector.normalize selector).map fun argument => builder.pseudoClass "not" (some argument)

/-- Puts every complex selector of a list behind every one of the builder, with a link between. -/
def combineWith (builder : Builder) (link : List SelectorToken)
    (others : List (List SelectorToken)) : Builder :=
  match others, Selector.groups builder.tokens with
  | [], _ => builder
  | others, [] => { builder with tokens := Selector.join others }
  | others, groups =>
    let pairs := groups.flatMap fun group => others.map fun other => group ++ link ++ other
    { builder with tokens := Selector.join pairs }

/-- Combines the builder with a selector list, by a combinator or directly. -/
def combine (builder : Builder) (combinator : Option Char) (selector : Text) :
    Except Selector.Error Builder :=
  (Selector.tokenize selector).map fun tokens =>
    builder.combineWith (combinator.map SelectorToken.combinator).toList (Selector.groups tokens)

/-- Adds the complex selectors of further selector lists. -/
def extend (builder : Builder) (selectors : List Text) : Except Selector.Error Builder :=
  (selectors.mapM Selector.tokenize).map fun lists =>
    let groups := Selector.groups builder.tokens ++ lists.flatMap Selector.groups
    { builder with tokens := Selector.join groups }

/-- Nests the rules that the builder writes inside one more scope. -/
def within (builder : Builder) (scope : Sheet.Scope) : Builder :=
  { builder with scopes := builder.scopes ++ [scope] }

/-- Styles the selector in a stylesheet. -/
def style (builder : Builder) (sheet : Sheet) (properties : Sheet.Properties) :
    Sheet.Edited Sheet.Handle :=
  sheet.style builder.selector builder.scopes properties

/-- The form in which a builder is shown. -/
def shown (builder : Builder) : Text :=
  "<SelectorBuilder " ++ Text.quoted builder.selector ++ ['>']

/-! ### Steps for common selectors -/

/-- Narrows the selector to elements under the pointer. -/
def hover (builder : Builder) : Builder :=
  builder.pseudoClass "hover" none

/-- Narrows the selector to elements with the focus. -/
def focus (builder : Builder) : Builder :=
  builder.pseudoClass "focus" none

/-- Narrows the selector to elements being activated. -/
def active (builder : Builder) : Builder :=
  builder.pseudoClass "active" none

/-- Narrows the selector to disabled elements. -/
def disabled (builder : Builder) : Builder :=
  builder.pseudoClass "disabled" none

/-- Narrows the selector to visited links. -/
def visited (builder : Builder) : Builder :=
  builder.pseudoClass "visited" none

/-- Narrows the selector to checked elements. -/
def checked (builder : Builder) : Builder :=
  builder.pseudoClass "checked" none

/-- Narrows the selector to first children. -/
def firstChild (builder : Builder) : Builder :=
  builder.pseudoClass "first-child" none

/-- Narrows the selector to last children. -/
def lastChild (builder : Builder) : Builder :=
  builder.pseudoClass "last-child" none

/-- Goes to what is generated before the content. -/
def before (builder : Builder) : Builder :=
  builder.pseudoElement "before" none

/-- Goes to what is generated after the content. -/
def after (builder : Builder) : Builder :=
  builder.pseudoElement "after" none

/-- Goes to the placeholder text. -/
def placeholder (builder : Builder) : Builder :=
  builder.pseudoElement "placeholder" none

/-- Goes to children that match a selector list. -/
def child (builder : Builder) (selector : Text) : Except Selector.Error Builder :=
  builder.combine (some '>') selector

/-- Goes to descendants that match a selector list. -/
def descendant (builder : Builder) (selector : Text) : Except Selector.Error Builder :=
  builder.combine (some ' ') selector

/-- Goes to next siblings that match a selector list. -/
def adjacent (builder : Builder) (selector : Text) : Except Selector.Error Builder :=
  builder.combine (some '+') selector

/-- Goes to later siblings that match a selector list. -/
def sibling (builder : Builder) (selector : Text) : Except Selector.Error Builder :=
  builder.combine (some '~') selector

/-- Joins a compound selector directly. -/
def join (builder : Builder) (selector : Text) : Except Selector.Error Builder :=
  builder.combine none selector

/-- Nests rules inside a media query. -/
def media (builder : Builder) (query : Text) : Builder :=
  builder.within ⟨"media", query⟩

/-- Nests rules inside a container query. -/
def container (builder : Builder) (query : Text) : Builder :=
  builder.within ⟨"container", query⟩

/-- Nests rules inside a feature condition. -/
def supports (builder : Builder) (condition : Text) : Builder :=
  builder.within ⟨"supports", condition⟩

/-- Nests rules inside a cascade layer. -/
def layer (builder : Builder) (name : Text) : Builder :=
  builder.within ⟨"layer", name⟩

/-- Combining with an empty selector changes nothing. -/
@[simp]
theorem combineWith_nil (builder : Builder) (link : List SelectorToken) :
    builder.combineWith link [] = builder := by
  simp [combineWith]

end Builder

end CssAuthoring
