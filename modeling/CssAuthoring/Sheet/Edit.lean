import CssAuthoring.Outcome
import CssAuthoring.Selector.Render
import CssAuthoring.Sheet.Node
import CssAuthoring.Sheet.Property

/-!
# Editing stylesheets

A stylesheet only grows, except that it can be cleared.  A rule or block that is asked for is found
among its siblings or appended to them, and a handle says where it is: which nodes to take at each
level.  Nodes that were cleared away are kept aside, so that the handles to them stay valid.

An edit that fails leaves behind what it had done before: the blocks around a rule, the rule itself,
and the declarations before the one that failed.

Main statements: `place_extends` and `reach_length`, placing and reaching only append; `place_get`,
what was placed is the node that was asked for.
-/

namespace CssAuthoring

namespace Sheet

open CssAuthoring.Component

/-- Where a node is: how often the stylesheet had been cleared, and the way from the top. -/
structure Handle where
  era : Nat
  path : List Nat
  deriving DecidableEq, Repr

/-- The forest with the node that fits, appended if there is none, and where it is. -/
def place (fits : Node → Bool) (fresh : Node) (siblings : List Node) : List Node × Nat :=
  match siblings.findIdx? fits with
  | some index => (siblings, index)
  | none => (siblings ++ [fresh], siblings.length)

/-- Edits what the node at an index holds. -/
def editContent (index : Nat) (edit : List Node → List Node) (siblings : List Node) : List Node :=
  siblings.modify index fun node => node.withContent (edit node.content)

/-- Edits what the node at the end of a way holds. -/
def editAt : List Nat → (List Node → List Node) → List Node → List Node
  | [], edit => edit
  | index :: inner, edit => editContent index (editAt inner edit)

/-- The node at the end of a way. -/
def nodeAt? : List Nat → List Node → Option Node
  | [], _ => none
  | [index], siblings => siblings[index]?
  | index :: inner, siblings => siblings[index]?.bind fun node => nodeAt? inner node.content

/-- A forest after an edit, and where the edit led or why it failed. -/
abbrev Placed := List Node × Except Failure (List Nat)

/-- Finds or appends the rule for a selector among siblings. -/
def placeRule (selector : Text) (siblings : List Node) : Placed :=
  match parse selector with
  | .error failure => (siblings, .error (.numeral failure))
  | .ok prelude =>
    let key := Text.trim (Value.textAll prelude)
    let (nodes, index) := place (Node.isRuleFor key) (.rule prelude []) siblings
    (nodes, .ok [index])

/-- Finds or appends the blocks of scopes, outermost first, and edits what the innermost holds. -/
def reach : List Scope → (List Node → Placed) → List Node → Placed
  | [], edit, siblings => edit siblings
  | scope :: inner, edit, siblings =>
    match scope.heading with
    | .error failure => (siblings, .error failure)
    | .ok heading =>
      let (nodes, index) :=
        place (Node.isBlockFor scope.keyword heading.key) (.atRule scope.keyword heading.values [])
          siblings
      let held := (nodes[index]?.map Node.content).getD []
      let (content, outcome) := reach inner edit held
      (editContent index (fun _ => content) nodes, outcome.map (index :: ·))

/-- What is already among the siblings stays in place. -/
theorem place_extends (fits : Node → Bool) (fresh : Node) (siblings : List Node) :
    siblings <+: (place fits fresh siblings).1 := by
  unfold place
  split
  · exact List.prefix_refl _
  · exact List.prefix_append _ _

/-- What was placed fits, provided that a fresh node does. -/
theorem place_get (fits : Node → Bool) (fresh : Node) (siblings : List Node)
    (freshFits : fits fresh = true) :
    ∃ node, (place fits fresh siblings).1[(place fits fresh siblings).2]? = some node ∧
      fits node = true := by
  unfold place
  split
  · rename_i index found
    rw [List.findIdx?_eq_some_iff_getElem] at found
    obtain ⟨bound, fit, _⟩ := found
    exact ⟨siblings[index], by simp [bound], fit⟩
  · exact ⟨fresh, by simp, freshFits⟩

/-- No node is lost when blocks are reached. -/
theorem reach_length (scopes : List Scope) (edit : List Node → Placed) (siblings : List Node)
    (grows : ∀ nodes, nodes.length ≤ (edit nodes).1.length) :
    siblings.length ≤ (reach scopes edit siblings).1.length := by
  cases scopes with
  | nil => exact grows siblings
  | cons scope inner =>
    unfold reach
    split
    · exact Nat.le_refl _
    · simp only [editContent, List.length_modify]
      exact (place_extends _ _ _).length_le

end Sheet

/-- A stylesheet: its nodes, and those that were cleared away, the earliest first. -/
structure Sheet where
  nodes : List Sheet.Node
  cleared : List (List Sheet.Node)
  deriving Repr

namespace Sheet

open CssAuthoring.Component

/-- The stylesheet without nodes. -/
def empty : Sheet := ⟨[], []⟩

/-- The forest of an era. -/
def forest (sheet : Sheet) (era : Nat) : List Node :=
  if era = sheet.cleared.length then sheet.nodes else (sheet.cleared[era]?).getD []

/-- A stylesheet with another forest in an era. -/
def withForest (sheet : Sheet) (era : Nat) (forest : List Node) : Sheet :=
  if era = sheet.cleared.length then { sheet with nodes := forest }
  else { sheet with cleared := sheet.cleared.set era forest }

/-- The node of a handle. -/
def node? (sheet : Sheet) (handle : Handle) : Option Node :=
  nodeAt? handle.path (sheet.forest handle.era)

/-- A stylesheet after an edit, and what came of it. -/
abbrev Edited (α : Type) := Outcome Sheet Failure α

/-- Edits the nodes of a stylesheet. -/
def edit (sheet : Sheet) (change : List Node → Placed) : Edited Handle :=
  let (nodes, outcome) := change sheet.nodes
  ({ sheet with nodes }, outcome.map fun path => ⟨sheet.cleared.length, path⟩)

/-- The rule for a selector inside scopes, which is appended if it is not there. -/
def rule (sheet : Sheet) (selector : Text) (scopes : List Scope) : Edited Handle :=
  match Selector.normalize selector with
  | .error error => (sheet, .error (.selector error))
  | .ok [] => (sheet, .error (.style .emptySelector))
  | .ok normalized => sheet.edit (reach scopes (placeRule normalized))

/-- What the node of a handle says to declarations, if there are any and it has no block. -/
def refusal (sheet : Sheet) (handle : Handle) (declared : List Declaration) : Option Failure :=
  if declared.isEmpty then none
  else ((sheet.node? handle).bind Node.refusal).map .noBlock

/--
Appends declarations to the node of a handle, up to the first that fails.  A node without a block
refuses the first one, and the properties behind it are not looked at.
-/
def declare (sheet : Sheet) (handle : Handle) (properties : Properties) : Edited Handle :=
  let (declared, failure) := declarations properties.entries
  let extend (content : List Node) := content ++ declared.map Node.declaration
  let forest := editAt handle.path extend (sheet.forest handle.era)
  (sheet.withForest handle.era forest,
    match (sheet.refusal handle declared).or failure with
    | none => .ok handle
    | some cause => .error cause)

/-- Styles a selector inside scopes. -/
def style (sheet : Sheet) (selector : Text) (scopes : List Scope) (properties : Properties) :
    Edited Handle :=
  (sheet.rule selector scopes).andThen fun sheet handle => sheet.declare handle properties

/-- The block of a scope at the top, which is appended if it is not there. -/
def block (sheet : Sheet) (scope : Scope) : Edited Handle :=
  sheet.edit (reach [scope] fun content => (content, .ok []))

/-- Declares properties in the block of a scope at the top. -/
def atRule (sheet : Sheet) (scope : Scope) (properties : Properties) : Edited Handle :=
  (sheet.block scope).andThen fun sheet handle => sheet.declare handle properties

/-- Appends an at-rule without a block. -/
def statement (sheet : Sheet) (scope : Scope) : Edited Handle :=
  sheet.edit fun nodes =>
    match scope.heading with
    | .error failure => (nodes, .error failure)
    | .ok heading => (nodes ++ [.statement scope.keyword heading.values], .ok [nodes.length])

/-- The keyword of blocks that hold the frames of an animation. -/
def keyframesKeyword : Text := "keyframes"

/-- Declares properties in a frame of an animation. -/
def frame (sheet : Sheet) (name selector : Text) (properties : Properties) : Edited Handle :=
  let placed := sheet.edit (reach [⟨keyframesKeyword, name⟩] (placeRule (Text.collapse selector)))
  placed.andThen fun sheet handle => sheet.declare handle properties

/-- Declares the frames of an animation, one after the other. -/
def frames (name : Text) : Sheet → List (Text × Properties) → Edited Unit
  | sheet, [] => (sheet, .ok ())
  | sheet, (selector, properties) :: rest =>
    (sheet.frame name selector properties).andThen fun sheet _ => frames name sheet rest

/-- Declares the frames of an animation in the block with its name. -/
def keyframes (sheet : Sheet) (name : Text) (animation : OrderedTable Text Properties) :
    Edited Handle :=
  (sheet.block ⟨keyframesKeyword, name⟩).andThen fun sheet handle =>
    (frames name sheet animation.entries).andThen fun sheet _ => (sheet, .ok handle)

/-- A stylesheet without nodes again; the nodes so far are kept aside. -/
def clear (sheet : Sheet) : Sheet :=
  ⟨[], sheet.cleared ++ [sheet.nodes]⟩

/-- The CSS text of a stylesheet. -/
def build (sheet : Sheet) : Text :=
  render standardIndent sheet.nodes

/-- The form in which a stylesheet is shown. -/
def shown (sheet : Sheet) : Text :=
  "<Stylesheet " ++ Text.decimal sheet.nodes.length ++ " nodes>".toList

@[simp]
theorem forest_withForest (sheet : Sheet) (era : Nat) (forest : List Node)
    (current : era ≤ sheet.cleared.length) : (sheet.withForest era forest).forest era = forest := by
  unfold withForest
  split
  · rename_i now
    simp [Sheet.forest, now]
  · rename_i past
    have bound : era < sheet.cleared.length := by omega
    simp [Sheet.forest, past, bound]

end Sheet

end CssAuthoring
