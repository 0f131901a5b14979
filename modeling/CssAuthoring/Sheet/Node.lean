import CssAuthoring.Component.Declaration
import CssAuthoring.Sheet.Scope

/-!
# Nodes of stylesheets

A stylesheet is a forest of rules and at-rules.  A rule holds declarations; an at-rule with a block
may also hold rules and further at-rules; an at-rule without one is a statement.

Nodes at the top are written with a blank line between them, and what a block holds is indented by
its depth.

Main statements: `render_append`, two forests are written with a blank line between them;
`content_withContent`, replacing the content of a block gives that content.
-/

namespace CssAuthoring.Sheet

open CssAuthoring.Component

/-- A node of a stylesheet. -/
inductive Node where
  | declaration (declaration : Declaration)
  | rule (prelude : List Value) (content : List Node)
  | atRule (keyword : Text) (prelude : List Value) (content : List Node)
  | statement (keyword : Text) (prelude : List Value)
  deriving Repr

namespace Node

/-- The name of the kind of a node. -/
def kind : Node → Text
  | declaration _ => "declaration"
  | rule _ _ => "qualified-rule"
  | atRule _ _ _ => "at-rule"
  | statement _ _ => "at-rule"

/-- The nodes that a node holds. -/
def content : Node → List Node
  | rule _ content => content
  | atRule _ _ content => content
  | _ => []

/-- A node with other content; one without a block stays as it is. -/
def withContent (node : Node) (content : List Node) : Node :=
  match node with
  | rule prelude _ => rule prelude content
  | atRule keyword prelude _ => atRule keyword prelude content
  | leaf => leaf

/-- Whether a node has a block. -/
def hasBlock : Node → Bool
  | rule _ _ => true
  | atRule _ _ _ => true
  | _ => false

/-- What is said where a declaration is to be put into a node that has no block. -/
def refusal : Node → Option Text
  | declaration _ => some "'Declaration' object has no attribute 'content'"
  | statement _ _ => some "'NoneType' object has no attribute 'append'"
  | _ => none

/-- Whether a node is a rule with the given prelude. -/
def isRuleFor (selector : Text) : Node → Bool
  | rule prelude _ => Text.trim (Value.textAll prelude) = selector
  | _ => false

/-- Whether a node is the block that a scope with the given keyword and heading means. -/
def isBlockFor (keyword key : Text) : Node → Bool
  | atRule other prelude _ =>
    Text.lower other = Text.lower keyword &&
      match preludeKey prelude with
      | .ok otherKey => otherKey = key
      | .error _ => false
  | _ => false

/-- What stands before the block of an at-rule, or before the semicolon of a statement. -/
def atHead (keyword : Text) (prelude : List Value) : Text :=
  match Text.trim (Value.textAll prelude) with
  | [] => '@' :: keyword
  | written => '@' :: keyword ++ ' ' :: written

/-- The spaces before a node at a depth. -/
def margin (indentSize : Int) (depth : Nat) : Text :=
  List.replicate (depth * indentSize).toNat ' '

mutual

/-- The written form of a node at a depth. -/
def text (indentSize : Int) (depth : Nat) : Node → Text
  | .declaration declared => margin indentSize depth ++ declared.text
  | .rule prelude content =>
    margin indentSize depth ++ Text.trim (Value.textAll prelude) ++ [' ', '\x7b'] ++
      contentText indentSize (depth + 1) content ++ '\n' :: margin indentSize depth ++ ['\x7d']
  | .atRule keyword prelude content =>
    margin indentSize depth ++ atHead keyword prelude ++ [' ', '\x7b'] ++
      contentText indentSize (depth + 1) content ++ '\n' :: margin indentSize depth ++ ['\x7d']
  | .statement keyword prelude => margin indentSize depth ++ atHead keyword prelude ++ [';']

/-- The written form of the nodes in a block, each on a new line. -/
def contentText (indentSize : Int) (depth : Nat) : List Node → Text
  | [] => []
  | node :: rest => '\n' :: node.text indentSize depth ++ contentText indentSize depth rest

end

@[simp]
theorem content_withContent (node : Node) (content : List Node) (block : node.hasBlock = true) :
    (node.withContent content).content = content := by
  cases node <;> simp_all [hasBlock, withContent, Node.content]

theorem refusal_eq_none_iff (node : Node) : node.refusal = none ↔ node.hasBlock = true := by
  cases node <;> simp [refusal, hasBlock]

end Node

/-- The usual number of spaces for each level. -/
def standardIndent : Int := 4

/-- The written form of a forest. -/
def render (indentSize : Int) (nodes : List Node) : Text :=
  List.intercalate ['\n', '\n'] (nodes.map (Node.text indentSize 0))

/-- Two forests are written with a blank line between them. -/
theorem render_append (indentSize : Int) (front back : List Node)
    (frontFilled : front ≠ []) (backFilled : back ≠ []) :
    render indentSize (front ++ back) =
      render indentSize front ++ '\n' :: '\n' :: render indentSize back := by
  induction front with
  | nil => contradiction
  | cons node rest hypothesis =>
    cases rest with
    | nil =>
      cases back with
      | nil => contradiction
      | cons next more => simp [render]
    | cons next more =>
      have tail := hypothesis (by simp)
      simp_all [render]

/-- What has no written form as a node, by the name of its kind. -/
structure Unprintable where
  kind : Text
  deriving DecidableEq, Repr

/-- The message about what has no written form as a node. -/
def Unprintable.message (failure : Unprintable) : Text :=
  "Cannot serialize " ++ failure.kind ++ " node".toList

/-- Values are no nodes: only the empty list of them can be written as a forest. -/
def renderValues : List Value → Except Unprintable Text
  | [] => .ok []
  | value :: _ => .error ⟨value.kind⟩

/-- The written form of a declaration; what is no declaration counts as a flaw. -/
def renderDeclaration : Option Declaration → Except Unprintable Text
  | some declaration => .ok declaration.text
  | none => .error ⟨"error"⟩

end CssAuthoring.Sheet
