import CssAuthoring.Proofs.Sheet.Growth
import CssAuthoring.Proofs.Sheet.Merging

/-!
# Where at-rules come from

An at-rule that is in a stylesheet after a call was there before, at the end of the same way and
with the same keyword and prelude, or one of the scopes of the call has its keyword and its heading.
Each block of a call is made for the scope at its depth, so an at-rule at the end of a way is that
of the scope with the same place in the call.

Main statement: `stems_after`, the at-rules after a call.
-/

namespace CssAuthoring

namespace Sheet

open CssAuthoring.Component

/-- The keyword and the prelude of an at-rule. -/
abbrev AtHead := Text × List Value

/-- The keyword and the prelude of a node that is an at-rule, with or without a block. -/
def Node.head? : Node → Option AtHead
  | .atRule keyword prelude _ => some (keyword, prelude)
  | .statement keyword prelude => some (keyword, prelude)
  | _ => none

/-- Every at-rule of a later forest was in the former one or was asked for at the end of its way. -/
def Stems (asked : List Nat → AtHead → Prop) (former later : List Node) : Prop :=
  ∀ path node head, nodeAt? path later = some node → node.head? = some head →
    (∃ old, nodeAt? path former = some old ∧ old.head? = some head) ∨ asked path head

/-- No at-rule is asked for. -/
def noneAsked : List Nat → AtHead → Prop :=
  fun _ _ => False

/-- The scope at the depth of a way has a keyword, and a heading with a prelude. -/
def Asked (scopes : List Scope) : List Nat → AtHead → Prop
  | [], _ => False
  | _ :: inner, head => ∃ scope heading, scopes[inner.length]? = some scope ∧
      scope.heading = .ok heading ∧ head = (scope.keyword, heading.values)

/-- The scopes that a call makes at-rules for, outermost first. -/
def Call.asked : Call → List Scope
  | .statement scope => [scope]
  | call => call.scopes

/-! ## Forests -/

section

variable {asked : List Nat → AtHead → Prop}

theorem Stems.refl (nodes : List Node) : Stems asked nodes nodes :=
  fun _ node _ there isHead => .inl ⟨node, there, isHead⟩

theorem Stems.trans {former middle later : List Node} (first : Stems asked former middle)
    (second : Stems asked middle later) : Stems asked former later := by
  intro path node head there isHead
  rcases second path node head there isHead with ⟨old, thereMiddle, isHeadMiddle⟩ | fresh
  · exact first path old head thereMiddle isHeadMiddle
  · exact .inr fresh

theorem Stems.mono {other : List Nat → AtHead → Prop} {former later : List Node}
    (stems : Stems asked former later)
    (imp : ∀ path head, asked path head → other path head) : Stems other former later :=
  fun path node head there isHead => (stems path node head there isHead).imp_right (imp path head)

theorem stems_empty (former : List Node) : Stems asked former [] := by
  intro path node head there
  rw [nodeAt?_nil] at there
  cases there

/-- Nodes that hold nothing come behind old ones, each of them asked for or no at-rule. -/
theorem stems_append {nodes fresh : List Node} (holdNothing : ∀ node ∈ fresh, node.content = [])
    (isAsked : ∀ node ∈ fresh, ∀ head, node.head? = some head → ∀ index, asked [index] head) :
    Stems asked nodes (nodes ++ fresh) := by
  intro path node head there isHead
  cases path with
  | nil => cases there
  | cons index inner =>
      rw [nodeAt?_cons, Option.bind_eq_some_iff] at there
      rcases there with ⟨sibling, isSibling, rest⟩
      by_cases below : index < nodes.length
      · rw [List.getElem?_append_left below] at isSibling
        refine .inl ⟨node, ?_, isHead⟩
        rw [nodeAt?_cons, isSibling]
        exact rest
      · rw [List.getElem?_append_right (Nat.le_of_not_lt below)] at isSibling
        have member := List.mem_of_getElem? isSibling
        split at rest
        · rename_i ends
          cases rest
          rw [ends]
          exact .inr (isAsked node member head isHead index)
        · rw [holdNothing sibling member, nodeAt?_nil] at rest
          cases rest

theorem Node.head?_withContent (node : Node) (content : List Node) :
    (node.withContent content).head? = node.head? := by
  cases node <;> rfl

/-- What is asked for in what a node holds is asked for on the ways through the node. -/
theorem Stems.editContent {nodes : List Node} {index : Nat} {edit : List Node → List Node}
    (stems : ∀ node, nodes[index]? = some node →
      Stems (fun path head => asked (index :: path) head) node.content (edit node.content)) :
    Stems asked nodes (editContent index edit nodes) := by
  intro path node head there isHead
  cases path with
  | nil => cases there
  | cons place inner =>
      rw [nodeAt?_cons, Option.bind_eq_some_iff] at there
      rcases there with ⟨sibling, isSibling, rest⟩
      rw [getElem?_editContent] at isSibling
      simp only [nodeAt?_cons]
      split at isSibling
      · rename_i here
        subst here
        rcases Option.map_eq_some_iff.1 isSibling with ⟨old, isOld, rfl⟩
        rw [isOld, Option.bind_some]
        split at rest
        · rename_i ends
          cases rest
          rw [Node.head?_withContent] at isHead
          exact .inl ⟨old, if_pos ends, isHead⟩
        · rename_i goesOn
          rw [if_neg goesOn]
          cases block : old.hasBlock with
          | true =>
              rw [Node.content_withContent _ _ block] at rest
              exact stems old isOld inner node head rest isHead
          | false =>
              rw [Node.withContent_of_leaf block, Node.content_of_leaf block, nodeAt?_nil] at rest
              cases rest
      · rw [isSibling]
        exact .inl ⟨node, rest, isHead⟩

/-- Declaring makes no at-rule. -/
theorem editAt_stems (path : List Nat) (declared : List Declaration) (nodes : List Node) :
    Stems asked nodes (editAt path (· ++ declared.map Node.declaration) nodes) := by
  induction path generalizing asked nodes with
  | nil =>
      apply stems_append
      · simp only [List.forall_mem_map]
        exact fun _ _ => rfl
      · simp only [List.forall_mem_map]
        exact fun _ _ _ isHead => nomatch isHead
  | cons index path hypothesis => exact .editContent fun node _ => hypothesis node.content

/-- Finding or appending a node makes the at-rule that it is. -/
theorem place_stems (fits : Node → Bool) {fresh : Node} (siblings : List Node)
    (holdsNothing : fresh.content = [])
    (isAsked : ∀ head, fresh.head? = some head → ∀ index, asked [index] head) :
    Stems asked siblings (place fits fresh siblings).1 := by
  unfold place
  split
  · exact .refl siblings
  · apply stems_append
    · rw [List.forall_mem_singleton]
      exact holdsNothing
    · rw [List.forall_mem_singleton]
      exact isAsked

theorem placeRule_stems (selector : Text) (siblings : List Node) :
    Stems asked siblings (placeRule selector siblings).1 := by
  unfold placeRule
  split
  · exact .refl siblings
  · exact place_stems _ siblings rfl nofun

end

/-- Where an edit makes no at-rule, reaching into blocks to make it makes those of the scopes. -/
theorem reach_stems {edit : List Node → Placed}
    (stems : ∀ nodes, Stems noneAsked nodes (edit nodes).1) (scopes : List Scope)
    (siblings : List Node) : Stems (Asked scopes) siblings (reach scopes edit siblings).1 := by
  induction scopes generalizing siblings with
  | nil => exact (stems siblings).mono fun _ _ impossible => impossible.elim
  | cons scope inner hypothesis =>
      unfold reach
      split
      · exact .refl siblings
      · rename_i heading isHeading
        have placed : Stems (Asked (scope :: inner)) siblings
            (place (Node.isBlockFor scope.keyword heading.key)
              (.atRule scope.keyword heading.values []) siblings).1 := by
          apply place_stems _ siblings rfl
          rintro head ⟨⟩ index
          exact ⟨scope, heading, rfl, isHeading, rfl⟩
        dsimp only
        refine placed.trans (Stems.editContent fun node there => ?_)
        rw [there, Option.map_some, Option.getD_some]
        apply (hypothesis node.content).mono
        rintro path head isAsked
        cases path with
        | nil => exact isAsked.elim
        | cons place path => exact isAsked

/-! ## Calls -/

section

variable {asked : List Nat → AtHead → Prop} {sheet : Sheet}

theorem Stems.andThen {α β : Type} {edited : Edited α} {next : Sheet → α → Edited β}
    (first : Stems asked sheet.nodes edited.1.nodes)
    (second : ∀ middle value, Stems asked middle.nodes (next middle value).1.nodes) :
    Stems asked sheet.nodes (edited.andThen next).1.nodes := by
  rcases edited with ⟨middle, outcome⟩
  cases outcome with
  | error failure => exact first
  | ok value => exact first.trans (second middle value)

theorem declare_stems (sheet : Sheet) (handle : Handle) (properties : Properties) :
    Stems asked sheet.nodes (sheet.declare handle properties).1.nodes := by
  unfold declare withForest forest
  dsimp only
  split
  · exact editAt_stems _ _ _
  · exact .refl _

theorem rule_stems (sheet : Sheet) (selector : Text) (scopes : List Scope) :
    Stems (Asked scopes) sheet.nodes (sheet.rule selector scopes).1.nodes := by
  unfold rule
  split
  · exact .refl _
  · exact .refl _
  · exact reach_stems (placeRule_stems _) scopes sheet.nodes

theorem block_stems (sheet : Sheet) (scope : Scope) :
    Stems (Asked [scope]) sheet.nodes (sheet.block scope).1.nodes := by
  have stays (nodes : List Node) :
      Stems noneAsked nodes ((nodes, .ok []) : Placed).1 := .refl nodes
  exact reach_stems stays [scope] sheet.nodes

theorem statement_stems (sheet : Sheet) (scope : Scope) :
    Stems (Asked [scope]) sheet.nodes (sheet.statement scope).1.nodes := by
  unfold statement Sheet.edit
  cases isHeading : scope.heading with
  | error failure => exact .refl _
  | ok heading =>
      apply stems_append
      · rw [List.forall_mem_singleton]
        rfl
      · rw [List.forall_mem_singleton]
        rintro head ⟨⟩ index
        exact ⟨scope, heading, rfl, isHeading, rfl⟩

theorem frames_stems (name : Text) (sheet : Sheet) (animation : List (Text × Properties)) :
    Stems (Asked [⟨keyframesKeyword, name⟩]) sheet.nodes
      (frames name sheet animation).1.nodes := by
  induction animation generalizing sheet with
  | nil => exact .refl _
  | cons first rest hypothesis =>
      rcases first with ⟨selector, properties⟩
      have placed := reach_stems (placeRule_stems (Text.collapse selector))
        [⟨keyframesKeyword, name⟩] sheet.nodes
      rw [frames]
      refine Stems.andThen ?_ fun middle _ => hypothesis middle
      exact Stems.andThen placed fun middle handle => declare_stems middle handle properties

/-- Every at-rule after a call was there before, or is that of the scope at its depth. -/
theorem stems_after (sheet : Sheet) (call : Call) :
    Stems (Asked call.asked) sheet.nodes (sheet.after call).nodes := by
  cases call with
  | style builder properties =>
      exact (rule_stems sheet _ _).andThen fun middle handle =>
        declare_stems middle handle properties
  | rule selector scopes => exact rule_stems sheet selector scopes
  | declare handle properties => exact declare_stems sheet handle properties
  | atRule scope properties =>
      exact (block_stems sheet scope).andThen fun middle handle =>
        declare_stems middle handle properties
  | statement scope => exact statement_stems sheet scope
  | keyframes name animation =>
      refine (block_stems sheet ⟨keyframesKeyword, name⟩).andThen fun middle handle => ?_
      exact (frames_stems name middle animation.entries).andThen fun last _ => .refl _
  | clear => exact stems_empty sheet.nodes

end

end Sheet

end CssAuthoring
