import CssAuthoring.Proofs.Sheet.Invariant

/-!
# Forests that grow

A forest grows if every node of it stays where it is, with its kind, keyword and prelude, and new
nodes come behind old ones only.  Finding or appending rules and blocks lets a forest grow and
leaves all declarations as they are; declaring at the end of a way adds declarations there and
nowhere else.

Declarations are counted for each container by the way to it, so that what several steps add is the
sum of what each of them adds.
-/

namespace CssAuthoring

namespace Sheet

open CssAuthoring.Component

/-! ## Growth -/

/-- A node without what it holds: its kind, and its keyword and prelude if it has them. -/
def Node.shell (node : Node) : Node :=
  node.withContent []

/-- A forest in which every node of another one is where it was, with new nodes behind it only. -/
structure Extends (former later : List Node) : Prop where
  top : former.map Node.shell <+: later.map Node.shell
  inside : ∀ path node, nodeAt? path former = some node →
    ∃ content, nodeAt? path later = some (node.withContent content) ∧
      node.content.map Node.shell <+: content.map Node.shell

/-- The declaration that a node is. -/
def Node.declaration? : Node → Option Declaration
  | .declaration declared => some declared
  | _ => none

/-- The declarations that a node itself holds, in order. -/
def Node.declared (node : Node) : List Declaration :=
  node.content.filterMap Node.declaration?

/-! ## Nodes at the end of a way -/

theorem nodeAt?_cons (index : Nat) (path : List Nat) (nodes : List Node) :
    nodeAt? (index :: path) nodes =
      nodes[index]?.bind fun node =>
        if path = [] then some node else nodeAt? path node.content := by
  cases path <;> simp [nodeAt?]

theorem nodeAt?_nil (path : List Nat) : nodeAt? path [] = none := by
  cases path with
  | nil => rfl
  | cons index path => simp [nodeAt?_cons]

theorem Node.shell_withContent (node : Node) (content : List Node) :
    (node.withContent content).shell = node.shell :=
  Node.withContent_withContent node content []

theorem Node.declaration?_withContent (node : Node) (content : List Node) :
    (node.withContent content).declaration? = node.declaration? := by
  cases node <;> rfl

theorem Node.withContent_content (node : Node) : node.withContent node.content = node := by
  cases node <;> rfl

theorem Node.content_of_leaf {node : Node} (leaf : node.hasBlock = false) : node.content = [] := by
  cases node <;> first | rfl | cases leaf

theorem Node.withContent_of_leaf {node : Node} (leaf : node.hasBlock = false)
    (content : List Node) : node.withContent content = node := by
  cases node <;> first | rfl | cases leaf

theorem getElem?_editContent (index place : Nat) (edit : List Node → List Node)
    (nodes : List Node) :
    (editContent index edit nodes)[place]? =
      if index = place then nodes[place]?.map fun node => node.withContent (edit node.content)
      else nodes[place]? := by
  rw [editContent, List.getElem?_modify]
  split
  · cases nodes[place]? <;> rfl
  · cases nodes[place]? <;> rfl

/-- What holds of a node whatever it holds is left as it is where contents are edited. -/
theorem editContent_map {α : Type} {view : Node → α}
    (same : ∀ node content, view (node.withContent content) = view node) (index : Nat)
    (edit : List Node → List Node) (nodes : List Node) :
    (editContent index edit nodes).map view = nodes.map view := by
  apply List.ext_getElem?
  intro place
  rw [List.getElem?_map, List.getElem?_map, getElem?_editContent]
  split
  · cases nodes[place]? <;> simp [same]
  · rfl

/-! ## Extension -/

theorem Extends.refl (nodes : List Node) : Extends nodes nodes := by
  constructor
  · exact List.prefix_refl _
  · intro path node there
    refine ⟨node.content, ?_, List.prefix_refl _⟩
    rw [Node.withContent_content]
    exact there

theorem Extends.trans {former middle later : List Node} (first : Extends former middle)
    (second : Extends middle later) : Extends former later := by
  constructor
  · exact first.top.trans second.top
  · intro path node there
    rcases first.inside path node there with ⟨content, thereMiddle, grown⟩
    rcases second.inside path _ thereMiddle with ⟨more, thereLater, grownMore⟩
    rw [Node.withContent_withContent] at thereLater
    refine ⟨more, thereLater, ?_⟩
    cases block : node.hasBlock with
    | true =>
        rw [Node.content_withContent _ _ block] at grownMore
        exact grown.trans grownMore
    | false =>
        rw [Node.content_of_leaf block]
        exact List.nil_prefix

/-- Nodes can be put behind a forest. -/
theorem Extends.of_grown {former later : List Node} (grown : former <+: later) :
    Extends former later := by
  constructor
  · exact grown.map _
  · intro path node there
    refine ⟨node.content, ?_, List.prefix_refl _⟩
    rw [Node.withContent_content]
    cases path with
    | nil => cases there
    | cons index path =>
        rw [nodeAt?_cons, Option.bind_eq_some_iff] at there ⊢
        rcases there with ⟨sibling, isSibling, rest⟩
        rcases grown with ⟨more, rfl⟩
        refine ⟨sibling, ?_, rest⟩
        rw [List.getElem?_append_left (List.getElem?_eq_some_iff.1 isSibling).1, isSibling]

/-- A forest grows if what one of its nodes holds does. -/
theorem Extends.editContent {nodes : List Node} {index : Nat} {edit : List Node → List Node}
    (grows : ∀ node, nodes[index]? = some node → Extends node.content (edit node.content)) :
    Extends nodes (editContent index edit nodes) := by
  constructor
  · exact ⟨[], by rw [List.append_nil, editContent_map Node.shell_withContent]⟩
  · intro path node there
    cases path with
    | nil => cases there
    | cons place path =>
        rw [nodeAt?_cons, Option.bind_eq_some_iff] at there
        rcases there with ⟨sibling, isSibling, rest⟩
        simp only [nodeAt?_cons, getElem?_editContent, isSibling, Option.map_some]
        by_cases here : index = place
        · subst here
          have inner := grows sibling isSibling
          rw [if_pos rfl, Option.bind_some]
          by_cases ends : path = []
          · rw [if_pos ends] at rest ⊢
            cases rest
            exact ⟨edit node.content, rfl, inner.top⟩
          · rw [if_neg ends] at rest ⊢
            cases block : sibling.hasBlock with
            | true =>
                rw [Node.content_withContent _ _ block]
                exact inner.inside path node rest
            | false =>
                rw [Node.content_of_leaf block, nodeAt?_nil] at rest
                cases rest
        · rw [if_neg here, Option.bind_some]
          refine ⟨node.content, ?_, List.prefix_refl _⟩
          rw [Node.withContent_content]
          exact rest

/-! ## Declarations in containers -/

/-- The declarations that the container at the end of a way itself holds. -/
def declaredUnder : List Nat → List Node → List Declaration
  | [], nodes => nodes.filterMap Node.declaration?
  | index :: path, nodes =>
    nodes[index]?.elim [] fun node => declaredUnder path node.content

theorem declaredUnder_nil (path : List Nat) : declaredUnder path [] = [] := by
  cases path <;> rfl

/-- Containers gain declarations, by the way to each of them. -/
def Gains (gain : List Nat → List Declaration) (former later : List Node) : Prop :=
  ∀ path, declaredUnder path later = declaredUnder path former ++ gain path

/-- No container gains declarations. -/
def nothing {α : Type} : α → List Declaration :=
  fun _ => []

/-- The container at the end of one way gains declarations. -/
def only {α : Type} [DecidableEq α] (place : α) (declared : List Declaration) :
    α → List Declaration :=
  fun other => if place = other then declared else []

theorem gains_refl (nodes : List Node) : Gains nothing nodes nodes := by
  intro path
  exact (List.append_nil _).symm

theorem Gains.trans {first second : List Nat → List Declaration} {former middle later : List Node}
    (gainsFirst : Gains first former middle) (gainsSecond : Gains second middle later) :
    Gains (fun path => first path ++ second path) former later := by
  intro path
  rw [gainsSecond path, gainsFirst path, List.append_assoc]

/-- Declarations put behind a container are what it gains. -/
theorem gains_declared (nodes : List Node) (declared : List Declaration) :
    Gains (only [] declared) nodes (nodes ++ declared.map Node.declaration) := by
  intro path
  cases path with
  | nil => simp [declaredUnder, only, List.filterMap_map, Function.comp_def, Node.declaration?]
  | cons index path =>
      rw [only, if_neg (List.cons_ne_nil _ _).symm, List.append_nil, declaredUnder, declaredUnder]
      by_cases below : index < nodes.length
      · rw [List.getElem?_append_left below]
      · rw [List.getElem?_append_right (Nat.le_of_not_lt below),
          List.getElem?_eq_none (Nat.le_of_not_lt below), List.getElem?_map]
        cases declared[index - nodes.length]? with
        | none => rfl
        | some declaration => exact declaredUnder_nil path

/-- What a node holds gains what the forest gains on ways through the node. -/
theorem gains_editContent {gain : List Nat → List Declaration} {nodes : List Node} {index : Nat}
    {edit : List Node → List Node} {node : Node} (there : nodes[index]? = some node)
    (block : node.hasBlock = true) (gains : Gains gain node.content (edit node.content)) :
    Gains
      (fun path => match path with
        | [] => []
        | place :: inner => if index = place then gain inner else [])
      nodes (editContent index edit nodes) := by
  intro path
  cases path with
  | nil =>
      have same (forest : List Node) :
          forest.filterMap Node.declaration? = (forest.map Node.declaration?).filterMap id := by
        simp [List.filterMap_map]
      rw [declaredUnder, declaredUnder, List.append_nil, same, same nodes,
        editContent_map Node.declaration?_withContent]
  | cons place path =>
      simp only [declaredUnder, getElem?_editContent]
      by_cases here : index = place
      · subst here
        simp [there, Node.content_withContent _ _ block, gains path]
      · simp [here]

/-! ## Placing -/

/-- A forest grows, and no container in it gains declarations. -/
structure Quiet (former later : List Node) : Prop where
  stays : Extends former later
  gains : Gains nothing former later

theorem Quiet.refl (nodes : List Node) : Quiet nodes nodes :=
  ⟨.refl nodes, gains_refl nodes⟩

theorem Quiet.trans {former middle later : List Node} (first : Quiet former middle)
    (second : Quiet middle later) : Quiet former later :=
  ⟨first.stays.trans second.stays, first.gains.trans second.gains⟩

theorem Quiet.editContent {nodes : List Node} {index : Nat} {edit : List Node → List Node}
    {node : Node} (there : nodes[index]? = some node) (block : node.hasBlock = true)
    (quiet : Quiet node.content (edit node.content)) :
    Quiet nodes (editContent index edit nodes) := by
  constructor
  · apply Extends.editContent
    intro other isOther
    rw [there] at isOther
    cases isOther
    exact quiet.stays
  · have gains := gains_editContent there block quiet.gains
    intro path
    rw [gains path]
    cases path with
    | nil => rfl
    | cons place path => simp [nothing]

/-- Whatever a way leads to, declarations can only be put behind its content. -/
theorem editAt_extends (path : List Nat) (declared : List Declaration) (nodes : List Node) :
    Extends nodes (editAt path (· ++ declared.map Node.declaration) nodes) := by
  induction path generalizing nodes with
  | nil => exact .of_grown (List.prefix_append _ _)
  | cons index path hypothesis => exact .editContent fun node _ => hypothesis node.content

/-- The rule or block at the end of a way gains what is declared there. -/
theorem editAt_gains {path : List Nat} {nodes : List Node} {node : Node}
    (there : nodeAt? path nodes = some node) (block : node.hasBlock = true)
    (declared : List Declaration) :
    Gains (only path declared) nodes (editAt path (· ++ declared.map Node.declaration) nodes) := by
  induction path generalizing nodes with
  | nil => cases there
  | cons index path hypothesis =>
      rw [nodeAt?_cons, Option.bind_eq_some_iff] at there
      rcases there with ⟨sibling, isSibling, rest⟩
      have inner : sibling.hasBlock = true ∧ Gains (only path declared) sibling.content
          (editAt path (· ++ declared.map Node.declaration) sibling.content) := by
        split at rest
        · rename_i ends
          cases rest
          rw [ends]
          exact ⟨block, gains_declared _ _⟩
        · refine ⟨?_, hypothesis rest⟩
          cases leaf : sibling.hasBlock with
          | true => rfl
          | false =>
              rw [Node.content_of_leaf leaf, nodeAt?_nil] at rest
              cases rest
      intro other
      rw [editAt, gains_editContent isSibling inner.1 inner.2 other]
      cases other with
      | nil => simp [only]
      | cons place other => by_cases here : index = place <;> simp [only, here]

end Sheet

end CssAuthoring
