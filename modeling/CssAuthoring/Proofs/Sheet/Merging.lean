import CssAuthoring.Proofs.Prelude.Alike
import CssAuthoring.Proofs.Sheet.Invariant

/-!
# Blocks that are merged

A call that asks for a block is led to one that is there already if its prelude has the same written
form.  All that two such preludes need not have in common is white space, characters outside the
grammar of preludes, and the ends of arguments.
-/

namespace CssAuthoring

namespace Sheet

open CssAuthoring.Component

/-- The blocks that a call asks for, outermost first. -/
def Call.scopes : Call → List Scope
  | .style builder _ => builder.scopes
  | .rule _ scopes => scopes
  | .atRule scope _ => [scope]
  | .keyframes name _ => [⟨keyframesKeyword, name⟩]
  | _ => []

/-- Where a call leads that succeeds. -/
def Call.handle? (sheet : Sheet) : Call → Option Handle
  | .style builder properties => (builder.style sheet properties).2.toOption
  | .rule selector scopes => (sheet.rule selector scopes).2.toOption
  | .declare handle properties => (sheet.declare handle properties).2.toOption
  | .atRule scope properties => (sheet.atRule scope properties).2.toOption
  | .statement scope => (sheet.statement scope).2.toOption
  | .keyframes name animation => (sheet.keyframes name animation).2.toOption
  | .clear => none

/-- A way goes through the blocks that scopes mean. -/
inductive Leads : List Scope → List Nat → List Node → Prop where
  | nil (path : List Nat) (nodes : List Node) : Leads [] path nodes
  | cons {scope : Scope} {scopes : List Scope} {index : Nat} {path : List Nat} {nodes : List Node}
      {node : Node} {label : Label} (there : nodes[index]? = some node)
      (isScope : scope.label? = some label) (isLabel : node.label? = some label)
      (leads : Leads scopes path node.content) : Leads (scope :: scopes) (index :: path) nodes

/-! ## Ways through blocks -/

theorem content_withContent_of_label? {node : Node} {label : Label} (content : List Node)
    (isLabel : node.label? = some label) : (node.withContent content).content = content :=
  Node.content_withContent node content (Node.hasBlock_of_label? isLabel)

/-- The way to what is reached goes through the blocks. -/
theorem leads_of_reach {scopes : List Scope} {edit : List Node → Placed}
    {siblings placed : List Node} {path : List Nat}
    (reached : reach scopes edit siblings = (placed, .ok path)) : Leads scopes path placed := by
  induction scopes generalizing siblings placed path with
  | nil => exact .nil _ _
  | cons scope inner hypothesis =>
      rcases reach_cons reached with
        ⟨label, fresh, front, node, back, content, innerPath, isScope, _, first, inside, rfl, rfl⟩
      have there : (front ++ node.withContent content :: back)[front.length]? =
          some (node.withContent content) := by simp
      refine .cons there isScope ?_ ?_
      · rw [Node.label?_withContent]
        exact first.isLabel
      · rw [content_withContent_of_label? content first.isLabel]
        exact hypothesis inside

/-- Editing what stands at the end of a way leaves the blocks on the way. -/
theorem Leads.editAt {scopes : List Scope} {path : List Nat} {nodes : List Node}
    (leads : Leads scopes path nodes) (edit : List Node → List Node) :
    Leads scopes path (editAt path edit nodes) := by
  induction leads with
  | nil path nodes => exact .nil _ _
  | @cons scope scopes index path nodes node label there isScope isLabel leads hypothesis =>
      have edited : (Sheet.editAt (index :: path) edit nodes)[index]? =
          some (node.withContent (Sheet.editAt path edit node.content)) := by
        simp [Sheet.editAt, editContent, there]
      refine .cons edited isScope ?_ ?_
      · rw [Node.label?_withContent]
        exact isLabel
      · rw [content_withContent_of_label? _ isLabel]
        exact hypothesis

/-- The block of a scope stands on a way through the blocks of scopes. -/
theorem Leads.exists_node {scopes : List Scope} {path : List Nat} {nodes : List Node}
    (leads : Leads scopes path nodes) {index : Nat} {scope : Scope}
    (asked : scopes[index]? = some scope) :
    ∃ node label, nodeAt? (path.take (index + 1)) nodes = some node ∧
      scope.label? = some label ∧ node.label? = some label := by
  induction leads generalizing index with
  | nil path nodes => cases asked
  | @cons first scopes step path nodes node label there isScope isLabel leads hypothesis =>
      cases index with
      | zero =>
          cases asked
          refine ⟨node, label, ?_, isScope, isLabel⟩
          rw [List.take_succ_cons, List.take_zero]
          exact there
      | succ index =>
          rcases hypothesis asked with ⟨inner, innerLabel, isInner, isAsked, hasLabel⟩
          refine ⟨inner, innerLabel, ?_, isAsked, hasLabel⟩
          cases path with
          | nil =>
              cases leads
              cases asked
          | cons next path =>
              rw [List.take_succ_cons, List.take_succ_cons, nodeAt?, there]
              · exact isInner
              · exact List.cons_ne_nil _ _

/-! ## Labels stay in place -/

theorem editContent_labels (index : Nat) (edit : List Node → List Node) (nodes : List Node) :
    (editContent index edit nodes).map Node.label? = nodes.map Node.label? := by
  apply List.ext_getElem?
  intro place
  rw [editContent, List.getElem?_map, List.getElem?_modify, List.getElem?_map]
  by_cases same : index = place
  · cases nodes[place]? <;> simp [same, Node.label?_withContent]
  · simp [same]

/-- Reaching into blocks appends to the labels of the siblings. -/
theorem reach_labels (scope : Scope) (inner : List Scope) (edit : List Node → Placed)
    (siblings : List Node) :
    siblings.map Node.label? <+: (reach (scope :: inner) edit siblings).1.map Node.label? := by
  unfold reach
  split
  · exact List.prefix_refl _
  · dsimp only
    rw [editContent_labels]
    exact (place_extends _ _ _).map _

/-! ## Calls -/

/-- A handle to the current nodes, by a way through the blocks of scopes. -/
structure LeadsTo (scopes : List Scope) (sheet : Sheet) (handle : Handle) : Prop where
  current : handle.era = sheet.cleared.length
  leads : Leads scopes handle.path sheet.nodes

/-- An edit that reaches a node leads through the blocks on the way. -/
theorem leadsTo_of_edit {sheet found : Sheet} {scopes : List Scope} {edit : List Node → Placed}
    {handle : Handle} (edited : sheet.edit (reach scopes edit) = (found, .ok handle)) :
    LeadsTo scopes found handle := by
  unfold Sheet.edit at edited
  rcases reached : reach scopes edit sheet.nodes with ⟨nodes, outcome⟩
  rw [reached] at edited
  cases outcome with
  | error failure => cases edited
  | ok path =>
      cases edited
      exact ⟨rfl, leads_of_reach reached⟩

theorem leadsTo_of_rule {sheet found : Sheet} {selector : Text} {scopes : List Scope}
    {handle : Handle} (placed : sheet.rule selector scopes = (found, .ok handle)) :
    LeadsTo scopes found handle := by
  rcases rule_eq_ok placed with ⟨normalized, path, _, reached, cleared, rfl⟩
  exact ⟨by rw [cleared], leads_of_reach reached⟩

theorem leadsTo_of_declare {sheet found : Sheet} {scopes : List Scope} {handle other : Handle}
    {properties : Properties} (leadsTo : LeadsTo scopes sheet handle)
    (declared : sheet.declare handle properties = (found, .ok other)) :
    LeadsTo scopes found other := by
  rcases handle with ⟨era, path⟩
  rcases leadsTo with ⟨current, leads⟩
  cases current
  have nodes := declare_nodes sheet path properties
  rw [declared] at nodes
  unfold Sheet.declare at declared
  dsimp only at declared
  split at declared
  · cases declared
    refine ⟨by simp [withForest], ?_⟩
    rw [nodes]
    exact leads.editAt _
  · cases declared

/-- Declaring after a call that leads through blocks leads through them too. -/
theorem leadsTo_of_andThen {placed : Edited Handle} {found : Sheet} {scopes : List Scope}
    {handle : Handle} {properties : Properties}
    (leadsTo : ∀ sheet handle, placed = (sheet, .ok handle) → LeadsTo scopes sheet handle)
    (declared : (placed.andThen fun sheet handle => sheet.declare handle properties) =
      (found, .ok handle)) : LeadsTo scopes found handle := by
  rcases placed with ⟨sheet, outcome⟩
  cases outcome with
  | error failure => cases declared
  | ok handle => exact leadsTo_of_declare (leadsTo sheet handle rfl) declared

/-- The labels at the top stay where they are, and nothing is cleared away. -/
structure Grows (sheet found : Sheet) : Prop where
  labels : sheet.nodes.map Node.label? <+: found.nodes.map Node.label?
  cleared : found.cleared = sheet.cleared

theorem Grows.trans {sheet found last : Sheet} (first : Grows sheet found)
    (second : Grows found last) : Grows sheet last :=
  ⟨first.labels.trans second.labels, second.cleared.trans first.cleared⟩

/-- A way into one block at the top stays a way into it. -/
theorem LeadsTo.grows {scope : Scope} {sheet found : Sheet} {handle : Handle}
    (leadsTo : LeadsTo [scope] sheet handle) (grows : Grows sheet found) :
    LeadsTo [scope] found handle := by
  refine ⟨by rw [grows.cleared, leadsTo.current], ?_⟩
  rcases handle with ⟨era, path⟩
  cases leadsTo.leads with
  | @cons _ _ index path _ node label there isScope isLabel _ =>
      have labelled : (sheet.nodes.map Node.label?)[index]? = some (some label) := by
        rw [List.getElem?_map, there, Option.map_some, isLabel]
      rcases grows.labels with ⟨more, whole⟩
      have stays : (found.nodes.map Node.label?)[index]? = some (some label) := by
        rw [← whole, List.getElem?_append_left (List.getElem?_eq_some_iff.1 labelled).1, labelled]
      rw [List.getElem?_map] at stays
      rcases Option.map_eq_some_iff.1 stays with ⟨other, there, isLabel⟩
      exact .cons there isScope isLabel (.nil _ _)

/-- Declarations put behind the content of a current node leave the labels where they are. -/
theorem declare_grows (sheet : Sheet) (path : List Nat) (properties : Properties) :
    Grows sheet (sheet.declare ⟨sheet.cleared.length, path⟩ properties).1 := by
  constructor
  · rw [declare_nodes]
    cases path with
    | nil =>
        rw [editAt, List.map_append]
        exact List.prefix_append _ _
    | cons index path =>
        exact ⟨[], by rw [List.append_nil, editAt, editContent_labels]⟩
  · simp [declare, withForest]

theorem frame_grows (sheet : Sheet) (name selector : Text) (properties : Properties) :
    Grows sheet (sheet.frame name selector properties).1 := by
  unfold frame Sheet.edit
  have labels := reach_labels ⟨keyframesKeyword, name⟩ [] (placeRule (Text.collapse selector))
    sheet.nodes
  dsimp only
  rcases reached : reach [⟨keyframesKeyword, name⟩] (placeRule (Text.collapse selector))
    sheet.nodes with ⟨nodes, outcome⟩
  rw [reached] at labels
  have placed : Grows sheet { sheet with nodes } := ⟨labels, rfl⟩
  cases outcome with
  | error failure => exact placed
  | ok path => exact placed.trans (declare_grows { sheet with nodes } path properties)

/-- Declaring frames leaves the labels at the top where they are. -/
theorem frames_grows (name : Text) (sheet : Sheet) (animation : List (Text × Properties)) :
    Grows sheet (frames name sheet animation).1 := by
  induction animation generalizing sheet with
  | nil => exact ⟨List.prefix_refl _, rfl⟩
  | cons first rest hypothesis =>
      rcases first with ⟨selector, properties⟩
      have grows := frame_grows sheet name selector properties
      rw [frames]
      rcases framed : sheet.frame name selector properties with ⟨next, outcome⟩
      rw [framed] at grows
      cases outcome with
      | error failure => exact grows
      | ok handle => exact grows.trans (hypothesis next)

theorem leadsTo_of_keyframes {sheet found : Sheet} {name : Text}
    {animation : OrderedTable Text Properties} {handle : Handle}
    (declared : sheet.keyframes name animation = (found, .ok handle)) :
    LeadsTo [⟨keyframesKeyword, name⟩] found handle := by
  unfold keyframes at declared
  rcases placed : sheet.block ⟨keyframesKeyword, name⟩ with ⟨next, outcome⟩
  rw [placed] at declared
  cases outcome with
  | error failure => cases declared
  | ok place =>
      have grows := frames_grows name next animation.entries
      rw [Outcome.andThen_ok] at declared
      rcases framed : frames name next animation.entries with ⟨last, done⟩
      rw [framed] at grows declared
      cases done with
      | error failure => cases declared
      | ok finished =>
          cases declared
          exact (leadsTo_of_edit placed).grows grows

theorem exists_of_toOption {edited : Edited Handle} {handle : Handle}
    (isHandle : edited.2.toOption = some handle) : edited = (edited.1, .ok handle) := by
  rcases edited with ⟨sheet, outcome⟩
  cases outcome <;> cases isHandle
  rfl

/-- A call leads through the blocks that it asks for. -/
theorem leadsTo_of_call {sheet : Sheet} {call : Call} {handle : Handle}
    (isHandle : call.handle? sheet = some handle) (asks : call.scopes ≠ []) :
    LeadsTo call.scopes (sheet.after call) handle := by
  cases call with
  | style builder properties =>
      exact leadsTo_of_andThen (fun _ _ placed => leadsTo_of_rule placed)
        (exists_of_toOption isHandle)
  | rule selector scopes => exact leadsTo_of_rule (exists_of_toOption isHandle)
  | atRule scope properties =>
      exact leadsTo_of_andThen (fun _ _ placed => leadsTo_of_edit placed)
        (exists_of_toOption isHandle)
  | keyframes name animation => exact leadsTo_of_keyframes (exists_of_toOption isHandle)
  | _ => exact absurd rfl asks

/-! ## Blocks with the same key -/

/-- Asking for the block of one scope after that of another with the same key leads to the other. -/
theorem atRule_shared {former latter : Scope} {first second : Heading}
    (isFormer : former.heading = .ok first) (isLatter : latter.heading = .ok second)
    (keyword : Text.lower former.keyword = Text.lower latter.keyword)
    (key : first.key = second.key) :
    (Call.atRule latter ⟨[]⟩).handle? (Sheet.empty.after (.atRule former ⟨[]⟩)) = some ⟨0, [0]⟩ ∧
      ((Sheet.empty.after (.atRule former ⟨[]⟩)).after (.atRule latter ⟨[]⟩)).node? ⟨0, [0]⟩ =
        some (.atRule former.keyword first.values []) := by
  have isBlock : (Node.atRule former.keyword first.values []).isBlockFor latter.keyword second.key =
      true := by
    rw [isBlockFor_iff, Node.label?, (heading_text isFormer).2.2, keyword, key]
  have made : Sheet.empty.after (.atRule former ⟨[]⟩) =
      ⟨[.atRule former.keyword first.values []], []⟩ := by
    simp [after, atRule, block, Sheet.edit, reach, isFormer, Sheet.empty, place, editContent,
      declare, declarations, withForest, forest, Sheet.editAt, Except.map, Node.withContent,
      Node.content]
  rw [made]
  constructor
  all_goals
    simp [Call.handle?, after, atRule, block, Sheet.edit, reach, isLatter, place, isBlock,
      editContent, declare, declarations, refusal, withForest, forest, Sheet.editAt, Except.map,
      Except.toOption, Node.withContent, Node.content, node?, nodeAt?]

/-- Whether a scope has a heading with a key and a written form. -/
def Scope.isKeyed (scope : Scope) (key written : Text) : Bool :=
  match scope.heading with
  | .ok heading => heading.key = key && Value.textAll heading.values = written
  | .error _ => false

theorem Scope.exists_heading {scope : Scope} {key written : Text}
    (keyed : scope.isKeyed key written = true) :
    ∃ heading, scope.heading = .ok heading ∧ heading.key = key ∧
      Value.textAll heading.values = written := by
  unfold isKeyed at keyed
  split at keyed
  · rename_i heading isHeading
    simp only [Bool.and_eq_true, decide_eq_true_eq] at keyed
    exact ⟨heading, isHeading, keyed⟩
  · cases keyed

/-! ## What merged blocks have in common -/

/--
Where a call that asks for the block of one scope is led to a block that was made for another, the
keywords agree up to case, and the preludes are alike as they are written.
-/
theorem alike_of_call {sheet : Sheet} {call : Call} {handle : Handle} {index : Nat}
    {former latter : Scope} {first second : Heading} {content : List Node}
    (isHandle : call.handle? sheet = some handle) (asked : call.scopes[index]? = some latter)
    (isFormer : former.heading = .ok first) (isLatter : latter.heading = .ok second)
    (there : (sheet.after call).node? ⟨handle.era, handle.path.take (index + 1)⟩ =
      some (.atRule former.keyword first.values content)) :
    Text.lower former.keyword = Text.lower latter.keyword ∧
      Prelude.Alike (Value.textAll first.values) (Value.textAll second.values) := by
  have asks : call.scopes ≠ [] := by
    intro none
    rw [none] at asked
    cases asked
  rcases leadsTo_of_call isHandle asks with ⟨current, leads⟩
  rcases leads.exists_node asked with ⟨node, label, isNode, isScope, isLabel⟩
  rw [node?, forest, if_pos current, isNode] at there
  cases there
  have firstKey := (heading_text isFormer).2.2
  rw [Scope.label?, isLatter] at isScope
  rw [Node.label?, firstKey, ← isScope] at isLabel
  injection isLabel with labels
  injection labels with keyword key
  rw [key] at firstKey
  exact ⟨keyword, Prelude.alike_of_normalize firstKey (heading_text isLatter).2.2⟩

/-- A condition on the width. -/
def tightScope : Scope := ⟨"media", "(width>1px)"⟩

/-- The same condition under a keyword in capitals and with other white space. -/
def spacedScope : Scope := ⟨"MEDIA", "( width > 1px )"⟩

/-- A block for one condition is found again when the other is asked for. -/
theorem alike_of_call_media :
    ∃ first second, tightScope.heading = .ok first ∧ spacedScope.heading = .ok second ∧
      Prelude.Alike (Value.textAll first.values) (Value.textAll second.values) := by
  have tight : tightScope.isKeyed "( width > 1px )" "(width>1px)" = true := by decide +kernel
  have spaced : spacedScope.isKeyed "( width > 1px )" "( width > 1px )" = true := by
    decide +kernel
  rcases Scope.exists_heading tight with ⟨first, isFormer, firstKey, _⟩
  rcases Scope.exists_heading spaced with ⟨second, isLatter, secondKey, _⟩
  have keyword : Text.lower tightScope.keyword = Text.lower spacedScope.keyword := by
    decide +kernel
  rcases atRule_shared isFormer isLatter keyword (firstKey.trans secondKey.symm) with
    ⟨isHandle, there⟩
  have asked : (Call.atRule spacedScope ⟨[]⟩).scopes[0]? = some spacedScope := rfl
  exact ⟨first, second, isFormer, isLatter,
    (alike_of_call isHandle asked isFormer isLatter there).2⟩

/-- Rules for what is inside elements of a class. -/
def classScope : Scope := ⟨"scope", "(.card)"⟩

/-- Rules for what is inside elements of a type. -/
def typeScope : Scope := ⟨"scope", "(card)"⟩

/--
The block for a class is found again when the one for a type is asked for, since the point is
dropped: their preludes differ in more than white space.
-/
theorem merged_class_type :
    ∃ first second, classScope.heading = .ok first ∧ typeScope.heading = .ok second ∧
      (Call.atRule typeScope ⟨[]⟩).handle? (Sheet.empty.after (.atRule classScope ⟨[]⟩)) =
          some ⟨0, [0]⟩ ∧
        ((Sheet.empty.after (.atRule classScope ⟨[]⟩)).after (.atRule typeScope ⟨[]⟩)).node?
            ⟨0, [0]⟩ = some (.atRule classScope.keyword first.values []) ∧
          (Value.textAll first.values).filter (fun character => !Text.isBlank character) ≠
            (Value.textAll second.values).filter fun character => !Text.isBlank character := by
  have keyedClass : classScope.isKeyed "( card )" "(.card)" = true := by decide +kernel
  have keyedType : typeScope.isKeyed "( card )" "(card)" = true := by decide +kernel
  rcases Scope.exists_heading keyedClass with ⟨first, isFormer, firstKey, firstWritten⟩
  rcases Scope.exists_heading keyedType with ⟨second, isLatter, secondKey, secondWritten⟩
  rcases atRule_shared isFormer isLatter rfl (firstKey.trans secondKey.symm) with ⟨isHandle, there⟩
  refine ⟨first, second, isFormer, isLatter, isHandle, there, ?_⟩
  rw [firstWritten, secondWritten]
  decide +kernel

end Sheet

end CssAuthoring
