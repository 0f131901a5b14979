import CssAuthoring.Builder
import CssAuthoring.Proofs.Sheet.TreeMap

/-!
# Styling a stylesheet

Styling finds or appends the blocks on the way to a rule and the rule itself, and appends
declarations to it.  In a forest that represents entries, this is one more entry at the end of the
list.  A run of such calls from an empty stylesheet therefore leaves the ordered tree-shaped map of
the entries that the calls stand for.
-/

namespace CssAuthoring

namespace Sheet

open CssAuthoring.Component

/-! ## The entry of a call -/

/-- The label that the block of a scope is found by. -/
def Scope.label? (scope : Scope) : Option Label :=
  match scope.heading with
  | .error _ => none
  | .ok heading => some (.block (Text.lower scope.keyword) heading.key)

theorem Scope.label?_eq {scope : Scope} {label : Label} (isLabel : scope.label? = some label) :
    ∃ key, label = .block (Text.lower scope.keyword) key := by
  unfold Scope.label? at isLabel
  split at isLabel
  · cases isLabel
  · cases isLabel
    exact ⟨_, rfl⟩

/-- The label that the rule for a selector is found by. -/
def ruleLabel? (selector : Text) : Option Label :=
  match parse selector with
  | .error _ => none
  | .ok prelude => some (.rule (Text.trim (Value.textAll prelude)))

/-- The way through the blocks of scopes to the rule for a selector. -/
def address? (selector : Text) : List Scope → Option (List Label)
  | [] => (ruleLabel? selector).map fun label => [label]
  | scope :: inner => scope.label?.bind fun label => (address? selector inner).map (label :: ·)

theorem isAddress_of_address? {selector : Text} {scopes : List Scope} {address : List Label}
    (found : address? selector scopes = some address) : IsAddress address := by
  induction scopes generalizing address with
  | nil =>
      rcases Option.map_eq_some_iff.1 found with ⟨label, isLabel, rfl⟩
      unfold ruleLabel? at isLabel
      split at isLabel
      · contradiction
      · cases isLabel
        exact .rule _
  | cons scope inner hypothesis =>
      rcases Option.bind_eq_some_iff.1 found with ⟨label, isLabel, rest⟩
      rcases Option.map_eq_some_iff.1 rest with ⟨tail, isTail, rfl⟩
      rcases scope.label?_eq isLabel with ⟨key, rfl⟩
      exact .block _ _ (hypothesis isTail)

end Sheet

/-- A call that styles the selector of a builder. -/
structure StyleCall where
  builder : Builder
  properties : Sheet.Properties
  deriving Repr

/-- The address of the rule that a call means, with the declarations that it makes. -/
def StyleCall.entry? (call : StyleCall) : Option Sheet.Entry :=
  match Selector.normalize call.builder.selector with
  | .error _ => none
  | .ok normalized =>
    (Sheet.address? normalized call.builder.scopes).map fun address =>
      ⟨address, (Sheet.declarations call.properties.entries).1⟩

namespace Sheet

open CssAuthoring.Component

/-- Styles a stylesheet by one call after the other, up to the first that fails. -/
def styleAll : Sheet → List StyleCall → Edited Unit
  | sheet, [] => (sheet, .ok ())
  | sheet, call :: rest =>
    (call.builder.style sheet call.properties).andThen fun sheet _ => styleAll sheet rest

/-! ## Finding and editing nodes -/

theorem isRuleFor_iff (key : Text) (node : Node) :
    node.isRuleFor key = true ↔ node.label? = some (.rule key) := by
  cases node with
  | atRule keyword prelude content =>
      cases keyed : preludeKey prelude <;> simp [Node.isRuleFor, Node.label?, keyed]
  | _ => simp [Node.isRuleFor, Node.label?]

theorem isBlockFor_iff (keyword key : Text) (node : Node) :
    node.isBlockFor keyword key = true ↔
      node.label? = some (.block (Text.lower keyword) key) := by
  cases node with
  | atRule other prelude content =>
      cases keyed : preludeKey prelude <;> simp [Node.isBlockFor, Node.label?, keyed]
  | _ => simp [Node.isBlockFor, Node.label?]

theorem editContent_append (edit : List Node → List Node) (front back : List Node) (node : Node) :
    editContent front.length edit (front ++ node :: back) =
      front ++ node.withContent (edit node.content) :: back := by
  rw [editContent]
  induction front with
  | nil => rfl
  | cons first front hypothesis =>
      rw [List.cons_append, List.length_cons, List.modify_succ_cons, hypothesis]
      rfl

theorem Node.withContent_withContent (node : Node) (first second : List Node) :
    (node.withContent first).withContent second = node.withContent second := by
  cases node <;> rfl

/-- Finding or appending a rule and extending it adds one entry with its label as the address. -/
theorem placeRule_represents {selector : Text} {siblings placed : List Node} {path : List Nat}
    {entries : List Entry} (represents : Represents entries siblings)
    (isPlaced : placeRule selector siblings = (placed, .ok path)) :
    ∃ label, ruleLabel? selector = some label ∧
      ∀ declared : List Declaration,
        Represents (entries ++ [⟨[label], declared⟩])
          (editAt path (· ++ declared.map Node.declaration) placed) := by
  unfold placeRule at isPlaced
  split at isPlaced
  · cases isPlaced
  · rename_i prelude parsed
    have freshLabel : (Node.rule prelude []).label? =
        some (.rule (Text.trim (Value.textAll prelude))) := rfl
    rcases exists_firstFit (isRuleFor_iff _) freshLabel siblings with
      ⟨front, node, back, isFirst, first⟩
    dsimp only at isPlaced
    rw [isFirst] at isPlaced
    cases isPlaced
    refine ⟨.rule (Text.trim (Value.textAll prelude)), ?_, ?_⟩
    · rw [ruleLabel?, parsed]
    · intro declared
      have content : node.content = declaredNodes _ := first.holds represents rfl
      rw [editAt, editContent_append]
      apply first.represents represents
      show node.content ++ declared.map Node.declaration = declaredNodes _
      rw [declaredNodes_append, ← content]
      simp [declaredNodes]

/-- The outermost block is found or appended, and what it holds is reached into. -/
theorem reach_cons {scope : Scope} {inner : List Scope} {edit : List Node → Placed}
    {siblings placed : List Node} {path : List Nat}
    (reached : reach (scope :: inner) edit siblings = (placed, .ok path)) :
    ∃ label fresh front node back content innerPath, scope.label? = some label ∧
      fresh.content = [] ∧ FirstFit label fresh siblings front node back ∧
        reach inner edit node.content = (content, .ok innerPath) ∧
          placed = front ++ node.withContent content :: back ∧
            path = front.length :: innerPath := by
  unfold reach at reached
  split at reached
  · cases reached
  · rename_i heading isHeading
    have freshLabel : (Node.atRule scope.keyword heading.values []).label? =
        some (.block (Text.lower scope.keyword) heading.key) := by
      rw [Node.label?, (heading_text isHeading).2.2]
    rcases exists_firstFit (isBlockFor_iff _ _) freshLabel siblings with
      ⟨front, node, back, isFirst, first⟩
    have atNode : (front ++ node :: back)[front.length]? = some node := by simp
    dsimp only at reached
    rw [isFirst] at reached
    dsimp only at reached
    rw [atNode, Option.map_some, Option.getD_some] at reached
    rcases innermost : reach inner edit node.content with ⟨content, outcome⟩
    rw [innermost] at reached
    cases outcome with
    | error failure => cases reached
    | ok innerPath =>
        cases reached
        refine ⟨_, _, front, node, back, content, innerPath, ?_, rfl, first, innermost, ?_, rfl⟩
        · rw [Scope.label?, isHeading]
        · exact editContent_append _ _ _ _

/-- Reaching a rule and extending it adds one entry to what a forest represents. -/
theorem reach_represents {selector : Text} {scopes : List Scope} {siblings placed : List Node}
    {path : List Nat} {entries : List Entry} (represents : Represents entries siblings)
    (reached : reach scopes (placeRule selector) siblings = (placed, .ok path)) :
    ∃ address, address? selector scopes = some address ∧
      ∀ declared : List Declaration,
        Represents (entries ++ [⟨address, declared⟩])
          (editAt path (· ++ declared.map Node.declaration) placed) := by
  -- The invariant goes down the scopes: under a block, what it holds represents the entries there.
  induction scopes generalizing siblings placed path entries with
  | nil =>
      rcases placeRule_represents represents reached with ⟨label, isLabel, represented⟩
      refine ⟨[label], ?_, represented⟩
      rw [address?, isLabel]
      rfl
  | cons scope inner hypothesis =>
      rcases reach_cons reached with
        ⟨label, fresh, front, node, back, content, innerPath, isLabel, freshEmpty, first,
          innermost, rfl, rfl⟩
      have holds := first.holds represents freshEmpty
      rcases scope.label?_eq isLabel with ⟨key, rfl⟩
      rcases hypothesis holds innermost with ⟨address, isAddress, represented⟩
      refine ⟨.block (Text.lower scope.keyword) key :: address, ?_, ?_⟩
      · rw [address?, isLabel, isAddress]
        rfl
      · intro declared
        rw [editAt, editContent_append,
          Node.content_withContent _ _ (Node.hasBlock_of_label? first.isLabel),
          Node.withContent_withContent]
        exact first.represents represents (represented declared)

/-! ## One call -/

/-- A rule that is found leaves a stylesheet with the forest that reaching it gives. -/
theorem rule_eq_ok {sheet found : Sheet} {selector : Text} {scopes : List Scope} {handle : Handle}
    (placed : sheet.rule selector scopes = (found, .ok handle)) :
    ∃ normalized path, Selector.normalize selector = .ok normalized ∧
      reach scopes (placeRule normalized) sheet.nodes = (found.nodes, .ok path) ∧
        found.cleared = sheet.cleared ∧ handle = ⟨sheet.cleared.length, path⟩ := by
  unfold rule at placed
  split at placed
  · cases placed
  · cases placed
  · rename_i normalized _ isNormalized
    unfold edit at placed
    rcases reached : reach scopes (placeRule normalized) sheet.nodes with ⟨nodes, outcome⟩
    rw [reached] at placed
    cases outcome with
    | error failure => cases placed
    | ok path =>
        cases placed
        exact ⟨normalized, path, isNormalized, reached, rfl, rfl⟩

/-- Declarations are appended to the content of the node that a handle leads to. -/
theorem declare_nodes (sheet : Sheet) (path : List Nat) (properties : Properties) :
    (sheet.declare ⟨sheet.cleared.length, path⟩ properties).1.nodes =
      editAt path (· ++ (declarations properties.entries).1.map Node.declaration) sheet.nodes := by
  simp [declare, withForest, forest]

/-- A call that succeeds adds its entry to what a stylesheet represents. -/
theorem style_represents {sheet styled : Sheet} {call : StyleCall} {handle : Handle}
    {entries : List Entry} (represents : Represents entries sheet.nodes)
    (succeeded : call.builder.style sheet call.properties = (styled, .ok handle)) :
    ∃ entry, call.entry? = some entry ∧ Represents (entries ++ [entry]) styled.nodes := by
  unfold Builder.style style at succeeded
  rcases placed : sheet.rule call.builder.selector call.builder.scopes with ⟨found, outcome⟩
  rw [placed] at succeeded
  cases outcome with
  | error failure => cases succeeded
  | ok place =>
      rcases rule_eq_ok placed with ⟨normalized, path, isNormalized, reached, cleared, rfl⟩
      rcases reach_represents represents reached with ⟨address, isAddress, represented⟩
      refine ⟨⟨address, (declarations call.properties.entries).1⟩, ?_, ?_⟩
      · rw [StyleCall.entry?, isNormalized]
        dsimp only
        rw [isAddress]
        rfl
      · rw [Outcome.andThen_ok, ← cleared] at succeeded
        have nodes := declare_nodes found path call.properties
        rw [succeeded] at nodes
        rw [nodes]
        exact represented _

/-! ## Runs of calls -/

/-- A run of calls that succeeds adds their entries, in order. -/
theorem styleAll_represents {sheet styled : Sheet} {calls : List StyleCall} {entries : List Entry}
    (represents : Represents entries sheet.nodes)
    (succeeded : sheet.styleAll calls = (styled, .ok ())) :
    ∃ added, calls.map StyleCall.entry? = added.map some ∧
      Represents (entries ++ added) styled.nodes := by
  induction calls generalizing sheet entries with
  | nil =>
      cases succeeded
      exact ⟨[], rfl, by simpa using represents⟩
  | cons call rest hypothesis =>
      unfold styleAll at succeeded
      rcases first : call.builder.style sheet call.properties with ⟨next, outcome⟩
      rw [first] at succeeded
      cases outcome with
      | error failure => cases succeeded
      | ok handle =>
          rcases style_represents represents first with ⟨entry, isEntry, representsNext⟩
          rcases hypothesis representsNext succeeded with ⟨added, areEntries, represented⟩
          refine ⟨entry :: added, ?_, ?_⟩
          · rw [List.map_cons, List.map_cons, isEntry, areEntries]
          · rwa [List.append_assoc, List.singleton_append] at represented

theorem isAddress_of_entry? {call : StyleCall} {entry : Entry}
    (isEntry : call.entry? = some entry) :
    IsAddress entry.address := by
  unfold StyleCall.entry? at isEntry
  split at isEntry
  · cases isEntry
  · rcases Option.map_eq_some_iff.1 isEntry with ⟨address, isAddress, rfl⟩
    exact isAddress_of_address? isAddress

/--
A run of calls on an empty stylesheet leaves the ordered tree-shaped map of their entries: every
call has an address, and each rule, block and order among siblings is what the addresses say.
-/
theorem styleAll_refines {calls : List StyleCall} {sheet : Sheet}
    (succeeded : Sheet.empty.styleAll calls = (sheet, .ok ())) :
    ∃ entries, calls.map StyleCall.entry? = entries.map some ∧
      (∀ entry ∈ entries, IsAddress entry.address) ∧ Refines entries sheet.nodes := by
  rcases styleAll_represents represents_nil succeeded with ⟨entries, areEntries, represents⟩
  have addresses : ∀ entry ∈ entries, IsAddress entry.address := by
    intro entry member
    have isSome : some entry ∈ calls.map StyleCall.entry? := by
      rw [areEntries]
      exact List.mem_map_of_mem member
    rcases List.mem_map.1 isSome with ⟨call, _, isEntry⟩
    exact isAddress_of_entry? isEntry
  exact ⟨entries, areEntries, addresses, Represents.refines represents addresses⟩

/-- Two calls for one rule, in a block that they name in two ways, and one for another rule. -/
def mediaCalls : List StyleCall :=
  [⟨⟨[.canonical (.element "a".toList none)], [⟨"media", "print"⟩]⟩, ⟨[("color", .text "red")]⟩⟩,
    ⟨⟨[.canonical (.element "b".toList none)], []⟩, ⟨[("color", .text "red")]⟩⟩,
    ⟨⟨[.canonical (.element "a".toList none)], [⟨"MEDIA", "@media  print"⟩]⟩,
      ⟨[("margin", .text "0")]⟩⟩]

theorem styleAll_refines_media :
    ∃ sheet entries, Sheet.empty.styleAll mediaCalls = (sheet, .ok ()) ∧
      mediaCalls.map StyleCall.entry? = entries.map some ∧ Refines entries sheet.nodes := by
  have isOk : (Sheet.empty.styleAll mediaCalls).2.isOk = true := by
    decide +kernel
  rcases run : Sheet.empty.styleAll mediaCalls with ⟨sheet, outcome⟩
  rw [run] at isOk
  cases outcome with
  | error failure => cases isOk
  | ok done =>
      rcases styleAll_refines run with ⟨entries, areEntries, _, refines⟩
      exact ⟨sheet, entries, rfl, areEntries, refines⟩

end Sheet

end CssAuthoring
