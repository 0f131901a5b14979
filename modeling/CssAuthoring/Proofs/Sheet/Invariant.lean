import CssAuthoring.Proofs.Sheet.Styling

/-!
# What every stylesheet keeps to

A stylesheet is reached by calls, some of which may fail half-way.  Whatever the calls were, every
container in it holds only nodes that may stand there, and no two rules or blocks that are found by
the same label.

The invariant `Sound` follows the nesting of the forest.  One call preserves it because each of its
steps does: finding or appending a node, replacing what a node holds, and appending declarations to
a rule or block.
-/

namespace CssAuthoring

namespace Sheet

open CssAuthoring.Component

/-! ## Calls -/

/-- A call that may change a stylesheet. -/
inductive Call where
  | style (builder : Builder) (properties : Properties)
  | rule (selector : Text) (scopes : List Scope)
  | declare (handle : Handle) (properties : Properties)
  | atRule (scope : Scope) (properties : Properties)
  | statement (scope : Scope)
  | keyframes (name : Text) (animation : OrderedTable Text Properties)
  | clear
  deriving Repr

/-- The stylesheet that a call leaves behind, whether it succeeds or fails. -/
def after (sheet : Sheet) : Call → Sheet
  | .style builder properties => (builder.style sheet properties).1
  | .rule selector scopes => (sheet.rule selector scopes).1
  | .declare handle properties => (sheet.declare handle properties).1
  | .atRule scope properties => (sheet.atRule scope properties).1
  | .statement scope => (sheet.statement scope).1
  | .keyframes name animation => (sheet.keyframes name animation).1
  | .clear => sheet.clear

/-- Whether a call can be made: what declarations are added to has to be a node. -/
def Call.Possible (sheet : Sheet) : Call → Prop
  | .declare handle _ => sheet.node? handle ≠ none
  | _ => True

/-- The stylesheets that calls lead to. -/
inductive Reachable : Sheet → Prop where
  | empty : Reachable Sheet.empty
  | after {sheet : Sheet} {call : Call} (reachable : Reachable sheet)
      (possible : call.Possible sheet) : Reachable (sheet.after call)

/-! ## Containers -/

/-- What a container belongs to: the stylesheet itself, a block or a rule. -/
inductive Place where
  | top
  | block
  | rule
  deriving DecidableEq, Repr

/-- Whether a node may stand in a container. -/
def Node.mayStand : Place → Node → Bool
  | .top, .declaration _ => false
  | .block, .statement _ _ => false
  | .rule, .declaration _ => true
  | .rule, _ => false
  | _, _ => true

/-- The container that a node is, if it has a block. -/
def Node.inside? : Node → Option Place
  | .rule _ _ => some .rule
  | .atRule _ _ _ => some .block
  | _ => none

/-- The containers of a forest: the forest, and what a node in one of its containers holds. -/
inductive IsContainer (nodes : List Node) : Place → List Node → Prop where
  | top : IsContainer nodes .top nodes
  | inside {place inner : Place} {siblings : List Node} {node : Node}
      (container : IsContainer nodes place siblings) (member : node ∈ siblings)
      (opens : node.inside? = some inner) : IsContainer nodes inner node.content

/-- The kinds of nodes that have a written form. -/
def writtenKinds : List Text :=
  ["declaration", "qualified-rule", "at-rule"]

/-- What holds in every container of a stylesheet. -/
structure WellFormed (nodes : List Node) : Prop where
  /-- No two rules have the same written prelude. -/
  rules : ∀ place siblings, IsContainer nodes place siblings →
    siblings.Pairwise fun first second =>
      ∀ key, first.isRuleFor key = true → second.isRuleFor key = false
  /-- No two blocks have the same keyword up to case and the same prelude as tokens. -/
  blocks : ∀ place siblings, IsContainer nodes place siblings →
    siblings.Pairwise fun first second =>
      ∀ keyword key, first.isBlockFor keyword key = true → second.isBlockFor keyword key = false
  /-- Every rule and every block can be found again. -/
  found : ∀ place siblings, IsContainer nodes place siblings →
    ∀ node ∈ siblings, node.hasBlock = true → node.label? ≠ none
  /-- Only nodes that may stand there stand in a container. -/
  places : ∀ place siblings, IsContainer nodes place siblings →
    ∀ node ∈ siblings, node.mayStand place = true
  /-- Writing the stylesheet meets no node without a written form. -/
  written : ∀ place siblings, IsContainer nodes place siblings →
    ∀ node ∈ siblings, node.kind ∈ writtenKinds

/-! ## The invariant -/

/-- Whatever stands in a container may stand there, is labelled apart, and holds what it may. -/
inductive Sound : Place → List Node → Prop where
  | intro {place : Place} {nodes : List Node}
      (apart : (nodes.filterMap Node.label?).Nodup)
      (labelled : ∀ node ∈ nodes, node.hasBlock = true → node.label? ≠ none)
      (stands : ∀ node ∈ nodes, node.mayStand place = true)
      (inside : ∀ node ∈ nodes, ∀ inner, node.inside? = some inner → Sound inner node.content) :
      Sound place nodes

theorem Sound.apart {place : Place} {nodes : List Node} (sound : Sound place nodes) :
    (nodes.filterMap Node.label?).Nodup := by
  cases sound with
  | intro apart labelled stands inside => exact apart

theorem Sound.labelled {place : Place} {nodes : List Node} (sound : Sound place nodes) :
    ∀ node ∈ nodes, node.hasBlock = true → node.label? ≠ none := by
  cases sound with
  | intro apart labelled stands inside => exact labelled

theorem Sound.stands {place : Place} {nodes : List Node} (sound : Sound place nodes) :
    ∀ node ∈ nodes, node.mayStand place = true := by
  cases sound with
  | intro apart labelled stands inside => exact stands

theorem Sound.inside {place : Place} {nodes : List Node} (sound : Sound place nodes) :
    ∀ node ∈ nodes, ∀ inner, node.inside? = some inner → Sound inner node.content := by
  cases sound with
  | intro apart labelled stands inside => exact inside

theorem sound_nil (place : Place) : Sound place [] := by
  constructor <;> simp

/-- Siblings can be put behind others if they bring no label that is already there. -/
theorem Sound.append {place : Place} {front back : List Node} (soundFront : Sound place front)
    (soundBack : Sound place back)
    (fresh : ∀ label ∈ back.filterMap Node.label?, label ∉ front.filterMap Node.label?) :
    Sound place (front ++ back) := by
  constructor
  · rw [List.filterMap_append, List.nodup_append]
    refine ⟨soundFront.apart, soundBack.apart, ?_⟩
    rintro first inFront second inBack rfl
    exact fresh first inBack inFront
  · intro node member
    rcases List.mem_append.1 member with inFront | inBack
    · exact soundFront.labelled node inFront
    · exact soundBack.labelled node inBack
  · intro node member
    rcases List.mem_append.1 member with inFront | inBack
    · exact soundFront.stands node inFront
    · exact soundBack.stands node inBack
  · intro node member
    rcases List.mem_append.1 member with inFront | inBack
    · exact soundFront.inside node inFront
    · exact soundBack.inside node inBack

theorem Node.mayStand_withContent (place : Place) (node : Node) (content : List Node) :
    (node.withContent content).mayStand place = node.mayStand place := by
  cases place <;> cases node <;> rfl

theorem Node.inside?_withContent (node : Node) (content : List Node) :
    (node.withContent content).inside? = node.inside? := by
  cases node <;> rfl

theorem Node.hasBlock_withContent (node : Node) (content : List Node) :
    (node.withContent content).hasBlock = node.hasBlock := by
  cases node <;> rfl

theorem Node.hasBlock_of_inside? {node : Node} {inner : Place}
    (opens : node.inside? = some inner) : node.hasBlock = true := by
  cases node <;> first | rfl | cases opens

/-- What a node holds can be replaced by what it may hold. -/
theorem Sound.replace {place : Place} {front back content : List Node} {node : Node}
    (sound : Sound place (front ++ node :: back))
    (holds : ∀ inner, node.inside? = some inner → Sound inner content) :
    Sound place (front ++ node.withContent content :: back) := by
  have which {other : Node} (member : other ∈ front ++ node.withContent content :: back) :
      other = node.withContent content ∨ other ∈ front ++ node :: back := by
    rcases List.mem_append.1 member with inFront | inBack
    · exact .inr (List.mem_append_left _ inFront)
    · rcases List.mem_cons.1 inBack with rfl | inBack
      · exact .inl rfl
      · exact .inr (List.mem_append_right _ (List.mem_cons_of_mem _ inBack))
  have isMember : node ∈ front ++ node :: back := by simp
  constructor
  · have sameLabels : (front ++ node.withContent content :: back).filterMap Node.label? =
        (front ++ node :: back).filterMap Node.label? := by
      rw [List.filterMap_append, List.filterMap_cons, Node.label?_withContent,
        List.filterMap_append, List.filterMap_cons]
    rw [sameLabels]
    exact sound.apart
  · intro other member
    rcases which member with rfl | isOld
    · rw [Node.hasBlock_withContent, Node.label?_withContent]
      exact sound.labelled node isMember
    · exact sound.labelled other isOld
  · intro other member
    rcases which member with rfl | isOld
    · rw [Node.mayStand_withContent]
      exact sound.stands node isMember
    · exact sound.stands other isOld
  · intro other member inner opens
    rcases which member with rfl | isOld
    · rw [Node.inside?_withContent] at opens
      rw [Node.content_withContent _ _ (Node.hasBlock_of_inside? opens)]
      exact holds inner opens
    · exact sound.inside other isOld inner opens

/-- Declarations can be put behind what a rule or block holds. -/
theorem Sound.declared {place : Place} {nodes : List Node} (sound : Sound place nodes)
    (inside : place ≠ .top) (declared : List Declaration) :
    Sound place (nodes ++ declared.map Node.declaration) := by
  have isDeclaration {node : Node} (member : node ∈ declared.map Node.declaration) :
      ∃ declaration, node = .declaration declaration := by
    rcases List.mem_map.1 member with ⟨declaration, _, rfl⟩
    exact ⟨declaration, rfl⟩
  have noLabels : (declared.map Node.declaration).filterMap Node.label? = [] := by
    rw [List.filterMap_eq_nil_iff]
    intro node member
    rcases isDeclaration member with ⟨declaration, rfl⟩
    rfl
  apply sound.append
  · constructor
    · rw [noLabels]
      exact List.nodup_nil
    · intro node member hasBlock
      rcases isDeclaration member with ⟨declaration, rfl⟩
      cases hasBlock
    · intro node member
      rcases isDeclaration member with ⟨declaration, rfl⟩
      cases place with
      | top => exact absurd rfl inside
      | block => rfl
      | rule => rfl
    · intro node member inner opens
      rcases isDeclaration member with ⟨declaration, rfl⟩
      cases opens
  · rw [noLabels]
    simp

/-! ## Steps of a call -/

section

variable {label : Label} {fresh node : Node} {siblings front back : List Node} {place : Place}

/-- Finding a node or appending a fresh one, which holds nothing, keeps a container sound. -/
theorem FirstFit.sound (first : FirstFit label fresh siblings front node back)
    (sound : Sound place siblings) (stands : fresh.mayStand place = true)
    (freshLabel : fresh.label? = some label) (freshEmpty : fresh.content = []) :
    Sound place (front ++ node :: back) := by
  rcases first.found with rfl | ⟨rfl, rfl, rfl⟩
  · exact sound
  · apply sound.append
    · constructor
      · simp [freshLabel]
      · intro other member _
        rw [List.mem_singleton.1 member, freshLabel]
        exact nofun
      · intro other member
        rw [List.mem_singleton.1 member]
        exact stands
      · intro other member inner _
        rw [List.mem_singleton.1 member, freshEmpty]
        exact sound_nil inner
    · intro other isLabel inFront
      rw [List.filterMap_cons, freshLabel] at isLabel
      rw [List.mem_singleton.1 isLabel, List.mem_filterMap] at inFront
      rcases inFront with ⟨sibling, member, sameLabel⟩
      exact first.before sibling member sameLabel

end

/-- Where rules and blocks may stand, a rule can be placed. -/
theorem placeRule_sound {place : Place} {siblings : List Node} (sound : Sound place siblings)
    (outside : place ≠ .rule) (selector : Text) :
    Sound place (placeRule selector siblings).1 := by
  unfold placeRule
  split
  · exact sound
  · rename_i prelude parsed
    have freshLabel : (Node.rule prelude []).label? =
        some (.rule (Text.trim (Value.textAll prelude))) := rfl
    rcases exists_firstFit (isRuleFor_iff _) freshLabel siblings with
      ⟨front, node, back, isFirst, first⟩
    have stands : (Node.rule prelude []).mayStand place = true := by
      cases place with
      | rule => exact absurd rfl outside
      | top => rfl
      | block => rfl
    dsimp only
    rw [isFirst]
    exact first.sound sound stands freshLabel rfl

/-- Where rules and blocks may stand, blocks can be reached and edited. -/
theorem reach_sound {edit : List Node → Placed}
    (keeps : ∀ place nodes, place ≠ .rule → Sound place nodes → Sound place (edit nodes).1)
    (scopes : List Scope) {place : Place} {siblings : List Node} (outside : place ≠ .rule)
    (sound : Sound place siblings) : Sound place (reach scopes edit siblings).1 := by
  induction scopes generalizing place siblings with
  | nil => exact keeps place siblings outside sound
  | cons scope inner hypothesis =>
      unfold reach
      split
      · exact sound
      · rename_i heading isHeading
        have freshLabel : (Node.atRule scope.keyword heading.values []).label? =
            some (.block (Text.lower scope.keyword) heading.key) := by
          rw [Node.label?, (heading_text isHeading).2.2]
        rcases exists_firstFit (isBlockFor_iff _ _) freshLabel siblings with
          ⟨front, node, back, isFirst, first⟩
        have stands : (Node.atRule scope.keyword heading.values []).mayStand place = true := by
          cases place with
          | rule => exact absurd rfl outside
          | top => rfl
          | block => rfl
        have soundPlaced := first.sound sound stands freshLabel rfl
        dsimp only
        rw [isFirst]
        dsimp only
        have atNode : (front ++ node :: back)[front.length]? = some node := by simp
        rw [editContent_append, atNode, Option.map_some, Option.getD_some]
        -- What the block holds may have changed, even if reaching further failed.
        apply soundPlaced.replace
        intro innerPlace opens
        have isBlock : innerPlace = .block := by
          have isLabel := first.isLabel
          cases node with
          | atRule keyword prelude content =>
              cases opens
              rfl
          | _ => cases isLabel
        subst isBlock
        exact hypothesis (by decide) (soundPlaced.inside node (by simp) .block opens)

/-- Whatever a way of at least one step leads to, declarations can be put behind its content. -/
theorem editAt_sound {path : List Nat} (nonempty : path ≠ []) (declared : List Declaration)
    {place : Place} {nodes : List Node} (sound : Sound place nodes) :
    Sound place (editAt path (· ++ declared.map Node.declaration) nodes) := by
  induction path generalizing place nodes with
  | nil => exact absurd rfl nonempty
  | cons index inner hypothesis =>
      rw [editAt]
      by_cases bound : index < nodes.length
      · have whole : nodes.take index ++ nodes[index] :: nodes.drop (index + 1) = nodes := by
          rw [← List.drop_eq_getElem_cons bound, List.take_append_drop]
        have atIndex : (nodes.take index).length = index :=
          List.length_take_of_le (Nat.le_of_lt bound)
        rw [← whole] at sound ⊢
        conv =>
          arg 2
          arg 1
          rw [← atIndex]
        rw [editContent_append]
        apply sound.replace
        intro innerPlace opens
        have holds := sound.inside nodes[index] (by simp) innerPlace opens
        cases inner with
        | nil =>
            apply holds.declared
            rintro rfl
            cases shape : nodes[index] <;> rw [shape] at opens <;> cases opens
        | cons next more => exact hypothesis (by simp) holds
      · rw [editContent, List.modify_eq_self (Nat.le_of_not_lt bound)]
        exact sound

/-! ## Calls keep the invariant -/

/-- A change that leaves a sound stylesheet, and only leads to nodes. -/
structure Keeps (edited : Edited Handle) : Prop where
  sound : Sound .top edited.1.nodes
  leads : ∀ handle, edited.2 = .ok handle → handle.path ≠ []

/-- An edit that keeps the forest sound and leads to a node keeps the stylesheet so. -/
theorem edit_keeps (sheet : Sheet) {change : List Node → Placed}
    (sound : Sound .top (change sheet.nodes).1)
    (leads : ∀ path, (change sheet.nodes).2 = .ok path → path ≠ []) :
    Keeps (sheet.edit change) := by
  constructor
  · exact sound
  · intro handle isHandle
    have outcome : (change sheet.nodes).2.map
        (fun path => (⟨sheet.cleared.length, path⟩ : Handle)) = .ok handle := isHandle
    cases reached : (change sheet.nodes).2 with
    | error failure =>
        rw [reached] at outcome
        cases outcome
    | ok path =>
        rw [reached] at outcome
        cases outcome
        exact leads path reached

theorem placeRule_leads {selector : Text} {nodes : List Node} {path : List Nat}
    (placed : (placeRule selector nodes).2 = .ok path) : path ≠ [] := by
  unfold placeRule at placed
  split at placed
  · cases placed
  · cases placed
    exact List.cons_ne_nil _ _

/-- Reaching into blocks leads to a node if there is a block, or if the edit itself does. -/
theorem reach_leads {scopes : List Scope} {edit : List Node → Placed} {nodes : List Node}
    {path : List Nat} (leads : scopes = [] → ∀ path, (edit nodes).2 = .ok path → path ≠ [])
    (reached : (reach scopes edit nodes).2 = .ok path) : path ≠ [] := by
  cases scopes with
  | nil => exact leads rfl path reached
  | cons scope inner =>
      rcases shape : reach (scope :: inner) edit nodes with ⟨placed, outcome⟩
      rw [shape] at reached
      cases reached
      rcases reach_cons shape with ⟨_, _, front, _, _, _, innerPath, _, _, _, _, _, rfl⟩
      exact List.cons_ne_nil _ _

section

variable {sheet : Sheet}

theorem edit_reach_keeps (sound : Sound .top sheet.nodes) (scopes : List Scope) (selector : Text) :
    Keeps (sheet.edit (reach scopes (placeRule selector))) := by
  apply edit_keeps
  · apply reach_sound _ scopes (by decide) sound
    intro place nodes outside soundNodes
    exact placeRule_sound soundNodes outside selector
  · intro path reached
    exact reach_leads (fun _ _ => placeRule_leads) reached

theorem block_keeps (sound : Sound .top sheet.nodes) (scope : Scope) :
    Keeps (sheet.block scope) := by
  apply edit_keeps
  · exact reach_sound (fun _ _ _ soundNodes => soundNodes) [scope] (by decide) sound
  · intro path reached
    exact reach_leads (fun empty => absurd empty (List.cons_ne_nil _ _)) reached

theorem rule_keeps (sound : Sound .top sheet.nodes) (selector : Text) (scopes : List Scope) :
    Keeps (sheet.rule selector scopes) := by
  unfold rule
  split
  · exact ⟨sound, nofun⟩
  · exact ⟨sound, nofun⟩
  · exact edit_reach_keeps sound scopes _

/-- Declaring keeps a stylesheet sound, whichever node of whichever era the handle leads to. -/
theorem declare_keeps (sound : Sound .top sheet.nodes) {handle : Handle}
    (nonempty : handle.path ≠ []) (properties : Properties) :
    Keeps (sheet.declare handle properties) := by
  constructor
  · by_cases current : handle.era = sheet.cleared.length
    · rcases handle with ⟨era, path⟩
      cases current
      rw [declare_nodes]
      exact editAt_sound nonempty _ sound
    · simpa [declare, withForest, current] using sound
  · intro found isFound
    have isHandle : found = handle := by
      unfold declare at isFound
      dsimp only at isFound
      split at isFound
      · cases isFound
        rfl
      · cases isFound
    rw [isHandle]
    exact nonempty

/-- Going on with declarations keeps what a change keeps. -/
theorem Keeps.declare {edited : Edited Handle} (keeps : Keeps edited) (properties : Properties) :
    Keeps (edited.andThen fun sheet handle => sheet.declare handle properties) := by
  rcases edited with ⟨changed, outcome⟩
  cases outcome with
  | error failure => exact ⟨keeps.sound, nofun⟩
  | ok handle => exact declare_keeps keeps.sound (keeps.leads handle rfl) properties

theorem frame_keeps (sound : Sound .top sheet.nodes) (name selector : Text)
    (properties : Properties) : Keeps (sheet.frame name selector properties) :=
  (edit_reach_keeps sound _ _).declare properties

/-- Frames are declared one after the other, up to the first that fails. -/
theorem frames_sound (name : Text) (animation : List (Text × Properties))
    (sound : Sound .top sheet.nodes) : Sound .top (frames name sheet animation).1.nodes := by
  induction animation generalizing sheet with
  | nil => exact sound
  | cons first rest hypothesis =>
      rcases first with ⟨selector, properties⟩
      have keeps := frame_keeps sound name selector properties
      rw [frames]
      rcases framed : sheet.frame name selector properties with ⟨next, outcome⟩
      rw [framed] at keeps
      cases outcome with
      | error failure => exact keeps.sound
      | ok handle => exact hypothesis keeps.sound

theorem keyframes_sound (sound : Sound .top sheet.nodes) (name : Text)
    (animation : OrderedTable Text Properties) :
    Sound .top (sheet.keyframes name animation).1.nodes := by
  have keeps := block_keeps sound ⟨keyframesKeyword, name⟩
  unfold keyframes
  rcases placed : sheet.block ⟨keyframesKeyword, name⟩ with ⟨next, outcome⟩
  rw [placed] at keeps
  cases outcome with
  | error failure => exact keeps.sound
  | ok handle =>
      have sound := frames_sound name animation.entries keeps.sound
      rw [Outcome.andThen_ok]
      rcases framed : frames name next animation.entries with ⟨last, done⟩
      rw [framed] at sound
      cases done <;> exact sound

theorem statement_sound (sound : Sound .top sheet.nodes) (scope : Scope) :
    Sound .top (sheet.statement scope).1.nodes := by
  unfold statement edit
  dsimp only
  split
  · exact sound
  · apply sound.append
    · constructor
      · exact .nil
      all_goals
        intro node member
        rw [List.mem_singleton.1 member]
      · nofun
      · rfl
      · nofun
    · intro label later
      cases later

/-- One call keeps a stylesheet sound, whether it succeeds or fails. -/
theorem after_sound (sound : Sound .top sheet.nodes) {call : Call}
    (possible : call.Possible sheet) : Sound .top (sheet.after call).nodes := by
  cases call with
  | style builder properties => exact ((rule_keeps sound _ _).declare properties).sound
  | rule selector scopes => exact (rule_keeps sound selector scopes).sound
  | declare handle properties =>
      apply (declare_keeps sound _ properties).sound
      intro empty
      rw [Call.Possible, node?, empty] at possible
      exact possible rfl
  | atRule scope properties => exact ((block_keeps sound scope).declare properties).sound
  | statement scope => exact statement_sound sound scope
  | keyframes name animation => exact keyframes_sound sound name animation
  | clear => exact sound_nil .top

theorem Reachable.sound (reachable : Reachable sheet) : Sound .top sheet.nodes := by
  induction reachable with
  | empty => exact sound_nil .top
  | after _ possible hypothesis => exact after_sound hypothesis possible

end

/-! ## What the invariant says of containers -/

theorem IsContainer.sound {nodes siblings : List Node} {place : Place}
    (container : IsContainer nodes place siblings) (sound : Sound .top nodes) :
    Sound place siblings := by
  induction container with
  | top => exact sound
  | inside _ member opens hypothesis => exact hypothesis.inside _ member _ opens

/-- No two siblings have the same label. -/
theorem Sound.pairwise_label? {place : Place} {nodes : List Node} (sound : Sound place nodes) :
    nodes.Pairwise fun first second => ∀ label, first.label? = some label →
      second.label? ≠ some label := by
  apply (List.pairwise_filterMap.1 sound.apart).imp
  intro first second different label isFirst isSecond
  exact different label isFirst label isSecond rfl

theorem Node.kind_mem (node : Node) : node.kind ∈ writtenKinds := by
  cases node with
  | declaration declared => exact .head _
  | rule prelude content => exact .tail _ (.head _)
  | atRule keyword prelude content => exact .tail _ (.tail _ (.head _))
  | statement keyword prelude => exact .tail _ (.tail _ (.head _))

/-- Every stylesheet that calls lead to is well-formed, whether the calls succeeded or failed. -/
theorem Reachable.wellFormed {sheet : Sheet} (reachable : Reachable sheet) :
    WellFormed sheet.nodes := by
  constructor
  · intro place siblings container
    apply (container.sound reachable.sound).pairwise_label?.imp
    intro first second different key isFirst
    rw [Bool.eq_false_iff]
    intro isSecond
    exact different _ ((isRuleFor_iff key first).1 isFirst) ((isRuleFor_iff key second).1 isSecond)
  · intro place siblings container
    apply (container.sound reachable.sound).pairwise_label?.imp
    intro first second different keyword key isFirst
    rw [Bool.eq_false_iff]
    intro isSecond
    exact different _ ((isBlockFor_iff keyword key first).1 isFirst)
      ((isBlockFor_iff keyword key second).1 isSecond)
  · intro place siblings container
    exact (container.sound reachable.sound).labelled
  · intro place siblings container
    exact (container.sound reachable.sound).stands
  · intro place siblings container node member
    exact node.kind_mem

/-- Frames of which the second fails, after its rule has been placed. -/
def brokenFrames : OrderedTable Text Properties :=
  ⟨[("from", ⟨[("opacity", .numeral (.int 0))]⟩),
    ("to", ⟨[("opacity", .numeral (.int 1)), ("hidden", .truth true)]⟩)]⟩

/-- A call that fails and one that goes on in the block which the first has left behind. -/
theorem Reachable.wellFormed_keyframes :
    ∃ sheet, Reachable sheet ∧ (Sheet.empty.keyframes "fade" brokenFrames).2.isOk = false ∧
      sheet.nodes.map (fun node => node.content.length) = [3] ∧ WellFormed sheet.nodes := by
  have reachable : Reachable ((Sheet.empty.after (.keyframes "fade" brokenFrames)).after
      (.rule "a" [⟨"KEYFRAMES", " fade "⟩])) :=
    .after (.after .empty trivial) trivial
  exact ⟨_, reachable, by decide +kernel, by decide +kernel, reachable.wellFormed⟩

end Sheet

end CssAuthoring
