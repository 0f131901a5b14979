import CssAuthoring.Sheet.Edit

/-!
# Stylesheets as ordered tree-shaped maps

Rules and blocks have labels: what they are found by among their siblings.  A list of entries, each
with the labels on the way to a rule and the declarations for it, stands for one forest up to the
spelling of labels.  Siblings come in the order in which the entries first go through them, and a
rule holds the declarations of its entries one after the other.

Representation is a relation along the forest.  What it says about ways of any length is the
structure `Refines`.
-/

namespace CssAuthoring.Sheet

open CssAuthoring.Component

/-! ## Labels and ways -/

/-- What a rule or block is found by among its siblings. -/
inductive Label where
  | block (keyword key : Text)
  | rule (key : Text)
  deriving DecidableEq, Repr

/-- The label of a rule or block, as it is computed from the stored node. -/
def Node.label? : Node → Option Label
  | .rule prelude _ => some (.rule (Text.trim (Value.textAll prelude)))
  | .atRule keyword prelude _ =>
    match preludeKey prelude with
    | .ok key => some (.block (Text.lower keyword) key)
    | .error _ => none
  | _ => none

/-- What the nodes hold that a way of labels leads to. -/
def contentsAt : List Label → List Node → List (List Node)
  | [], nodes => [nodes]
  | label :: path, nodes =>
    (nodes.filter fun node => node.label? = some label).flatMap fun node =>
      contentsAt path node.content

/-- The way to a rule: through blocks only. -/
inductive IsAddress : List Label → Prop where
  | rule (key : Text) : IsAddress [.rule key]
  | block (keyword key : Text) {rest : List Label} (isAddress : IsAddress rest) :
      IsAddress (.block keyword key :: rest)

/-- Declarations for the rule at an address. -/
@[ext]
structure Entry where
  address : List Label
  declared : List Declaration
  deriving Repr

/-- The declarations of entries as nodes, one entry after the other. -/
def declaredNodes (entries : List Entry) : List Node :=
  entries.flatMap fun entry => entry.declared.map Node.declaration

/-- The labels that follow a way in the addresses that go through it. -/
def nextLabels (path : List Label) (entries : List Entry) : List Label :=
  entries.filterMap fun entry =>
    if path <+: entry.address then entry.address[path.length]? else none

/-- A forest is what an ordered tree-shaped map with the given entries holds. -/
structure Refines (entries : List Entry) (nodes : List Node) : Prop where
  /-- There is one node for every address and for every part of one that leads to a block. -/
  one : ∀ entry ∈ entries, ∀ path, path <+: entry.address →
    ∃ content, contentsAt path nodes = [content]
  /-- There are no other rules and blocks. -/
  only : ∀ path, path ≠ [] → contentsAt path nodes ≠ [] →
    ∃ entry ∈ entries, path <+: entry.address
  /-- A rule holds the declarations of all entries with its address, in order. -/
  rules : ∀ entry ∈ entries, contentsAt entry.address nodes =
    [declaredNodes (entries.filter fun other => other.address = entry.address)]
  /-- Everything beside one another has a label, in the order of the first entry through it. -/
  order : ∀ path content, contentsAt path nodes = [content] →
    (∀ entry ∈ entries, entry.address ≠ path) →
      content.map Node.label? = (nextLabels path entries).eraseDups.map some

/-! ## Representation -/

/-- The labels that addresses begin with. -/
def heads (entries : List Entry) : List Label :=
  entries.filterMap fun entry => entry.address.head?

/-- An entry without the first label of its address, if that is the given one. -/
def Entry.under? (label : Label) (entry : Entry) : Option Entry :=
  match entry.address with
  | [] => none
  | first :: rest => if first = label then some ⟨rest, entry.declared⟩ else none

/-- The entries whose addresses begin with a label, without it. -/
def under (label : Label) (entries : List Entry) : List Entry :=
  entries.filterMap (Entry.under? label)

/-- A forest holds what the entries say, and so do the blocks in it. -/
inductive Represents : List Entry → List Node → Prop where
  | intro {entries : List Entry} {nodes : List Node}
      (labels : nodes.map Node.label? = (heads entries).eraseDups.map some)
      (rules : ∀ node ∈ nodes, ∀ key, node.label? = some (.rule key) →
        node.content = declaredNodes (under (.rule key) entries))
      (blocks : ∀ node ∈ nodes, ∀ keyword key, node.label? = some (.block keyword key) →
        Represents (under (.block keyword key) entries) node.content) :
      Represents entries nodes

/-- What a node with a label holds represents entries. -/
def Holds : Label → List Entry → List Node → Prop
  | .rule _, entries, content => content = declaredNodes entries
  | .block _ _, entries, content => Represents entries content

/-! ## First occurrences -/

theorem eraseDups_concat (labels : List Label) (label : Label) :
    (labels ++ [label]).eraseDups =
      if label ∈ labels then labels.eraseDups else labels.eraseDups ++ [label] := by
  rw [List.eraseDups_append]
  by_cases member : label ∈ labels <;> simp [List.removeAll, member, List.eraseDups_cons]

/-! ## Entries under a label -/

theorem heads_append (front back : List Entry) :
    heads (front ++ back) = heads front ++ heads back :=
  List.filterMap_append

theorem under_append (label : Label) (front back : List Entry) :
    under label (front ++ back) = under label front ++ under label back :=
  List.filterMap_append

theorem declaredNodes_append (front back : List Entry) :
    declaredNodes (front ++ back) = declaredNodes front ++ declaredNodes back :=
  List.flatMap_append

theorem Entry.under?_eq_some_iff {label : Label} {entry rest : Entry} :
    entry.under? label = some rest ↔ entry = ⟨label :: rest.address, rest.declared⟩ := by
  rcases entry with ⟨address, declared⟩
  cases address with
  | nil => simp [Entry.under?]
  | cons first more =>
      by_cases same : first = label
      · simp [Entry.under?, same, Entry.ext_iff]
      · simp [Entry.under?, same]

theorem mem_under {label : Label} {entries : List Entry} {entry : Entry} :
    entry ∈ under label entries ↔ ⟨label :: entry.address, entry.declared⟩ ∈ entries := by
  rw [under, List.mem_filterMap]
  constructor
  · rintro ⟨whole, member, isUnder⟩
    rw [Entry.under?_eq_some_iff] at isUnder
    rwa [← isUnder]
  · intro member
    exact ⟨_, member, Entry.under?_eq_some_iff.2 rfl⟩

theorem mem_heads {label : Label} {entries : List Entry} :
    label ∈ heads entries ↔ ∃ entry, entry ∈ under label entries := by
  rw [heads, List.mem_filterMap]
  constructor
  · rintro ⟨⟨address, declared⟩, member, isHead⟩
    cases address with
    | nil => cases isHead
    | cons first rest =>
        cases isHead
        exact ⟨⟨rest, declared⟩, mem_under.2 member⟩
  · rintro ⟨entry, member⟩
    exact ⟨_, mem_under.1 member, rfl⟩

theorem under_eq_nil {label : Label} {entries : List Entry} (noHead : label ∉ heads entries) :
    under label entries = [] := by
  apply List.eq_nil_iff_forall_not_mem.2
  intro entry member
  exact noHead (mem_heads.2 ⟨entry, member⟩)

/-- An entry counts under the label that its address begins with, and under no other. -/
theorem under_concat (label first : Label) (rest : List Label) (declared : List Declaration)
    (entries : List Entry) :
    under label (entries ++ [⟨first :: rest, declared⟩]) =
      if first = label then under label entries ++ [⟨rest, declared⟩] else under label entries := by
  rw [under_append]
  by_cases same : first = label <;> simp [under, Entry.under?, same]

/-! ## Nodes with a label -/

theorem Node.label?_withContent (node : Node) (content : List Node) :
    (node.withContent content).label? = node.label? := by
  cases node <;> rfl

theorem Node.hasBlock_of_label? {node : Node} {label : Label} (isLabel : node.label? = some label) :
    node.hasBlock = true := by
  cases node <;> first | rfl | cases isLabel

/--
The first node with a label stands between siblings that are left alone: it is one of them, or it is
a fresh node behind them all.
-/
structure FirstFit (label : Label) (fresh : Node) (siblings front : List Node) (node : Node)
    (back : List Node) : Prop where
  isLabel : node.label? = some label
  before : ∀ other ∈ front, other.label? ≠ some label
  found : siblings = front ++ node :: back ∨ siblings = front ∧ node = fresh ∧ back = []

theorem exists_firstFit {label : Label} {fits : Node → Bool}
    (isFits : ∀ node, fits node = true ↔ node.label? = some label)
    {fresh : Node} (freshLabel : fresh.label? = some label) (siblings : List Node) :
    ∃ front node back, place fits fresh siblings = (front ++ node :: back, front.length) ∧
      FirstFit label fresh siblings front node back := by
  rw [place]
  split
  · rename_i index found
    rw [List.findIdx?_eq_some_iff_getElem] at found
    rcases found with ⟨bound, fit, before⟩
    have whole :
        siblings.take index ++ siblings[index] :: siblings.drop (index + 1) = siblings := by
      rw [← List.drop_eq_getElem_cons bound, List.take_append_drop]
    refine ⟨siblings.take index, siblings[index], siblings.drop (index + 1), ?_, ?_⟩
    · rw [whole, List.length_take_of_le (Nat.le_of_lt bound)]
    · constructor
      · exact (isFits _).1 fit
      · intro other member isLabel
        rcases List.mem_take_iff_getElem.1 member with ⟨place, placeBound, rfl⟩
        have isBefore := Nat.lt_of_lt_of_le placeBound (Nat.min_le_left _ _)
        exact before place isBefore ((isFits _).2 isLabel)
      · exact .inl whole.symm
  · rename_i notFound
    rw [List.findIdx?_eq_none_iff] at notFound
    refine ⟨siblings, fresh, [], rfl, freshLabel, ?_, .inr ⟨rfl, rfl, rfl⟩⟩
    intro other member isLabel
    have fit := (isFits other).2 isLabel
    rw [notFound other member] at fit
    contradiction

theorem FirstFit.mem_siblings {label : Label} {fresh node other : Node}
    {siblings front back : List Node} (first : FirstFit label fresh siblings front node back)
    (member : other ∈ front ++ back) : other ∈ siblings := by
  rcases first.found with rfl | ⟨rfl, rfl, rfl⟩
  · rcases List.mem_append.1 member with inFront | inBack
    · exact List.mem_append_left _ inFront
    · exact List.mem_append_right _ (List.mem_cons_of_mem _ inBack)
  · simpa using member

/-! ## One more entry -/

theorem represents_nil : Represents [] [] :=
  .intro rfl (by simp) (by simp)

theorem holds_nil (label : Label) : Holds label [] [] := by
  cases label with
  | block keyword key => exact represents_nil
  | rule key => rfl

theorem Represents.labels {entries : List Entry} {nodes : List Node}
    (represents : Represents entries nodes) :
    nodes.map Node.label? = (heads entries).eraseDups.map some := by
  cases represents with
  | intro labels rules blocks => exact labels

theorem Represents.holds {entries : List Entry} {nodes : List Node}
    (represents : Represents entries nodes) {node : Node} (member : node ∈ nodes) {label : Label}
    (isLabel : node.label? = some label) : Holds label (under label entries) node.content := by
  cases represents with
  | intro labels rules blocks =>
      cases label with
      | block keyword key => exact blocks node member keyword key isLabel
      | rule key => exact rules node member key isLabel

theorem Represents.of_holds {entries : List Entry} {nodes : List Node}
    (labels : nodes.map Node.label? = (heads entries).eraseDups.map some)
    (holds : ∀ node ∈ nodes, ∀ label, node.label? = some label →
      Holds label (under label entries) node.content) : Represents entries nodes := by
  constructor
  · exact labels
  · intro node member key isLabel
    exact holds node member (.rule key) isLabel
  · intro node member keyword key isLabel
    exact holds node member (.block keyword key) isLabel

/-- A label stands at a node exactly if some address begins with it. -/
theorem Represents.mem_heads_iff {entries : List Entry} {nodes : List Node}
    (represents : Represents entries nodes) (label : Label) :
    label ∈ heads entries ↔ ∃ node ∈ nodes, node.label? = some label := by
  have member : label ∈ heads entries ↔ some label ∈ (heads entries).eraseDups.map some := by simp
  rw [member, ← represents.labels, List.mem_map]

/-- No two siblings have the same label. -/
theorem Represents.nodup_labels {entries : List Entry} {nodes : List Node}
    (represents : Represents entries nodes) : (nodes.map Node.label?).Nodup := by
  rw [represents.labels]
  apply List.Pairwise.map some _ (nodup_eraseDups (heads entries))
  intro first second different same
  exact different (Option.some.inj same)

section

variable {label : Label} {fresh node : Node} {siblings front back : List Node}
  {entries : List Entry}

/-- A node with a label that no address begins with is fresh, and stands behind its siblings. -/
theorem FirstFit.mem_heads_iff (first : FirstFit label fresh siblings front node back)
    (represents : Represents entries siblings) :
    label ∈ heads entries ↔ siblings = front ++ node :: back := by
  rw [represents.mem_heads_iff]
  constructor
  · rintro ⟨other, member, isLabel⟩
    rcases first.found with found | ⟨rfl, rfl, rfl⟩
    · exact found
    · exact absurd isLabel (first.before other member)
  · rintro rfl
    exact ⟨node, by simp, first.isLabel⟩

theorem FirstFit.holds (first : FirstFit label fresh siblings front node back)
    (represents : Represents entries siblings) (freshEmpty : fresh.content = []) :
    Holds label (under label entries) node.content := by
  by_cases head : label ∈ heads entries
  · have found := (first.mem_heads_iff represents).1 head
    exact represents.holds (by simp [found]) first.isLabel
  · rcases first.found with found | ⟨_, rfl, _⟩
    · exact absurd ((first.mem_heads_iff represents).2 found) head
    · rw [under_eq_nil head, freshEmpty]
      exact holds_nil label

/-- The other siblings have other labels. -/
theorem FirstFit.label?_ne (first : FirstFit label fresh siblings front node back)
    (represents : Represents entries siblings) {other : Node} (member : other ∈ front ++ back) :
    other.label? ≠ some label := by
  rcases List.mem_append.1 member with inFront | inBack
  · exact first.before other inFront
  · rcases first.found with rfl | ⟨rfl, rfl, rfl⟩
    · have nodup := represents.nodup_labels
      rw [List.map_append, List.map_cons, List.nodup_append, List.nodup_cons,
        first.isLabel] at nodup
      intro otherLabel
      exact nodup.2.1.1 (List.mem_map.2 ⟨other, inBack, otherLabel⟩)
    · cases inBack

/-- The labels are those of the entries, and the new one is at the end if it is not among them. -/
theorem FirstFit.labels (first : FirstFit label fresh siblings front node back)
    (represents : Represents entries siblings) :
    front.map Node.label? ++ some label :: back.map Node.label? =
      (heads entries ++ [label]).eraseDups.map some := by
  rw [eraseDups_concat]
  by_cases head : label ∈ heads entries
  · have found := (first.mem_heads_iff represents).1 head
    rw [if_pos head, ← represents.labels, found, List.map_append, List.map_cons, first.isLabel]
  · rcases first.found with found | ⟨rfl, _, rfl⟩
    · exact absurd ((first.mem_heads_iff represents).2 found) head
    · rw [if_neg head, List.map_append, ← represents.labels]
      rfl

/--
When the node with a label holds one more entry, so does the forest.  The other siblings are as they
were, and the entry does not concern them.
-/
theorem FirstFit.represents (first : FirstFit label fresh siblings front node back)
    (represents : Represents entries siblings) {rest : List Label} {declared : List Declaration}
    {content : List Node}
    (inner : Holds label (under label entries ++ [⟨rest, declared⟩]) content) :
    Represents (entries ++ [⟨label :: rest, declared⟩])
      (front ++ node.withContent content :: back) := by
  apply Represents.of_holds
  · rw [List.map_append, List.map_cons, Node.label?_withContent, first.isLabel,
      first.labels represents, heads_append]
    rfl
  · intro other member otherLabel isOtherLabel
    have which : other = node.withContent content ∨ other ∈ front ++ back := by
      simpa [or_left_comm] using member
    rcases which with rfl | alone
    · rw [Node.label?_withContent, first.isLabel] at isOtherLabel
      cases isOtherLabel
      rw [under_concat, if_pos rfl,
        Node.content_withContent _ _ (Node.hasBlock_of_label? first.isLabel)]
      exact inner
    · have different : label ≠ otherLabel := by
        rintro rfl
        exact first.label?_ne represents alone isOtherLabel
      rw [under_concat, if_neg different]
      exact represents.holds (first.mem_siblings alone) isOtherLabel

end

/-! ## Ways through a represented forest -/

theorem under_cons (label : Label) (entry : Entry) (entries : List Entry) :
    under label (entry :: entries) = (entry.under? label).toList ++ under label entries := by
  rw [under, List.filterMap_cons]
  cases entry.under? label <;> rfl

/-- The declarations for an address are those for the rest of it, under its first label. -/
theorem declaredNodes_under (label : Label) (path : List Label) (entries : List Entry) :
    declaredNodes ((under label entries).filter fun entry => entry.address = path) =
      declaredNodes (entries.filter fun entry => entry.address = label :: path) := by
  induction entries with
  | nil => rfl
  | cons entry entries hypothesis =>
      rcases entry with ⟨address, declared⟩
      rw [under_cons, List.filter_append, declaredNodes_append, hypothesis, List.filter_cons]
      cases address with
      | nil => simp [Entry.under?, declaredNodes]
      | cons first rest =>
          by_cases same : first = label
          · by_cases ends : rest = path <;> simp [Entry.under?, same, ends, declaredNodes]
          · simp [Entry.under?, same, declaredNodes]

/-- What follows a way in the addresses under a label follows the longer way in the addresses. -/
theorem nextLabels_under (label : Label) (path : List Label) (entries : List Entry) :
    nextLabels path (under label entries) = nextLabels (label :: path) entries := by
  induction entries with
  | nil => rfl
  | cons entry entries hypothesis =>
      rcases entry with ⟨address, declared⟩
      simp only [nextLabels] at hypothesis ⊢
      rw [under_cons, List.filterMap_append, hypothesis, List.filterMap_cons]
      cases address with
      | nil => simp [Entry.under?]
      | cons first rest =>
          by_cases same : first = label
          · by_cases through : path <+: rest
            · cases next : rest[path.length]? <;> simp [Entry.under?, same, through, next]
            · simp [Entry.under?, same, through]
          · simp [Entry.under?, same, Ne.symm same]

theorem nextLabels_nil (entries : List Entry) : nextLabels [] entries = heads entries := by
  rw [nextLabels, heads]
  congr
  ext entry label
  simp [List.head?_eq_getElem?]

/-- There is exactly one node with a label that some address begins with. -/
theorem Represents.contentsAt_cons {entries : List Entry} {nodes : List Node}
    (represents : Represents entries nodes) {label : Label} (head : label ∈ heads entries) :
    ∃ content, Holds label (under label entries) content ∧
      ∀ path, contentsAt (label :: path) nodes = contentsAt path content := by
  rcases (represents.mem_heads_iff label).1 head with ⟨node, member, isLabel⟩
  refine ⟨node.content, represents.holds member isLabel, ?_⟩
  intro path
  have nodup := represents.nodup_labels
  rcases List.append_of_mem member with ⟨front, back, rfl⟩
  rw [List.map_append, List.map_cons, isLabel, List.nodup_append, List.nodup_cons] at nodup
  have frontFree : front.filter (fun node => node.label? = some label) = [] := by
    rw [List.filter_eq_nil_iff]
    intro other otherMember otherLabel
    exact nodup.2.2 _ (List.mem_map_of_mem otherMember) _ List.mem_cons_self
      (of_decide_eq_true otherLabel)
  have backFree : back.filter (fun node => node.label? = some label) = [] := by
    rw [List.filter_eq_nil_iff]
    intro other otherMember otherLabel
    have isOther := List.mem_map_of_mem (f := Node.label?) otherMember
    rw [of_decide_eq_true otherLabel] at isOther
    exact nodup.2.1.1 isOther
  rw [contentsAt, List.filter_append, List.filter_cons_of_pos (by simp [isLabel]), frontFree,
    backFree]
  exact List.append_nil _

theorem Represents.contentsAt_of_not_mem {entries : List Entry} {nodes : List Node}
    (represents : Represents entries nodes) {label : Label} (noHead : label ∉ heads entries)
    (path : List Label) : contentsAt (label :: path) nodes = [] := by
  have free : nodes.filter (fun node => node.label? = some label) = [] := by
    rw [List.filter_eq_nil_iff]
    intro node member isLabel
    exact noHead ((represents.mem_heads_iff label).2 ⟨node, member, of_decide_eq_true isLabel⟩)
  rw [contentsAt, free]
  rfl

/-- Declarations have no labels, so no way leads on from a rule. -/
theorem contentsAt_declaredNodes (label : Label) (path : List Label) (entries : List Entry) :
    contentsAt (label :: path) (declaredNodes entries) = [] := by
  have free : (declaredNodes entries).filter (fun node => node.label? = some label) = [] := by
    rw [List.filter_eq_nil_iff]
    intro node member isLabel
    rcases List.mem_flatMap.1 member with ⟨entry, _, declaration⟩
    rcases List.mem_map.1 declaration with ⟨declared, _, rfl⟩
    cases of_decide_eq_true isLabel
  rw [contentsAt, free]
  rfl

/-! ## Refinement -/

section

variable {entries : List Entry} {nodes : List Node}

/-- Under a block there are addresses again. -/
theorem isAddress_under_block {keyword key : Text}
    (addresses : ∀ entry ∈ entries, IsAddress entry.address) :
    ∀ entry ∈ under (.block keyword key) entries, IsAddress entry.address := by
  intro entry member
  cases addresses _ (mem_under.1 member) with
  | block _ _ isAddress => exact isAddress

/-- A rule ends an address. -/
theorem address_under_rule {key : Text} (addresses : ∀ entry ∈ entries, IsAddress entry.address) :
    ∀ entry ∈ under (.rule key) entries, entry.address = [] := by
  intro entry member
  cases shape : entry.address with
  | nil => rfl
  | cons label rest =>
      have isAddress := addresses _ (mem_under.1 member)
      rw [shape] at isAddress
      cases isAddress

theorem exists_address_under {label : Label} {path : List Label} :
    (∃ entry ∈ under label entries, entry.address = path) ↔
      ∃ entry ∈ entries, entry.address = label :: path := by
  constructor
  · rintro ⟨entry, member, rfl⟩
    exact ⟨_, mem_under.1 member, rfl⟩
  · rintro ⟨⟨address, declared⟩, member, rfl⟩
    exact ⟨⟨path, declared⟩, mem_under.2 member, rfl⟩

theorem exists_prefix_under {label : Label} {path : List Label} :
    (∃ entry ∈ under label entries, path <+: entry.address) ↔
      ∃ entry ∈ entries, label :: path <+: entry.address := by
  constructor
  · rintro ⟨entry, member, through⟩
    exact ⟨_, mem_under.1 member, List.cons_prefix_cons.2 ⟨rfl, through⟩⟩
  · rintro ⟨⟨address, declared⟩, member, tail, rfl⟩
    exact ⟨⟨path ++ tail, declared⟩, mem_under.2 member, List.prefix_append path tail⟩

/-- What stands at a way that some address goes through. -/
theorem Represents.contentsAt_eq (represents : Represents entries nodes)
    (addresses : ∀ entry ∈ entries, IsAddress entry.address) {path : List Label}
    (through : path = [] ∨ ∃ entry ∈ entries, path <+: entry.address) :
    ∃ content, contentsAt path nodes = [content] ∧
      ((∃ entry ∈ entries, entry.address = path) →
          content = declaredNodes (entries.filter fun entry => entry.address = path)) ∧
        ((∀ entry ∈ entries, entry.address ≠ path) →
          content.map Node.label? = (nextLabels path entries).eraseDups.map some) := by
  -- One label of the way leads from the entries to those under it, and from a forest into it.
  induction path generalizing entries nodes with
  | nil =>
      refine ⟨nodes, rfl, ?_, ?_⟩
      · rintro ⟨entry, member, ends⟩
        have isAddress := addresses entry member
        rw [ends] at isAddress
        cases isAddress
      · intro _
        rw [nextLabels_nil]
        exact represents.labels
  | cons label path hypothesis =>
      have goesOn : ∃ entry ∈ under label entries, path <+: entry.address :=
        exists_prefix_under.2 (through.resolve_left (List.cons_ne_nil _ _))
      rcases goesOn with ⟨entry, member, isPart⟩
      rcases represents.contentsAt_cons (mem_heads.2 ⟨entry, member⟩) with ⟨content, holds, leads⟩
      rw [leads]
      cases label with
      | rule key =>
          have empty : ∀ other ∈ under (.rule key) entries, other.address = [] :=
            address_under_rule addresses
          rw [empty entry member, List.prefix_nil] at isPart
          subst isPart
          refine ⟨content, rfl, ?_, ?_⟩
          · intro _
            rw [← declaredNodes_under, List.filter_eq_self.2 fun other otherMember =>
              decide_eq_true (empty other otherMember)]
            exact holds
          · intro noRule
            have ends := exists_address_under.1 ⟨entry, member, empty entry member⟩
            rcases ends with ⟨whole, wholeMember, isWhole⟩
            exact absurd isWhole (noRule whole wholeMember)
      | block keyword key =>
          have inner : Represents (under (.block keyword key) entries) content := holds
          rcases hypothesis inner (isAddress_under_block addresses) (.inr ⟨entry, member, isPart⟩)
            with ⟨found, isFound, rules, order⟩
          refine ⟨found, isFound, ?_, ?_⟩
          · intro ends
            rw [← declaredNodes_under]
            exact rules (exists_address_under.2 ends)
          · intro noRule
            rw [← nextLabels_under]
            apply order
            intro other otherMember ends
            rcases exists_address_under.1 ⟨other, otherMember, ends⟩ with
              ⟨whole, wholeMember, isWhole⟩
            exact noRule whole wholeMember isWhole

/-- A way that leads to a node is part of some address. -/
theorem Represents.exists_prefix (represents : Represents entries nodes)
    (addresses : ∀ entry ∈ entries, IsAddress entry.address) {path : List Label}
    (nonempty : path ≠ []) (leads : contentsAt path nodes ≠ []) :
    ∃ entry ∈ entries, path <+: entry.address := by
  induction path generalizing entries nodes with
  | nil => exact absurd rfl nonempty
  | cons label path hypothesis =>
      by_cases head : label ∈ heads entries
      · rw [← exists_prefix_under]
        rcases represents.contentsAt_cons head with ⟨content, holds, shorter⟩
        rw [shorter] at leads
        cases path with
        | nil =>
            rcases mem_heads.1 head with ⟨entry, member⟩
            exact ⟨entry, member, List.nil_prefix⟩
        | cons next path =>
            cases label with
            | rule key =>
                have isDeclared : content = declaredNodes (under (.rule key) entries) := holds
                rw [isDeclared, contentsAt_declaredNodes] at leads
                exact absurd rfl leads
            | block keyword key =>
                exact hypothesis holds (isAddress_under_block addresses) (List.cons_ne_nil _ _)
                  leads
      · rw [represents.contentsAt_of_not_mem head] at leads
        exact absurd rfl leads

/-- A forest that represents entries with addresses is an ordered tree-shaped map of them. -/
theorem Represents.refines (represents : Represents entries nodes)
    (addresses : ∀ entry ∈ entries, IsAddress entry.address) : Refines entries nodes := by
  constructor
  · intro entry member path through
    rcases represents.contentsAt_eq addresses (.inr ⟨entry, member, through⟩) with
      ⟨content, isContent, _⟩
    exact ⟨content, isContent⟩
  · intro path nonempty leads
    exact represents.exists_prefix addresses nonempty leads
  · intro entry member
    rcases represents.contentsAt_eq addresses (.inr ⟨entry, member, List.prefix_refl _⟩) with
      ⟨content, isContent, rules, _⟩
    rw [isContent, rules ⟨entry, member, rfl⟩]
  · intro path content isContent noRule
    have through : path = [] ∨ ∃ entry ∈ entries, path <+: entry.address := by
      by_cases empty : path = []
      · exact .inl empty
      · exact .inr (represents.exists_prefix addresses empty (by simp [isContent]))
    rcases represents.contentsAt_eq addresses through with ⟨found, isFound, _, order⟩
    rw [isContent] at isFound
    cases isFound
    exact order noRule

end

end CssAuthoring.Sheet
