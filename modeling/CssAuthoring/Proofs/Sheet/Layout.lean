import CssAuthoring.Proofs.Component.Declaration
import CssAuthoring.Proofs.Text.Trim
import CssAuthoring.Sheet.Node

/-!
# The layout of written stylesheets

What is written of a forest is its layout: a tree of lines for declarations and statements, and of
blocks with a head.  Where no line is broken, the written text determines the layout, for every
width of the margins.

The text is read from the front.  A line goes up to the next line break, and its last character
tells what it is: a semicolon ends a leaf, an opening bracket begins a block and a closing one ends
it.  So the end of a node is known, and the depth of the next one with it.
-/

namespace CssAuthoring.Sheet

open CssAuthoring.Component

/-! ## Layouts -/

/-- What is written of a node: a line without its semicolon, or a head and what the block holds. -/
inductive Layout where
  | leaf (line : Text)
  | block (head : Text) (content : List Layout)
  deriving Repr

mutual

/-- The layout of a node. -/
def Node.layout : Node → Layout
  | .declaration declared => .leaf declared.printed
  | .rule prelude content => .block (Text.trim (Value.textAll prelude)) (layouts content)
  | .atRule keyword prelude content => .block (Node.atHead keyword prelude) (layouts content)
  | .statement keyword prelude => .leaf (Node.atHead keyword prelude)

/-- The layouts of the nodes that a block holds. -/
def layouts : List Node → List Layout
  | [] => []
  | node :: rest => node.layout :: layouts rest

end

namespace Layout

/-- A text without a line break. -/
def OneLine (text : Text) : Prop :=
  ∀ character ∈ text, character ≠ '\n'

instance (text : Text) : Decidable (OneLine text) :=
  decidable_of_iff (text.all fun character => character ≠ '\n') (by
    simp only [List.all_eq_true, decide_eq_true_eq, OneLine])

/-- No line and no head is broken. -/
inductive Unbroken : Layout → Prop where
  | leaf {line : Text} (unbroken : OneLine line) : Unbroken (.leaf line)
  | block {head : Text} {content : List Layout} (unbroken : OneLine head)
      (inside : ∀ layout ∈ content, Unbroken layout) : Unbroken (.block head content)

mutual

/-- The text of a layout at a depth. -/
def text (indentSize : Int) (depth : Nat) : Layout → Text
  | .leaf line => Node.margin indentSize depth ++ (line ++ [';'])
  | .block head content =>
    Node.margin indentSize depth ++ (head ++ [' ', '\x7b']) ++
      (contentText indentSize (depth + 1) content ++
        '\n' :: Node.margin indentSize depth ++ ['\x7d'])

/-- The text of the layouts in a block, each on a new line. -/
def contentText (indentSize : Int) (depth : Nat) : List Layout → Text
  | [] => []
  | layout :: rest => '\n' :: layout.text indentSize depth ++ contentText indentSize depth rest

end

end Layout

mutual

/-- A node is written as its layout. -/
theorem Node.text_layout (indentSize : Int) (depth : Nat) (node : Node) :
    node.layout.text indentSize depth = node.text indentSize depth := by
  cases node with
  | declaration declared => rfl
  | rule prelude content =>
      simp [Node.layout, Layout.text, Node.text, contentText_layouts indentSize _ content]
  | atRule keyword prelude content =>
      simp [Node.layout, Layout.text, Node.text, contentText_layouts indentSize _ content]
  | statement keyword prelude => simp [Node.layout, Layout.text, Node.text]

theorem contentText_layouts (indentSize : Int) (depth : Nat) (nodes : List Node) :
    Layout.contentText indentSize depth (layouts nodes) =
      Node.contentText indentSize depth nodes := by
  cases nodes with
  | nil => rfl
  | cons node rest =>
      rw [layouts, Layout.contentText, Node.contentText, Node.text_layout indentSize depth node,
        contentText_layouts indentSize depth rest]

end

/-! ## Lines -/

/-- Whether a character belongs to a line. -/
def inLine (character : Char) : Bool :=
  character ≠ '\n'

/-- A line is determined by a text that begins with it, and so is what follows it. -/
theorem line_eq {line other rest more : Text} (unbroken : Layout.OneLine line)
    (otherUnbroken : Layout.OneLine other) (stops : Text.Stops inLine rest)
    (otherStops : Text.Stops inLine more) (same : line ++ rest = other ++ more) :
    line = other ∧ rest = more := by
  have isLine {run : Text} (oneLine : Layout.OneLine run) :
      ∀ character ∈ run, inLine character = true := by
    intro character member
    simpa [inLine] using oneLine character member
  have lines := congrArg (List.takeWhile inLine) same
  have rests := congrArg (List.dropWhile inLine) same
  rw [Text.takeWhile_run (isLine unbroken) stops,
    Text.takeWhile_run (isLine otherUnbroken) otherStops] at lines
  rw [Text.dropWhile_run (isLine unbroken) stops,
    Text.dropWhile_run (isLine otherUnbroken) otherStops] at rests
  exact ⟨lines, rests⟩

theorem stops_break (rest : Text) : Text.Stops inLine ('\n' :: rest) :=
  (Text.stops_cons _ _ _).2 (by decide)

theorem Layout.OneLine.append {front back : Text} (unbroken : OneLine front)
    (backUnbroken : OneLine back) : OneLine (front ++ back) := by
  intro character member
  rcases List.mem_append.1 member with inFront | inBack
  · exact unbroken character inFront
  · exact backUnbroken character inBack

theorem margin_unbroken (indentSize : Int) (depth : Nat) :
    Layout.OneLine (Node.margin indentSize depth) := by
  intro character member
  rw [List.eq_of_mem_replicate member]
  decide

/-! ## Reading a layout from its text -/

namespace Layout

variable {indentSize : Int} {depth : Nat}

/-- What closes a block. -/
def closing (indentSize : Int) (depth : Nat) : Text :=
  Node.margin indentSize depth ++ ['\x7d']

theorem closing_unbroken : OneLine (closing indentSize depth) := by
  apply (margin_unbroken indentSize depth).append
  simp [OneLine]

/-- The first line of a layout does not end like one that closes a block. -/
theorem exists_firstLine {layout : Layout} (unbroken : layout.Unbroken) :
    ∃ line last rest, layout.text indentSize depth = line ++ [last] ++ rest ∧
      OneLine (line ++ [last]) ∧ last ≠ '\x7d' ∧ Text.Stops inLine rest := by
  have margin := margin_unbroken indentSize depth
  cases unbroken with
  | @leaf line unbroken =>
      refine ⟨Node.margin indentSize depth ++ line, ';', [], ?_, ?_, by decide, Text.stops_nil _⟩
      · simp [text]
      · exact (margin.append unbroken).append (by simp [OneLine])
  | @block head content unbroken =>
      refine ⟨Node.margin indentSize depth ++ head ++ [' '], '\x7b',
        contentText indentSize (depth + 1) content ++ '\n' :: closing indentSize depth,
        ?_, ?_, by decide, ?_⟩
      · simp [text, closing]
      · exact ((margin.append unbroken).append (by simp [OneLine])).append (by simp [OneLine])
      · cases content <;> exact stops_break _

theorem text_ne_nil (layout : Layout) : layout.text indentSize depth ≠ [] := by
  cases layout <;> simp [text]

/-- What closes a block is no first line of a layout. -/
theorem closing_ne_text {layout : Layout} (unbroken : layout.Unbroken) {rest more : Text}
    (stops : Text.Stops inLine rest) (otherStops : Text.Stops inLine more) {other : Nat} :
    closing indentSize other ++ rest ≠ layout.text indentSize depth ++ more := by
  intro same
  have firstLine : ∃ line last tail, layout.text indentSize depth = line ++ [last] ++ tail ∧
      OneLine (line ++ [last]) ∧ last ≠ '\x7d' ∧ Text.Stops inLine tail :=
    exists_firstLine unbroken
  rcases firstLine with ⟨line, last, tail, written, oneLine, notClosing, tailStops⟩
  rw [written, List.append_assoc (line ++ [last])] at same
  have stopsBehind : Text.Stops inLine (tail ++ more) := by
    cases tail with
    | nil => exact otherStops
    | cons character tail => exact (Text.stops_append (List.cons_ne_nil _ _) _).2 tailStops
  have lines := (line_eq closing_unbroken oneLine stops stopsBehind same).1
  have lasts := congrArg List.getLast? lines
  rw [closing, List.getLast?_concat, List.getLast?_concat] at lasts
  exact notClosing (Option.some.inj lasts).symm

/-- What follows in a block begins on a new line. -/
theorem stops_contentText (content : List Layout) (rest : Text) :
    Text.Stops inLine (contentText indentSize depth content ++ '\n' :: rest) := by
  cases content <;> exact stops_break _

theorem semicolon_oneLine : OneLine [';'] := by
  decide

theorem opening_oneLine : OneLine [' ', '\x7b'] := by
  decide

/-- A line that ends a leaf is none that begins a block. -/
theorem leaf_ne_block {line head rest more : Text} (unbroken : OneLine line)
    (headUnbroken : OneLine head) (stops : Text.Stops inLine rest)
    (otherStops : Text.Stops inLine more) :
    (line ++ [';']) ++ rest ≠ (head ++ [' ', '\x7b']) ++ more := by
  intro same
  have lines := (line_eq (unbroken.append semicolon_oneLine) (headUnbroken.append opening_oneLine)
    stops otherStops same).1
  have lasts := congrArg List.getLast? lines
  simp at lasts

mutual

/-- A layout is determined by a text that begins with it, and so is what follows it. -/
theorem text_append_inj {depth : Nat} {first second : Layout} (unbroken : first.Unbroken)
    (otherUnbroken : second.Unbroken) {rest more : Text} (stops : Text.Stops inLine rest)
    (otherStops : Text.Stops inLine more)
    (same : first.text indentSize depth ++ rest = second.text indentSize depth ++ more) :
    first = second ∧ rest = more := by
  cases unbroken with
  | @leaf line unbroken =>
      cases otherUnbroken with
      | @leaf other otherUnbroken =>
          simp only [text, List.append_assoc, List.append_cancel_left_eq] at same
          rw [← List.append_assoc, ← List.append_assoc other] at same
          rcases line_eq (unbroken.append semicolon_oneLine)
            (otherUnbroken.append semicolon_oneLine) stops otherStops same with ⟨lines, rests⟩
          rw [List.append_cancel_right lines]
          exact ⟨rfl, rests⟩
      | @block head content headUnbroken =>
          simp only [text, List.append_assoc, List.append_cancel_left_eq] at same
          rw [← List.append_assoc, ← List.append_assoc head] at same
          exact absurd same (leaf_ne_block unbroken headUnbroken stops (stops_contentText _ _))
  | @block head content headUnbroken inside =>
      cases otherUnbroken with
      | @leaf line otherUnbroken =>
          simp only [text, List.append_assoc, List.append_cancel_left_eq] at same
          rw [← List.append_assoc, ← List.append_assoc line] at same
          exact absurd same.symm
            (leaf_ne_block otherUnbroken headUnbroken otherStops (stops_contentText _ _))
      | @block other others otherUnbroken otherInside =>
          simp only [text, List.append_assoc, List.append_cancel_left_eq] at same
          rw [← List.append_assoc, ← List.append_assoc other] at same
          rcases line_eq (headUnbroken.append opening_oneLine)
            (otherUnbroken.append opening_oneLine) (stops_contentText _ _) (stops_contentText _ _)
            same with ⟨heads, contents⟩
          rw [List.append_cancel_right heads]
          have closed := contentText_append_inj inside otherInside stops otherStops
            (by simpa [closing] using contents)
          rw [closed.1]
          exact ⟨rfl, closed.2⟩

/-- What a block holds is determined by the text up to its end, and so is what follows it. -/
theorem contentText_append_inj {depth other : Nat} {first second : List Layout}
    (unbroken : ∀ layout ∈ first, layout.Unbroken)
    (otherUnbroken : ∀ layout ∈ second, layout.Unbroken) {rest more : Text}
    (stops : Text.Stops inLine rest) (otherStops : Text.Stops inLine more)
    (same : contentText indentSize depth first ++ '\n' :: (closing indentSize other ++ rest) =
      contentText indentSize depth second ++ '\n' :: (closing indentSize other ++ more)) :
    first = second ∧ rest = more := by
  cases first with
  | nil =>
      cases second with
      | nil => simpa [contentText] using same
      | cons layout others =>
          simp only [contentText, List.nil_append, List.cons_append, List.append_assoc,
            List.cons.injEq, true_and] at same
          exact absurd same (closing_ne_text (otherUnbroken layout List.mem_cons_self) stops
            (stops_contentText _ _))
  | cons layout content =>
      cases second with
      | nil =>
          simp only [contentText, List.nil_append, List.cons_append, List.append_assoc,
            List.cons.injEq, true_and] at same
          exact absurd same.symm (closing_ne_text (unbroken layout List.mem_cons_self) otherStops
            (stops_contentText _ _))
      | cons next others =>
          simp only [contentText, List.cons_append, List.append_assoc, List.cons.injEq,
            true_and] at same
          rcases text_append_inj (unbroken layout List.mem_cons_self)
            (otherUnbroken next List.mem_cons_self) (stops_contentText _ _)
            (stops_contentText _ _) same with ⟨rfl, behind⟩
          rcases contentText_append_inj (fun inner member => unbroken inner (.tail _ member))
            (fun inner member => otherUnbroken inner (.tail _ member)) stops otherStops behind with
            ⟨rfl, rests⟩
          exact ⟨rfl, rests⟩

end

/-! ## Whole stylesheets -/

/-- The text of layouts at the top, with blank lines between them. -/
def allText (indentSize : Int) (layouts : List Layout) : Text :=
  List.intercalate ['\n', '\n'] (layouts.map (text indentSize 0))

/-- What is written behind a layout at the top. -/
def behind (indentSize : Int) : List Layout → Text
  | [] => []
  | layouts => '\n' :: '\n' :: allText indentSize layouts

theorem allText_cons (layout : Layout) (rest : List Layout) :
    allText indentSize (layout :: rest) = layout.text indentSize 0 ++ behind indentSize rest := by
  cases rest <;> simp [allText, behind]

theorem stops_behind (layouts : List Layout) : Text.Stops inLine (behind indentSize layouts) := by
  cases layouts with
  | nil => exact Text.stops_nil _
  | cons layout rest => exact stops_break _

/-- Layouts at the top are determined by their text. -/
theorem allText_inj {first second : List Layout} (unbroken : ∀ layout ∈ first, layout.Unbroken)
    (otherUnbroken : ∀ layout ∈ second, layout.Unbroken)
    (same : allText indentSize first = allText indentSize second) : first = second := by
  have filled (layout : Layout) (rest : List Layout) :
      allText indentSize (layout :: rest) ≠ [] := by
    rw [allText_cons]
    exact List.append_ne_nil_of_left_ne_nil (text_ne_nil layout) _
  induction first generalizing second with
  | nil =>
      cases second with
      | nil => rfl
      | cons layout others => exact absurd same.symm (filled layout others)
  | cons layout content hypothesis =>
      cases second with
      | nil => exact absurd same (filled layout content)
      | cons next others =>
          rw [allText_cons, allText_cons] at same
          rcases text_append_inj (unbroken layout List.mem_cons_self)
            (otherUnbroken next List.mem_cons_self) (stops_behind _) (stops_behind _) same with
            ⟨rfl, rests⟩
          have later : content = others := by
            cases content with
            | nil =>
                cases others with
                | nil => rfl
                | cons other more => cases rests
            | cons inner more =>
                cases others with
                | nil => cases rests
                | cons other rest =>
                    simp only [behind, List.cons.injEq, true_and] at rests
                    exact hypothesis (fun inner member => unbroken inner (.tail _ member))
                      (fun inner member => otherUnbroken inner (.tail _ member)) rests
          rw [later]

end Layout

/-- A forest is written as its layouts. -/
theorem render_eq (indentSize : Int) (nodes : List Node) :
    render indentSize nodes = Layout.allText indentSize (nodes.map Node.layout) := by
  have same : Layout.text indentSize 0 ∘ Node.layout = Node.text indentSize 0 :=
    funext fun node => node.text_layout indentSize 0
  rw [render, Layout.allText, List.map_map, same]

/--
The written text of a forest whose lines are not broken determines its layout: which nodes are
leaves, what each block holds, and the text of every line and head.
-/
theorem layouts_of_render {indentSize : Int} {first second : List Node}
    (unbroken : ∀ node ∈ first, node.layout.Unbroken)
    (otherUnbroken : ∀ node ∈ second, node.layout.Unbroken)
    (same : render indentSize first = render indentSize second) :
    first.map Node.layout = second.map Node.layout := by
  rw [render_eq, render_eq] at same
  apply Layout.allText_inj _ _ same
  · rintro layout member
    rcases List.mem_map.1 member with ⟨node, isNode, rfl⟩
    exact unbroken node isNode
  · rintro layout member
    rcases List.mem_map.1 member with ⟨node, isNode, rfl⟩
    exact otherUnbroken node isNode

/-- An empty rule without a prelude in a block, in front of a statement. -/
def emptyRule : List Node :=
  [.atRule "media" [] [.rule [] []], .statement "media" []]

/-- The same stylesheet with the keyword of the block in the prelude of a rule. -/
def emptyRuleAgain : List Node :=
  [.rule [.atom (.atKeyword "media")] [.rule [] []], .statement "media" []]

/-- Without margins, heads that are empty and blocks that hold nothing are still told apart. -/
theorem layouts_of_render_empty :
    render 0 emptyRule = render 0 emptyRuleAgain ∧
      emptyRule.map Node.layout = emptyRuleAgain.map Node.layout := by
  have same : render 0 emptyRule = render 0 emptyRuleAgain := by decide +kernel
  have unbroken {nodes : List Node} (layout : nodes.map Node.layout =
      [.block "@media".toList [.block [] []], .leaf "@media".toList]) :
      ∀ node ∈ nodes, node.layout.Unbroken := by
    have empty : Layout.Unbroken (.block [] []) := .block (by decide) (by simp)
    have head : Layout.OneLine "@media".toList := by decide
    intro node member
    have isLayout : node.layout ∈ nodes.map Node.layout := List.mem_map_of_mem member
    rw [layout, List.mem_cons, List.mem_singleton] at isLayout
    rcases isLayout with isBlock | isLeaf
    · rw [isBlock]
      exact .block head (by simpa using empty)
    · rw [isLeaf]
      exact .leaf head
  exact ⟨same, layouts_of_render (unbroken (by with_unfolding_all rfl))
    (unbroken (by with_unfolding_all rfl)) same⟩

end CssAuthoring.Sheet
