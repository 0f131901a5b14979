import CssAuthoring.Proofs.Builder.Steps
import CssAuthoring.Proofs.Sheet.Growth
import CssAuthoring.Proofs.Sheet.Merging

/-!
# Builders and the selectors they write

The steps of a builder put tokens together that were never scanned together: complex selectors are
taken out of lists, extended, multiplied and joined again.  In every list that is put together in
this way a token can still stand in front of the next one, so that the text of the selector is
scanned as the very tokens that the builder holds.

Main statement: `tokens_of_built`, the selector of a builder is read again as its tokens, and
styling writes to the rule for them.
-/

namespace CssAuthoring

open CssAuthoring.Selector

namespace Builder

/-! ## Builders that can be reached -/

/--
A selector text that can be read, without the sign of a combinator at an end of a complex selector,
and without blank space at an end of a token.
-/
structure IsPart (selector : Text) (tokens : List SelectorToken) : Prop where
  accepted : tokenize selector = .ok tokens
  enclosed : Enclosed tokens
  solid : Solid tokens

/-- Selector texts that can be read, each without signs and blank space at ends. -/
def ArePartsOf (selectors : List Text) : Prop :=
  ∀ selector ∈ selectors, ∃ tokens, IsPart selector tokens

/-- The steps that combine a builder with a selector list. -/
def navigations : List (Builder → Text → Except Selector.Error Builder) :=
  [child, descendant, adjacent, sibling]

/-- The steps that attach a pseudo-class or pseudo-element without an argument. -/
def shortcuts : List (Builder → Builder) :=
  [hover, focus, active, disabled, visited, checked, firstChild, lastChild, before, after,
    placeholder]

/-- A builder that is reached from selector texts by a chain of steps. -/
inductive Built : Builder → Prop where
  | select {selectors : List Text} {builder : Builder}
      (areParts : ArePartsOf selectors) (selected : select selectors = .ok builder) : Built builder
  | navigate {builder next : Builder} {selector : Text} {tokens : List SelectorToken}
      {step : Builder → Text → Except Selector.Error Builder}
      (built : Built builder) (isStep : step ∈ navigations) (isPart : IsPart selector tokens)
      (stepped : step builder selector = .ok next) : Built next
  | extend {builder next : Builder} {selectors : List Text}
      (built : Built builder) (areParts : ArePartsOf selectors)
      (extended : builder.extend selectors = .ok next) : Built next
  | shortcut {builder : Builder} {step : Builder → Builder}
      (built : Built builder) (isStep : step ∈ shortcuts) : Built (step builder)
  | within {builder : Builder} (built : Built builder) (scope : Sheet.Scope) :
      Built (builder.within scope)

/-! ## What a step keeps -/

theorem IsPart.regular {selector : Text} {tokens : List SelectorToken}
    (isPart : IsPart selector tokens) : Regular tokens :=
  regular_of_tokenize isPart.accepted isPart.enclosed isPart.solid

/-- What several texts are scanned as can stand next to each other, each in its list. -/
theorem ArePartsOf.regular {selectors : List Text} (areParts : ArePartsOf selectors)
    {tokens : List SelectorToken}
    (scanned : ∃ selector ∈ selectors, tokenize selector = .ok tokens) : Regular tokens := by
  rcases scanned with ⟨selector, member, accepted⟩
  rcases areParts selector member with ⟨others, isPart⟩
  have same : tokens = others := Except.ok.inj (accepted.symm.trans isPart.accepted)
  rw [same]
  exact isPart.regular

theorem regular_select {selectors : List Text} {builder : Builder}
    (areParts : ArePartsOf selectors) (selected : select selectors = .ok builder) :
    Regular builder.tokens := by
  rcases exists_lists_of_select selected with ⟨lists, tokens_eq, scanned⟩
  rw [tokens_eq]
  exact regular_join fun tokens member => areParts.regular (scanned tokens member)

theorem regular_combine {builder next : Builder} {selector : Text} {tokens : List SelectorToken}
    (regular : Regular builder.tokens) (isPart : IsPart selector tokens) {symbol : Char}
    (isCombinator : IsCombinator symbol)
    (combined : builder.combine (some symbol) selector = .ok next) : Regular next.tokens := by
  unfold combine at combined
  rw [isPart.accepted] at combined
  cases combined
  dsimp only
  unfold combineWith
  split
  · exact regular
  · refine regular_join fun part member => ?_
    exact (isPart.regular.complex part member).regular
  · refine regular_join fun part member => ?_
    rcases List.mem_flatMap.1 member with ⟨group, isGroup, isPair⟩
    rcases List.mem_map.1 isPair with ⟨other, isOther, rfl⟩
    exact ((regular.complex group isGroup).combine (isPart.regular.complex other isOther)
      isCombinator).regular

theorem regular_extend {builder next : Builder} {selectors : List Text}
    (regular : Regular builder.tokens) (areParts : ArePartsOf selectors)
    (extended : builder.extend selectors = .ok next) : Regular next.tokens := by
  unfold extend at extended
  cases accepted : selectors.mapM tokenize with
  | error failure =>
      rw [accepted] at extended
      cases extended
  | ok lists =>
      rw [accepted] at extended
      cases extended
      refine regular_join fun part member => ?_
      rcases List.mem_append.1 member with isGroup | isOther
      · exact (regular.complex part isGroup).regular
      · rcases List.mem_flatMap.1 isOther with ⟨tokens, isList, isGroup⟩
        have scanned := exists_tokenize_of_mapM accepted tokens isList
        exact ((areParts.regular scanned).complex part isGroup).regular

/-- A name without escapes and blank space. -/
def isPlain (name : Text) : Bool :=
  !name.isEmpty && name.all fun character => isNameCharacter character && !Text.isBlank character

theorem isName_of_isPlain {name : Text} (plain : isPlain name = true) :
    IsName name ∧ Text.EndsSolid name := by
  simp only [isPlain, Bool.and_eq_true, Bool.not_eq_true', List.isEmpty_eq_false_iff,
    List.all_eq_true] at plain
  rcases plain with ⟨nonempty, characters⟩
  refine ⟨⟨nonempty, ?_⟩, ?_⟩
  · have names (character : Char) (member : character ∈ name) :
        isNameCharacter character = true := (characters character member).1
    clear nonempty characters
    induction name with
    | nil => exact .nil
    | cons first rest hypothesis =>
        exact .plain (names first List.mem_cons_self)
          (hypothesis fun other member => names other (List.mem_cons_of_mem _ member))
  · rcases List.eq_nil_or_concat name with empty | ⟨front, last, shape⟩
    · exact absurd empty nonempty
    · rw [List.concat_eq_append] at shape
      exact ⟨front, last, shape, (characters last (by simp [shape])).2⟩

/-- A pseudo-class or pseudo-element is attached to every complex selector. -/
theorem regular_attach {builder : Builder} (regular : Regular builder.tokens) {part : Part}
    {rest : Text} (simple : Simple part (':' :: rest)) (settled : Settled part)
    (solid : Text.EndsSolid rest) : Regular (builder.attach ⟨part, ':' :: rest⟩).tokens := by
  have isSimple : IsSimple ⟨part, ':' :: rest⟩ := ⟨simple, settled⟩
  have alone : Complex [⟨part, ':' :: rest⟩] := by
    refine ⟨List.cons_ne_nil _ _, ?_, .singleton _, ?_, ?_⟩
    · rintro token ⟨⟩
      exact isSimple
    · rintro token ⟨⟩
      exact isSimple
    · intro token member _
      rw [List.mem_singleton.1 member]
      rcases solid with ⟨front, last, rfl, notBlank⟩
      refine ⟨by simp [Text.isBlank], ?_⟩
      rw [← List.cons_append, List.getLast?_concat]
      rintro other ⟨⟩
      exact notBlank
  have stops (other : Part) : Text.Stops (extendsPart other) (spaced ⟨part, ':' :: rest⟩) := by
    rw [spaced_simple simple, Text.stops_cons, Bool.eq_false_iff]
    exact fun goesOn => absurd (of_extendsPart goesOn) (by decide)
  refine regular_join fun tokens member => ?_
  rcases List.mem_map.1 member with ⟨group, isTarget, rfl⟩
  unfold targets at isTarget
  split at isTarget
  · rw [List.mem_singleton.1 isTarget]
    exact alone.regular
  · exact ((regular.complex group isTarget).attach alone stops).regular

theorem regular_pseudoClass {builder : Builder} (regular : Regular builder.tokens) {name : Text}
    (plain : isPlain name = true) : Regular (builder.pseudoClass name none).tokens := by
  rcases isName_of_isPlain plain with ⟨isName, solid⟩
  exact regular_attach regular (.pseudoClass isName (by simp)) trivial solid

theorem regular_pseudoElement {builder : Builder} (regular : Regular builder.tokens) {name : Text}
    (plain : isPlain name = true) : Regular (builder.pseudoElement name none).tokens := by
  rcases isName_of_isPlain plain with ⟨isName, solid⟩
  exact regular_attach regular (.pseudoElement isName (by simp)) trivial (solid.append [':'])

theorem regular_shortcut {builder : Builder} (regular : Regular builder.tokens)
    {step : Builder → Builder} (isStep : step ∈ shortcuts) : Regular (step builder).tokens := by
  simp only [shortcuts, List.mem_cons, List.not_mem_nil, or_false] at isStep
  rcases isStep with
    rfl | rfl | rfl | rfl | rfl | rfl | rfl | rfl | rfl | rfl | rfl
  all_goals
    first
    | exact regular_pseudoClass regular (by decide)
    | exact regular_pseudoElement regular (by decide)

/-- A step that combines a builder with a selector list puts a combinator between. -/
theorem exists_combinator {step : Builder → Text → Except Selector.Error Builder}
    (isStep : step ∈ navigations) :
    ∃ symbol, IsCombinator symbol ∧ step = fun builder => builder.combine (some symbol) := by
  simp only [navigations, List.mem_cons, List.not_mem_nil, or_false] at isStep
  rcases isStep with rfl | rfl | rfl | rfl
  · exact ⟨'>', .inr rfl, rfl⟩
  · exact ⟨' ', .inl rfl, rfl⟩
  · exact ⟨'+', .inr rfl, rfl⟩
  · exact ⟨'~', .inr rfl, rfl⟩

/-- The tokens of a builder that was reached by steps can stand next to each other. -/
theorem Built.regular {builder : Builder} (built : Built builder) : Regular builder.tokens := by
  induction built with
  | select areParts selected => exact regular_select areParts selected
  | navigate _ isStep isPart stepped hypothesis =>
      rcases exists_combinator isStep with ⟨symbol, isCombinator, rfl⟩
      exact regular_combine hypothesis isPart isCombinator stepped
  | extend _ areParts extended hypothesis => exact regular_extend hypothesis areParts extended
  | shortcut _ isStep hypothesis => exact regular_shortcut hypothesis isStep
  | within _ _ hypothesis => exact hypothesis

end Builder

/-! ## The rule that a builder writes to -/

namespace Sheet

open CssAuthoring.Component

/-- The rule of given tokens inside scopes, which is appended if it is not there. -/
def ruleOf (sheet : Sheet) (tokens : List SelectorToken) (scopes : List Scope) : Edited Handle :=
  if tokens.isEmpty then (sheet, .error (.style .emptySelector))
  else sheet.edit (reach scopes (placeRule (Selector.render tokens)))

/-- The node at the end of a way has a label. -/
def Labelled (label : Label) (nodes : List Node) (path : List Nat) : Prop :=
  ∃ node, nodeAt? path nodes = some node ∧ node.label? = some label

theorem labelled_cons {label : Label} {nodes : List Node} {index : Nat} {path : List Nat}
    {node : Node} (there : nodes[index]? = some node)
    (labelled : Labelled label node.content path) :
    Labelled label nodes (index :: path) := by
  rcases labelled with ⟨found, isFound, isLabel⟩
  refine ⟨found, ?_, isLabel⟩
  rw [nodeAt?_cons, there, Option.bind_some, isFound]
  split
  · rename_i ends
    rw [ends] at isFound
    cases isFound
  · rfl

/-- The rule for a selector has the label of the selector. -/
theorem placeRule_labelled {selector : Text} {siblings placed : List Node} {path : List Nat}
    (isPlaced : placeRule selector siblings = (placed, .ok path)) :
    ∃ label, ruleLabel? selector = some label ∧ Labelled label placed path := by
  unfold placeRule at isPlaced
  split at isPlaced
  · cases isPlaced
  · rename_i prelude parsed
    have freshLabel : (Node.rule prelude []).label? =
        some (.rule (Text.trim (Value.textAll prelude))) := rfl
    rcases exists_firstFit (isRuleFor_iff _) freshLabel siblings with
      ⟨front, node, back, isFirst, first⟩
    dsimp only at isPlaced
    rw [isFirst] at isPlaced
    cases isPlaced
    refine ⟨.rule (Text.trim (Value.textAll prelude)), ?_, node, by simp [nodeAt?], first.isLabel⟩
    rw [ruleLabel?, parsed]

/-- The rule that is reached inside scopes has the label of the selector. -/
theorem reach_labelled {selector : Text} {scopes : List Scope} {siblings placed : List Node}
    {path : List Nat} (reached : reach scopes (placeRule selector) siblings = (placed, .ok path)) :
    ∃ label, ruleLabel? selector = some label ∧ Labelled label placed path := by
  induction scopes generalizing siblings placed path with
  | nil => exact placeRule_labelled reached
  | cons scope inner hypothesis =>
      rcases reach_cons reached with
        ⟨_, fresh, front, node, back, content, innerPath, _, _, first, inside, rfl, rfl⟩
      rcases hypothesis inside with ⟨label, isRule, labelled⟩
      have there : (front ++ node.withContent content :: back)[front.length]? =
          some (node.withContent content) := by simp
      refine ⟨label, isRule, labelled_cons there ?_⟩
      rwa [content_withContent_of_label? content first.isLabel]

/-- Nodes keep their labels where a forest only grows. -/
theorem Labelled.extends {label : Label} {former later : List Node} {path : List Nat}
    (labelled : Labelled label former path) (grown : Extends former later) :
    Labelled label later path := by
  rcases labelled with ⟨node, there, isLabel⟩
  rcases grown.inside path node there with ⟨content, stays, _⟩
  exact ⟨_, stays, (Node.label?_withContent node content).trans isLabel⟩

/-- Styling leads to the rule with the label of the selector, inside the blocks of the scopes. -/
theorem style_labelled {sheet styled : Sheet} {selector normalized : Text} {scopes : List Scope}
    {properties : Properties} {handle : Handle}
    (isNormal : Selector.normalize selector = .ok normalized)
    (succeeded : sheet.style selector scopes properties = (styled, .ok handle)) :
    LeadsTo scopes styled handle ∧
      ∃ label, ruleLabel? normalized = some label ∧ Labelled label styled.nodes handle.path := by
  unfold style at succeeded
  rcases placed : sheet.rule selector scopes with ⟨found, outcome⟩
  rw [placed] at succeeded
  cases outcome with
  | error failure => cases succeeded
  | ok place =>
      rw [Outcome.andThen_ok] at succeeded
      rcases rule_eq_ok placed with ⟨text, path, isText, reached, cleared, rfl⟩
      rw [isNormal] at isText
      cases isText
      rcases reach_labelled reached with ⟨label, isLabel, labelled⟩
      refine ⟨leadsTo_of_declare (leadsTo_of_rule placed) succeeded, label, isLabel, ?_⟩
      have nodes := declare_nodes found path properties
      rw [cleared, succeeded] at nodes
      rw [nodes]
      have same : handle.path = path := by
        unfold declare at succeeded
        dsimp only at succeeded
        split at succeeded
        · cases succeeded
          rfl
        · cases succeeded
      rw [same]
      exact labelled.extends (editAt_extends _ _ _)

end Sheet

namespace Builder

open Sheet

/-- Tokens that can stand next to each other have a written form, if there are any. -/
theorem render_ne_nil {tokens : List SelectorToken} (regular : Regular tokens)
    (nonempty : tokens ≠ []) : Selector.render tokens ≠ [] := by
  intro empty
  have again := regular.tokenize_eq
  rw [empty, tokenize_of_blank [] (by simp)] at again
  cases again
  exact nonempty rfl

/--
The selector of a builder that was reached by steps is read again as the tokens of the builder, and
is its own normal form.  Styling places the rule for these tokens, declares there, and leads to the
node with the label of their written form inside the blocks of the scopes.
-/
theorem tokens_of_built {builder : Builder} (built : Built builder) :
    tokenize builder.selector = .ok builder.tokens ∧
      Selector.normalize builder.selector = .ok builder.selector ∧
        ∀ sheet properties,
          builder.style sheet properties =
              ((sheet.ruleOf builder.tokens builder.scopes).andThen fun sheet handle =>
                sheet.declare handle properties) ∧
            ∀ styled handle, builder.style sheet properties = (styled, .ok handle) →
              LeadsTo builder.scopes styled handle ∧
                ∃ label, ruleLabel? (Selector.render builder.tokens) = some label ∧
                  Labelled label styled.nodes handle.path := by
  have regular := built.regular
  have accepted : tokenize builder.selector = .ok builder.tokens := regular.tokenize_eq
  have isNormal : Selector.normalize builder.selector = .ok builder.selector := by
    rw [Selector.normalize, accepted]
    rfl
  refine ⟨accepted, isNormal, fun sheet properties => ⟨?_, fun styled handle succeeded => ?_⟩⟩
  · unfold Builder.style Sheet.style Sheet.rule ruleOf
    rw [isNormal]
    by_cases empty : builder.tokens = []
    · simp [Builder.selector, empty, Selector.render]
    · have written := render_ne_nil regular empty
      rw [if_neg (by simpa using empty)]
      cases shape : builder.selector with
      | nil => exact absurd shape written
      | cons character rest =>
          dsimp only
          rw [← shape]
          rfl
  · exact style_labelled isNormal succeeded

/-- A list of two complex selectors with the pointer over what they select, in a block. -/
def hovered : Builder :=
  ⟨[.canonical (.className "a".toList), .combinator '>', .canonical (.element "d".toList none),
      .combinator ' ', .canonical (.element "e".toList none),
      .canonical (.pseudoClass "hover".toList none), .comma, .canonical (.className "a".toList),
      .combinator '>', .canonical (.universal none),
      .canonical (.pseudoClass "hover".toList none)],
    [⟨"media", "print"⟩]⟩

/-- Two complex selectors are combined with one, extended and nested. -/
theorem tokens_of_built_hovered :
    Built hovered ∧ hovered.selector = ".a > d e:hover, .a > *:hover".toList ∧
      tokenize hovered.selector = .ok hovered.tokens ∧
        Selector.normalize hovered.selector = .ok hovered.selector := by
  have isClass : IsPart ".a".toList [.canonical (.className "a".toList)] :=
    ⟨by with_unfolding_all rfl, by decide, by decide⟩
  have isPair : IsPart "d\te,*".toList
      [.canonical (.element "d".toList none), .combinator ' ',
        .canonical (.element "e".toList none), .comma, .canonical (.universal none)] :=
    ⟨by with_unfolding_all rfl, by decide, by decide⟩
  have areParts : ArePartsOf [".a".toList] := by
    intro selector member
    rw [List.mem_singleton.1 member]
    exact ⟨_, isClass⟩
  have selected : select [".a".toList] = .ok ⟨[.canonical (.className "a".toList)], []⟩ := by
    with_unfolding_all rfl
  have stepped : child ⟨[.canonical (.className "a".toList)], []⟩ "d\te,*".toList =
      .ok ⟨[.canonical (.className "a".toList), .combinator '>',
        .canonical (.element "d".toList none), .combinator ' ',
        .canonical (.element "e".toList none), .comma, .canonical (.className "a".toList),
        .combinator '>', .canonical (.universal none)], []⟩ := by
    with_unfolding_all rfl
  have isHovered : Built hovered :=
    .shortcut (.within (.navigate (.select areParts selected) List.mem_cons_self isPair stepped)
      ⟨"media", "print"⟩) List.mem_cons_self
  rcases tokens_of_built isHovered with ⟨again, isNormal, _⟩
  exact ⟨isHovered, by decide, again, isNormal⟩

end Builder

end CssAuthoring
