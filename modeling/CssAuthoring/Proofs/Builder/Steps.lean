import CssAuthoring.Builder
import CssAuthoring.Proofs.Selector.Adjoining
import CssAuthoring.Proofs.Selector.Lists

/-!
# Builder steps on lists of selectors

A builder keeps its selector list as one list of tokens with commas in it.  Every step takes the
list apart into complex selectors, puts something behind each of them, and joins the results again.
What is put behind does not depend on the complex selector that it is put behind, so that a step on
a list is the step on its complex selectors, one after the other.

Main statements: `groups_attach` and `groups_combineWith`, the complex selectors after a step;
`steps_distribute`, a step on an extended list gives the complex selectors of the step on the list
and those of the step on what it was extended by.
-/

namespace CssAuthoring.Builder

open CssAuthoring.Selector

/-! ## The complex selectors after a step -/

section

variable {builder : Builder} (filled : groups builder.tokens ≠ [])

include filled in
theorem targets_eq : builder.targets = groups builder.tokens := by
  unfold targets
  split
  · rename_i empty
    exact absurd empty filled
  · rfl

include filled in
/-- A simple selector is attached to every complex selector. -/
theorem groups_attach {token : SelectorToken} (noComma : token.isComma = false) :
    groups (builder.attach token).tokens = (groups builder.tokens).map (· ++ [token]) := by
  rw [attach, targets_eq filled]
  refine groups_join fun complex member => ?_
  rcases List.mem_map.1 member with ⟨group, isGroup, rfl⟩
  refine (isGroup_of_mem_groups isGroup).append fun other isOther => ?_
  rwa [List.mem_singleton.1 isOther]

include filled in
theorem tokens_combineWith {link : List SelectorToken} {others : List (List SelectorToken)}
    (nonempty : others ≠ []) :
    (builder.combineWith link others).tokens =
      Selector.join ((groups builder.tokens).flatMap fun group =>
        others.map fun other => group ++ link ++ other) := by
  unfold combineWith
  split
  · exact absurd rfl nonempty
  · rename_i empty
    exact absurd empty filled
  · rfl

include filled in
/-- A complex selector is made of every pair, with the link in between. -/
theorem groups_combineWith {link : List SelectorToken} {others : List (List SelectorToken)}
    (noComma : ∀ token ∈ link, token.isComma = false) (nonempty : others ≠ [])
    (areGroups : ∀ other ∈ others, IsGroup other) :
    groups (builder.combineWith link others).tokens =
      (groups builder.tokens).flatMap fun group =>
        others.map fun other => group ++ link ++ other := by
  rw [tokens_combineWith filled nonempty]
  refine groups_join fun complex member => ?_
  rcases List.mem_flatMap.1 member with ⟨group, isGroup, isPair⟩
  rcases List.mem_map.1 isPair with ⟨other, isOther, rfl⟩
  exact ((isGroup_of_mem_groups isGroup).append noComma).append (areGroups other isOther).2

end

/-- A selector list that is added comes behind the complex selectors of the builder. -/
theorem extend_single (builder : Builder) {selector : Text} {tokens : List SelectorToken}
    (accepted : tokenize selector = .ok tokens) :
    ∃ extended, builder.extend [selector] = .ok extended ∧
      groups extended.tokens = groups builder.tokens ++ groups tokens := by
  refine ⟨{ builder with tokens := Selector.join (groups builder.tokens ++ groups tokens) }, ?_, ?_⟩
  · rw [extend, List.mapM_cons, accepted]
    simp [bind, Except.bind, pure, Except.pure, Except.map]
  · refine groups_join fun complex member => ?_
    rcases List.mem_append.1 member with isGroup | isGroup
    · exact isGroup_of_mem_groups isGroup
    · exact isGroup_of_mem_groups isGroup

/-- A builder for one selector text holds the tokens of the text. -/
theorem select_single {selector : Text} {tokens : List SelectorToken}
    (accepted : tokenize selector = .ok tokens) : select [selector] = .ok ⟨tokens, []⟩ := by
  rw [select, List.mapM_cons, accepted]
  cases tokens <;>
    simp [bind, Except.bind, pure, Except.pure, Except.map, Selector.join, Separated.join]

/-- What several texts are scanned as, one of them is scanned as. -/
theorem exists_tokenize_of_mapM {selectors : List Text} {lists : List (List SelectorToken)}
    (accepted : selectors.mapM tokenize = .ok lists) :
    ∀ tokens ∈ lists, ∃ selector ∈ selectors, tokenize selector = .ok tokens := by
  induction selectors generalizing lists with
  | nil =>
      cases accepted
      simp
  | cons selector selectors hypothesis =>
      rw [List.mapM_cons] at accepted
      cases first : tokenize selector with
      | error failure =>
          rw [first] at accepted
          cases accepted
      | ok others =>
          cases rest : selectors.mapM tokenize with
          | error failure =>
              rw [first, rest] at accepted
              cases accepted
          | ok more =>
              rw [first, rest] at accepted
              cases accepted
              intro tokens member
              rcases List.mem_cons.1 member with rfl | member
              · exact ⟨selector, List.mem_cons_self, first⟩
              · rcases hypothesis rest tokens member with ⟨other, isOther, scanned⟩
                exact ⟨other, List.mem_cons_of_mem _ isOther, scanned⟩

/-- A builder for several texts joins what they are scanned as. -/
theorem exists_lists_of_select {selectors : List Text} {builder : Builder}
    (selected : select selectors = .ok builder) :
    ∃ lists, builder.tokens = Selector.join lists ∧
      ∀ tokens ∈ lists, ∃ selector ∈ selectors, tokenize selector = .ok tokens := by
  unfold select at selected
  cases accepted : selectors.mapM tokenize with
  | error failure =>
      rw [accepted] at selected
      cases selected
  | ok lists =>
      rw [accepted] at selected
      cases selected
      refine ⟨_, rfl, fun tokens member => ?_⟩
      exact exists_tokenize_of_mapM accepted tokens (List.mem_filter.1 member).1

/-! ## Steps -/

/-- The steps that combine a builder with a selector list. -/
inductive Navigation where
  | child
  | descendant
  | adjacent
  | sibling
  | join
  deriving DecidableEq, Repr

namespace Navigation

/-- Takes a step to the selectors of a text. -/
def go (builder : Builder) : Navigation → Text → Except Selector.Error Builder
  | .child => builder.child
  | .descendant => builder.descendant
  | .adjacent => builder.adjacent
  | .sibling => builder.sibling
  | .join => builder.join

/-- What stands between the selectors that a step combines. -/
def link : Navigation → List SelectorToken
  | .child => [.combinator '>']
  | .descendant => [.combinator ' ']
  | .adjacent => [.combinator '+']
  | .sibling => [.combinator '~']
  | .join => []

theorem not_isComma_link (navigation : Navigation) :
    ∀ token ∈ navigation.link, token.isComma = false := by
  cases navigation <;> simp [link, SelectorToken.isComma, SelectorToken.combinator]

theorem go_eq (navigation : Navigation) (builder : Builder) {selector : Text}
    {tokens : List SelectorToken} (accepted : tokenize selector = .ok tokens) :
    navigation.go builder selector = .ok (builder.combineWith navigation.link (groups tokens)) := by
  have combined (combinator : Option Char) : builder.combine combinator selector = .ok
      (builder.combineWith (combinator.map SelectorToken.combinator).toList (groups tokens)) := by
    rw [combine, accepted]
    rfl
  cases navigation with
  | child => exact combined (some '>')
  | descendant => exact combined (some ' ')
  | adjacent => exact combined (some '+')
  | sibling => exact combined (some '~')
  | join => exact combined none

/-- A step pairs the complex selectors of a builder with those of a text that has some. -/
theorem groups_go (navigation : Navigation) {builder : Builder}
    (filled : groups builder.tokens ≠ []) {tokens : List SelectorToken}
    (nonempty : groups tokens ≠ []) :
    groups (builder.combineWith navigation.link (groups tokens)).tokens =
      (groups builder.tokens).flatMap fun front =>
        (groups tokens).map fun back => front ++ navigation.link ++ back :=
  groups_combineWith filled navigation.not_isComma_link nonempty fun _ => isGroup_of_mem_groups

end Navigation

/-- The steps that act on every complex selector of a builder. -/
inductive Step where
  | pseudoClass (name : Text) (argument : Option Text)
  | pseudoElement (name : Text) (argument : Option Text)
  | navigate (navigation : Navigation) (selector : Text)
  deriving DecidableEq, Repr

namespace Step

/-- The builder after a step. -/
def apply (builder : Builder) : Step → Except Selector.Error Builder
  | .pseudoClass name argument => .ok (builder.pseudoClass name argument)
  | .pseudoElement name argument => .ok (builder.pseudoElement name argument)
  | .navigate navigation selector => navigation.go builder selector

/-- The selector text of a step can be read, if it has one. -/
def Readable : Step → Prop
  | .navigate _ selector => ∃ tokens, tokenize selector = .ok tokens
  | _ => True

/-- A step puts the same endings behind every complex selector of any builder that has some. -/
theorem Readable.exists_endings {step : Step} (readable : step.Readable) :
    ∃ endings : List (List SelectorToken), ∀ builder : Builder, groups builder.tokens ≠ [] →
      ∃ next, step.apply builder = .ok next ∧
        groups next.tokens =
          (groups builder.tokens).flatMap fun front => endings.map (front ++ ·) := by
  have attached (token : SelectorToken) (noComma : token.isComma = false) (builder : Builder)
      (filled : groups builder.tokens ≠ []) :
      groups (builder.attach token).tokens =
        (groups builder.tokens).flatMap fun front => [[token]].map (front ++ ·) := by
    rw [groups_attach filled noComma]
    exact List.map_eq_flatMap
  cases step with
  | pseudoClass name argument =>
      exact ⟨_, fun builder filled => ⟨_, rfl, attached _ rfl builder filled⟩⟩
  | pseudoElement name argument =>
      exact ⟨_, fun builder filled => ⟨_, rfl, attached _ rfl builder filled⟩⟩
  | navigate navigation selector =>
      rcases readable with ⟨tokens, accepted⟩
      by_cases empty : groups tokens = []
      · refine ⟨[[]], fun builder _ => ⟨builder, ?_, by simp⟩⟩
        rw [apply, navigation.go_eq builder accepted, empty, combineWith_nil]
      · refine ⟨(groups tokens).map (navigation.link ++ ·), fun builder filled =>
          ⟨_, navigation.go_eq builder accepted, ?_⟩⟩
        rw [navigation.groups_go filled empty]
        simp only [List.map_map, Function.comp_def, List.append_assoc]

end Step

/--
A step on a builder that was extended by a selector list gives the complex selectors of the step on
the builder, and behind them those of the step on a builder for the list alone.  A step to a text
with complex selectors pairs each of the builder with each of the text, in order; where the text has
none, the builder stays as it is.
-/
theorem steps_distribute {builder : Builder} {selector : Text} {tokens : List SelectorToken}
    (filled : groups builder.tokens ≠ []) (accepted : tokenize selector = .ok tokens)
    (nonempty : groups tokens ≠ []) :
    ∃ extended selected, builder.extend [selector] = .ok extended ∧
      select [selector] = .ok selected ∧
      (∀ step : Step, step.Readable → ∃ whole front back,
        step.apply extended = .ok whole ∧ step.apply builder = .ok front ∧
          step.apply selected = .ok back ∧
            groups whole.tokens = groups front.tokens ++ groups back.tokens) ∧
      ∀ (navigation : Navigation) (other : Text) (others : List SelectorToken),
        tokenize other = .ok others → ∃ next, navigation.go builder other = .ok next ∧
          (groups others = [] → next = builder) ∧
          (groups others ≠ [] →
            groups next.tokens =
                ((groups builder.tokens).flatMap fun front =>
                  (groups others).map fun back => front ++ navigation.link ++ back) ∧
              (groups next.tokens).length =
                (groups builder.tokens).length * (groups others).length) := by
  rcases builder.extend_single accepted with ⟨extended, isExtended, parts⟩
  refine ⟨extended, _, isExtended, select_single accepted, ?_, ?_⟩
  · intro step readable
    rcases readable.exists_endings with ⟨endings, ends⟩
    have filledWhole : groups extended.tokens ≠ [] := by simp [parts, filled]
    rcases ends extended filledWhole with ⟨whole, isWhole, groupsWhole⟩
    rcases ends builder filled with ⟨front, isFront, groupsFront⟩
    rcases ends ⟨tokens, []⟩ nonempty with ⟨back, isBack, groupsBack⟩
    refine ⟨whole, front, back, isWhole, isFront, isBack, ?_⟩
    rw [groupsWhole, parts, List.flatMap_append, groupsFront, groupsBack]
  · intro navigation other others isOther
    refine ⟨_, navigation.go_eq builder isOther, ?_, fun filledOther => ?_⟩
    · intro emptyOther
      rw [emptyOther, combineWith_nil]
    · have pairs := navigation.groups_go filled filledOther
      refine ⟨pairs, ?_⟩
      rw [pairs, List.length_flatMap]
      simp

/-- Two complex selectors, extended by two more, go to the children that two others match. -/
theorem steps_distribute_children :
    ∃ builder extended selected whole front back : Builder,
      builder.selector = ".a, .b > .c".toList ∧ groups builder.tokens ≠ [] ∧
      builder.extend ["d\te,*".toList] = .ok extended ∧
      select ["d\te,*".toList] = .ok selected ∧ groups selected.tokens ≠ [] ∧
      extended.child ".x, .y".toList = .ok whole ∧ builder.child ".x, .y".toList = .ok front ∧
      selected.child ".x, .y".toList = .ok back ∧
      groups whole.tokens = groups front.tokens ++ groups back.tokens ∧
      (groups front.tokens).length = 2 * 2 := by
  have accepted : tokenize "d\te,*".toList =
      .ok [.canonical (.element "d".toList none), .combinator ' ',
        .canonical (.element "e".toList none), .comma, .canonical (.universal none)] := by
    with_unfolding_all rfl
  have other : tokenize ".x, .y".toList =
      .ok [.canonical (.className "x".toList), .comma, .canonical (.className "y".toList)] := by
    with_unfolding_all rfl
  have filled : groups (Builder.tokens
      ⟨[.canonical (.className "a".toList), .comma, .canonical (.className "b".toList),
        .combinator '>', .canonical (.className "c".toList)], []⟩) ≠ [] := by
    decide
  rcases steps_distribute filled accepted (by decide) with
    ⟨extended, selected, isExtended, isSelected, distributes, multiplies⟩
  rcases distributes (.navigate .child ".x, .y".toList) ⟨_, other⟩ with
    ⟨whole, front, back, isWhole, isFront, isBack, parts⟩
  rcases multiplies .child ".x, .y".toList _ other with ⟨next, isNext, _, count⟩
  have same : front = next := Except.ok.inj (isFront.symm.trans isNext)
  have fillsSelected : groups selected.tokens ≠ [] := by
    rw [← Except.ok.inj ((select_single accepted).symm.trans isSelected)]
    decide
  refine ⟨_, extended, selected, whole, front, back, by decide, filled, isExtended, isSelected,
    fillsSelected, isWhole, isFront, isBack, parts, ?_⟩
  rw [same]
  exact (count (by decide)).2

end CssAuthoring.Builder
