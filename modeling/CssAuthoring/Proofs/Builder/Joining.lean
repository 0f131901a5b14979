import CssAuthoring.Proofs.Builder.Steps
import CssAuthoring.Proofs.Selector.Rejoining

/-!
# Joining compound selectors

Joining puts the complex selectors of a text behind those of a builder with nothing in between.  The
new builder holds the tokens of both, but its text is only read as these tokens where no last token
of the builder fuses with a first token of the text.  Since only type and universal selectors fuse
with what stands before them, joining classes, attributes and the like is safe.

Main statement: `join_reads_back_iff`, when the selector of a joined builder is read as its tokens.
-/

namespace CssAuthoring.Builder

open CssAuthoring.Selector CssAuthoring.Separated

/-- The tokens of a builder for some texts are linked, each list by itself. -/
theorem fenced_select {selectors : List Text} {builder : Builder}
    (selected : select selectors = .ok builder) : Fenced Linked .comma builder.tokens := by
  rcases exists_lists_of_select selected with ⟨lists, tokens_eq, scanned⟩
  rw [tokens_eq]
  refine join_induction (fenced_nil.2 beside_comma.linked)
    (fun front back isFront isBack => fenced_append_cons.2 ⟨isFront, isBack⟩) ?_
  intro tokens member
  rcases scanned tokens member with ⟨selector, _, accepted⟩
  exact fenced_of_tokenize accepted

/--
Joining gives every complex selector of the builder with every one of the text behind it.  The
selector of the joined builder is read as exactly these if no two tokens fuse where they meet, and
no blank space at the two ends of the list is trimmed.  Nothing fuses where no complex selector of
the text begins with a type or universal selector.
-/
theorem join_reads_back_iff {selectors : List Text} {builder : Builder} {selector : Text}
    {tokens : List SelectorToken} (selected : select selectors = .ok builder)
    (filled : groups builder.tokens ≠ []) (accepted : tokenize selector = .ok tokens)
    (nonempty : groups tokens ≠ []) :
    ∃ joined, builder.join selector = .ok joined ∧
      groups joined.tokens = pairs (groups builder.tokens) (groups tokens) ∧
      joined.tokens = Selector.join (pairs (groups builder.tokens) (groups tokens)) ∧
      (tokenize joined.selector = .ok joined.tokens ↔
        (∀ front ∈ groups builder.tokens, ∀ back ∈ groups tokens,
          ∀ last ∈ front.getLast?, ∀ first ∈ back.head?, ¬ Fuses last first) ∧
          OpensSolid (groups builder.tokens) ∧ ClosesSolid (groups tokens)) ∧
      ((∀ back ∈ groups tokens, ∀ first ∈ back.head?, namesElement first.part = false) →
        ∀ front ∈ groups builder.tokens, ∀ back ∈ groups tokens,
          ∀ last ∈ front.getLast?, ∀ first ∈ back.head?, ¬ Fuses last first) := by
  have linkedFronts := fenced_select selected
  have linkedBacks := fenced_of_tokenize accepted
  have frontFilled (front : List SelectorToken) (isFront : front ∈ groups builder.tokens) :
      front ≠ [] := (isGroup_of_mem_groups isFront).1
  have backFilled (back : List SelectorToken) (isBack : back ∈ groups tokens) : back ≠ [] :=
    (isGroup_of_mem_groups isBack).1
  have tokens_eq : (builder.combineWith [] (groups tokens)).tokens =
      Selector.join (pairs (groups builder.tokens) (groups tokens)) := by
    rw [tokens_combineWith filled nonempty]
    simp only [List.append_nil, pairs]
  refine ⟨builder.combineWith [] (groups tokens), Navigation.join.go_eq builder accepted, ?_,
    tokens_eq, ?_, ?_⟩
  · have apart := Navigation.join.groups_go filled nonempty
    simpa only [Navigation.link, List.append_nil, pairs] using apart
  · rw [Builder.selector, tokens_eq,
      tokenize_render_pairs_iff filled nonempty frontFilled backFilled]
    refine and_congr_left fun _ => ?_
    refine forall₂_congr fun front isFront => forall₂_congr fun back isBack => ?_
    exact fenced_append_iff_not_fuses (frontFilled front isFront) (backFilled back isBack)
      (fenced_of_mem_groups linkedFronts linkedFronts isFront)
      (fenced_of_mem_groups linkedBacks linkedBacks isBack)
  · intro named front _ back isBack last _ first isFirst fuses
    have fencedBack := fenced_of_mem_groups linkedBacks linkedBacks isBack
    rcases fencedBack.exists_behind isFirst with ⟨behind, continues⟩
    have isNamed := namesElement_of_fuses fuses continues
    rw [named back isBack first isFirst] at isNamed
    contradiction

/-- A class and a pseudo-class are joined to a class and to a type selector. -/
theorem join_reads_back_classes :
    ∃ builder tokens joined, select [".button, a".toList] = .ok builder ∧
      groups builder.tokens ≠ [] ∧ tokenize ".primary,:hover".toList = .ok tokens ∧
      groups tokens ≠ [] ∧ builder.join ".primary,:hover".toList = .ok joined ∧
      joined.selector = ".button.primary, .button:hover, a.primary, a:hover".toList ∧
      tokenize joined.selector = .ok joined.tokens := by
  have selected : select [".button, a".toList] =
      .ok ⟨[.canonical (.className "button".toList), .comma,
        .canonical (.element "a".toList none)], []⟩ := by
    with_unfolding_all rfl
  have accepted : tokenize ".primary,:hover".toList =
      .ok [.canonical (.className "primary".toList), .comma,
        .canonical (.pseudoClass "hover".toList none)] := by
    with_unfolding_all rfl
  rcases join_reads_back_iff selected (by decide) accepted (by decide) with
    ⟨joined, isJoined, _, tokens_eq, reads, apart⟩
  have closes : ClosesSolid [[SelectorToken.canonical (.className "primary".toList)],
      [.canonical (.pseudoClass "hover".toList none)]] := by
    rintro token ⟨⟩
    exact ⟨":hove".toList, 'r', rfl, by decide⟩
  refine ⟨_, _, joined, selected, by decide, accepted, by decide, isJoined, ?_,
    reads.2 ⟨apart (by decide), by decide, closes⟩⟩
  rw [Builder.selector, tokens_eq]
  decide

/-- The name of a type selector goes on with that of the class it is joined to. -/
theorem join_fuses_class :
    ∃ builder joined, select [".a".toList] = .ok builder ∧
      builder.join "b".toList = .ok joined ∧
      joined.tokens =
        [.canonical (.className "a".toList), .canonical (.element "b".toList none)] ∧
      joined.selector = ".ab".toList ∧
      tokenize joined.selector = .ok [.canonical (.className "ab".toList)] ∧
      tokenize joined.selector ≠ .ok joined.tokens := by
  have fused : tokenize ".ab".toList = .ok [.canonical (.className "ab".toList)] := by
    with_unfolding_all rfl
  refine ⟨⟨[.canonical (.className "a".toList)], []⟩,
    ⟨[.canonical (.className "a".toList), .canonical (.element "b".toList none)], []⟩,
    by with_unfolding_all rfl, by with_unfolding_all rfl, rfl, by decide, fused, ?_⟩
  intro same
  have equal := Except.ok.inj (fused.symm.trans same)
  revert equal
  decide

end CssAuthoring.Builder
