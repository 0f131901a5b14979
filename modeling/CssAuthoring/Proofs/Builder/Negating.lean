import CssAuthoring.Proofs.Builder.Steps
import CssAuthoring.Proofs.Selector.Embedding
import CssAuthoring.Proofs.Selector.Rejoining

/-!
# Negating a selector

A negation has the written form of a selector as its argument.  The selector was scanned as a
selector before, but the argument is read again by other rules: it ends at the first parenthesis
that closes it.  The text of the new builder is therefore only read as its tokens if the written
form of the selector is balanced.

Main statement: `negate_reads_back_iff`, when the selector of a builder with a negation is read as
its tokens.
-/

namespace CssAuthoring.Builder

open CssAuthoring.Selector CssAuthoring.Separated

/-- The negation with a written selector in its parentheses. -/
def negation (argument : Text) : SelectorToken :=
  .canonical (.pseudoClass "not" (some argument))

/-- A negation is read as such if its argument is balanced. -/
theorem linked_negation_iff {argument : Text} :
    Linked (negation argument) .comma ↔ Balanced 0 argument := by
  constructor
  · intro linked
    generalize same : negation argument = token at linked
    cases linked with
    | simple simple =>
        cases simple with
        | pseudoClass _ balanced =>
            cases same
            exact balanced argument rfl
        | _ => cases same
    | mark isMark => cases isMark <;> cases same
    | descendant => cases same
  · intro balanced
    have isName : IsName "not".toList :=
      ⟨by decide, .plain (by decide) (.plain (by decide) (.plain (by decide) .nil))⟩
    have simple : Simple (.pseudoClass "not" (some argument)) (negation argument).content := by
      refine .pseudoClass isName ?_
      rintro inner ⟨⟩
      exact balanced
    exact .simple simple trivial (stops_spaced_mark .comma _)

/-- A negation can be put behind every complex selector if its argument is balanced. -/
theorem fenced_negation_iff {front : List SelectorToken} (filled : front ≠ [])
    (isFront : Fenced Linked .comma front) {argument : Text} :
    Fenced Linked .comma (front ++ [negation argument]) ↔ Balanced 0 argument := by
  constructor
  · intro fenced
    rw [fenced_iff (by simp)] at fenced
    exact linked_negation_iff.1 (fenced.2.2 _ (by simp))
  · intro balanced
    have ends := linked_negation_iff.2 balanced
    have alone : Fenced Linked .comma [negation argument] := by
      refine (fenced_iff (List.cons_ne_nil _ _)).2 ⟨?_, .singleton _, ?_⟩
      · rintro first ⟨⟩
        exact .mark .comma nofun
      · rintro last ⟨⟩
        exact ends
    refine (fenced_append_iff_not_fuses filled (List.cons_ne_nil _ _) isFront alone).2 ?_
    rintro last _ first ⟨⟩ fuses
    have isNamed := namesElement_of_fuses fuses ends
    contradiction

section

variable {builder : Builder} (readsBack : tokenize builder.selector = .ok builder.tokens)
variable (filled : groups builder.tokens ≠ [])

include readsBack filled in
theorem forall_fenced_negation_iff {argument : Text} :
    (∀ front ∈ groups builder.tokens, ∀ back ∈ [[negation argument]],
      Fenced Linked .comma (front ++ back)) ↔ Balanced 0 argument := by
  have linked := fenced_of_tokenize readsBack
  have one {front : List SelectorToken} (isFront : front ∈ groups builder.tokens) :
      Fenced Linked .comma (front ++ [negation argument]) ↔ Balanced 0 argument :=
    fenced_negation_iff (isGroup_of_mem_groups isFront).1
      (fenced_of_mem_groups linked linked isFront)
  constructor
  · intro fenced
    rcases List.exists_mem_of_ne_nil _ filled with ⟨front, isFront⟩
    exact (one isFront).1 (fenced front isFront _ List.mem_cons_self)
  · intro balanced front isFront back isBack
    rw [List.mem_singleton.1 isBack]
    exact (one isFront).2 balanced

include readsBack filled in
/-- What a builder with a negation is read as depends on the argument and the first token. -/
theorem tokenize_attach_negation_iff {argument : Text} :
    tokenize (builder.attach (negation argument)).selector =
        .ok (builder.attach (negation argument)).tokens ↔
      Balanced 0 argument ∧ OpensSolid (groups builder.tokens) := by
  have asPairs : (groups builder.tokens).map (· ++ [negation argument]) =
      pairs (groups builder.tokens) [[negation argument]] := List.map_eq_flatMap
  have single : [[negation argument]] ≠ [] := List.cons_ne_nil _ _
  have closes : ClosesSolid [[negation argument]] := by
    rintro token ⟨⟩
    exact ⟨':' :: ("not".toList ++ '(' :: argument), ')', rfl, by decide⟩
  rw [Builder.selector, attach, targets_eq filled, asPairs,
    tokenize_render_pairs_iff filled single (fun _ isFront => (isGroup_of_mem_groups isFront).1)
      (by simp), forall_fenced_negation_iff readsBack filled]
  simp only [closes, and_true]

end

/--
A negation puts the written form of the selector in parentheses behind every complex selector.  The
selector of the new builder is read as exactly these tokens if the written form is balanced, and no
blank space in front of the list is trimmed.  The written form is balanced if the selector has no
quotes and parentheses in names, not even behind a backslash, and balanced values of attributes.
-/
theorem negate_reads_back_iff {builder : Builder} {selector : Text} {tokens : List SelectorToken}
    (readsBack : tokenize builder.selector = .ok builder.tokens)
    (filled : groups builder.tokens ≠ []) (accepted : tokenize selector = .ok tokens) :
    ∃ negated, builder.negate selector = .ok negated ∧
      Selector.normalize selector = .ok (render tokens) ∧
      groups negated.tokens =
        (groups builder.tokens).map (· ++ [negation (render tokens)]) ∧
      (tokenize negated.selector = .ok negated.tokens ↔
        Balanced 0 (render tokens) ∧ OpensSolid (groups builder.tokens)) ∧
      ((∀ token ∈ tokens, Sheltered token.part) → Balanced 0 (render tokens)) := by
  have isNormal : Selector.normalize selector = .ok (render tokens) := by
    rw [Selector.normalize, accepted]
    rfl
  have isNegated : builder.negate selector =
      .ok (builder.attach (negation (render tokens))) := by
    rw [negate, isNormal]
    rfl
  refine ⟨_, isNegated, isNormal, groups_attach filled rfl,
    tokenize_attach_negation_iff readsBack filled, fun sheltered => ?_⟩
  exact balanced_render (tokenize_eq_ok_iff.1 accepted) sheltered

/-- A selector with a parenthesis in a string, an escape and an argument of its own is negated. -/
theorem negate_reads_back_string :
    ∃ (builder negated : Builder) (tokens : List SelectorToken),
      builder.selector = ".a, *".toList ∧ tokenize builder.selector = .ok builder.tokens ∧
      groups builder.tokens ≠ [] ∧
      tokenize "b\\:c[d=\")\"]:is(e)".toList = .ok tokens ∧
      builder.negate "b\\:c[d=\")\"]:is(e)".toList = .ok negated ∧
      negated.selector =
        ".a:not(b\\:c[d=\")\"]:is(e)), *:not(b\\:c[d=\")\"]:is(e))".toList ∧
      tokenize negated.selector = .ok negated.tokens := by
  have readsBack : tokenize (Builder.selector
      ⟨[.canonical (.className "a".toList), .comma, .canonical (.universal none)], []⟩) =
        .ok [.canonical (.className "a".toList), .comma, .canonical (.universal none)] := by
    with_unfolding_all rfl
  have accepted : tokenize "b\\:c[d=\")\"]:is(e)".toList =
      .ok [.canonical (.element "b\\:c".toList none),
        .canonical (.attribute "d".toList none (some ['=']) (some "\")\"".toList) none),
        .canonical (.pseudoClass "is".toList (some "e".toList))] := by
    with_unfolding_all rfl
  have isString : IsString "\")\"".toList :=
    .between (by decide) (.plain (by decide) (by decide) .nil)
  have value : Balanced 0 "\")\"".toList := .string isString .nil
  rcases negate_reads_back_iff readsBack (by decide) accepted with
    ⟨negated, isNegated, _, _, reads, balanced⟩
  have sheltered := balanced (by
    simp only [List.forall_mem_cons, SelectorToken.canonical_part, Sheltered]
    refine ⟨by decide, ⟨by decide, by decide, by decide, ?_⟩, by decide, by simp⟩
    rintro inner ⟨⟩
    exact value)
  refine ⟨_, negated, _, by decide, readsBack, by decide, accepted, isNegated, ?_,
    reads.2 ⟨sheltered, by decide⟩⟩
  rw [negate, Selector.normalize, accepted] at isNegated
  cases isNegated
  decide

/-- A parenthesis that is part of a name ends the argument that the name is put in. -/
theorem negate_escape :
    ∃ builder negated : Builder, builder.selector = "a".toList ∧
      tokenize builder.selector = .ok builder.tokens ∧
      (groups builder.tokens).length = 1 ∧
      tokenize ".b\\)".toList = .ok [.canonical (.className "b\\)".toList)] ∧
      builder.negate ".b\\)".toList = .ok negated ∧
      negated.selector = "a:not(.b\\))".toList ∧
      tokenize negated.selector =
        .error ⟨.unexpectedCharacter ')', 10, "a:not(.b\\))".toList⟩ := by
  have accepted : tokenize ".b\\)".toList = .ok [.canonical (.className "b\\)".toList)] := by
    with_unfolding_all rfl
  have body : Text.trim "a:not(.b\\))".toList = "a:not(.b\\))".toList := by decide
  have first : scan "a:not(.b\\))".toList =
      (scan ":not(.b\\))".toList).map (.canonical (.element "a".toList none) :: ·) := scan_cons rfl
  have second : scan ":not(.b\\))".toList =
      (scan ")".toList).map (negation ".b\\".toList :: ·) := by
    apply scan_cons
    with_unfolding_all rfl
  have third : scan ")".toList = .error ⟨.unexpectedCharacter ')', ")".toList⟩ := by
    rw [show ")".toList = [')'] from rfl, scan]
    rfl
  have rejected : tokenize "a:not(.b\\))".toList =
      .error ⟨.unexpectedCharacter ')', 10, "a:not(.b\\))".toList⟩ := by
    simp only [tokenize_eq_scan, body, first, second, third]
    rfl
  refine ⟨⟨[.canonical (.element "a".toList none)], []⟩,
    ⟨[.canonical (.element "a".toList none), negation ".b\\)".toList], []⟩,
    by decide, by with_unfolding_all rfl, by decide, accepted, ?_, by decide, ?_⟩
  · rw [negate, Selector.normalize, accepted]
    rfl
  · have written : selector ⟨[.canonical (.element "a".toList none), negation ".b\\)".toList], []⟩ =
        "a:not(.b\\))".toList := by decide
    rw [written, rejected]

end CssAuthoring.Builder
