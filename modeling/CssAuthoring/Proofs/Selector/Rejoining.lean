import CssAuthoring.Proofs.Selector.Adjoining

/-!
# Selector lists that were put together

Complex selectors are taken out of lists and changed at their ends, and are joined again.  Whether
the tokens of the new list are scanned from its written form is then seen at the places where
something was put together, and at the two ends of the list.  Next to each other, two tokens fuse if
the text of the first would go on in that of the second; nothing else can go wrong there.

Main statements: `fenced_append_iff_not_fuses`, complex selectors can stand one behind the other
unless their ends fuse; `namesElement_of_fuses`, only a type or universal selector fuses with what
is before it; `tokenize_render_join_iff` and `tokenize_render_pairs_iff`, which joined complex
selectors are scanned as written.
-/

namespace CssAuthoring.Selector

open CssAuthoring.Separated

/-! ## Tokens that fuse -/

/-- The text of a token would go on in that of the next one. -/
def Fuses (token next : SelectorToken) : Prop :=
  ∃ character ∈ next.content.head?, extendsPart token.part character = true

instance (token next : SelectorToken) : Decidable (Fuses token next) :=
  decidable_of_iff (next.content.head?.any (extendsPart token.part)) (by
    simp [Fuses, Option.any_eq_true])

theorem not_fuses_iff {token next : SelectorToken} :
    ¬ Fuses token next ↔ Text.Stops (extendsPart token.part) next.content := by
  simp [Fuses, Text.Stops]

/-- Whether a part is a type or universal selector. -/
def namesElement : Part → Bool
  | .element _ _ => true
  | .universal _ => true
  | _ => false

/-- Behind any token, nothing but a type or universal selector fuses with it. -/
theorem namesElement_of_fuses {token next behind : SelectorToken} (fuses : Fuses token next)
    (continues : Linked next behind) : namesElement next.part = true := by
  rcases fuses with ⟨character, begins, fits⟩
  have goesOn := of_extendsPart fits
  cases continues with
  | simple simple =>
      cases simple with
      | element => rfl
      | universal => rfl
      | id =>
          cases begins
          exact absurd goesOn (by decide)
      | className =>
          cases begins
          exact absurd goesOn (by decide)
      | pseudoClass =>
          cases begins
          exact absurd goesOn (by decide)
      | pseudoElement =>
          cases begins
          exact absurd goesOn (by decide)
      | «attribute» =>
          cases begins
          exact absurd goesOn (by decide)
  | mark isMark =>
      rw [isMark.content_eq] at begins
      cases begins
      rw [extendsPart_of_startsSeparator isMark.separates] at fits
      contradiction
  | descendant =>
      cases begins
      exact absurd goesOn (by decide)

/-- The space around the sign of a separator ends the same simple selectors as the sign. -/
theorem stops_spaced_iff {token next : SelectorToken} (linked : Linked token next)
    (notDescendant : token ≠ .combinator ' ') (part : Part) :
    Text.Stops (extendsPart part) (spaced token) ↔
      Text.Stops (extendsPart part) token.content := by
  cases linked with
  | simple simple => rw [spaced_simple simple]
  | mark isMark =>
      refine iff_of_true (stops_spaced_mark isMark part) ?_
      rw [isMark.content_eq, Text.stops_cons]
      exact extendsPart_of_startsSeparator isMark.separates part
  | descendant => exact absurd rfl notDescendant

/-- What can end a complex selector is linked to what can begin one, unless the two fuse. -/
theorem linked_iff_not_fuses {token next behind : SelectorToken} (ends : Linked token .comma)
    (begins : Linked .comma next) (continues : Linked next behind) :
    Linked token next ↔ ¬ Fuses token next := by
  rw [not_fuses_iff]
  cases ends with
  | simple simple settled =>
      rw [← stops_spaced_iff continues begins.ne_descendant]
      refine ⟨fun linked => ?_, .simple simple settled⟩
      cases linked with
      | simple _ _ stops => exact stops
      | mark isMark =>
          cases isMark with
          | comma => cases simple
          | combinator => cases simple
      | descendant => cases simple
  | mark isMark =>
      refine iff_of_true (.mark isMark begins.ne_descendant) ?_
      cases isMark <;> exact fun _ _ => rfl
  | descendant stops => exact absurd (.descendant stops) not_linked_descendant

/-- Complex selectors can stand one behind the other if their ends do not fuse. -/
theorem fenced_append_iff_not_fuses {front back : List SelectorToken} (frontFilled : front ≠ [])
    (backFilled : back ≠ []) (isFront : Fenced Linked .comma front)
    (isBack : Fenced Linked .comma back) :
    Fenced Linked .comma (front ++ back) ↔
      ∀ last ∈ front.getLast?, ∀ first ∈ back.head?, ¬ Fuses last first := by
  rw [fenced_append_iff frontFilled backFilled isFront isBack]
  refine forall₂_congr fun last isLast => forall₂_congr fun first isFirst => ?_
  have ends := ((fenced_iff frontFilled).1 isFront).2.2 last isLast
  have begins := ((fenced_iff backFilled).1 isBack).1 first isFirst
  rcases isBack.exists_behind isFirst with ⟨behind, continues⟩
  exact linked_iff_not_fuses ends begins continues

/-! ## Complex selectors that are joined -/

/-- What some complex selectors begin with has no blank space there. -/
def OpensSolid (complexes : List (List SelectorToken)) : Prop :=
  ∀ token ∈ complexes.head?.bind List.head?, Text.Stops Text.isBlank token.content

/-- What some complex selectors end with has no blank space there. -/
def ClosesSolid (complexes : List (List SelectorToken)) : Prop :=
  ∀ token ∈ complexes.getLast?.bind List.getLast?, Text.EndsSolid token.content

instance (complexes : List (List SelectorToken)) : Decidable (OpensSolid complexes) :=
  decidable_of_iff ((complexes.head?.bind List.head?).all fun token =>
      token.content.head?.all fun character => Text.isBlank character = false) (by
    simp [OpensSolid, Text.Stops, Option.all_eq_true])

/-- Joined complex selectors have blank space at their outer sides as the outermost ones do. -/
theorem trimmed_join_iff {complexes : List (List SelectorToken)}
    (filled : ∀ complex ∈ complexes, complex ≠ []) :
    Trimmed (join complexes) ↔ OpensSolid complexes ∧ ClosesSolid complexes := by
  rw [OpensSolid, ClosesSolid, ← head?_join filled, ← getLast?_join filled]
  exact ⟨fun trimmed => ⟨trimmed.first, trimmed.last⟩, fun ⟨first, last⟩ => ⟨first, last⟩⟩

/--
Joined complex selectors are scanned as they are written if the tokens of each one are linked, and
there is no blank space at the outer ends that is trimmed.
-/
theorem tokenize_render_join_iff {complexes : List (List SelectorToken)}
    (nonempty : complexes ≠ []) (filled : ∀ complex ∈ complexes, complex ≠ []) :
    tokenize (render (join complexes)) = .ok (join complexes) ↔
      (∀ complex ∈ complexes, Fenced Linked .comma complex) ∧
        OpensSolid complexes ∧ ClosesSolid complexes := by
  rw [tokenize_render_eq_iff, trimmed_join_iff filled, join, fenced_join_iff nonempty filled]

/-! ## Every complex selector with every other -/

/-- Every one of some complex selectors with every one of others behind it. -/
def pairs (fronts backs : List (List SelectorToken)) : List (List SelectorToken) :=
  fronts.flatMap fun front => backs.map (front ++ ·)

theorem forall_mem_pairs {property : List SelectorToken → Prop}
    {fronts backs : List (List SelectorToken)} :
    (∀ complex ∈ pairs fronts backs, property complex) ↔
      ∀ front ∈ fronts, ∀ back ∈ backs, property (front ++ back) := by
  simp only [pairs, List.forall_mem_flatMap, List.forall_mem_map]

section

variable {fronts backs : List (List SelectorToken)}
variable (someFront : fronts ≠ []) (someBack : backs ≠ [])

include someFront someBack in
theorem pairs_ne_nil : pairs fronts backs ≠ [] := by
  simpa [pairs, someBack] using List.exists_mem_of_ne_nil _ someFront

include someFront someBack in
theorem opensSolid_pairs_iff (filled : ∀ front ∈ fronts, front ≠ []) :
    OpensSolid (pairs fronts backs) ↔ OpensSolid fronts := by
  rcases List.exists_cons_of_ne_nil someFront with ⟨front, moreFronts, rfl⟩
  rcases List.exists_cons_of_ne_nil someBack with ⟨back, moreBacks, rfl⟩
  have nonempty := filled front List.mem_cons_self
  simp [OpensSolid, pairs, List.head?_append_of_ne_nil _ nonempty]

include someFront someBack in
theorem closesSolid_pairs_iff (filled : ∀ back ∈ backs, back ≠ []) :
    ClosesSolid (pairs fronts backs) ↔ ClosesSolid backs := by
  rcases List.eq_nil_or_concat fronts with empty | ⟨moreFronts, front, rfl⟩
  · exact absurd empty someFront
  rcases List.eq_nil_or_concat backs with empty | ⟨moreBacks, back, rfl⟩
  · exact absurd empty someBack
  have nonempty := filled back (by simp)
  simp [ClosesSolid, pairs, List.getLast?_append_of_ne_nil _ nonempty]

include someFront someBack in
/-- Pairs are scanned as they are written if the two of each can stand one behind the other. -/
theorem tokenize_render_pairs_iff (frontFilled : ∀ front ∈ fronts, front ≠ [])
    (backFilled : ∀ back ∈ backs, back ≠ []) :
    tokenize (render (join (pairs fronts backs))) = .ok (join (pairs fronts backs)) ↔
      (∀ front ∈ fronts, ∀ back ∈ backs, Fenced Linked .comma (front ++ back)) ∧
        OpensSolid fronts ∧ ClosesSolid backs := by
  have filled : ∀ pair ∈ pairs fronts backs, pair ≠ [] :=
    forall_mem_pairs.2 fun front isFront back _ =>
      List.append_ne_nil_of_left_ne_nil (frontFilled front isFront) back
  rw [tokenize_render_join_iff (pairs_ne_nil someFront someBack) filled, forall_mem_pairs,
    opensSolid_pairs_iff someFront someBack frontFilled,
    closesSolid_pairs_iff someFront someBack backFilled]

end

end CssAuthoring.Selector
