import CssAuthoring.Proofs.Separated
import CssAuthoring.Proofs.Text.Trim

/-!
# Collapsed text

Collapsing a text makes every run of blank space a single space and drops it at the ends.  So blank
space around a text does not matter for its collapsed form, and the characters that are not blank
are the same before and after, in the same order.

Main statements: `collapse_surrounded` and `collapse_trim`, blank space around a text;
`filter_collapse`, the characters that are not blank.
-/

namespace CssAuthoring.Text

section

variable {front back : Text} (frontBlank : Blank front) (backBlank : Blank back) (text : Text)

include frontBlank in
theorem collapse_blank_append : collapse (front ++ text) = collapse text := by
  rw [collapse, words, Separated.groups_run_append frontBlank, collapse, words]

include backBlank in
theorem collapse_append_blank : collapse (text ++ back) = collapse text := by
  rw [collapse, words, Separated.groups_append_run backBlank, collapse, words]

include frontBlank backBlank in
/-- Blank space around a text does not matter when the text is collapsed. -/
theorem collapse_surrounded : collapse (front ++ text ++ back) = collapse text := by
  rw [collapse_append_blank backBlank, collapse_blank_append frontBlank]

end

/-- Trimming a text does not matter when it is collapsed. -/
theorem collapse_trim (text : Text) : collapse (trim text) = collapse text := by
  rcases exists_trim_surrounded text with ⟨lead, trail, leadBlank, trailBlank, split⟩
  have surrounded := collapse_surrounded leadBlank trailBlank (trim text)
  rw [List.append_assoc, ← split] at surrounded
  exact surrounded.symm

theorem filter_intercalate_space (texts : List Text) :
    (List.intercalate [' '] texts).filter (fun character => !isBlank character) =
      texts.flatten.filter fun character => !isBlank character := by
  induction texts with
  | nil => rfl
  | cons first rest hypothesis =>
      cases rest with
      | nil => simp
      | cons next more =>
          have space : isBlank ' ' = true := by decide
          rw [List.intercalate_cons_cons, List.filter_append, List.filter_append, hypothesis]
          simp [space]

/-- Collapsing keeps the characters that are not blank, in their order. -/
theorem filter_collapse (text : Text) :
    (collapse text).filter (fun character => !isBlank character) =
      text.filter fun character => !isBlank character := by
  rw [collapse, filter_intercalate_space, words, Separated.flatten_groups, List.filter_filter]
  simp

end CssAuthoring.Text
