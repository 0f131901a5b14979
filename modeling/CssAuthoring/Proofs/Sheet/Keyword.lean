import CssAuthoring.Proofs.Prelude.Trimming
import CssAuthoring.Proofs.Text.Collapse
import CssAuthoring.Sheet.Scope

/-!
# A keyword repeated in its prelude

The prelude of a scope may begin with the keyword of the scope, which is then left out.  The keyword
is found by its token, but what is left out are as many characters at the start of the trimmed
prelude as the token has.  Characters that begin no token may stand in front of the keyword; they
are then left out in its place, and as many characters of the keyword stay.

Main statement: `text_leading_keyword`, what is left of such a prelude, and when that is what stands
behind the keyword.
-/

namespace CssAuthoring.Sheet

open CssAuthoring.Prelude (Cuts Segment)

/-! ## Cutting a word off that stands behind other characters -/

section

variable {skipped word : Text} (solid : Text.EndsSolid word) (rest : Text)

include solid in
/-- A word that is not cut off where it stands leaves its last character. -/
theorem exists_solid_of_drop (filled : skipped ≠ []) :
    ∃ last ∈ (skipped ++ word).drop word.length, Text.isBlank last = false := by
  rcases solid with ⟨front, last, rfl, notBlank⟩
  have positive := List.length_pos_iff.2 filled
  refine ⟨last, ?_, notBlank⟩
  rw [← List.append_assoc, List.drop_append_of_le_length (by simp; omega)]
  exact List.mem_append_right _ (List.mem_singleton_self last)

include solid in
/-- Collapsed, a text shows whether a word was cut off where it stands. -/
theorem collapse_drop_eq_iff :
    Text.collapse ((skipped ++ word).drop word.length ++ rest) = Text.collapse rest ↔
      skipped = [] := by
  constructor
  · intro same
    by_cases empty : skipped = []
    · exact empty
    · -- The characters that are not blank are kept, so that none of them can be left over.
      rcases exists_solid_of_drop solid empty with ⟨last, member, notBlank⟩
      have kept := congrArg (List.filter fun character => !Text.isBlank character) same
      rw [Text.filter_collapse, Text.filter_collapse, List.filter_append,
        List.append_left_eq_self] at kept
      have noneLeft := List.filter_eq_nil_iff.1 kept last member
      simp [notBlank] at noneLeft
  · rintro rfl
    rw [List.nil_append, List.drop_length, List.nil_append]

end

/-! ## The text of a scope -/

/-- As many characters as the keyword has are cut off the trimmed prelude. -/
theorem text_of_leadingKeyword {scope : Scope} {name content : Text} {found : List PreludeToken}
    (first : Prelude.tokenize (Text.trim scope.prelude) = .ok (⟨.atName name, content⟩ :: found))
    (same : Text.lower name = Text.lower scope.keyword) :
    scope.text = .ok (Text.collapse ((Text.trim scope.prelude).drop content.length)) := by
  simp only [Scope.text, first, leadingKeyword?]
  rw [if_pos same]

/--
A prelude begins with the keyword of its scope if segments without tokens are all that stands in
front of it.  As many characters as the keyword has are left out, counted from the first character
that is not blank.  What is left is what stands behind the keyword, with single spaces, exactly if
there is only blank space in front of the keyword.
-/
theorem text_leading_keyword {scope : Scope} {name content : Text} {more : List PreludeToken}
    (first : Prelude.tokenize scope.prelude = .ok (⟨.atName name, content⟩ :: more))
    (same : Text.lower name = Text.lower scope.keyword) :
    ∃ front rest,
      Cuts rest (front ++ [.token ⟨.atName name, content⟩]) scope.prelude ∧
      (∀ segment ∈ front, segment.token? = none) ∧ Prelude.tokenize rest = .ok more ∧
      scope.text = .ok (Text.collapse
        ((Text.trimStart (front.flatMap Segment.source) ++ content).drop content.length ++ rest)) ∧
      (scope.text = .ok (Text.collapse rest) ↔ Text.Blank (front.flatMap Segment.source)) := by
  rcases Prelude.exists_trimmed_keyword_cut first with
    ⟨front, rest, trail, found, cuts, noToken, solid, isMore, blank, trimmed, firstAgain⟩
  have cut : scope.text = .ok (Text.collapse
      ((Text.trimStart (front.flatMap Segment.source) ++ content).drop content.length ++
        (rest ++ trail))) := by
    rw [text_of_leadingKeyword firstAgain same, trimmed,
      List.drop_append_of_le_length (by simp), ← List.append_assoc,
      Text.collapse_append_blank blank]
  refine ⟨front, rest ++ trail, cuts, noToken, isMore, cut, ?_⟩
  rw [cut, Except.ok.injEq, collapse_drop_eq_iff solid, Text.trimStart_eq_nil_iff]

/-- A keyword in other letters, behind white space and a blank character outside the grammar. -/
theorem text_leading_keyword_media :
    ∃ front rest,
      Cuts rest (front ++ [.token ⟨.atName "Media".toList, "@Media".toList⟩])
        "\x0b @Media\n  print ".toList ∧
      ((Scope.mk "media" "\x0b @Media\n  print ").text = .ok (Text.collapse rest) ↔
        Text.Blank (front.flatMap Segment.source)) ∧
      (Scope.mk "media" "\x0b @Media\n  print ").text = .ok "print".toList := by
  have first : Prelude.tokenize (Scope.mk "media" "\x0b @Media\n  print ").prelude =
      .ok (⟨.atName "Media".toList, "@Media".toList⟩ ::
        [.canonical (.identifier "print".toList)]) := by
    with_unfolding_all rfl
  have same : Text.lower "Media".toList = Text.lower "media".toList := by
    decide +kernel
  rcases text_leading_keyword first same with ⟨front, rest, cuts, _, _, _, exactly⟩
  exact ⟨front, rest, cuts, exactly, by with_unfolding_all rfl⟩

/-- A character that begins no token is left out in place of the last letter of the keyword. -/
theorem text_misplaced_keyword :
    Cuts " screen".toList
        [.dropped '!', .token ⟨.atName "media".toList, "@media".toList⟩]
        "!@media screen".toList ∧
      (Scope.mk "media" "!@media screen").text = .ok "a screen".toList ∧
      Text.collapse " screen".toList = "screen".toList ∧
      (Scope.mk "media" "!@media screen").text ≠ .ok (Text.collapse " screen".toList) := by
  have left : (Scope.mk "media" "!@media screen").text = .ok "a screen".toList := by
    with_unfolding_all rfl
  have behind : Text.collapse " screen".toList = "screen".toList := by
    with_unfolding_all rfl
  refine ⟨?_, left, behind, ?_⟩
  · have name : Prelude.Longest "media".toList " screen".toList :=
      ⟨List.all_eq_true.1 (by decide), (Text.stops_cons _ _ _).2 (by decide)⟩
    have stranger : Prelude.Stranger '!' "@media screen".toList :=
      ⟨by decide, by decide, by decide, by decide, by decide, by decide,
        fun sign => absurd sign (by decide)⟩
    exact .cons (.dropped stranger) (.cons (.atName name) .nil)
  · rw [left, behind]
    intro equal
    exact absurd (Except.ok.inj equal) (by decide)

end CssAuthoring.Sheet
