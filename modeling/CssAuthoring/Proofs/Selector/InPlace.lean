import CssAuthoring.Proofs.Text.Trim
import CssAuthoring.Selector.Tokenize

/-!
# Reading a selector in place

A selector is read at a cursor in the text as it was given, which looks no further than where the
blank space at its end begins.  That is the same as scanning the trimmed text: the tokens are those
of the scan, and the position of an error is what stands in front of its culprit in the text without
the blank space at its end.

The main statements are `tokenizeExact_eq_scan` and `tokenize_eq_scan`.
-/

namespace CssAuthoring.Selector

/-- Reading a whole text in place is scanning it. -/
theorem tokenizeExact_eq_scan (selector : Text) :
    tokenizeExact selector = (scan selector).mapError fun culprit =>
      ⟨culprit.fault, selector.length - culprit.here.length, selector⟩ := by
  have start : (Window.whole selector).place selector = 0 := Nat.sub_self _
  have left : selector <:+ (Window.whole selector).text := by simp
  rw [tokenizeExact, ← start, Window.tokens_place left]
  rfl

/-- What can be read of a selector is the selector without the blank space at its end. -/
theorem Window.text_trimmed (selector : Text) :
    (Window.trimmed selector).text = Text.trimEnd selector := by
  rcases Text.exists_trimEnd_append selector with ⟨blank, _, whole⟩
  show selector.take (Text.trimEnd selector).length = Text.trimEnd selector
  conv => lhs; arg 2; rw [whole]
  exact List.take_left

/-- A selector that is not blank keeps the blank space at its start where its end is trimmed. -/
theorem takeWhile_append_trim {selector : Text} (notBlank : Text.trim selector ≠ []) :
    selector.takeWhile Text.isBlank ++ Text.trim selector = Text.trimEnd selector := by
  rw [Text.trim, ← Text.trimEnd_append notBlank, Text.takeWhile_append_trimStart]

/-- Reading a selector in place is scanning it without the blank space at its ends. -/
theorem tokenize_eq_scan (selector : Text) :
    tokenize selector = (scan (Text.trim selector)).mapError fun culprit =>
      ⟨culprit.fault, (Text.trimEnd selector).length - culprit.here.length, selector⟩ := by
  by_cases blank : Text.trim selector = []
  · -- In a blank text the cursor starts behind where reading ends.
    have nothing : Text.trimEnd selector = [] :=
      Text.trimEnd_append_blank [] ((Text.trim_eq_nil_iff selector).1 blank)
    have noLength : (Window.trimmed selector).length = 0 := congrArg List.length nothing
    rw [tokenize, Window.tokens_eq, Window.peek, if_neg (by simp [noLength]), blank, scan]
    rfl
  · have whole := takeWhile_append_trim blank
    have left : Text.trim selector <:+ (Window.trimmed selector).text := by
      rw [Window.text_trimmed]
      exact ⟨_, whole⟩
    have start : (Window.trimmed selector).place (Text.trim selector) =
        selector.length - (Text.trimStart selector).length := by
      have lengths := congrArg List.length (Text.takeWhile_append_trimStart selector)
      have trimmed := congrArg List.length whole
      simp only [List.length_append] at lengths trimmed
      simp only [Window.place, Window.trimmed]
      omega
    rw [tokenize, ← start, Window.tokens_place left]
    rfl

/-- A blank selector has no tokens. -/
theorem tokenize_of_blank (selector : Text)
    (blank : ∀ character ∈ selector, Text.isBlank character = true) :
    tokenize selector = .ok [] := by
  rw [tokenize_eq_scan, (Text.trim_eq_nil_iff selector).2 blank, scan]
  rfl

end CssAuthoring.Selector
