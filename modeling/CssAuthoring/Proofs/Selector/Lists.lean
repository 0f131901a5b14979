import CssAuthoring.Proofs.Separated
import CssAuthoring.Token.Mixed

/-!
# Selector lists

A selector list is a list of tokens, and its complex selectors are what stands between its commas.
They are taken out of the list, and put together again, by the position of the commas alone: neither
the kind of the other tokens nor the grammar that they come from matters.

Main statements: `groups_join`, complex selectors are found again in their list;
`splitsAndJoins_lists`, what splitting a list and joining lists have to do with each other.
-/

namespace CssAuthoring.Selector

open CssAuthoring.Separated

/-- Some tokens without a comma among them, which are one complex selector of a list. -/
def IsGroup (tokens : List SelectorToken) : Prop :=
  tokens ≠ [] ∧ ∀ token ∈ tokens, token.isComma = false

theorem isGroup_of_mem_groups {tokens group : List SelectorToken} (member : group ∈ groups tokens) :
    IsGroup group :=
  filled_of_mem_groups member

theorem IsGroup.append {front back : List SelectorToken} (isGroup : IsGroup front)
    (noComma : ∀ token ∈ back, token.isComma = false) : IsGroup (front ++ back) := by
  refine ⟨by simp [isGroup.1], fun token member => ?_⟩
  rcases List.mem_append.1 member with inFront | inBack
  · exact isGroup.2 token inFront
  · exact noComma token inBack

/-- Complex selectors that are joined are found again. -/
theorem groups_join {complexes : List (List SelectorToken)}
    (areGroups : ∀ complex ∈ complexes, IsGroup complex) : groups (join complexes) = complexes := by
  have separates : SelectorToken.isComma SelectorToken.comma = true := rfl
  rw [groups, join, Separated.groups_join separates, flatMap_groups_of_filled areGroups]

/--
Selector lists are split at their commas, whatever their content is, and are joined with canonical
commas.  The same holds of lists in which there are tokens of preludes too.
-/
theorem splitsAndJoins_lists :
    SplitsAndJoins SelectorToken.isComma SelectorToken.comma groups join ∧
      SplitsAndJoins AnyToken.isComma AnyToken.comma AnyToken.groups AnyToken.join := by
  constructor
  · have separates : SelectorToken.isComma SelectorToken.comma = true := rfl
    exact splitsAndJoins separates
  · have separates : AnyToken.isComma AnyToken.comma = true := by decide
    exact splitsAndJoins separates

end CssAuthoring.Selector
