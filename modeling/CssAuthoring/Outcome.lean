/-!
# Outcomes of changes

A change of a state either yields a value or fails, and in both cases leaves a state behind: what
was done before a failure stays done.

Main statements: `andThen_ok` and `andThen_error`, a change goes on only after success.
-/

namespace CssAuthoring

/-- The state after a change, and what came of the change. -/
abbrev Outcome (σ ε α : Type) := σ × Except ε α

namespace Outcome

variable {σ ε α β : Type}

/-- Goes on with another change if one has succeeded. -/
def andThen (first : Outcome σ ε α) (next : σ → α → Outcome σ ε β) : Outcome σ ε β :=
  match first.2 with
  | .error failure => (first.1, .error failure)
  | .ok value => next first.1 value

@[simp]
theorem andThen_ok (state : σ) (value : α) (next : σ → α → Outcome σ ε β) :
    andThen (state, .ok value) next = next state value := rfl

@[simp]
theorem andThen_error (state : σ) (failure : ε) (next : σ → α → Outcome σ ε β) :
    andThen (state, .error failure) next = (state, .error failure) := rfl

/-- Two changes, one after the other, succeed where each of them does. -/
theorem andThen_eq_ok {first : Outcome σ ε α} {next : σ → α → Outcome σ ε β} {state : σ}
    {value : β} :
    first.andThen next = (state, .ok value) ↔
      ∃ middle result, first = (middle, .ok result) ∧ next middle result = (state, .ok value) := by
  constructor
  · intro succeeded
    rcases first with ⟨middle, failure | result⟩
    · cases succeeded
    · exact ⟨middle, result, rfl, succeeded⟩
  · rintro ⟨middle, result, rfl, succeeded⟩
    exact succeeded

/-- Changes that are gone on with alike after success lead to the same. -/
theorem andThen_congr {first : Outcome σ ε α} {next other : σ → α → Outcome σ ε β}
    (same : ∀ value, first.2 = .ok value → next first.1 value = other first.1 value) :
    first.andThen next = first.andThen other := by
  rcases first with ⟨state, failure | value⟩
  · rfl
  · exact same value rfl

end Outcome

end CssAuthoring
