import CssAuthoring.Proofs.Component.Declaration
import CssAuthoring.Sheet.Property

/-!
# Declarations of a style sheet read back

A declaration that a style sheet takes is printed without comments and without anything between its
values.  Where this keeps its parts apart, the declaration is read back from its printed form.
-/

namespace CssAuthoring.Sheet

open CssAuthoring.Component

/-- A declaration that a style sheet takes was read from some text. -/
theorem exists_of_declarationOf {key : Text} {setting : Setting} {declaration : Declaration}
    (accepted : declarationOf key setting = .ok (some declaration)) :
    ∃ text, Declaration.parse? text = .ok (some declaration) := by
  unfold declarationOf at accepted
  split at accepted
  · cases accepted
  dsimp only at accepted
  split at accepted
  · cases accepted
  split at accepted
  · cases accepted
  · cases accepted
  · rename_i read
    cases accepted
    exact ⟨_, read⟩

/--
A legible declaration that a style sheet takes is printed as its printed form and a semicolon, and
is read back from the printed form.
-/
theorem declarationOf_readsBack {key : Text} {setting : Setting} {declaration : Declaration}
    (accepted : declarationOf key setting = .ok (some declaration))
    (legible : declaration.Legible) :
    declaration.text = declaration.printed ++ [';'] ∧ declaration.ReadsBack := by
  rcases exists_of_declarationOf accepted with ⟨text, read⟩
  exact ⟨declaration.text_eq, legible.readsBack read⟩

/-- A declaration with an address, a function, a string and a mark of importance. -/
def layers : Declaration :=
  ⟨"background-image",
    [gap, .atom (.address "a.png" true), gap, .atom (.literal [',']), gap,
      .function "f" [.atom (.dimension "1" "px"), .atom (.literal ['+']), .atom (.string "b" true)],
      gap], true⟩

/-- A comment next to white space leaves the values apart. -/
theorem declarationOf_readsBack_layers :
    declarationOf "backgroundImage" (.text "url(a.png)/**/ , f(1px+'b') ! IMPORTANT") =
        .ok (some layers) ∧
      layers.Legible ∧ layers.text = layers.printed ++ [';'] ∧ layers.ReadsBack := by
  have accepted : declarationOf "backgroundImage"
      (.text "url(a.png)/**/ , f(1px+'b') ! IMPORTANT") = .ok (some layers) := by
    with_unfolding_all rfl
  have legible : layers.Legible := by
    constructor
    · with_unfolding_all rfl
    · with_unfolding_all rfl
    · with_unfolding_all decide
    · with_unfolding_all rfl
  exact ⟨accepted, legible, declarationOf_readsBack accepted legible⟩

/--
Values that only a comment parts are joined.  A value may also hold a closing bracket that nothing
opens, and a semicolon.
-/
theorem declarationOf_joins :
    (∃ declaration, declarationOf "a" (.text "x/**/y") = .ok (some declaration) ∧
      ¬ declaration.ReadsBack) ∧
    declarationOf "a" (.text "f(\x7d);y") =
      .ok (some ⟨"a", [gap, .function "f" [.atom (.flaw (.unmatched .curly))],
        .atom (.literal [';']), .atom (.identifier "y")], false⟩) := by
  constructor
  · refine ⟨⟨"a", [gap, .atom (.identifier "x"), .atom (.identifier "y")], false⟩,
      by with_unfolding_all rfl, ?_⟩
    rintro ⟨again, read, _, _, same⟩
    have joined : Declaration.parse? (Declaration.printed
        ⟨"a", [gap, .atom (.identifier "x"), .atom (.identifier "y")], false⟩) =
          .ok (some ⟨"a", [gap, .atom (.identifier "xy")], false⟩) := by
      with_unfolding_all rfl
    rw [joined] at read
    cases read
    cases same
  · with_unfolding_all rfl

end CssAuthoring.Sheet
