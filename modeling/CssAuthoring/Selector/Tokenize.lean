import CssAuthoring.Selector.Readers

/-!
# The tokens of a selector

The tokens are read one after the other, from where the cursor starts up to the end.  A selector is
read without the blank space at its ends, and yet in place: the cursor starts behind the blank space
at its start, and reading ends in front of that at its end.

The main statement is `Window.tokens_place`, reading the tokens in place is scanning what is left.
-/

namespace CssAuthoring.Selector

namespace Window

variable (window : Window)

/-- The tokens from a position up to the end. -/
def tokens (position : Nat) : Except Error (List SelectorToken) :=
  match found : window.peek position with
  | none => .ok []
  | some character =>
    match read : window.readToken character position with
    | .error error => .error error
    | .ok (token, after) =>
      have := lt_of_readToken found read
      (tokens after).map (token :: ·)
termination_by window.length - position

theorem tokens_eq (position : Nat) :
    window.tokens position =
      match window.peek position with
      | none => .ok []
      | some character =>
        match window.readToken character position with
        | .error error => .error error
        | .ok (token, after) => (window.tokens after).map (token :: ·) := by
  rw [tokens]
  split
  · simp_all
  · rename_i character found
    simp only [found]
    split <;> simp_all

variable {window}

/-- Reading the tokens in place is scanning what is left. -/
theorem tokens_place {here : Text} (left : here <:+ window.text) :
    window.tokens (window.place here) =
      (scan here).mapError fun culprit =>
        window.error culprit.fault (window.place culprit.here) := by
  fun_induction scan here with
  | case1 => rw [tokens_eq, peek_place left]; rfl
  | case2 character rest culprit read =>
    rw [tokens_eq, peek_place left]
    simp only [List.head?_cons, readToken_place left, read]
    rfl
  | case3 character rest token after read shorter hypothesis =>
    rw [tokens_eq, peek_place left]
    simp only [List.head?_cons, readToken_place left, read, located]
    rw [hypothesis ((readToken_suffix read).1.trans left)]
    cases scan after <;> rfl

/-- The window on a whole text. -/
def whole (selector : Text) : Window :=
  ⟨selector, selector.length, Nat.le_refl _⟩

/-- The window on a text in which reading ends in front of the blank space at its end. -/
def trimmed (selector : Text) : Window :=
  ⟨selector, (Text.trimEnd selector).length, Text.length_trimEnd_le selector⟩

@[simp]
theorem text_whole (selector : Text) : (whole selector).text = selector :=
  List.take_length

end Window

/-- The tokens of a selector as it stands, blank space at its ends included. -/
def tokenizeExact (selector : Text) : Except Error (List SelectorToken) :=
  (Window.whole selector).tokens 0

/-- The tokens of a selector without the blank space at its ends, which stays where it is. -/
def tokenize (selector : Text) : Except Error (List SelectorToken) :=
  (Window.trimmed selector).tokens (selector.length - (Text.trimStart selector).length)

end CssAuthoring.Selector
