import CssAuthoring.Selector.Name

/-!
# Strings and arguments in selectors

A string runs to its closing quote; a backslash takes the character after it along.  An argument
runs to the parenthesis that closes it: parentheses inside it nest, and those inside strings do not
count.

Main statements: `closeString?_append` and `closeArgument_append`, nothing is lost when a string or
an argument is read.
-/

namespace CssAuthoring.Selector

/--
What follows an opening quote up to and including the closing one, and what is left.  There is none
if the text ends first, or in a backslash.
-/
def closeString? (quote : Char) : Text → Option (Text × Text)
  | '\\' :: escaped :: rest =>
    (closeString? quote rest).map fun (inside, after) => ('\\' :: escaped :: inside, after)
  | '\\' :: [] => none
  | character :: rest =>
    if character = quote then some ([character], rest)
    else (closeString? quote rest).map fun (inside, after) => (character :: inside, after)
  | [] => none

/-- What was read of a string, followed by what is left, is the text. -/
theorem closeString?_append {quote : Char} {text inside after : Text}
    (closed : closeString? quote text = some (inside, after)) : inside ++ after = text := by
  fun_induction closeString? quote text generalizing inside after with
  | case1 escaped rest hypothesis =>
    simp only [Option.map_eq_some_iff, Prod.exists, Prod.mk.injEq] at closed
    obtain ⟨front, back, found, rfl, rfl⟩ := closed
    simp [hypothesis found]
  | case2 => contradiction
  | case3 rest =>
    obtain ⟨rfl, rfl⟩ := Prod.mk.inj (Option.some.inj closed)
    rfl
  | case4 character rest notEscape notLast notQuote hypothesis =>
    simp only [Option.map_eq_some_iff, Prod.exists, Prod.mk.injEq] at closed
    obtain ⟨front, back, found, rfl, rfl⟩ := closed
    simp [hypothesis found]
  | case5 => contradiction

theorem closeString?_shorter {quote : Char} {text inside after : Text}
    (closed : closeString? quote text = some (inside, after)) : after.length ≤ text.length := by
  rw [← closeString?_append closed, List.length_append]
  omega

/-- Why an argument has no end: inside a string that is still open, or outside of any. -/
inductive OpenEnd where
  /-- What is left from the quote of the open string on. -/
  | string (here : Text)
  | parenthesis
  deriving DecidableEq, Repr

/-- Puts text in front of what was read. -/
def prepend (front : Text) (reading : Text × Text) : Text × Text :=
  (front ++ reading.1, reading.2)

/-- A reading behind a prefix comes from a reading of what follows the prefix. -/
theorem of_map_prepend {front inside after : Text} {reading : Except OpenEnd (Text × Text)}
    (mapped : reading.map (prepend front) = .ok (inside, after)) :
    ∃ back, reading = .ok (back, after) ∧ inside = front ++ back := by
  cases reading with
  | error cause => cases mapped
  | ok found =>
      cases mapped
      exact ⟨found.1, rfl, rfl⟩

/--
What follows an opening parenthesis up to the one that closes it, which is left out, and what
follows that one.  The depth counts the parentheses that were opened since.
-/
def closeArgument (depth : Nat) (text : Text) : Except OpenEnd (Text × Text) :=
  match text with
  | [] => .error .parenthesis
  | character :: rest =>
    if Text.isQuote character then
      match closed : closeString? character rest with
      | none => .error (.string (character :: rest))
      | some (inside, after) =>
        have := closeString?_shorter closed
        (closeArgument depth after).map (prepend (character :: inside))
    else if character = ')' then
      match depth with
      | 0 => .ok ([], rest)
      | outer + 1 => (closeArgument outer rest).map (prepend [character])
    else if character = '(' then (closeArgument (depth + 1) rest).map (prepend [character])
    else (closeArgument depth rest).map (prepend [character])
termination_by text.length

/-- The argument, its closing parenthesis and what is left make up the text. -/
theorem closeArgument_append {depth : Nat} {text inside after : Text}
    (closed : closeArgument depth text = .ok (inside, after)) :
    inside ++ ')' :: after = text := by
  fun_induction closeArgument depth text generalizing inside after with
  | case1 => contradiction
  | case2 => contradiction
  | case3 depth character rest isQuote string between closedString shorter hypothesis =>
    obtain ⟨back, found, rfl⟩ := of_map_prepend closed
    simpa [hypothesis found] using closeString?_append closedString
  | case4 => simp_all
  | case5 _ _ _ hypothesis =>
    obtain ⟨back, found, rfl⟩ := of_map_prepend closed
    simpa using hypothesis found
  | case6 _ _ _ _ hypothesis =>
    obtain ⟨back, found, rfl⟩ := of_map_prepend closed
    simpa using hypothesis found
  | case7 _ _ _ _ _ _ hypothesis =>
    obtain ⟨back, found, rfl⟩ := of_map_prepend closed
    simpa using hypothesis found

end CssAuthoring.Selector
