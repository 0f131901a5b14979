import CssAuthoring.Text.Basic

/-!
# Arguments in preludes

An argument is read one character at a time.  The reader knows how deep it is in parentheses and
whether it is inside a string or just behind a backslash there.  Where the text ends first, the
argument is what was read, and the state of the reader says what was still open.

Main statement: `readArgument_append`, nothing is lost when an argument is read.
-/

namespace CssAuthoring.Prelude

/-- Where a reader is with respect to strings. -/
inductive Quoting where
  | outside
  | inside (quote : Char)
  /-- Inside a string, behind a backslash. -/
  | escaped (quote : Char)
  deriving DecidableEq, Repr

/-- How an argument ended: at its parenthesis, or at the end of the text with more still open. -/
inductive Closing where
  | closed
  | unclosed (depth : Nat) (quoting : Quoting)
  deriving DecidableEq, Repr

/-- The written form of the end of an argument. -/
def Closing.text : Closing → Text
  | .closed => [')']
  | .unclosed _ _ => []

/-- The state after one more character; none at the parenthesis that closes the argument. -/
def advance (depth : Nat) (quoting : Quoting) (character : Char) : Option (Nat × Quoting) :=
  match quoting with
  | .escaped quote => some (depth, .inside quote)
  | .inside quote =>
    if character = '\\' then some (depth, .escaped quote)
    else if character = quote then some (depth, .outside)
    else some (depth, .inside quote)
  | .outside =>
    if Text.isQuote character then some (depth, .inside character)
    else if character = '(' then some (depth + 1, .outside)
    else if character = ')' then
      match depth with
      | 0 => none
      | outer + 1 => some (outer, .outside)
    else some (depth, .outside)

/-- An argument, how it ended, and what follows it. -/
def readArgument (depth : Nat) (quoting : Quoting) : Text → Text × Closing × Text
  | [] => ([], .unclosed depth quoting, [])
  | character :: rest =>
    match advance depth quoting character with
    | none => ([], .closed, rest)
    | some (depth, quoting) =>
      let (argument, closing, after) := readArgument depth quoting rest
      (character :: argument, closing, after)

/-- The argument, its closing parenthesis if there is one, and what is left make up the text. -/
theorem readArgument_append (depth : Nat) (quoting : Quoting) (text : Text) :
    (readArgument depth quoting text).1 ++ (readArgument depth quoting text).2.1.text ++
      (readArgument depth quoting text).2.2 = text := by
  induction text generalizing depth quoting with
  | nil => rfl
  | cons character rest hypothesis =>
    unfold readArgument
    cases step : advance depth quoting character with
    | none =>
      have stop : character = ')' := by
        unfold advance at step
        split at step
        · contradiction
        · split at step <;> try split at step
          all_goals contradiction
        · split at step
          · contradiction
          · split at step
            · contradiction
            · split at step
              · assumption
              · contradiction
      simp [Closing.text, stop]
    | some next => simpa using hypothesis next.1 next.2

end CssAuthoring.Prelude
