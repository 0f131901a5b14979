import CssAuthoring.Component.Name

/-!
# Strings, addresses and comments in style values

Readers of what stands between two delimiters.  A string or address may be closed, may run into the
end of the text, or may be broken: a string by a line break, an address by a character that it
cannot hold.

Main statements: `readString_length`, `readAddress_length` and `readComment_length`, no reader
leaves more than it was given.
-/

namespace CssAuthoring.Component

/-- How a string or address ended. -/
inductive Ending where
  | closed
  | unclosed
  | broken
  deriving DecidableEq, Repr

/-- The value of a string, how it ended, and what follows; a broken one ends before a line feed. -/
def readString (quote : Char) (text : Text) : Text × Ending × Text :=
  match text with
  | [] => ([], .unclosed, [])
  | character :: rest =>
    if character = quote then ([], .closed, rest)
    else if character = '\n' then ([], .broken, '\n' :: rest)
    else if character = '\\' then
      match rest with
      | [] => ([], .unclosed, [])
      | escaped :: after =>
        if escaped = '\n' then readString quote after
        else
          have := Nat.lt_succ_of_le (readEscape_length (escaped :: after))
          let left := (readEscape (escaped :: after)).2
          ((readEscape (escaped :: after)).1 :: (readString quote left).1,
            (readString quote left).2)
    else (character :: (readString quote rest).1, (readString quote rest).2)
termination_by text.length
decreasing_by all_goals simp only [List.length_cons] at *; omega

/-- Whether a character breaks an address: a quote, a parenthesis or a control character. -/
def breaksAddress (character : Char) : Bool :=
  let code := character.toNat
  Text.isQuote character || character = '(' || code ≤ 8 || code = 11
    || (14 ≤ code && code ≤ 31) || code = 127

/-- What follows a broken address: everything behind the next parenthesis without a backslash. -/
def skipBroken : Text → Text
  | '\\' :: ')' :: rest => skipBroken rest
  | character :: rest => if character = ')' then rest else skipBroken rest
  | [] => []

/-- The value of an address without white space before it, how it ended, and what follows. -/
def readAddress (text : Text) : Text × Ending × Text :=
  match text with
  | [] => ([], .unclosed, [])
  | character :: rest =>
    if character = ')' then ([], .closed, rest)
    else if isSpace character then
      match rest.dropWhile isSpace with
      | [] => ([], .unclosed, [])
      | ')' :: after => ([], .closed, after)
      | after => ([], .broken, skipBroken after)
    else if character = '\\' && escapes rest then
      have := readEscape_length rest
      ((readEscape rest).1 :: (readAddress (readEscape rest).2).1,
        (readAddress (readEscape rest).2).2)
    else if breaksAddress character then ([], .broken, skipBroken rest)
    else (character :: (readAddress rest).1, (readAddress rest).2)
termination_by text.length

/-- The text of a comment without its delimiters, and what follows it. -/
def readComment : Text → Text × Text
  | '*' :: '/' :: rest => ([], rest)
  | character :: rest => (character :: (readComment rest).1, (readComment rest).2)
  | [] => ([], [])

theorem readString_length (quote : Char) (text : Text) :
    (readString quote text).2.2.length ≤ text.length := by
  fun_induction readString quote text with
  | case1 => simp
  | case2 => simp
  | case3 => simp
  | case4 => simp
  | case5 _ _ _ hypothesis => simp only [List.length_cons] at *; omega
  | case6 _ _ _ shorter left _ _ hypothesis =>
    simp only [List.length_cons, left] at *
    omega
  | case7 _ _ _ _ _ hypothesis => simp only [List.length_cons] at *; omega

theorem skipBroken_length (text : Text) : (skipBroken text).length ≤ text.length := by
  fun_induction skipBroken text with
  | case1 rest hypothesis => simp only [List.length_cons]; omega
  | case2 => simp
  | case3 character rest _ _ hypothesis => simp only [List.length_cons]; omega
  | case4 => simp

theorem readAddress_length (text : Text) : (readAddress text).2.2.length ≤ text.length := by
  fun_induction readAddress text with
  | case1 => simp
  | case2 => simp
  | case3 => simp
  | case4 character rest _ _ after shape =>
    have space := Text.length_dropWhile_le isSpace rest
    rw [shape] at space
    simp only [List.length_cons] at *
    omega
  | case5 character rest _ _ =>
    have space := Text.length_dropWhile_le isSpace rest
    have skipped := skipBroken_length (rest.dropWhile isSpace)
    simp only [List.length_cons]
    omega
  | case6 _ rest _ _ _ shorter hypothesis => simp only [List.length_cons] at *; omega
  | case7 _ rest =>
    have skipped := skipBroken_length rest
    simp only [List.length_cons]
    omega
  | case8 _ _ _ _ _ _ hypothesis => simp only [List.length_cons] at *; omega

theorem readComment_length (text : Text) : (readComment text).2.length ≤ text.length := by
  fun_induction readComment text with
  | case1 => simp; omega
  | case2 _ _ _ hypothesis => simp only [List.length_cons]; omega
  | case3 => simp

/-- The written form of a character in a string. -/
def writeStringCharacter (character : Char) : Text :=
  (writeBreak? character).getD
    (if character = '"' || character = '\\' then ['\\', character] else [character])

/-- The written form of a string; one that was not closed stays so. -/
def writeString (value : Text) (closed : Bool) : Text :=
  '"' :: value.flatMap writeStringCharacter ++ if closed then ['"'] else []

/-- The written form of a character in an address. -/
def writeAddressCharacter (character : Char) : Text :=
  (writeBreak? character).getD
    (if character = '\t' then "\\9 "
    else if character = '\'' || character = '"' || character = '\\' || character = ' '
        || character = '(' || character = ')' then ['\\', character]
    else [character])

/-- The written form of an address; one that was not closed stays so. -/
def writeAddress (value : Text) (closed : Bool) : Text :=
  "url(" ++ value.flatMap writeAddressCharacter ++ if closed then [')'] else []

end CssAuthoring.Component
