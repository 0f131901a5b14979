import CssAuthoring.Selector.Scan

/-!
# A cursor in a selector

A selector is read in place.  The text stays as it was given, and positions count from its start;
blank space at its ends is left out by where the cursor starts and by the length at which reading
ends.  A look ahead stops at that length, whereas a slice is cut out of the whole text.

Reading in place is scanning what is left.  `Window.text` is what stands in front of the end, and
`Window.place` is the position at which a suffix of it begins.  Every reader here satisfies one
equation, which says that reading at the place of a suffix is reading the suffix: `skipSpace_place`,
`nameEnd_place`, `stringEnd_place`, `argumentEnd_place` and `valueEnd_place`.
-/

namespace CssAuthoring.Selector

/-- A selector as it was given, and the length at which reading it ends. -/
structure Window where
  selector : Text
  length : Nat
  within : length ≤ selector.length

namespace Window

variable (window : Window)

/-- The character at a position, if that is in front of the end. -/
def peek (position : Nat) : Option Char :=
  if position < window.length then window.selector[position]? else none

/-- The text between two positions, cut out of the selector as it was given. -/
def slice (start stop : Nat) : Text :=
  (window.selector.take stop).drop start

/-- The error with a fault at a position. -/
def error (fault : Fault) (position : Nat) : Error :=
  ⟨fault, position, window.selector⟩

/-! ## Places of suffixes -/

/-- What can be read: the selector up to where reading ends. -/
def text : Text :=
  window.selector.take window.length

/-- The position at which a suffix of what can be read begins. -/
def place (here : Text) : Nat :=
  window.length - here.length

/-- A reading of what is left, told by positions. -/
def located {α : Type} : Except Culprit (α × Text) → Except Error (α × Nat)
  | .error culprit => .error (window.error culprit.fault (window.place culprit.here))
  | .ok (value, after) => .ok (value, window.place after)

@[simp]
theorem length_text : window.text.length = window.length := by
  simp [text, window.within]

@[simp]
theorem place_text : window.place window.text = 0 := by
  simp [place]

@[simp]
theorem place_nil : window.place [] = window.length := rfl

theorem place_le (here : Text) : window.place here ≤ window.length :=
  Nat.sub_le _ _

variable {window}

theorem lt_length_of_peek {position : Nat} {character : Char}
    (found : window.peek position = some character) : position < window.length := by
  unfold peek at found
  split at found
  · assumption
  · contradiction

/-- What stands in front of a suffix has the length of its place. -/
theorem length_of_append {front here : Text} (whole : front ++ here = window.text) :
    front.length = window.place here := by
  have lengths := congrArg List.length whole
  rw [List.length_append, length_text] at lengths
  rw [place, ← lengths, Nat.add_sub_cancel]

/-- Up to the end, a slice is one of what can be read. -/
theorem take_place (here : Text) :
    window.selector.take (window.place here) = window.text.take (window.place here) := by
  rw [text, List.take_take, Nat.min_eq_left (window.place_le here)]

/-- The place of a suffix without its first character is the next one. -/
theorem place_cons {character : Char} {rest : Text} (left : character :: rest <:+ window.text) :
    window.place (character :: rest) + 1 = window.place rest := by
  have lengths := left.length_le
  simp only [length_text, List.length_cons] at lengths
  simp only [place, List.length_cons]
  omega

theorem suffix_tail {character : Char} {rest : Text} (left : character :: rest <:+ window.text) :
    rest <:+ window.text :=
  (List.suffix_cons _ _).trans left

/-- At the place of a suffix stands its first character. -/
theorem peek_place {here : Text} (left : here <:+ window.text) :
    window.peek (window.place here) = here.head? := by
  cases here with
  | nil => simp [peek]
  | cons character rest =>
    rcases left with ⟨front, whole⟩
    have before := length_of_append whole
    have next := place_cons ⟨front, whole⟩
    have inside : window.place (character :: rest) < window.length := by
      have bound := window.place_le rest
      omega
    rw [peek, if_pos inside, ← List.getElem?_take_of_lt inside]
    rw [← text, ← whole, ← before]
    simp

/-- A character in front of the end stands at the place of a suffix that begins with it. -/
theorem exists_place {position : Nat} {character : Char}
    (found : window.peek position = some character) :
    ∃ rest, character :: rest <:+ window.text ∧ position = window.place (character :: rest) := by
  have inside := lt_length_of_peek found
  have place : window.place (window.text.drop position) = position := by
    rw [Window.place, List.length_drop, length_text]
    omega
  have left : window.text.drop position <:+ window.text := List.drop_suffix _ _
  have head := peek_place left
  rw [place, found] at head
  rcases List.head?_eq_some_iff.1 head.symm with ⟨rest, shape⟩
  exact ⟨rest, shape ▸ left, (shape ▸ place).symm⟩

/-- Between the places of two suffixes stands what was read when the second is left. -/
theorem slice_place {here after : Text} (left : here <:+ window.text) (suffix : after <:+ here) :
    window.slice (window.place here) (window.place after) = Text.before here after := by
  rcases left with ⟨front, whole⟩
  rcases suffix with ⟨middle, rfl⟩
  have start := length_of_append whole
  have stop : (front ++ middle).length = window.place after :=
    length_of_append (by rw [List.append_assoc, whole])
  rw [slice, take_place, ← start, ← stop, Text.before_left, ← whole, ← List.append_assoc,
    List.take_left, List.drop_left]

/-! ## White space and names -/

variable (window)

/-- Where the white space at a position ends. -/
def skipSpace (position : Nat) : Nat :=
  match found : window.peek position with
  | none => position
  | some character =>
    have := lt_length_of_peek found
    if isSpace character then skipSpace (position + 1) else position
termination_by window.length - position

/-- Whether a name starts at a position; a backslash directly in front of the end starts none. -/
def startsName (position : Nat) : Bool :=
  match window.peek position with
  | none => false
  | some character =>
    isNameCharacter character || (character = '\\' && (window.peek (position + 1)).isSome)

/-- Where the name at a position ends. -/
def nameEnd (position : Nat) : Nat :=
  match found : window.peek position with
  | none => position
  | some character =>
    have := lt_length_of_peek found
    if character = '\\' ∧ position + 1 < window.length then nameEnd (position + 2)
    else if isNameCharacter character then nameEnd (position + 1)
    else position
termination_by window.length - position

theorem skipSpace_eq (position : Nat) :
    window.skipSpace position =
      match window.peek position with
      | none => position
      | some character =>
        if isSpace character then window.skipSpace (position + 1) else position := by
  rw [skipSpace]
  split <;> simp_all

theorem nameEnd_eq (position : Nat) :
    window.nameEnd position =
      match window.peek position with
      | none => position
      | some character =>
        if character = '\\' ∧ position + 1 < window.length then window.nameEnd (position + 2)
        else if isNameCharacter character then window.nameEnd (position + 1)
        else position := by
  rw [nameEnd]
  split <;> simp_all

variable {window}

theorem skipSpace_place {here : Text} (left : here <:+ window.text) :
    window.skipSpace (window.place here) = window.place (Selector.skipSpace here) := by
  induction here with
  | nil => rw [skipSpace_eq, peek_place left]; rfl
  | cons character rest hypothesis =>
    rw [skipSpace_eq, peek_place left, place_cons left, Selector.skipSpace, List.dropWhile_cons]
    simp only [List.head?_cons]
    split
    · exact hypothesis (suffix_tail left)
    · rfl

theorem startsName_place {here : Text} (left : here <:+ window.text) :
    window.startsName (window.place here) = Selector.startsName here := by
  rw [startsName, peek_place left]
  fun_cases Selector.startsName here with
  | case1 escaped more => simp [place_cons left, peek_place (suffix_tail left)]
  | case2 character rest notEscape =>
    rw [List.head?_cons, place_cons left, peek_place (suffix_tail left)]
    by_cases escape : character = '\\'
    · cases rest with
      | nil => simp
      | cons escaped more => exact absurd rfl (notEscape escaped more escape)
    · simp [escape]
  | case3 => rfl

theorem nameEnd_place {here : Text} (left : here <:+ window.text) :
    window.nameEnd (window.place here) = window.place (splitName here).2 := by
  fun_induction splitName here with
  | case1 escaped rest hypothesis =>
    have behind := suffix_tail left
    have inside := lt_length_of_peek (peek_place behind)
    rw [nameEnd_eq, peek_place left, ← Nat.add_assoc _ 1 1, place_cons left]
    simp only [List.head?_cons, inside, and_self, if_true, place_cons behind]
    exact hypothesis (suffix_tail behind)
  | case2 character rest notEscape name hypothesis =>
    have plain : character ≠ '\\' := by
      rintro rfl
      exact absurd name (by decide)
    rw [nameEnd_eq, peek_place left, place_cons left]
    simp only [List.head?_cons, plain, false_and, if_false, name, if_true]
    exact hypothesis (suffix_tail left)
  | case3 character rest notEscape stop =>
    have noEscape : ¬ (character = '\\' ∧ window.place rest < window.length) := by
      rintro ⟨escape, inside⟩
      cases rest with
      | nil => simp at inside
      | cons escaped more => exact notEscape escaped more escape rfl
    rw [nameEnd_eq, peek_place left, place_cons left]
    simp only [List.head?_cons, if_neg noEscape, if_neg stop]
  | case4 => rw [nameEnd_eq, peek_place left]; rfl

/-! ## Strings, arguments and values -/

variable (window)

/-- Where the string ends that a quote at `start` opens, if it is read on from a position. -/
def stringEnd (quote : Char) (start position : Nat) : Except Error Nat :=
  match found : window.peek position with
  | none => .error (window.error .unterminatedString start)
  | some character =>
    have := lt_length_of_peek found
    if character = '\\' then stringEnd quote start (position + 2)
    else if character = quote then .ok (position + 1)
    else stringEnd quote start (position + 1)
termination_by window.length - position

theorem stringEnd_eq (quote : Char) (start position : Nat) :
    window.stringEnd quote start position =
      match window.peek position with
      | none => .error (window.error .unterminatedString start)
      | some character =>
        if character = '\\' then window.stringEnd quote start (position + 2)
        else if character = quote then .ok (position + 1)
        else window.stringEnd quote start (position + 1) := by
  rw [stringEnd]
  split <;> simp_all

variable {window} in
theorem lt_of_stringEnd {quote : Char} {start position stop : Nat}
    (closed : window.stringEnd quote start position = .ok stop) : position < stop := by
  fun_induction window.stringEnd quote start position with
  | case1 => contradiction
  | case2 position found _ hypothesis => exact Nat.lt_of_add_right_lt (hypothesis closed)
  | case3 position found _ _ =>
    cases closed
    exact Nat.lt_succ_self position
  | case4 position character found _ _ _ hypothesis =>
    exact Nat.lt_of_add_right_lt (hypothesis closed)

/--
Where the parenthesis stands that closes an argument, read on from a position.  The depth is the
number of parentheses that are open there, the one at `opening` included.
-/
def argumentEnd (owner : Text) (opening depth position : Nat) : Except Error Nat :=
  match found : window.peek position with
  | none => .error (window.error (.unclosedParenthesis owner) opening)
  | some character =>
    have := lt_length_of_peek found
    if Text.isQuote character then
      match closed : window.stringEnd character position (position + 1) with
      | .error error => .error error
      | .ok after =>
        have := lt_of_stringEnd closed
        argumentEnd owner opening depth after
    else if character = '(' then argumentEnd owner opening (depth + 1) (position + 1)
    else if character = ')' then
      if depth = 1 then .ok position else argumentEnd owner opening (depth - 1) (position + 1)
    else argumentEnd owner opening depth (position + 1)
termination_by window.length - position

theorem argumentEnd_eq (owner : Text) (opening depth position : Nat) :
    window.argumentEnd owner opening depth position =
      match window.peek position with
      | none => .error (window.error (.unclosedParenthesis owner) opening)
      | some character =>
        if Text.isQuote character then
          match window.stringEnd character position (position + 1) with
          | .error error => .error error
          | .ok after => window.argumentEnd owner opening depth after
        else if character = '(' then window.argumentEnd owner opening (depth + 1) (position + 1)
        else if character = ')' then
          if depth = 1 then .ok position
          else window.argumentEnd owner opening (depth - 1) (position + 1)
        else window.argumentEnd owner opening depth (position + 1) := by
  rw [argumentEnd]
  split
  · simp_all
  · rename_i character found
    simp only [found]
    split
    · split <;> simp_all
    · rfl

/-- Where the value at a position ends: at a bracket outside its strings, or at the end. -/
def valueEnd (position : Nat) : Except Error Nat :=
  match found : window.peek position with
  | none => .ok position
  | some character =>
    have := lt_length_of_peek found
    if character = ']' then .ok position
    else if Text.isQuote character then
      match closed : window.stringEnd character position (position + 1) with
      | .error error => .error error
      | .ok after =>
        have := lt_of_stringEnd closed
        valueEnd after
    else valueEnd (position + 1)
termination_by window.length - position

theorem valueEnd_eq (position : Nat) :
    window.valueEnd position =
      match window.peek position with
      | none => .ok position
      | some character =>
        if character = ']' then .ok position
        else if Text.isQuote character then
          match window.stringEnd character position (position + 1) with
          | .error error => .error error
          | .ok after => window.valueEnd after
        else window.valueEnd (position + 1) := by
  rw [valueEnd]
  split
  · simp_all
  · rename_i character found
    simp only [found]
    split
    · rfl
    · split
      · split <;> simp_all
      · rfl

/-- The end of a string that was opened at `start`, from what was read of it. -/
def closedString (start : Nat) : Option (Text × Text) → Except Error Nat
  | none => .error (window.error .unterminatedString start)
  | some (_, after) => .ok (window.place after)

/-- The parenthesis that closes an argument, from what was read of it. -/
def closedArgument (owner : Text) (opening : Nat) :
    Except OpenEnd (Text × Text) → Except Error Nat
  | .error (.string here) => .error (window.error .unterminatedString (window.place here))
  | .error .parenthesis => .error (window.error (.unclosedParenthesis owner) opening)
  | .ok (_, after) => .ok (window.place (')' :: after))

/-- The end of a value, from what was read of it. -/
def closedValue : Except OpenEnd (Text × Text) → Except Error Nat
  | .error (.string here) => .error (window.error .unterminatedString (window.place here))
  | .error .parenthesis => .ok window.length
  | .ok (_, atBracket) => .ok (window.place atBracket)

variable {window}

@[simp]
theorem closedString_map (start : Nat) (front : Text) (reading : Option (Text × Text)) :
    window.closedString start (reading.map (prepend front)) =
      window.closedString start reading := by
  cases reading <;> rfl

@[simp]
theorem closedArgument_map (owner : Text) (opening : Nat) (front : Text)
    (reading : Except OpenEnd (Text × Text)) :
    window.closedArgument owner opening (reading.map (prepend front)) =
      window.closedArgument owner opening reading := by
  rcases reading with (_ | _) | _ <;> rfl

@[simp]
theorem closedValue_map (front : Text) (reading : Except OpenEnd (Text × Text)) :
    window.closedValue (reading.map (prepend front)) = window.closedValue reading := by
  rcases reading with (_ | _) | _ <;> rfl

theorem stringEnd_place (quote : Char) (start : Nat) {here : Text} (left : here <:+ window.text) :
    window.stringEnd quote start (window.place here) =
      window.closedString start (closeString? quote here) := by
  have plain {character : Char} {rest : Text}
      (notEscape : ∀ escaped more, character = '\\' → rest = escaped :: more → False)
      (notLast : character = '\\' → rest = [] → False) : character ≠ '\\' := by
    intro escape
    cases rest with
    | nil => exact notLast escape rfl
    | cons escaped more => exact notEscape escaped more escape rfl
  fun_induction closeString? quote here with
  | case1 escaped rest hypothesis =>
    have behind := suffix_tail left
    rw [stringEnd_eq, peek_place left, ← Nat.add_assoc _ 1 1, place_cons left, place_cons behind]
    simp only [List.head?_cons, if_true, hypothesis (suffix_tail behind)]
    exact (closedString_map start ['\\', escaped] _).symm
  | case2 =>
    -- The step over the escaped character leads beyond the end, where the string is open.
    have beyond : window.peek (window.length + 1) = none := if_neg (by simp)
    rw [stringEnd_eq, peek_place left, ← Nat.add_assoc _ 1 1, place_cons left, place_nil]
    simp only [List.head?_cons, if_true]
    rw [stringEnd_eq, beyond]
    rfl
  | case3 rest notEscape notLast =>
    rw [stringEnd_eq, peek_place left, place_cons left]
    simp only [List.head?_cons, plain notEscape notLast, if_false, if_true]
    rfl
  | case4 character rest notEscape notLast notQuote hypothesis =>
    rw [stringEnd_eq, peek_place left, place_cons left]
    simp only [List.head?_cons, plain notEscape notLast, notQuote, if_false,
      hypothesis (suffix_tail left)]
    exact (closedString_map start [character] _).symm
  | case5 => rw [stringEnd_eq, peek_place left]; rfl

/-- A string that is read off the front leaves a suffix. -/
theorem suffix_of_closeString? {quote : Char} {here inside after : Text}
    (left : here <:+ window.text) (closed : closeString? quote here = some (inside, after)) :
    after <:+ window.text :=
  List.IsSuffix.trans ⟨inside, closeString?_append closed⟩ left

theorem argumentEnd_place (owner : Text) (opening depth : Nat) {here : Text}
    (left : here <:+ window.text) :
    window.argumentEnd owner opening (depth + 1) (window.place here) =
      window.closedArgument owner opening (closeArgument depth here) := by
  fun_induction closeArgument depth here with
  | case1 depth => rw [argumentEnd_eq, peek_place left]; rfl
  | case2 depth character rest isQuote unclosed =>
    rw [argumentEnd_eq, peek_place left, place_cons left]
    simp only [List.head?_cons, isQuote, if_true, stringEnd_place _ _ (suffix_tail left), unclosed]
    rfl
  | case3 depth character rest isQuote inside after closed shorter hypothesis =>
    rw [argumentEnd_eq, peek_place left, place_cons left]
    simp only [List.head?_cons, isQuote, if_true, stringEnd_place _ _ (suffix_tail left), closed,
      closedArgument_map]
    exact hypothesis (suffix_of_closeString? (suffix_tail left) closed)
  | case4 rest notQuote =>
    rw [argumentEnd_eq, peek_place left]
    simp [notQuote, closedArgument]
  | case5 rest outer notQuote hypothesis =>
    rw [argumentEnd_eq, peek_place left, place_cons left]
    simpa [notQuote] using hypothesis (suffix_tail left)
  | case6 depth rest notQuote _ hypothesis =>
    rw [argumentEnd_eq, peek_place left, place_cons left]
    simpa [notQuote] using hypothesis (suffix_tail left)
  | case7 depth character rest notQuote notClosing notOpening hypothesis =>
    rw [argumentEnd_eq, peek_place left, place_cons left]
    simpa [notQuote, notClosing, notOpening] using hypothesis (suffix_tail left)

theorem valueEnd_place {here : Text} (left : here <:+ window.text) :
    window.valueEnd (window.place here) = window.closedValue (splitValue here) := by
  fun_induction splitValue here with
  | case1 => rw [valueEnd_eq, peek_place left]; rfl
  | case2 rest =>
    rw [valueEnd_eq, peek_place left]
    rfl
  | case3 character rest notBracket isQuote unclosed =>
    rw [valueEnd_eq, peek_place left, place_cons left]
    simp only [List.head?_cons, notBracket, isQuote, if_true, if_false,
      stringEnd_place _ _ (suffix_tail left), unclosed]
    rfl
  | case4 character rest notBracket isQuote inside after closed shorter hypothesis =>
    rw [valueEnd_eq, peek_place left, place_cons left]
    simp only [List.head?_cons, notBracket, isQuote, if_true, if_false,
      stringEnd_place _ _ (suffix_tail left), closed, closedValue_map]
    exact hypothesis (suffix_of_closeString? (suffix_tail left) closed)
  | case5 character rest notBracket notQuote hypothesis =>
    rw [valueEnd_eq, peek_place left, place_cons left]
    simpa [notBracket, notQuote] using hypothesis (suffix_tail left)

end Window

end CssAuthoring.Selector
