import CssAuthoring.Proofs.Component.Name

/-!
# Written strings and addresses

What is written between the delimiters of a string or an address is read as its value, up to the
closing delimiter.  For a string this holds whatever its value is; an address must not hold control
characters, which are written as they are but break an address when they are read.
-/

namespace CssAuthoring.Component

/-! ## Escapes -/

theorem readEscape_digit {digit : Char} (isDigit : Text.isHexDigit digit = true) (rest : Text) :
    readEscape (digit :: ' ' :: rest) = (ofCode (Text.ofDigits 16 [digit]), rest) := by
  have found : escapeDigits ([digit] ++ ' ' :: rest) = [digit] :=
    escapeDigits_append (by simp) (by simpa using isDigit) ((Text.stops_cons _ _ _).2 rfl)
  rw [List.singleton_append] at found
  rw [readEscape_code (by rw [found]; simp), found]
  rfl

theorem readEscape_literal {character : Char} (noDigit : Text.isHexDigit character = false)
    (rest : Text) : readEscape (character :: rest) = (character, rest) :=
  readEscape_plain (by simp [escapeDigits, noDigit])

/-! ## Strings -/

theorem readString_writeStringCharacter (character : Char) (rest : Text) :
    readString '"' (writeStringCharacter character ++ rest) =
      (character :: (readString '"' rest).1, (readString '"' rest).2) := by
  have code {digit character : Char} (isDigit : Text.isHexDigit digit = true)
      (value : ofCode (Text.ofDigits 16 [digit]) = character) :
      readString '"' ('\\' :: digit :: ' ' :: rest) =
        (character :: (readString '"' rest).1, (readString '"' rest).2) := by
    have notBreak : digit ≠ '\n' := by
      rintro rfl
      cases isDigit
    rw [readString_escape (by decide) notBreak, readEscape_digit isDigit, value]
  unfold writeStringCharacter
  fun_cases writeBreak? character with
  | case1 => exact code rfl rfl
  | case2 => exact code rfl rfl
  | case3 => exact code rfl rfl
  | case4 character notFeed notReturn notForm =>
      rw [Option.getD_none]
      split
      · rename_i escaped
        simp only [Bool.or_eq_true, decide_eq_true_eq] at escaped
        have noDigit : Text.isHexDigit character = false := by
          rcases escaped with rfl | rfl <;> rfl
        rw [List.cons_append, List.singleton_append, readString_escape (by decide) notFeed,
          readEscape_literal noDigit]
      · rename_i plain
        simp only [Bool.or_eq_true, decide_eq_true_eq, not_or] at plain
        exact readString_plain plain.1 notFeed plain.2 rest

/-- What is written in a string is read as its value. -/
theorem readString_written (value rest : Text) :
    readString '"' (value.flatMap writeStringCharacter ++ '"' :: rest) =
      (value, .closed, rest) := by
  induction value with
  | nil => exact readString_quote '"' rest
  | cons character more hypothesis =>
      rw [List.flatMap_cons, List.append_assoc, readString_writeStringCharacter, hypothesis]

theorem isUniform_of_not_break {character : Char} (notReturn : character ≠ '\r')
    (notForm : character ≠ '\x0c') (notNull : character ≠ '\x00') :
    IsUniform [character] ∧ IsUniform ['\\', character] := by
  have same := uniformCharacter_eq notReturn notForm notNull
  exact ⟨isUniform_nil.cons same, (isUniform_nil.cons same).cons rfl⟩

theorem isUniform_writeStringCharacter {character : Char} (notNull : character ≠ '\x00') :
    IsUniform (writeStringCharacter character) := by
  unfold writeStringCharacter
  fun_cases writeBreak? character with
  | case1 => decide
  | case2 => decide
  | case3 => decide
  | case4 character notFeed notReturn notForm =>
      have same := isUniform_of_not_break notReturn notForm notNull
      rw [Option.getD_none]
      split
      · exact same.2
      · exact same.1

theorem isUniform_flatMap {write : Char → Text} {value : Text} (noNull : '\x00' ∉ value)
    (isUniform : ∀ character, character ≠ '\x00' → IsUniform (write character)) :
    IsUniform (value.flatMap write) := by
  intro character member
  rcases List.mem_flatMap.1 member with ⟨written, inValue, inWritten⟩
  apply isUniform written _ character inWritten
  rintro rfl
  exact noNull inValue

/-! ## Addresses -/

/-- Whether the written form of a character in an address is read as that character. -/
def keepsAddress (character : Char) : Bool :=
  !breaksAddress character || Text.isQuote character || character = '('

theorem readAddress_writeAddressCharacter {character : Char} (keeps : keepsAddress character = true)
    (rest : Text) :
    readAddress (writeAddressCharacter character ++ rest) =
      (character :: (readAddress rest).1, (readAddress rest).2) := by
  have code {digit character : Char} (isDigit : Text.isHexDigit digit = true)
      (value : ofCode (Text.ofDigits 16 [digit]) = character) :
      readAddress ('\\' :: digit :: ' ' :: rest) =
        (character :: (readAddress rest).1, (readAddress rest).2) := by
    have notBreak : digit ≠ '\n' := by
      rintro rfl
      cases isDigit
    rw [readAddress_escape (by simpa [escapes] using notBreak), readEscape_digit isDigit, value]
  unfold writeAddressCharacter
  fun_cases writeBreak? character with
  | case1 => exact code rfl rfl
  | case2 => exact code rfl rfl
  | case3 => exact code rfl rfl
  | case4 character notFeed notReturn notForm =>
      rw [Option.getD_none]
      split
      · rename_i isTab
        exact code rfl isTab.symm
      rename_i notTab
      split
      · rename_i escaped
        simp only [Bool.or_eq_true, decide_eq_true_eq] at escaped
        have noDigit : Text.isHexDigit character = false := by
          rcases escaped with ((((rfl | rfl) | rfl) | rfl) | rfl) | rfl <;> rfl
        rw [List.cons_append, List.singleton_append,
          readAddress_escape (by simpa [escapes] using notFeed), readEscape_literal noDigit]
      · rename_i plain
        simp only [Bool.or_eq_true, decide_eq_true_eq, not_or] at plain
        rcases plain with
          ⟨⟨⟨⟨⟨notSingle, notDouble⟩, notEscape⟩, notSpace⟩, notOpening⟩, notClosing⟩
        apply readAddress_plain notClosing
        · simpa [isSpace, notSpace, notTab] using notFeed
        · simp [notEscape]
        · simpa [keepsAddress, Text.isQuote, notSingle, notDouble, notOpening] using keeps

theorem isUniform_writeAddressCharacter {character : Char} (notNull : character ≠ '\x00') :
    IsUniform (writeAddressCharacter character) := by
  unfold writeAddressCharacter
  fun_cases writeBreak? character with
  | case1 => decide
  | case2 => decide
  | case3 => decide
  | case4 character notFeed notReturn notForm =>
      have same := isUniform_of_not_break notReturn notForm notNull
      rw [Option.getD_none]
      split
      · decide
      · split
        · exact same.2
        · exact same.1

/-- What is written for an address begins with neither white space nor a quote. -/
theorem stops_writeAddressCharacter (character : Char) (rest : Text) :
    ∃ first more, writeAddressCharacter character ++ rest = first :: more ∧
      isSpace first = false ∧ Text.isQuote first = false := by
  unfold writeAddressCharacter
  fun_cases writeBreak? character with
  | case1 => exact ⟨_, _, rfl, rfl, rfl⟩
  | case2 => exact ⟨_, _, rfl, rfl, rfl⟩
  | case3 => exact ⟨_, _, rfl, rfl, rfl⟩
  | case4 character notFeed notReturn notForm =>
      rw [Option.getD_none]
      split
      · exact ⟨_, _, rfl, rfl, rfl⟩
      rename_i notTab
      split
      · exact ⟨_, _, rfl, rfl, rfl⟩
      · rename_i plain
        simp only [Bool.or_eq_true, decide_eq_true_eq, not_or] at plain
        rcases plain with ⟨⟨⟨⟨⟨notSingle, notDouble⟩, _⟩, notSpace⟩, _⟩, _⟩
        refine ⟨_, _, rfl, ?_, ?_⟩
        · simpa [isSpace, notSpace, notTab] using notFeed
        · simp [Text.isQuote, notSingle, notDouble]

theorem stops_address (value rest : Text) :
    ∃ first more, value.flatMap writeAddressCharacter ++ ')' :: rest = first :: more ∧
      isSpace first = false ∧ Text.isQuote first = false := by
  cases value with
  | nil => exact ⟨_, _, rfl, rfl, rfl⟩
  | cons character more =>
      rw [List.flatMap_cons, List.append_assoc]
      exact stops_writeAddressCharacter character _

/-- What is written in an address is read as its value. -/
theorem readAddress_written {value : Text} (keeps : value.all keepsAddress = true) (rest : Text) :
    readAddress (value.flatMap writeAddressCharacter ++ ')' :: rest) = (value, .closed, rest) := by
  induction value with
  | nil => exact readAddress_closed rest
  | cons character more hypothesis =>
      rw [List.all_cons, Bool.and_eq_true] at keeps
      rw [List.flatMap_cons, List.append_assoc, readAddress_writeAddressCharacter keeps.1,
        hypothesis keeps.2]

end CssAuthoring.Component
