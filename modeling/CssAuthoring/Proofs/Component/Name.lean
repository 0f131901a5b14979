import Mathlib.Algebra.Group.Nat.Defs
import CssAuthoring.Proofs.Component.Append
import CssAuthoring.Proofs.Component.Uniform

/-!
# Written names

A name is written with backslashes where reading needs them, and with hexadecimal codes for line
breaks and for a digit at its start.  Reading the written form gives the name again and goes on with
whatever follows it.
-/

namespace CssAuthoring.Component

/-! ## Hexadecimal digits -/

/-- The upper case of a hexadecimal digit is one with the same value. -/
theorem hexDigit_toUpper {digit : Nat} (bound : digit < 16) :
    Text.isHexDigit digit.digitChar.toUpper = true ∧
      Text.hexValue digit.digitChar.toUpper = digit := by
  have all : ∀ digit : Fin 16, Text.isHexDigit (Nat.digitChar digit).toUpper = true ∧
      Text.hexValue (Nat.digitChar digit).toUpper = digit := by
    decide +kernel
  exact all ⟨digit, bound⟩

theorem hexadecimalUpper_eq (number : Nat) :
    hexadecimalUpper number = (Nat.toDigits 16 number).map Char.toUpper := by
  have filled : 1 - (Nat.toDigits 16 number).length = 0 :=
    Nat.sub_eq_zero_of_le Nat.length_toDigits_pos
  rw [hexadecimalUpper, Text.hexadecimal, filled]
  rfl

theorem hexadecimalUpper_of_lt {number : Nat} (bound : number < 16) :
    hexadecimalUpper number = [number.digitChar.toUpper] := by
  rw [hexadecimalUpper_eq, Nat.toDigits_of_lt_base bound]
  rfl

theorem hexadecimalUpper_of_le {number : Nat} (bound : 16 ≤ number) :
    hexadecimalUpper number =
      hexadecimalUpper (number / 16) ++ [(number % 16).digitChar.toUpper] := by
  rw [hexadecimalUpper_eq, hexadecimalUpper_eq, Nat.toDigits_of_base_le (by decide) bound,
    List.map_append]
  rfl

theorem hexadecimalUpper_digits (number : Nat) :
    ∀ digit ∈ hexadecimalUpper number, Text.isHexDigit digit = true := by
  induction number using Nat.strongRecOn with
  | ind number hypothesis =>
      by_cases bound : number < 16
      · rw [hexadecimalUpper_of_lt bound]
        simpa using (hexDigit_toUpper bound).1
      · rw [hexadecimalUpper_of_le (Nat.le_of_not_lt bound)]
        intro digit member
        rcases List.mem_append.1 member with front | last
        · exact hypothesis (number / 16) (by omega) digit front
        · rw [List.mem_singleton.1 last]
          exact (hexDigit_toUpper (Nat.mod_lt _ (by decide))).1

/-- The digits of a number stand for it. -/
theorem ofDigits_hexadecimalUpper (number : Nat) :
    Text.ofDigits 16 (hexadecimalUpper number) = number := by
  induction number using Nat.strongRecOn with
  | ind number hypothesis =>
      by_cases bound : number < 16
      · rw [hexadecimalUpper_of_lt bound]
        simp [Text.ofDigits, (hexDigit_toUpper bound).2]
      · have front := hypothesis (number / 16) (by omega)
        have last := (hexDigit_toUpper (Nat.mod_lt number (by decide : 16 > 0))).2
        rw [Text.ofDigits] at front
        rw [hexadecimalUpper_of_le (Nat.le_of_not_lt bound), Text.ofDigits, List.foldl_append,
          front]
        simp only [List.foldl_cons, List.foldl_nil, last]
        omega

theorem length_hexadecimalUpper_pos (number : Nat) : 0 < (hexadecimalUpper number).length := by
  rw [hexadecimalUpper_eq, List.length_map]
  exact Nat.length_toDigits_pos

theorem length_hexadecimalUpper_le {number : Nat} (bound : number < 16 ^ 6) :
    (hexadecimalUpper number).length ≤ 6 := by
  rw [hexadecimalUpper_eq, List.length_map]
  exact (Nat.length_toDigits_le_iff (by decide) (by decide)).2 bound

/-! ## Escapes -/

theorem isNameCharacter_of_isHexDigit {character : Char}
    (digit : Text.isHexDigit character = true) : isNameCharacter character = true := by
  simp only [Text.isHexDigit, Bool.or_eq_true, Bool.and_eq_true, decide_eq_true_eq] at digit
  simp only [isNameCharacter, isNameStart, Bool.or_eq_true, Bool.and_eq_true, decide_eq_true_eq]
  rcases digit with (decimal | ⟨least, greatest⟩) | ⟨least, greatest⟩
  · exact .inl (.inr decimal)
  · exact .inl (.inl (.inl (.inl (.inl ⟨least, Char.le_trans greatest (by decide)⟩))))
  · exact .inl (.inl (.inl (.inl (.inr ⟨least, Char.le_trans greatest (by decide)⟩))))

theorem not_isHexDigit_of_not_isNameCharacter {character : Char}
    (notName : isNameCharacter character = false) : Text.isHexDigit character = false := by
  rw [Bool.eq_false_iff]
  intro digit
  rw [isNameCharacter_of_isHexDigit digit] at notName
  cases notName

/-- A backslash takes a character that is no hexadecimal digit literally. -/
theorem readName_literal {character : Char} (noDigit : Text.isHexDigit character = false)
    (notBreak : character ≠ '\n') (rest : Text) :
    readName ('\\' :: character :: rest) = (character :: (readName rest).1, (readName rest).2) := by
  have plain : escapeDigits (character :: rest) = [] := by simp [escapeDigits, noDigit]
  rw [readName_escape (by simpa [escapes] using notBreak), readEscape_plain plain]

/-- A run of digits that a code may have is read up to where it stops. -/
theorem escapeDigits_append {digits rest : Text} (short : digits.length ≤ 6)
    (isDigits : ∀ digit ∈ digits, Text.isHexDigit digit = true)
    (stops : Text.Stops Text.isHexDigit rest) : escapeDigits (digits ++ rest) = digits := by
  have stopsTaken : Text.Stops Text.isHexDigit (rest.take (6 - digits.length)) := by
    cases rest with
    | nil => simpa using stops
    | cons first more =>
        cases 6 - digits.length with
        | zero => exact Text.stops_nil _
        | succ count => simpa using stops
  rw [escapeDigits, List.take_append, List.take_of_length_le short,
    Text.takeWhile_run isDigits stopsTaken]

theorem escapes_append_of_digits {digits : Text} (nonempty : digits ≠ [])
    (isDigits : ∀ digit ∈ digits, Text.isHexDigit digit = true) (rest : Text) :
    escapes (digits ++ rest) = true := by
  rcases List.exists_cons_of_ne_nil nonempty with ⟨first, more, rfl⟩
  have notBreak : first ≠ '\n' := by
    rintro rfl
    exact absurd (isDigits '\n' List.mem_cons_self) (by decide)
  simp [escapes, notBreak]

/-- A backslash takes hexadecimal digits with a space behind them as a code. -/
theorem readName_code {digits : Text} (nonempty : digits ≠ []) (short : digits.length ≤ 6)
    (isDigits : ∀ digit ∈ digits, Text.isHexDigit digit = true) (rest : Text) :
    readName ('\\' :: (digits ++ ' ' :: rest)) =
      (ofCode (Text.ofDigits 16 digits) :: (readName rest).1, (readName rest).2) := by
  have found : escapeDigits (digits ++ ' ' :: rest) = digits :=
    escapeDigits_append short isDigits ((Text.stops_cons _ _ _).2 rfl)
  rw [readName_escape (escapes_append_of_digits nonempty isDigits _),
    readEscape_code (by rwa [found]), found, List.drop_left]
  rfl

/-- What is written for a character of a name is read as that character. -/
theorem readName_writeNameCharacter (character : Char) (rest : Text) :
    readName (writeNameCharacter character ++ rest) =
      (character :: (readName rest).1, (readName rest).2) := by
  have code {digit character : Char} (isDigit : Text.isHexDigit digit = true)
      (value : ofCode (Text.ofDigits 16 [digit]) = character) :
      readName ('\\' :: digit :: ' ' :: rest) =
        (character :: (readName rest).1, (readName rest).2) := by
    rw [← value]
    exact readName_code (List.cons_ne_nil digit []) (by simp) (by simpa using isDigit) rest
  unfold writeNameCharacter
  fun_cases writeBreak? character with
  | case1 => exact code rfl rfl
  | case2 => exact code rfl rfl
  | case3 => exact code rfl rfl
  | case4 character notFeed notReturn notForm =>
      rw [Option.getD_none]
      split
      · rename_i stays
        exact readName_plain stays rest
      · rename_i notName
        have noDigit := not_isHexDigit_of_not_isNameCharacter (by simpa using notName)
        exact readName_literal noDigit notFeed rest

/-- What is written for a name is read as the name, in front of any text. -/
theorem readName_writeName (name rest : Text) :
    readName (writeName name ++ rest) = (name ++ (readName rest).1, (readName rest).2) := by
  induction name with
  | nil => rfl
  | cons character more hypothesis =>
      rw [writeName, List.flatMap_cons, List.append_assoc, readName_writeNameCharacter,
        ← writeName, hypothesis]
      rfl

theorem ofCode_toNat {character : Char} (notNull : character ≠ '\x00') :
    ofCode character.toNat = character := by
  have positive : character.toNat ≠ 0 := by
    intro zero
    apply notNull
    rw [← Char.ofNat_toNat character, zero]
  rw [ofCode, if_pos ⟨positive, character.valid⟩, Char.ofNat_toNat]

theorem readName_writeStart (name rest : Text) :
    readName (writeStart name ++ rest) = (name ++ (readName rest).1, (readName rest).2) := by
  cases name with
  | nil => rfl
  | cons character more =>
      rw [writeStart, List.append_assoc]
      split
      · rename_i isDigit
        have bound : character.toNat < 16 ^ 6 := by
          rw [Text.isDigit, Bool.and_eq_true, decide_eq_true_eq, decide_eq_true_eq] at isDigit
          exact Nat.lt_of_le_of_lt (UInt32.le_iff_toNat_le.1 isDigit.2) (by decide)
        have notNull : character ≠ '\x00' := by
          rintro rfl
          cases isDigit
        have read := readName_code
          (List.length_pos_iff.1 (length_hexadecimalUpper_pos character.toNat))
          (length_hexadecimalUpper_le bound) (hexadecimalUpper_digits character.toNat)
          (writeName more ++ rest)
        rw [ofDigits_hexadecimalUpper, ofCode_toNat notNull, readName_writeName] at read
        rw [List.append_assoc]
        exact read
      · rw [readName_writeNameCharacter, readName_writeName]
        rfl

theorem readName_writeIdentifier (name rest : Text) :
    readName (writeIdentifier name ++ rest) = (name ++ (readName rest).1, (readName rest).2) := by
  fun_cases writeIdentifier name with
  | case1 => exact readName_literal (by decide) (by decide) rest
  | case2 more =>
      rw [List.cons_append, List.cons_append, readName_plain rfl, readName_plain rfl,
        readName_writeName]
      rfl
  | case3 more =>
      rw [List.cons_append, readName_plain rfl, readName_writeStart]
      rfl
  | case4 => exact readName_writeStart name rest

/-! ## Where written names start -/

theorem isNameStart_of_isNameCharacter {character : Char}
    (isName : isNameCharacter character = true) (noDigit : Text.isDigit character = false)
    (noHyphen : character ≠ '-') : isNameStart character = true := by
  simpa [isNameCharacter, noDigit, noHyphen] using isName

/-- A character that starts a name starts an identifier, also behind a hyphen. -/
theorem startsIdentifier_of_isNameStart {character : Char} (starts : isNameStart character = true)
    (rest : Text) : startsIdentifier (character :: rest) = true ∧
      startsIdentifier ('-' :: character :: rest) = true := by
  have notEscape : character ≠ '\\' := by
    rintro rfl
    cases starts
  have notHyphen : character ≠ '-' := by
    rintro rfl
    cases starts
  constructor
  · rw [startsIdentifier]
    · exact starts
    · exact notEscape
    · exact notHyphen
  · rw [startsIdentifier]
    · simp [starts]
    · exact notEscape

theorem startsIdentifier_writeStart {name : Text} (nonempty : name ≠ [])
    (noHyphen : name.head? ≠ some '-') (rest : Text) :
    startsIdentifier (writeStart name ++ rest) = true ∧
      startsIdentifier ('-' :: (writeStart name ++ rest)) = true := by
  have escape {text : Text} (escape : escapes text = true) :
      startsIdentifier ('\\' :: text) = true ∧ startsIdentifier ('-' :: '\\' :: text) = true :=
    ⟨escape, escape⟩
  rcases List.exists_cons_of_ne_nil nonempty with ⟨character, more, rfl⟩
  have notHyphen : character ≠ '-' := by
    rintro rfl
    exact noHyphen rfl
  rw [writeStart, List.append_assoc]
  split
  · have digits := List.length_pos_iff.1 (length_hexadecimalUpper_pos character.toNat)
    rw [List.append_assoc]
    exact escape (escapes_append_of_digits digits (hexadecimalUpper_digits _) _)
  · rename_i noDigit
    unfold writeNameCharacter
    fun_cases writeBreak? character with
    | case1 => exact escape rfl
    | case2 => exact escape rfl
    | case3 => exact escape rfl
    | case4 character notFeed notReturn notForm =>
        rw [Option.getD_none]
        split
        · rename_i isName
          apply startsIdentifier_of_isNameStart
          exact isNameStart_of_isNameCharacter isName (by simpa using noDigit) notHyphen
        · exact escape (by simpa [escapes] using notFeed)

/-- The written form of an identifier starts one. -/
theorem startsIdentifier_writeIdentifier {name : Text} (nonempty : name ≠ []) (rest : Text) :
    startsIdentifier (writeIdentifier name ++ rest) = true := by
  fun_cases writeIdentifier name with
  | case1 => rfl
  | case2 more => rfl
  | case3 more notAlone notDouble =>
      have noHyphen : more.head? ≠ some '-' := by
        intro starts
        rcases List.head?_eq_some_iff.1 starts with ⟨rest, rfl⟩
        exact notDouble rest rfl
      exact (startsIdentifier_writeStart notAlone noHyphen rest).2
  | case4 name _ _ notHyphen =>
      have noHyphen : name.head? ≠ some '-' := by
        intro starts
        rcases List.head?_eq_some_iff.1 starts with ⟨rest, rfl⟩
        exact notHyphen rest rfl
      exact (startsIdentifier_writeStart nonempty noHyphen rest).1

/-- Where an identifier starts, a hash starts too. -/
theorem startsHash_of_startsIdentifier {text : Text} (starts : startsIdentifier text = true) :
    startsHash text = true := by
  fun_cases startsHash text with
  | case1 => cases starts
  | case2 rest => exact starts
  | case3 character rest notEscape =>
      by_cases isHyphen : character = '-'
      · subst isHyphen
        rfl
      · rw [startsIdentifier] at starts
        · simp [isNameCharacter, starts]
        · exact notEscape
        · exact isHyphen

/-! ## Written names are uniform -/

theorem isUniform_writeNameCharacter {character : Char} (notNull : character ≠ '\x00') :
    IsUniform (writeNameCharacter character) := by
  unfold writeNameCharacter
  fun_cases writeBreak? character with
  | case1 => decide
  | case2 => decide
  | case3 => decide
  | case4 character notFeed notReturn notForm =>
      have same := uniformCharacter_eq notReturn notForm notNull
      rw [Option.getD_none]
      split
      · simpa [IsUniform] using same
      · simp [IsUniform, same]
        rfl

theorem isUniform_writeName {name : Text} (noNull : '\x00' ∉ name) :
    IsUniform (writeName name) := by
  intro character member
  rcases List.mem_flatMap.1 member with ⟨written, inName, inWritten⟩
  apply isUniform_writeNameCharacter _ character inWritten
  rintro rfl
  exact noNull inName

theorem uniformCharacter_of_isHexDigit {digit : Char} (isDigit : Text.isHexDigit digit = true) :
    uniformCharacter digit = digit := by
  apply uniformCharacter_eq <;>
  · rintro rfl
    cases isDigit

theorem isUniform_writeStart {name : Text} (noNull : '\x00' ∉ name) :
    IsUniform (writeStart name) := by
  cases name with
  | nil => exact isUniform_writeName noNull
  | cons character more =>
      rw [List.mem_cons, not_or] at noNull
      rw [writeStart]
      apply IsUniform.append _ (isUniform_writeName noNull.2)
      split
      · have digits : IsUniform (hexadecimalUpper character.toNat) := fun digit member =>
          uniformCharacter_of_isHexDigit (hexadecimalUpper_digits _ digit member)
        exact (digits.cons rfl).append (isUniform_nil.cons rfl)
      · exact isUniform_writeNameCharacter (Ne.symm noNull.1)

theorem isUniform_writeIdentifier {name : Text} (noNull : '\x00' ∉ name) :
    IsUniform (writeIdentifier name) := by
  fun_cases writeIdentifier name with
  | case1 => decide
  | case2 more =>
      exact ((isUniform_writeName (by simp_all)).cons rfl).cons rfl
  | case3 more => exact (isUniform_writeStart (by simp_all)).cons rfl
  | case4 => exact isUniform_writeStart noNull

end CssAuthoring.Component
