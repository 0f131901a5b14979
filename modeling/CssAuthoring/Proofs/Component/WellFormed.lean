import Mathlib.Algebra.Group.Nat.Defs
import CssAuthoring.Proofs.Component.Delimited
import CssAuthoring.Proofs.Component.Number

/-!
# Well-formed lexemes

What is read from a uniform text is well formed: names are filled and hold no null character,
numbers have their digits, and a literal is one of those that the reader makes.  Putting lexemes
together keeps this, so the values of every text are well formed at any depth.
-/

namespace CssAuthoring.Component

open CssAuthoring.Numeric

/-- A name that can be read. -/
structure IsName (name : Text) : Prop where
  filled : name ≠ []
  noNull : '\x00' ∉ name

/-- A character that begins no space, string, block, number or identifier. -/
structure StandsAlone (character : Char) : Prop where
  noSpace : isSpace character = false
  noQuote : Text.isQuote character = false
  noOpening : Bracket.ofOpening? character = none
  noClosing : Bracket.ofClosing? character = none
  noDigit : Text.isDigit character = false
  noName : isNameStart character = false
  isUniform : uniformCharacter character = character

/-- The literals. -/
inductive IsLiteral : Text → Prop where
  | sign {character : Char} (alone : StandsAlone character) : IsLiteral [character]
  | equals {character : Char} (joins : joinsEquals character = true) : IsLiteral [character, '=']
  | column : IsLiteral ['|', '|']
  | commentOpening : IsLiteral ['<', '!', '-', '-']
  | commentClosing : IsLiteral ['-', '-', '>']

/-- The greatest code that a range can name is below this. -/
def rangeLimit : Nat := 16 ^ 6

/-- What holds of the atoms that are read. -/
def Atom.WellFormed : Atom → Prop
  | whitespace run => run ≠ [] ∧ ∀ character ∈ run, isSpace character = true
  | unicodeRange first last => first < rangeLimit ∧ last < rangeLimit
  | literal symbol => IsLiteral symbol
  | identifier name => IsName name
  | atKeyword name => IsName name
  | hash name isIdentifier =>
    IsName name ∧ (isIdentifier = false → startsIdentifier (writeName name) = false)
  | number written => IsNumber written
  | percentage written => IsNumber written
  | dimension written unit => IsNumber written ∧ IsName unit
  | string value _ => '\x00' ∉ value
  | address value _ => '\x00' ∉ value
  | comment _ => True
  | flaw _ => True

/-- What holds of the lexemes that are read. -/
def Lexeme.WellFormed : Lexeme → Prop
  | atom leaf => leaf.WellFormed
  | enter (.function name) => IsName name
  | enter (.block _) => True
  | leave _ => True

/-! ## Names -/

theorem ofCode_ne_null (code : Nat) : ofCode code ≠ '\x00' := by
  unfold ofCode
  split
  · rename_i valid
    intro isNull
    have same : (Char.ofNat code).toNat = code := by
      rw [Char.ofNat, dif_pos valid.2]
      rfl
    exact valid.1 (same ▸ congrArg Char.toNat isNull)
  · decide

theorem readEscape_ne_null {text : Text} (noNull : '\x00' ∉ text) :
    (readEscape text).1 ≠ '\x00' := by
  by_cases digits : escapeDigits text = []
  · cases text with
    | nil => decide
    | cons character rest =>
        rw [readEscape_plain digits]
        rintro rfl
        exact noNull List.mem_cons_self
  · rw [readEscape_code digits]
    exact ofCode_ne_null _

theorem not_mem_of_suffix {character : Char} {text rest : Text} (outside : character ∉ text)
    (suffix : rest <:+ text) : character ∉ rest :=
  fun member => outside (suffix.subset member)

theorem readName_noNull {text : Text} (noNull : '\x00' ∉ text) : '\x00' ∉ (readName text).1 := by
  fun_induction readName text with
  | case1 => simp
  | case2 character rest stays hypothesis =>
      rw [List.mem_cons, not_or] at noNull ⊢
      exact ⟨noNull.1, hypothesis noNull.2⟩
  | case3 character rest stays escape shorter hypothesis =>
      have noNullAgain : '\x00' ∉ rest := not_mem_of_suffix noNull (List.suffix_cons _ _)
      rw [List.mem_cons, not_or]
      exact ⟨(readEscape_ne_null noNullAgain).symm,
        hypothesis (not_mem_of_suffix noNullAgain (readEscape_suffix rest))⟩
  | case4 => simp

theorem readName_eq_nil {text : Text} (empty : (readName text).1 = []) :
    (readName text).2 = text := by
  fun_cases readName text with
  | case1 => rfl
  | case2 character rest stays => simp [readName, stays] at empty
  | case3 character rest stays escape => simp [readName, stays, escape] at empty
  | case4 => rfl

/-- Where a name or hash starts, a name is read. -/
theorem isName_of_starts {text : Text} (noNull : '\x00' ∉ text)
    (starts : startsIdentifier text = true ∨ startsHash text = true) :
    IsName (readName text).1 := by
  constructor
  · intro empty
    cases text with
    | nil => rcases starts with starts | starts <;> cases starts
    | cons character rest =>
        have shorter := readName_shorter character rest starts
        rw [readName_eq_nil empty, List.length_cons] at shorter
        omega
  · exact readName_noNull noNull

theorem writeName_plain {character : Char} (isName : isNameCharacter character = true)
    (rest : Text) : writeName (character :: rest) = character :: writeName rest := by
  have noBreak : writeBreak? character = none := by
    fun_cases writeBreak? character with
    | case1 => cases isName
    | case2 => cases isName
    | case3 => cases isName
    | case4 => rfl
  rw [writeName, List.flatMap_cons, writeNameCharacter, noBreak, Option.getD_none, if_pos isName]
  rfl

/-- The name of a hash that starts no identifier is written so that it starts none. -/
theorem not_startsIdentifier_writeName {text : Text} (starts : startsHash text = true)
    (noIdentifier : startsIdentifier text = false) :
    startsIdentifier (writeName (readName text).1) = false := by
  fun_cases startsIdentifier text with
  | case1 => cases starts
  | case2 rest => cases noIdentifier.symm.trans starts
  | case3 =>
      rw [readName_plain rfl, readName]
      rfl
  | case4 after =>
      have noName : readName ('\\' :: after) = ([], '\\' :: after) := by
        rw [startsIdentifier] at noIdentifier
        rw [readName]
        simp [noIdentifier, isNameCharacter, isNameStart, Text.isDigit]
      rw [readName_plain rfl, noName]
      rfl
  | case5 next more notEscape =>
      rw [startsIdentifier] at noIdentifier
      · rw [Bool.or_eq_false_iff] at noIdentifier
        rw [readName_plain rfl, writeName_plain rfl]
        by_cases isName : isNameCharacter next = true
        · rw [readName_plain isName, writeName_plain isName, startsIdentifier]
          · simpa using noIdentifier
          · exact notEscape
        · have noName : readName (next :: more) = ([], next :: more) := by
            rw [readName_stops]
            · simpa using isName
            · simpa using notEscape
          rw [noName]
          rfl
      · exact notEscape
  | case6 character more notEscape notHyphen =>
      have isName : isNameCharacter character = true := by
        rw [startsHash] at starts
        · exact starts
        · exact notEscape
      rw [startsIdentifier] at noIdentifier
      · rw [readName_plain isName, writeName_plain isName, startsIdentifier]
        · exact noIdentifier
        · exact notEscape
        · exact notHyphen
      · exact notEscape
      · exact notHyphen

/-! ## Strings, addresses and ranges -/

theorem readString_noNull {quote : Char} {text : Text} (noNull : '\x00' ∉ text) :
    '\x00' ∉ (readString quote text).1 := by
  fun_induction readString quote text with
  | case1 => simp
  | case2 => simp
  | case3 => simp
  | case4 => simp
  | case5 more notQuote notBreak hypothesis =>
      exact hypothesis
        (not_mem_of_suffix noNull ((List.suffix_cons _ _).trans (List.suffix_cons _ _)))
  | case6 escaped more notQuote notBreak joined shorter left hypothesis =>
      have noNullAgain : '\x00' ∉ escaped :: more := not_mem_of_suffix noNull (List.suffix_cons _ _)
      rw [List.mem_cons, not_or]
      exact ⟨(readEscape_ne_null noNullAgain).symm,
        hypothesis (not_mem_of_suffix noNullAgain (readEscape_suffix _))⟩
  | case7 character more notQuote notBreak notEscape hypothesis =>
      rw [List.mem_cons, not_or] at noNull ⊢
      exact ⟨noNull.1, hypothesis noNull.2⟩

theorem readAddress_noNull {text : Text} (noNull : '\x00' ∉ text) :
    '\x00' ∉ (readAddress text).1 := by
  fun_induction readAddress text with
  | case1 => simp
  | case2 => simp
  | case3 => simp
  | case4 => simp
  | case5 => simp
  | case6 character rest notClosing noSpace escape shorter hypothesis =>
      have noNullAgain : '\x00' ∉ rest := not_mem_of_suffix noNull (List.suffix_cons _ _)
      rw [List.mem_cons, not_or]
      exact ⟨(readEscape_ne_null noNullAgain).symm,
        hypothesis (not_mem_of_suffix noNullAgain (readEscape_suffix rest))⟩
  | case7 => simp
  | case8 character rest notClosing noSpace noEscape noBreak hypothesis =>
      rw [List.mem_cons, not_or] at noNull ⊢
      exact ⟨noNull.1, hypothesis noNull.2⟩

theorem hexValue_lt (digit : Char) : Text.hexValue digit < 16 := by
  have below {least greatest : Char} (within : (least ≤ digit && digit ≤ greatest) = true) :
      digit.toNat ≤ greatest.toNat := by
    rw [Bool.and_eq_true, decide_eq_true_eq, decide_eq_true_eq] at within
    exact within.2
  have codes : '0'.toNat = 48 ∧ '9'.toNat = 57 ∧ 'a'.toNat = 97 ∧ 'f'.toNat = 102 ∧
      'A'.toNat = 65 ∧ 'F'.toNat = 70 := ⟨rfl, rfl, rfl, rfl, rfl, rfl⟩
  fun_cases Text.hexValue digit with
  | case1 isDigit =>
      have := below isDigit
      omega
  | case2 noDigit isLower =>
      have := below isLower
      omega
  | case3 noDigit notLower isUpper =>
      have := below isUpper
      omega
  | case4 => decide

theorem ofDigits_lt (digits : Text) : Text.ofDigits 16 digits < 16 ^ digits.length := by
  have folded (number : Nat) :
      digits.foldl (fun number digit => 16 * number + Text.hexValue digit) number <
        (number + 1) * 16 ^ digits.length := by
    induction digits generalizing number with
    | nil => simp
    | cons digit rest hypothesis =>
        have bound := hexValue_lt digit
        calc rest.foldl _ (16 * number + Text.hexValue digit)
            < (16 * number + Text.hexValue digit + 1) * 16 ^ rest.length := hypothesis _
          _ ≤ (16 * (number + 1)) * 16 ^ rest.length := Nat.mul_le_mul_right _ (by omega)
          _ = (number + 1) * 16 ^ (digit :: rest).length := by
              rw [List.length_cons, Nat.pow_succ]
              ac_rfl
  have bound := folded 0
  rwa [Nat.zero_add, Nat.one_mul] at bound

theorem ofDigits_lt_rangeLimit {digits : Text} (short : digits.length ≤ 6) :
    Text.ofDigits 16 digits < rangeLimit :=
  Nat.lt_of_lt_of_le (ofDigits_lt digits) (Nat.pow_le_pow_right (by decide) short)

theorem length_takeWhile_take_le (isKind : Char → Bool) (count : Nat) (text : Text) :
    ((text.take count).takeWhile isKind).length ≤ count :=
  Nat.le_trans (List.takeWhile_prefix _).length_le (List.length_take_le _ _)

/-! ## Readings -/

/-- A reading whose lexemes are all well formed. -/
def ReadsWellFormed (reading : Reading) : Prop :=
  ∀ lexeme ∈ reading.1, lexeme.WellFormed

theorem readsWellFormed_single {atom : Atom} {rest : Text} (wellFormed : atom.WellFormed) :
    ReadsWellFormed (single atom rest) := by
  intro lexeme member
  rw [List.mem_singleton.1 member]
  exact wellFormed

theorem readsWellFormed_unclosed {atom : Atom} {rest : Text} (wellFormed : atom.WellFormed) :
    ReadsWellFormed ([.atom atom, .atom (.flaw .unclosed)], rest) := by
  intro lexeme member
  simp only [List.mem_cons, List.not_mem_nil, or_false] at member
  rcases member with rfl | rfl
  · exact wellFormed
  · trivial

theorem lexRange_wellFormed (text : Text) : ReadsWellFormed (lexRange text) := by
  unfold lexRange
  extract_lets digits afterDigits marks afterMarks first
  have digitCount : digits.length ≤ 6 := length_takeWhile_take_le _ _ _
  have markCount : marks.length ≤ 6 - digits.length := length_takeWhile_take_le _ _ _
  have bound {filler : Char} :
      Text.ofDigits 16 (digits ++ marks.map fun _ => filler) < rangeLimit := by
    apply ofDigits_lt_rangeLimit
    rw [List.length_append, List.length_map]
    omega
  have one {last : Nat} {rest : Text} (isLast : last < rangeLimit) :
      ReadsWellFormed (single (.unicodeRange first last) rest) :=
    readsWellFormed_single ⟨bound, isLast⟩
  split
  · exact one bound
  · generalize afterMarks = behind
    split
    · dsimp only
      split
      · exact one bound
      · exact one (ofDigits_lt_rangeLimit (length_takeWhile_take_le _ _ _))
    · exact one bound

theorem lexString_wellFormed {text : Text} (noNull : '\x00' ∉ text) (quote : Char) :
    ReadsWellFormed (lexString quote text) := by
  have value : '\x00' ∉ (readString quote text).1 := readString_noNull noNull
  unfold lexString
  split
  · rename_i read
    rw [read] at value
    exact readsWellFormed_single value
  · rename_i read
    rw [read] at value
    exact readsWellFormed_unclosed value
  · exact readsWellFormed_single trivial

theorem lexAddress_wellFormed {text : Text} (noNull : '\x00' ∉ text) :
    ReadsWellFormed (lexAddress text) := by
  have value : '\x00' ∉ (readAddress (text.dropWhile isSpace)).1 :=
    readAddress_noNull (not_mem_of_suffix noNull (List.dropWhile_suffix _))
  unfold lexAddress
  split
  · rename_i read
    rw [read] at value
    exact readsWellFormed_single value
  · rename_i read
    rw [read] at value
    exact readsWellFormed_unclosed value
  · exact readsWellFormed_single trivial

theorem lexWord_wellFormed {text : Text} (noNull : '\x00' ∉ text)
    (starts : startsIdentifier text = true) : ReadsWellFormed (lexWord text) := by
  have isName := isName_of_starts noNull (.inl starts)
  have left := not_mem_of_suffix noNull (readName_suffix text)
  unfold lexWord
  dsimp only
  split
  · rename_i inner shape
    rw [shape] at left
    split
    · exact lexAddress_wellFormed (not_mem_of_suffix left (List.suffix_cons _ _))
    · intro lexeme member
      rw [List.mem_singleton.1 member]
      exact isName
  · exact readsWellFormed_single isName

theorem lexMeasure_wellFormed {written rest : Text} (isNumber : IsNumber written)
    (noNull : '\x00' ∉ rest) : ReadsWellFormed (lexMeasure written rest) := by
  unfold lexMeasure
  split
  · rename_i starts
    exact readsWellFormed_single ⟨isNumber, isName_of_starts noNull (.inl starts)⟩
  · split <;> exact readsWellFormed_single isNumber

theorem lexSign_wellFormed {character : Char} (alone : StandsAlone character) (rest : Text) :
    ReadsWellFormed (lexSign character rest) := by
  unfold lexSign
  split
  · exact readsWellFormed_single .commentOpening
  · exact readsWellFormed_single .column
  · split
    · rename_i joins
      exact readsWellFormed_single (.equals joins)
    · exact readsWellFormed_single (.sign alone)
  · exact readsWellFormed_single (.sign alone)

/-- A mark starts no number; an at sign or a hash may start a name. -/
theorem lexMark_wellFormed {character : Char} {rest : Text} (noNull : '\x00' ∉ character :: rest)
    (isUniform : uniformCharacter character = character) (noSpace : isSpace character = false)
    (noDigit : Text.isDigit character = false) (noName : isNameStart character = false) :
    ReadsWellFormed (lexMark character rest) := by
  have noNullRest := not_mem_of_suffix noNull (List.suffix_cons _ _)
  have sign (noQuote : Text.isQuote character = false)
      (noOpening : Bracket.ofOpening? character = none)
      (noClosing : Bracket.ofClosing? character = none) : StandsAlone character :=
    ⟨noSpace, noQuote, noOpening, noClosing, noDigit, noName, isUniform⟩
  unfold lexMark
  split
  · split
    · rename_i starts
      exact readsWellFormed_single (isName_of_starts noNullRest (.inl starts))
    · exact readsWellFormed_single (.sign (sign rfl rfl rfl))
  · split
    · rename_i starts
      refine readsWellFormed_single ⟨isName_of_starts noNullRest (.inr starts), ?_⟩
      exact not_startsIdentifier_writeName starts
    · exact readsWellFormed_single (.sign (sign rfl rfl rfl))
  · exact readsWellFormed_single trivial
  · split
    · exact lexString_wellFormed noNullRest _
    · rename_i noQuote
      split
      · intro lexeme member
        rw [List.mem_singleton.1 member]
        trivial
      · intro lexeme member
        rw [List.mem_singleton.1 member]
        trivial
      · rename_i noOpening noClosing
        exact lexSign_wellFormed (sign (by simpa using noQuote) noOpening noClosing) rest

theorem isNumber_of_isDigit {digit : Char} (isDigit : Text.isDigit digit = true) :
    IsNumber [digit] := by
  refine ⟨⟨[], [digit], [], []⟩, ?_, rfl⟩
  constructor
  · exact .inl rfl
  · simpa using isDigit
  · exact .inl rfl
  · exact .inl rfl
  · exact .inl (List.cons_ne_nil _ _)
  · exact fun _ _ => Nat.succ_le_succ (Nat.zero_le _)

theorem not_isDigit_of_splitNumeral {character : Char} {rest : Text}
    (noNumber : splitNumeral (character :: rest) = .ok none) : Text.isDigit character = false := by
  rw [Bool.eq_false_iff]
  intro isDigit
  rcases (isNumber_of_isDigit isDigit).read noNumber with ⟨more, left, _, found⟩
  cases found

/-- What is read from a uniform text is well formed. -/
theorem readLexeme_wellFormed {character : Char} {rest after : Text} {found : List Lexeme}
    (isUniform : IsUniform (character :: rest))
    (read : readLexeme character rest = .ok (found, after)) :
    ∀ lexeme ∈ found, lexeme.WellFormed := by
  have noNull := isUniform.noNull
  have one {reading : Reading} (wellFormed : ReadsWellFormed reading)
      (same : (Except.ok reading : Except NumeralTooLong Reading) = .ok (found, after)) :
      ∀ lexeme ∈ found, lexeme.WellFormed := by
    cases same
    exact wellFormed
  unfold readLexeme at read
  split at read
  · rename_i isWhite
    have isRun : ∀ other ∈ character :: rest.takeWhile isSpace,
        isSpace other = true := by
      intro other member
      rcases List.mem_cons.1 member with rfl | member
      · exact isWhite
      · exact Text.mem_takeWhile _ member
    have wellFormed : (Atom.whitespace (character :: rest.takeWhile isSpace)).WellFormed :=
      ⟨List.cons_ne_nil _ _, isRun⟩
    exact one (readsWellFormed_single wellFormed) read
  rename_i noSpace
  split at read
  · exact one (lexRange_wellFormed _) read
  split at read
  · have wellFormed : (Atom.literal "-->").WellFormed := .commentClosing
    exact one (readsWellFormed_single wellFormed) read
  split at read
  · rename_i starts
    exact one (lexWord_wellFormed noNull starts) read
  rename_i noWord
  have noName : isNameStart character = false := by
    rw [Bool.eq_false_iff]
    intro starts
    exact noWord (startsIdentifier_of_isNameStart starts rest).1
  cases number : splitNumeral (character :: rest) with
  | error failure =>
      rw [number] at read
      cases read
  | ok result =>
      rw [number] at read
      cases result with
      | none =>
          have noDigit := not_isDigit_of_splitNumeral number
          refine one (lexMark_wellFormed noNull ?_ ?_ noDigit noName) read
          · exact isUniform character List.mem_cons_self
          · simpa using noSpace
      | some pair =>
          have left := not_mem_of_suffix noNull (splitNumeral_suffix number)
          exact one (lexMeasure_wellFormed (isNumber_of_splitNumeral number) left) read

/-- The lexemes of a uniform text are well formed. -/
theorem lexemes_wellFormed {text : Text} {found : List Lexeme} (isUniform : IsUniform text)
    (read : lexemes text = .ok found) : ∀ lexeme ∈ found, lexeme.WellFormed := by
  fun_induction lexemes text generalizing found with
  | case1 =>
      cases read
      simp
  | case2 character rest failure failed => cases read
  | case3 character rest first after readFirst shorter hypothesis =>
      have left : IsUniform after := fun other member =>
        isUniform other ((readLexeme_suffix readFirst).subset member)
      cases more : lexemes after with
      | error failure =>
          rw [more] at read
          cases read
      | ok next =>
          rw [more] at read
          cases read
          intro lexeme member
          rcases List.mem_append.1 member with member | member
          · exact readLexeme_wellFormed isUniform readFirst lexeme member
          · exact hypothesis left more lexeme member

end CssAuthoring.Component
