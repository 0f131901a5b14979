import CssAuthoring.Proofs.Component.Outline
import CssAuthoring.Proofs.Component.WellFormed

/-!
# Written lexemes

The written form of a lexeme is read as that lexeme in front of text that does not go on with it.
What goes on with a lexeme depends on its kind: more white space, more of a name or number, or what
makes another lexeme of the two.  Some lexemes are ended by their own last character.
-/

namespace CssAuthoring.Component

open CssAuthoring.Numeric

/-- The written form of what opens a level of nesting. -/
def Opening.text : Opening → Text
  | function name => writeIdentifier name ++ ['(']
  | block bracket => [bracket.opening]

/-- The written form of a lexeme. -/
def Lexeme.text : Lexeme → Text
  | atom leaf => leaf.text
  | enter opening => opening.text
  | leave bracket => [bracket.closing]

/-- The lexemes at the start of a text, and what follows them. -/
def firstReading : Text → Except NumeralTooLong Reading
  | [] => .ok ([], [])
  | character :: rest => readLexeme character rest

/-! ## Names and marks -/

/-- A character that starts no white space, name or number is read as a mark. -/
theorem readLexeme_mark {character : Char} (noSpace : isSpace character = false)
    (noName : isNameStart character = false) (noDigit : Text.isDigit character = false)
    (noStart : character ∉ ['-', '+', '.', '\\']) (rest : Text) :
    readLexeme character rest = .ok (lexMark character rest) := by
  simp only [List.mem_cons, List.not_mem_nil, or_false, not_or] at noStart
  rcases noStart with ⟨notHyphen, notPlus, notPoint, notEscape⟩
  have noRange : startsRange (character :: rest) = false := by
    apply startsRange_of_mark <;>
    · rintro rfl
      cases noName
  have noArrow : "-->".toList.isPrefixOf (character :: rest) = false := by
    simp [List.isPrefixOf, Ne.symm notHyphen]
  have noWord : startsIdentifier (character :: rest) = false := by
    rw [startsIdentifier]
    · exact noName
    · exact notEscape
    · exact notHyphen
  have noNumber : splitNumeral (character :: rest) = .ok none := by
    apply splitNumeral_eq_none
    have unsigned : splitSign (character :: rest) = (false, character :: rest) := by
      rw [splitSign]
      · simp [notHyphen]
      · simp [notPlus]
    rw [unsigned, startsNumber]
    · exact noDigit
    · intro digit more notFraction
      exact absurd notFraction notPoint
  rw [readLexeme_numeral noSpace noRange noArrow noWord, noNumber]
  rfl

theorem firstReading_bracket (bracket : Bracket) (rest : Text) :
    firstReading (bracket.opening :: rest) = .ok ([.enter (.block bracket)], rest) ∧
      firstReading (bracket.closing :: rest) = .ok ([.leave bracket], rest) := by
  constructor <;>
  · rw [firstReading, readLexeme_mark] <;> cases bracket <;> first | rfl | decide

theorem not_startsIdentifier_append {text rest : Text} (nonempty : text ≠ [])
    (noStart : startsIdentifier text = false) (noHyphen : startsIdentifier ('-' :: rest) = false) :
    startsIdentifier (text ++ rest) = false := by
  fun_cases startsIdentifier text with
  | case1 => exact absurd rfl nonempty
  | case2 more =>
      cases more with
      | nil => cases noStart
      | cons next more => exact noStart
  | case3 => exact noHyphen
  | case4 after =>
      cases after with
      | nil => cases noStart
      | cons next more => exact noStart
  | case5 next more notEscape =>
      rw [startsIdentifier] at noStart
      · rw [List.cons_append, List.cons_append, startsIdentifier]
        · exact noStart
        · exact notEscape
      · exact notEscape
  | case6 character more notEscape notHyphen =>
      rw [startsIdentifier] at noStart
      · rw [List.cons_append, startsIdentifier]
        · exact noStart
        · exact notEscape
        · exact notHyphen
      · exact notEscape
      · exact notHyphen

/-- What a hyphen lets start an identifier could start a hash alone. -/
theorem startsHash_of_hyphen {text : Text} (starts : startsIdentifier ('-' :: text) = true) :
    startsHash text = true := by
  rcases text with _ | ⟨next, more⟩
  · cases starts
  · by_cases isEscape : next = '\\'
    · subst isEscape
      exact starts
    · rw [startsIdentifier] at starts
      · rw [startsHash]
        · simp only [Bool.or_eq_true, decide_eq_true_eq] at starts
          rcases starts with starts | rfl
          · simp [isNameCharacter, starts]
          · rfl
        · exact isEscape
      · exact isEscape

/-- Text that goes on with no name starts no identifier, also behind a hyphen. -/
theorem not_startsIdentifier_of_not_startsHash {text : Text} (noHash : startsHash text = false) :
    startsIdentifier text = false ∧ startsIdentifier ('-' :: text) = false := by
  constructor
  · rw [Bool.eq_false_iff]
    intro starts
    rw [startsHash_of_startsIdentifier starts] at noHash
    cases noHash
  · rw [Bool.eq_false_iff]
    intro starts
    rw [startsHash_of_hyphen starts] at noHash
    cases noHash

theorem readName_of_not_startsHash {text : Text} (noHash : startsHash text = false) :
    readName text = ([], text) := by
  fun_cases startsHash text with
  | case1 => rw [readName]
  | case2 rest =>
      rw [startsHash] at noHash
      rw [readName]
      simp [noHash, isNameCharacter, isNameStart, Text.isDigit]
  | case3 character rest notEscape =>
      rw [startsHash] at noHash
      · apply readName_stops
        · exact (Text.stops_cons _ _ _).2 noHash
        · exact (Text.stops_cons _ _ _).2 (by simpa using notEscape)
      · exact notEscape

theorem startsHash_writeName {name : Text} (filled : name ≠ []) (rest : Text) :
    startsHash (writeName name ++ rest) = true := by
  rcases List.exists_cons_of_ne_nil filled with ⟨character, more, rfl⟩
  rw [writeName, List.flatMap_cons, List.append_assoc]
  unfold writeNameCharacter
  fun_cases writeBreak? character with
  | case1 => rfl
  | case2 => rfl
  | case3 => rfl
  | case4 character notFeed notReturn notForm =>
      rw [Option.getD_none]
      split
      · rename_i isName
        rw [List.singleton_append, startsHash]
        · exact isName
        · rintro rfl
          cases isName
      · simpa [startsHash, escapes] using notFeed

/-- A keyword with an at sign is read in front of text that does not go on with its name. -/
theorem firstReading_atKeyword {name rest : Text} (isName : IsName name)
    (noHash : startsHash rest = false) :
    firstReading ((Atom.atKeyword name).text ++ rest) = .ok (single (.atKeyword name) rest) := by
  have starts := startsIdentifier_writeIdentifier isName.filled rest
  rw [Atom.text, List.cons_append, firstReading, readLexeme_mark rfl rfl rfl (by decide)]
  simp [lexMark, starts, readName_writeIdentifier, readName_of_not_startsHash noHash]

/-- So is a hash, and whether its name could stand alone is read with it. -/
theorem firstReading_hash {name rest : Text} {isIdentifier : Bool}
    (wellFormed : (Atom.hash name isIdentifier).WellFormed) (noHash : startsHash rest = false) :
    firstReading ((Atom.hash name isIdentifier).text ++ rest) =
      .ok (single (.hash name isIdentifier) rest) := by
  rcases wellFormed with ⟨isName, noStart⟩
  have left := readName_of_not_startsHash noHash
  rw [Atom.text, List.cons_append, firstReading, readLexeme_mark rfl rfl rfl (by decide)]
  cases isIdentifier with
  | true =>
      have starts := startsIdentifier_writeIdentifier isName.filled rest
      simp [lexMark, starts, startsHash_of_startsIdentifier starts, readName_writeIdentifier, left]
  | false =>
      have starts := startsHash_writeName isName.filled rest
      have nonempty : writeName name ≠ [] := by
        intro empty
        have again := startsHash_writeName isName.filled []
        rw [empty] at again
        cases again
      have noIdentifier := not_startsIdentifier_append nonempty (noStart rfl)
        (not_startsIdentifier_of_not_startsHash noHash).2
      simp [lexMark, starts, noIdentifier, readName_writeName, left]

/-! ## Strings and addresses -/

theorem firstReading_string (value rest : Text) :
    firstReading ((Atom.string value true).text ++ rest) =
      .ok (single (.string value true) rest) := by
  have assoc : (Atom.string value true).text ++ rest =
      '"' :: (value.flatMap writeStringCharacter ++ '"' :: rest) := by
    rw [Atom.text]
    simp [writeString]
  rw [assoc, firstReading, readLexeme_mark rfl rfl rfl (by decide)]
  simp [lexMark, Text.isQuote, lexString, readString_written]

theorem readLexeme_word {character : Char} {rest : Text}
    (starts : startsIdentifier (character :: rest) = true)
    (noRange : startsRange (character :: rest) = false)
    (noArrow : "-->".toList.isPrefixOf (character :: rest) = false) :
    readLexeme character rest = .ok (lexWord (character :: rest)) := by
  have noSpace : isSpace character = false := by
    rw [Bool.eq_false_iff]
    intro isWhite
    simp only [isSpace, Bool.or_eq_true, decide_eq_true_eq] at isWhite
    rcases isWhite with (rfl | rfl) | rfl <;> cases starts
  unfold readLexeme
  rw [noSpace, noRange, noArrow, starts]
  rfl

theorem firstReading_address {value : Text} (keeps : value.all keepsAddress = true)
    (rest : Text) :
    firstReading ((Atom.address value true).text ++ rest) =
      .ok (single (.address value true) rest) := by
  have assoc : (Atom.address value true).text ++ rest =
      'u' :: 'r' :: 'l' :: '(' :: (value.flatMap writeAddressCharacter ++ ')' :: rest) := by
    change "url(".toList ++ value.flatMap writeAddressCharacter ++ [')'] ++ rest = _
    rw [List.append_assoc, List.append_assoc]
    rfl
  rcases stops_address value rest with ⟨first, more, shape, noSpace, noQuote⟩
  have name : readName ('u' :: 'r' :: 'l' :: '(' :: first :: more) =
      ("url".toList, '(' :: first :: more) := by
    have written := readName_writeIdentifier "url" ('(' :: first :: more)
    rw [readName_stops ((Text.stops_cons _ _ _).2 rfl) ((Text.stops_cons _ _ _).2 rfl)] at written
    exact written
  have read := readAddress_written keeps rest
  rw [shape] at read
  have isUrl : Text.asciiLower "url".toList = "url".toList := by decide
  have holds : holdsAddress (first :: more) = true := by
    simp [holdsAddress, noSpace, noQuote]
  have address : lexAddress (first :: more) = single (.address value true) rest := by
    rw [lexAddress, List.dropWhile_cons_of_neg (by simp [noSpace]), read]
  rw [assoc, firstReading, shape, readLexeme_word rfl rfl rfl, lexWord, name]
  simp only [isUrl, holds, address, decide_true, Bool.and_self, if_true]

/-! ## Words -/

theorem exists_of_startsRange {text : Text} (starts : startsRange text = true) :
    ∃ mark more, text = mark :: '+' :: more ∧ readName text = ([mark], '+' :: more) ∧
      isSpace mark = false := by
  unfold startsRange at starts
  split at starts
  · rename_i mark next more
    simp only [Bool.and_eq_true, Bool.or_eq_true, decide_eq_true_eq] at starts
    have plus : readName ('+' :: next :: more) = ([], '+' :: next :: more) :=
      readName_stops ((Text.stops_cons _ _ _).2 rfl) ((Text.stops_cons _ _ _).2 rfl)
    refine ⟨mark, next :: more, rfl, ?_, ?_⟩
    · rw [readName_plain, plus]
      rcases starts.1 with rfl | rfl <;> rfl
    · rcases starts.1 with rfl | rfl <;> rfl
  · cases starts

theorem exists_of_startsArrow {text : Text} (starts : "-->".toList.isPrefixOf text = true) :
    ∃ more, text = '-' :: '-' :: '>' :: more ∧ readName text = (['-', '-'], '>' :: more) := by
  rcases List.isPrefixOf_iff_prefix.1 starts with ⟨more, rfl⟩
  have sign : readName ('>' :: more) = ([], '>' :: more) :=
    readName_stops ((Text.stops_cons _ _ _).2 rfl) ((Text.stops_cons _ _ _).2 rfl)
  refine ⟨more, rfl, ?_⟩
  change readName ('-' :: '-' :: '>' :: more) = _
  rw [readName_plain rfl, readName_plain rfl, sign]

theorem firstReading_word {text : Text} (starts : startsIdentifier text = true)
    (noRange : startsRange text = false) (noArrow : "-->".toList.isPrefixOf text = false) :
    firstReading text = .ok (lexWord text) := by
  cases text with
  | nil => cases starts
  | cons character rest => exact readLexeme_word starts noRange noArrow

/-- A written name is read as a word in front of text that ends it, but for two characters. -/
theorem firstReading_name {name rest : Text} (isName : IsName name)
    (noName : Text.Stops isNameCharacter rest) (noEscape : Text.Stops (· = '\\') rest)
    (noPlus : rest.head? ≠ some '+') (noArrow : rest.head? ≠ some '>') :
    firstReading (writeIdentifier name ++ rest) = .ok (lexWord (writeIdentifier name ++ rest)) ∧
      readName (writeIdentifier name ++ rest) = (name, rest) := by
  have starts := startsIdentifier_writeIdentifier isName.filled rest
  have names := readName_writeIdentifier name rest
  rw [readName_stops noName noEscape, List.append_nil] at names
  refine ⟨firstReading_word starts ?_ ?_, names⟩
  · rw [Bool.eq_false_iff]
    intro range
    rcases exists_of_startsRange range with ⟨mark, more, _, again, _⟩
    rw [names] at again
    cases again
    exact noPlus rfl
  · rw [Bool.eq_false_iff]
    intro arrow
    rcases exists_of_startsArrow arrow with ⟨more, _, again⟩
    rw [names] at again
    cases again
    exact noArrow rfl

/-- An identifier that nothing goes on with is read alone. -/
theorem firstReading_identifier {name rest : Text} (isName : IsName name)
    (noHash : startsHash rest = false) (noCall : rest.head? ≠ some '(')
    (noRange : startsRange (writeIdentifier name ++ rest) = false)
    (noArrow : "-->".toList.isPrefixOf (writeIdentifier name ++ rest) = false) :
    firstReading ((Atom.identifier name).text ++ rest) =
      .ok (single (.identifier name) rest) := by
  have starts := startsIdentifier_writeIdentifier isName.filled rest
  have names := readName_writeIdentifier name rest
  rw [readName_of_not_startsHash noHash, List.append_nil] at names
  rw [Atom.text, firstReading_word starts noRange noArrow, lexWord, names]
  dsimp only
  split
  · exact absurd rfl noCall
  · rfl

/-- A function is read where its arguments are no address. -/
theorem firstReading_function {name rest : Text} (isName : IsName name)
    (noAddress : (Text.asciiLower name = "url".toList && holdsAddress rest) = false) :
    firstReading ((Lexeme.enter (.function name)).text ++ rest) =
      .ok ([.enter (.function name)], rest) := by
  have assoc : (Lexeme.enter (.function name)).text ++ rest =
      writeIdentifier name ++ '(' :: rest := by
    simp [Lexeme.text, Opening.text]
  have ends (isKind : Char → Bool) (noKind : isKind '(' = false) :
      Text.Stops isKind ('(' :: rest) := (Text.stops_cons _ _ _).2 noKind
  rcases firstReading_name isName (ends _ rfl) (ends _ rfl) (by simp) (by simp) with ⟨first, names⟩
  have word : lexWord (writeIdentifier name ++ '(' :: rest) =
      if Text.asciiLower name = "url".toList && holdsAddress rest then lexAddress rest
      else ([.enter (.function name)], rest) := by
    rw [lexWord, names]
    rfl
  rw [assoc, first, word, noAddress]
  rfl

/-! ## Numbers -/

theorem not_isNameStart_of_isDigit {character : Char} (isDigit : Text.isDigit character = true) :
    isNameStart character = false := by
  simp only [Text.isDigit, Bool.and_eq_true, decide_eq_true_eq] at isDigit
  have high : character.toNat ≤ '9'.toNat := isDigit.2
  have codes : '9'.toNat = 57 ∧ 'a'.toNat = 97 ∧ 'A'.toNat = 65 ∧ '_'.toNat = 95 :=
    ⟨rfl, rfl, rfl, rfl⟩
  rw [Bool.eq_false_iff]
  intro starts
  simp only [isNameStart, Bool.or_eq_true, Bool.and_eq_true, decide_eq_true_eq] at starts
  rcases starts with ((⟨low, _⟩ | ⟨low, _⟩) | rfl) | low
  · have low : 'a'.toNat ≤ character.toNat := low
    omega
  · have low : 'A'.toNat ≤ character.toNat := low
    omega
  · omega
  · omega

/-- A number starts with a digit or a point, perhaps behind a sign. -/
theorem IsNumber.exists_first {written : Text} (isNumber : IsNumber written) :
    ∃ sign first more, IsSign sign ∧ (Text.isDigit first = true ∨ first = '.') ∧
      written = sign ++ first :: more := by
  rcases isNumber with ⟨parts, valid, rfl⟩
  cases shape : parts.whole with
  | cons first more =>
      refine ⟨parts.sign, first, more ++ (parts.fraction ++ parts.exponent), valid.isSign, ?_, ?_⟩
      · exact .inl (valid.whole first (shape ▸ List.mem_cons_self))
      · rw [NumberParts.text, shape, List.cons_append]
  | nil =>
      rcases valid.fraction with empty | ⟨digits, _, point⟩
      · exact absurd empty (valid.filled.resolve_left (by simp [shape]))
      · refine ⟨parts.sign, '.', digits ++ parts.exponent, valid.isSign, .inr rfl, ?_⟩
        rw [NumberParts.text, shape, point, List.nil_append, List.cons_append]

/-- Where a number stands, the reader looks for one. -/
theorem IsNumber.firstReading_eq {written : Text} (isNumber : IsNumber written) (rest : Text) :
    ∃ character more, written ++ rest = character :: more ∧
      firstReading (written ++ rest) =
        (splitNumeral (written ++ rest)).map fun number =>
          match number with
          | some (written, after) => lexMeasure written after
          | none => lexMark character more := by
  rcases isNumber.exists_first with ⟨sign, first, more, isSign, starts, rfl⟩
  have noName : isNameStart first = false := by
    rcases starts with isDigit | rfl
    · exact not_isNameStart_of_isDigit isDigit
    · rfl
  have ne {other : Char} (noDigit : Text.isDigit other = false) (notPoint : other ≠ '.') :
      first ≠ other := by
    rintro rfl
    rcases starts with isDigit | isPoint
    · rw [isDigit] at noDigit
      cases noDigit
    · exact notPoint isPoint
  have notEscape : first ≠ '\\' := ne rfl (by decide)
  have notHyphen : first ≠ '-' := ne rfl (by decide)
  have noRange {mark : Char} (noName : isNameStart mark = false) (text : Text) :
      startsRange (mark :: text) = false := by
    apply startsRange_of_mark <;>
    · rintro rfl
      cases noName
  rcases isSign with rfl | rfl | rfl
  · refine ⟨first, more ++ rest, rfl, readLexeme_numeral ?_ (noRange noName _) ?_ ?_⟩
    · simp only [isSpace, Bool.or_eq_false_iff, decide_eq_false_iff_not]
      exact ⟨⟨ne rfl (by decide), ne rfl (by decide)⟩, ne rfl (by decide)⟩
    · simp [List.isPrefixOf, Ne.symm notHyphen]
    · rw [startsIdentifier]
      · exact noName
      · exact notEscape
      · exact notHyphen
  · exact ⟨'+', _, rfl, readLexeme_numeral rfl (noRange rfl _) rfl rfl⟩
  · refine ⟨'-', first :: more ++ rest, rfl, readLexeme_numeral rfl (noRange rfl _) ?_ ?_⟩
    · simp [List.isPrefixOf, Ne.symm notHyphen]
    · change startsIdentifier ('-' :: first :: (more ++ rest)) = false
      rw [startsIdentifier]
      · simp [noName, notHyphen]
      · exact notEscape

theorem splitExponent_of_not_startsIdentifier {text : Text}
    (noWord : startsIdentifier text = false) : splitExponent text = ([], text) := by
  fun_cases splitExponent text with
  | case1 => rfl
  | case2 mark rest digits starts =>
      have isStart : isNameStart mark = true := by
        simp only [Bool.and_eq_true, Bool.or_eq_true, decide_eq_true_eq] at starts
        rcases starts.1 with rfl | rfl <;> rfl
      rw [(startsIdentifier_of_isNameStart isStart rest).1] at noWord
      cases noWord
  | case3 => rfl

/-- A number that nothing goes on with is read alone. -/
theorem firstReading_number {written rest : Text} (isNumber : IsNumber written)
    (noDigit : Text.Stops Text.isDigit rest)
    (noNumber : isInteger written = true → startsNumber rest = false)
    (noWord : startsIdentifier rest = false) (noPercent : rest.head? ≠ some '%') :
    firstReading ((Atom.number written).text ++ rest) = .ok (single (.number written) rest) := by
  have alone := isNumber.splitNumeral_eq noDigit
    (fun whole => (stops_of_not_startsNumber (noNumber whole)).2)
    (fun _ => splitExponent_of_not_startsIdentifier noWord)
  rcases isNumber.firstReading_eq rest with ⟨character, more, shape, reading⟩
  have measured : lexMeasure written rest = single (.number written) rest := by
    rw [lexMeasure, noWord]
    · rfl
    · rintro after rfl
      exact noPercent rfl
  rw [Atom.text, reading, alone, ← measured]
  rfl

theorem firstReading_percentage {written : Text} (isNumber : IsNumber written) (rest : Text) :
    firstReading ((Atom.percentage written).text ++ rest) =
      .ok (single (.percentage written) rest) := by
  have assoc : (Atom.percentage written).text ++ rest = written ++ '%' :: rest := by
    rw [Atom.text, List.append_assoc]
    rfl
  have alone : splitNumeral (written ++ '%' :: rest) = .ok (some (written, '%' :: rest)) :=
    isNumber.splitNumeral_eq ((Text.stops_cons _ _ _).2 rfl) (fun _ => rfl) (fun _ => rfl)
  rcases isNumber.firstReading_eq ('%' :: rest) with ⟨character, more, shape, reading⟩
  rw [assoc, reading, alone]
  rfl

/-! ## Dimensions -/

/-- Whether a unit is written so that it is read as the same unit behind a number. -/
def keepsUnit (written : Text) : Text → Bool
  | ['E'] => false
  | 'E' :: '-' :: _ => false
  | mark :: next :: _ => hasExponent written || !(isMark mark && Text.isDigit next)
  | _ => true

theorem stops_of_startsIdentifier {text : Text} (starts : startsIdentifier text = true) :
    Text.Stops Text.isDigit text ∧ Text.Stops (· = '.') text := by
  cases text with
  | nil => cases starts
  | cons character rest =>
      rw [Text.stops_cons, Text.stops_cons]
      constructor
      · rw [Bool.eq_false_iff]
        intro isDigit
        rw [startsIdentifier, not_isNameStart_of_isDigit isDigit] at starts
        · cases starts
        · rintro rfl
          cases isDigit
        · rintro rfl
          cases isDigit
      · rw [decide_eq_false_iff_not]
        rintro rfl
        cases starts

/-- A unit that is read as a name does not go on with the number as its exponent. -/
theorem splitExponent_of_unit {written unit more text : Text} (filled : unit ≠ [])
    (keeps : keepsUnit written unit = true) (noExponent : hasExponent written = false)
    (notAlone : unit ≠ ['e'])
    (noHyphen : ∀ rest, unit ≠ 'e' :: '-' :: rest) (reads : (readName text).1 = unit ++ more) :
    splitExponent text = ([], text) := by
  fun_cases splitExponent text with
  | case1 => rfl
  | case2 mark rest digits starts =>
      exfalso
      simp only [Bool.and_eq_true, Bool.or_eq_true, decide_eq_true_eq] at starts
      rcases starts with ⟨isMark, starts⟩
      have isName : isNameCharacter mark = true := by
        rcases isMark with rfl | rfl <;> rfl
      rw [readName_plain isName] at reads
      rcases unit with _ | ⟨first, _ | ⟨next, unit⟩⟩
      · exact filled rfl
      · cases reads
        rcases isMark with rfl | rfl
        · exact notAlone rfl
        · cases keeps
      -- The second character of the unit would be a sign or a digit.
      simp only [List.cons_append, List.cons.injEq] at reads
      rcases reads with ⟨rfl, reads⟩
      have noDigit : Text.isDigit next = false := by
        rw [Bool.eq_false_iff]
        intro isDigit
        have notHyphen : next ≠ '-' := by
          rintro rfl
          cases isDigit
        rcases isMark with rfl | rfl <;>
        · simp [keepsUnit, isDigit, notHyphen, noExponent, Component.isMark] at keeps
      have notHyphen : next ≠ '-' := by
        rintro rfl
        rcases isMark with rfl | rfl
        · exact noHyphen unit rfl
        · cases keeps
      have head (character : Char) (text : Text) (isName : isNameCharacter character = true)
          (reads : (readName (character :: text)).1 = next :: (unit ++ more)) :
          next = character := by
        rw [readName_plain isName] at reads
        exact (List.cons.inj reads).1.symm
      fun_cases splitSign rest with
      | case1 after => exact notHyphen (head '-' after rfl reads)
      | case2 after =>
          rw [readName_stops ((Text.stops_cons _ _ _).2 rfl) ((Text.stops_cons _ _ _).2 rfl)]
            at reads
          cases reads
      | case3 _ noMinus noPlus =>
          have unsigned : digits = rest := by
            simp only [digits]
            rw [splitSign]
            · exact noMinus
            · exact noPlus
          rw [unsigned] at starts
          cases rest with
          | nil => cases starts
          | cons digit after =>
              have isDigit : Text.isDigit digit = true := starts
              rw [head digit after (by simp [isNameCharacter, isDigit]) reads, isDigit] at noDigit
              cases noDigit
  | case3 => rfl

/-- A written unit is read back, and is no part of the number. -/
theorem readName_writeUnit {written unit : Text} (filled : unit ≠ [])
    (keeps : keepsUnit written unit = true) (rest : Text) :
    startsIdentifier (writeUnit unit ++ rest) = true ∧
      (hasExponent written = false →
        splitExponent (writeUnit unit ++ rest) = ([], writeUnit unit ++ rest)) ∧
      readName (writeUnit unit ++ rest) = (unit ++ (readName rest).1, (readName rest).2) := by
  have code (more : Text) : readName ('\\' :: '6' :: '5' :: ' ' :: more) =
      ('e' :: (readName more).1, (readName more).2) := by
    have digits : ∀ digit ∈ ['6', '5'], Text.isHexDigit digit = true :=
      List.all_eq_true.1 (by decide)
    exact readName_code (List.cons_ne_nil _ _) (by decide) digits more
  fun_cases writeUnit unit with
  | case1 => exact ⟨rfl, fun _ => rfl, code rest⟩
  | case2 => cases keeps
  | case3 more =>
      refine ⟨rfl, fun _ => rfl, ?_⟩
      have written := readName_writeName ('-' :: more) rest
      have read := code (writeName ('-' :: more) ++ rest)
      rw [written] at read
      exact read
  | case4 => cases keeps
  | case5 unit notLower notUpper noLower noUpper =>
      have read := readName_writeIdentifier unit rest
      refine ⟨startsIdentifier_writeIdentifier filled rest, fun noExponent => ?_, read⟩
      exact splitExponent_of_unit filled keeps noExponent notLower noLower (congrArg Prod.fst read)

theorem firstReading_dimension {written unit rest : Text} (isNumber : IsNumber written)
    (filled : unit ≠ []) (keeps : keepsUnit written unit = true)
    (noHash : startsHash rest = false) :
    firstReading ((Atom.dimension written unit).text ++ rest) =
      .ok (single (.dimension written unit) rest) := by
  rcases readName_writeUnit filled keeps rest with ⟨starts, noExponent, read⟩
  have stops := stops_of_startsIdentifier starts
  have alone : splitNumeral (written ++ (writeUnit unit ++ rest)) =
      .ok (some (written, writeUnit unit ++ rest)) :=
    isNumber.splitNumeral_eq stops.1 (fun _ => splitFraction_eq_nil stops.2) noExponent
  rcases isNumber.firstReading_eq (writeUnit unit ++ rest) with ⟨character, more, shape, reading⟩
  rw [readName_of_not_startsHash noHash] at read
  rw [Atom.text, List.append_assoc, reading, alone]
  simp [Except.map, lexMeasure, starts, read]

/-! ## White space -/

theorem firstReading_whitespace {run rest : Text}
    (wellFormed : (Atom.whitespace run).WellFormed) (ends : Text.Stops isSpace rest) :
    firstReading ((Atom.whitespace run).text ++ rest) = .ok (single (.whitespace run) rest) := by
  rcases wellFormed with ⟨filled, isRun⟩
  rcases List.exists_cons_of_ne_nil filled with ⟨first, more, rfl⟩
  have isRunMore : ∀ character ∈ more, isSpace character = true := fun character member =>
    isRun character (List.mem_cons_of_mem _ member)
  rw [Atom.text, List.cons_append, firstReading, readLexeme,
    if_pos (isRun first List.mem_cons_self), List.takeWhile_append_of_pos isRunMore,
    List.dropWhile_append_of_pos isRunMore, Text.takeWhile_of_stops ends,
    Text.dropWhile_of_stops ends, List.append_nil]

/-! ## Ranges -/

/-- The digits at the start of a range. -/
def rangeDigits (text : Text) : Text :=
  (text.take 6).takeWhile Text.isHexDigit

/-- The question marks behind the digits of a range. -/
def rangeMarks (text : Text) : Text :=
  ((text.drop (rangeDigits text).length).take (6 - (rangeDigits text).length)).takeWhile (· = '?')

theorem rangeDigits_append {digits : Text} (short : digits.length ≤ 6)
    (isDigits : ∀ digit ∈ digits, Text.isHexDigit digit = true) (rest : Text) :
    rangeDigits (digits ++ rest) =
      digits ++ (rest.take (6 - digits.length)).takeWhile Text.isHexDigit := by
  rw [rangeDigits, List.take_append, List.take_of_length_le short,
    List.takeWhile_append_of_pos isDigits]

/-- The reading of what follows the first digits of a range without question marks. -/
def lexRangeEnd (first : Nat) (rest : Text) : Reading :=
  match rest with
  | '-' :: behind =>
    if (rangeDigits behind).isEmpty then single (.unicodeRange first first) rest
    else
      single (.unicodeRange first (Text.ofDigits 16 (rangeDigits behind)))
        (behind.drop (rangeDigits behind).length)
  | _ => single (.unicodeRange first first) rest

theorem lexRange_of_digits {digits rest : Text} (same : rangeDigits (digits ++ rest) = digits)
    (noMarks : rangeMarks (digits ++ rest) = []) :
    lexRange (digits ++ rest) = lexRangeEnd (Text.ofDigits 16 digits) rest := by
  have left : (digits ++ rest).drop digits.length = rest := by simp
  simp only [rangeMarks, same, left] at noMarks
  unfold rangeDigits at same
  simp only [lexRange, same, noMarks, left, List.map_nil, List.append_nil, List.isEmpty_nil,
    List.length_nil, List.drop_zero]
  rfl

/-- Behind the mark of a range the range is read. -/
theorem firstReading_range {first : Nat} {rest : Text} :
    firstReading (("U+" : Text) ++ hexadecimalUpper first ++ rest) =
      .ok (lexRange (hexadecimalUpper first ++ rest)) := by
  rcases List.exists_cons_of_ne_nil (List.length_pos_iff.1 (length_hexadecimalUpper_pos first)) with
    ⟨digit, more, shape⟩
  have isDigit : Text.isHexDigit digit = true :=
    hexadecimalUpper_digits first digit (shape ▸ List.mem_cons_self)
  have starts : startsRange ('U' :: '+' :: digit :: (more ++ rest)) = true := by
    simp [startsRange, isDigit]
  rw [shape]
  change readLexeme 'U' ('+' :: digit :: (more ++ rest)) = _
  rw [readLexeme, if_neg (by decide), if_pos starts]
  rfl

/-- Whether a text starts with a character of a kind. -/
def startsWith (isKind : Char → Bool) (text : Text) : Bool :=
  text.head?.any isKind

theorem stops_iff {isKind : Char → Bool} {text : Text} :
    Text.Stops isKind text ↔ startsWith isKind text = false := by
  cases text with
  | nil => exact iff_of_true (Text.stops_nil _) rfl
  | cons character rest => simp [startsWith]

/-- Whether a text goes on with a range: with more digits, a question mark, or a last code. -/
def rangeGoesOn (first last : Nat) (rest : Text) : Bool :=
  ((hexadecimalUpper last).length < 6 &&
      (startsWith Text.isHexDigit rest || (first = last && startsWith (· = '?') rest))) ||
    (first = last && startsWith (· = '-') rest && startsWith Text.isHexDigit rest.tail)

theorem takeWhile_take_eq_nil {isKind : Char → Bool} {count : Nat} {text : Text}
    (stops : 0 < count → Text.Stops isKind text) : (text.take count).takeWhile isKind = [] := by
  cases count with
  | zero => rfl
  | succ count =>
      have none := takeWhile_take_of_stops (stops (Nat.succ_pos count)) (count + 1) []
      simpa using none

theorem lexRangeEnd_eq {first : Nat} {rest : Text}
    (noLast : startsWith (· = '-') rest = true → startsWith Text.isHexDigit rest.tail = false) :
    lexRangeEnd first rest = single (.unicodeRange first first) rest := by
  unfold lexRangeEnd
  split
  · rename_i behind
    have none : rangeDigits behind = [] :=
      takeWhile_take_eq_nil fun _ => stops_iff.2 (noLast rfl)
    rw [none]
    rfl
  · rfl

/-- A range that nothing goes on with is read alone. -/
theorem firstReading_unicodeRange {first last : Nat} {rest : Text}
    (wellFormed : (Atom.unicodeRange first last).WellFormed)
    (ends : rangeGoesOn first last rest = false) :
    firstReading ((Atom.unicodeRange first last).text ++ rest) =
      .ok (single (.unicodeRange first last) rest) := by
  rcases wellFormed with ⟨isFirst, isLast⟩
  have shortFirst := length_hexadecimalUpper_le isFirst
  have shortLast := length_hexadecimalUpper_le isLast
  have digits := rangeDigits_append shortFirst (hexadecimalUpper_digits first)
  have value := ofDigits_hexadecimalUpper first
  simp only [rangeGoesOn, Bool.or_eq_false_iff, Bool.and_eq_false_imp, decide_eq_true_eq] at ends
  rcases ends with ⟨room, noLast⟩
  have noDigits : (rest.take (6 - (hexadecimalUpper last).length)).takeWhile Text.isHexDigit = [] :=
    takeWhile_take_eq_nil fun positive => stops_iff.2 (room (by omega)).1
  by_cases same : first = last
  · subst same
    have sameDigits : rangeDigits (hexadecimalUpper first ++ rest) = hexadecimalUpper first := by
      rw [digits, noDigits, List.append_nil]
    have noMarks : rangeMarks (hexadecimalUpper first ++ rest) = [] := by
      rw [rangeMarks, sameDigits, List.drop_left]
      exact takeWhile_take_eq_nil fun positive => stops_iff.2 ((room (by omega)).2 rfl)
    rw [Atom.text, writeRange, if_pos rfl, firstReading_range,
      lexRange_of_digits sameDigits noMarks, value,
      lexRangeEnd_eq fun hyphen => noLast (by simp [hyphen])]
  · have assoc : (Atom.unicodeRange first last).text ++ rest =
        ("U+" : Text) ++ hexadecimalUpper first ++ '-' :: (hexadecimalUpper last ++ rest) := by
      rw [Atom.text, writeRange, if_neg same, List.append_assoc, List.cons_append]
    have nothing {isKind : Char → Bool} (noKind : isKind '-' = false) (count : Nat) :
        (('-' :: (hexadecimalUpper last ++ rest)).take count).takeWhile isKind = [] :=
      takeWhile_take_eq_nil fun _ => (Text.stops_cons _ _ _).2 noKind
    have sameDigits :
        rangeDigits (hexadecimalUpper first ++ '-' :: (hexadecimalUpper last ++ rest)) =
          hexadecimalUpper first := by
      rw [digits, nothing rfl, List.append_nil]
    have noMarks : rangeMarks (hexadecimalUpper first ++ '-' :: (hexadecimalUpper last ++ rest)) =
        [] := by
      rw [rangeMarks, sameDigits, List.drop_left]
      exact nothing rfl _
    have lastDigits := rangeDigits_append shortLast (hexadecimalUpper_digits last) rest
    rw [noDigits, List.append_nil] at lastDigits
    have filled := List.length_pos_iff.1 (length_hexadecimalUpper_pos last)
    rw [assoc, firstReading_range, lexRange_of_digits sameDigits noMarks, value, lexRangeEnd,
      lastDigits, if_neg (by simp [filled]), List.drop_left, ofDigits_hexadecimalUpper]

/-! ## Literals -/

/-- Whether a text goes on with what a sign starts. -/
def signGoesOn (character : Char) (rest : Text) : Bool :=
  startsIdentifier (character :: rest)
    || startsNumber (splitSign (character :: rest)).2
    || (character = '@' && startsIdentifier rest)
    || (character = '#' && startsHash rest)
    || (character = '/' && startsWith (· = '*') rest)
    || (character = '<' && "!--".toList.isPrefixOf rest)
    || (character = '|' && startsWith (· = '|') rest)
    || (joinsEquals character && startsWith (· = '=') rest)

theorem lexMark_sign {character : Char} {rest : Text} (alone : StandsAlone character)
    (ends : signGoesOn character rest = false) :
    lexMark character rest = single (.literal [character]) rest := by
  simp only [signGoesOn, Bool.or_eq_false_iff, Bool.and_eq_false_imp, decide_eq_true_eq] at ends
  rcases ends with ⟨⟨⟨⟨⟨⟨_, keyword⟩, hash⟩, comment⟩, opening⟩, column⟩, equals⟩
  unfold lexMark
  split
  · rw [keyword rfl]
    rfl
  · rw [hash rfl]
    rfl
  · cases comment rfl
  · rw [alone.noQuote, alone.noOpening, alone.noClosing]
    change lexSign character rest = _
    unfold lexSign
    split
    · cases opening rfl
    · cases column rfl
    · split
      · rename_i joins
        cases equals joins
      · rfl
    · rfl

/-- A sign that nothing goes on with is read alone. -/
theorem firstReading_sign {character : Char} {rest : Text} (alone : StandsAlone character)
    (ends : signGoesOn character rest = false) :
    firstReading (character :: rest) = .ok (single (.literal [character]) rest) := by
  have noWord : startsIdentifier (character :: rest) = false := by
    simp_all [signGoesOn]
  have noNumber : startsNumber (splitSign (character :: rest)).2 = false := by
    simp_all [signGoesOn]
  have noRange : startsRange (character :: rest) = false := by
    have noName := alone.noName
    apply startsRange_of_mark <;>
    · rintro rfl
      cases noName
  have noArrow : "-->".toList.isPrefixOf (character :: rest) = false := by
    rw [Bool.eq_false_iff]
    intro arrow
    rcases exists_of_startsArrow arrow with ⟨more, shape, _⟩
    cases shape
    cases noWord
  rw [firstReading, readLexeme_numeral alone.noSpace noRange noArrow noWord,
    splitNumeral_eq_none noNumber, ← lexMark_sign alone ends]
  rfl

theorem firstReading_equals {character : Char} (joins : joinsEquals character = true)
    (rest : Text) :
    firstReading (character :: '=' :: rest) =
      .ok (single (.literal [character, '=']) rest) := by
  simp only [joinsEquals, Bool.or_eq_true, decide_eq_true_eq] at joins
  rcases joins with (((rfl | rfl) | rfl) | rfl) | rfl <;>
  · rw [firstReading, readLexeme_mark rfl rfl rfl (by decide)]
    rfl

end CssAuthoring.Component
