import CssAuthoring.Proofs.Component.Append

/-!
# Written numbers

The text of a number has a sign, whole digits, a fraction and an exponent, of which only the digits
are needed.  In front of any text at least the number is read, and just the number where that text
does not go on with it.
-/

namespace CssAuthoring.Component

open CssAuthoring.Numeric

/-- A sign, or none. -/
def IsSign (sign : Text) : Prop :=
  sign = [] ∨ sign = ['+'] ∨ sign = ['-']

/-- At least one digit, and nothing else. -/
structure IsDigits (digits : Text) : Prop where
  nonempty : digits ≠ []
  digits : ∀ digit ∈ digits, Text.isDigit digit = true

/-- The mark of an exponent, perhaps a sign, and digits. -/
inductive IsExponent : Text → Prop where
  | digits {mark : Char} {sign digits : Text} (isMark : mark = 'e' ∨ mark = 'E')
      (isSign : IsSign sign) (isDigits : IsDigits digits) :
      IsExponent (mark :: (sign ++ digits))

/-- The parts of the text of a number; the fraction has its point and the exponent its mark. -/
structure NumberParts where
  sign : Text
  whole : Text
  fraction : Text
  exponent : Text

namespace NumberParts

/-- The text of a number. -/
def text (parts : NumberParts) : Text :=
  parts.sign ++ (parts.whole ++ (parts.fraction ++ parts.exponent))

/-- The parts fit together: there is a digit, and an integer is not too long. -/
structure Valid (parts : NumberParts) : Prop where
  isSign : IsSign parts.sign
  whole : ∀ digit ∈ parts.whole, Text.isDigit digit = true
  fraction : parts.fraction = [] ∨ ∃ digits, IsDigits digits ∧ parts.fraction = '.' :: digits
  exponent : parts.exponent = [] ∨ IsExponent parts.exponent
  filled : parts.whole ≠ [] ∨ parts.fraction ≠ []
  short : parts.fraction = [] → parts.exponent = [] → parts.whole.length ≤ NumeralTooLong.limit

end NumberParts

/-- The text of a number. -/
def IsNumber (written : Text) : Prop :=
  ∃ parts : NumberParts, parts.Valid ∧ written = parts.text

/-! ## Parts in front of a text -/

/-- Whether a character is a sign. -/
def isSignCharacter (character : Char) : Bool :=
  character = '+' || character = '-'

theorem splitSign_append_of_isSign {sign text : Text} (isSign : IsSign sign)
    (unsigned : Text.Stops isSignCharacter text) :
    splitSign (sign ++ text) = (decide (sign = ['-']), text) := by
  rcases isSign with rfl | rfl | rfl
  · rw [List.nil_append]
    unfold splitSign
    split
    · simp [isSignCharacter] at unsigned
    · simp [isSignCharacter] at unsigned
    · rfl
  · rfl
  · rfl

theorem not_isSignCharacter_of_isDigit {character : Char}
    (isDigit : Text.isDigit character = true) : isSignCharacter character = false := by
  rw [Bool.eq_false_iff]
  intro isSign
  simp only [isSignCharacter, Bool.or_eq_true, decide_eq_true_eq] at isSign
  rcases isSign with rfl | rfl <;> cases isDigit

theorem IsDigits.stops {digits : Text} (isDigits : IsDigits digits) (rest : Text) :
    Text.Stops isSignCharacter (digits ++ rest) := by
  rcases List.exists_cons_of_ne_nil isDigits.nonempty with ⟨first, more, rfl⟩
  rw [List.cons_append, Text.stops_cons]
  exact not_isSignCharacter_of_isDigit (isDigits.digits first List.mem_cons_self)

theorem dropWhile_digits {digits : Text}
    (isDigits : ∀ digit ∈ digits, Text.isDigit digit = true) (rest : Text) :
    (digits ++ rest).dropWhile Text.isDigit = rest.dropWhile Text.isDigit :=
  List.dropWhile_append_of_pos isDigits

/-- An exponent is read with the digits behind it. -/
theorem IsExponent.split {exponent : Text} (isExponent : IsExponent exponent) (rest : Text) :
    (splitExponent (exponent ++ rest)).2 = rest.dropWhile Text.isDigit ∧
      (splitExponent (exponent ++ rest)).1 ≠ [] := by
  cases isExponent with
  | @digits mark sign digits isMark isSign isDigits =>
      have unsigned := splitSign_append_of_isSign isSign (isDigits.stops rest)
      have starts : ((digits ++ rest).head?.map Text.isDigit).getD false = true := by
        rcases List.exists_cons_of_ne_nil isDigits.nonempty with ⟨first, more, rfl⟩
        exact isDigits.digits first List.mem_cons_self
      have marked : (decide (mark = 'e') || decide (mark = 'E')) = true := by simpa using isMark
      simp only [List.cons_append, List.append_assoc, splitExponent, unsigned, starts, marked,
        Bool.and_self, if_true, dropWhile_digits isDigits.digits, true_and]
      intro empty
      have left := Text.length_dropWhile_le Text.isDigit rest
      have lengths := congrArg List.length empty
      simp only [Text.before, List.length_take, List.length_cons, List.length_append,
        List.length_nil] at lengths
      omega

theorem splitFraction_point {digits : Text} (isDigits : IsDigits digits) (rest : Text) :
    splitFraction ('.' :: digits ++ rest) =
      (digits ++ rest.takeWhile Text.isDigit, rest.dropWhile Text.isDigit) := by
  rcases List.exists_cons_of_ne_nil isDigits.nonempty with ⟨first, more, rfl⟩
  have isDigit := isDigits.digits first List.mem_cons_self
  rw [List.cons_append, List.cons_append, splitFraction, if_pos isDigit, ← List.cons_append,
    List.takeWhile_append_of_pos isDigits.digits, List.dropWhile_append_of_pos isDigits.digits]

theorem IsExponent.stops {exponent : Text} (isExponent : IsExponent exponent) (rest : Text) :
    Text.Stops Text.isDigit (exponent ++ rest) ∧ Text.Stops (· = '.') (exponent ++ rest) := by
  cases isExponent with
  | digits isMark =>
      rw [List.cons_append, Text.stops_cons, Text.stops_cons]
      rcases isMark with rfl | rfl <;> exact ⟨rfl, rfl⟩

namespace NumberParts

variable {parts : NumberParts}

theorem Valid.unsigned (valid : parts.Valid) (rest : Text) :
    Text.Stops isSignCharacter (parts.whole ++ (parts.fraction ++ parts.exponent) ++ rest) := by
  cases shape : parts.whole with
  | cons first more =>
      have isDigit := valid.whole first (shape ▸ List.mem_cons_self)
      exact (Text.stops_cons _ _ _).2 (not_isSignCharacter_of_isDigit isDigit)
  | nil =>
      rcases valid.fraction with empty | ⟨digits, _, point⟩
      · exact absurd empty (valid.filled.resolve_left (by simp [shape]))
      · rw [point]
        exact (Text.stops_cons _ _ _).2 rfl

/-- In front of any text the sign is read, and the digits up to the fraction. -/
theorem Valid.splitNumber_eq (valid : parts.Valid) (rest : Text) :
    splitNumber (parts.text ++ rest) =
      (⟨decide (parts.sign = ['-']),
          parts.whole ++ (parts.fraction ++ (parts.exponent ++ rest)).takeWhile Text.isDigit,
          (splitFraction
            ((parts.fraction ++ (parts.exponent ++ rest)).dropWhile Text.isDigit)).1⟩,
        (splitFraction
          ((parts.fraction ++ (parts.exponent ++ rest)).dropWhile Text.isDigit)).2) := by
  have assoc : parts.text ++ rest =
      parts.sign ++ (parts.whole ++ (parts.fraction ++ parts.exponent) ++ rest) := by
    simp [text]
  have split := splitSign_append_of_isSign valid.isSign (valid.unsigned rest)
  rw [assoc]
  simp only [splitNumber, split]
  rw [List.append_assoc, List.takeWhile_append_of_pos valid.whole,
    List.dropWhile_append_of_pos valid.whole, List.append_assoc]

/-- The digits of the fraction, and what is left behind them in front of the given text. -/
theorem Valid.splitFraction_eq (valid : parts.Valid) (rest : Text) :
    splitFraction ((parts.fraction ++ (parts.exponent ++ rest)).dropWhile Text.isDigit) =
      if parts.fraction = [] then splitFraction ((parts.exponent ++ rest).dropWhile Text.isDigit)
      else (parts.fraction.tail ++ (parts.exponent ++ rest).takeWhile Text.isDigit,
        (parts.exponent ++ rest).dropWhile Text.isDigit) := by
  rcases valid.fraction with empty | ⟨digits, isDigits, point⟩
  · rw [if_pos empty, empty, List.nil_append]
  · have noDigit : Text.Stops Text.isDigit ('.' :: digits ++ (parts.exponent ++ rest)) :=
      (Text.stops_cons _ _ _).2 rfl
    rw [point, if_neg (by simp), Text.dropWhile_of_stops noDigit, splitFraction_point isDigits]
    rfl

/-- What is left of a number in front of a text, before its exponent is read. -/
theorem Valid.splitNumber_snd (valid : parts.Valid) (rest : Text) :
    (splitNumber (parts.text ++ rest)).2 =
      if parts.exponent = [] then
        if parts.fraction = [] then (splitFraction (rest.dropWhile Text.isDigit)).2
        else rest.dropWhile Text.isDigit
      else parts.exponent ++ rest := by
  rw [valid.splitNumber_eq]
  simp only [valid.splitFraction_eq]
  rcases valid.exponent with empty | isExponent
  · rw [if_pos empty, empty, List.nil_append]
    split <;> rfl
  · have stops := isExponent.stops rest
    have filled : parts.exponent ≠ [] := by
      intro empty
      rw [empty] at isExponent
      cases isExponent
    rw [if_neg filled, Text.dropWhile_of_stops stops.1, splitFraction_eq_nil stops.2]
    split <;> rfl

/-- In front of any text at least the number is read. -/
theorem Valid.splitExponent_suffix (valid : parts.Valid) (rest : Text) :
    (splitExponent (splitNumber (parts.text ++ rest)).2).2 <:+ rest := by
  have digits := List.dropWhile_suffix (l := rest) Text.isDigit
  rw [valid.splitNumber_snd]
  split
  · split
    · exact (Component.splitExponent_suffix _).trans ((splitFraction_suffix _).trans digits)
    · exact (Component.splitExponent_suffix _).trans digits
  · rename_i filled
    rw [((valid.exponent.resolve_left filled).split rest).1]
    exact digits

/-- The number is read alone in front of a text that does not go on with it. -/
theorem Valid.splitExponent_eq (valid : parts.Valid) {rest : Text}
    (noDigit : Text.Stops Text.isDigit rest)
    (noFraction : parts.fraction = [] → parts.exponent = [] → splitFraction rest = ([], rest))
    (noExponent : parts.exponent = [] → splitExponent rest = ([], rest)) :
    (splitExponent (splitNumber (parts.text ++ rest)).2).2 = rest := by
  rw [valid.splitNumber_snd, Text.dropWhile_of_stops noDigit]
  split
  · rename_i noMark
    split
    · rename_i noPoint
      rw [noFraction noPoint noMark, noExponent noMark]
    · rw [noExponent noMark]
  · rename_i filled
    rw [((valid.exponent.resolve_left filled).split rest).1, Text.dropWhile_of_stops noDigit]

theorem Valid.splitNumber_filled (valid : parts.Valid) (rest : Text) :
    ((splitNumber (parts.text ++ rest)).1.whole.isEmpty &&
      (splitNumber (parts.text ++ rest)).1.fraction.isEmpty) = false := by
  rw [valid.splitNumber_eq]
  simp only [valid.splitFraction_eq]
  rcases valid.fraction with empty | ⟨digits, isDigits, point⟩
  · have filled := valid.filled.resolve_right (fun filled => filled empty)
    simp [filled]
  · have filled := isDigits.nonempty
    simp [point, filled]

/-- A number that reads as an integer in front of a text is not too long. -/
theorem Valid.short_of_integer (valid : parts.Valid) {rest : Text}
    (noDigit : Text.Stops Text.isDigit rest)
    (noFraction : (splitNumber (parts.text ++ rest)).1.fraction = [])
    (noExponent : (splitExponent (splitNumber (parts.text ++ rest)).2).1 = []) :
    (splitNumber (parts.text ++ rest)).1.whole.length ≤ NumeralTooLong.limit := by
  have exponent : parts.exponent = [] := by
    apply valid.exponent.resolve_right
    intro isExponent
    have filled : parts.exponent ≠ [] := by
      intro empty
      rw [empty] at isExponent
      cases isExponent
    rw [valid.splitNumber_snd, if_neg filled] at noExponent
    exact (isExponent.split rest).2 noExponent
  rw [valid.splitNumber_eq] at noFraction ⊢
  simp only [valid.splitFraction_eq] at noFraction
  rcases valid.fraction with empty | ⟨digits, isDigits, point⟩
  · simp only [empty, exponent, List.nil_append, Text.takeWhile_of_stops noDigit, List.append_nil]
    exact valid.short empty exponent
  · simp [point, isDigits.nonempty] at noFraction

end NumberParts

/-! ## Numbers in front of a text -/

/-- With a digit in it a number is read, unless it is an integer that is too long. -/
theorem splitNumeral_of_filled {text : Text}
    (filled :
      ((splitNumber text).1.whole.isEmpty && (splitNumber text).1.fraction.isEmpty) = false) :
    splitNumeral text =
      let left := (splitExponent (splitNumber text).2).2
      if (splitNumber text).1.fraction.isEmpty &&
          (splitExponent (splitNumber text).2).1.isEmpty then
        (readInteger (splitNumber text).1.negative (splitNumber text).1.whole).map
          fun _ => some (Text.before text left, left)
      else .ok (some (Text.before text left, left)) := by
  simp only [splitNumeral, filled]
  rfl

/-- In front of any text at least the number is read. -/
theorem IsNumber.read {written rest : Text} (isNumber : IsNumber written)
    {found : Option (Text × Text)} (read : splitNumeral (written ++ rest) = .ok found) :
    ∃ more left, rest = more ++ left ∧ found = some (written ++ more, left) := by
  rcases isNumber with ⟨parts, valid, rfl⟩
  rcases valid.splitExponent_suffix rest with ⟨more, shape⟩
  refine ⟨more, _, shape.symm, ?_⟩
  have before {left : Text} (shape : more ++ left = rest) :
      Text.before (parts.text ++ rest) left = parts.text ++ more := by
    rw [← shape, ← List.append_assoc, Text.before_left]
  rw [splitNumeral_of_filled (valid.splitNumber_filled rest)] at read
  simp only [before shape] at read
  split at read
  · generalize readInteger _ _ = value at read
    cases value with
    | error failure => cases read
    | ok value =>
        cases read
        rfl
  · cases read
    rfl

/-- Whether the text of a number has neither a fraction nor an exponent. -/
def isInteger (written : Text) : Bool :=
  written.all fun character => Text.isDigit character || isSignCharacter character

/-- Whether a character marks an exponent. -/
def isMark (character : Char) : Bool :=
  character = 'e' || character = 'E'

/-- Whether the text of a number has an exponent. -/
def hasExponent (written : Text) : Bool :=
  written.any isMark

theorem not_isMark_of_isDigit {character : Char} (isDigit : Text.isDigit character = true) :
    isMark character = false := by
  rw [Bool.eq_false_iff]
  intro isMark
  simp only [Component.isMark, Bool.or_eq_true, decide_eq_true_eq] at isMark
  rcases isMark with rfl | rfl <;> cases isDigit

namespace NumberParts

variable {parts : NumberParts}

theorem Valid.isInteger_text (valid : parts.Valid) (noFraction : parts.fraction = [])
    (noExponent : parts.exponent = []) : isInteger parts.text = true := by
  have sign : isInteger parts.sign = true := by
    rcases valid.isSign with sign | sign | sign <;>
    · rw [sign]
      rfl
  have whole : isInteger parts.whole = true := by
    simp only [isInteger, List.all_eq_true, Bool.or_eq_true]
    exact fun digit member => .inl (valid.whole digit member)
  rw [isInteger] at sign whole
  simp [isInteger, text, noFraction, noExponent, sign, whole]

theorem Valid.hasExponent_text (valid : parts.Valid) (noExponent : parts.exponent = []) :
    hasExponent parts.text = false := by
  have digits {digits : Text} (isDigits : ∀ digit ∈ digits, Text.isDigit digit = true) :
      digits.any isMark = false := by
    rw [List.any_eq_false]
    intro digit member
    rw [not_isMark_of_isDigit (isDigits digit member)]
    decide
  have sign : parts.sign.any isMark = false := by
    rcases valid.isSign with sign | sign | sign <;>
    · rw [sign]
      rfl
  have fraction : parts.fraction.any isMark = false := by
    rcases valid.fraction with empty | ⟨inFraction, isDigits, point⟩
    · rw [empty]
      rfl
    · rw [point, List.any_cons, digits isDigits.digits]
      rfl
  simp [hasExponent, text, noExponent, sign, digits valid.whole, fraction]

end NumberParts

/-- A number is read alone in front of a text that does not go on with it. -/
theorem IsNumber.splitNumeral_eq {written rest : Text} (isNumber : IsNumber written)
    (noDigit : Text.Stops Text.isDigit rest)
    (noFraction : isInteger written = true → splitFraction rest = ([], rest))
    (noExponent : hasExponent written = false → splitExponent rest = ([], rest)) :
    splitNumeral (written ++ rest) = .ok (some (written, rest)) := by
  rcases isNumber with ⟨parts, valid, rfl⟩
  have left := valid.splitExponent_eq noDigit
    (fun noPoint noMark => noFraction (valid.isInteger_text noPoint noMark))
    (fun noMark => noExponent (valid.hasExponent_text noMark))
  rw [splitNumeral_of_filled (valid.splitNumber_filled rest)]
  simp only [left, Text.before_left]
  split
  · rename_i isInteger
    rw [Bool.and_eq_true, List.isEmpty_iff, List.isEmpty_iff] at isInteger
    have short := valid.short_of_integer noDigit isInteger.1 isInteger.2
    rw [readInteger, if_neg (Nat.not_lt_of_le short)]
    rfl
  · rfl

/-! ## What is read as a number -/

theorem exists_of_splitSign (text : Text) :
    ∃ sign, IsSign sign ∧ text = sign ++ (splitSign text).2 := by
  fun_cases splitSign text with
  | case1 rest => exact ⟨['-'], .inr (.inr rfl), rfl⟩
  | case2 rest => exact ⟨['+'], .inr (.inl rfl), rfl⟩
  | case3 => exact ⟨[], .inl rfl, rfl⟩

theorem isDigits_takeWhile {text : Text} (starts : ¬ Text.Stops Text.isDigit text) :
    IsDigits (text.takeWhile Text.isDigit) := by
  constructor
  · intro empty
    exact starts (Text.takeWhile_eq_nil_iff.1 empty)
  · exact Text.mem_takeWhile

theorem exists_of_splitFraction (text : Text) :
    ∃ fraction, (fraction = [] ∨ ∃ digits, IsDigits digits ∧ fraction = '.' :: digits) ∧
      (fraction = [] ↔ (splitFraction text).1 = []) ∧
      text = fraction ++ (splitFraction text).2 := by
  fun_cases splitFraction text with
  | case1 digit rest isDigit =>
      have starts : ¬ Text.Stops Text.isDigit (digit :: rest) := by simp [isDigit]
      have digits := isDigits_takeWhile starts
      refine ⟨'.' :: (digit :: rest).takeWhile Text.isDigit, .inr ⟨_, digits, rfl⟩, ?_, ?_⟩
      · simp [digits.nonempty]
      · rw [List.cons_append, List.takeWhile_append_dropWhile]
  | case2 digit rest noDigit => exact ⟨[], .inl rfl, by simp, rfl⟩
  | case3 => exact ⟨[], .inl rfl, by simp, rfl⟩

theorem exists_of_splitExponent (text : Text) :
    ∃ exponent, (exponent = [] ∨ IsExponent exponent) ∧
      (exponent = [] ↔ (splitExponent text).1 = []) ∧
      text = exponent ++ (splitExponent text).2 := by
  fun_cases splitExponent text with
  | case1 => exact ⟨[], .inl rfl, by simp, rfl⟩
  | case2 mark rest digits starts =>
      rcases exists_of_splitSign rest with ⟨sign, isSign, shape⟩
      simp only [Bool.and_eq_true, Bool.or_eq_true, decide_eq_true_eq] at starts
      have notStops : ¬ Text.Stops Text.isDigit digits := by
        intro stops
        rcases first : digits.head? with _ | digit
        · simp [first] at starts
        · simp [first, stops digit first] at starts
      have isDigits := isDigits_takeWhile notStops
      have whole : mark :: rest =
          (mark :: (sign ++ digits.takeWhile Text.isDigit)) ++ digits.dropWhile Text.isDigit := by
        rw [List.cons_append, List.append_assoc, List.takeWhile_append_dropWhile, ← shape]
      refine ⟨_, .inr (.digits starts.1 isSign isDigits), ?_, whole⟩
      rw [whole, Text.before_left]
  | case3 => exact ⟨[], .inl rfl, by simp, rfl⟩

/-- What was read when a number was found. -/
theorem splitNumeral_found {text written rest : Text}
    (read : splitNumeral text = .ok (some (written, rest))) :
    ((splitNumber text).1.whole ≠ [] ∨ (splitNumber text).1.fraction ≠ []) ∧
      rest = (splitExponent (splitNumber text).2).2 ∧ written = Text.before text rest ∧
      ((splitNumber text).1.fraction = [] → (splitExponent (splitNumber text).2).1 = [] →
        (splitNumber text).1.whole.length ≤ NumeralTooLong.limit) := by
  cases filled :
      ((splitNumber text).1.whole.isEmpty && (splitNumber text).1.fraction.isEmpty) with
  | true => simp [splitNumeral, filled] at read
  | false =>
      rw [splitNumeral_of_filled filled] at read
      have digit : (splitNumber text).1.whole ≠ [] ∨ (splitNumber text).1.fraction ≠ [] := by
        rw [Bool.and_eq_false_iff, List.isEmpty_eq_false_iff, List.isEmpty_eq_false_iff] at filled
        exact filled
      refine ⟨digit, ?_⟩
      dsimp only at read
      split at read
      · cases short : readInteger (splitNumber text).1.negative (splitNumber text).1.whole with
        | error failure =>
            rw [short] at read
            cases read
        | ok value =>
            rw [short] at read
            cases read
            refine ⟨rfl, rfl, fun _ _ => ?_⟩
            rw [readInteger] at short
            split at short
            · cases short
            · exact Nat.le_of_not_lt ‹_›
      · rename_i notInteger
        cases read
        refine ⟨rfl, rfl, fun noFraction noExponent => absurd ?_ notInteger⟩
        simp [noFraction, noExponent]

/-- What is read as a number is one. -/
theorem isNumber_of_splitNumeral {text written rest : Text}
    (read : splitNumeral text = .ok (some (written, rest))) : IsNumber written := by
  rcases splitNumeral_found read with ⟨filled, left, before, short⟩
  rcases exists_of_splitSign text with ⟨sign, isSign, signed⟩
  rcases exists_of_splitFraction ((splitSign text).2.dropWhile Text.isDigit) with
    ⟨fraction, isFraction, noFraction, behindWhole⟩
  rcases exists_of_splitExponent (splitNumber text).2 with
    ⟨exponent, isExponent, noExponent, behindFraction⟩
  have behindWhole : (splitSign text).2.dropWhile Text.isDigit =
      fraction ++ (splitNumber text).2 := behindWhole
  have noFraction : fraction = [] ↔ (splitNumber text).1.fraction = [] := noFraction
  have whole : text =
      (sign ++ ((splitNumber text).1.whole ++ (fraction ++ exponent))) ++ rest := by
    calc text = sign ++
            ((splitNumber text).1.whole ++ (splitSign text).2.dropWhile Text.isDigit) := by
          rw [show (splitNumber text).1.whole = (splitSign text).2.takeWhile Text.isDigit from rfl,
            List.takeWhile_append_dropWhile, ← signed]
      _ = sign ++ ((splitNumber text).1.whole ++ (fraction ++ (exponent ++ rest))) := by
          rw [behindWhole, left, ← behindFraction]
      _ = _ := by simp only [List.append_assoc]
  refine ⟨⟨sign, (splitNumber text).1.whole, fraction, exponent⟩, ?_, ?_⟩
  · constructor
    · exact isSign
    · exact Text.mem_takeWhile
    · exact isFraction
    · exact isExponent
    · simpa [noFraction] using filled
    · exact fun noPoint noMark => short (noFraction.1 noPoint) (noExponent.1 noMark)
  · rw [before]
    exact (congrArg (Text.before · rest) whole).trans (Text.before_left _ _)

end CssAuthoring.Component
