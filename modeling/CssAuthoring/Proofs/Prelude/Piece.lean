import CssAuthoring.Proofs.Text.Trim
import CssAuthoring.Prelude.Scan

/-!
# Pieces of preludes in another place

Numbers, units, strings and arguments are read as before when other text stands behind them, as
long as that text does not go on with them.  In a written prelude there is a space or nothing behind
every token, which goes on with none of these pieces but with strings and arguments that have no
end.
-/

namespace CssAuthoring.Prelude

open CssAuthoring.Numeric

/-- Nothing, or text that begins with a space. -/
def Separated (text : Text) : Prop :=
  ∀ character ∈ text.head?, character = ' '

theorem separated_nil : Separated [] := by
  intro character member
  cases member

theorem separated_space (text : Text) : Separated (' ' :: text) := by
  intro character member
  cases member
  rfl

/-- A run of characters other than spaces stops before separated text. -/
theorem Separated.stops {isKind : Char → Bool} {text : Text} (separated : Separated text)
    (noSpace : isKind ' ' = false) : Text.Stops isKind text := by
  intro character member
  rw [separated character member]
  exact noSpace

/-! ## Numbers -/

/-- Whether a character could go on with a number. -/
def extendsNumber (character : Char) : Bool :=
  Text.isDigit character || character = '.'

theorem not_isDigit_of_stops {text : Text} (stops : Text.Stops extendsNumber text) :
    Text.Stops Text.isDigit text :=
  stops.of_imp fun character digit => by simp [extendsNumber, digit]

theorem splitFraction_of_stops {text : Text} (stops : Text.Stops extendsNumber text) :
    splitFraction text = ([], text) := by
  simp only [splitFraction]
  split
  · rw [Text.stops_cons] at stops
    exact absurd stops (by decide)
  · rfl

/-- A fraction is read alike before any text that could not go on with it. -/
theorem splitFraction_append (text : Text) :
    ∃ written, text = written ++ (splitFraction text).2 ∧
      ∀ other, Text.Stops extendsNumber other →
        Text.Stops Text.isDigit (written ++ other) ∧
          splitFraction (written ++ other) = ((splitFraction text).1, other) := by
  fun_cases splitFraction text with
  | case1 digit rest isDigit =>
      refine ⟨'.' :: (digit :: rest).takeWhile Text.isDigit, by simp, ?_⟩
      intro other stops
      refine ⟨(Text.stops_cons _ _ _).2 (by decide), ?_⟩
      have digits : (digit :: rest).takeWhile Text.isDigit =
          digit :: rest.takeWhile Text.isDigit := by simp [isDigit]
      have stopsDigit := not_isDigit_of_stops stops
      rw [digits, List.cons_append, List.cons_append, splitFraction, if_pos isDigit,
        ← List.cons_append, ← digits, Text.takeWhile_run Text.mem_takeWhile stopsDigit,
        Text.dropWhile_run Text.mem_takeWhile stopsDigit]
  | case2 digit rest noDigit =>
      refine ⟨[], rfl, ?_⟩
      intro other stops
      exact ⟨not_isDigit_of_stops stops, splitFraction_of_stops stops⟩
  | case3 noPoint =>
      refine ⟨[], rfl, ?_⟩
      intro other stops
      exact ⟨not_isDigit_of_stops stops, splitFraction_of_stops stops⟩

/-- Digits with a fraction are read alike before any text that could not go on with them. -/
theorem splitUnsigned_append (text : Text) :
    ∃ written, text = written ++ (splitFraction (text.dropWhile Text.isDigit)).2 ∧
      ∀ other, Text.Stops extendsNumber other →
        (written ++ other).takeWhile Text.isDigit = text.takeWhile Text.isDigit ∧
          splitFraction ((written ++ other).dropWhile Text.isDigit) =
            ((splitFraction (text.dropWhile Text.isDigit)).1, other) := by
  rcases splitFraction_append (text.dropWhile Text.isDigit) with ⟨fraction, split, again⟩
  refine ⟨text.takeWhile Text.isDigit ++ fraction, ?_, ?_⟩
  · rw [List.append_assoc, ← split, List.takeWhile_append_dropWhile]
  · intro other stops
    rcases again other stops with ⟨stopsDigit, same⟩
    rw [List.append_assoc, Text.takeWhile_run Text.mem_takeWhile stopsDigit,
      Text.dropWhile_run Text.mem_takeWhile stopsDigit]
    exact ⟨rfl, same⟩

theorem splitNumber_eq (text : Text) :
    splitNumber text =
      (⟨(splitSign text).1, (splitSign text).2.takeWhile Text.isDigit,
          (splitFraction ((splitSign text).2.dropWhile Text.isDigit)).1⟩,
        (splitFraction ((splitSign text).2.dropWhile Text.isDigit)).2) := rfl

theorem startsNumber_iff (character : Char) (rest : Text) :
    startsNumber character rest = true ↔
      Text.isDigit character = true ∨
        (character = '-' ∨ character = '+' ∨ character = '.') ∧
          ¬ Text.Stops Text.isDigit rest := by
  cases rest with
  | nil => simp [startsNumber, Text.stops_nil]
  | cons next more => simp [startsNumber, or_assoc]

/-- There is a fraction behind a point exactly if a digit stands there. -/
theorem splitFraction_point (text : Text) :
    (splitFraction ('.' :: text)).1 = [] ↔ Text.Stops Text.isDigit text := by
  cases text with
  | nil => simp [splitFraction, Text.stops_nil]
  | cons digit rest =>
      by_cases isDigit : Text.isDigit digit = true <;> simp [splitFraction, isDigit]

/-- The number that a text begins with is read alike before any text that cannot go on with it. -/
def KeepsNumber (character : Char) (rest : Text) : Prop :=
  ∃ written, character :: rest = character :: written ++ (splitNumber (character :: rest)).2 ∧
    ∀ other, Text.Stops extendsNumber other →
      startsNumber character (written ++ other) = true ∧
        splitNumber (character :: (written ++ other)) = ((splitNumber (character :: rest)).1, other)

theorem keepsNumber_of_sign {character : Char} {rest : Text}
    (sign : character = '-' ∨ character = '+') (starts : startsNumber character rest = true) :
    KeepsNumber character rest := by
  have unsigned (text : Text) : (splitSign (character :: text)).2 = text := by
    rcases sign with rfl | rfl <;> rfl
  have signed (text : Text) : (splitSign (character :: text)).1 = decide (character = '-') := by
    rcases sign with rfl | rfl <;> rfl
  rcases splitUnsigned_append rest with ⟨written, split, again⟩
  refine ⟨written, ?_, ?_⟩
  · rw [splitNumber_eq, unsigned, List.cons_append, ← split]
  · intro other stops
    rcases again other stops with ⟨whole, fraction⟩
    constructor
    · rw [startsNumber_iff] at starts ⊢
      rwa [← Text.takeWhile_eq_nil_iff, whole, Text.takeWhile_eq_nil_iff]
    · rw [splitNumber_eq, splitNumber_eq]
      simp only [unsigned, signed, whole, fraction]

/-- A number without a sign begins with a digit, or with a point that digits follow. -/
theorem startsNumber_of_splitFraction {character : Char} {rest other : Text}
    (noSign : ¬ (character = '-' ∨ character = '+')) (starts : startsNumber character rest = true)
    (same : (splitFraction ((character :: other).dropWhile Text.isDigit)).1 =
      (splitFraction ((character :: rest).dropWhile Text.isDigit)).1) :
    startsNumber character other = true := by
  rw [startsNumber_iff] at starts ⊢
  by_cases digit : Text.isDigit character = true
  · exact .inl digit
  · rcases starts.resolve_left digit with ⟨signs, behind⟩
    have point : character = '.' := by
      rcases signs with minus | plus | point
      · exact absurd (.inl minus) noSign
      · exact absurd (.inr plus) noSign
      · exact point
    subst point
    have noDigit (text : Text) :
        List.dropWhile Text.isDigit ('.' :: text) = '.' :: text := rfl
    rw [noDigit, noDigit] at same
    refine .inr ⟨signs, ?_⟩
    rw [← splitFraction_point, same, splitFraction_point]
    exact behind

theorem keepsNumber_of_no_sign {character : Char} {rest : Text}
    (noSign : ¬ (character = '-' ∨ character = '+')) (starts : startsNumber character rest = true) :
    KeepsNumber character rest := by
  have unsigned (text : Text) : splitSign (character :: text) = (false, character :: text) := by
    simp only [splitSign]
    split <;> simp_all
  have shorter := Prelude.splitNumber_shorter character rest starts
  have left : (splitNumber (character :: rest)).2 =
      (splitFraction ((character :: rest).dropWhile Text.isDigit)).2 := by
    rw [splitNumber_eq, unsigned]
  rcases splitUnsigned_append (character :: rest) with ⟨number, split, again⟩
  rw [← left] at split
  cases number with
  | nil =>
      -- A number takes at least one character.
      have length := congrArg List.length split
      simp only [List.nil_append, List.length_cons] at length
      omega
  | cons first written =>
      rcases List.cons.inj split with ⟨rfl, tail⟩
      refine ⟨written, split, ?_⟩
      intro other stops
      rcases again other stops with ⟨whole, fraction⟩
      constructor
      · apply startsNumber_of_splitFraction noSign starts
        rw [← List.cons_append, fraction]
      · rw [splitNumber_eq, splitNumber_eq]
        simp only [unsigned]
        rw [← List.cons_append, whole, fraction]

theorem keepsNumber {character : Char} {rest : Text} (starts : startsNumber character rest = true) :
    KeepsNumber character rest := by
  by_cases sign : character = '-' ∨ character = '+'
  · exact keepsNumber_of_sign sign starts
  · exact keepsNumber_of_no_sign sign starts

theorem not_extendsNumber_of_startsIdentifier {character : Char}
    (starts : startsIdentifier character = true) : extendsNumber character = false := by
  rw [Bool.eq_false_iff]
  intro extend
  simp only [extendsNumber, Text.isDigit, Bool.or_eq_true, Bool.and_eq_true,
    decide_eq_true_eq] at extend
  rcases extend with ⟨low, high⟩ | rfl
  · simp only [startsIdentifier, Bool.or_eq_true, Bool.and_eq_true, decide_eq_true_eq,
      Char.le_def, UInt32.le_iff_toNat_le] at starts low high
    rcases starts with ((⟨letter, _⟩ | ⟨letter, _⟩) | rfl) | rfl
    · have gap := Nat.le_trans letter high
      exact absurd gap (by decide)
    · have gap := Nat.le_trans letter high
      exact absurd gap (by decide)
    · exact absurd low (by decide)
    · exact absurd high (by decide)
  · exact absurd starts (by decide)

/-- A percent sign or unit is read alike before separated text, and goes on with no number. -/
theorem splitMeasure_append (text : Text) :
    ∃ written, text = written ++ (splitMeasure text).2 ∧
      ∀ tail, Separated tail →
        Text.Stops extendsNumber (written ++ tail) ∧
          splitMeasure (written ++ tail) = ((splitMeasure text).1, tail) := by
  have nothing {tail : Text} (separated : Separated tail) : splitMeasure tail = (.none, tail) := by
    cases tail with
    | nil => rfl
    | cons character rest =>
        have space := separated character rfl
        subst space
        rfl
  fun_cases splitMeasure text with
  | case1 =>
      refine ⟨[], rfl, ?_⟩
      intro tail separated
      exact ⟨separated.stops (by decide), nothing separated⟩
  | case2 rest =>
      refine ⟨['%'], rfl, ?_⟩
      intro tail _
      exact ⟨(Text.stops_cons _ _ _).2 (by decide), rfl⟩
  | case3 character rest notPercent starts =>
      have stays : isIdentifierCharacter character = true := by
        simp [isIdentifierCharacter, starts]
      have unit : (character :: rest).takeWhile isIdentifierCharacter =
          character :: rest.takeWhile isIdentifierCharacter := by simp [stays]
      refine ⟨(character :: rest).takeWhile isIdentifierCharacter, by simp, ?_⟩
      intro tail separated
      have stops : Text.Stops isIdentifierCharacter tail := separated.stops (by decide)
      constructor
      · rw [unit, List.cons_append, Text.stops_cons]
        exact not_extendsNumber_of_startsIdentifier starts
      · rw [unit, List.cons_append, splitMeasure, if_neg notPercent, if_pos starts,
          ← List.cons_append, ← unit, Text.takeWhile_run Text.mem_takeWhile stops,
          Text.dropWhile_run Text.mem_takeWhile stops]
  | case4 character rest notPercent noName =>
      refine ⟨[], rfl, ?_⟩
      intro tail separated
      exact ⟨separated.stops (by decide), nothing separated⟩

/-! ## Strings -/

theorem splitString_plain {quote character : Char} (notEscape : character ≠ '\\') (rest : Text) :
    splitString quote (character :: rest) =
      if character = quote then ([character], rest)
      else (character :: (splitString quote rest).1, (splitString quote rest).2) := by
  rw [splitString]
  intro escaped more escape
  exact absurd escape notEscape

/-- A string is read alike before any text, unless it has no end. -/
theorem splitString_append_tail {quote : Char} (notEscape : quote ≠ '\\') {text tail : Text}
    (ends : (splitString quote text).2 = [] → tail = []) :
    splitString quote ((splitString quote text).1 ++ tail) =
      ((splitString quote text).1, tail) := by
  fun_induction splitString quote text with
  | case1 escaped rest hypothesis => simp [splitString, hypothesis ends]
  | case2 rest notPair => exact (splitString_plain notEscape tail).trans (if_pos rfl)
  | case3 character rest notPair notQuote hypothesis =>
      by_cases escape : character = '\\'
      · subst escape
        cases rest with
        | nil =>
            have nothing : tail = [] := ends rfl
            subst nothing
            simp [splitString, notQuote]
        | cons escaped more => exact absurd rfl (notPair escaped more rfl)
      · rw [List.cons_append, splitString_plain escape, if_neg notQuote, hypothesis ends]
  | case4 =>
      have nothing : tail = [] := ends rfl
      subst nothing
      rfl

/-! ## Arguments -/

/-- Only a closing parenthesis ends an argument, outside of strings and other parentheses. -/
theorem advance_eq_none {depth : Nat} {quoting : Quoting} {character : Char}
    (stop : advance depth quoting character = none) :
    depth = 0 ∧ quoting = .outside ∧ character = ')' := by
  unfold advance at stop
  split at stop
  · contradiction
  · split at stop
    · contradiction
    · split at stop <;> contradiction
  · split at stop
    · contradiction
    · split at stop
      · contradiction
      · split at stop
        · split at stop
          · exact ⟨rfl, rfl, ‹_›⟩
          · contradiction
        · contradiction

/-- A closed argument is read alike before any text. -/
theorem readArgument_closed {depth : Nat} {quoting : Quoting} {text argument after : Text}
    (read : readArgument depth quoting text = (argument, .closed, after)) (tail : Text) :
    readArgument depth quoting (argument ++ ')' :: tail) = (argument, .closed, tail) := by
  induction text generalizing depth quoting argument with
  | nil => cases read
  | cons character rest hypothesis =>
      unfold readArgument at read
      cases step : advance depth quoting character with
      | none =>
          rcases advance_eq_none step with ⟨rfl, rfl, rfl⟩
          rw [step] at read
          cases read
          rfl
      | some next =>
          rcases next with ⟨depth', quoting'⟩
          rw [step] at read
          rcases Prod.mk.inj read with ⟨rfl, closing⟩
          have inner := hypothesis (Prod.ext rfl closing)
          rw [List.cons_append, readArgument, step]
          dsimp only
          rw [inner]

/-- An argument without an end goes on with the text behind it. -/
theorem readArgument_unclosed {depth depth' : Nat} {quoting quoting' : Quoting}
    {text argument after : Text}
    (read : readArgument depth quoting text = (argument, .unclosed depth' quoting', after))
    (tail : Text) :
    after = [] ∧ readArgument depth quoting (argument ++ tail) =
      (argument ++ (readArgument depth' quoting' tail).1,
        (readArgument depth' quoting' tail).2) := by
  induction text generalizing depth quoting argument with
  | nil =>
      cases read
      exact ⟨rfl, rfl⟩
  | cons character rest hypothesis =>
      unfold readArgument at read
      cases step : advance depth quoting character with
      | none =>
          rw [step] at read
          cases read
      | some next =>
          rcases next with ⟨depth', quoting'⟩
          rw [step] at read
          rcases Prod.mk.inj read with ⟨rfl, closing⟩
          rcases hypothesis (Prod.ext rfl closing) with ⟨ended, inner⟩
          refine ⟨ended, ?_⟩
          rw [List.cons_append, readArgument, step]
          dsimp only
          rw [inner, List.cons_append]

end CssAuthoring.Prelude
