import CssAuthoring.Proofs.Component.Number
import CssAuthoring.Proofs.Prelude.Piece

/-!
# Numbers in preludes and what follows them

A number in a prelude has perhaps a sign, digits, and perhaps a point with digits behind it; without
a sign it may begin with the point.  It goes as far as it can, and so does the unit behind it.  The
reader of numbers finds exactly the numbers that stop before what is left.
-/

namespace CssAuthoring.Prelude

open CssAuthoring.Numeric
open Component (IsSign IsDigits)

/-! ## Numbers -/

/-- The text of a number.  A point may begin it, but not behind a sign. -/
inductive Writes : Written → Text → Prop where
  | integer {sign whole : Text} (isSign : IsSign sign) (isDigits : IsDigits whole) :
      Writes ⟨decide (sign = ['-']), whole, []⟩ (sign ++ whole)
  | fraction {sign whole digits : Text} (isSign : IsSign sign) (isDigits : IsDigits whole)
      (behindPoint : IsDigits digits) :
      Writes ⟨decide (sign = ['-']), whole, digits⟩ (sign ++ (whole ++ '.' :: digits))
  | point {digits : Text} (behindPoint : IsDigits digits) :
      Writes ⟨false, [], digits⟩ ('.' :: digits)

/-- A number up to where it stops; a point goes on with an integer if a digit is behind it. -/
structure IsNumber (written : Written) (number after : Text) : Prop where
  writes : Writes written number
  noDigit : Text.Stops Text.isDigit after
  noFraction : written.fraction = [] → ∀ rest, after = '.' :: rest → Text.Stops Text.isDigit rest

theorem splitFraction_of_no_digit {text : Text}
    (noFraction : ∀ rest, text = '.' :: rest → Text.Stops Text.isDigit rest) :
    splitFraction text = ([], text) := by
  fun_cases splitFraction text with
  | case1 digit rest isDigit =>
      have stops := (Text.stops_cons _ _ _).1 (noFraction _ rfl)
      rw [isDigit] at stops
      contradiction
  | case2 => rfl
  | case3 => rfl

/-- A number is read up to where it stops. -/
theorem IsNumber.split {written : Written} {number after : Text}
    (isNumber : IsNumber written number after) :
    splitNumber (number ++ after) = (written, after) := by
  rcases isNumber with ⟨writes, noDigit, noFraction⟩
  have point (text : Text) : Text.Stops Text.isDigit ('.' :: text ++ after) :=
    (Text.stops_cons _ _ _).2 (by decide)
  cases writes with
  | @integer sign whole isSign isDigits =>
      have split := Component.splitSign_append_of_isSign isSign (isDigits.stops after)
      rw [List.append_assoc, splitNumber_eq, split]
      dsimp only
      rw [Text.takeWhile_run isDigits.digits noDigit, Text.dropWhile_run isDigits.digits noDigit,
        splitFraction_of_no_digit (noFraction rfl)]
  | @fraction sign whole digits isSign isDigits behindPoint =>
      have split := Component.splitSign_append_of_isSign isSign
        (isDigits.stops ('.' :: digits ++ after))
      have shape : sign ++ (whole ++ '.' :: digits) ++ after =
          sign ++ (whole ++ ('.' :: digits ++ after)) := by simp
      rw [shape, splitNumber_eq, split]
      dsimp only
      rw [Text.takeWhile_run isDigits.digits (point _),
        Text.dropWhile_run isDigits.digits (point _), Component.splitFraction_point behindPoint,
        Text.takeWhile_of_stops noDigit, Text.dropWhile_of_stops noDigit, List.append_nil]
  | @point digits behindPoint =>
      have unsigned : splitSign ('.' :: digits ++ after) = (false, '.' :: digits ++ after) := rfl
      rw [splitNumber_eq, unsigned]
      dsimp only
      rw [Text.takeWhile_of_stops (point _), Text.dropWhile_of_stops (point _),
        Component.splitFraction_point behindPoint, Text.takeWhile_of_stops noDigit,
        Text.dropWhile_of_stops noDigit, List.append_nil]

/-- Digits behind a sign, or none, are a number with the fraction that is read behind them. -/
theorem exists_isNumber_of_digits {sign text : Text} (isSign : IsSign sign)
    (starts : ¬ Text.Stops Text.isDigit text) :
    ∃ number, sign ++ text = number ++ (splitFraction (text.dropWhile Text.isDigit)).2 ∧
      IsNumber ⟨decide (sign = ['-']), text.takeWhile Text.isDigit,
          (splitFraction (text.dropWhile Text.isDigit)).1⟩
        number (splitFraction (text.dropWhile Text.isDigit)).2 := by
  have isDigits := Component.isDigits_takeWhile starts
  have noDigit := Text.stops_dropWhile Text.isDigit text
  have shape : sign ++ text =
      sign ++ (text.takeWhile Text.isDigit ++ text.dropWhile Text.isDigit) := by
    rw [List.takeWhile_append_dropWhile]
  rw [shape]
  clear shape starts
  generalize text.takeWhile Text.isDigit = whole at *
  generalize text.dropWhile Text.isDigit = behind at *
  fun_cases splitFraction behind with
  | case1 digit rest isDigit =>
      have behindPoint : IsDigits ((digit :: rest).takeWhile Text.isDigit) :=
        Component.isDigits_takeWhile (by simp [isDigit])
      refine ⟨sign ++ (whole ++ '.' :: (digit :: rest).takeWhile Text.isDigit), ?_, ?_⟩
      · simp
      · exact ⟨.fraction isSign isDigits behindPoint, Text.stops_dropWhile _ _,
          fun empty => absurd empty behindPoint.nonempty⟩
  | case2 digit rest isOther =>
      refine ⟨sign ++ whole, (List.append_assoc ..).symm, ?_, noDigit, ?_⟩
      · exact .integer isSign isDigits
      · intro _ more same
        rw [← (List.cons.inj same).2]
        exact (Text.stops_cons _ _ _).2 (by simpa using isOther)
  | case3 =>
      rename_i noPoint
      refine ⟨sign ++ whole, (List.append_assoc ..).symm, ?_, noDigit, ?_⟩
      · exact .integer isSign isDigits
      · intro _ rest same
        cases rest with
        | nil => exact Text.stops_nil _
        | cons digit more => exact (noPoint digit more same).elim

/-- Where a number starts, it is read up to where it stops. -/
theorem exists_isNumber {character : Char} {rest : Text}
    (starts : startsNumber character rest = true) :
    ∃ number, character :: rest = number ++ (splitNumber (character :: rest)).2 ∧
      IsNumber (splitNumber (character :: rest)).1 number (splitNumber (character :: rest)).2 := by
  rw [startsNumber_iff] at starts
  rcases starts with isDigit | ⟨rfl | rfl | rfl, behind⟩
  · have noSign : IsSign [] := .inl rfl
    have unsigned : splitSign (character :: rest) = (false, character :: rest) :=
      Component.splitSign_append_of_isSign noSign
        ((Text.stops_cons _ _ _).2 (Component.not_isSignCharacter_of_isDigit isDigit))
    have starts : ¬ Text.Stops Text.isDigit (character :: rest) := by simp [isDigit]
    have found := exists_isNumber_of_digits noSign starts
    rw [splitNumber_eq, unsigned]
    exact found
  · exact exists_isNumber_of_digits (.inr (.inr rfl)) behind
  · exact exists_isNumber_of_digits (.inr (.inl rfl)) behind
  · -- The point begins the number: the digits before it are none, and those behind it are there.
    have isDigits := Component.isDigits_takeWhile behind
    have split := Component.splitFraction_point isDigits (rest.dropWhile Text.isDigit)
    have noDigit := Text.stops_dropWhile Text.isDigit rest
    rw [List.cons_append, List.takeWhile_append_dropWhile, Text.takeWhile_of_stops noDigit,
      Text.dropWhile_of_stops noDigit, List.append_nil] at split
    have whole : splitNumber ('.' :: rest) =
        (⟨false, [], rest.takeWhile Text.isDigit⟩, rest.dropWhile Text.isDigit) := by
      have unsigned : splitSign ('.' :: rest) = (false, '.' :: rest) := rfl
      have point : Text.Stops Text.isDigit ('.' :: rest) := (Text.stops_cons _ _ _).2 (by decide)
      rw [splitNumber_eq, unsigned]
      dsimp only
      rw [Text.takeWhile_of_stops point, Text.dropWhile_of_stops point, split]
    rw [whole]
    refine ⟨'.' :: rest.takeWhile Text.isDigit, by simp, .point isDigits, noDigit, ?_⟩
    exact fun empty => absurd empty isDigits.nonempty

/-- The text of a number starts a number, whatever follows it. -/
theorem Writes.starts {written : Written} {number : Text} (writes : Writes written number)
    (after : Text) :
    ∃ character rest, number ++ after = character :: rest ∧
      startsNumber character rest = true := by
  have notStops {digits : Text} (isDigits : IsDigits digits) (rest : Text) :
      ¬ Text.Stops Text.isDigit (digits ++ rest) := by
    rcases List.exists_cons_of_ne_nil isDigits.nonempty with ⟨first, more, rfl⟩
    simp [isDigits.digits first List.mem_cons_self]
  have signed {sign digits : Text} (isSign : IsSign sign) (isDigits : IsDigits digits)
      (rest : Text) :
      ∃ character more, sign ++ (digits ++ rest) = character :: more ∧
        startsNumber character more = true := by
    rcases isSign with rfl | rfl | rfl
    · rcases List.exists_cons_of_ne_nil isDigits.nonempty with ⟨first, more, rfl⟩
      exact ⟨first, more ++ rest, rfl,
        (startsNumber_iff _ _).2 (.inl (isDigits.digits first List.mem_cons_self))⟩
    · exact ⟨'+', digits ++ rest, rfl,
        (startsNumber_iff _ _).2 (.inr ⟨by simp, notStops isDigits rest⟩)⟩
    · exact ⟨'-', digits ++ rest, rfl,
        (startsNumber_iff _ _).2 (.inr ⟨by simp, notStops isDigits rest⟩)⟩
  cases writes with
  | integer isSign isDigits =>
      rw [List.append_assoc]
      exact signed isSign isDigits after
  | fraction isSign isDigits behindPoint =>
      rw [List.append_assoc, List.append_assoc]
      exact signed isSign isDigits _
  | point behindPoint =>
      exact ⟨'.', _, rfl, (startsNumber_iff _ _).2 (.inr ⟨by simp, notStops behindPoint after⟩)⟩

/-! ## Integers that are too long -/

/-- An integer of more digits than can be read. -/
inductive TooLong : Text → NumeralTooLong → Prop where
  | integer {sign digits after : Text} (isSign : IsSign sign) (isDigits : IsDigits digits)
      (noDigit : Text.Stops Text.isDigit after)
      (noFraction : ∀ rest, after = '.' :: rest → Text.Stops Text.isDigit rest)
      (long : NumeralTooLong.limit < digits.length) :
      TooLong (sign ++ digits ++ after) ⟨digits.length⟩

/-- A number without a value is an integer that is too long. -/
theorem IsNumber.tooLong {written : Written} {number after : Text} {failure : NumeralTooLong}
    (isNumber : IsNumber written number after) (noValue : written.value = .error failure) :
    TooLong (number ++ after) failure := by
  rcases isNumber with ⟨writes, noDigit, noFraction⟩
  cases writes with
  | integer isSign isDigits =>
      simp only [Written.value, List.isEmpty_nil, if_true, readInteger] at noValue
      split at noValue
      · rename_i long
        cases noValue
        exact .integer isSign isDigits noDigit (noFraction rfl) long
      · cases noValue
  | fraction isSign isDigits behindPoint => simp [Written.value, behindPoint.nonempty] at noValue
  | point behindPoint => simp [Written.value, behindPoint.nonempty] at noValue

/-- An integer that is too long has no value. -/
theorem TooLong.exists_isNumber {text : Text} {failure : NumeralTooLong}
    (tooLong : TooLong text failure) :
    ∃ written number after, text = number ++ after ∧ IsNumber written number after ∧
      written.value = .error failure := by
  cases tooLong with
  | @integer sign digits after isSign isDigits noDigit noFraction long =>
      refine ⟨⟨decide (sign = ['-']), digits, []⟩, sign ++ digits, after, rfl, ?_, ?_⟩
      · exact ⟨.integer isSign isDigits, noDigit, fun _ => noFraction⟩
      · simp [Written.value, readInteger, long, Except.map]

/-! ## Percent signs and units -/

/-- Identifier characters up to where they stop. -/
structure Longest (run after : Text) : Prop where
  stays : ∀ character ∈ run, isIdentifierCharacter character = true
  stops : Text.Stops isIdentifierCharacter after

/-- What may begin an identifier is part of its run. -/
theorem takeWhile_of_startsIdentifier {character : Char}
    (starts : startsIdentifier character = true) (rest : Text) :
    (character :: rest).takeWhile isIdentifierCharacter =
      character :: rest.takeWhile isIdentifierCharacter :=
  List.takeWhile_cons_of_pos (Bool.or_eq_true_iff.2 (.inl starts))

/-- Whether a character directly behind a number belongs to it as a percent sign or a unit. -/
def startsMeasure (character : Char) : Bool :=
  character = '%' || startsIdentifier character

/-- What stands behind the digits of a number: nothing, a percent sign or the longest unit. -/
inductive IsMeasure : Measure → Text → Text → Prop where
  | none {after : Text} (alone : Text.Stops startsMeasure after) : IsMeasure .none [] after
  | percent {after : Text} : IsMeasure .percent ['%'] after
  | unit {first : Char} {more after : Text} (starts : startsIdentifier first = true)
      (longest : Longest (first :: more) after) :
      IsMeasure (.unit (first :: more)) (first :: more) after

/-- A percent sign or unit is read up to where it stops. -/
theorem IsMeasure.split {measure : Measure} {unit after : Text}
    (isMeasure : IsMeasure measure unit after) :
    splitMeasure (unit ++ after) = (measure, after) := by
  cases isMeasure with
  | none alone =>
      cases after with
      | nil => rfl
      | cons character rest =>
          rw [Text.stops_cons, startsMeasure, Bool.or_eq_false_iff, decide_eq_false_iff_not]
            at alone
          rw [List.nil_append, splitMeasure, if_neg alone.1, if_neg (by simp [alone.2])]
  | percent => rfl
  | @unit first more _ starts longest =>
      have notPercent : first ≠ '%' := by
        rintro rfl
        exact absurd starts (by decide)
      rw [List.cons_append, splitMeasure, if_neg notPercent, if_pos starts, ← List.cons_append,
        Text.takeWhile_run longest.stays longest.stops,
        Text.dropWhile_run longest.stays longest.stops]

theorem exists_isMeasure (text : Text) :
    ∃ unit, text = unit ++ (splitMeasure text).2 ∧
      IsMeasure (splitMeasure text).1 unit (splitMeasure text).2 := by
  fun_cases splitMeasure text with
  | case1 => exact ⟨[], rfl, .none (Text.stops_nil _)⟩
  | case2 rest => exact ⟨['%'], rfl, .percent⟩
  | case3 character rest notPercent starts =>
      refine ⟨(character :: rest).takeWhile isIdentifierCharacter, by simp, ?_⟩
      have longest : Longest ((character :: rest).takeWhile isIdentifierCharacter)
          ((character :: rest).dropWhile isIdentifierCharacter) :=
        ⟨Text.mem_takeWhile, Text.stops_dropWhile _ _⟩
      rw [takeWhile_of_startsIdentifier starts] at longest ⊢
      exact .unit starts longest
  | case4 character rest notPercent noName =>
      refine ⟨[], rfl, .none ((Text.stops_cons _ _ _).2 ?_)⟩
      simp [startsMeasure, notPercent, noName]

end CssAuthoring.Prelude
