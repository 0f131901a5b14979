import CssAuthoring.Proofs.Text.Collapse

/-!
# Squeezed text

Squeezing a text makes every run of gaps in it a single space and drops the run at its end.  It is
what collapsing does behind the blank space at the start, but it goes from character to character,
and which characters are gaps can be chosen.  A scanner for characters that are no gaps takes the
same run from a text and from its squeezed form, and what it leaves is squeezed.

Main statements: `takeWhile_squeeze` and `dropWhile_squeeze`, runs in squeezed text;
`collapse_eq_squeeze`, collapsing is squeezing what begins with a character that is not blank.
-/

namespace CssAuthoring.Text

/-- A squeezed text behind a gap. -/
def behindGap (isGap : Char → Bool) : Text → Text
  | [] => []
  | next :: more => if isGap next then next :: more else ' ' :: next :: more

/-- A text with every run of gaps made a single space, and none at its end. -/
def squeeze (isGap : Char → Bool) : Text → Text
  | [] => []
  | character :: rest =>
    if isGap character then behindGap isGap (squeeze isGap rest)
    else character :: squeeze isGap rest

example : squeeze isBlank " a \n b ".toList = " a b".toList := by decide

/-! ## Gaps and other characters -/

section

variable {isGap : Char → Bool}

theorem squeeze_gap {character : Char} (gap : isGap character = true) (rest : Text) :
    squeeze isGap (character :: rest) = behindGap isGap (squeeze isGap rest) := by
  rw [squeeze, if_pos gap]

theorem squeeze_solid {character : Char} (solid : isGap character = false) (rest : Text) :
    squeeze isGap (character :: rest) = character :: squeeze isGap rest := by
  rw [squeeze, if_neg (by simp [solid])]

/-- A text that begins with no gap begins with none when it is squeezed. -/
theorem Stops.squeeze {text : Text} (stops : Stops isGap text) :
    Stops isGap (squeeze isGap text) := by
  cases text with
  | nil => exact stops
  | cons character rest =>
      rw [stops_cons] at stops
      rwa [squeeze_solid stops, stops_cons]

/-- A gap in front of another character is a single space. -/
theorem squeeze_gap_solid {gap character : Char} (isFirst : isGap gap = true)
    (solid : isGap character = false) (rest : Text) :
    squeeze isGap (gap :: character :: rest) = ' ' :: squeeze isGap (character :: rest) := by
  rw [squeeze_gap isFirst, squeeze_solid solid, behindGap, if_neg (by simp [solid])]

/-- Characters that are no gaps stay in front of what is squeezed. -/
theorem squeeze_append {front : Text} (solid : ∀ character ∈ front, isGap character = false)
    (rest : Text) : squeeze isGap (front ++ rest) = front ++ squeeze isGap rest := by
  induction front with
  | nil => rfl
  | cons character front hypothesis =>
      rw [List.forall_mem_cons] at solid
      rw [List.cons_append, squeeze_solid solid.1, hypothesis solid.2, List.cons_append]

theorem before_squeeze {front : Text} (solid : ∀ character ∈ front, isGap character = false)
    (rest : Text) : before (squeeze isGap (front ++ rest)) (squeeze isGap rest) = front := by
  rw [squeeze_append solid, before_left]

/-- Behind a gap stands a text as it is, or with a space in front. -/
theorem behindGap_eq (text : Text) :
    behindGap isGap text = text ∨
      Stops isGap text ∧ behindGap isGap text = ' ' :: text := by
  cases text with
  | nil => exact .inl rfl
  | cons next more =>
      by_cases gap : isGap next = true
      · exact .inl (if_pos gap)
      · exact .inr ⟨(stops_cons _ _ _).2 (Bool.eq_false_iff.2 gap), if_neg gap⟩

/-- Every character of a squeezed text is one of the text that is no gap, or a space. -/
theorem mem_squeeze {text : Text} {character : Char} (member : character ∈ squeeze isGap text) :
    (character ∈ text ∧ isGap character = false) ∨ character = ' ' := by
  induction text with
  | nil => cases member
  | cons first rest hypothesis =>
      have inRest (member : character ∈ squeeze isGap rest) :
          (character ∈ first :: rest ∧ isGap character = false) ∨ character = ' ' :=
        (hypothesis member).imp_left (.imp_left (List.mem_cons_of_mem _))
      by_cases gap : isGap first = true
      · rw [squeeze_gap gap] at member
        rcases behindGap_eq (squeeze isGap rest) with same | ⟨_, same⟩
        · rw [same] at member
          exact inRest member
        · rw [same, List.mem_cons] at member
          exact member.elim .inr inRest
      · rw [Bool.not_eq_true] at gap
        rw [squeeze_solid gap, List.mem_cons] at member
        rcases member with rfl | member
        · exact .inl ⟨List.mem_cons_self, gap⟩
        · exact inRest member

theorem length_squeeze_le (text : Text) : (squeeze isGap text).length ≤ text.length := by
  induction text with
  | nil => exact Nat.le_refl 0
  | cons character rest hypothesis =>
      by_cases gap : isGap character = true
      · rw [squeeze_gap gap]
        rcases behindGap_eq (squeeze isGap rest) with same | ⟨_, same⟩ <;>
        · rw [same]
          simp only [List.length_cons]
          omega
      · rw [squeeze_solid (Bool.eq_false_iff.2 gap)]
        exact Nat.succ_le_succ hypothesis

/-- What is left behind counted characters of some kind is squeezed. -/
theorem drop_takeWhile_take_squeeze {isKind : Char → Bool}
    (solid : ∀ character, isKind character = true → isGap character = false) (count : Nat)
    (text : Text) :
    (squeeze isGap text).drop ((text.take count).takeWhile isKind).length =
      squeeze isGap (text.drop ((text.take count).takeWhile isKind).length) := by
  have taken : (text.take count).takeWhile isKind <+: text :=
    (List.takeWhile_prefix isKind).trans (List.take_prefix count text)
  rcases taken with ⟨rest, shape⟩
  generalize counted : (text.take count).takeWhile isKind = run at shape ⊢
  have inKind : ∀ character ∈ run, isGap character = false := by
    intro character member
    rw [← counted] at member
    exact solid character (mem_takeWhile character member)
  rw [← shape, squeeze_append inKind, List.drop_left, List.drop_left]

end

section

variable {isGap : Char → Bool} (space : isGap ' ' = true)

include space

/-- Behind a gap there is nothing, or there is a gap. -/
theorem behindGap_head (text : Text) :
    ∀ character ∈ (behindGap isGap text).head?, isGap character = true := by
  cases text with
  | nil => simp [behindGap]
  | cons next more =>
      by_cases gap : isGap next = true
      · simp [behindGap, gap]
      · simp [behindGap, gap, space]

/-- A gap in front of another is left out. -/
theorem squeeze_gap_gap {first second : Char} (isFirst : isGap first = true)
    (isSecond : isGap second = true) (rest : Text) :
    squeeze isGap (first :: second :: rest) = squeeze isGap (second :: rest) := by
  have head := behindGap_head space (squeeze isGap rest)
  rw [squeeze_gap isFirst, squeeze_gap isSecond]
  cases shape : behindGap isGap (squeeze isGap rest) with
  | nil => rfl
  | cons next more =>
      rw [shape] at head
      rw [behindGap, if_pos (head next rfl)]

/-- A squeezed text that begins with a gap is empty or begins with a space. -/
theorem squeeze_gap_cases {character : Char} (gap : isGap character = true) (rest : Text) :
    squeeze isGap (character :: rest) = [] ∨
      ∃ more, squeeze isGap (character :: rest) = ' ' :: more := by
  have head := behindGap_head space (squeeze isGap rest)
  rw [← squeeze_gap gap] at head
  cases shape : squeeze isGap (character :: rest) with
  | nil => exact .inl rfl
  | cons next more =>
      rw [shape] at head
      have member : next ∈ squeeze isGap (character :: rest) := shape ▸ List.mem_cons_self
      rcases mem_squeeze member with ⟨_, solid⟩ | rfl
      · rw [head next rfl] at solid
        cases solid
      · exact .inr ⟨more, rfl⟩

/-- A squeezed text that begins with no gap is that of a text that begins with the character. -/
theorem exists_of_squeeze_cons {text after : Text} {character : Char}
    (solid : isGap character = false) (shape : squeeze isGap text = character :: after) :
    ∃ more, text = character :: more ∧ after = squeeze isGap more := by
  cases text with
  | nil => cases shape
  | cons first rest =>
      by_cases gap : isGap first = true
      · have head := behindGap_head space (squeeze isGap rest) character
        rw [← squeeze_gap gap, shape] at head
        rw [head rfl] at solid
        cases solid
      · rw [Bool.not_eq_true] at gap
        rw [squeeze_solid gap] at shape
        cases shape
        exact ⟨rest, rfl, rfl⟩

/-- What a squeezed text begins with, if it has no gaps, the text begins with. -/
theorem exists_of_squeeze_append {front : Text}
    (solid : ∀ character ∈ front, isGap character = false) {text after : Text}
    (shape : squeeze isGap text = front ++ after) :
    ∃ more, text = front ++ more ∧ after = squeeze isGap more := by
  induction front generalizing text with
  | nil => exact ⟨text, rfl, shape.symm⟩
  | cons character front hypothesis =>
      rw [List.forall_mem_cons] at solid
      rcases exists_of_squeeze_cons space solid.1 shape with ⟨rest, rfl, behind⟩
      rcases hypothesis solid.2 behind.symm with ⟨more, rfl, left⟩
      exact ⟨more, rfl, left⟩

/-- The gaps at the start of a squeezed text are those at the start of the text. -/
theorem dropWhile_gap_squeeze (text : Text) :
    (squeeze isGap text).dropWhile isGap = squeeze isGap (text.dropWhile isGap) := by
  induction text with
  | nil => rfl
  | cons character rest hypothesis =>
      by_cases gap : isGap character = true
      · have behind : (behindGap isGap (squeeze isGap rest)).dropWhile isGap =
            (squeeze isGap rest).dropWhile isGap := by
          rcases behindGap_eq (squeeze isGap rest) with same | ⟨_, same⟩
          · rw [same]
          · rw [same, List.dropWhile_cons_of_pos space]
        rw [squeeze_gap gap, behind, hypothesis, List.dropWhile_cons_of_pos gap]
      · have solid := Bool.eq_false_iff.2 gap
        rw [squeeze_solid solid, List.dropWhile_cons_of_neg gap, List.dropWhile_cons_of_neg gap,
          squeeze_solid solid]

/-! ## Runs without gaps -/

variable {isKind : Char → Bool}
  (solid : ∀ character, isKind character = true → isGap character = false)

include solid

/-- Characters of some kind are counted off alike in a squeezed text. -/
theorem takeWhile_take_squeeze (count : Nat) (text : Text) :
    ((squeeze isGap text).take count).takeWhile isKind = (text.take count).takeWhile isKind := by
  induction text generalizing count with
  | nil => rfl
  | cons character rest hypothesis =>
      cases count with
      | zero => rfl
      | succ count =>
          by_cases gap : isGap character = true
          · have outside {other : Char} (gap : isGap other = true) : isKind other = false := by
              rw [Bool.eq_false_iff]
              intro inKind
              rw [solid other inKind] at gap
              cases gap
            have head := behindGap_head space (squeeze isGap rest)
            rw [squeeze_gap gap, List.take_succ_cons,
              List.takeWhile_cons_of_neg (by simp [outside gap])]
            cases shape : behindGap isGap (squeeze isGap rest) with
            | nil => rfl
            | cons next more =>
                rw [shape] at head
                rw [List.take_succ_cons,
                  List.takeWhile_cons_of_neg (by simp [outside (head next rfl)])]
          · rw [squeeze_solid (Bool.eq_false_iff.2 gap), List.take_succ_cons,
              List.take_succ_cons, List.takeWhile_cons, List.takeWhile_cons, hypothesis]

/-- A run of some kind is the same in a squeezed text. -/
theorem takeWhile_squeeze (text : Text) :
    (squeeze isGap text).takeWhile isKind = text.takeWhile isKind := by
  have counted := takeWhile_take_squeeze space solid
    ((squeeze isGap text).length + text.length) text
  rwa [List.take_of_length_le (by omega), List.take_of_length_le (by omega)] at counted

/-- What is left behind a run of some kind is squeezed. -/
theorem dropWhile_squeeze (text : Text) :
    (squeeze isGap text).dropWhile isKind = squeeze isGap (text.dropWhile isKind) := by
  have behind := drop_takeWhile_take_squeeze solid text.length text
  have drop_run (other : Text) :
      other.drop (other.takeWhile isKind).length = other.dropWhile isKind := by
    conv => lhs; arg 2; rw [← List.takeWhile_append_dropWhile (p := isKind) (l := other)]
    rw [List.drop_left]
  rwa [List.take_length, drop_run, ← takeWhile_squeeze space solid, drop_run] at behind

theorem stops_squeeze {text : Text} : Stops isKind (squeeze isGap text) ↔ Stops isKind text := by
  rw [← takeWhile_eq_nil_iff, takeWhile_squeeze space solid, takeWhile_eq_nil_iff]

end

/-- Texts are squeezed alike where the same of their characters are gaps. -/
theorem squeeze_congr {isGap isOther : Char → Bool} {text : Text}
    (spaces : isGap ' ' = isOther ' ')
    (same : ∀ character ∈ text, isGap character = isOther character) :
    squeeze isGap text = squeeze isOther text := by
  induction text with
  | nil => rfl
  | cons character rest hypothesis =>
      rw [List.forall_mem_cons] at same
      have alike := hypothesis same.2
      have behind : behindGap isGap (squeeze isGap rest) =
          behindGap isOther (squeeze isOther rest) := by
        rw [← alike]
        cases shape : squeeze isGap rest with
        | nil => rfl
        | cons next more =>
            have sameNext : isGap next = isOther next := by
              have member : next ∈ squeeze isGap rest := shape ▸ List.mem_cons_self
              rcases mem_squeeze member with inRest | isSpace
              · exact same.2 next inRest.1
              · rw [isSpace, spaces]
            rw [behindGap, behindGap, sameNext]
      rw [squeeze, squeeze, same.1, behind, alike]

/-! ## Collapsing -/

theorem isBlank_space : isBlank ' ' = true := by
  decide

theorem intercalate_space (first : Text) (rest : List Text) :
    List.intercalate [' '] (first :: rest) = first ++ rest.flatMap (' ' :: ·) := by
  induction rest generalizing first with
  | nil => simp
  | cons next more hypothesis =>
      rw [List.intercalate_cons_cons, hypothesis, List.flatMap_cons]
      simp

/-- Squeezing keeps the pieces between blank space that are not empty, behind the first. -/
theorem squeeze_of_pieces {text piece : Text} {more : List Text}
    (shape : Separated.pieces isBlank text = piece :: more) :
    squeeze isBlank text =
      piece ++ (more.filter fun other => !other.isEmpty).flatMap (' ' :: ·) := by
  induction text generalizing piece more with
  | nil =>
      cases shape
      rfl
  | cons character rest hypothesis =>
      rcases List.exists_cons_of_ne_nil (Separated.pieces_ne_nil isBlank rest) with
        ⟨first, others, shapeRest⟩
      have left := hypothesis shapeRest
      rw [Separated.pieces] at shape
      by_cases blank : isBlank character = true
      · rw [if_pos blank, shapeRest] at shape
        cases shape
        rw [squeeze_gap blank, left]
        cases first with
        | nil =>
            -- The blank space goes on, and what is behind it begins with a space already.
            cases filled : others.filter fun other => !other.isEmpty with
            | nil => simp [filled, behindGap]
            | cons word words => simp [filled, behindGap, isBlank_space]
        | cons next word =>
            have solid : isBlank next = false :=
              Separated.not_separator_of_mem_pieces (shapeRest ▸ List.mem_cons_self) next
                List.mem_cons_self
            simp [behindGap, solid]
      · rw [if_neg blank, shapeRest] at shape
        cases shape
        rw [squeeze_solid (Bool.eq_false_iff.2 blank), left, List.cons_append]

theorem collapse_cons {character : Char} (solid : isBlank character = false) (rest : Text) :
    collapse (character :: rest) = character :: squeeze isBlank rest := by
  rcases List.exists_cons_of_ne_nil (Separated.pieces_ne_nil isBlank rest) with
    ⟨piece, more, shape⟩
  rw [squeeze_of_pieces shape, collapse, words, Separated.groups, Separated.pieces,
    if_neg (by simp [solid]), shape, List.modifyHead_cons, List.filter_cons_of_pos (by simp),
    intercalate_space, List.cons_append]

/-- Collapsing a text is squeezing it behind the blank space at its start. -/
theorem collapse_eq_squeeze (text : Text) : collapse text = squeeze isBlank (trimStart text) := by
  have skipped : collapse text = collapse (trimStart text) := by
    conv => lhs; rw [← takeWhile_append_trimStart text]
    exact collapse_blank_append mem_takeWhile _
  rw [skipped]
  cases shape : trimStart text with
  | nil => rfl
  | cons character rest =>
      have stops := stops_trimStart text
      rw [shape, stops_cons] at stops
      rw [collapse_cons stops, squeeze_solid stops]

end CssAuthoring.Text
