import CssAuthoring.Component.Declaration
import CssAuthoring.Proofs.Component.Values

/-!
# Declarations that read back

The printed form of a declaration is its name, its value without white space around it, and its mark
of importance.  Where the parts of the value stay apart in it, the same declaration is read from it,
up to white space around the value.
-/

namespace CssAuthoring.Component

open CssAuthoring.Numeric

/-! ## Values without white space around them -/

/-- Values that are all white space. -/
def Spaces (values : List Value) : Prop :=
  ∀ value ∈ values, value.isWhitespace = true

/-- Values that do not start with white space. -/
def Solid (values : List Value) : Prop :=
  ∀ value ∈ values.head?, value.isWhitespace = false

/-- Values without the white space at their ends. -/
def solidPart (values : List Value) : List Value :=
  (skipWhitespace (skipWhitespace values).reverse).reverse

theorem skipWhitespace_append {front : List Value} (spaces : Spaces front) (back : List Value) :
    skipWhitespace (front ++ back) = skipWhitespace back :=
  List.dropWhile_append_of_pos spaces

theorem skipWhitespace_of_solid {values : List Value} (solid : Solid values) :
    skipWhitespace values = values := by
  cases values with
  | nil => rfl
  | cons value rest =>
      have noSpace : value.isWhitespace = false := solid value rfl
      rw [skipWhitespace, List.dropWhile_cons, noSpace]
      rfl

theorem solid_skipWhitespace (values : List Value) : Solid (skipWhitespace values) := by
  induction values with
  | nil => simp [Solid, skipWhitespace]
  | cons value rest hypothesis =>
      rw [skipWhitespace, List.dropWhile_cons]
      split
      · exact hypothesis
      · rename_i noSpace
        simpa [Solid] using noSpace

theorem exists_skipWhitespace (values : List Value) :
    ∃ front, Spaces front ∧ values = front ++ skipWhitespace values :=
  ⟨values.takeWhile Value.isWhitespace, List.all_eq_true.1 List.all_takeWhile,
    List.takeWhile_append_dropWhile.symm⟩

theorem Spaces.reverse {values : List Value} (spaces : Spaces values) : Spaces values.reverse :=
  fun value member => spaces value (List.mem_reverse.1 member)

/-- Around the solid part of values stands only white space. -/
theorem exists_solidPart (values : List Value) :
    ∃ front back, Spaces front ∧ Spaces back ∧ values = front ++ (solidPart values ++ back) := by
  rcases exists_skipWhitespace values with ⟨front, spacesFront, shapeFront⟩
  rcases exists_skipWhitespace (skipWhitespace values).reverse with ⟨back, spacesBack, shapeBack⟩
  refine ⟨front, back.reverse, spacesFront, spacesBack.reverse, ?_⟩
  have whole := congrArg List.reverse shapeBack
  rw [List.reverse_reverse, List.reverse_append] at whole
  rw [solidPart, ← whole]
  exact shapeFront

theorem solid_solidPart (values : List Value) :
    Solid (solidPart values) ∧ Solid (solidPart values).reverse := by
  constructor
  · have starts : solidPart values <+: skipWhitespace values := by
      rw [← List.reverse_suffix, solidPart, List.reverse_reverse]
      exact List.dropWhile_suffix _
    intro value member
    rcases starts with ⟨more, shape⟩
    apply solid_skipWhitespace values value
    rw [← shape, List.head?_append, member]
    rfl
  · rw [solidPart, List.reverse_reverse]
    exact solid_skipWhitespace _

/-- White space around a solid part does not change it. -/
theorem solidPart_append {front back : List Value} (spacesFront : Spaces front)
    (spacesBack : Spaces back) (values : List Value) :
    solidPart (front ++ (solidPart values ++ back)) = solidPart values := by
  rcases solid_solidPart values with ⟨starts, ends⟩
  rw [solidPart, skipWhitespace_append spacesFront]
  cases shape : solidPart values with
  | nil =>
      rw [List.nil_append, ← List.append_nil back, skipWhitespace_append spacesBack]
      rfl
  | cons value rest =>
      have solid : Solid (value :: rest ++ back) := by
        rw [shape] at starts
        exact starts
      rw [shape] at ends
      rw [skipWhitespace_of_solid solid, List.reverse_append,
        skipWhitespace_append spacesBack.reverse, skipWhitespace_of_solid ends,
        List.reverse_reverse]

/-! ## Scanning for the mark of importance -/

/-- The same progress with the mark of importance, at any position. -/
inductive Importance.Alike : Importance → Importance → Prop where
  | none : Alike .none .none
  | mark (position other : Nat) : Alike (.mark position) (.mark other)
  | whole (position other : Nat) : Alike (.whole position) (.whole other)

/-- The same knowledge of values, at any position. -/
structure Scanned.Alike (left right : Scanned) : Prop where
  state : left.state.Alike right.state
  content : left.content = right.content
  ruleLike : left.ruleLike = right.ruleLike

theorem Importance.Alike.next {left right : Importance} (alike : left.Alike right)
    (position other : Nat) (value : Value) :
    (left.next position value).Alike (right.next other value) := by
  fun_cases Importance.next left position value with
  | case1 before name isImportant =>
      cases alike
      rw [Importance.next, if_pos isImportant]
      exact .whole _ _
  | case2 before name notImportant =>
      cases alike
      rw [Importance.next, if_neg notImportant]
      exact .none
  | case3 =>
      cases alike
      exact .mark _ _
  | case4 _ _ noName noSign =>
      rw [Importance.next]
      · exact .none
      · rintro before name rfl isName
        cases alike
        exact noName _ name rfl isName
      · rintro rfl isSign
        cases alike
        exact noSign rfl isSign

theorem Importance.Alike.eq_none_iff {left right : Importance} (alike : left.Alike right) :
    left = .none ↔ right = .none := by
  cases alike <;> simp

theorem Importance.Alike.position_eq_none {left right : Importance} (alike : left.Alike right)
    (noPosition : left.position? = Option.none) : right.position? = Option.none := by
  cases alike with
  | none => rfl
  | mark => rfl
  | whole => cases noPosition

/-- Scanning goes on alike from any position. -/
theorem Scanned.Alike.scanValues {left right : Scanned} (alike : left.Alike right)
    (position other : Nat) (values : List Value) :
    (scanValues position left values).Alike (scanValues other right values) := by
  induction values generalizing left right position other with
  | nil => exact alike
  | cons value rest hypothesis =>
      rw [Component.scanValues, Component.scanValues]
      split
      · exact hypothesis alike _ _
      · have next := alike.state.next position other value
        have filled : isContent left.state position value = isContent right.state other value := by
          simp only [isContent, next.eq_none_iff]
        apply hypothesis
        constructor
        · exact next
        · rw [alike.content, filled]
        · rw [alike.ruleLike, alike.content, filled]

theorem scanValues_append (position : Nat) (scanned : Scanned) (front back : List Value) :
    scanValues position scanned (front ++ back) =
      scanValues (position + front.length) (scanValues position scanned front) back := by
  induction front generalizing position scanned with
  | nil => rfl
  | cons value rest hypothesis =>
      have positions : position + (value :: rest).length = position + 1 + rest.length := by
        rw [List.length_cons]
        omega
      rw [List.cons_append, scanValues, scanValues, positions]
      split <;> exact hypothesis _ _

theorem scanValues_spaces (position : Nat) (scanned : Scanned) {values : List Value}
    (spaces : Spaces values) : scanValues position scanned values = scanned := by
  induction values generalizing position with
  | nil => rfl
  | cons value rest hypothesis =>
      rw [Spaces, List.forall_mem_cons] at spaces
      rw [scanValues, if_pos spaces.1]
      exact hypothesis _ spaces.2

/-- What is known before there are any values. -/
def unscanned : Scanned :=
  ⟨.none, false, false⟩

/-- A rule-like start makes the whole rule-like. -/
theorem ruleLike_scanValues {scanned : Scanned} (ruleLike : scanned.ruleLike = true)
    (position : Nat) (values : List Value) :
    (scanValues position scanned values).ruleLike = true := by
  induction values generalizing position scanned with
  | nil => exact ruleLike
  | cons value rest hypothesis =>
      rw [scanValues]
      split
      · exact hypothesis ruleLike _
      · exact hypothesis (by simp [ruleLike]) _

/-- What is known at a mark of importance: it stands behind values without one. -/
structure Marks (values : List Value) (position : Nat) : Prop where
  within : position ≤ values.length
  before : (scanValues 0 unscanned (values.take position)).state = .none

theorem Marks.append {values : List Value} {position : Nat} (marks : Marks values position)
    (more : List Value) : Marks (values ++ more) position := by
  constructor
  · rw [List.length_append]
    exact Nat.le_add_right_of_le marks.within
  · rw [List.take_append_of_le_length marks.within]
    exact marks.before

/-- The position at which a mark of importance starts, if there is one. -/
def Importance.start? : Importance → Option Nat
  | mark position => some position
  | whole position => some position
  | none => Option.none

/-- A mark of importance was there already, or it starts at the value where there was none. -/
theorem start_next {state : Importance} {position : Nat} {value : Value} :
    ∀ start ∈ (state.next position value).start?,
      start ∈ state.start? ∨ (state = .none ∧ start = position) := by
  intro start member
  fun_cases Importance.next state position value with
  | case1 before name isImportant =>
      rw [Importance.next, if_pos isImportant] at member
      exact .inl member
  | case2 before name notImportant =>
      rw [Importance.next, if_neg notImportant] at member
      cases member
  | case3 =>
      cases member
      exact .inr ⟨rfl, rfl⟩
  | case4 _ _ noName noSign =>
      rw [Importance.next] at member
      · cases member
      · exact noName
      · exact noSign

theorem scanValues_singleton (position : Nat) (scanned : Scanned) (value : Value) :
    (scanValues position scanned [value]).state =
      if value.isWhitespace then scanned.state else scanned.state.next position value := by
  rw [scanValues]
  split <;> rfl

/-- Where a mark of importance was read, it stands behind values without one. -/
theorem marks_scanValues {front : List Value}
    (marks : ∀ position ∈ (scanValues 0 unscanned front).state.start?, Marks front position)
    (values : List Value) :
    ∀ position ∈ (scanValues 0 unscanned (front ++ values)).state.start?,
      Marks (front ++ values) position := by
  induction values generalizing front with
  | nil => simpa using marks
  | cons value rest hypothesis =>
      have assoc : front ++ value :: rest = (front ++ [value]) ++ rest := by simp
      rw [assoc]
      apply hypothesis
      intro position member
      rw [scanValues_append, Nat.zero_add, scanValues_singleton] at member
      split at member
      · exact (marks position member).append [value]
      · rcases start_next position member with before | ⟨noMark, rfl⟩
        · exact (marks position before).append [value]
        · constructor
          · simp
          · rw [List.take_left]
            exact noMark

theorem start_of_position {state : Importance} {position : Nat}
    (whole : state.position? = some position) : state.start? = some position := by
  cases state with
  | none => cases whole
  | mark => cases whole
  | whole => exact whole

theorem splitImportant_eq (values : List Value) :
    splitImportant? values =
      if (scanValues 0 unscanned values).ruleLike then none
      else
        match (scanValues 0 unscanned values).state.position? with
        | some position => some (values.take position, true)
        | none => some (values, false) := rfl

/-- What the scan of the value of a declaration says. -/
theorem scanned_of_splitImportant {values value : List Value} {important : Bool}
    (found : splitImportant? values = some (value, important)) :
    (scanValues 0 unscanned value).ruleLike = false ∧
      (scanValues 0 unscanned value).state.position? = none ∧
      (important = true → (scanValues 0 unscanned value).state = .none) := by
  rw [splitImportant_eq] at found
  split at found
  · cases found
  rename_i noRule
  split at found
  · rename_i position whole
    cases found
    have start : position ∈ (scanValues 0 unscanned ([] ++ values)).state.start? :=
      start_of_position whole
    have marks : Marks ([] ++ values) position := by
      apply marks_scanValues _ values position start
      intro position member
      cases member
    rw [List.nil_append] at marks
    have noRuleBefore : (scanValues 0 unscanned (values.take position)).ruleLike = false := by
      rw [Bool.eq_false_iff]
      intro ruleLike
      apply noRule
      rw [← List.take_append_drop position values, scanValues_append]
      exact ruleLike_scanValues ruleLike _ _
    refine ⟨noRuleBefore, ?_, fun _ => marks.before⟩
    rw [marks.before]
    rfl
  · rename_i noMark
    cases found
    exact ⟨by simpa using noRule, noMark, by simp⟩

/-- The values of a mark of importance, without white space. -/
def markValues (important : Bool) : List Value :=
  if important then [.atom (.literal ['!']), .atom (.identifier "important")] else []

theorem scanValues_mark {scanned : Scanned} (noMark : scanned.state = .none) (position : Nat) :
    scanValues position scanned (markValues true) =
      ⟨.whole position, scanned.content, scanned.ruleLike⟩ := by
  rcases scanned with ⟨state, content, ruleLike⟩
  cases noMark
  cases content <;> cases ruleLike <;> rfl

/-- White space around a value and its mark of importance do not change what the value is. -/
theorem splitImportant_solidPart {values value front back : List Value} {important : Bool}
    (found : splitImportant? values = some (value, important)) (spacesFront : Spaces front)
    (spacesBack : Spaces back) :
    splitImportant? (front ++ (solidPart value ++ back) ++ markValues important) =
      some (front ++ (solidPart value ++ back), important) := by
  rcases exists_solidPart value with ⟨before, behind, spacesBefore, spacesBehind, shape⟩
  have within {first last : List Value} (spacesFirst : Spaces first) (spacesLast : Spaces last) :
      scanValues 0 unscanned (first ++ (solidPart value ++ last)) =
        scanValues (0 + first.length) unscanned (solidPart value) := by
    rw [scanValues_append, scanValues_append, scanValues_spaces _ _ spacesLast,
      scanValues_spaces _ _ spacesFirst]
  have refl : unscanned.Alike unscanned := ⟨.none, rfl, rfl⟩
  have alike : (scanValues 0 unscanned value).Alike
      (scanValues 0 unscanned (front ++ (solidPart value ++ back))) := by
    rw [within spacesFront spacesBack]
    conv => arg 1; rw [shape]
    rw [within spacesBefore spacesBehind]
    exact refl.scanValues _ _ _
  rcases scanned_of_splitImportant found with ⟨noRule, noPosition, noMark⟩
  rw [alike.ruleLike] at noRule
  rw [alike.state.eq_none_iff] at noMark
  have noPositionAgain := alike.state.position_eq_none noPosition
  generalize front ++ (solidPart value ++ back) = again at noRule noPositionAgain noMark
  rw [splitImportant_eq]
  cases important with
  | false =>
      have noMarks : markValues false = [] := rfl
      rw [noMarks, List.append_nil, noRule, noPositionAgain]
      rfl
  | true =>
      rw [scanValues_append, scanValues_mark (noMark rfl), noRule, Nat.zero_add]
      simp [Importance.position?]

/-! ## The values of a declaration -/

/-- The values that a declaration was made of. -/
theorem exists_of_ofValues {values : List Value} {declaration : Declaration}
    (made : Declaration.ofValues? values = some declaration) :
    ∃ front middle rest, values = front ++ .atom (.identifier declaration.name) ::
        (middle ++ .atom (.literal [':']) :: rest) ∧
      splitImportant? rest = some (declaration.value, declaration.important) := by
  rcases exists_skipWhitespace values with ⟨front, _, shape⟩
  unfold Declaration.ofValues? at made
  split at made
  · rename_i name afterName startsName
    rcases exists_skipWhitespace afterName with ⟨middle, _, shapeAfter⟩
    split at made
    · rename_i rest startsColon
      rw [Option.map_eq_some_iff] at made
      rcases made with ⟨⟨value, important⟩, found, rfl⟩
      refine ⟨front, middle, rest, ?_, found⟩
      rw [← startsColon, ← shapeAfter, ← startsName]
      exact shape
    · cases made
  · cases made

/-- The values of a declaration are among those that it was made of. -/
theorem wellFormed_of_ofValues {values : List Value} {declaration : Declaration}
    (wellFormed : ∀ lexeme ∈ Value.piecesAll values, lexeme.WellFormed)
    (made : Declaration.ofValues? values = some declaration) :
    IsName declaration.name ∧
      ∀ lexeme ∈ Value.piecesAll (solidPart declaration.value), lexeme.WellFormed := by
  rcases exists_of_ofValues made with ⟨front, middle, rest, shape, found⟩
  rcases splitImportant_value found with ⟨mark, shapeRest⟩
  rcases exists_solidPart declaration.value with ⟨before, behind, _, _, shapeValue⟩
  have forPieces := forPieces_iff.2 wellFormed
  constructor
  · have member : Value.atom (.identifier declaration.name) ∈ values := by
      rw [shape]
      simp
    apply forPieces _ member (.atom (.identifier declaration.name))
    rw [Value.pieces]
    exact List.mem_cons_self
  · have among : ForPieces Lexeme.WellFormed (solidPart declaration.value) := by
      intro value member
      apply forPieces
      have inValue : value ∈ declaration.value := by
        rw [shapeValue]
        simp [member]
      rw [shape, ← shapeRest]
      simp [inValue]
    exact forPieces_iff.1 among

/-! ## The printed form -/

namespace Declaration

/-- The written mark of importance of a declaration. -/
def mark (declaration : Declaration) : Text :=
  if declaration.important then " !important" else []

/-- The printed form of a declaration without the semicolon. -/
def printed (declaration : Declaration) : Text :=
  declaration.name ++ ": " ++ Text.trim (Value.textAll declaration.value) ++ declaration.mark

/-- The declaration is printed with a semicolon behind it. -/
theorem text_eq (declaration : Declaration) : declaration.text = declaration.printed ++ [';'] := rfl

/--
The printed form of a declaration is read as a declaration with the same name, the same mark of
importance and the same values, up to white space around them.
-/
def ReadsBack (declaration : Declaration) : Prop :=
  ∃ again, Declaration.parse? declaration.printed = .ok (some again) ∧
    again.name = declaration.name ∧ again.important = declaration.important ∧
    solidPart again.value = solidPart declaration.value

/--
A declaration whose printed form keeps its parts apart: its name needs no escapes, trimming takes
the white space around its value only, every lexeme of the value is one that is written as it is
read, and none of them runs on into what is printed behind it.
-/
structure Legible (declaration : Declaration) : Prop where
  name : writeIdentifier declaration.name = declaration.name
  trimmed : Text.trim (Value.textAll declaration.value) =
    Value.textAll (solidPart declaration.value)
  keeps : ∀ lexeme ∈ Value.piecesAll (solidPart declaration.value), lexeme.keeps = true
  isApart : apart (Value.piecesAll (solidPart declaration.value)) declaration.mark = true

end Declaration

theorem firstReading_declared {name : Text} (isName : IsName name) (rest : Text) :
    firstReading (writeIdentifier name ++ ':' :: rest) =
      .ok (single (.identifier name) (':' :: rest)) := by
  have ends (isKind : Char → Bool) (noKind : isKind ':' = false) :
      Text.Stops isKind (':' :: rest) := (Text.stops_cons _ _ _).2 noKind
  rcases firstReading_name isName (ends _ rfl) (ends _ rfl) (by simp) (by simp) with ⟨first, names⟩
  rw [first, lexWord, names]
  rfl

theorem lexemes_declared {name : Text} (isName : IsName name) (rest : Text) :
    lexemes (writeIdentifier name ++ (": " ++ rest)) =
      (lexemes (' ' :: rest)).map
        ([.atom (.identifier name), .atom (.literal [':'])] ++ ·) := by
  have colon : firstReading (':' :: ' ' :: rest) = .ok (single (.literal [':']) (' ' :: rest)) := by
    rw [firstReading, readLexeme_mark rfl rfl rfl (by decide)]
    rfl
  have name := lexemes_of_firstReading (firstReading_declared isName (' ' :: rest))
  rw [lexemes_of_firstReading colon] at name
  refine name.trans ?_
  cases lexemes (' ' :: rest) <;> rfl

/-- Values that do not start with white space have no white space as their first lexeme. -/
theorem piecesAll_of_solid {values : List Value} (solid : Solid values) (filled : values ≠ []) :
    ∃ first more, Value.piecesAll values = first :: more ∧
      ∀ run, first ≠ .atom (.whitespace run) := by
  rcases List.exists_cons_of_ne_nil filled with ⟨value, rest, rfl⟩
  have noSpace : value.isWhitespace = false := solid value rfl
  rw [Value.piecesAll_cons]
  cases value with
  | atom leaf =>
      refine ⟨.atom leaf, Value.piecesAll rest, by rw [Value.pieces]; rfl, ?_⟩
      rintro run isSpace
      cases isSpace
      cases noSpace
  | function name arguments =>
      rw [Value.pieces]
      exact ⟨_, _, rfl, by simp⟩
  | block bracket content =>
      rw [Value.pieces]
      exact ⟨_, _, rfl, by simp⟩

/-- A text whose first lexeme is no white space does not start with white space. -/
theorem stops_of_firstReading {text after : Text} {first : Lexeme}
    (noSpace : ∀ run, first ≠ .atom (.whitespace run))
    (read : firstReading text = .ok ([first], after)) : Text.Stops isSpace text := by
  cases text with
  | nil => exact Text.stops_nil _
  | cons character rest =>
      rw [Text.stops_cons, Bool.eq_false_iff]
      intro white
      rw [firstReading, readLexeme, if_pos white] at read
      cases read
      exact noSpace _ rfl

theorem lexemes_space {text : Text} (stops : Text.Stops isSpace text) :
    lexemes (' ' :: text) = (lexemes text).map (.atom (.whitespace [' ']) :: ·) := by
  have wellFormed : (Atom.whitespace [' ']).WellFormed := ⟨by simp, List.all_eq_true.1 (by decide)⟩
  exact lexemes_of_firstReading (firstReading_whitespace wellFormed stops)

/-- A space, as a value. -/
def gap : Value :=
  .atom (.whitespace [' '])

theorem spaces_gap : Spaces [gap] := by
  simp [Spaces, gap, Value.isWhitespace, Atom.isWhitespace]

theorem spaces_nil : Spaces [] := by
  simp [Spaces]

/-- The mark of importance is read behind a space. -/
theorem lexemes_mark (declaration : Declaration) :
    ∃ back, Spaces back ∧ lexemes declaration.mark =
      .ok (Value.piecesAll (back ++ markValues declaration.important)) := by
  unfold Declaration.mark
  cases declaration.important with
  | true => exact ⟨[gap], spaces_gap, by with_unfolding_all rfl⟩
  | false => exact ⟨[], spaces_nil, by with_unfolding_all rfl⟩

/-- The printed value and mark of a legible declaration are read, up to white space. -/
theorem Declaration.Legible.lexemes_value {declaration : Declaration}
    (legible : declaration.Legible)
    (wellFormed : ∀ lexeme ∈ Value.piecesAll (solidPart declaration.value), lexeme.WellFormed) :
    ∃ front back, Spaces front ∧ Spaces back ∧
      lexemes (' ' :: (Value.textAll (solidPart declaration.value) ++ declaration.mark)) =
        .ok (Value.piecesAll
          (front ++ (solidPart declaration.value ++ back) ++
            markValues declaration.important)) := by
  by_cases empty : solidPart declaration.value = []
  · -- The space behind the colon and the one in front of the mark are read together.
    rw [empty, Value.textAll_nil, List.nil_append]
    unfold Declaration.mark
    cases declaration.important with
    | true =>
        refine ⟨[.atom (.whitespace "  ")], [], ?_, spaces_nil, by with_unfolding_all rfl⟩
        simp [Spaces, Value.isWhitespace, Atom.isWhitespace]
    | false => exact ⟨[gap], [], spaces_gap, spaces_nil, by with_unfolding_all rfl⟩
  · rcases piecesAll_of_solid (solid_solidPart declaration.value).1 empty with
      ⟨first, more, shape, noSpace⟩
    have isApart := legible.isApart
    rw [shape, apart_cons] at isApart
    have member : first ∈ Value.piecesAll (solidPart declaration.value) :=
      shape ▸ List.mem_cons_self
    have read := first.firstReading_text (wellFormed first member) (legible.keeps first member)
      isApart.1
    have stops : Text.Stops isSpace (written (Value.piecesAll (solidPart declaration.value)) ++
        declaration.mark) := by
      rw [shape, written_cons]
      exact stops_of_firstReading noSpace read
    rcases lexemes_mark declaration with ⟨back, spacesBack, mark⟩
    refine ⟨[gap], back, spaces_gap, spacesBack, ?_⟩
    rw [← written_piecesAll, lexemes_space stops, lexemes_written wellFormed legible.keeps
      legible.isApart, mark]
    simp [Except.map, Value.piecesAll_append, Value.piecesAll_cons, Value.pieces, gap]

theorem Declaration.Legible.isUniform_printed {declaration : Declaration}
    (legible : declaration.Legible) (isName : IsName declaration.name)
    (wellFormed : ∀ lexeme ∈ Value.piecesAll (solidPart declaration.value), lexeme.WellFormed) :
    IsUniform declaration.printed := by
  have name := isUniform_writeIdentifier isName.noNull
  rw [legible.name] at name
  have colon : IsUniform ": " := by
    decide
  have value := isUniform_written wellFormed legible.keeps
  rw [written_piecesAll, ← legible.trimmed] at value
  have mark : IsUniform declaration.mark := by
    unfold Declaration.mark
    split <;>
    · decide
  exact ((name.append colon).append value).append mark

theorem Lexeme.not_isComment_of_keeps {lexeme : Lexeme} (keeps : lexeme.keeps = true) :
    lexeme.isComment = false := by
  cases lexeme with
  | atom leaf => cases leaf <;> first | rfl | cases keeps
  | enter opening => rfl
  | leave bracket => rfl

theorem exists_of_isWhitespace {value : Value} (white : value.isWhitespace = true) :
    ∃ run, value = .atom (.whitespace run) := by
  cases value with
  | atom leaf => cases leaf <;> first | exact ⟨_, rfl⟩ | cases white
  | function name arguments => cases white
  | block bracket content => cases white

theorem forPieces_of_spaces {values : List Value} (spaces : Spaces values) :
    ForPieces (fun lexeme => lexeme.isComment = false) values := by
  intro value member
  rcases exists_of_isWhitespace (spaces value member) with ⟨run, rfl⟩
  rw [Value.pieces]
  simp [Lexeme.isComment]

theorem ForPieces.append {holds : Lexeme → Prop} {front back : List Value}
    (forFront : ForPieces holds front) (forBack : ForPieces holds back) :
    ForPieces holds (front ++ back) :=
  List.forall_mem_append.2 ⟨forFront, forBack⟩

theorem parseWithoutComments_of_pieces {text : Text} {values : List Value}
    (isUniform : IsUniform text) (read : lexemes text = .ok (Value.piecesAll values))
    (noComment : ForPieces (fun lexeme => lexeme.isComment = false) values) :
    parseWithoutComments text = .ok values := by
  have kept : (Value.piecesAll values).filter (fun lexeme => !lexeme.isComment) =
      Value.piecesAll values := by
    rw [List.filter_eq_self]
    intro lexeme member
    rw [forPieces_iff.1 noComment lexeme member]
    rfl
  have assembled := assemble_piecesAll_append values []
  rw [List.append_nil] at assembled
  rw [parseWithoutComments, isUniform.uniform_eq, read]
  simp [Except.map, kept, assembled, assemble]

theorem forPieces_markValues (important : Bool) :
    ForPieces (fun lexeme => lexeme.isComment = false) (markValues important) := by
  unfold markValues
  split <;> simp [ForPieces, Value.pieces, Lexeme.isComment]

theorem ofValues_declared (name : Text) (rest : List Value) :
    Declaration.ofValues? (.atom (.identifier name) :: .atom (.literal [':']) :: rest) =
      (splitImportant? rest).map fun (value, important) => ⟨name, value, important⟩ := rfl

/-- A legible declaration is read from its printed form. -/
theorem Declaration.Legible.readsBack {declaration : Declaration}
    (legible : declaration.Legible) {text : Text}
    (read : Declaration.parse? text = .ok (some declaration)) : declaration.ReadsBack := by
  unfold Declaration.parse? at read
  cases found : parseWithoutComments text with
  | error failure =>
      rw [found] at read
      cases read
  | ok values =>
      rw [found] at read
      have made : Declaration.ofValues? values = some declaration := Except.ok.inj read
      rcases wellFormed_of_ofValues (parseWithoutComments_wellFormed found) made with
        ⟨isName, wellFormed⟩
      rcases exists_of_ofValues made with ⟨_, _, rest, _, split⟩
      rcases legible.lexemes_value wellFormed with ⟨front, back, spacesFront, spacesBack, value⟩
      have again := splitImportant_solidPart split spacesFront spacesBack
      have assoc : declaration.printed = writeIdentifier declaration.name ++
          (": " ++ (Value.textAll (solidPart declaration.value) ++ declaration.mark)) := by
        rw [Declaration.printed, legible.name, legible.trimmed, List.append_assoc,
          List.append_assoc]
      have reading : lexemes declaration.printed =
          .ok (Value.piecesAll (.atom (.identifier declaration.name) :: .atom (.literal [':']) ::
            (front ++ (solidPart declaration.value ++ back) ++
              markValues declaration.important))) := by
        rw [assoc, lexemes_declared isName, value]
        simp [Except.map, Value.piecesAll_cons, Value.pieces]
      have inside :
          ForPieces (fun lexeme => lexeme.isComment = false) (solidPart declaration.value) :=
        forPieces_iff.2 fun lexeme member =>
          Lexeme.not_isComment_of_keeps (legible.keeps lexeme member)
      have noComment := (((forPieces_of_spaces spacesFront).append
        (inside.append (forPieces_of_spaces spacesBack))).append
          (forPieces_markValues declaration.important))
      have parsed := parseWithoutComments_of_pieces (legible.isUniform_printed isName wellFormed)
        reading ((noComment.cons (by simp [Value.pieces, Lexeme.isComment])).cons
          (by simp [Value.pieces, Lexeme.isComment]))
      refine ⟨⟨declaration.name, front ++ (solidPart declaration.value ++ back),
        declaration.important⟩, ?_, rfl, rfl, solidPart_append spacesFront spacesBack _⟩
      rw [Declaration.parse?, parsed, Except.map, ofValues_declared, again]
      rfl

end CssAuthoring.Component
