import CssAuthoring.Text.Blank

/-!
# Runs and trimmed text

A scanner takes the longest run of characters of some kind, and trimming takes the blank characters
at an end.  Both are determined by where a run stops: at the end of the text or at a character of
another kind.  The lemmas here say so for text that is given in pieces.
-/

namespace CssAuthoring.Text

/-! ## Runs -/

/-- Whether a text is empty or begins with a character outside a kind. -/
def Stops (isKind : Char → Bool) (text : Text) : Prop :=
  ∀ character ∈ text.head?, isKind character = false

theorem stops_nil (isKind : Char → Bool) : Stops isKind [] := by
  intro character member
  cases member

@[simp]
theorem stops_cons (isKind : Char → Bool) (character : Char) (rest : Text) :
    Stops isKind (character :: rest) ↔ isKind character = false := by
  simp [Stops]

/-- Whether a run stops at once depends on the first piece that is not empty. -/
theorem stops_append {isKind : Char → Bool} {text : Text} (nonempty : text ≠ []) (rest : Text) :
    Stops isKind (text ++ rest) ↔ Stops isKind text := by
  rcases List.exists_cons_of_ne_nil nonempty with ⟨character, more, rfl⟩
  rw [List.cons_append, stops_cons, stops_cons]

/-- A run of fewer kinds of characters stops where a run of more kinds does. -/
theorem Stops.of_imp {isKind isPart : Char → Bool} {text : Text} (stops : Stops isKind text)
    (imp : ∀ character, isPart character = true → isKind character = true) :
    Stops isPart text := by
  intro character member
  rw [Bool.eq_false_iff]
  intro inPart
  have outside := stops character member
  rw [imp character inPart] at outside
  contradiction

theorem dropWhile_of_stops {isKind : Char → Bool} {text : Text} (stops : Stops isKind text) :
    text.dropWhile isKind = text := by
  cases text with
  | nil => rfl
  | cons character rest => simp [(stops_cons isKind character rest).1 stops]

theorem takeWhile_of_stops {isKind : Char → Bool} {text : Text} (stops : Stops isKind text) :
    text.takeWhile isKind = [] := by
  cases text with
  | nil => rfl
  | cons character rest => simp [(stops_cons isKind character rest).1 stops]

theorem takeWhile_eq_nil_iff {isKind : Char → Bool} {text : Text} :
    text.takeWhile isKind = [] ↔ Stops isKind text := by
  cases text with
  | nil => simp [stops_nil]
  | cons character rest => by_cases inRun : isKind character = true <;> simp [inRun]

/-- What follows a run is left when the run is dropped. -/
theorem dropWhile_run {isKind : Char → Bool} {run text : Text}
    (inRun : ∀ character ∈ run, isKind character = true) (stops : Stops isKind text) :
    (run ++ text).dropWhile isKind = text := by
  rw [List.dropWhile_append_of_pos inRun, dropWhile_of_stops stops]

/-- A run is taken up to where it stops. -/
theorem takeWhile_run {isKind : Char → Bool} {run text : Text}
    (inRun : ∀ character ∈ run, isKind character = true) (stops : Stops isKind text) :
    (run ++ text).takeWhile isKind = run := by
  rw [List.takeWhile_append_of_pos inRun, takeWhile_of_stops stops, List.append_nil]

theorem mem_takeWhile {isKind : Char → Bool} {text : Text} :
    ∀ character ∈ text.takeWhile isKind, isKind character = true :=
  List.all_eq_true.1 List.all_takeWhile

theorem stops_dropWhile (isKind : Char → Bool) (text : Text) :
    Stops isKind (text.dropWhile isKind) := by
  intro character member
  have stopped := List.head?_dropWhile_not isKind text
  rw [Option.mem_def.1 member] at stopped
  simpa using stopped

/-! ## Trimmed text -/

/-- Text made of blank space only. -/
def Blank (text : Text) : Prop :=
  ∀ character ∈ text, isBlank character = true

/-- Text that ends in a character that is not blank. -/
def EndsSolid (text : Text) : Prop :=
  ∃ front last, text = front ++ [last] ∧ isBlank last = false

theorem EndsSolid.ne_nil {text : Text} (solid : EndsSolid text) : text ≠ [] := by
  rcases solid with ⟨front, last, rfl, _⟩
  simp

theorem EndsSolid.not_blank {text : Text} (solid : EndsSolid text) : ¬ Blank text := by
  rcases solid with ⟨front, last, rfl, notBlank⟩
  intro blank
  rw [blank last (by simp)] at notBlank
  contradiction

theorem EndsSolid.append {text : Text} (front : Text) (solid : EndsSolid text) :
    EndsSolid (front ++ text) := by
  rcases solid with ⟨middle, last, rfl, notBlank⟩
  exact ⟨front ++ middle, last, by simp, notBlank⟩

/-- Text in front of a solid one does not matter for its end. -/
theorem EndsSolid.of_append {front text : Text} (nonempty : text ≠ [])
    (solid : EndsSolid (front ++ text)) : EndsSolid text := by
  rcases solid with ⟨middle, last, equal, notBlank⟩
  rcases List.eq_nil_or_concat text with empty | ⟨init, final, rfl⟩
  · exact absurd empty nonempty
  · rw [List.concat_eq_append, ← List.append_assoc] at equal
    have same : [final] = [last] := List.append_inj_right' equal rfl
    exact ⟨init, last, by rw [List.concat_eq_append, same], notBlank⟩

theorem trimStart_of_stops {text : Text} (stops : Stops isBlank text) : trimStart text = text :=
  dropWhile_of_stops stops

theorem stops_trimStart (text : Text) : Stops isBlank (trimStart text) :=
  stops_dropWhile isBlank text

/-- Blank space at the end is trimmed away. -/
theorem trimEnd_append_blank (text : Text) {blank : Text} (isBlank : Blank blank) :
    trimEnd (text ++ blank) = trimEnd text := by
  simp only [trimEnd]
  rw [List.reverse_append, List.dropWhile_append_of_pos]
  intro character member
  exact isBlank character (List.mem_reverse.1 member)

/-- Text with a solid end stays as it is. -/
theorem trimEnd_of_solid {text : Text} (solid : EndsSolid text) : trimEnd text = text := by
  rcases solid with ⟨front, last, rfl, notBlank⟩
  simp [trimEnd, notBlank]

/-- A character that is not blank stays, whatever follows it. -/
theorem trimEnd_cons_ne_nil {character : Char} (notBlank : isBlank character = false)
    (rest : Text) : trimEnd (character :: rest) ≠ [] := by
  intro empty
  have allBlank : ∀ other ∈ (character :: rest).reverse, isBlank other = true := by
    rw [← List.all_eq_true, ← List.takeWhile_append_dropWhile (p := isBlank)
      (l := (character :: rest).reverse)]
    rw [trimEnd, List.reverse_eq_nil_iff] at empty
    rw [empty, List.append_nil]
    exact List.all_takeWhile
  have blank := allBlank character (by simp)
  rw [notBlank] at blank
  contradiction

/-- Trimming the end takes some blank space away, and nothing else. -/
theorem exists_trimEnd_append (text : Text) :
    ∃ blank, Blank blank ∧ text = trimEnd text ++ blank := by
  refine ⟨(text.reverse.takeWhile isBlank).reverse, ?_, ?_⟩
  · intro character member
    exact mem_takeWhile character (List.mem_reverse.1 member)
  · rw [trimEnd]
    rw [← List.reverse_append, List.takeWhile_append_dropWhile, List.reverse_reverse]

/-- What is left after trimming the end is nothing, or has a solid end. -/
theorem trimEnd_solid {text : Text} (nonempty : trimEnd text ≠ []) : EndsSolid (trimEnd text) := by
  rw [trimEnd] at nonempty ⊢
  cases shape : text.reverse.dropWhile isBlank with
  | nil =>
      rw [shape] at nonempty
      exact absurd rfl nonempty
  | cons last front =>
      have stops := stops_dropWhile isBlank text.reverse
      rw [shape, stops_cons] at stops
      exact ⟨front.reverse, last, by simp, stops⟩

/-- The end of a text is trimmed in its last piece, unless that is blank. -/
theorem trimEnd_append {front back : Text} (nonempty : trimEnd back ≠ []) :
    trimEnd (front ++ back) = front ++ trimEnd back := by
  rcases exists_trimEnd_append back with ⟨blank, isBlank, equal⟩
  have solid := (trimEnd_solid nonempty).append front
  calc trimEnd (front ++ back) = trimEnd (front ++ trimEnd back ++ blank) := by
        rw [List.append_assoc, ← equal]
    _ = trimEnd (front ++ trimEnd back) := trimEnd_append_blank _ isBlank
    _ = front ++ trimEnd back := trimEnd_of_solid solid

/-- Where the end of a text is trimmed, its beginning stays. -/
theorem Stops.trimEnd {isKind : Char → Bool} {text : Text} (stops : Stops isKind text) :
    Stops isKind (trimEnd text) := by
  rcases exists_trimEnd_append text with ⟨blank, _, equal⟩
  by_cases empty : Text.trimEnd text = []
  · rw [empty]
    exact stops_nil isKind
  · rw [equal] at stops
    exact (stops_append empty blank).1 stops

/-! ## Blank space around a text -/

theorem takeWhile_append_trimStart (text : Text) :
    text.takeWhile isBlank ++ trimStart text = text :=
  List.takeWhile_append_dropWhile

/-- A text is the blank space that is trimmed off it, around what is left. -/
theorem exists_trim_surrounded (text : Text) :
    ∃ lead trail, Blank lead ∧ Blank trail ∧ text = lead ++ (trim text ++ trail) := by
  rcases exists_trimEnd_append (trimStart text) with ⟨trail, blank, split⟩
  refine ⟨text.takeWhile isBlank, trail, mem_takeWhile, blank, ?_⟩
  rw [trim, ← split, takeWhile_append_trimStart]

theorem trimStart_eq_nil_iff {text : Text} : trimStart text = [] ↔ Blank text := by
  constructor
  · intro empty
    rw [← takeWhile_append_trimStart text, empty, List.append_nil]
    exact mem_takeWhile
  · intro blank
    rw [trimStart, ← List.append_nil text, dropWhile_run blank (stops_nil _)]

theorem Blank.append {front back : Text} (frontBlank : Blank front) (backBlank : Blank back) :
    Blank (front ++ back) := by
  intro character member
  rcases List.mem_append.1 member with inFront | inBack
  · exact frontBlank character inFront
  · exact backBlank character inBack

section

variable {front back : Text} (frontBlank : Blank front) (backBlank : Blank back) (text : Text)

/-- A text in blank space, cut where the blank space at its start ends. -/
theorem surrounded_eq :
    front ++ text ++ back = (front ++ text.takeWhile isBlank) ++ (trimStart text ++ back) := by
  conv => lhs; rw [← takeWhile_append_trimStart text]
  simp only [List.append_assoc]

include frontBlank backBlank in
/-- Blank space around a text is trimmed away with what of it the text has at its ends. -/
theorem trim_surrounded : trim (front ++ text ++ back) = trim text := by
  by_cases blank : Blank text
  · have all : Blank (front ++ text ++ back) := (frontBlank.append blank).append backBlank
    rw [(trim_eq_nil_iff _).2 all, (trim_eq_nil_iff _).2 blank]
  · have stops : Stops isBlank (trimStart text ++ back) :=
      (stops_append (mt trimStart_eq_nil_iff.1 blank) back).2 (stops_trimStart text)
    rw [trim, trimStart, surrounded_eq, dropWhile_run (frontBlank.append mem_takeWhile) stops,
      trimEnd_append_blank _ backBlank, trim]

end

end CssAuthoring.Text
