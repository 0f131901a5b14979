import CssAuthoring.Text.Basic

/-!
# Sequences with separators

A list whose elements may be separators falls into groups: the maximal non-empty runs without a
separator.  Selector lists fall into complex selectors in this way, and texts into words.  Joining
writes a separator between groups, but only once something has been written.

Main statements: `pieces_append`, cutting commutes with putting a separator between two lists;
`groups_append_separator`, so do the groups; `groups_join`, joining parts puts their groups one
behind the other; `groups_intercalate`, groups that were put together with separators are found
again; `flatten_groups`, the groups hold all elements but the separators.
-/

namespace CssAuthoring.Separated

variable {α : Type}

/-- All pieces between separators, the empty ones included; there is one more than separators. -/
def pieces (isSeparator : α → Bool) : List α → List (List α)
  | [] => [[]]
  | element :: rest =>
    if isSeparator element then [] :: pieces isSeparator rest
    else (pieces isSeparator rest).modifyHead (element :: ·)

/-- The non-empty pieces between separators, in order. -/
def groups (isSeparator : α → Bool) (elements : List α) : List (List α) :=
  (pieces isSeparator elements).filter fun piece => !piece.isEmpty

/--
Puts a separator between groups.  Groups that are empty before anything has been written leave no
separator behind.
-/
def join (separator : α) (parts : List (List α)) : List α :=
  List.intercalate [separator] (parts.dropWhile List.isEmpty)

theorem pieces_ne_nil (isSeparator : α → Bool) (elements : List α) :
    pieces isSeparator elements ≠ [] := by
  induction elements with
  | nil => simp [pieces]
  | cons element rest hypothesis =>
    unfold pieces
    split
    · simp
    · cases shape : pieces isSeparator rest with
      | nil => exact absurd shape hypothesis
      | cons piece more => simp [List.modifyHead]

/-- A separator between two lists separates their pieces. -/
theorem pieces_append
    (isSeparator : α → Bool) (front back : List α) (separator : α)
    (separates : isSeparator separator = true) :
    pieces isSeparator (front ++ separator :: back) =
      pieces isSeparator front ++ pieces isSeparator back := by
  induction front with
  | nil => simp [pieces, separates]
  | cons element rest hypothesis =>
    simp only [List.cons_append, pieces, hypothesis]
    split
    · rfl
    · cases shape : pieces isSeparator rest with
      | nil => exact absurd shape (pieces_ne_nil isSeparator rest)
      | cons piece more => simp [List.modifyHead]

/-- A separator between two lists separates their groups. -/
theorem groups_append_separator
    (isSeparator : α → Bool) (front back : List α) (separator : α)
    (separates : isSeparator separator = true) :
    groups isSeparator (front ++ separator :: back) =
      groups isSeparator front ++ groups isSeparator back := by
  simp [groups, pieces_append isSeparator front back separator separates]

@[simp]
theorem groups_nil (isSeparator : α → Bool) : groups isSeparator [] = [] := rfl

/-- A list without separators is its only piece. -/
theorem pieces_of_none {isSeparator : α → Bool} {elements : List α}
    (none : ∀ element ∈ elements, isSeparator element = false) :
    pieces isSeparator elements = [elements] := by
  induction elements with
  | nil => rfl
  | cons element rest hypothesis =>
    have others := hypothesis fun other member => none other (List.mem_cons_of_mem _ member)
    simp [pieces, none element List.mem_cons_self, others]

theorem groups_of_none {isSeparator : α → Bool} {elements : List α} (filled : elements ≠ [])
    (none : ∀ element ∈ elements, isSeparator element = false) :
    groups isSeparator elements = [elements] := by
  simp [groups, pieces_of_none none, filled]

/-- Putting lists together with separators puts their groups one behind the other. -/
theorem groups_intercalate_eq {isSeparator : α → Bool} {separator : α}
    (separates : isSeparator separator = true) (parts : List (List α)) :
    groups isSeparator (List.intercalate [separator] parts) =
      parts.flatMap (groups isSeparator) := by
  induction parts with
  | nil => rfl
  | cons part rest hypothesis =>
    cases rest with
    | nil => simp
    | cons next more =>
      rw [List.flatMap_cons, List.intercalate_cons_cons, List.append_assoc, List.singleton_append,
        groups_append_separator isSeparator part _ separator separates, hypothesis]

/-- Groups are their own groups. -/
theorem flatMap_groups_of_filled {isSeparator : α → Bool} {parts : List (List α)}
    (filled : ∀ part ∈ parts, part ≠ [] ∧ ∀ element ∈ part, isSeparator element = false) :
    parts.flatMap (groups isSeparator) = parts := by
  induction parts with
  | nil => rfl
  | cons part rest hypothesis =>
    rcases filled part List.mem_cons_self with ⟨notEmpty, none⟩
    rw [List.flatMap_cons, groups_of_none notEmpty none, List.singleton_append,
      hypothesis fun other member => filled other (List.mem_cons_of_mem _ member)]

/-- Groups that were put together with separators are found again. -/
theorem groups_intercalate {isSeparator : α → Bool} {separator : α}
    (separates : isSeparator separator = true) {parts : List (List α)}
    (filled : ∀ part ∈ parts, part ≠ [] ∧ ∀ element ∈ part, isSeparator element = false) :
    groups isSeparator (List.intercalate [separator] parts) = parts := by
  rw [groups_intercalate_eq separates, flatMap_groups_of_filled filled]

/-- Joining parts puts their groups one behind the other. -/
theorem groups_join {isSeparator : α → Bool} {separator : α}
    (separates : isSeparator separator = true) (parts : List (List α)) :
    groups isSeparator (join separator parts) = parts.flatMap (groups isSeparator) := by
  rw [join, groups_intercalate_eq separates]
  induction parts with
  | nil => rfl
  | cons part rest hypothesis =>
    cases part with
    | nil => simpa using hypothesis
    | cons element more => simp

/-- No piece holds a separator. -/
theorem not_separator_of_mem_pieces {isSeparator : α → Bool} {elements piece : List α}
    (isPiece : piece ∈ pieces isSeparator elements) :
    ∀ element ∈ piece, isSeparator element = false := by
  induction elements generalizing piece with
  | nil => simp_all [pieces]
  | cons first rest hypothesis =>
    unfold pieces at isPiece
    split at isPiece
    · rcases List.mem_cons.1 isPiece with rfl | later
      · simp
      · exact hypothesis later
    · rename_i notSeparator
      cases shape : pieces isSeparator rest with
      | nil => exact absurd shape (pieces_ne_nil isSeparator rest)
      | cons head more =>
        rw [shape, List.modifyHead_cons] at isPiece
        rcases List.mem_cons.1 isPiece with rfl | later
        · intro element isElement
          rcases List.mem_cons.1 isElement with rfl | isInside
          · simpa using notSeparator
          · exact hypothesis (shape ▸ List.mem_cons_self) element isInside
        · exact hypothesis (shape ▸ List.mem_cons_of_mem _ later)

/-- The groups hold all elements but the separators, in order. -/
theorem flatten_groups {isSeparator : α → Bool} (elements : List α) :
    (groups isSeparator elements).flatten =
      elements.filter fun element => !isSeparator element := by
  have pieces_flatten : (pieces isSeparator elements).flatten =
      elements.filter fun element => !isSeparator element := by
    induction elements with
    | nil => rfl
    | cons first rest hypothesis =>
      rw [pieces, List.filter_cons]
      by_cases separates : isSeparator first = true
      · simp [separates, hypothesis]
      · rcases List.exists_cons_of_ne_nil (pieces_ne_nil isSeparator rest) with
          ⟨piece, more, shape⟩
        rw [shape] at hypothesis ⊢
        simpa [separates] using hypothesis
  rw [groups, List.flatten_filter_not_isEmpty, pieces_flatten]

end CssAuthoring.Separated
