import Mathlib.Data.List.Chain
import CssAuthoring.Separated

/-!
# The theory of lists with separators

Splitting a list at its separators drops empty groups, and joining lists writes no separator as long
as nothing has been written.  So either of them loses something, and they are inverse to each other
only between groups that hold something and lists in which separators stand between other elements:
tidy lists.  With a separator before and behind it, a list says by its neighbours also what may
stand at its ends, and what holds of neighbours can be seen in the groups one by one.

Main statements: `fenced_iff_pieces` and `fenced_join_iff`, neighbours in a list and in its parts;
`tidy_join`, joining groups gives a tidy list; `join_groups_eq_iff`, which lists are joined from
their groups again; `splitsAndJoins`, all laws of splitting and joining together.
-/

namespace CssAuthoring.Separated

variable {α : Type} {adjoins : α → α → Prop} {isSeparator : α → Bool} {separator : α}

/-! ## Groups -/

/-- A group is a piece that is not empty. -/
theorem mem_groups {elements group : List α} :
    group ∈ groups isSeparator elements ↔ group ∈ pieces isSeparator elements ∧ group ≠ [] := by
  simp [groups]

/-- A group holds something, but no separator. -/
theorem filled_of_mem_groups {elements group : List α}
    (isGroup : group ∈ groups isSeparator elements) :
    group ≠ [] ∧ ∀ element ∈ group, isSeparator element = false := by
  rcases mem_groups.1 isGroup with ⟨isPiece, nonempty⟩
  exact ⟨nonempty, not_separator_of_mem_pieces isPiece⟩

/-- Separators in front of a list do not matter for its groups. -/
theorem groups_run_append {run : List α} (separate : ∀ element ∈ run, isSeparator element = true)
    (rest : List α) : groups isSeparator (run ++ rest) = groups isSeparator rest := by
  induction run with
  | nil => rfl
  | cons first more hypothesis =>
      rw [List.forall_mem_cons] at separate
      calc groups isSeparator (first :: more ++ rest)
          = groups isSeparator ([] ++ first :: (more ++ rest)) := rfl
        _ = groups isSeparator [] ++ groups isSeparator (more ++ rest) :=
            groups_append_separator isSeparator [] _ first separate.1
        _ = groups isSeparator rest := by rw [groups_nil, List.nil_append, hypothesis separate.2]

/-- Separators behind a list do not matter for its groups. -/
theorem groups_append_run {run : List α} (separate : ∀ element ∈ run, isSeparator element = true)
    (front : List α) : groups isSeparator (front ++ run) = groups isSeparator front := by
  cases run with
  | nil => rw [List.append_nil]
  | cons first more =>
      rw [List.forall_mem_cons] at separate
      have nothing := groups_run_append separate.2 []
      rw [List.append_nil, groups_nil] at nothing
      rw [groups_append_separator isSeparator front more first separate.1, nothing,
        List.append_nil]

/-! ## Lists between separators -/

/-- A relation holds of neighbours in a list with a separator before and behind it. -/
def Fenced (adjoins : α → α → Prop) (separator : α) (elements : List α) : Prop :=
  (separator :: (elements ++ [separator])).IsChain adjoins

theorem fenced_nil : Fenced adjoins separator [] ↔ adjoins separator separator := by
  simp [Fenced]

/-- A separator stands at the ends of both lists that it is between. -/
theorem fenced_append_cons {front back : List α} :
    Fenced adjoins separator (front ++ separator :: back) ↔
      Fenced adjoins separator front ∧ Fenced adjoins separator back := by
  rw [Fenced, List.append_assoc, List.cons_append, List.isChain_cons_split]
  rfl

/-- The neighbours of separators are the first and the last element. -/
theorem fenced_iff {elements : List α} (nonempty : elements ≠ []) :
    Fenced adjoins separator elements ↔
      (∀ first ∈ elements.head?, adjoins separator first) ∧ elements.IsChain adjoins ∧
        ∀ last ∈ elements.getLast?, adjoins last separator := by
  rcases List.exists_cons_of_ne_nil nonempty with ⟨first, more, rfl⟩
  rw [Fenced, List.isChain_cons, List.isChain_append]
  simp

/-- What holds of neighbours in a list holds of those in its pieces. -/
theorem fenced_iff_pieces {elements : List α}
    (isSeparator_eq : ∀ element ∈ elements, isSeparator element = true → element = separator) :
    Fenced adjoins separator elements ↔
      ∀ piece ∈ pieces isSeparator elements, Fenced adjoins separator piece := by
  have whole (parts : List (List α)) : parts.modifyHead ([] ++ ·) = parts := by
    cases parts <;> rfl
  -- The first piece goes on with what was read of it before.
  suffices general : ∀ front : List α, Fenced adjoins separator (front ++ elements) ↔
      ∀ piece ∈ (pieces isSeparator elements).modifyHead (front ++ ·),
        Fenced adjoins separator piece by
    have behind := general []
    rwa [whole] at behind
  induction elements with
  | nil => simp [pieces]
  | cons element rest hypothesis =>
      intro front
      have later := hypothesis fun other member =>
        isSeparator_eq other (List.mem_cons_of_mem _ member)
      unfold pieces
      split
      · rename_i separates
        have behind := later []
        rw [whole, List.nil_append] at behind
        rw [isSeparator_eq element List.mem_cons_self separates, fenced_append_cons, behind]
        simp
      · have behind := later (front ++ [element])
        rw [List.append_assoc, List.singleton_append] at behind
        rw [behind, List.modifyHead_modifyHead]
        simp [Function.comp_def]

/-- Two lists can stand one behind the other if their ends can. -/
theorem fenced_append_iff {front back : List α} (frontFilled : front ≠ []) (backFilled : back ≠ [])
    (isFront : Fenced adjoins separator front) (isBack : Fenced adjoins separator back) :
    Fenced adjoins separator (front ++ back) ↔
      ∀ last ∈ front.getLast?, ∀ first ∈ back.head?, adjoins last first := by
  rw [fenced_iff frontFilled] at isFront
  rw [fenced_iff backFilled] at isBack
  rw [fenced_iff (by simp [frontFilled]), List.head?_append_of_ne_nil _ frontFilled,
    List.getLast?_append_of_ne_nil _ backFilled, List.isChain_append]
  constructor
  · rintro ⟨_, ⟨_, _, between⟩, _⟩
    exact between
  · intro between
    exact ⟨isFront.1, ⟨isFront.2.1, isBack.2.1, between⟩, isBack.2.2⟩

/-- Some element or separator is behind the first element. -/
theorem Fenced.exists_behind {elements : List α} (fenced : Fenced adjoins separator elements)
    {first : α} (isFirst : first ∈ elements.head?) : ∃ behind, adjoins first behind := by
  rcases List.head?_eq_some_iff.1 isFirst with ⟨rest, rfl⟩
  rw [Fenced, List.cons_append, List.isChain_cons_cons] at fenced
  cases rest with
  | nil => exact ⟨separator, fenced.2.rel⟩
  | cons next more => exact ⟨next, fenced.2.rel⟩

/-! ## Joined lists -/

/-- Joining puts a separator between parts, and one part is as it is. -/
theorem join_induction {motive : List α → Prop} (nil : motive [])
    (between : ∀ front back, motive front → motive back → motive (front ++ separator :: back))
    {parts : List (List α)} (isPart : ∀ part ∈ parts, motive part) :
    motive (join separator parts) := by
  have rest : ∀ part ∈ parts.dropWhile List.isEmpty, motive part :=
    fun part member => isPart part ((List.dropWhile_sublist _).mem member)
  rw [join]
  generalize parts.dropWhile List.isEmpty = left at rest
  induction left with
  | nil => exact nil
  | cons part more hypothesis =>
      have first := rest part List.mem_cons_self
      have later := hypothesis fun other member => rest other (List.mem_cons_of_mem _ member)
      cases more with
      | nil => simpa using first
      | cons next more =>
          rw [List.intercalate_cons_cons, List.append_assoc, List.singleton_append]
          exact between _ _ first later

/-- Nothing is left out where every part holds something. -/
theorem join_of_filled {parts : List (List α)} (filled : ∀ part ∈ parts, part ≠ []) :
    join separator parts = List.intercalate [separator] parts := by
  rw [join]
  cases parts with
  | nil => rfl
  | cons part rest =>
      have nonempty := filled part List.mem_cons_self
      rw [List.dropWhile_cons_of_neg (by simpa using nonempty)]

/-- What holds of neighbours in parts that are put together holds of those in each part. -/
theorem fenced_join_iff {parts : List (List α)} (nonempty : parts ≠ [])
    (filled : ∀ part ∈ parts, part ≠ []) :
    Fenced adjoins separator (join separator parts) ↔
      ∀ part ∈ parts, Fenced adjoins separator part := by
  rw [join_of_filled filled]
  clear filled
  induction parts with
  | nil => exact absurd rfl nonempty
  | cons part rest hypothesis =>
      cases rest with
      | nil => simp
      | cons next more =>
          rw [List.intercalate_cons_cons, List.append_assoc, List.singleton_append,
            fenced_append_cons, hypothesis (List.cons_ne_nil _ _)]
          simp

/-- What is put together begins with its first part. -/
theorem head?_join {parts : List (List α)} (filled : ∀ part ∈ parts, part ≠ []) :
    (join separator parts).head? = parts.head?.bind List.head? := by
  rw [join_of_filled filled]
  cases parts with
  | nil => rfl
  | cons part rest =>
      have nonempty := filled part List.mem_cons_self
      cases rest with
      | nil => simp
      | cons next more =>
          rw [List.intercalate_cons_cons, List.append_assoc, List.head?_append_of_ne_nil _ nonempty]
          rfl

/-- What is put together ends with its last part. -/
theorem getLast?_join {parts : List (List α)} (filled : ∀ part ∈ parts, part ≠ []) :
    (join separator parts).getLast? = parts.getLast?.bind List.getLast? := by
  rw [join_of_filled filled]
  induction parts with
  | nil => rfl
  | cons part rest hypothesis =>
      have later := hypothesis fun other member => filled other (List.mem_cons_of_mem _ member)
      cases rest with
      | nil => simp
      | cons next more =>
          have behind : List.intercalate [separator] (next :: more) ≠ [] := by
            have nonempty := filled next (by simp)
            cases more <;> simp [nonempty]
          rw [List.intercalate_cons_cons, List.getLast?_append_of_ne_nil _ behind, later,
            List.getLast?_cons_cons]

/-- Joining writes no other separator than the one that it is given. -/
theorem eq_separator_of_mem_join {parts : List (List α)}
    (none : ∀ part ∈ parts, ∀ element ∈ part, isSeparator element = false) :
    ∀ element ∈ join separator parts, isSeparator element = true → element = separator := by
  refine join_induction
    (motive := fun elements =>
      ∀ element ∈ elements, isSeparator element = true → element = separator)
    (by simp) ?_ ?_
  · intro front back inFront inBack element member separates
    rcases List.mem_append.1 member with isFront | isBehind
    · exact inFront element isFront separates
    · rcases List.mem_cons.1 isBehind with same | isBack
      · exact same
      · exact inBack element isBack separates
  · intro part isPart element member separates
    rw [none part isPart element member] at separates
    contradiction

/-- All pieces together, with the separator between them, are the list that they were cut from. -/
theorem intercalate_pieces {elements : List α}
    (isSeparator_eq : ∀ element ∈ elements, isSeparator element = true → element = separator) :
    List.intercalate [separator] (pieces isSeparator elements) = elements := by
  induction elements with
  | nil => rfl
  | cons element rest hypothesis =>
      have later := hypothesis fun other member =>
        isSeparator_eq other (List.mem_cons_of_mem _ member)
      rcases List.exists_cons_of_ne_nil (pieces_ne_nil isSeparator rest) with ⟨piece, more, shape⟩
      rw [shape] at later
      rw [pieces, shape]
      split
      · rename_i separates
        rw [List.intercalate_cons_cons, later, List.nil_append, List.singleton_append,
          isSeparator_eq element List.mem_cons_self separates]
      · -- The element joins the first piece, and nothing changes behind that.
        cases more with
        | nil => simpa using later
        | cons next others =>
            rw [List.intercalate_cons_cons] at later
            rw [List.modifyHead_cons, List.intercalate_cons_cons, List.cons_append,
              List.cons_append, later]

/-! ## Tidy lists -/

/-- Not both of two elements are separators. -/
def NotDoubled (isSeparator : α → Bool) (left right : α) : Prop :=
  isSeparator left = true → isSeparator right = false

/-- Separators stand neither at the ends of a list nor next to each other. -/
structure Tidy (isSeparator : α → Bool) (elements : List α) : Prop where
  leading : ∀ first ∈ elements.head?, isSeparator first = false
  trailing : ∀ last ∈ elements.getLast?, isSeparator last = false
  doubled : elements.IsChain (NotDoubled isSeparator)

theorem tidy_nil : Tidy isSeparator [] := by
  constructor <;> simp

section

variable (separates : isSeparator separator = true)

include separates

/-- With a separator before and behind it, a tidy list has no two separators next to each other. -/
theorem tidy_iff_fenced {elements : List α} (nonempty : elements ≠ []) :
    Tidy isSeparator elements ↔ Fenced (NotDoubled isSeparator) separator elements := by
  have behind (element : α) :
      NotDoubled isSeparator element separator ↔ isSeparator element = false := by
    simp [NotDoubled, separates]
  have before (element : α) :
      NotDoubled isSeparator separator element ↔ isSeparator element = false := by
    simp [NotDoubled, separates]
  simp only [fenced_iff nonempty, behind, before]
  constructor
  · intro tidy
    exact ⟨tidy.leading, tidy.doubled, tidy.trailing⟩
  · rintro ⟨leading, doubled, trailing⟩
    exact ⟨leading, trailing, doubled⟩

/-- Joining groups gives a tidy list. -/
theorem tidy_join {parts : List (List α)}
    (filled : ∀ part ∈ parts, part ≠ [] ∧ ∀ element ∈ part, isSeparator element = false) :
    Tidy isSeparator (join separator parts) := by
  by_cases empty : join separator parts = []
  · rw [empty]
    exact tidy_nil
  · have nonempty : parts ≠ [] := by
      rintro rfl
      exact empty rfl
    rw [tidy_iff_fenced separates empty,
      fenced_join_iff nonempty fun part isPart => (filled part isPart).1]
    intro part isPart
    rcases filled part isPart with ⟨partFilled, none⟩
    rw [← tidy_iff_fenced separates partFilled]
    constructor
    · exact fun first isFirst => none first (List.mem_of_mem_head? isFirst)
    · exact fun last isLast => none last (List.mem_of_mem_getLast? isLast)
    · have apart : ∀ left ∈ part, ∀ right ∈ part, NotDoubled isSeparator left right :=
        fun _ _ right isRight _ => none right isRight
      exact (List.pairwise_of_forall_mem_list apart).isChain

/-- All groups of a tidy list hold something already. -/
theorem Tidy.groups_eq_pieces {elements : List α} (tidy : Tidy isSeparator elements)
    (nonempty : elements ≠ [])
    (isSeparator_eq : ∀ element ∈ elements, isSeparator element = true → element = separator) :
    groups isSeparator elements = pieces isSeparator elements := by
  rw [tidy_iff_fenced separates nonempty, fenced_iff_pieces isSeparator_eq] at tidy
  refine List.filter_eq_self.2 fun piece isPiece => ?_
  have fenced := tidy piece isPiece
  cases piece with
  | nil => simp [fenced_nil, NotDoubled, separates] at fenced
  | cons => rfl

/--
Splitting and joining give a list back exactly if it is tidy and has no separator in it but the one
that is put between groups.
-/
theorem join_groups_eq_iff {elements : List α} :
    join separator (groups isSeparator elements) = elements ↔
      Tidy isSeparator elements ∧
        ∀ element ∈ elements, isSeparator element = true → element = separator := by
  have filled : ∀ group ∈ groups isSeparator elements,
      group ≠ [] ∧ ∀ element ∈ group, isSeparator element = false :=
    fun group isGroup => filled_of_mem_groups isGroup
  constructor
  · intro same
    rw [← same]
    exact ⟨tidy_join separates filled,
      eq_separator_of_mem_join fun group isGroup => (filled group isGroup).2⟩
  · rintro ⟨tidy, isSeparator_eq⟩
    by_cases empty : elements = []
    · rw [empty]
      rfl
    · rw [join_of_filled fun group isGroup => (filled group isGroup).1,
        tidy.groups_eq_pieces separates empty isSeparator_eq, intercalate_pieces isSeparator_eq]

end

example : join ',' (groups (· = ',') ",ab,,c,".toList) = "ab,c".toList := by
  decide

/-! ## Splitting and joining -/

/-- The laws of cutting lists at their separators and of putting a separator between lists. -/
structure SplitsAndJoins (isSeparator : α → Bool) (separator : α)
    (split : List α → List (List α)) (join : List (List α) → List α) : Prop where
  /-- Lists are joined group by group, whether they are empty or have separators in them. -/
  split_join (parts : List (List α)) : split (join parts) = parts.flatMap split
  /-- Every group holds something, but no separator. -/
  filled (elements : List α) :
    ∀ group ∈ split elements, group ≠ [] ∧ ∀ element ∈ group, isSeparator element = false
  /-- The groups hold everything but the separators, in order. -/
  flatten_split (elements : List α) :
    (split elements).flatten = elements.filter fun element => !isSeparator element
  tidy (elements : List α) : Tidy isSeparator (join (split elements))
  split_again (elements : List α) : split (join (split elements)) = split elements
  /-- Only what is tidy, and has no other separators, is joined from its groups again. -/
  join_split_iff (elements : List α) :
    join (split elements) = elements ↔
      Tidy isSeparator elements ∧
        ∀ element ∈ elements, isSeparator element = true → element = separator

theorem splitsAndJoins (separates : isSeparator separator = true) :
    SplitsAndJoins isSeparator separator (groups isSeparator) (join separator) where
  split_join := groups_join separates
  filled _ _ := filled_of_mem_groups
  flatten_split := flatten_groups
  tidy _ := tidy_join separates fun _ => filled_of_mem_groups
  split_again elements := by
    rw [groups_join separates, flatMap_groups_of_filled fun _ => filled_of_mem_groups]
  join_split_iff _ := join_groups_eq_iff separates

end CssAuthoring.Separated
