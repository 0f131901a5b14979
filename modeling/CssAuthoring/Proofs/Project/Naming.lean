import CssAuthoring.Project.Files

/-!
# Names of locations

The text of a location leads back to it, unless one of its names is empty, holds a slash or is made
of one or two dots.  No location that a text names has such a name, so that files keep clear of them
as long as whoever edits them names files by texts.

Main statements: `ofText_text`, the text of a location leads back to it; `named_ofText`, what a text
names may be named again; `named_edit`, edits of files keep to such locations.
-/

namespace CssAuthoring

namespace Location

/-- A location whose names may all stand between slashes. -/
def Named (location : Location) : Prop :=
  ∀ name ∈ location.names, name ≠ [] ∧ name ≠ ['.'] ∧ name ≠ ['.', '.'] ∧ '/' ∉ name

instance (location : Location) : Decidable location.Named :=
  inferInstanceAs (Decidable (∀ name ∈ location.names,
    name ≠ [] ∧ name ≠ ['.'] ∧ name ≠ ['.', '.'] ∧ '/' ∉ name))

theorem foldl_stepTo {names : List Text} (named : ∀ name ∈ names, name ≠ ['.', '.'])
    (location : Location) : names.foldl Path.stepTo location = ⟨location.names ++ names⟩ := by
  induction names generalizing location with
  | nil => rw [List.foldl_nil, List.append_nil]
  | cons name rest hypothesis =>
      have others := hypothesis fun other member => named other (List.mem_cons_of_mem _ member)
      rw [List.foldl_cons, others, Path.stepTo, if_neg (named name List.mem_cons_self),
        List.append_assoc, List.singleton_append]

/-- The text of a location leads back to it. -/
theorem ofText_text {location : Location} (named : location.Named) :
    ofText location.text = location := by
  have parts : Path.partsOf location.text = location.names := by
    have found := Separated.groups_append_separator (· = '/') []
      (List.intercalate ['/'] location.names) '/' (by decide)
    rw [List.nil_append, Separated.groups_nil, List.nil_append,
      Separated.groups_intercalate (by decide)] at found
    · rw [Path.partsOf, text, found, List.filter_eq_self]
      exact fun name isName => by simp [(named name isName).2.1]
    · intro name isName
      refine ⟨(named name isName).1, fun character isInside => ?_⟩
      rw [decide_eq_false_iff_not]
      rintro rfl
      exact (named name isName).2.2.2 isInside
  rw [ofText, Path.ofText, Path.resolve, parts]
  exact foldl_stepTo (fun name isName => (named name isName).2.2.1) ⟨[]⟩

theorem named_parent {location : Location} (named : location.Named) : location.parent.Named :=
  fun name isName => named name (List.dropLast_subset _ isName)

/-- What a text names may be named again. -/
theorem named_ofText (text : Text) : (ofText text).Named := by
  have part {name : Text} (isPart : name ∈ Path.partsOf text) :
      name ≠ [] ∧ name ≠ ['.'] ∧ '/' ∉ name := by
    rcases Path.text_parts text name isPart with ⟨filled, notDot⟩
    refine ⟨filled, notDot, fun isInside => ?_⟩
    simp only [Path.partsOf, Separated.groups, List.mem_filter] at isPart
    simpa using Separated.not_separator_of_mem_pieces isPart.1.1 '/' isInside
  suffices general : ∀ (parts : List Text) (location : Location), location.Named →
      (∀ name ∈ parts, name ≠ [] ∧ name ≠ ['.'] ∧ '/' ∉ name) →
        (parts.foldl Path.stepTo location).Named from
    general (Path.partsOf text) ⟨[]⟩ (fun _ isName => absurd isName List.not_mem_nil)
      fun name isPart => part isPart
  intro parts
  induction parts with
  | nil => exact fun location named _ => named
  | cons name rest hypothesis =>
      intro location named plain
      refine hypothesis _ ?_ fun other member => plain other (List.mem_cons_of_mem _ member)
      unfold Path.stepTo
      split
      · exact named_parent named
      · rename_i notDots
        rcases plain name List.mem_cons_self with ⟨filled, notDot, noSlash⟩
        intro other isName
        rcases List.mem_append.1 isName with former | isLast
        · exact named other former
        · rw [List.mem_singleton.1 isLast]
          exact ⟨filled, notDot, notDots, noSlash⟩

end Location

namespace Project.Files

/-- All files and directories are at locations that may be named. -/
def Named (files : Files) : Prop :=
  ∀ entry ∈ files.entries.entries, entry.1.Named

instance (files : Files) : Decidable files.Named :=
  inferInstanceAs (Decidable (∀ entry ∈ files.entries.entries, entry.1.Named))

/-- The location that an edit is about. -/
def Edit.location : Edit → Location
  | .write location _ => location
  | .touch location => location
  | .delete location => location
  | .makeDirectory location => location

section

variable {files : Files} {location : Location}

theorem named_of_isFile (named : files.Named) (isFile : files.isFile location = true) :
    location.Named := by
  rw [Files.isFile, Bool.and_eq_true, contains, content?] at isFile
  rcases isFile with ⟨isThere, isOther⟩
  split at isThere
  · rename_i isRoot
    simp [isDirectory, content?, isRoot] at isOther
  · rw [Option.isSome_map] at isThere
    rcases Option.isSome_iff_exists.1 isThere with ⟨entry, found⟩
    exact named _ (OrderedTable.mem_of_find? found)

theorem named_write (named : files.Named) (isNamed : location.Named) (content : Content) :
    (files.write location content).Named := by
  intro entry isEntry
  rcases OrderedTable.mem_insert isEntry with former | rfl
  · exact named entry former
  · exact isNamed

theorem named_touchEntry (named : files.Named) (location : Location) :
    (files.touchEntry location).Named := by
  unfold touchEntry
  cases found : files.entries.find? location with
  | none => exact named
  | some entry =>
      have isNamed : location.Named := named _ (OrderedTable.mem_of_find? found)
      exact named_write named isNamed _

theorem named_makeDirectories (named : files.Named) (isNamed : location.Named) :
    (files.makeDirectories location.names).Named := by
  refine List.foldlRecOn (List.range location.names.length) _ named fun made namedMade depth _ => ?_
  dsimp only
  split
  · exact namedMade
  · have isPrefix : Location.Named ⟨location.names.take (depth + 1)⟩ :=
      fun name isName => isNamed name (List.mem_of_mem_take isName)
    exact named_touchEntry (named_write namedMade isPrefix _) _

theorem named_put (named : files.Named) (isNamed : location.Named) (content : Content) :
    (files.put location content).Named := by
  unfold put
  split
  · exact named_write named isNamed content
  · have made := named_makeDirectories named (Location.named_parent isNamed)
    exact named_touchEntry (named_write made isNamed content) _

theorem named_remove (named : files.Named) (location : Location) :
    (files.remove location).Named := by
  unfold remove
  split
  · refine named_touchEntry ?_ _
    exact fun entry isEntry => named entry (List.mem_filter.1 isEntry).1
  · exact named

/-- Edits of files at locations that may be named keep to such locations. -/
theorem named_edit (named : files.Named) {edit : Edit} (isNamed : edit.location.Named) :
    (files.edit edit).Named := by
  cases edit with
  | write location statements => exact named_put named isNamed _
  | touch location =>
      rw [Files.edit, touch]
      split
      · exact named_touchEntry named location
      · exact named_put named isNamed _
  | delete location => exact named_remove named location
  | makeDirectory location =>
      rw [Files.edit, makeDirectory]
      split
      · exact named_touchEntry named location
      · exact named_put named isNamed _

end

end Project.Files

end CssAuthoring
