import CssAuthoring.Project.Files

/-!
# Changes of files

A file that is there is written anew, touched or deleted.  Where nothing lies below a file, this
changes no other file, and again nothing lies below a file.

Main statement: `content?_change`, a change of a file changes nothing else.
-/

namespace CssAuthoring

namespace OrderedTable

/-- Where entries are kept by their keys, what was kept is there as before. -/
theorem find?_filter {κ ν : Type} [DecidableEq κ] (table : OrderedTable κ ν) (isKept : κ → Bool)
    (key : κ) :
    (⟨table.entries.filter fun entry => isKept entry.1⟩ : OrderedTable κ ν).find? key =
      if isKept key then table.find? key else none := by
  rcases table with ⟨entries⟩
  simp only [find?, List.find?_filter]
  split
  · rename_i kept
    congr 2
    funext entry
    by_cases wanted : entry.1 = key <;> simp [wanted, kept]
  · rename_i dropped
    rw [Option.map_eq_none_iff, List.find?_eq_none]
    rintro entry _ both
    simp only [decide_eq_true_eq] at both
    exact dropped (both.2 ▸ both.1)

end OrderedTable

namespace Project

namespace Files

variable {files : Files} {file : Location}

theorem inside_of_isFile (isFile : files.isFile file = true) : file.names ≠ [] := by
  intro isRoot
  simp [Files.isFile, isDirectory, content?, isRoot] at isFile

theorem contains_of_isFile (isFile : files.isFile file = true) : files.contains file = true := by
  rw [Files.isFile, Bool.and_eq_true] at isFile
  exact isFile.1

/-- Nothing lies below a file. -/
def IsTree (files : Files) : Prop :=
  ∀ file other, files.isFile file = true → files.contains other = true →
    other.isBelow file = true → other = file

theorem isTree_of_keys {files : Files}
    (apart : ∀ file ∈ files.entries.keys, ∀ other ∈ files.entries.keys,
      files.isFile file = true → other.isBelow file = true → other = file) : files.IsTree := by
  have isKey {location : Location} (inside : location.names ≠ [])
      (contained : files.contains location = true) : location ∈ files.entries.keys := by
    simp only [contains, content?, if_neg inside, Option.isSome_map, OrderedTable.find?,
      List.find?_isSome, decide_eq_true_eq] at contained
    rcases contained with ⟨entry, isEntry, rfl⟩
    exact List.mem_map_of_mem isEntry
  intro file other isFile contained below
  have insideFile := inside_of_isFile isFile
  have insideOther : other.names ≠ [] := by
    intro isRoot
    rw [Location.isBelow, isRoot] at below
    cases names : file.names with
    | nil => exact insideFile names
    | cons => simp [names] at below
  exact apart file (isKey insideFile (contains_of_isFile isFile)) other
    (isKey insideOther contained) isFile below

/-- A change of a file that is there. -/
inductive Change where
  | rewrite (content : Content) (isFile : content ≠ .directory)
  | touch
  | delete

/-- The files after a change of one of them. -/
def change (files : Files) (file : Location) : Change → Files
  | .rewrite content _ => files.put file content
  | .touch => files.touch file
  | .delete => files.remove file

theorem content?_write_eq (files : Files) {location : Location} (inside : location.names ≠ [])
    (content : Content) (other : Location) :
    (files.write location content).content? other =
      if other = location then some content else files.content? other := by
  split
  · rename_i same
    rw [same, content?_write files location content inside]
  · rename_i different
    simp [content?, write, OrderedTable.find?_insert, Ne.symm different]

theorem content?_touchEntry (files : Files) (location other : Location) :
    (files.touchEntry location).content? other = files.content? other := by
  unfold touchEntry
  cases found : files.entries.find? location with
  | none => rfl
  | some entry =>
      by_cases same : location = other
      · subst same
        simp [content?, write, OrderedTable.find?_insert, found]
      · simp [content?, write, OrderedTable.find?_insert, same]

theorem content?_remove (isFile : files.isFile file = true) (other : Location) :
    (files.remove file).content? other =
      if other.isBelow file then none else files.content? other := by
  rw [remove, if_pos (contains_of_isFile isFile), content?_touchEntry]
  have kept :=
    OrderedTable.find?_filter files.entries (fun location => !location.isBelow file) other
  rw [content?, content?]
  dsimp only at kept ⊢
  rw [kept]
  by_cases isRoot : other.names = []
  · have above : other.isBelow file = false := by
      have inside := inside_of_isFile isFile
      rw [Location.isBelow, isRoot]
      cases names : file.names with
      | nil => exact absurd names inside
      | cons => rfl
    simp [isRoot, above]
  · cases other.isBelow file <;> simp [isRoot]

/-- A change of a file changes nothing else, and never makes a directory of it. -/
theorem content?_change (tree : files.IsTree) (isFile : files.isFile file = true)
    (change : Change) :
    ∃ content, content ≠ some .directory ∧ ∀ other,
      (files.change file change).content? other =
        if other = file then content else files.content? other := by
  have isThere := contains_of_isFile isFile
  cases change with
  | rewrite content isWritten =>
      refine ⟨some content, by simp [isWritten], fun other => ?_⟩
      rw [Files.change, put, if_pos isThere, content?_write_eq files (inside_of_isFile isFile)]
  | touch =>
      refine ⟨files.content? file, ?_, fun other => ?_⟩
      · intro isDirectory
        simp [Files.isFile, Files.isDirectory, isDirectory] at isFile
      · rw [Files.change, touch, if_pos isThere, content?_touchEntry]
        split
        · rename_i same
          rw [same]
        · rfl
  | delete =>
      refine ⟨none, by simp, fun other => ?_⟩
      rw [Files.change, content?_remove isFile]
      by_cases same : other = file
      · subst same
        simp [Location.isBelow]
      · rw [if_neg same]
        split
        · rename_i below
          -- Nothing else lies below the file, so that nothing else is removed.
          cases found : files.content? other with
          | none => rfl
          | some content =>
              have contained : files.contains other = true := by simp [contains, found]
              exact absurd (tree file other isFile contained below) same
        · rfl

/-- After a change, nothing is a file that was none before. -/
theorem isFile_change (tree : files.IsTree) (isFile : files.isFile file = true) (change : Change)
    {other : Location} (isFileAfter : (files.change file change).isFile other = true) :
    files.isFile other = true := by
  rcases content?_change tree isFile change with ⟨content, _, changed⟩
  by_cases same : other = file
  · rwa [same]
  · simp only [Files.isFile, contains, isDirectory, changed, if_neg same] at isFileAfter ⊢
    exact isFileAfter

theorem isTree_change (tree : files.IsTree) (isFile : files.isFile file = true)
    (change : Change) : (files.change file change).IsTree := by
  rcases content?_change tree isFile change with ⟨content, _, changed⟩
  intro above other isFileAfter containedAfter isBelow
  refine tree above other (isFile_change tree isFile change isFileAfter) ?_ isBelow
  by_cases same : other = file
  · rw [same, contains_of_isFile isFile]
  · rw [contains, changed, if_neg same] at containedAfter
    exact containedAfter

end Files

end Project

end CssAuthoring
