import CssAuthoring.Project.Files
import CssAuthoring.Project.Memory

/-!
# Finding modules

A module is looked for in one directory: at the top beside the style module being built, and for a
module inside a package in the directory of that package.  A package with a file of its own comes
before a file with the name of the module, and that before a bare directory.

Main statement: `locate_isFile`, the file that was found is a file.
-/

namespace CssAuthoring.Project

/-- Where a module is: a file, perhaps as a package in a directory, or a bare directory. -/
inductive Source where
  | plain (file : Location)
  | package (file directory : Location)
  | bare (directory : Location)
  deriving DecidableEq, Repr

/-- The name of the file that makes a directory a package. -/
def packageFile : Text := "__init__.py"

/-- The end of the names of files with style modules. -/
def moduleEnding : Text := ".py"

/-- Where a directory has a module. -/
def locate (files : Files) (directory : Location) (name : Text) : Option Source :=
  let inside := directory.child name
  let own := inside.child packageFile
  let beside := directory.child (name ++ moduleEnding)
  if files.isFile own then some (.package own inside)
  else if files.isFile beside then some (.plain beside)
  else if files.isDirectory inside then some (.bare inside)
  else none

/-- The file that a module is read from. -/
def Source.origin : Source → Option Location
  | plain file => some file
  | package file _ => some file
  | bare _ => none

/-- What kind of package a module is. -/
def Source.kind : Source → Package
  | plain _ => .none
  | package _ directory => .regular directory
  | bare directory => .bare directory

/--
Where modules inside a package are looked for; the parts of its name are given backwards.  A bare
directory is looked for again each time, and the last one that was found stays.
-/
def directoryOf (files : Files) (search : Location) (memory : Memory) :
    List Text → Memory × Option Location
  | [] => (memory, some search)
  | last :: outer =>
    let name := (last :: outer).reverse
    match (memory.loaded.find? name).bind fun index => (memory.module? index).map (index, ·) with
    | none => (memory, none)
    | some (index, module) =>
      match module.package with
      | .none => (memory, none)
      | .regular directory => (memory, some directory)
      | .bare known =>
        let (memory, around) := directoryOf files search memory outer
        match around.bind fun directory => locate files directory last with
        | some (.bare found) =>
          (memory.modifyModule index fun module => { module with package := .bare found },
            some found)
        | _ => (memory, some known)

/-- The file that was found is a file. -/
theorem locate_isFile {files : Files} {directory file : Location} {name : Text} {source : Source}
    (found : locate files directory name = some source) (read : source.origin = some file) :
    files.isFile file = true := by
  unfold locate at found
  simp only at found
  split at found
  · cases found
    simp only [Source.origin, Option.some.injEq] at read
    rwa [← read]
  · split at found
    · cases found
      simp only [Source.origin, Option.some.injEq] at read
      rwa [← read]
    · split at found
      · cases found
        simp [Source.origin] at read
      · contradiction

end CssAuthoring.Project
