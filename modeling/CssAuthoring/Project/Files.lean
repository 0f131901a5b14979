import CssAuthoring.OrderedTable
import CssAuthoring.Project.Script

/-!
# Files of a project

Files and directories by location.  Each has a stamp that tells when it was last changed; no two
changes have the same stamp.  Putting a file where none was, or removing one, also changes the
directory that holds it.  There are no links: what stands at a location stands nowhere else.

Main statements: `content?_write`, what was written is there; `stamp?_write_ne`, writing to a file
that is there leaves all others as they are.
-/

namespace CssAuthoring.Project

/-- What stands at a location. -/
inductive Content where
  | script (statements : List Statement)
  | text (text : Text)
  | directory
  deriving DecidableEq, Repr

/-- A file or directory with the stamp of its last change. -/
structure Entry where
  content : Content
  stamp : Nat
  deriving DecidableEq, Repr

/-- Files and directories, and the stamp of the next change. -/
structure Files where
  entries : OrderedTable Location Entry
  clock : Nat
  deriving Repr

namespace Files

/-- No files. -/
def empty : Files := ⟨.empty, 0⟩

/-- What stands at a location; the root is always a directory. -/
def content? (files : Files) (location : Location) : Option Content :=
  if location.names = [] then some .directory
  else (files.entries.find? location).map Entry.content

/-- Whether anything stands at a location. -/
def contains (files : Files) (location : Location) : Bool :=
  (files.content? location).isSome

/-- Whether a directory stands at a location. -/
def isDirectory (files : Files) (location : Location) : Bool :=
  files.content? location = some .directory

/-- Whether a file stands at a location. -/
def isFile (files : Files) (location : Location) : Bool :=
  files.contains location && !files.isDirectory location

/-- The greatest number of bytes in a name. -/
def nameLimit : Nat := 255

/-- The greatest number of bytes in a path. -/
def pathLimit : Nat := 4095

/--
Whether a location cannot be looked up: its text is too long, or one of its names is that is looked
for in a directory.
-/
def isTooLong (files : Files) (location : Location) : Bool :=
  pathLimit < Text.byteLength location.text ||
    (List.range location.names.length).any fun depth =>
      files.isDirectory ⟨location.names.take depth⟩ &&
        nameLimit < Text.byteLength ((location.names[depth]?).getD [])

/-- When a file or directory was last changed; none if there is none. -/
def stamp? (files : Files) (location : Location) : Option Nat :=
  (files.entries.find? location).map Entry.stamp

/-- Writes content to a location, with a new stamp. -/
def write (files : Files) (location : Location) (content : Content) : Files :=
  ⟨files.entries.insert location ⟨content, files.clock⟩, files.clock + 1⟩

/-- Gives what stands at a location a new stamp. -/
def touchEntry (files : Files) (location : Location) : Files :=
  match files.entries.find? location with
  | some entry => files.write location entry.content
  | none => files

/-- Makes the directory at the end of a way from the root, and those on the way. -/
def makeDirectories (files : Files) (names : List Text) : Files :=
  (List.range names.length).foldl (fun made depth =>
    let location : Location := ⟨names.take (depth + 1)⟩
    if made.contains location then made
    else (made.write location .directory).touchEntry location.parent) files

/-- Puts content at a location, and makes the directories that lead there. -/
def put (files : Files) (location : Location) (content : Content) : Files :=
  if files.contains location then files.write location content
  else
    ((files.makeDirectories location.parent.names).write location content).touchEntry
      location.parent

/-- Gives a file a new stamp; one that is not there is made, without any text. -/
def touch (files : Files) (location : Location) : Files :=
  if files.contains location then files.touchEntry location else files.put location (.text [])

/-- Makes a directory, or gives one that is there a new stamp. -/
def makeDirectory (files : Files) (location : Location) : Files :=
  if files.contains location then files.touchEntry location
  else files.put location .directory

/-- Removes what stands at a location, and all that it holds. -/
def remove (files : Files) (location : Location) : Files :=
  if files.contains location then
    { files with
      entries := ⟨files.entries.entries.filter fun entry => !entry.1.isBelow location⟩ }.touchEntry
        location.parent
  else files

/-- All statements in all files. -/
def statements (files : Files) : List Statement :=
  files.entries.values.flatMap fun entry =>
    match entry.content with
    | .script statements => statements
    | _ => []

/-- A change of files by their author. -/
inductive Edit where
  | write (location : Location) (statements : List Statement)
  | touch (location : Location)
  | delete (location : Location)
  | makeDirectory (location : Location)
  deriving DecidableEq, Repr

/-- The files after an edit. -/
def edit (files : Files) : Edit → Files
  | .write location statements => files.put location (.script statements)
  | .touch location => files.touch location
  | .delete location => files.remove location
  | .makeDirectory location => files.makeDirectory location

/-- What was written to a location is there. -/
theorem content?_write (files : Files) (location : Location) (content : Content)
    (inside : location.names ≠ []) :
    (files.write location content).content? location = some content := by
  simp [content?, write, inside, OrderedTable.find?_insert]

/-- Writing leaves the stamps of all other files as they are. -/
theorem stamp?_write_ne (files : Files) (location other : Location) (content : Content)
    (different : location ≠ other) :
    (files.write location content).stamp? other = files.stamp? other := by
  simp [stamp?, write, OrderedTable.find?_insert, different]

end Files

end CssAuthoring.Project
