import CssAuthoring.Separated

/-!
# Paths

The texts that name files.  A path keeps its written form apart from empty and `.` parts and
repeated slashes; a location is where an absolute path leads once each `..` has taken back the part
before it.  Resolving goes by the text alone: links among files, which would lead elsewhere, are
left out, and so are null characters, which no path may hold.

Main statements: `text_parts`, parts are never empty or a single dot; `resolve_append`, resolving
goes through the parts from left to right.
-/

namespace CssAuthoring

/-- How a path begins: two slashes at the start are told apart from one. -/
inductive Root where
  | relative
  | single
  | double
  deriving DecidableEq, Repr

/-- A path: its beginning and its parts. -/
structure Path where
  root : Root
  parts : List Text
  deriving DecidableEq, Repr

/-- A place among files: the names that lead to it from the root. -/
structure Location where
  names : List Text
  deriving DecidableEq, Repr

namespace Path

/-- The beginning of a path with so many slashes in front. -/
def rootOf : Nat → Root
  | 0 => .relative
  | 2 => .double
  | _ => .single

/-- The parts of a path between slashes, without empty ones and single dots. -/
def partsOf (text : Text) : List Text :=
  (Separated.groups (· = '/') text).filter (· ≠ ['.'])

/-- The path that a text names. -/
def ofText (text : Text) : Path :=
  ⟨rootOf (text.takeWhile (· = '/')).length, partsOf text⟩

/-- The slashes in front of a path. -/
def rootText : Root → Text
  | .relative => []
  | .single => ['/']
  | .double => ['/', '/']

/-- The text of a path; the path without parts is a single dot. -/
def text (path : Path) : Text :=
  match rootText path.root ++ List.intercalate ['/'] path.parts with
  | [] => ['.']
  | written => written

/-- The directory in which a path names an entry. -/
def parent (path : Path) : Path :=
  { path with parts := path.parts.dropLast }

/-- One step of resolving: two dots take back the name before them. -/
def stepTo (location : Location) (part : Text) : Location :=
  if part = ['.', '.'] then ⟨location.names.dropLast⟩ else ⟨location.names ++ [part]⟩

/-- Where a path leads; a relative path is read from the root. -/
def resolve (path : Path) : Location :=
  path.parts.foldl stepTo ⟨[]⟩

theorem text_parts (text : Text) :
    ∀ part ∈ (ofText text).parts, part ≠ [] ∧ part ≠ ['.'] := by
  intro part member
  simp only [ofText, partsOf, Separated.groups, List.mem_filter] at member
  obtain ⟨⟨_, filled⟩, dotted⟩ := member
  exact ⟨by rintro rfl; simp at filled, by simpa using dotted⟩

theorem resolve_append (root : Root) (front back : List Text) :
    resolve ⟨root, front ++ back⟩ = back.foldl stepTo (resolve ⟨root, front⟩) := by
  simp [resolve]

end Path

namespace Location

/-- The text of a location. -/
def text (location : Location) : Text :=
  '/' :: List.intercalate ['/'] location.names

/-- The location that a text names. -/
def ofText (text : Text) : Location :=
  (Path.ofText text).resolve

/-- The directory that holds a location; the root holds itself. -/
def parent (location : Location) : Location :=
  ⟨location.names.dropLast⟩

/-- The location of an entry of a directory. -/
def child (location : Location) (name : Text) : Location :=
  ⟨location.names ++ [name]⟩

/-- Whether a location is another one or lies below it. -/
def isBelow (location other : Location) : Bool :=
  other.names.isPrefixOf location.names

example : (ofText "/a//b/./../c/").text = "/a/c" := by decide
example : (ofText "/../..").text = "/" := by decide

end Location

end CssAuthoring
