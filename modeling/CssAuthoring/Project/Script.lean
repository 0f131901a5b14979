import CssAuthoring.Path
import CssAuthoring.Sheet.Property

/-!
# Style modules

A style module is a list of statements that make stylesheets, style selectors, give names to values
and use other modules.  The statements of a module see each other's names only, and those that every
module has from its start.  A statement may also end the whole program.

Main statement: `text_single`, the text of an undotted module name is its only part.
-/

namespace CssAuthoring.Project

/-- The dotted name of a module, by its parts. -/
abbrev ModuleName := List Text

namespace ModuleName

/-- The module name that a text spells. -/
def ofText (text : Text) : ModuleName :=
  Separated.pieces (· = '.') text

/-- The text of a module name. -/
def text (name : ModuleName) : Text :=
  List.intercalate ['.'] name

/-- The names of the packages that a module is inside, from the outermost on, and its own name. -/
def path (name : ModuleName) : List ModuleName :=
  (List.range (name.length + 1)).map name.take

/-- The name of this library. -/
def library : Text := "surimi"

/-- Whether a module is this library or inside it. -/
def isOwn (name : ModuleName) : Bool :=
  name.head? = some library

@[simp]
theorem text_single (part : Text) : text [part] = part := by
  simp [text]

end ModuleName

/-- What a statement refers to: a value as written, or a name of its module. -/
inductive Operand where
  | setting (value : Sheet.Setting)
  | name (name : Text)
  deriving DecidableEq, Repr

/-- A statement of a style module. -/
inductive Statement where
  /-- Gives a name to a new stylesheet. -/
  | newSheet (name : Text)
  /-- Styles the selectors in the stylesheet with a name. -/
  | style (sheet : Text) (selectors : List Text) (properties : List (Text × Operand))
  | clear (sheet : Text)
  | assign (name : Text) (operand : Operand)
  | delete (name : Text)
  /-- Gives the name of a module to that module. -/
  | useModule (module : ModuleName)
  /-- Takes a name over from a module. -/
  | useName (module : ModuleName) (name : Text)
  | fail (message : Text)
  /-- Ends the program. -/
  | exit (message : Text)
  deriving DecidableEq, Repr

/--
The names of the modules that a statement may bring into memory, packages around them included.
-/
def Statement.wanted : Statement → List ModuleName
  | useModule module => module.path
  | useName module name => ModuleName.path (module ++ [name])
  | _ => []

end CssAuthoring.Project
