import CssAuthoring.OrderedTable
import CssAuthoring.Project.Script
import CssAuthoring.Sheet.Edit

/-!
# Memory of running modules

The stylesheets and modules that statements make are numbered in the order in which they are made
and never go away; a name refers to one of them, or to a value.  A module stays loaded, under its
name, until it is evicted.

Main statements: `sheet_withSheet`, a stylesheet that was put back is there;
`names_bind`, a name that was bound refers to what it was bound to.
-/

namespace CssAuthoring.Project

/-- What a name refers to. -/
inductive Thing where
  | value (setting : Sheet.Setting)
  | sheet (index : Nat)
  | module (index : Nat)
  /-- What makes new stylesheets. -/
  | sheetMaker
  deriving DecidableEq, Repr

/-- Whether a module may have modules inside, and in which directory they are. -/
inductive Package where
  | none
  | regular (directory : Location)
  /-- A directory without a file of its own. -/
  | bare (directory : Location)
  deriving DecidableEq, Repr

/-- A module in memory. -/
structure Module where
  name : ModuleName
  /-- The file it was read from. -/
  origin : Option Location
  package : Package
  /-- Whether its statements are still running. -/
  loading : Bool
  names : OrderedTable Text Thing
  deriving Repr

/-- Stylesheets and modules by number, and the modules that are loaded. -/
structure Memory where
  sheets : List Sheet
  modules : List Module
  loaded : OrderedTable ModuleName Nat
  deriving Repr

namespace Memory

/-- The memory before anything has run. -/
def empty : Memory := ⟨[], [], .empty⟩

/-- A stylesheet by its number. -/
def sheet (memory : Memory) (index : Nat) : Sheet :=
  (memory.sheets[index]?).getD .empty

/-- Puts a stylesheet back under its number. -/
def withSheet (memory : Memory) (index : Nat) (sheet : Sheet) : Memory :=
  { memory with sheets := memory.sheets.set index sheet }

/-- A module by its number. -/
def module? (memory : Memory) (index : Nat) : Option Module :=
  memory.modules[index]?

/-- Changes a module. -/
def modifyModule (memory : Memory) (index : Nat) (change : Module → Module) : Memory :=
  { memory with modules := memory.modules.modify index change }

/-- The names of a module. -/
def names (memory : Memory) (frame : Nat) : OrderedTable Text Thing :=
  ((memory.module? frame).map Module.names).getD .empty

/-- Lets a name of a module refer to something. -/
def bind (memory : Memory) (frame : Nat) (name : Text) (thing : Thing) : Memory :=
  memory.modifyModule frame fun module => { module with names := module.names.insert name thing }

/-- Takes a name away from a module. -/
def unbind (memory : Memory) (frame : Nat) (name : Text) : Memory :=
  memory.modifyModule frame fun module => { module with names := module.names.erase name }

/-- Adds a module, and gives its number. -/
def addModule (memory : Memory) (module : Module) : Memory × Nat :=
  ({ memory with modules := memory.modules ++ [module] }, memory.modules.length)

/-- Adds a stylesheet, and gives its number. -/
def addSheet (memory : Memory) : Memory × Nat :=
  ({ memory with sheets := memory.sheets ++ [.empty] }, memory.sheets.length)

/-- Enters a module under its name. -/
def enter (memory : Memory) (name : ModuleName) (index : Nat) : Memory :=
  { memory with loaded := memory.loaded.insert name index }

/-- Removes a module name from the loaded ones. -/
def evict (memory : Memory) (name : ModuleName) : Memory :=
  { memory with loaded := memory.loaded.erase name }

/-- The name under which every module finds what makes new stylesheets. -/
def makerName : Text := "Stylesheet"

/-- The name under which every module finds what it is called. -/
def selfName : Text := "__name__"

/-- The name under which a module finds the text of the file that it was read from. -/
def fileName : Text := "__file__"

/-- The type of what a name refers to, as messages call it. -/
def typeName : Thing → Text
  | .value (.text _) => "str"
  | .value (.numeral (.int _)) => "int"
  | .value (.numeral (.float _)) => "float"
  | .value (.truth _) => "bool"
  | .value .missing => "NoneType"
  | .sheet _ => makerName
  | .module _ => "module"
  | .sheetMaker => "type"

/-- The text that a name of a module refers to, if it refers to a text. -/
def textNamed (memory : Memory) (frame : Nat) (name : Text) : Option Text :=
  match (memory.names frame).find? name with
  | some (.value (.text text)) => some text
  | _ => none

/-- Whether something counts as nothing: an empty text or stylesheet, zero, or what is missing. -/
def isNothing (memory : Memory) : Thing → Bool
  | .value (.text text) => text.isEmpty
  | .value (.numeral number) => number.sameValue (.int 0)
  | .value (.truth value) => !value
  | .value .missing => true
  | .sheet index => (memory.sheet index).nodes.isEmpty
  | .module _ => false
  | .sheetMaker => false

/--
The file that a module says it was read from, if any.  Where it says something that is no text, the
type of that.
-/
def fileOf (memory : Memory) (index : Nat) : Except Text (Option Location) :=
  match (memory.names index).find? fileName with
  | none => .ok none
  | some thing =>
    if memory.isNothing thing then .ok none
    else
      match thing with
      | .value (.text text) => .ok (some (.ofText text))
      | other => .error (typeName other)

/-- The form in which a module is shown. -/
def shownModule (module : Module) : Text :=
  let name : Text := "<module " ++ Text.quoted module.name.text
  match module.origin, module.package with
  | some file, _ => name ++ " from " ++ Text.quoted file.text ++ ['>']
  | none, .bare directory => name ++ " (namespace) from [" ++ Text.quoted directory.text ++ "]>"
  | none, _ => name ++ ['>']

/-- The setting that something stands for in a declaration. -/
def setting (memory : Memory) : Thing → Sheet.Setting
  | .value setting => setting
  | .sheet index => .text (memory.sheet index).shown
  | .module index => .text (((memory.module? index).map shownModule).getD [])
  | .sheetMaker => .text "<class 'surimi.stylesheet.Stylesheet'>"

/-- The stylesheets among the names of a module, each once, in the order of the names. -/
def sheetsOf (memory : Memory) (frame : Nat) : List Sheet :=
  let indices := (memory.names frame).values.filterMap fun thing =>
    match thing with
    | .sheet index => some index
    | _ => none
  indices.eraseDups.map memory.sheet

/-- A stylesheet that was put back is there. -/
theorem sheet_withSheet (memory : Memory) (index : Nat) (sheet : Sheet)
    (made : index < memory.sheets.length) : (memory.withSheet index sheet).sheet index = sheet := by
  simp [Memory.sheet, withSheet, made]

/-- A name that was bound refers to what it was bound to, and other names stay. -/
theorem names_bind (memory : Memory) (frame : Nat) (name other : Text) (thing : Thing)
    (made : frame < memory.modules.length) :
    ((memory.bind frame name thing).names frame).find? other =
      if name = other then some thing else (memory.names frame).find? other := by
  simp [names, bind, modifyModule, module?, made, OrderedTable.find?_insert]

end Memory

end CssAuthoring.Project
