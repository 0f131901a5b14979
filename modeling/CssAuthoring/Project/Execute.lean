import CssAuthoring.Builder
import CssAuthoring.Project.Fault
import CssAuthoring.Project.Finder

/-!
# Running style modules

Statements run one after the other in a module, until one fails.  A module that is used runs first,
after the packages that hold it; it stays loaded if it succeeds, and it is entered before it runs,
so that modules may use each other.  A module that fails is not loaded, but the modules that it used
stay.

Modules are imported under the names they are looked for by, also where statements give another
meaning to the name under which a module finds what it is called; messages go by that meaning.

Loading is nested at most as deeply as there are modules to load, each with the packages around it,
so a bound on the depth is enough and is never reached.

Main statements: `perform_fail`, a module fails when it asks to; `ensure_loaded`, a loaded module
does not run again.
-/

namespace CssAuthoring.Project

/-- The memory after some statements, and what came of them. -/
abbrev Ran (α : Type) := Outcome Memory Fault α

/-- How modules are brought into memory by their names. -/
abbrev Importer := Memory → ModuleName → Ran Nat

/-- The result of a look at the memory, which stays as it is. -/
def look {α : Type} (memory : Memory) (result : Except Fault α) : Ran α :=
  (memory, result)

/-- What a name of a module refers to. -/
def lookUp (memory : Memory) (frame : Nat) (name : Text) : Except Fault Thing :=
  match (memory.names frame).find? name with
  | some thing => .ok thing
  | none => .error (.undefinedName name)

/-- What an operand refers to. -/
def evaluate (memory : Memory) (frame : Nat) : Operand → Except Fault Thing
  | .setting value => .ok (.value value)
  | .name name => lookUp memory frame name

/-- Makes a new stylesheet, if a module still has what it takes, and gives it a name. -/
def performNewSheet (memory : Memory) (frame : Nat) (name : Text) : Ran Unit :=
  (look memory (lookUp memory frame Memory.makerName)).andThen fun memory maker =>
    if maker = .sheetMaker then
      let (memory, index) := memory.addSheet
      (memory.bind frame name (.sheet index), .ok ())
    else
      (memory, .error (.notCallable (Memory.typeName maker)))

/-- What is said of a module that has no such attribute; it is told by what it says of its name. -/
def lacking (memory : Memory) (index : Nat) (wanted : Text) : Fault :=
  match memory.textNamed index Memory.selfName with
  | none => .noAttribute "module" wanted false
  | some called =>
    let partly := ((memory.module? index).map Module.loading).getD false
    .noAttribute ("module '" ++ called ++ ['\'']) wanted partly

/-- The number of the stylesheet that a name refers to, which is to do something it is able to. -/
def sheetNamed (memory : Memory) (frame : Nat) (name ability : Text) : Except Fault Nat :=
  match lookUp memory frame name with
  | .error fault => .error fault
  | .ok (.sheet index) => .ok index
  | .ok (.module index) => .error (lacking memory index ability)
  | .ok thing => .error (.noAttribute ('\'' :: Memory.typeName thing ++ "' object") ability false)

/-- Styles selectors in the stylesheet with a name. -/
def performStyle (memory : Memory) (frame : Nat) (name : Text) (selectors : List Text)
    (properties : List (Text × Operand)) : Ran Unit :=
  (look memory (sheetNamed memory frame name "select")).andThen fun memory index =>
    let builder := (Builder.select selectors).mapError fun error => .style (.selector error)
    (look memory builder).andThen fun memory builder =>
      let things := properties.mapM fun (property, operand) =>
        (evaluate memory frame operand).map (property, ·)
      (look memory things).andThen fun memory things =>
        let (sheet, placed) := (memory.sheet index).rule builder.selector builder.scopes
        let memory := memory.withSheet index sheet
        match placed with
        | .error failure => (memory, .error (.style failure))
        | .ok handle =>
          let settings := things.map fun (property, thing) => (property, memory.setting thing)
          let (sheet, declared) := sheet.declare handle (.ofPairs settings)
          (memory.withSheet index sheet,
            match declared with
            | .ok _ => .ok ()
            | .error failure => .error (.style failure))

/-- Takes a name away from a module. -/
def performDelete (memory : Memory) (frame : Nat) (name : Text) : Ran Unit :=
  (look memory (lookUp memory frame name)).andThen fun memory _ =>
    (memory.unbind frame name, .ok ())

/-- Brings a module into memory, and gives its first name to the outermost package. -/
def performUseModule (importer : Importer) (memory : Memory) (frame : Nat) (module : ModuleName) :
    Ran Unit :=
  (importer memory module).andThen fun memory index =>
    let outermost := (memory.loaded.find? (module.take 1)).getD index
    (memory.bind frame (ModuleName.text (module.take 1)) (.module outermost), .ok ())

/-- Brings the module inside a package into memory, if there is one. -/
def importInside (importer : Importer) (memory : Memory) (module : ModuleName) : Ran Unit :=
  match importer memory module with
  | (memory, .ok _) => (memory, .ok ())
  | (memory, .error (.moduleNotFound missing parent)) =>
    if missing = module then (memory, .ok ())
    else (memory, .error (.moduleNotFound missing parent))
  | (memory, .error fault) => (memory, .error fault)

/-- What a module has under a name: a name of its own, or a module inside it. -/
def member (memory : Memory) (module : Module) (index : Nat) (name : Text) : Except Fault Thing :=
  match (memory.names index).find? name, memory.loaded.find? (module.name ++ [name]) with
  | some thing, _ => .ok thing
  | none, some inside => .ok (.module inside)
  | none, none =>
    let called := (memory.textNamed index Memory.selfName).getD "<unknown module name>"
    .error (.cannotImport name called (memory.textNamed index Memory.fileName) module.loading)

/-- Takes a name over from a module. -/
def performUseName (importer : Importer) (memory : Memory) (frame : Nat) (module : ModuleName)
    (name : Text) : Ran Unit :=
  (importer memory module).andThen fun memory index =>
    match memory.module? index with
    | none => (memory, .error (.moduleNotFound module none))
    | some found =>
      let inside : Ran Unit :=
        if (memory.names index).contains name || found.package = .none then (memory, .ok ())
        else importInside importer memory (found.name ++ [name])
      inside.andThen fun memory _ =>
        (look memory (member memory found index name)).andThen fun memory thing =>
          (memory.bind frame name thing, .ok ())

/-- Runs one statement in a module. -/
def perform (importer : Importer) (frame : Nat) (memory : Memory) : Statement → Ran Unit
  | .newSheet name => performNewSheet memory frame name
  | .style sheet selectors properties => performStyle memory frame sheet selectors properties
  | .clear name =>
    (look memory (sheetNamed memory frame name "clear")).andThen fun memory index =>
      (memory.withSheet index (memory.sheet index).clear, .ok ())
  | .assign name operand =>
    (look memory (evaluate memory frame operand)).andThen fun memory thing =>
      (memory.bind frame name thing, .ok ())
  | .delete name => performDelete memory frame name
  | .useModule module => performUseModule importer memory frame module
  | .useName module name => performUseName importer memory frame module name
  | .fail message => (memory, .error (.raised message))
  | .exit message => (memory, .error (.exited message))

/-- Runs statements in a module, one after the other. -/
def performAll (importer : Importer) (frame : Nat) : Memory → List Statement → Ran Unit
  | memory, [] => (memory, .ok ())
  | memory, statement :: rest =>
    (perform importer frame memory statement).andThen fun memory _ =>
      performAll importer frame memory rest

/--
The names that a module has from its start: what it is called, the package around it, the file that
it is read from, and for statements what makes new stylesheets.  Names that refer to other things
than values and stylesheets are left out, and so is the name for the compiled form of the file.
-/
def firstNames (called package : Text) (file : Option Location) (content : Content) :
    OrderedTable Text Thing :=
  let text (text : Text) : Thing := .value (.text text)
  let origin := file.map fun file => (Memory.fileName, text file.text)
  let maker :=
    match content with
    | .script _ => [(Memory.makerName, .sheetMaker)]
    | _ => []
  ⟨[(Memory.selfName, text called), ("__doc__", .value .missing), ("__package__", text package)] ++
    origin.toList ++ maker⟩

/-- The package that a module says it belongs to: a package belongs to itself. -/
def packageText (name : ModuleName) : Package → Text
  | .none => ModuleName.text name.dropLast
  | _ => name.text

/-- What a file that is run as a program of its own is called. -/
def programName : Text := "__surimi__"

/-- Runs the content of a file in a module; a text without words holds no statements. -/
def runContent (importer : Importer) (frame : Nat) (memory : Memory) (file : Location) :
    Content → Ran Unit
  | .script statements => performAll importer frame memory statements
  | .text text =>
    if (Text.trim text).isEmpty then (memory, .ok ())
    else (memory, .error (.unreadable ((file.names.getLast?).getD [])))
  | .directory => (memory, .ok ())

/-- The files of a project, and the directory beside the style module being built. -/
structure Surroundings where
  files : Files
  search : Location

/-- What stands where a source is read from. -/
def Source.content (source : Source) (files : Files) : Content :=
  (source.origin.bind files.content?).getD .directory

/-- The module that a source is read into, while it is running. -/
def Source.module (source : Source) (files : Files) (name : ModuleName) : Module :=
  let package := packageText name source.kind
  ⟨name, source.origin, source.kind, true,
    firstNames name.text package source.origin (source.content files)⟩

/-- Enters a module, and runs the file that it is read from; a module that fails is evicted. -/
def runModule (importer : Importer) (files : Files) (memory : Memory) (name : ModuleName)
    (source : Source) : Ran Nat :=
  let (memory, index) := memory.addModule (source.module files name)
  let ran :=
    runContent importer index (memory.enter name index) (source.origin.getD ⟨[]⟩)
      (source.content files)
  let memory := ran.1.modifyModule index fun module => { module with loading := false }
  match ran.2 with
  | .ok _ => (memory, .ok index)
  | .error fault => (memory.evict name, .error fault)

/-- Makes a loaded module a name of the package that holds it. -/
def attach (memory : Memory) (name : ModuleName) (index : Nat) : Memory :=
  match name.getLast?, memory.loaded.find? name.dropLast with
  | some last, some parent => memory.bind parent last (.module index)
  | _, _ => memory

/-- Loads a module, given that the package that holds it is loaded. -/
def loadFrom (importer : Importer) (around : Surroundings) (memory : Memory) (name : ModuleName) :
    Ran Nat :=
  let parent := name.dropLast
  let (memory, directory?) := directoryOf around.files around.search memory parent.reverse
  match directory? with
  | none => (memory, .error (.moduleNotFound name (some parent)))
  | some directory =>
    match locate around.files directory (name.getLast?.getD []) with
    | none => (memory, .error (.moduleNotFound name none))
    | some source =>
      (runModule importer around.files memory name source).andThen fun memory index =>
        (attach memory name index, .ok index)

/-- Brings a module into memory, with loading nested at most so deeply. -/
def ensure (around : Surroundings) : Nat → Importer
  | 0, memory, name =>
    match memory.loaded.find? name with
    | some index => (memory, .ok index)
    | none => (memory, .error .nestedTooDeep)
  | depth + 1, memory, name =>
    match memory.loaded.find? name with
    | some index => (memory, .ok index)
    | none =>
      match name.dropLast with
      | [] => loadFrom (ensure around depth) around memory name
      | parent =>
        (ensure around depth memory parent).andThen fun memory _ =>
          match memory.loaded.find? name with
          | some index => (memory, .ok index)
          | none => loadFrom (ensure around depth) around memory name

/-- The names of the modules that the statements of all files may bring into memory. -/
def Surroundings.wanted (around : Surroundings) : List ModuleName :=
  around.files.statements.flatMap Statement.wanted

/-- How deeply loading may be nested: as deeply as each module by a way through all the others. -/
def Surroundings.depth (around : Surroundings) : Nat :=
  let count := around.wanted.length
  count * count + count

/-- How modules are brought into memory beside the style module being built. -/
def Surroundings.importer (around : Surroundings) : Importer :=
  ensure around around.depth

/-- The module without a name that a file is run as. -/
def nameless (files : Files) (file : Location) : Module :=
  let content := (files.content? file).getD .directory
  ⟨[], some file, .none, true, firstNames programName [] (some file) content⟩

/-- Runs a file as a module without a name, and gives its number. -/
def runNameless (around : Surroundings) (memory : Memory) (file : Location) : Ran Nat :=
  let (memory, frame) := memory.addModule (nameless around.files file)
  let content := (around.files.content? file).getD .directory
  (runContent around.importer frame memory file content).andThen fun memory _ =>
    (memory, .ok frame)

/-- A module fails when it asks to. -/
theorem perform_fail (importer : Importer) (frame : Nat) (memory : Memory) (message : Text) :
    perform importer frame memory (.fail message) = (memory, .error (.raised message)) := rfl

/-- A loaded module does not run again. -/
theorem ensure_loaded {memory : Memory} {name : ModuleName} {index : Nat}
    (loaded : memory.loaded.find? name = some index) (around : Surroundings) (depth : Nat) :
    ensure around depth memory name = (memory, .ok index) := by
  cases depth <;> simp [ensure, loaded]

end CssAuthoring.Project
