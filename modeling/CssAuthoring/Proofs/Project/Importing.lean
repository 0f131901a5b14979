import CssAuthoring.Project.Compile

/-!
# What running keeps

Running statements binds names, makes stylesheets and loads modules.  It never takes a loaded module
away that was loaded before, and never says of such a module that it is not there.  A module that
was brought into memory is loaded under its name.

Main statements: `perform_orderly`, one statement keeps what is loaded; `runNameless_orderly`, so
does the run of a file.
-/

namespace CssAuthoring.Project

/-! ## Memory that is kept -/

/-- Whether a module is a package without a file. -/
def Module.isBare (module : Module) : Bool :=
  match module.package with
  | .bare _ => true
  | _ => false

/-- What no run changes of a module: its name, its file, and whether it is a bare package. -/
def Module.identity (module : Module) : ModuleName × Option Location × Bool :=
  (module.name, module.origin, module.isBare)

/--
Every loaded module is there under its number, with the name under which it is loaded, and bare
packages are those without a file.
-/
def Memory.Sound (memory : Memory) : Prop :=
  ∀ name index, memory.loaded.find? name = some index →
    ∃ module, memory.module? index = some module ∧ module.name = name ∧
      (module.isBare = true → module.origin = none)

/-- Loaded modules stay loaded, and modules keep their names and files. -/
structure Keeps (before after : Memory) : Prop where
  loaded : ∀ name index, before.loaded.find? name = some index →
    after.loaded.find? name = some index
  modules : ∀ index module, before.module? index = some module →
    ∃ later, after.module? index = some later ∧ later.identity = module.identity

/-- The same modules are loaded, and modules have the same names and files. -/
structure Alike (before after : Memory) : Prop where
  loaded : after.loaded = before.loaded
  modules : ∀ index,
    (after.module? index).map Module.identity = (before.module? index).map Module.identity

section

variable {memory before middle after : Memory}

theorem Keeps.refl (memory : Memory) : Keeps memory memory :=
  ⟨fun _ _ found => found, fun _ module found => ⟨module, found, rfl⟩⟩

theorem Keeps.trans (first : Keeps before middle) (second : Keeps middle after) :
    Keeps before after := by
  refine ⟨fun name index found => second.loaded name index (first.loaded name index found), ?_⟩
  intro index module found
  rcases first.modules index module found with ⟨later, isLater, same⟩
  rcases second.modules index later isLater with ⟨last, isLast, sameLast⟩
  exact ⟨last, isLast, sameLast.trans same⟩

/-- What is not loaded afterwards was not loaded before. -/
theorem Keeps.not_loaded (keeps : Keeps before after) {name : ModuleName}
    (missing : after.loaded.find? name = none) : before.loaded.find? name = none := by
  cases found : before.loaded.find? name with
  | none => rfl
  | some index =>
      rw [keeps.loaded name index found] at missing
      cases missing

theorem Alike.refl (memory : Memory) : Alike memory memory :=
  ⟨rfl, fun _ => rfl⟩

theorem Alike.trans (first : Alike before middle) (second : Alike middle after) :
    Alike before after :=
  ⟨second.loaded.trans first.loaded,
    fun index => (second.modules index).trans (first.modules index)⟩

theorem Alike.keeps (alike : Alike before after) : Keeps before after := by
  refine ⟨fun name index found => by rwa [alike.loaded], ?_⟩
  intro index module found
  have same := alike.modules index
  rw [found, Option.map_some, Option.map_eq_some_iff] at same
  exact same

/-- Memory stays sound where it only gets more modules. -/
theorem Memory.Sound.of_modules (sound : before.Sound) (loaded : after.loaded = before.loaded)
    (modules : ∀ index module, before.module? index = some module →
      ∃ later, after.module? index = some later ∧ later.identity = module.identity) :
    after.Sound := by
  intro name index found
  rw [loaded] at found
  rcases sound name index found with ⟨module, isModule, named, bare⟩
  rcases modules index module isModule with ⟨later, isLater, same⟩
  have sameName : later.name = module.name := congrArg Prod.fst same
  have sameOrigin : later.origin = module.origin := congrArg (·.2.1) same
  have sameBare : later.isBare = module.isBare := congrArg (·.2.2) same
  refine ⟨later, isLater, sameName.trans named, ?_⟩
  rw [sameBare, sameOrigin]
  exact bare

theorem Alike.sound (alike : Alike before after) (sound : before.Sound) : after.Sound :=
  sound.of_modules alike.loaded alike.keeps.modules

/-- Changing a module leaves all names and files, if the change does. -/
theorem alike_modifyModule (memory : Memory) (index : Nat) {change : Module → Module}
    (same : ∀ module, memory.module? index = some module →
      (change module).identity = module.identity) :
    Alike memory (memory.modifyModule index change) := by
  refine ⟨rfl, fun place => ?_⟩
  rw [Memory.module?] at same
  rw [Memory.module?, Memory.modifyModule, List.getElem?_modify, Memory.module?]
  by_cases here : index = place
  · subst here
    cases found : memory.modules[index]? with
    | none => rfl
    | some module => simp [same module found]
  · cases memory.modules[place]? <;> simp [here]

theorem alike_bind (memory : Memory) (frame : Nat) (name : Text) (thing : Thing) :
    Alike memory (memory.bind frame name thing) :=
  alike_modifyModule memory frame fun _ _ => rfl

theorem alike_unbind (memory : Memory) (frame : Nat) (name : Text) :
    Alike memory (memory.unbind frame name) :=
  alike_modifyModule memory frame fun _ _ => rfl

end

/-! ## Orderly runs -/

/-- A run keeps what is loaded, and says of no loaded module that it is not there. -/
structure Orderly {α : Type} (memory : Memory) (ran : Ran α) : Prop where
  sound : ran.1.Sound
  keeps : Keeps memory ran.1
  missing : ∀ name parent, ran.2 = .error (.moduleNotFound name parent) →
    memory.loaded.find? name = none

/-- A run that loads nothing, and does not say that a module is not there. -/
structure Idle {α : Type} (memory : Memory) (ran : Ran α) : Prop where
  alike : Alike memory ran.1
  found : ∀ name parent, ran.2 ≠ .error (.moduleNotFound name parent)

/-- Two memories differ at most in the directories of bare packages. -/
structure Unmoved (before after : Memory) : Prop extends Alike before after where
  names : ∀ index, after.names index = before.names index

/--
A run that brings a module into memory is orderly and loads the module.  Where the package around it
is loaded and the module is not there, nothing has run.
-/
structure Imports (memory : Memory) (name : ModuleName) (ran : Ran Nat) : Prop extends
    Orderly memory ran where
  found : ∀ index, ran.2 = .ok index → ran.1.loaded.find? name = some index
  unmoved : ∀ parent, ran.2 = .error (.moduleNotFound name parent) →
    (name.dropLast = [] ∨ ∃ index, memory.loaded.find? name.dropLast = some index) →
      Unmoved memory ran.1

theorem Unmoved.refl (memory : Memory) : Unmoved memory memory :=
  ⟨.refl memory, fun _ => rfl⟩

/-- An importer loads the modules that it is asked for, in an orderly way. -/
def Importer.IsOrderly (importer : Importer) : Prop :=
  ∀ memory name, memory.Sound → Imports memory name (importer memory name)

section

variable {α β : Type} {memory : Memory} {importer : Importer}

/-- A run that loads nothing is orderly. -/
theorem Idle.orderly {ran : Ran α} (idle : Idle memory ran) (sound : memory.Sound) :
    Orderly memory ran :=
  ⟨idle.alike.sound sound, idle.alike.keeps, fun name parent missing =>
    absurd missing (idle.found name parent)⟩

theorem Idle.andThen {first : Ran α} {next : Memory → α → Ran β} (idle : Idle memory first)
    (idleNext : ∀ value, first.2 = .ok value → Idle first.1 (next first.1 value)) :
    Idle memory (first.andThen next) := by
  rcases first with ⟨middle, outcome⟩
  cases outcome with
  | error fault =>
      refine ⟨idle.alike, fun name parent missing => idle.found name parent ?_⟩
      exact congrArg Except.error (Except.error.inj missing)
  | ok value => exact ⟨idle.alike.trans (idleNext value rfl).alike, (idleNext value rfl).found⟩

theorem Orderly.andThen {first : Ran α} {next : Memory → α → Ran β} (orderly : Orderly memory first)
    (orderlyNext : ∀ value, first.2 = .ok value → Orderly first.1 (next first.1 value)) :
    Orderly memory (first.andThen next) := by
  rcases first with ⟨middle, outcome⟩
  cases outcome with
  | error fault =>
      refine ⟨orderly.sound, orderly.keeps, fun name parent missing => ?_⟩
      exact orderly.missing name parent (congrArg Except.error (Except.error.inj missing))
  | ok value =>
      have rest := orderlyNext value rfl
      refine ⟨rest.sound, orderly.keeps.trans rest.keeps, fun name parent missing => ?_⟩
      exact orderly.keeps.not_loaded (rest.missing name parent missing)

theorem idle_ok (memory : Memory) (value : α) : Idle memory (memory, .ok value) :=
  ⟨.refl memory, by simp⟩

/-- A look at the memory loads nothing. -/
theorem look_idle (memory : Memory) {result : Except Fault α}
    (found : ∀ name parent, result ≠ .error (.moduleNotFound name parent)) :
    Idle memory (look memory result) :=
  ⟨.refl memory, found⟩

/-- A look at the memory is orderly, unless it says that a module is not there. -/
theorem look_orderly (sound : memory.Sound) {result : Except Fault α}
    (found : ∀ name parent, result ≠ .error (.moduleNotFound name parent)) :
    Orderly memory (look memory result) :=
  (look_idle memory found).orderly sound

/-! ### Statements that load nothing -/

theorem lookUp_ne (memory : Memory) (frame : Nat) (name : Text) (missing : ModuleName)
    (parent : Option ModuleName) :
    lookUp memory frame name ≠ .error (.moduleNotFound missing parent) := by
  unfold lookUp
  split <;> simp

theorem evaluate_ne (memory : Memory) (frame : Nat) (operand : Operand) (missing : ModuleName)
    (parent : Option ModuleName) :
    evaluate memory frame operand ≠ .error (.moduleNotFound missing parent) := by
  cases operand with
  | setting value => simp [evaluate]
  | name name => exact lookUp_ne memory frame name missing parent

theorem sheetNamed_ne (memory : Memory) (frame : Nat) (name ability : Text)
    (missing : ModuleName) (parent : Option ModuleName) :
    sheetNamed memory frame name ability ≠ .error (.moduleNotFound missing parent) := by
  unfold sheetNamed
  split
  · rename_i fault found
    intro same
    rw [Except.error.inj same] at found
    exact lookUp_ne memory frame name missing parent found
  · simp
  · rename_i index _
    unfold lacking
    split <;> simp
  · simp

theorem operands_ne (memory : Memory) (frame : Nat) (properties : List (Text × Operand))
    (missing : ModuleName) (parent : Option ModuleName) :
    (properties.mapM fun (property, operand) =>
        (evaluate memory frame operand).map (property, ·) :
      Except Fault (List (Text × Thing))) ≠ .error (.moduleNotFound missing parent) := by
  induction properties with
  | nil => simp [pure, Except.pure]
  | cons first rest hypothesis =>
      rcases first with ⟨property, operand⟩
      have found := evaluate_ne memory frame operand missing parent
      rw [List.mapM_cons]
      dsimp only
      cases evaluated : evaluate memory frame operand with
      | error fault =>
          intro same
          rw [evaluated] at found
          cases same
          exact found rfl
      | ok thing =>
          cases others : (rest.mapM fun (property, operand) =>
              (evaluate memory frame operand).map (property, ·) :
            Except Fault (List (Text × Thing))) with
          | error fault =>
              intro same
              rw [others] at hypothesis
              cases same
              exact hypothesis rfl
          | ok things =>
              intro same
              cases same

theorem performNewSheet_idle (memory : Memory) (frame : Nat) (name : Text) :
    Idle memory (performNewSheet memory frame name) := by
  refine (look_idle memory (lookUp_ne memory frame _)).andThen fun maker _ => ?_
  dsimp only [look]
  split
  · have added : Alike memory memory.addSheet.1 := ⟨rfl, fun _ => rfl⟩
    exact ⟨added.trans (alike_bind _ frame name _), by simp⟩
  · exact ⟨.refl memory, by simp⟩

theorem performStyle_idle (memory : Memory) (frame : Nat) (name : Text) (selectors : List Text)
    (properties : List (Text × Operand)) :
    Idle memory (performStyle memory frame name selectors properties) := by
  refine (look_idle memory (sheetNamed_ne memory frame name _)).andThen fun index _ => ?_
  refine (look_idle memory ?_).andThen fun builder _ => ?_
  · intro missing parent same
    cases selected : Builder.select selectors with
    | ok builder =>
        rw [selected] at same
        cases same
    | error error =>
        rw [selected] at same
        cases same
  refine (look_idle memory (operands_ne memory frame properties)).andThen fun things _ => ?_
  dsimp only [look]
  -- Styling changes stylesheets, of which the modules in memory know nothing.
  have alike (memory : Memory) (index : Nat) (sheet : Sheet) :
      Alike memory (memory.withSheet index sheet) := ⟨rfl, fun _ => rfl⟩
  split
  · exact ⟨alike _ _ _, by simp⟩
  · refine ⟨(alike _ _ _).trans (alike _ _ _), ?_⟩
    intro missing parent
    split <;> simp

theorem performDelete_idle (memory : Memory) (frame : Nat) (name : Text) :
    Idle memory (performDelete memory frame name) := by
  refine (look_idle memory (lookUp_ne memory frame name)).andThen fun thing _ => ?_
  exact ⟨alike_unbind memory frame name, by simp⟩

/-- A statement that wants no modules loads none. -/
theorem perform_idle (importer : Importer) (frame : Nat) (memory : Memory) {statement : Statement}
    (wants : statement.wanted = []) : Idle memory (perform importer frame memory statement) := by
  cases statement with
  | newSheet name => exact performNewSheet_idle memory frame name
  | style sheet selectors properties =>
      exact performStyle_idle memory frame sheet selectors properties
  | clear name =>
      unfold perform
      refine (look_idle memory (sheetNamed_ne memory frame name _)).andThen fun index _ => ?_
      exact ⟨⟨rfl, fun _ => rfl⟩, by simp⟩
  | assign name operand =>
      unfold perform
      refine (look_idle memory (evaluate_ne memory frame operand)).andThen fun thing _ => ?_
      exact ⟨alike_bind memory frame name thing, by simp⟩
  | delete name => exact performDelete_idle memory frame name
  | useModule | useName => simp [Statement.wanted, ModuleName.path] at wants
  | fail message | exit message => exact ⟨.refl memory, by simp [perform]⟩

/-! ### Statements that load modules -/

theorem performUseModule_orderly (isOrderly : importer.IsOrderly) (sound : memory.Sound)
    (frame : Nat) (module : ModuleName) :
    Orderly memory (performUseModule importer memory frame module) := by
  have imports := isOrderly memory module sound
  refine imports.toOrderly.andThen fun index _ => ?_
  exact (Idle.mk (alike_bind _ frame _ _) (by simp)).orderly imports.sound

theorem importInside_orderly (isOrderly : importer.IsOrderly) (sound : memory.Sound)
    (module : ModuleName) : Orderly memory (importInside importer memory module) := by
  have imports := isOrderly memory module sound
  unfold importInside
  split
  · rename_i next index ran
    rw [ran] at imports
    exact ⟨imports.sound, imports.keeps, by simp⟩
  · rename_i next missing parent ran
    rw [ran] at imports
    split
    · exact ⟨imports.sound, imports.keeps, by simp⟩
    · refine ⟨imports.sound, imports.keeps, fun name other same => ?_⟩
      cases same
      exact imports.missing _ _ rfl
  · rename_i next fault _ ran
    rw [ran] at imports
    refine ⟨imports.sound, imports.keeps, fun name other same => ?_⟩
    cases same
    exact imports.missing _ _ rfl

theorem member_ne (memory : Memory) (module : Module) (index : Nat) (name : Text)
    (missing : ModuleName) (parent : Option ModuleName) :
    member memory module index name ≠ .error (.moduleNotFound missing parent) := by
  unfold member
  split <;> simp

theorem performUseName_orderly (isOrderly : importer.IsOrderly) (sound : memory.Sound)
    (frame : Nat) (module : ModuleName) (name : Text) :
    Orderly memory (performUseName importer memory frame module name) := by
  have imports := isOrderly memory module sound
  refine imports.toOrderly.andThen fun index imported => ?_
  -- A module that was brought into memory is there.
  rcases imports.sound module index (imports.found index imported) with ⟨found, isFound, _, _⟩
  rw [isFound]
  have inside : Orderly (importer memory module).1
      (if ((importer memory module).1.names index).contains name || found.package = .none then
        ((importer memory module).1, .ok ())
      else importInside importer (importer memory module).1 (found.name ++ [name]) : Ran Unit) := by
    split
    · exact (idle_ok _ ()).orderly imports.sound
    · exact importInside_orderly isOrderly imports.sound _
  refine inside.andThen fun _ _ => ?_
  refine (look_orderly inside.sound (member_ne _ found index name)).andThen fun thing _ => ?_
  exact (Idle.mk (alike_bind _ frame name thing) (by simp)).orderly inside.sound

/-- One statement is orderly. -/
theorem perform_orderly (isOrderly : importer.IsOrderly) (sound : memory.Sound) (frame : Nat)
    (statement : Statement) : Orderly memory (perform importer frame memory statement) := by
  cases statement with
  | useModule module => exact performUseModule_orderly isOrderly sound frame module
  | useName module name => exact performUseName_orderly isOrderly sound frame module name
  | newSheet | style | clear | assign | delete | fail | exit =>
      exact (perform_idle importer frame memory rfl).orderly sound

theorem performAll_orderly (isOrderly : importer.IsOrderly) (sound : memory.Sound) (frame : Nat)
    (statements : List Statement) :
    Orderly memory (performAll importer frame memory statements) := by
  induction statements generalizing memory with
  | nil => exact (idle_ok memory ()).orderly sound
  | cons statement rest hypothesis =>
      have orderly := perform_orderly isOrderly sound frame statement
      exact orderly.andThen fun _ _ => hypothesis orderly.sound

theorem runContent_orderly (isOrderly : importer.IsOrderly) (sound : memory.Sound) (frame : Nat)
    (file : Location) (content : Content) :
    Orderly memory (runContent importer frame memory file content) := by
  cases content with
  | script statements => exact performAll_orderly isOrderly sound frame statements
  | text text =>
      rw [runContent]
      split
      · exact (idle_ok memory ()).orderly sound
      · exact (Idle.mk (.refl memory) (by simp)).orderly sound
  | directory => exact (idle_ok memory ()).orderly sound

/-! ### Modules that are loaded -/

/-- Adding a module leaves those that were there. -/
theorem keeps_addModule (memory : Memory) (module : Module) :
    Keeps memory (memory.addModule module).1 := by
  refine ⟨fun _ _ found => found, fun index found isFound => ⟨found, ?_, rfl⟩⟩
  rw [Memory.module?] at isFound
  have bound := (List.getElem?_eq_some_iff.1 isFound).1
  rw [Memory.module?, Memory.addModule, List.getElem?_append_left bound, isFound]

theorem Memory.Sound.addModule (sound : memory.Sound) (module : Module) :
    (memory.addModule module).1.Sound :=
  sound.of_modules rfl (keeps_addModule memory module).modules

/-- The memory in which the module of a source was entered. -/
def Source.entered (source : Source) (files : Files) (memory : Memory) (name : ModuleName) :
    Memory :=
  (memory.addModule (source.module files name)).1.enter name memory.modules.length

theorem entered_find? (source : Source) (files : Files) (memory : Memory) (name : ModuleName) :
    (source.entered files memory name).loaded.find? name = some memory.modules.length := by
  simp [Source.entered, Memory.enter, OrderedTable.find?_insert]

theorem entered_module? (source : Source) (files : Files) (memory : Memory) (name : ModuleName) :
    (source.entered files memory name).module? memory.modules.length =
      some (source.module files name) := by
  simp [Source.entered, Memory.enter, Memory.module?, Memory.addModule]

/-- A module that is entered is loaded besides those that were. -/
theorem keeps_entered (sound : memory.Sound) (source : Source) (files : Files)
    {name : ModuleName} (missing : memory.loaded.find? name = none) :
    (source.entered files memory name).Sound ∧ Keeps memory (source.entered files memory name) := by
  have find (other : ModuleName) : (source.entered files memory name).loaded.find? other =
      if name = other then some memory.modules.length else memory.loaded.find? other :=
    OrderedTable.find?_insert _ _ _ _
  constructor
  · intro other index found
    rw [find] at found
    split at found
    · rename_i same
      cases found
      refine ⟨_, entered_module? source files memory name, same, ?_⟩
      cases source with
      | plain | package =>
          intro isBare
          cases isBare
      | bare directory => exact fun _ => rfl
    · exact sound.addModule (source.module files name) other index found
  · refine ⟨?_, (keeps_addModule memory (source.module files name)).modules⟩
    intro other index found
    have different : name ≠ other := by
      rintro rfl
      rw [missing] at found
      cases found
    rw [find, if_neg different, found]

/-- What running the file of a module that was entered leads to. -/
def runEntered (importer : Importer) (files : Files) (memory : Memory) (name : ModuleName)
    (source : Source) : Ran Unit :=
  runContent importer memory.modules.length (source.entered files memory name)
    (source.origin.getD ⟨[]⟩) (source.content files)

/-- A memory in which a module has stopped running. -/
def finish (memory : Memory) (index : Nat) : Memory :=
  memory.modifyModule index fun module => { module with loading := false }

theorem alike_finish (memory : Memory) (index : Nat) : Alike memory (finish memory index) :=
  alike_modifyModule memory index fun _ _ => rfl

theorem runModule_eq (importer : Importer) (files : Files) (memory : Memory) (name : ModuleName)
    (source : Source) :
    runModule importer files memory name source =
      match runEntered importer files memory name source with
      | (next, .ok _) => (finish next memory.modules.length, .ok memory.modules.length)
      | (next, .error fault) =>
        ((finish next memory.modules.length).evict name, .error fault) := by
  unfold runModule
  dsimp only
  rcases ran : runEntered importer files memory name source with ⟨next, outcome⟩
  unfold runEntered Source.entered at ran
  rw [Memory.addModule] at ran ⊢
  dsimp only at ran ⊢
  rw [ran]
  cases outcome <;> rfl

/-- A module is loaded where its file runs to its end. -/
theorem runModule_eq_ok {files : Files} {name : ModuleName} {source : Source} {next : Memory}
    {index : Nat} :
    runModule importer files memory name source = (next, .ok index) ↔
      ∃ last, runEntered importer files memory name source = (last, .ok ()) ∧
        next = finish last memory.modules.length ∧ index = memory.modules.length := by
  rw [runModule_eq]
  constructor
  · intro ran
    rcases done : runEntered importer files memory name source with ⟨last, fault | ended⟩
    · rw [done] at ran
      cases ran
    · rw [done] at ran
      cases ran
      exact ⟨last, rfl, rfl, rfl⟩
  · rintro ⟨last, done, rfl, rfl⟩
    rw [done]

/-- Running the file of a module that is not loaded is orderly, and loads it if nothing fails. -/
theorem runModule_orderly (isOrderly : importer.IsOrderly) (sound : memory.Sound)
    (files : Files) {name : ModuleName} (missing : memory.loaded.find? name = none)
    (source : Source) {ran : Ran Nat} (isRan : runModule importer files memory name source = ran) :
    Orderly memory ran ∧
      (∀ index, ran.2 = .ok index → ran.1.loaded.find? name = some index) ∧
        ∀ parent, ran.2 ≠ .error (.moduleNotFound name parent) := by
  rcases keeps_entered sound source files missing with ⟨soundEntered, entered⟩
  have content : Orderly _ (runEntered importer files memory name source) :=
    runContent_orderly isOrderly soundEntered _ _ _
  have isLoaded := entered_find? source files memory name
  rw [runModule_eq] at isRan
  rcases done : runEntered importer files memory name source with ⟨next, outcome⟩
  rw [done] at content isRan
  have finished := alike_finish next memory.modules.length
  have keeps := entered.trans (content.keeps.trans finished.keeps)
  have stays := finished.keeps.loaded _ _ (content.keeps.loaded _ _ isLoaded)
  have soundAfter := finished.sound content.sound
  cases outcome with
  | ok done =>
      subst isRan
      refine ⟨⟨soundAfter, keeps, by simp⟩, ?_, by simp⟩
      rintro index ⟨⟩
      exact stays
  | error fault =>
      subst isRan
      have evicted (memory : Memory) (other : ModuleName) : (memory.evict name).loaded.find? other =
          if other = name then none else memory.loaded.find? other :=
        OrderedTable.find?_erase _ _ _
      refine ⟨⟨?_, ⟨?_, keeps.modules⟩, ?_⟩, by simp, ?_⟩
      · intro other index found
        rw [evicted] at found
        split at found
        · cases found
        · exact soundAfter other index found
      · intro other index found
        have different : other ≠ name := by
          rintro rfl
          rw [missing] at found
          cases found
        rw [evicted, if_neg different]
        exact keeps.loaded other index found
      · rintro other parent ⟨⟩
        exact entered.not_loaded (content.missing other parent rfl)
      · rintro parent ⟨⟩
        have clash := isLoaded.symm.trans (content.missing name parent rfl)
        cases clash

theorem attach_alike (memory : Memory) (name : ModuleName) (index : Nat) :
    Alike memory (attach memory name index) := by
  unfold attach
  split
  · exact alike_bind memory _ _ _
  · exact .refl memory

theorem names_modifyModule (memory : Memory) (index : Nat) {change : Module → Module}
    (same : ∀ module, (change module).names = module.names) (place : Nat) :
    (memory.modifyModule index change).names place = memory.names place := by
  simp only [Memory.names, Memory.module?, Memory.modifyModule, List.getElem?_modify]
  cases memory.modules[place]? with
  | none => rfl
  | some module => by_cases here : index = place <;> simp [here, same]

/-- Looking for a directory changes at most which directories bare packages have. -/
theorem directoryOf_unmoved (files : Files) (search : Location) (memory : Memory)
    (parts : List Text) : Unmoved memory (directoryOf files search memory parts).1 := by
  induction parts with
  | nil => exact .refl memory
  | cons last outer hypothesis =>
      rw [directoryOf]
      cases memory.loaded.find? (last :: outer).reverse with
      | none => exact .refl memory
      | some index =>
          rw [Option.bind_some]
          cases isModule : memory.module? index with
          | none => exact .refl memory
          | some module =>
              dsimp only [Option.map_some]
              split
              · exact .refl memory
              · exact .refl memory
              · rename_i known isBare
                split
                · refine ⟨hypothesis.toAlike.trans (alike_modifyModule _ _ ?_), ?_⟩
                  · intro later isLater
                    rcases hypothesis.keeps.modules index module isModule with
                      ⟨same, isSame, identity⟩
                    rw [isLater] at isSame
                    cases isSame
                    have wasBare : later.isBare = module.isBare := congrArg (·.2.2) identity
                    simp only [Module.isBare, isBare] at wasBare
                    simp [Module.identity, Module.isBare, wasBare]
                  · intro place
                    rw [← hypothesis.names place]
                    apply names_modifyModule
                    exact fun _ => rfl
                · exact hypothesis

/-- Loading a module that is not loaded brings it into memory. -/
theorem loadFrom_imports (isOrderly : importer.IsOrderly) (sound : memory.Sound)
    (around : Surroundings) {name : ModuleName} (missing : memory.loaded.find? name = none) :
    Imports memory name (loadFrom importer around memory name) := by
  unfold loadFrom
  have unmoved := directoryOf_unmoved around.files around.search memory name.dropLast.reverse
  rcases looked : directoryOf around.files around.search memory name.dropLast.reverse with
    ⟨next, directory?⟩
  rw [looked] at unmoved
  have alike := unmoved.toAlike
  dsimp only
  rw [looked]
  have notThere (parent : Option ModuleName) :
      Imports memory name (next, .error (.moduleNotFound name parent)) := by
    refine ⟨⟨alike.sound sound, alike.keeps, ?_⟩, by simp, fun _ _ _ => unmoved⟩
    rintro other parent ⟨⟩
    exact missing
  cases directory? with
  | none => exact notThere (some name.dropLast)
  | some directory =>
      dsimp only
      cases locate around.files directory (name.getLast?.getD []) with
      | none => exact notThere none
      | some source =>
          have missingNext : next.loaded.find? name = none := by rw [alike.loaded, missing]
          dsimp only
          rcases ran : runModule importer around.files next name source with ⟨last, outcome⟩
          rcases runModule_orderly isOrderly (alike.sound sound) around.files missingNext source ran
            with ⟨orderly, found, notMissing⟩
          cases outcome with
          | error fault =>
              refine ⟨⟨orderly.sound, alike.keeps.trans orderly.keeps, ?_⟩, by simp, ?_⟩
              · rintro other parent ⟨⟩
                rw [← alike.loaded]
                exact orderly.missing other parent rfl
              · rintro parent ⟨⟩
                exact absurd rfl (notMissing parent)
          | ok index =>
              have attached := attach_alike last name index
              refine ⟨⟨attached.sound orderly.sound,
                alike.keeps.trans (orderly.keeps.trans attached.keeps), by simp⟩, ?_, by simp⟩
              rintro other ⟨⟩
              exact attached.keeps.loaded name index (found index rfl)

/-- Bringing a module into memory is orderly. -/
theorem ensure_isOrderly (around : Surroundings) (depth : Nat) :
    (ensure around depth).IsOrderly := by
  induction depth with
  | zero =>
      intro memory name sound
      unfold ensure
      split
      · rename_i index found
        refine ⟨(idle_ok memory index).orderly sound, ?_, by simp⟩
        rintro other ⟨⟩
        exact found
      · exact ⟨(Idle.mk (.refl memory) (by simp)).orderly sound, by simp, by simp⟩
  | succ depth hypothesis =>
      intro memory name sound
      unfold ensure
      split
      · rename_i index found
        refine ⟨(idle_ok memory index).orderly sound, ?_, by simp⟩
        rintro other ⟨⟩
        exact found
      · rename_i missing
        split
        · exact loadFrom_imports hypothesis sound around missing
        · rename_i notTop
          have imports := hypothesis memory name.dropLast sound
          -- Where the package is loaded, bringing it into memory does nothing.
          have stays (next : Memory) (outcome : Except Fault Nat)
              (ran : ensure around depth memory name.dropLast = (next, outcome))
              (isThere : name.dropLast = [] ∨
                ∃ index, memory.loaded.find? name.dropLast = some index) :
              next = memory ∧ ∃ index, outcome = .ok index := by
            rcases isThere with top | ⟨index, found⟩
            · exact absurd top notTop
            · rw [ensure_loaded found] at ran
              cases ran
              exact ⟨rfl, index, rfl⟩
          rcases ran : ensure around depth memory name.dropLast with ⟨next, outcome⟩
          rw [ran] at imports
          cases outcome with
          | error fault =>
              refine ⟨⟨imports.sound, imports.keeps, ?_⟩, by simp, ?_⟩
              · rintro other parent ⟨⟩
                exact imports.missing other parent rfl
              · intro _ _ isThere
                rcases (stays _ _ ran isThere).2 with ⟨index, clash⟩
                cases clash
          | ok packageIndex =>
              rw [Outcome.andThen_ok]
              split
              · rename_i index found
                refine ⟨⟨imports.sound, imports.keeps, by simp⟩, ?_, by simp⟩
                rintro other ⟨⟩
                exact found
              · rename_i missingNext
                have loads := loadFrom_imports hypothesis imports.sound around missingNext
                refine ⟨⟨loads.sound, imports.keeps.trans loads.keeps, ?_⟩, loads.found, ?_⟩
                · intro other parent failed
                  exact imports.keeps.not_loaded (loads.missing other parent failed)
                · intro parent failed isThere
                  have same := (stays _ _ ran isThere).1
                  subst same
                  exact loads.unmoved parent failed isThere

/-! ### Files that are run -/

/-- A file is run by running its content in a module that is added for it. -/
theorem runNameless_eq (around : Surroundings) (memory : Memory) (file : Location) :
    runNameless around memory file =
      (runContent around.importer memory.modules.length
        (memory.addModule (nameless around.files file)).1 file
        ((around.files.content? file).getD .directory)).andThen
          fun next _ => (next, .ok memory.modules.length) := rfl

/-- Running a file is orderly. -/
theorem runNameless_orderly (around : Surroundings) (sound : memory.Sound) (file : Location) :
    Orderly memory (runNameless around memory file) := by
  let module := nameless around.files file
  have added := keeps_addModule memory module
  have soundAdded := sound.addModule module
  have ran := runContent_orderly (ensure_isOrderly around around.depth) soundAdded
    memory.modules.length file ((around.files.content? file).getD .directory)
  have finished : Orderly (memory.addModule module).1 (runNameless around memory file) := by
    rw [runNameless_eq]
    refine ran.andThen fun _ _ => ?_
    exact (idle_ok _ _).orderly ran.sound
  exact ⟨finished.sound, added.trans finished.keeps, fun name parent failed =>
    added.not_loaded (finished.missing name parent failed)⟩

end

end CssAuthoring.Project
