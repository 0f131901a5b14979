import CssAuthoring.Proofs.Project.Loading

/-!
# Modules that a run makes

Modules are numbered as they are made, and a run makes a module for every file that it starts to
execute.  Each was read from a file that is there, and what is loaded besides what was loaded before
has the number and the name of one of them.  In a run that succeeds, all of them stay loaded, since
a module that fails makes whatever uses it fail.

Main statements: `runNameless_gathers`, this holds of every run of a file; `mem_evictedBy_iff`,
the files of the modules that a successful build evicts are those of the modules that it makes.
-/

namespace CssAuthoring.Project

/--
A run is orderly, its modules were read from files that are there, and nothing else is loaded
besides; if it succeeds, all its modules are.
-/
structure Gathers {α : Type} (files : Files) (memory : Memory) (ran : Ran α) : Prop extends
    Orderly memory ran where
  sources : ∀ index module file, memory.modules.length ≤ index →
    ran.1.module? index = some module → module.origin = some file → files.isFile file = true
  known : ∀ entry ∈ ran.1.loaded.entries,
    entry ∈ memory.loaded.entries ∨ memory.modules.length ≤ entry.2 ∧
      ∃ module, ran.1.module? entry.2 = some module ∧ module.name = entry.1
  loaded : ∀ value, ran.2 = .ok value → ∀ index module, memory.modules.length ≤ index →
    ran.1.module? index = some module → ran.1.loaded.find? module.name = some index

/-- An importer gathers the modules that it is asked for. -/
def Importer.Gathering (files : Files) (importer : Importer) : Prop :=
  ∀ memory name, memory.Sound → Project.Gathers files memory (importer memory name)

section

variable {α β : Type} {files : Files} {memory : Memory} {importer : Importer}

theorem Keeps.length_le {before after : Memory} (keeps : Keeps before after) :
    before.modules.length ≤ after.modules.length := by
  refine Nat.le_of_not_lt fun inside => ?_
  rcases keeps.modules after.modules.length _ (List.getElem?_eq_getElem inside) with
    ⟨later, isLater, _⟩
  simp [Memory.module?] at isLater

/-- Where the same modules are there, nothing was gathered. -/
theorem Orderly.gathers {ran : Ran α} (orderly : Orderly memory ran) (alike : Alike memory ran.1) :
    Gathers files memory ran := by
  have none {index : Nat} {module : Module} (bound : memory.modules.length ≤ index)
      (isModule : ran.1.module? index = some module) : False := by
    have same := alike.modules index
    rw [isModule, Memory.module?, List.getElem?_eq_none bound] at same
    cases same
  refine ⟨orderly, ?_, fun entry isEntry => .inl (alike.loaded ▸ isEntry), ?_⟩
  · exact fun index module file bound isModule _ => (none bound isModule).elim
  · exact fun value _ index module bound isModule => (none bound isModule).elim

theorem Idle.gathers {ran : Ran α} (idle : Idle memory ran) (sound : memory.Sound) :
    Gathers files memory ran :=
  (idle.orderly sound).gathers idle.alike

/-- What is gathered does not depend on what a run yields in the end. -/
theorem Gathers.map {ran : Ran α} (gathers : Gathers files memory ran) (change : α → β) :
    Gathers files memory (ran.1, ran.2.map change) := by
  rcases ran with ⟨next, fault | value⟩
  · refine ⟨⟨gathers.sound, gathers.keeps, ?_⟩, gathers.sources, gathers.known, nofun⟩
    exact fun name parent missing =>
      gathers.missing name parent (congrArg Except.error (Except.error.inj missing))
  · refine ⟨⟨gathers.sound, gathers.keeps, nofun⟩, gathers.sources, gathers.known, ?_⟩
    exact fun _ _ => gathers.loaded value rfl

theorem Gathers.andThen {first : Ran α} {next : Memory → α → Ran β}
    (gathers : Gathers files memory first)
    (gathersNext : ∀ value, first.2 = .ok value → Gathers files first.1 (next first.1 value)) :
    Gathers files memory (first.andThen next) := by
  have orderly := gathers.toOrderly.andThen fun value done => (gathersNext value done).toOrderly
  rcases first with ⟨middle, outcome⟩
  cases outcome with
  | error fault => exact ⟨orderly, gathers.sources, gathers.known, by simp⟩
  | ok value =>
      have rest := gathersNext value rfl
      have longer := gathers.keeps.length_le
      -- A module was made by the first run, and kept by the second one, or made by that.
      have made {index : Nat} {module : Module} (bound : memory.modules.length ≤ index)
          (isModule : (next middle value).1.module? index = some module) :
          middle.modules.length ≤ index ∨ ∃ former, middle.module? index = some former ∧
            module.identity = former.identity := by
        rcases Nat.lt_or_ge index middle.modules.length with inside | later
        · have isFormer : middle.module? index = some middle.modules[index] :=
            List.getElem?_eq_getElem inside
          rcases rest.keeps.modules index _ isFormer with ⟨same, isSame, identity⟩
          rw [Outcome.andThen_ok] at orderly
          rw [isModule] at isSame
          cases isSame
          exact .inr ⟨_, isFormer, identity⟩
        · exact .inl later
      refine ⟨orderly, ?_, ?_, ?_⟩
      · intro index module file bound isModule isOrigin
        rcases made bound isModule with later | ⟨former, isFormer, identity⟩
        · exact rest.sources index module file later isModule isOrigin
        · have sameOrigin : module.origin = former.origin := congrArg (·.2.1) identity
          exact gathers.sources index former file bound isFormer (sameOrigin ▸ isOrigin)
      · intro entry isEntry
        rcases rest.known entry isEntry with former | ⟨later, found⟩
        · refine (gathers.known entry former).imp_right ?_
          rintro ⟨bound, module, isModule, named⟩
          rcases rest.keeps.modules _ module isModule with ⟨same, isSame, identity⟩
          exact ⟨bound, same, isSame, (congrArg Prod.fst identity).trans named⟩
        · exact .inr ⟨Nat.le_trans longer later, found⟩
      · intro result done index module bound isModule
        rcases made bound isModule with later | ⟨former, isFormer, identity⟩
        · exact rest.loaded result done index module later isModule
        · have sameName : module.name = former.name := congrArg Prod.fst identity
          rw [sameName]
          exact rest.keeps.loaded _ _ (gathers.loaded value rfl index former bound isFormer)

theorem Gathers.trans {middle : Memory} {value : α} {ran : Ran β}
    (gathers : Gathers files memory (middle, .ok value)) (rest : Gathers files middle ran) :
    Gathers files memory ran := by
  have both : Gathers files memory (Outcome.andThen (middle, .ok value) fun _ _ => ran) :=
    gathers.andThen fun _ _ => rest
  exact both

/-! ## Statements -/

theorem performUseModule_gathers (gathering : importer.Gathering files) (sound : memory.Sound)
    (frame : Nat) (module : ModuleName) :
    Gathers files memory (performUseModule importer memory frame module) := by
  have gathers := gathering memory module sound
  refine gathers.andThen fun index _ => ?_
  exact (Idle.mk (alike_bind _ frame _ _) (by simp)).gathers gathers.sound

/-- Where a module inside a package is not there, nothing was gathered. -/
theorem importInside_gathers (isOrderly : importer.IsOrderly) (gathering : importer.Gathering files)
    (sound : memory.Sound) {module : ModuleName}
    (isInside : ∃ index, memory.loaded.find? module.dropLast = some index) :
    Gathers files memory (importInside importer memory module) := by
  have imports := isOrderly memory module sound
  have gathers := (gathering memory module sound).map fun _ => ()
  unfold importInside
  split
  · rename_i next index ran
    rwa [ran] at gathers
  · rename_i next missing parent ran
    rw [ran] at gathers imports
    split
    · rename_i same
      subst same
      have idle : Idle memory ((next, .ok ()) : Ran Unit) :=
        ⟨(imports.unmoved parent rfl (.inr isInside)).toAlike, by simp⟩
      exact idle.gathers sound
    · exact gathers
  · rename_i next fault _ ran
    rwa [ran] at gathers

theorem performUseName_gathers (isOrderly : importer.IsOrderly)
    (gathering : importer.Gathering files) (sound : memory.Sound) (frame : Nat)
    (module : ModuleName) (name : Text) :
    Gathers files memory (performUseName importer memory frame module name) := by
  have imports := isOrderly memory module sound
  refine (gathering memory module sound).andThen fun index imported => ?_
  have isLoaded := imports.found index imported
  rcases imports.sound module index isLoaded with ⟨found, isFound, rfl, _⟩
  rw [isFound]
  have inside : Gathers files (importer memory found.name).1
      (if ((importer memory found.name).1.names index).contains name || found.package = .none then
        ((importer memory found.name).1, .ok ())
      else importInside importer (importer memory found.name).1 (found.name ++ [name]) :
        Ran Unit) := by
    split
    · exact (idle_ok _ ()).gathers imports.sound
    · refine importInside_gathers isOrderly gathering imports.sound ⟨index, ?_⟩
      rwa [List.dropLast_concat]
  refine inside.andThen fun _ _ => ?_
  refine ((look_idle _ (member_ne _ found index name)).gathers inside.sound).andThen
    fun thing _ => ?_
  exact (Idle.mk (alike_bind _ frame name thing) (by simp)).gathers inside.sound

/-- One statement gathers the modules that it uses. -/
theorem perform_gathers (isOrderly : importer.IsOrderly) (gathering : importer.Gathering files)
    (sound : memory.Sound) (frame : Nat) (statement : Statement) :
    Gathers files memory (perform importer frame memory statement) := by
  cases statement with
  | useModule module => exact performUseModule_gathers gathering sound frame module
  | useName module name => exact performUseName_gathers isOrderly gathering sound frame module name
  | newSheet | style | clear | assign | delete | fail | exit =>
      exact (perform_idle importer frame memory rfl).gathers sound

theorem performAll_gathers (isOrderly : importer.IsOrderly) (gathering : importer.Gathering files)
    (sound : memory.Sound) (frame : Nat) (statements : List Statement) :
    Gathers files memory (performAll importer frame memory statements) := by
  induction statements generalizing memory with
  | nil => exact (idle_ok memory ()).gathers sound
  | cons statement rest hypothesis =>
      have gathers := perform_gathers isOrderly gathering sound frame statement
      exact gathers.andThen fun _ _ => hypothesis gathers.sound

theorem runContent_gathers (isOrderly : importer.IsOrderly) (gathering : importer.Gathering files)
    (sound : memory.Sound) (frame : Nat) (file : Location) (content : Content) :
    Gathers files memory (runContent importer frame memory file content) := by
  cases content with
  | script statements => exact performAll_gathers isOrderly gathering sound frame statements
  | text text =>
      rw [runContent]
      split
      · exact (idle_ok memory ()).gathers sound
      · exact (Idle.mk (.refl memory) (by simp)).gathers sound
  | directory => exact (idle_ok memory ()).gathers sound

/-! ## Modules -/

/-- A module that is entered is the only one that is made thereby, and it is loaded. -/
theorem entered_gathers (sound : memory.Sound) {source : Source}
    (isRead : ∀ file, source.origin = some file → files.isFile file = true) {name : ModuleName}
    (missing : memory.loaded.find? name = none) :
    Gathers files memory (source.entered files memory name, .ok ()) := by
  rcases keeps_entered sound source files missing with ⟨soundEntered, keeps⟩
  have made {index : Nat} {module : Module} (bound : memory.modules.length ≤ index)
      (isModule : (source.entered files memory name).module? index = some module) :
      index = memory.modules.length ∧ module = source.module files name := by
    change (memory.modules ++ [source.module files name])[index]? = some module at isModule
    rw [List.getElem?_append_right bound, List.getElem?_singleton] at isModule
    split at isModule
    · rename_i isLast
      cases isModule
      exact ⟨by omega, rfl⟩
    · cases isModule
  refine ⟨⟨soundEntered, keeps, by simp⟩, ?_, ?_, ?_⟩
  · intro index module file bound isModule isOrigin
    rcases made bound isModule with ⟨_, rfl⟩
    exact isRead file isOrigin
  · intro entry isEntry
    rcases OrderedTable.mem_insert isEntry with former | rfl
    · exact .inl former
    · exact .inr ⟨Nat.le_refl _, _, entered_module? source files memory name, rfl⟩
  · intro _ _ index module bound isModule
    rcases made bound isModule with ⟨rfl, rfl⟩
    exact entered_find? source files memory name

/-- Running the file of a module that is not loaded gathers it and the modules that it uses. -/
theorem runModule_gathers (isOrderly : importer.IsOrderly) (gathering : importer.Gathering files)
    (sound : memory.Sound) {source : Source}
    (isRead : ∀ file, source.origin = some file → files.isFile file = true) {name : ModuleName}
    (missing : memory.loaded.find? name = none) :
    Gathers files memory (runModule importer files memory name source) := by
  have orderly := (runModule_orderly isOrderly sound files missing source rfl).1
  have entered := entered_gathers sound isRead missing
  have ran : Gathers files memory (runEntered importer files memory name source) :=
    entered.trans (runContent_gathers isOrderly gathering entered.sound _ _ _)
  rw [runModule_eq] at orderly ⊢
  rcases done : runEntered importer files memory name source with ⟨next, outcome⟩
  rw [done] at ran orderly
  have finished := alike_finish next memory.modules.length
  cases outcome with
  | ok done =>
      have idle : Idle next ((finish next memory.modules.length, .ok memory.modules.length) :
          Ran Nat) := ⟨finished, by simp⟩
      exact ran.trans (idle.gathers ran.sound)
  | error fault =>
      refine ⟨orderly, ?_, fun entry isEntry => ?_, by simp⟩
      · intro index module file bound isModule isOrigin
        have same := finished.modules index
        change (finish next memory.modules.length).module? index = some module at isModule
        rw [isModule, Option.map_some, eq_comm, Option.map_eq_some_iff] at same
        rcases same with ⟨former, isFormer, identity⟩
        have sameOrigin : former.origin = module.origin := congrArg (·.2.1) identity
        exact ran.sources index former file bound isFormer (sameOrigin ▸ isOrigin)
      · have former := (List.mem_filter.1 isEntry).1
        rw [finished.loaded] at former
        refine (ran.known entry former).imp_right ?_
        rintro ⟨bound, module, isModule, named⟩
        rcases finished.keeps.modules _ module isModule with ⟨same, isSame, identity⟩
        exact ⟨bound, same, isSame, (congrArg Prod.fst identity).trans named⟩

/-- Loading a module that is not loaded gathers it and the modules that it uses. -/
theorem loadFrom_gathers (isOrderly : importer.IsOrderly) (gathering : importer.Gathering files)
    (sound : memory.Sound) {search : Location} {name : ModuleName}
    (missing : memory.loaded.find? name = none) :
    Gathers files memory (loadFrom importer ⟨files, search⟩ memory name) := by
  have orderly := (loadFrom_imports isOrderly sound ⟨files, search⟩ missing).toOrderly
  unfold loadFrom at orderly ⊢
  have unmoved := directoryOf_unmoved files search memory name.dropLast.reverse
  rcases looked : directoryOf files search memory name.dropLast.reverse with ⟨next, directory?⟩
  rw [looked] at unmoved
  dsimp only at orderly ⊢
  rw [looked] at orderly ⊢
  cases directory? with
  | none => exact orderly.gathers unmoved.toAlike
  | some directory =>
      dsimp only at orderly ⊢
      cases located : locate files directory (name.getLast?.getD []) with
      | none =>
          rw [located] at orderly
          exact orderly.gathers unmoved.toAlike
      | some source =>
          have idle : Idle memory ((next, .ok ()) : Ran Unit) := ⟨unmoved.toAlike, by simp⟩
          have soundNext := unmoved.toAlike.sound sound
          have ran := runModule_gathers isOrderly gathering soundNext
            (fun file isOrigin => locate_isFile located isOrigin)
            (by rw [unmoved.loaded, missing])
          refine (idle.gathers sound).trans (ran.andThen fun index _ => ?_)
          exact (Idle.mk (attach_alike _ name index) (by simp)).gathers ran.sound

/-- Bringing a module into memory gathers it and the modules that it uses. -/
theorem ensure_gathering (files : Files) (search : Location) (depth : Nat) :
    (ensure ⟨files, search⟩ depth).Gathering files := by
  induction depth with
  | zero =>
      intro memory name sound
      unfold ensure
      split
      · exact (idle_ok memory _).gathers sound
      · exact (Idle.mk (.refl memory) (by simp)).gathers sound
  | succ depth hypothesis =>
      intro memory name sound
      have isOrderly := ensure_isOrderly ⟨files, search⟩ depth
      unfold ensure
      split
      · exact (idle_ok memory _).gathers sound
      · rename_i missing
        split
        · exact loadFrom_gathers isOrderly hypothesis sound missing
        · have gathers := hypothesis memory name.dropLast sound
          refine gathers.andThen fun packageIndex _ => ?_
          split
          · exact (idle_ok _ _).gathers gathers.sound
          · rename_i stillMissing
            exact loadFrom_gathers isOrderly hypothesis gathers.sound stillMissing

end

/-! ## Files -/

/-- Running a file gathers the modules that it uses, besides the module that the file is run as. -/
theorem runNameless_gathers {memory : Memory} (sound : memory.Sound) (files : Files)
    (search file : Location) :
    Gathers files (memory.addModule (nameless files file)).1
      (runNameless ⟨files, search⟩ memory file) := by
  have soundAdded := sound.addModule (nameless files file)
  have isOrderly := ensure_isOrderly ⟨files, search⟩ (Surroundings.depth ⟨files, search⟩)
  have gathering := ensure_gathering files search (Surroundings.depth ⟨files, search⟩)
  have gathers := runContent_gathers isOrderly gathering soundAdded memory.modules.length file
    ((files.content? file).getD .directory)
  rw [runNameless_eq]
  exact gathers.andThen fun _ _ => (idle_ok _ _).gathers gathers.sound

/-! ## Builds -/

/-- The modules behind some are those with other numbers. -/
theorem mem_drop_modules {memory : Memory} {count : Nat} {module : Module} :
    module ∈ memory.modules.drop count ↔
      ∃ index, count ≤ index ∧ memory.module? index = some module := by
  rw [List.mem_iff_getElem?]
  constructor
  · rintro ⟨index, isModule⟩
    rw [List.getElem?_drop] at isModule
    exact ⟨count + index, Nat.le_add_right count index, isModule⟩
  · rintro ⟨index, bound, isModule⟩
    refine ⟨index - count, ?_⟩
    rwa [List.getElem?_drop, Nat.add_sub_cancel' bound]

/-- The modules that a build makes, besides the one that its style module is run as. -/
def importedBy (files : Files) (options : BuildOptions) : List Module :=
  (ranMemory files options).modules.drop 1

section

variable {files : Files} {options : BuildOptions} {frame : Nat}

theorem mem_importedBy {module : Module} : module ∈ importedBy files options ↔
    ∃ index, 1 ≤ index ∧ (ranMemory files options).module? index = some module :=
  mem_drop_modules

/-- In a run that succeeds, every module that it makes stays loaded under its name. -/
theorem found_of_imported
    (ran : (runNameless ⟨files, options.input.resolve.parent⟩ .empty options.input.resolve).2 =
      .ok frame) {module : Module} (isImported : module ∈ importedBy files options) :
    ∃ index, (ranMemory files options).module? index = some module ∧
      (ranMemory files options).loaded.find? module.name = some index := by
  rcases mem_importedBy.1 isImported with ⟨index, bound, isModule⟩
  have gathers := runNameless_gathers sound_empty files options.input.resolve.parent
    options.input.resolve
  exact ⟨index, isModule, gathers.loaded frame ran index module bound isModule⟩

/--
A build that succeeds evicts the files of all modules that it makes, besides those of this library,
if all are in its project.
-/
theorem mem_evictedBy_iff (filed : Filed files options)
    (inside : ∀ module ∈ loadedBy files options, module.name.isOwn = false →
      ∀ file, module.origin = some file → file.isBelow options.directory.resolve = true)
    (ran : (runNameless ⟨files, options.input.resolve.parent⟩ .empty options.input.resolve).2 =
      .ok frame) {file : Location} :
    file ∈ (evictedBy files options).map Prod.snd ↔
      ∃ module ∈ importedBy files options, module.name.isOwn = false ∧
        module.origin = some file := by
  have gathers := runNameless_gathers sound_empty files options.input.resolve.parent
    options.input.resolve
  constructor
  · intro isEvicted
    rcases List.mem_map.1 isEvicted with ⟨⟨name, _⟩, isOne, rfl⟩
    rcases of_mem_loadedSince isOne with ⟨index, isEntry, _, notOwn, said⟩
    rcases (gathers.known _ isEntry).resolve_left List.not_mem_nil with
      ⟨bound, module, isModule, named⟩
    have isThere : (ranMemory files options).module? index = some module := isModule
    have isFiled := filed _ isEntry notOwn
    rw [isThere, Option.any_some] at isFiled
    rcases fileOf_of_isFiled isThere isFiled with ⟨origin, isOrigin, saidOrigin⟩
    rw [said] at saidOrigin
    cases saidOrigin
    exact ⟨module, mem_importedBy.2 ⟨index, bound, isModule⟩, named ▸ notOwn, isOrigin⟩
  · rintro ⟨module, isImported, notOwn, isOrigin⟩
    rcases found_of_imported ran isImported with ⟨index, isModule, found⟩
    rcases filed.exists_file notOwn found with ⟨same, origin, isSame, isLoaded, _, isFile, said⟩
    rw [isModule] at isSame
    cases isSame
    rw [isOrigin] at isFile
    cases isFile
    have isBelow := inside module isLoaded notOwn file isOrigin
    exact List.mem_map.2 ⟨_, mem_evictedBy notOwn found said isBelow, rfl⟩

end

end CssAuthoring.Project
