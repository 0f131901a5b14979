import CssAuthoring.Proofs.Project.Footprint

/-!
# What a build loads

A build loads the modules that its style module uses, directly or through others, and evicts those
that say that they were read from files of its project.  If all do, it leaves nothing loaded but
modules of this library, which are never evicted.  The files of the evicted modules are what its
result was made from.

Main statements: `isOwn_of_kept`, a build that loads nothing from elsewhere leaves nothing loaded
but modules of this library; `mem_dependencies_iff`, what the dependencies of a result are.
-/

namespace CssAuthoring.Project

/-- The memory after a style module has run where nothing was in memory. -/
def ranMemory (files : Files) (options : BuildOptions) : Memory :=
  (runNameless ⟨files, options.input.resolve.parent⟩ .empty options.input.resolve).1

/-- The modules that a build loads. -/
def loadedBy (files : Files) (options : BuildOptions) : List Module :=
  (ranMemory files options).loaded.entries.filterMap fun entry =>
    (ranMemory files options).module? entry.2

/-- Whether a module says that it was read from the file that it was read from. -/
def Module.isFiled (module : Module) : Bool :=
  match module.origin, module.names.find? Memory.fileName with
  | some file, some (.value (.text text)) => !text.isEmpty && Location.ofText text = file
  | _, _ => false

/--
All modules that a build loads were read from files and say so, except perhaps for those of this
library.
-/
def Filed (files : Files) (options : BuildOptions) : Prop :=
  ∀ entry ∈ (ranMemory files options).loaded.entries, entry.1.isOwn = false →
    ((ranMemory files options).module? entry.2).any Module.isFiled = true

instance (files : Files) (options : BuildOptions) : Decidable (Filed files options) :=
  inferInstanceAs (Decidable (∀ entry ∈ (ranMemory files options).loaded.entries,
    entry.1.isOwn = false → ((ranMemory files options).module? entry.2).any Module.isFiled = true))

/-- No module that a build loads is one of this library. -/
def Foreign (files : Files) (options : BuildOptions) : Prop :=
  ∀ entry ∈ (ranMemory files options).loaded.entries, entry.1.isOwn = false

instance (files : Files) (options : BuildOptions) : Decidable (Foreign files options) :=
  inferInstanceAs (Decidable (∀ entry ∈ (ranMemory files options).loaded.entries,
    entry.1.isOwn = false))

/-- The modules that a build evicts, with their files. -/
def evictedBy (files : Files) (options : BuildOptions) : List (ModuleName × Location) :=
  loadedSince .empty (ranMemory files options) options.directory.resolve

theorem sound_empty : Memory.empty.Sound := by
  intro name index found
  cases found

section

variable {files : Files} {options : BuildOptions}

theorem sound_ranMemory (files : Files) (options : BuildOptions) :
    (ranMemory files options).Sound :=
  (runNameless_orderly _ sound_empty _).sound

/-- The modules that a build loads are those that are loaded when its style module has run. -/
theorem exists_loadedBy {name : ModuleName} {index : Nat}
    (found : (ranMemory files options).loaded.find? name = some index) :
    ∃ module, (ranMemory files options).module? index = some module ∧
      module ∈ loadedBy files options := by
  rcases sound_ranMemory files options name index found with ⟨module, isModule, _⟩
  refine ⟨module, isModule, ?_⟩
  exact List.mem_filterMap.2 ⟨(name, index), OrderedTable.mem_of_find? found, isModule⟩

theorem fileOf_of_isFiled {memory : Memory} {index : Nat} {module : Module}
    (isModule : memory.module? index = some module) (filed : module.isFiled = true) :
    ∃ file, module.origin = some file ∧ memory.fileOf index = .ok (some file) := by
  unfold Module.isFiled at filed
  split at filed
  · rename_i file text isOrigin said
    simp only [Bool.and_eq_true, Bool.not_eq_true', decide_eq_true_eq] at filed
    refine ⟨file, isOrigin, ?_⟩
    rw [Memory.fileOf, Memory.names, isModule, Option.map_some, Option.getD_some, said]
    simp [Memory.isNothing, filed]
  · cases filed

/-- A loaded module was read from the file that it says it was read from. -/
theorem Filed.exists_file (filed : Filed files options) {name : ModuleName} {index : Nat}
    (notOwn : name.isOwn = false)
    (found : (ranMemory files options).loaded.find? name = some index) :
    ∃ module file, (ranMemory files options).module? index = some module ∧
      module ∈ loadedBy files options ∧ module.name = name ∧ module.origin = some file ∧
        (ranMemory files options).fileOf index = .ok (some file) := by
  have isFiled := filed _ (OrderedTable.mem_of_find? found) notOwn
  rcases sound_ranMemory files options name index found with ⟨module, isModule, named, _⟩
  rcases exists_loadedBy found with ⟨same, isSame, isLoaded⟩
  rw [isModule] at isSame
  cases isSame
  rw [isModule, Option.any_some] at isFiled
  rcases fileOf_of_isFiled isModule isFiled with ⟨file, isOrigin, said⟩
  exact ⟨module, file, isModule, isLoaded, named, isOrigin, said⟩

theorem execute_empty (files : Files) (options : BuildOptions) :
    execute ⟨files, .empty⟩ options =
      match misfiled? .empty (ranMemory files options) with
      | some type =>
        (⟨files, ranMemory files options⟩, .error (.notPath options.input.resolve type))
      | none =>
        (⟨files, evictAll (ranMemory files options) ((evictedBy files options).map Prod.fst)⟩,
          match (runNameless ⟨files, options.input.resolve.parent⟩ .empty
            options.input.resolve).2 with
          | .error cause => .error (.ofFault options.input.resolve cause)
          | .ok frame =>
            .ok ⟨sheetsText ((ranMemory files options).sheetsOf frame),
              dependencies options options.input.resolve
                ((evictedBy files options).map Prod.snd)⟩) := by
  unfold execute ranMemory evictedBy ranMemory
  dsimp only
  cases misfiled? .empty
    (runNameless ⟨files, options.input.resolve.parent⟩ .empty options.input.resolve).1 with
  | some type => rfl
  | none =>
      cases (runNameless ⟨files, options.input.resolve.parent⟩ .empty
        options.input.resolve).2 <;> rfl

/-- What a build yields depends on the run of its style module only. -/
theorem execute_congr {other : Files}
    (same : runNameless ⟨other, options.input.resolve.parent⟩ .empty options.input.resolve =
      runNameless ⟨files, options.input.resolve.parent⟩ .empty options.input.resolve) :
    (execute ⟨other, .empty⟩ options).2 = (execute ⟨files, .empty⟩ options).2 := by
  have sameMemory : ranMemory other options = ranMemory files options := congrArg Prod.fst same
  rw [execute_empty, execute_empty, same, evictedBy, sameMemory, evictedBy]
  cases misfiled? .empty (ranMemory files options) <;> rfl

/-- Where all modules say in texts what they were read from, a build evicts what it should. -/
theorem Filed.misfiled?_eq (filed : Filed files options) :
    misfiled? .empty (ranMemory files options) = none := by
  rw [misfiled?, List.findSome?_eq_none_iff]
  intro entry isFresh
  rcases List.mem_filter.1 isFresh with ⟨isEntry, isNew⟩
  rw [Bool.and_eq_true, Bool.not_eq_true', Bool.not_eq_true'] at isNew
  rcases (Option.any_eq_true_iff_get _ _).1 (filed entry isEntry isNew.2) with ⟨isThere, isFiled⟩
  rcases fileOf_of_isFiled (Option.some_get isThere).symm isFiled with ⟨file, _, said⟩
  rw [said]

theorem Filed.memory_execute (filed : Filed files options) :
    (execute ⟨files, .empty⟩ options).1.memory =
      evictAll (ranMemory files options) ((evictedBy files options).map Prod.fst) := by
  rw [execute_empty, filed.misfiled?_eq]

/-- A style module that may be run is a file. -/
theorem isFile_of_checkModule {files : Files} {module : Location}
    (checked : checkModule files module = .ok ()) : files.isFile module = true := by
  unfold checkModule at checked
  split at checked
  · split at checked <;> cases checked
  · split at checked
    · cases checked
    · rename_i isFile
      simpa using isFile

/-- A build that succeeds has run its style module, which is a file. -/
theorem executed_of_compiled {project : Project} {result : BuildResult}
    (built : (project.compile options).2 = .ok result) :
    project.files.isFile options.input.resolve = true ∧
      (project.execute options).2 = .ok result := by
  unfold compile at built
  cases checked : checkModule project.files options.input.resolve with
  | error failure =>
      rw [checked] at built
      cases built
  | ok done =>
      rw [checked] at built
      exact ⟨isFile_of_checkModule checked, built⟩

/-! ## What is evicted -/

/-- A module that is loaded was loaded since, if it was not before. -/
theorem mem_loadedSince {before after : Memory} {root : Location} {name : ModuleName} {index : Nat}
    {file : Location} (isNew : before.loaded.contains name = false) (notOwn : name.isOwn = false)
    (found : after.loaded.find? name = some index) (said : after.fileOf index = .ok (some file))
    (inside : file.isBelow root = true) : (name, file) ∈ loadedSince before after root := by
  have isFresh : (name, index) ∈ freshModules before after :=
    List.mem_filter.2 ⟨OrderedTable.mem_of_find? found, by simp [isNew, notOwn]⟩
  exact List.mem_filterMap.2 ⟨(name, index), isFresh, by simp [said, inside]⟩

/-- What was loaded since is a module that is not of this library, and says where it is from. -/
theorem of_mem_loadedSince {before after : Memory} {root : Location} {name : ModuleName}
    {file : Location} (isOne : (name, file) ∈ loadedSince before after root) :
    ∃ index, (name, index) ∈ after.loaded.entries ∧ before.loaded.contains name = false ∧
      name.isOwn = false ∧ after.fileOf index = .ok (some file) := by
  rcases List.mem_filterMap.1 isOne with ⟨⟨other, index⟩, isFresh, isSource⟩
  rcases List.mem_filter.1 isFresh with ⟨isEntry, isNew⟩
  rw [Bool.and_eq_true, Bool.not_eq_true', Bool.not_eq_true'] at isNew
  dsimp only at isSource
  split at isSource
  · rename_i location said
    split at isSource
    · cases isSource
      exact ⟨index, isEntry, isNew.1, isNew.2, said⟩
    · cases isSource
  · cases isSource

/-- A loaded module that says that it was read from a file of the project is evicted. -/
theorem mem_evictedBy {name : ModuleName} {index : Nat} {file : Location}
    (notOwn : name.isOwn = false)
    (found : (ranMemory files options).loaded.find? name = some index)
    (said : (ranMemory files options).fileOf index = .ok (some file))
    (inside : file.isBelow options.directory.resolve = true) :
    (name, file) ∈ evictedBy files options :=
  mem_loadedSince rfl notOwn found said inside

theorem entries_evictAll (memory : Memory) (names : List ModuleName) :
    (evictAll memory names).loaded.entries =
      memory.loaded.entries.filter fun entry => entry.1 ∉ names := by
  induction names generalizing memory with
  | nil => exact (List.filter_eq_self.2 fun _ _ => by simp).symm
  | cons name rest hypothesis =>
      have evicted := hypothesis (memory.evict name)
      rw [evictAll] at evicted ⊢
      rw [List.foldl_cons, evicted]
      simp only [Memory.evict, OrderedTable.erase, List.filter_filter]
      congr 1
      funext entry
      simp [Bool.and_comm]

/--
A build leaves nothing loaded but modules of this library, if all others were read from files of its
project and say so.
-/
theorem isOwn_of_kept (filed : Filed files options)
    (inside : ∀ module ∈ loadedBy files options, module.name.isOwn = false →
      ∀ file, module.origin = some file → file.isBelow options.directory.resolve = true)
    {entry : ModuleName × Nat}
    (isKept : entry ∈ (execute ⟨files, .empty⟩ options).1.memory.loaded.entries) :
    entry.1.isOwn = true ∧ entry ∈ (ranMemory files options).loaded.entries := by
  rw [filed.memory_execute, entries_evictAll] at isKept
  rcases List.mem_filter.1 isKept with ⟨isEntry, notEvicted⟩
  refine ⟨?_, isEntry⟩
  cases notOwn : entry.1.isOwn with
  | true => rfl
  | false =>
      rcases OrderedTable.exists_find? isEntry with ⟨index, found⟩
      rcases filed.exists_file notOwn found with ⟨module, file, _, isLoaded, named, isOrigin, said⟩
      have isBelow := inside module isLoaded (named ▸ notOwn) file isOrigin
      have isEvicted :=
        List.mem_map_of_mem (f := Prod.fst) (mem_evictedBy notOwn found said isBelow)
      exact absurd isEvicted (of_decide_eq_true notEvicted)

/-- A build leaves no module loaded, if all were read from files of its project and say so. -/
theorem unloaded_of_filed (filed : Filed files options) (foreign : Foreign files options)
    (inside : ∀ module ∈ loadedBy files options, module.name.isOwn = false →
      ∀ file, module.origin = some file → file.isBelow options.directory.resolve = true) :
    (execute ⟨files, .empty⟩ options).1.memory.loaded = .empty := by
  have none : (execute ⟨files, .empty⟩ options).1.memory.loaded.entries = [] := by
    refine List.eq_nil_iff_forall_not_mem.2 fun entry isKept => ?_
    rcases isOwn_of_kept filed inside isKept with ⟨isOwn, isEntry⟩
    rw [foreign entry isEntry] at isOwn
    cases isOwn
  rw [OrderedTable.empty, ← none]

/-! ## What a result was made from -/

/-- The style module of a build that succeeds has run to its end. -/
theorem ran_of_built {result : BuildResult}
    (built : (execute ⟨files, .empty⟩ options).2 = .ok result) :
    ∃ frame, (runNameless ⟨files, options.input.resolve.parent⟩ .empty options.input.resolve).2 =
      .ok frame := by
  rw [execute_empty] at built
  split at built
  · cases built
  · dsimp only at built
    split at built
    · cases built
    · rename_i frame isFrame
      exact ⟨frame, isFrame⟩

theorem dependencies_of_built {result : BuildResult}
    (built : (execute ⟨files, .empty⟩ options).2 = .ok result) :
    result.dependencies =
      dependencies options options.input.resolve ((evictedBy files options).map Prod.snd) := by
  rw [execute_empty] at built
  split at built
  · cases built
  · dsimp only at built
    split at built
    · cases built
    · cases built
      rfl

/-- The dependencies of a style module besides itself are the accepted files among some. -/
theorem mem_tail_dependencies_iff {module : Location} {files : List Location} {text : Text} :
    text ∈ (dependencies options module files).tail ↔
      (∃ file ∈ files, file.text = text) ∧ text ≠ module.text ∧ options.accepts text = true := by
  simp [dependencies, List.mem_mergeSort, and_assoc]

/-- The dependencies of a style module are itself and the accepted files among some. -/
theorem mem_dependencies_iff {module : Location} {files : List Location} {text : Text} :
    text ∈ dependencies options module files ↔
      text = module.text ∨ (∃ file ∈ files, file.text = text) ∧ text ≠ module.text ∧
        options.accepts text = true := by
  rw [← mem_tail_dependencies_iff]
  exact List.mem_cons

/-- No dependency is told twice. -/
theorem nodup_dependencies (options : BuildOptions) (module : Location) (files : List Location) :
    (dependencies options module files).Nodup := by
  refine List.nodup_cons.2 ⟨?_, ?_⟩
  · simp [List.mem_mergeSort]
  · exact (List.mergeSort_perm _ _).nodup_iff.2 ((nodup_eraseDups _).filter _)

end

/-! ## A project with two files -/

/-- The options of the style module `style.py`, to the project of which all files belong. -/
def styleOptions : BuildOptions :=
  ⟨⟨.single, ["style.py"]⟩, ⟨.single, []⟩, [], []⟩

/-- A project in which `style.py` consists of one statement, and another file is empty. -/
def styleProject (statement : Statement) (file : Location) : Cached :=
  ⟨⟨(Files.empty.put ⟨["style.py"]⟩ (.script [statement])).put file (.script []), .empty⟩,
    .empty none⟩

end CssAuthoring.Project
