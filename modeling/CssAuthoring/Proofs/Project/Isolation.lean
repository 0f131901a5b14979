import CssAuthoring.Proofs.Project.Coherence
import CssAuthoring.Proofs.Project.Depth
import CssAuthoring.Proofs.Project.Gathering

/-!
# Builds that leave nothing behind

Style modules are built one after the other, and files are changed in between.  A build that loads
nothing from outside its project leaves nothing loaded but modules of this library, whether it
succeeds or fails, so that the next one starts as if it were the first: what it yields depends on
nothing but its options and what stands at each location.  Modules that do not say that they were
read from their files are not evicted, packages without a file among them, so that no build may load
one; and modules of this library are kept on purpose, so that no earlier build may have loaded one.

Main statement: `compile_isolated`, what a build yields does not depend on what was built before.
-/

namespace CssAuthoring.Project

/-! ## Builds that stay inside their project -/

/-- Whether a module is from the project of a build; a bare package has a directory only. -/
def Module.isInside (options : BuildOptions) (module : Module) : Bool :=
  match module.origin, module.package with
  | some file, _ => file.isBelow options.directory.resolve
  | none, .bare directory => directory.isBelow options.directory.resolve
  | none, _ => true

/--
All modules that a build loads are from its project, except perhaps for those of this library.
-/
def Inside (files : Files) (options : BuildOptions) : Prop :=
  ∀ module ∈ loadedBy files options, module.name.isOwn = false → module.isInside options = true

instance (files : Files) (options : BuildOptions) : Decidable (Inside files options) :=
  inferInstanceAs (Decidable (∀ module ∈ loadedBy files options, module.name.isOwn = false →
    module.isInside options = true))

/-- All modules that a build loads, besides those of this library, are from files of its project. -/
structure Enclosed (files : Files) (options : BuildOptions) : Prop where
  inside : Inside files options
  filed : Filed files options

/-- All modules that a build loads are from files of its project, and none is of this library. -/
structure Isolated (files : Files) (options : BuildOptions) : Prop extends
    Enclosed files options where
  foreign : Foreign files options

/--
The dependencies of a result are its style module, and the accepted files that it used, besides
those of this library.
-/
structure Accounts (files : Files) (options : BuildOptions) (result : BuildResult) : Prop where
  first : result.dependencies.head? = some options.input.resolve.text
  distinct : result.dependencies.Nodup
  others : ∀ text, text ∈ result.dependencies.tail ↔
    text ≠ options.input.resolve.text ∧ options.accepts text = true ∧
      ∃ module ∈ importedBy files options, module.name.isOwn = false ∧
        module.origin.map Location.text = some text

section

variable {files other : Files} {options : BuildOptions}

theorem Enclosed.isBelow (enclosed : Enclosed files options) {module : Module}
    (isLoaded : module ∈ loadedBy files options) (notOwn : module.name.isOwn = false)
    {file : Location} (isOrigin : module.origin = some file) :
    file.isBelow options.directory.resolve = true := by
  have inside := enclosed.inside module isLoaded notOwn
  rwa [Module.isInside, isOrigin] at inside

/--
A build from its project leaves nothing loaded but modules of this library, where nothing was.
-/
theorem Enclosed.isOwn_of_loaded (enclosed : Enclosed files options) {memory : Memory}
    (unloaded : memory.loaded = .empty) {name : ModuleName}
    (isLoaded : (compile ⟨files, memory⟩ options).1.memory.loaded.contains name = true) :
    name.isOwn = true := by
  unfold compile at isLoaded
  dsimp only at isLoaded
  split at isLoaded
  · rw [unloaded] at isLoaded
    cases isLoaded
  · rw [@execute_eq ⟨files, memory⟩ unloaded] at isLoaded
    dsimp only at isLoaded
    rw [Memory.behind, OrderedTable.contains_mapValues] at isLoaded
    rcases Option.isSome_iff_exists.1 isLoaded with ⟨index, found⟩
    have inside := fun module isLoaded notOwn file isOrigin =>
      @enclosed.isBelow _ _ module isLoaded notOwn file isOrigin
    exact (isOwn_of_kept enclosed.filed inside (OrderedTable.mem_of_find? found)).1

/-- A build that stays inside its project leaves nothing loaded where nothing was. -/
theorem Isolated.unloaded (isolated : Isolated files options) {memory : Memory}
    (unloaded : memory.loaded = .empty) :
    (compile ⟨files, memory⟩ options).1.memory.loaded = .empty := by
  unfold compile
  cases checkModule files options.input.resolve with
  | error failure => exact unloaded
  | ok checked =>
      dsimp only
      rw [@execute_eq ⟨files, memory⟩ unloaded]
      refine Memory.behind_unloaded memory (unloaded_of_filed isolated.filed isolated.foreign ?_)
      exact fun module isLoaded notOwn file isOrigin => isolated.isBelow isLoaded notOwn isOrigin

/-- What a build yields depends only on what stands at each location. -/
theorem compile_congr (same : files.SameContent other) :
    (compile ⟨other, .empty⟩ options).2 = (compile ⟨files, .empty⟩ options).2 := by
  have ran := runNameless_congr same options.input.resolve.parent sound_empty options.input.resolve
  have checked : checkModule other options.input.resolve =
      checkModule files options.input.resolve := by
    simp only [checkModule, same.contains, same.isFile, same.isTooLong]
  unfold compile
  dsimp only
  rw [checked]
  cases checkModule files options.input.resolve with
  | error failure => rfl
  | ok done => exact execute_congr ran

/-- The dependencies of a build from its project are the files that it used. -/
theorem Enclosed.accounts (enclosed : Enclosed files options) {result : BuildResult}
    (built : (execute ⟨files, .empty⟩ options).2 = .ok result) : Accounts files options result := by
  rcases ran_of_built built with ⟨frame, ran⟩
  have dependencies := dependencies_of_built built
  refine ⟨by rw [dependencies]; rfl, ?_, fun text => ?_⟩
  · rw [dependencies]
    exact nodup_dependencies options _ _
  · have inside := fun module isLoaded notOwn file isOrigin =>
      @enclosed.isBelow _ _ module isLoaded notOwn file isOrigin
    have used : (∃ file ∈ (evictedBy files options).map Prod.snd, file.text = text) ↔
        ∃ module ∈ importedBy files options, module.name.isOwn = false ∧
          module.origin.map Location.text = some text := by
      simp only [mem_evictedBy_iff enclosed.filed inside ran, Option.map_eq_some_iff]
      constructor
      · rintro ⟨file, ⟨module, isImported, notOwn, isOrigin⟩, isText⟩
        exact ⟨module, isImported, notOwn, file, isOrigin, isText⟩
      · rintro ⟨module, isImported, notOwn, file, isOrigin, isText⟩
        exact ⟨file, ⟨module, isImported, notOwn, isOrigin⟩, isText⟩
    rw [dependencies, mem_tail_dependencies_iff, used, and_comm, and_assoc]

end

/-! ## Builds one after the other -/

/-- The projects that builds of some kind lead to, while files are changed at will in between. -/
inductive Leads (isBuilt : Files → BuildOptions → Prop) (start : Project) : Project → Prop
  | start : Leads isBuilt start start
  | build {project : Project} {options : BuildOptions} (leads : Leads isBuilt start project)
      (allowed : isBuilt project.files options) : Leads isBuilt start (project.compile options).1
  | change {project : Project} (leads : Leads isBuilt start project) (files : Files) :
      Leads isBuilt start { project with files }

/-- Builds that stay inside their projects leave nothing loaded, whatever else is done. -/
theorem Leads.unloaded {start project : Project} (leads : Leads Isolated start project)
    (unloaded : start.memory.loaded = .empty) : project.memory.loaded = .empty := by
  induction leads with
  | start => exact unloaded
  | build _ allowed hypothesis => exact allowed.unloaded hypothesis
  | change _ _ hypothesis => exact hypothesis

/--
What a build from its project yields depends on nothing but its options and what stands at each
location, whatever was built and changed before.  It leaves nothing loaded but modules of this
library, and its dependencies are the files that it used, besides those of this library.
-/
theorem compile_isolated {start other project again : Project}
    (unloaded : start.memory.loaded = .empty) (unloadedOther : other.memory.loaded = .empty)
    (leads : Leads Isolated start project) (leadsOther : Leads Isolated other again)
    (same : project.files.SameContent again.files) {options : BuildOptions}
    (enclosed : Enclosed project.files options) :
    (again.compile options).2 = (project.compile options).2 ∧
      (∀ name, (project.compile options).1.memory.loaded.contains name = true →
        name.isOwn = true) ∧
        ∀ result, (project.compile options).2 = .ok result →
          Accounts project.files options result := by
  have nothing := leads.unloaded unloaded
  have nothingOther := leadsOther.unloaded unloadedOther
  rcases project with ⟨files, memory⟩
  rcases again with ⟨filesAgain, memoryAgain⟩
  dsimp only at nothing nothingOther same enclosed ⊢
  refine ⟨?_, fun name => enclosed.isOwn_of_loaded nothing, fun result built => ?_⟩
  · rw [compile_eq _ nothing, compile_eq _ nothingOther]
    exact compile_congr same
  · rw [compile_eq _ nothing] at built
    exact enclosed.accounts (executed_of_compiled built).2

/-- A module of this library stays loaded, and is no dependency. -/
example :
    let start := (styleProject (.useModule ["surimi", "extra"]) ⟨["surimi", "extra.py"]⟩).project
    let kept : List ModuleName := [["surimi"], ["surimi", "extra"]]
    (start.compile styleOptions).1.memory.loaded.keys = kept ∧
      (start.compile styleOptions).2.toOption = some ⟨[], ["/style.py"]⟩ := by
  intro start kept
  decide +kernel

/-! ### A project that is built and changed -/

/-- A project in which a file has been rewritten after a build. -/
def rewrittenProject (start : Project) (file : Location) (statements : List Statement) : Project :=
  { (start.compile styleOptions).1 with files := start.files.put file (.script statements) }

theorem leads_rewrittenProject {isBuilt : Files → BuildOptions → Prop} {start : Project}
    (allowed : isBuilt start.files styleOptions) (file : Location) (statements : List Statement) :
    Leads isBuilt start (rewrittenProject start file statements) :=
  .change (.build .start allowed) _

/-- A module that was rewritten is read anew, as if it had never been there. -/
theorem compile_isolated_rewritten :
    let start := (styleProject (.useModule ["module"]) ⟨["module.py"]⟩).project
    let project := rewrittenProject start ⟨["module.py"]⟩ [.newSheet "sheet"]
    let again : Project := ⟨project.files, .empty⟩
    start.memory.loaded = .empty ∧ Leads Isolated start project ∧
      Isolated project.files styleOptions ∧
        (again.compile styleOptions).2 = (project.compile styleOptions).2 ∧
          (∀ name, (project.compile styleOptions).1.memory.loaded.contains name = true →
            name.isOwn = true) ∧
              ∀ result, (project.compile styleOptions).2 = .ok result →
                Accounts project.files styleOptions result := by
  intro start project again
  have leads : Leads Isolated start project :=
    leads_rewrittenProject ⟨⟨by decide, by decide +kernel⟩, by decide⟩ _ _
  have isolated : Isolated project.files styleOptions :=
    ⟨⟨by decide, by decide +kernel⟩, by decide⟩
  have same : project.files.SameContent again.files := .refl project.files
  have unloaded : start.memory.loaded = .empty := rfl
  have unloadedAgain : again.memory.loaded = .empty := rfl
  have leadsAgain : Leads Isolated again again := .start
  exact ⟨unloaded, leads, isolated,
    compile_isolated unloaded unloadedAgain leads leadsAgain same isolated.toEnclosed⟩

/--
A package without a file stays loaded, and its module among its names, so that the failure of the
module stays unseen.
-/
theorem compile_leaves :
    let start := (styleProject (.useName ["package"] "module") ⟨["package", "module.py"]⟩).project
    let project := rewrittenProject start ⟨["package", "module.py"]⟩ [.fail "changed"]
    let again : Project := ⟨project.files, .empty⟩
    start.memory.loaded = .empty ∧ Leads Inside start project ∧
      Inside project.files styleOptions ∧
        project.memory.loaded.contains ["package"] = true ∧
          (again.compile styleOptions).2 ≠ (project.compile styleOptions).2 := by
  intro start project again
  have unseen : (project.compile styleOptions).2.isOk = true := by decide +kernel
  have fails : (again.compile styleOptions).2.isOk = false := by decide
  refine ⟨rfl, leads_rewrittenProject (by decide) _ _, by decide, by decide, fun same => ?_⟩
  rw [← same, fails] at unseen
  cases unseen

end CssAuthoring.Project
