import CssAuthoring.Proofs.Project.Changes
import CssAuthoring.Proofs.Project.Loading
import CssAuthoring.Proofs.Project.Relocation

/-!
# Builds with a cache

Files are changed, results that were made from them are dropped from the cache, and style modules
are built, over and over.  Where every change is followed by dropping the results made from the
changed file before anything is built again, a build with the cache yields what a build without it
yields.

What carries this is that the dependencies of a result are all files that it was made from, as long
as the options accept them, and that a build leaves no module loaded that another build could find.
Modules that do not say that they were read from their files are not evicted, packages without a
file among them, and neither are modules of this library, so that no build may load one.

Main statement: `compileCached_coherent`, a build with the cache yields what one without it yields.
-/

namespace CssAuthoring.Project

/-- After a change of a file, all others are as they were. -/
theorem agree_change {files : Files} {file : Location} (tree : files.IsTree)
    (isFile : files.isFile file = true) (change : Files.Change) :
    Agree (· ≠ file) files (files.change file change) := by
  rcases Files.content?_change tree isFile change with ⟨content, _, changed⟩
  refine ⟨fun other different => ?_, fun _ => Files.isFile_change tree isFile change⟩
  rw [changed, if_neg different]

/-! ## What a build may load -/

/-- Whether a file is one of the project of a build, and accepted by its options. -/
def isCovered (options : BuildOptions) (file : Location) : Bool :=
  file.isBelow options.directory.resolve && options.accepts file.text

/--
Whether a module is from the project of a build, and accepted by its options; a bare package has no
file to accept.
-/
def Module.isCovered (options : BuildOptions) (module : Module) : Bool :=
  match module.origin, module.package with
  | some file, _ => Project.isCovered options file
  | none, .bare directory => directory.isBelow options.directory.resolve
  | none, _ => true

/-- All modules that a build loads are from its project, and accepted by its options. -/
def Contained (files : Files) (options : BuildOptions) : Prop :=
  ∀ module ∈ loadedBy files options, module.isCovered options = true

instance (files : Files) (options : BuildOptions) : Decidable (Contained files options) :=
  inferInstanceAs (Decidable (∀ module ∈ loadedBy files options, module.isCovered options = true))

/-- What a build loads is evicted again, and counts as dependency. -/
structure Fits (files : Files) (options : BuildOptions) : Prop where
  contained : Contained files options
  filed : Filed files options
  foreign : Foreign files options

section

variable {files : Files} {options : BuildOptions}

theorem Fits.covered (fits : Fits files options) {module : Module}
    (isLoaded : module ∈ loadedBy files options) {file : Location}
    (isOrigin : module.origin = some file) :
    file.isBelow options.directory.resolve = true ∧ options.accepts file.text = true := by
  have covered := fits.contained module isLoaded
  rw [Module.isCovered, isOrigin] at covered
  exact Bool.and_eq_true_iff.1 covered

/-- A build leaves no module loaded, if all are from its project and have a file. -/
theorem Fits.unloaded (fits : Fits files options) :
    (execute ⟨files, .empty⟩ options).1.memory.loaded = .empty :=
  unloaded_of_filed fits.filed fits.foreign fun _ isLoaded _ _ isOrigin =>
    (fits.covered isLoaded isOrigin).1

/-- The result of a build was made from its style module and from the files of all loaded ones. -/
theorem Fits.isMadeFrom (fits : Fits files options) {result : BuildResult}
    (built : (execute ⟨files, .empty⟩ options).2 = .ok result) :
    Within (fun file => BuildCache.isMadeFrom file (options.input.resolve, result) = true)
      (ranMemory files options) := by
  intro name index found
  have notOwn := fits.foreign _ (OrderedTable.mem_of_find? found)
  rcases fits.filed.exists_file notOwn found with
    ⟨module, file, isModule, isLoaded, _, isOrigin, said⟩
  refine ⟨module, file, isModule, isOrigin, ?_⟩
  have covered := fits.covered isLoaded isOrigin
  have isOne := mem_evictedBy notOwn found said covered.1
  have isDependency : file.text ∈ result.dependencies := by
    rw [dependencies_of_built built, mem_dependencies_iff]
    by_cases same : file.text = options.input.resolve.text
    · exact .inl same
    · exact .inr ⟨⟨file, List.mem_map_of_mem isOne, rfl⟩, same, covered.2⟩
  simp [BuildCache.isMadeFrom, isDependency]

end

/-! ## Results that are up to date -/

/-- A result is what a build of its style module yields now. -/
structure Fresh (files : Files) (options : BuildOptions) (entry : Location × BuildResult) :
    Prop where
  resolves : options.input.resolve = entry.1
  fits : Fits files options
  isFile : files.isFile entry.1 = true
  built : (execute ⟨files, .empty⟩ options).2 = .ok entry.2

/-- A result stays up to date while other files change than those that it was made from. -/
theorem Fresh.of_agree {before after : Files} {options : BuildOptions}
    {entry : Location × BuildResult} (fresh : Fresh before options entry) {file : Location}
    (agree : Agree (· ≠ file) before after) (notMade : BuildCache.isMadeFrom file entry = false) :
    Fresh after options entry := by
  rcases entry with ⟨module, result⟩
  rcases fresh with ⟨rfl, fits, isFile, built⟩
  dsimp only at isFile built
  have isOther : options.input.resolve ≠ file := by
    rintro rfl
    simp [BuildCache.isMadeFrom] at notMade
  have within : Within (· ≠ file) (ranMemory before options) := by
    intro name index found
    rcases fits.isMadeFrom built name index found with ⟨module, origin, isModule, isOrigin, made⟩
    refine ⟨module, origin, isModule, isOrigin, ?_⟩
    rintro rfl
    rw [made] at notMade
    cases notMade
  have same : runNameless ⟨after, options.input.resolve.parent⟩ .empty options.input.resolve =
      runNameless ⟨before, options.input.resolve.parent⟩ .empty options.input.resolve := by
    rcases ran_of_built built with ⟨frame, isFrame⟩
    rcases ran :
        runNameless ⟨before, options.input.resolve.parent⟩ .empty options.input.resolve with
      ⟨next, outcome⟩
    rw [ran] at isFrame
    cases isFrame
    rw [ranMemory, ran] at within
    exact runNameless_follows agree sound_empty isOther ran within
  have sameMemory : ranMemory after options = ranMemory before options := congrArg Prod.fst same
  have sameLoaded : loadedBy after options = loadedBy before options := by
    rw [loadedBy, sameMemory, loadedBy]
  refine ⟨rfl, ⟨?_, ?_, ?_⟩, ?_, ?_⟩
  · rw [Contained, sameLoaded]
    exact fits.contained
  · rw [Filed, sameMemory]
    exact fits.filed
  · rw [Foreign, sameMemory]
    exact fits.foreign
  · rw [agree.isFile isOther, isFile]
  · rw [← built, execute_congr same]

/-! ## Sessions -/

/-- The options of builds, one and the same for all builds of a style module. -/
structure Plan where
  isUsed : BuildOptions → Prop
  fixed : ∀ first second, isUsed first → isUsed second →
    first.input.resolve = second.input.resolve → first = second

/-- A project with its cache, and the changed files whose results are still to be dropped. -/
structure Session where
  cached : Cached
  pending : List Location

/-- What is done in a session. -/
inductive Action where
  | build (options : BuildOptions)
  | change (file : Location) (change : Files.Change)
  /-- Drops the results that were made from a file. -/
  | drop (file : Location)

namespace Session

/-- The files of a session. -/
def files (session : Session) : Files :=
  session.cached.project.files

/-- A session after an action. -/
def perform (session : Session) : Action → Session
  | .build options => { session with cached := (compileCached session.cached options).1 }
  | .change file change =>
    let project := { session.cached.project with files := session.files.change file change }
    ⟨{ session.cached with project }, file :: session.pending⟩
  | .drop file =>
    let cache := session.cached.cache.invalidateDependents file
    ⟨{ session.cached with cache }, session.pending.filter (· ≠ file)⟩

/--
Only files that are there are changed, and nothing is built before the results that were made from
changed files are dropped.
-/
def Allows (plan : Plan) (fits : Files → BuildOptions → Prop) (session : Session) : Action → Prop
  | .build options => plan.isUsed options ∧ fits session.files options ∧ session.pending = []
  | .change file _ => session.files.isFile file = true
  | .drop _ => True

/-- The sessions that allowed actions lead to, where the builds are of some kind. -/
inductive Reaches (plan : Plan) (fits : Files → BuildOptions → Prop) (start : Cached) :
    Session → Prop
  | start : Reaches plan fits start ⟨start, []⟩
  | perform {session : Session} {action : Action} (reaches : Reaches plan fits start session)
    (allowed : session.Allows plan fits action) : Reaches plan fits start (session.perform action)

end Session

/-! ### A session with one change -/

/-- The plan to build nothing but `style.py`. -/
def stylePlan : Plan :=
  ⟨(· = styleOptions), by rintro _ _ rfl rfl _; rfl⟩

/-- A session in which a file is changed after a build, so that it fails. -/
def failedSession (start : Cached) (file : Location) : Session :=
  let built := Session.perform ⟨start, []⟩ (.build styleOptions)
  let changed := built.perform (.change file (.rewrite (.script [.fail "changed"]) nofun))
  changed.perform (.drop file)

theorem reaches_failedSession {fits : Files → BuildOptions → Prop} {start : Cached}
    {file : Location} (fit : fits start.project.files styleOptions)
    (isFile : (Session.perform ⟨start, []⟩ (.build styleOptions)).files.isFile file = true) :
    (failedSession start file).Reaches stylePlan fits start := by
  have built : (Session.perform ⟨start, []⟩ (.build styleOptions)).Reaches stylePlan fits start :=
    .perform .start ⟨rfl, fit, rfl⟩
  unfold failedSession
  refine .perform (.perform built ?_) ?_
  · exact isFile
  · trivial

/-! ## What every session keeps -/

/-- A project at the start of a session: nothing is loaded, and nothing is in its cache. -/
structure Begins (cached : Cached) : Prop where
  unloaded : cached.project.memory.loaded = .empty
  tree : cached.project.files.IsTree
  unfilled : cached.cache.entries = .empty
  limit : ∀ most, cached.cache.limit = some most → 0 ≤ most

/-- Nothing is loaded, and every result is up to date or still to be dropped. -/
structure Coherent (plan : Plan) (session : Session) : Prop where
  unloaded : session.cached.project.memory.loaded = .empty
  tree : session.files.IsTree
  limit : ∀ most, session.cached.cache.limit = some most → 0 ≤ most
  entries : ∀ entry ∈ session.cached.cache.entries.entries,
    (∃ file ∈ session.pending, BuildCache.isMadeFrom file entry = true) ∨
      ∃ options, plan.isUsed options ∧ Fresh session.files options entry

section

variable {plan : Plan} {session : Session}

theorem Coherent.change (coherent : Coherent plan session) {file : Location}
    (isFile : session.files.isFile file = true) (change : Files.Change) :
    Coherent plan (session.perform (.change file change)) := by
  refine ⟨coherent.unloaded, Files.isTree_change coherent.tree isFile change, coherent.limit, ?_⟩
  intro entry isEntry
  rcases coherent.entries entry isEntry with ⟨other, isPending, made⟩ | ⟨options, isUsed, fresh⟩
  · exact .inl ⟨other, List.mem_cons_of_mem _ isPending, made⟩
  · cases made : BuildCache.isMadeFrom file entry with
    | true => exact .inl ⟨file, List.mem_cons_self, made⟩
    | false =>
        have agree := agree_change coherent.tree isFile change
        exact .inr ⟨options, isUsed, fresh.of_agree agree made⟩

theorem Coherent.drop (coherent : Coherent plan session) (file : Location) :
    Coherent plan (session.perform (.drop file)) := by
  refine ⟨coherent.unloaded, coherent.tree, coherent.limit, ?_⟩
  intro entry isEntry
  rcases List.mem_filter.1 isEntry with ⟨wasEntry, notMade⟩
  rcases coherent.entries entry wasEntry with ⟨other, isPending, made⟩ | fresh
  · refine .inl ⟨other, List.mem_filter.2 ⟨isPending, ?_⟩, made⟩
    rw [decide_eq_true_iff]
    rintro rfl
    simp [made] at notMade
  · exact .inr fresh

/-- Where nothing is loaded, what a build yields does not depend on the memory. -/
theorem compile_eq (files : Files) {memory : Memory} (unloaded : memory.loaded = .empty)
    (options : BuildOptions) :
    (compile ⟨files, memory⟩ options).2 = (compile ⟨files, .empty⟩ options).2 := by
  have executed := congrArg Prod.snd (@execute_eq ⟨files, memory⟩ unloaded options)
  unfold compile
  dsimp only at executed ⊢
  cases checkModule files options.input.resolve with
  | error failure => rfl
  | ok checked => exact executed

/-- Where nothing is to be dropped, all results are up to date. -/
theorem Coherent.current (coherent : Coherent plan session) (settled : session.pending = [])
    {entry : Location × BuildResult} (isEntry : entry ∈ session.cached.cache.entries.entries) :
    ∃ options, plan.isUsed options ∧ Fresh session.files options entry := by
  rcases coherent.entries entry isEntry with ⟨other, isPending, _⟩ | fresh
  · rw [settled] at isPending
    cases isPending
  · exact fresh

/-- A result that is found in the cache is what a build yields. -/
theorem Coherent.hit (coherent : Coherent plan session) (settled : session.pending = [])
    {options : BuildOptions} (isUsed : plan.isUsed options) {result : BuildResult}
    (found : session.cached.cache.find? options.input.resolve = some result) :
    (execute ⟨session.files, .empty⟩ options).2 = .ok result := by
  have isEntry := OrderedTable.mem_of_find? found
  rcases coherent.current settled isEntry with ⟨other, otherUsed, fresh⟩
  have same := plan.fixed other options otherUsed isUsed fresh.resolves
  subst same
  exact fresh.built

/-- Running a style module leaves nothing loaded that the next build could find. -/
theorem Coherent.execute (coherent : Coherent plan session) {options : BuildOptions}
    (fits : Fits session.files options) :
    Coherent plan ⟨{ session.cached with project := (session.cached.project.execute options).1 },
      session.pending⟩ := by
  rw [execute_eq coherent.unloaded options]
  exact ⟨Memory.behind_unloaded _ fits.unloaded, coherent.tree, coherent.limit, coherent.entries⟩

/-- A result that was just built may be put into the cache. -/
theorem Coherent.put (coherent : Coherent plan session) (settled : session.pending = [])
    {options : BuildOptions} (isUsed : plan.isUsed options) {result : BuildResult}
    (fresh : Fresh session.files options (options.input.resolve, result)) :
    Coherent plan ⟨{ session.cached with
      cache := (session.cached.cache.put options.input.resolve result).1 }, session.pending⟩ := by
  refine ⟨coherent.unloaded, coherent.tree, coherent.limit, fun entry isEntry => .inr ?_⟩
  rcases BuildCache.mem_put isEntry with old | rfl
  · exact coherent.current settled old.1
  · exact ⟨options, isUsed, fresh⟩

/-- A build keeps a session coherent, and yields what a build without the cache yields. -/
theorem Coherent.build (coherent : Coherent plan session) {options : BuildOptions}
    (isUsed : plan.isUsed options) (fits : Fits session.files options)
    (settled : session.pending = []) :
    Coherent plan (session.perform (.build options)) ∧
      ∀ memory : Memory, memory.loaded = .empty →
        (compileCached session.cached options).2 = (compile ⟨session.files, memory⟩ options).2 := by
  suffices built : Coherent plan (session.perform (.build options)) ∧
      (compileCached session.cached options).2 = (compile ⟨session.files, .empty⟩ options).2 from
    ⟨built.1, fun memory unloaded => by rw [compile_eq _ unloaded, built.2]⟩
  have executed := congrArg Prod.snd (execute_eq coherent.unloaded options)
  have ran := coherent.execute fits
  rw [Session.perform, compileCached, compile, Session.files]
  cases checked : checkModule session.cached.project.files options.input.resolve with
  | error failure => exact ⟨coherent, rfl⟩
  | ok done =>
      dsimp only
      cases found : session.cached.cache.find? options.input.resolve with
      | some result => exact ⟨coherent, (coherent.hit settled isUsed found).symm⟩
      | none =>
          rcases outcome : session.cached.project.execute options with ⟨project, built⟩
          rw [outcome] at ran executed
          dsimp only at ran executed ⊢
          rw [← executed]
          cases built with
          | error failure => exact ⟨ran, rfl⟩
          | ok result =>
              have isFile := isFile_of_checkModule checked
              have sameFiles : project.files = session.cached.project.files := by
                have whole := congrArg (fun ran => ran.1.files)
                  (execute_eq coherent.unloaded options)
                rwa [outcome] at whole
              have fresh : Fresh project.files options (options.input.resolve, result) := by
                rw [sameFiles]
                exact ⟨rfl, fits, isFile, executed.symm⟩
              dsimp only
              rw [BuildCache.put_ok coherent.limit]
              exact ⟨ran.put settled isUsed fresh, rfl⟩

/-- Every session that allowed actions lead to is coherent. -/
theorem Session.Reaches.coherent {start : Cached} (begins : Begins start)
    (reaches : Reaches plan Fits start session) : Coherent plan session := by
  induction reaches with
  | start =>
      refine ⟨begins.unloaded, begins.tree, begins.limit, fun entry isEntry => ?_⟩
      rw [begins.unfilled] at isEntry
      cases isEntry
  | @perform session action _ allowed hypothesis =>
      cases action with
      | build options => exact (hypothesis.build allowed.1 allowed.2.1 allowed.2.2).1
      | change file change => exact hypothesis.change allowed change
      | drop file => exact hypothesis.drop file

/--
Whatever was built and changed before, a build with the cache yields what a build without it yields
now, in the memory as it is or in any other in which nothing is loaded.
-/
theorem compileCached_coherent {start : Cached} (begins : Begins start)
    (reaches : session.Reaches plan Fits start) {options : BuildOptions}
    (allowed : session.Allows plan Fits (.build options)) :
    session.cached.project.memory.loaded = .empty ∧
      ∀ memory : Memory, memory.loaded = .empty →
        (compileCached session.cached options).2 = (compile ⟨session.files, memory⟩ options).2 := by
  have coherent := reaches.coherent begins
  exact ⟨coherent.unloaded, (coherent.build allowed.1 allowed.2.1 allowed.2.2).2⟩

/-- The failure of a module that a style module uses is not hidden by the cache. -/
theorem compileCached_coherent_changed :
    let start := styleProject (.useModule ["module"]) ⟨["module.py"]⟩
    let session := failedSession start ⟨["module.py"]⟩
    Begins start ∧ session.Reaches stylePlan Fits start ∧
      session.Allows stylePlan Fits (.build styleOptions) ∧
        (compileCached session.cached styleOptions).2 =
          (compile ⟨session.files, .empty⟩ styleOptions).2 := by
  intro start session
  have begins : Begins start := ⟨rfl, Files.isTree_of_keys (by decide), rfl, nofun⟩
  have reaches : session.Reaches stylePlan Fits start :=
    reaches_failedSession ⟨by decide, by decide +kernel, by decide⟩ (by decide +kernel)
  have allowed : session.Allows stylePlan Fits (.build styleOptions) :=
    ⟨rfl, ⟨by decide +kernel, by decide +kernel, by decide +kernel⟩, by decide +kernel⟩
  exact ⟨begins, reaches, allowed, (compileCached_coherent begins reaches allowed).2 .empty rfl⟩

/--
The failure of a module inside a package without a file stays unseen, since the package is never
evicted, and has the module among its names.
-/
theorem compileCached_stale :
    let start := styleProject (.useName ["package"] "module") ⟨["package", "module.py"]⟩
    let session := failedSession start ⟨["package", "module.py"]⟩
    Begins start ∧ session.Reaches stylePlan Contained start ∧
      session.Allows stylePlan Contained (.build styleOptions) ∧
        (compileCached session.cached styleOptions).2 ≠
          (compile ⟨session.files, .empty⟩ styleOptions).2 := by
  intro start session
  have begins : Begins start := ⟨rfl, Files.isTree_of_keys (by decide), rfl, nofun⟩
  have reaches : session.Reaches stylePlan Contained start :=
    reaches_failedSession (by decide) (by decide)
  have allowed : session.Allows stylePlan Contained (.build styleOptions) :=
    ⟨rfl, by decide, by decide⟩
  have unseen : (compileCached session.cached styleOptions).2.isOk = true := by decide +kernel
  have fails : (compile ⟨session.files, .empty⟩ styleOptions).2.isOk = false := by decide
  refine ⟨begins, reaches, allowed, fun same => ?_⟩
  rw [same, fails] at unseen
  cases unseen

end

end CssAuthoring.Project
