import CssAuthoring.Proofs.Build.History
import CssAuthoring.Proofs.Project.Isolation

/-!
# Builds that share a cache

Results are kept by the location of the style module alone.  Builds of one style module that share a
cache may have other options, so that a result in the cache was made with those of the last build
that found none there.  The CSS text of a style module depends on no options, but which of the files
that it was made from count as dependencies does.

Main statement: `compileCached_shared`, what a build yields whose cache other builds have used, and
when its dependencies are those of a build without the cache.
-/

namespace CssAuthoring.Project

/-! ## What the builds of one style module have in common -/

section

variable {files : Files} {options other : BuildOptions} {result own : BuildResult}
variable (same : other.input.resolve = options.input.resolve)

include same in
/-- Builds of one style module fail alike, or write the same text. -/
theorem css_compile_congr : (compile ⟨files, .empty⟩ other).2.map BuildResult.css =
    (compile ⟨files, .empty⟩ options).2.map BuildResult.css := by
  unfold compile
  dsimp only
  rw [same]
  cases checkModule files options.input.resolve with
  | error failure => rfl
  | ok checked =>
      dsimp only
      have sameMemory : ranMemory files other = ranMemory files options := by
        rw [ranMemory, ranMemory, same]
      rw [execute_empty, execute_empty, sameMemory, same]
      cases misfiled? .empty (ranMemory files options) with
      | some type => rfl
      | none =>
          cases (runNameless ⟨files, options.input.resolve.parent⟩ .empty
            options.input.resolve).2 <;> rfl

include same in
theorem importedBy_congr : importedBy files other = importedBy files options := by
  rw [importedBy, ranMemory, same, importedBy, ranMemory]

/-- The result of a build lists the files that it used. -/
theorem Isolated.accounts_of_compile (isolated : Isolated files options)
    (built : (compile ⟨files, .empty⟩ options).2 = .ok result) : Accounts files options result :=
  isolated.accounts (executed_of_compiled built).2

/-- No module that a build makes is of this library, if none is that it loads. -/
theorem Isolated.foreign_of_imported (isolated : Isolated files options)
    (built : (compile ⟨files, .empty⟩ options).2 = .ok result) {module : Module}
    (isImported : module ∈ importedBy files options) : module.name.isOwn = false := by
  rcases ran_of_built (executed_of_compiled built).2 with ⟨frame, ran⟩
  rcases found_of_imported ran isImported with ⟨index, _, found⟩
  exact isolated.foreign _ (OrderedTable.mem_of_find? found)

/-- A dependency is the style module, or another accepted file that the build used. -/
theorem Accounts.mem_iff (accounts : Accounts files options result) {text : Text} :
    text ∈ result.dependencies ↔ text = options.input.resolve.text ∨
      text ≠ options.input.resolve.text ∧ options.accepts text = true ∧
        ∃ module ∈ importedBy files options, module.name.isOwn = false ∧
          module.origin.map Location.text = some text := by
  rcases List.head?_eq_some_iff.1 accounts.first with ⟨rest, shape⟩
  have others := accounts.others text
  rw [shape, List.tail_cons] at others
  rw [shape, List.mem_cons, others]

include same in
/-- Two results of one style module have the same dependencies if the options accept the same. -/
theorem Accounts.same_dependencies_iff (accounts : Accounts files other result)
    (accountsOwn : Accounts files options own)
    (foreign : ∀ module ∈ importedBy files options, module.name.isOwn = false) :
    (∀ text, text ∈ result.dependencies ↔ text ∈ own.dependencies) ↔
      ∀ module ∈ importedBy files options, ∀ file, module.origin = some file →
        file.text ≠ options.input.resolve.text →
          other.accepts file.text = options.accepts file.text := by
  simp only [accounts.mem_iff, accountsOwn.mem_iff, same, importedBy_congr same]
  constructor
  · intro alike module isImported file isOrigin isOther
    have used : ∃ module ∈ importedBy files options, module.name.isOwn = false ∧
        module.origin.map Location.text = some file.text :=
      ⟨module, isImported, foreign module isImported, by rw [isOrigin]; rfl⟩
    have here := alike file.text
    rw [Bool.eq_iff_iff]
    simpa only [isOther, ne_eq, not_false_eq_true, true_and, false_or, used, and_true] using here
  · intro agree text
    refine or_congr_right (and_congr_right fun isOther => ?_)
    refine and_congr_left fun ⟨module, isImported, _, isText⟩ => ?_
    rcases Option.map_eq_some_iff.1 isText with ⟨file, isOrigin, rfl⟩
    rw [agree module isImported file isOrigin isOther]

end

/-! ## Builds one after the other -/

/-- A project and its cache after some builds. -/
def Cached.after (start : Cached) (history : List BuildOptions) : Cached :=
  history.foldl (fun cached options => (compileCached cached options).1) start

@[simp]
theorem Cached.after_concat (start : Cached) (history : List BuildOptions)
    (options : BuildOptions) :
    start.after (history ++ [options]) = (compileCached (start.after history) options).1 := by
  simp [after]

/-- The options of the last of some builds of a style module that found no result in the cache. -/
inductive LastMiss (start : Cached) (module : Location) : List BuildOptions → BuildOptions → Prop
  | missed {history : List BuildOptions} {options : BuildOptions}
      (resolves : options.input.resolve = module)
      (missing : (start.after history).cache.find? module = none) :
      LastMiss start module (history ++ [options]) options
  | passed {history : List BuildOptions} {options other : BuildOptions}
      (last : LastMiss start module history options)
      (found : other.input.resolve = module → (start.after history).cache.find? module ≠ none) :
      LastMiss start module (history ++ [other]) options

/-- Whether a cache with a limit can take no result at all, and fails. -/
def overdraws (limit : Option Int) : Bool :=
  (limit.map fun most => decide (most < 0)).getD false

/-- The outcome of a build whose result a cache with a limit has to take. -/
def admitted (limit : Option Int) (module : Location)
    (outcome : Except BuildFailure BuildResult) : Except BuildFailure BuildResult :=
  outcome.bind fun result =>
    if overdraws limit then .error (.overdrawn module) else .ok result

theorem LastMiss.resolves {start : Cached} {module : Location} {history : List BuildOptions}
    {options : BuildOptions} (last : LastMiss start module history options) :
    options.input.resolve = module := by
  induction last with
  | missed resolves => exact resolves
  | passed _ _ hypothesis => exact hypothesis

theorem LastMiss.mem {start : Cached} {module : Location} {history : List BuildOptions}
    {options : BuildOptions} (last : LastMiss start module history options) :
    options ∈ history := by
  induction last with
  | missed => exact List.mem_append_right _ (List.mem_singleton_self _)
  | passed _ _ hypothesis => exact List.mem_append_left _ hypothesis

section

variable {start : Cached} {history : List BuildOptions} {options : BuildOptions}

theorem files_compile (project : Project) (options : BuildOptions) :
    (project.compile options).1.files = project.files := by
  unfold compile
  cases checkModule project.files options.input.resolve with
  | error failure => rfl
  | ok checked =>
      unfold execute
      dsimp only
      split
      · rfl
      · split <;> rfl

/-- Where the cache has no result, a build is one without it, and its result is put there. -/
theorem compileCached_eq_of_missing {cached : Cached}
    (missing : cached.cache.find? options.input.resolve = none) :
    compileCached cached options =
      (⟨(cached.project.compile options).1,
          match (cached.project.compile options).2 with
          | .error _ => cached.cache
          | .ok result => (cached.cache.put options.input.resolve result).1⟩,
        admitted cached.cache.limit options.input.resolve (cached.project.compile options).2) := by
  unfold compileCached compile
  dsimp only
  cases checkModule cached.project.files options.input.resolve with
  | error failure => rfl
  | ok checked =>
      dsimp only
      rw [missing]
      dsimp only
      rcases cached.project.execute options with ⟨project, built⟩
      cases built with
      | error failure => rfl
      | ok result =>
          dsimp only [admitted, Except.bind]
          rcases put : cached.cache.put options.input.resolve result with ⟨cache, kept⟩
          have outcome : (if overdraws cached.cache.limit then Except.error Overdrawn.overdrawn
              else .ok ()) = kept := congrArg Prod.snd put
          rw [← outcome]
          cases overdraws cached.cache.limit <;> rfl

/-- A cache that holds a result after another was put does not fail to take results. -/
theorem overdraws_of_put {cache : BuildCache} {module : Location} {result : BuildResult}
    (filled : (cache.put module result).1.entries.entries ≠ []) :
    overdraws cache.limit = false := by
  cases limited : cache.limit with
  | none => rfl
  | some most =>
      by_contra negative
      have below : most < 0 := by simpa [overdraws] using negative
      have count : most.toNat = 0 := Int.toNat_of_nonpos (Int.le_of_lt below)
      simp [BuildCache.put, BuildCache.trimmed, limited, count] at filled

/-- What builds that share a cache keep: nothing is loaded, and every result has its builder. -/
structure Shared (start : Cached) (history : List BuildOptions) : Prop where
  files : (start.after history).project.files = start.project.files
  unloaded : (start.after history).project.memory.loaded = .empty
  limit : (start.after history).cache.limit = start.cache.limit
  room : (start.after history).cache.entries.entries ≠ [] → overdraws start.cache.limit = false
  entries : ∀ entry ∈ (start.after history).cache.entries.entries,
    ∃ builder, LastMiss start entry.1 history builder ∧
      (compile ⟨start.project.files, .empty⟩ builder).2 = .ok entry.2

/-- At the start nothing is loaded, and nothing is in the cache. -/
theorem Shared.begins (unloaded : start.project.memory.loaded = .empty)
    (unfilled : start.cache.entries = .empty) : Shared start [] := by
  refine ⟨rfl, unloaded, rfl, fun filled => ?_, fun entry isEntry => ?_⟩
  · exact absurd (congrArg OrderedTable.entries unfilled) filled
  · change entry ∈ start.cache.entries.entries at isEntry
    rw [unfilled] at isEntry
    cases isEntry

/-- A result that is in the cache has the builder that it had, also after one more build. -/
theorem Shared.passed (shared : Shared start history) {entry : Location × BuildResult}
    (isEntry : entry ∈ (start.after history).cache.entries.entries) :
    ∃ builder, LastMiss start entry.1 (history ++ [options]) builder ∧
      (compile ⟨start.project.files, .empty⟩ builder).2 = .ok entry.2 := by
  rcases shared.entries entry isEntry with ⟨builder, last, built⟩
  rcases OrderedTable.exists_find? isEntry with ⟨result, found⟩
  refine ⟨builder, .passed last fun _ => ?_, built⟩
  rw [BuildCache.find?, found]
  exact Option.some_ne_none result

/-- A build that finds a result in the cache yields what its builder does. -/
theorem Shared.hit (shared : Shared start history) {result : BuildResult}
    (found : (start.after history).cache.find? options.input.resolve = some result) :
    Shared start (history ++ [options]) ∧
      ∃ builder, LastMiss start options.input.resolve (history ++ [options]) builder ∧
        (compileCached (start.after history) options).2 = admitted start.cache.limit
          options.input.resolve (compile ⟨start.project.files, .empty⟩ builder).2 := by
  have isEntry := OrderedTable.mem_of_find? found
  have passed : ∃ builder, LastMiss start options.input.resolve (history ++ [options]) builder ∧
      (compile ⟨start.project.files, .empty⟩ builder).2 = .ok result := shared.passed isEntry
  rcases passed with ⟨builder, last, built⟩
  have resolves := last.resolves
  have isFile : (start.after history).project.files.isFile options.input.resolve = true := by
    rw [shared.files, ← resolves]
    exact (executed_of_compiled built).1
  have hit := compileCached_hit _ options result isFile found
  refine ⟨?_, builder, last, ?_⟩
  · have same : start.after (history ++ [options]) = start.after history := by
      rw [Cached.after_concat, hit]
    constructor
    · rw [same, shared.files]
    · rw [same, shared.unloaded]
    · rw [same, shared.limit]
    · rw [same]
      exact shared.room
    · rw [same]
      exact fun entry => shared.passed
  · have roomy := shared.room (List.ne_nil_of_mem isEntry)
    rw [hit, built, admitted, Except.bind, roomy]
    rfl

/-- A build that finds no result in the cache yields what it does without the cache. -/
theorem Shared.miss (shared : Shared start history)
    (isolated : Isolated start.project.files options)
    (missing : (start.after history).cache.find? options.input.resolve = none) :
    Shared start (history ++ [options]) ∧
      (compileCached (start.after history) options).2 = admitted start.cache.limit
        options.input.resolve (compile ⟨start.project.files, .empty⟩ options).2 := by
  have missed := compileCached_eq_of_missing missing
  have last : LastMiss start options.input.resolve (history ++ [options]) options :=
    .missed rfl missing
  have isolatedHere : Isolated (start.after history).project.files options := by
    rwa [shared.files]
  have unloaded := isolatedHere.unloaded shared.unloaded
  have alone : ((start.after history).project.compile options).2 =
      (compile ⟨start.project.files, .empty⟩ options).2 := by
    rw [← shared.files]
    exact compile_eq _ shared.unloaded options
  have after := congrArg Prod.fst missed
  rw [← Cached.after_concat, alone] at after
  dsimp only at after
  refine ⟨?_, by rw [missed, alone, shared.limit]⟩
  cases built : (compile ⟨start.project.files, .empty⟩ options).2 with
  | error failure =>
      rw [built] at after
      constructor
      · rw [after, files_compile, shared.files]
      · rw [after]
        exact unloaded
      · rw [after, shared.limit]
      · rw [after]
        exact shared.room
      · rw [after]
        exact fun entry => shared.passed
  | ok result =>
      rw [built] at after
      constructor
      · rw [after, files_compile, shared.files]
      · rw [after]
        exact unloaded
      · rw [after]
        exact shared.limit
      · rw [after, ← shared.limit]
        exact overdraws_of_put
      · rw [after]
        intro entry isEntry
        rcases BuildCache.mem_put isEntry with ⟨old, _⟩ | rfl
        · exact shared.passed old
        · exact ⟨options, last, built⟩

/-- Builds that stay inside their projects share a cache, whatever their options. -/
theorem shared_of_isolated (unloaded : start.project.memory.loaded = .empty)
    (unfilled : start.cache.entries = .empty)
    (isolated : ∀ call ∈ history, Isolated start.project.files call) : Shared start history := by
  induction history using List.reverseRecOn with
  | nil => exact .begins unloaded unfilled
  | append_singleton history options hypothesis =>
      have shared := hypothesis fun call member => isolated call (List.mem_append_left _ member)
      cases found : (start.after history).cache.find? options.input.resolve with
      | some result => exact (shared.hit found).1
      | none => exact (shared.miss (isolated options (by simp)) found).1

/--
Where builds share a cache, each one yields what one without the cache yields whose options are
those of the last build of its style module so far that found no result in the cache, unless the
cache can take no result at all.  That is the same failure as with its own options, or the same
text.  The dependencies besides the style module are accepted by the options of that last build,
and they are those with its own options exactly if the two accept the same of the files that were
used.
-/
theorem compileCached_shared (unloaded : start.project.memory.loaded = .empty)
    (unfilled : start.cache.entries = .empty)
    (isolated : ∀ call ∈ history ++ [options], Isolated start.project.files call) :
    ((start.after history).project.compile options).2 =
        (compile ⟨start.project.files, .empty⟩ options).2 ∧
      ∃ builder, LastMiss start options.input.resolve (history ++ [options]) builder ∧
        (compileCached (start.after history) options).2 = admitted start.cache.limit
          options.input.resolve (compile ⟨start.project.files, .empty⟩ builder).2 ∧
        (compile ⟨start.project.files, .empty⟩ builder).2.map BuildResult.css =
          (compile ⟨start.project.files, .empty⟩ options).2.map BuildResult.css ∧
        ∀ result own, (compile ⟨start.project.files, .empty⟩ builder).2 = .ok result →
          (compile ⟨start.project.files, .empty⟩ options).2 = .ok own →
            Accounts start.project.files builder result ∧
              ((∀ text, text ∈ result.dependencies ↔ text ∈ own.dependencies) ↔
                ∀ module ∈ importedBy start.project.files options, ∀ file,
                  module.origin = some file → file.text ≠ options.input.resolve.text →
                    builder.accepts file.text = options.accepts file.text) := by
  have shared := shared_of_isolated unloaded unfilled fun call member =>
    isolated call (List.mem_append_left _ member)
  have ownIsolated := isolated options (by simp)
  have alone : ((start.after history).project.compile options).2 =
      (compile ⟨start.project.files, .empty⟩ options).2 := by
    rw [← shared.files]
    exact compile_eq _ shared.unloaded options
  have yields : ∃ builder, LastMiss start options.input.resolve (history ++ [options]) builder ∧
      (compileCached (start.after history) options).2 = admitted start.cache.limit
        options.input.resolve (compile ⟨start.project.files, .empty⟩ builder).2 := by
    cases found : (start.after history).cache.find? options.input.resolve with
    | some result => exact (shared.hit found).2
    | none => exact ⟨options, .missed rfl found, (shared.miss ownIsolated found).2⟩
  rcases yields with ⟨builder, last, same⟩
  refine ⟨alone, builder, last, same, css_compile_congr last.resolves, ?_⟩
  intro result own built ownBuilt
  have accounts := (isolated builder last.mem).accounts_of_compile built
  have ownAccounts := ownIsolated.accounts_of_compile ownBuilt
  have foreign := fun module => @ownIsolated.foreign_of_imported _ _ _ ownBuilt module
  exact ⟨accounts, accounts.same_dependencies_iff last.resolves ownAccounts foreign⟩

end

/-- The options of the style module `style.py`, with one other file excluded. -/
def narrowOptions : BuildOptions :=
  { styleOptions with excluded := ["*/module.py"] }

/-- Two builds of one style module, the first of which excludes the file that it uses. -/
theorem compileCached_shared_narrow :
    let start := styleProject (.useModule ["module"]) ⟨["module.py"]⟩
    start.project.memory.loaded = .empty ∧ start.cache.entries = .empty ∧
      (∀ call ∈ [narrowOptions] ++ [styleOptions], Isolated start.project.files call) ∧
      ∃ builder,
        LastMiss start styleOptions.input.resolve ([narrowOptions] ++ [styleOptions]) builder ∧
        (compileCached (start.after [narrowOptions]) styleOptions).2 = admitted start.cache.limit
          styleOptions.input.resolve (compile ⟨start.project.files, .empty⟩ builder).2 ∧
        (compileCached (start.after [narrowOptions]) styleOptions).2 =
          .ok ⟨[], ["/style.py"]⟩ := by
  intro start
  have isolated : ∀ call ∈ [narrowOptions] ++ [styleOptions],
      Isolated start.project.files call := by
    simp only [List.singleton_append, List.forall_mem_cons]
    exact ⟨⟨⟨by decide, by decide +kernel⟩, by decide⟩,
    ⟨⟨by decide, by decide +kernel⟩, by decide⟩, nofun⟩
  rcases @compileCached_shared start _ _ rfl rfl isolated with ⟨_, builder, last, same, _⟩
  exact ⟨rfl, rfl, isolated, builder, last, same, by decide +kernel⟩

/-- The second of two builds has a dependency that its own options exclude. -/
theorem compileCached_foreign :
    let start := styleProject (.useModule ["module"]) ⟨["module.py"]⟩
    (∀ call ∈ [styleOptions, narrowOptions], Isolated start.project.files call) ∧
      (compileCached (start.after [styleOptions]) narrowOptions).2 =
        .ok ⟨[], ["/style.py", "/module.py"]⟩ ∧
      (compile ⟨start.project.files, .empty⟩ narrowOptions).2 = .ok ⟨[], ["/style.py"]⟩ ∧
      narrowOptions.accepts "/module.py" = false := by
  intro start
  refine ⟨?_, by decide +kernel, by decide +kernel, by decide +kernel⟩
  simp only [List.forall_mem_cons]
  exact ⟨⟨⟨by decide, by decide +kernel⟩, by decide⟩,
    ⟨⟨by decide, by decide +kernel⟩, by decide⟩, nofun⟩

end CssAuthoring.Project
