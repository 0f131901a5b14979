import CssAuthoring.Proofs.Project.Loading
import CssAuthoring.Proofs.Project.Naming

/-!
# What every build keeps

A build changes no files, and whatever was in memory before, what is loaded afterwards is there.
The dependencies of its result are named by texts that lead to them.  With a cache in which there is
no result, a build yields what it yields without the cache.

Main statements: `compile_keeps`, a build keeps files and memory sound; `named_dependencies`, the
dependencies of a result may be named; `compileCached_miss`, a build without a result in its cache.
-/

namespace CssAuthoring.Project

/-! ## Memory -/

theorem Memory.Sound.evictAll {memory : Memory} (sound : memory.Sound) (names : List ModuleName) :
    (Project.evictAll memory names).Sound := by
  induction names generalizing memory with
  | nil => exact sound
  | cons name rest hypothesis =>
      refine hypothesis fun other index found => ?_
      rw [evict, OrderedTable.find?_erase] at found
      split at found
      · cases found
      · exact sound other index found

section

variable {project : Project} {options : BuildOptions}

/-- Running a style module leaves what its run leaves in memory, without the evicted modules. -/
theorem execute_memory (project : Project) (options : BuildOptions) :
    let ran := runNameless ⟨project.files, options.input.resolve.parent⟩ project.memory
      options.input.resolve
    ∃ names, (project.execute options).1 = ⟨project.files, evictAll ran.1 names⟩ := by
  unfold execute
  dsimp only
  rcases runNameless ⟨project.files, options.input.resolve.parent⟩ project.memory
    options.input.resolve with ⟨memory, ran⟩
  dsimp only
  cases misfiled? project.memory memory with
  | some type => exact ⟨[], rfl⟩
  | none => cases ran <;> exact ⟨_, rfl⟩

theorem execute_keeps (sound : project.memory.Sound) (options : BuildOptions) :
    (project.execute options).1.files = project.files ∧
      (project.execute options).1.memory.Sound := by
  rcases execute_memory project options with ⟨names, executed⟩
  rw [executed]
  exact ⟨rfl, (runNameless_orderly _ sound _).sound.evictAll names⟩

/-- A build keeps all files, and keeps the memory sound. -/
theorem compile_keeps (sound : project.memory.Sound) (options : BuildOptions) :
    (project.compile options).1.files = project.files ∧
      (project.compile options).1.memory.Sound := by
  unfold compile
  split
  · exact ⟨rfl, sound⟩
  · exact execute_keeps sound options

/-! ## Dependencies -/

/-- The file that a module says it was read from can be named. -/
theorem named_of_fileOf {memory : Memory} {index : Nat} {file : Location}
    (said : memory.fileOf index = .ok (some file)) : file.Named := by
  unfold Memory.fileOf at said
  split at said
  · cases said
  · split at said
    · cases said
    · split at said
      · cases said
        exact Location.named_ofText _
      · cases said

/-- A build that succeeds tells what it loaded, besides its style module. -/
theorem dependencies_of_executed {result : BuildResult}
    (built : (project.execute options).2 = .ok result) :
    ∃ memory frame, runNameless ⟨project.files, options.input.resolve.parent⟩ project.memory
        options.input.resolve = (memory, .ok frame) ∧
      misfiled? project.memory memory = none ∧
        result.dependencies = dependencies options options.input.resolve
          ((loadedSince project.memory memory options.directory.resolve).map Prod.snd) := by
  unfold execute at built
  dsimp only at built
  rcases outcome : runNameless ⟨project.files, options.input.resolve.parent⟩ project.memory
    options.input.resolve with ⟨memory, ran⟩
  rw [outcome] at built
  dsimp only at built
  cases misfiled : misfiled? project.memory memory with
  | some type =>
      rw [misfiled] at built
      cases built
  | none =>
      rw [misfiled] at built
      cases ran with
      | error cause => cases built
      | ok frame =>
          cases built
          exact ⟨memory, frame, rfl, misfiled, rfl⟩

/-- The dependencies of a result can be named. -/
theorem named_dependencies (named : project.files.Named)
    (isFile : project.files.isFile options.input.resolve = true) {result : BuildResult}
    (built : (project.execute options).2 = .ok result) :
    options.input.resolve.text ∈ result.dependencies ∧
      ∀ text ∈ result.dependencies, (Location.ofText text).text = text := by
  rcases dependencies_of_executed built with ⟨memory, frame, _, _, dependencies⟩
  rw [dependencies]
  refine ⟨List.mem_cons_self, fun text isOne => ?_⟩
  rcases mem_dependencies_iff.1 isOne with rfl | ⟨⟨file, isUsed, rfl⟩, _⟩
  · rw [Location.ofText_text (Files.named_of_isFile named isFile)]
  · rcases List.mem_map.1 isUsed with ⟨⟨name, file⟩, isLoaded, rfl⟩
    rcases of_mem_loadedSince isLoaded with ⟨index, _, _, _, said⟩
    rw [Location.ofText_text (named_of_fileOf said)]

end

/-! ## Builds with a cache -/

/-- How a build with a cache may end, and what it leaves behind. -/
inductive CachedBuild (cached : Cached) (options : BuildOptions) :
    Outcome Cached BuildFailure BuildResult → Prop
  /-- The style module is not there, or no file. -/
  | refused {failure : BuildFailure}
      (compiled : cached.project.compile options = (cached.project, .error failure)) :
      CachedBuild cached options (cached, .error failure)
  | found {result : BuildResult} (isFile : cached.project.files.isFile options.input.resolve = true)
      (hit : cached.cache.find? options.input.resolve = some result) :
      CachedBuild cached options (cached, .ok result)
  | failed {project : Project} {failure : BuildFailure}
      (compiled : cached.project.compile options = (project, .error failure)) :
      CachedBuild cached options ({ cached with project }, .error failure)
  | built {project : Project} {result : BuildResult}
      (isFile : cached.project.files.isFile options.input.resolve = true)
      (executed : cached.project.execute options = (project, .ok result))
      (compiled : cached.project.compile options = (project, .ok result)) :
      CachedBuild cached options
        (⟨project, (cached.cache.put options.input.resolve result).1⟩, .ok result)

section

variable {cached : Cached} {options : BuildOptions}

theorem cachedBuild (limit : ∀ most, cached.cache.limit = some most → 0 ≤ most)
    (options : BuildOptions) : CachedBuild cached options (compileCached cached options) := by
  unfold compileCached
  dsimp only
  cases checked : checkModule cached.project.files options.input.resolve with
  | error failure => exact .refused (by rw [compile, checked])
  | ok done =>
      have isFile := isFile_of_checkModule checked
      dsimp only
      cases found : cached.cache.find? options.input.resolve with
      | some result => exact .found isFile found
      | none =>
          have compiled : cached.project.compile options = cached.project.execute options := by
            rw [compile, checked]
          dsimp only
          rcases executed : cached.project.execute options with ⟨project, failure | result⟩
          · exact .failed (compiled.trans executed)
          · dsimp only
            rw [BuildCache.put_ok limit]
            exact .built isFile executed (compiled.trans executed)

/-- A build without a result in its cache yields what a build without the cache yields. -/
theorem compileCached_miss (limit : ∀ most, cached.cache.limit = some most → 0 ≤ most)
    (missed : cached.cache.find? options.input.resolve = none) :
    (compileCached cached options).2 = (cached.project.compile options).2 := by
  rcases outcome : compileCached cached options with ⟨after, yielded⟩
  have ends := cachedBuild limit options
  rw [outcome] at ends
  cases ends with
  | refused compiled | failed compiled | built _ _ compiled => rw [compiled]
  | found _ hit =>
      rw [missed] at hit
      cases hit

end

end CssAuthoring.Project
