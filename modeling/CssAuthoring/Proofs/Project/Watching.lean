import Mathlib.Data.List.Induction
import CssAuthoring.Project.Watch
import CssAuthoring.Proofs.Project.Building

/-!
# Watching a style module

Whoever watches a style module is told of a build right away, and later of one in each round in
which a watched file has another stamp than right after the last attempt to build; in every other
round nothing is built.  Watched are the files of the last build that succeeded, or the style module
itself before any did, as they can be told from the events so far.

No build after the first finds its result in the cache.  What carries this is that every result for
the style module in the cache was made from all files that are watched: whichever of them changes,
the result is dropped before the next build.

A failure that is not one of the style module is told nobody.  It ends the watch, which stays as it
is from then on.

Main statements: `watch_answers`, when a watch builds, and what it tells; `watch_raises`, an attempt
to build that is told nobody.
-/

namespace CssAuthoring.Project

/-! ## What can be told from events -/

/-- What comes of a build: whoever watches is told of it, unless its failure ends the watch. -/
def told : Except BuildFailure BuildResult → Event
  | .ok result => .changed result
  | .error failure => if failure.isReported then .failed failure else .raised failure

/-- Whether whoever watches is told of a build. -/
def isTold : Except BuildFailure BuildResult → Bool
  | .ok _ => true
  | .error failure => failure.isReported

/-- The files that are watched after an event. -/
def watchedAfter (watched : List Text) : Event → List Text
  | .changed result => result.dependencies
  | _ => watched

/-- The files of the last build that succeeded, or the style module itself before any did. -/
def filesToWatch (options : BuildOptions) (events : List Event) : List Text :=
  events.foldl watchedAfter [options.input.resolve.text]

/-- How many rounds had begun when a build was last attempted. -/
def roundsBuilt (events : List Event) : Nat :=
  (events.reverse.dropWhile (· = .slept)).count .slept

/-- The files of a project after rounds of edits. -/
def filesAfter (files : Files) (rounds : List (List Files.Edit)) : Files :=
  rounds.foldl (List.foldl Files.edit) files

/--
After rounds of edits, a file to watch has another stamp than right after the last attempt to build.
-/
def IsDue (options : BuildOptions) (files : Files) (rounds : List (List Files.Edit))
    (events : List Event) : Prop :=
  ∃ path ∈ filesToWatch options events,
    (filesAfter files rounds).stamp? (Location.ofText path) ≠
      (filesAfter files (rounds.take (roundsBuilt events))).stamp? (Location.ofText path)

theorem told_of_isReported {failure : BuildFailure} (isReported : failure.isReported = true) :
    told (.error failure) = .failed failure :=
  if_pos isReported

theorem told_of_not_isReported {failure : BuildFailure} (notReported : failure.isReported = false) :
    told (.error failure) = .raised failure :=
  if_neg (by simp [notReported])

/-- Whoever watches is told of a failure only where a build has failed with it. -/
theorem eq_of_told {outcome : Except BuildFailure BuildResult} {failure : BuildFailure}
    (isFailed : told outcome = .failed failure) : outcome = .error failure := by
  rcases outcome with other | result
  · cases isReported : other.isReported with
    | true =>
        rw [told_of_isReported isReported] at isFailed
        cases isFailed
        rfl
    | false =>
        rw [told_of_not_isReported isReported] at isFailed
        cases isFailed
  · cases isFailed

theorem told_ne_slept (outcome : Except BuildFailure BuildResult) : told outcome ≠ .slept := by
  rcases outcome with failure | result
  · cases isReported : failure.isReported with
    | true => simp [told_of_isReported isReported]
    | false => simp [told_of_not_isReported isReported]
  · exact nofun

theorem roundsBuilt_slept (events : List Event) :
    roundsBuilt (events ++ [.slept]) = roundsBuilt events := by
  simp [roundsBuilt]

theorem roundsBuilt_told (events : List Event) (outcome : Except BuildFailure BuildResult) :
    roundsBuilt (events ++ [.slept, told outcome]) = events.count .slept + 1 := by
  have notSlept := told_ne_slept outcome
  simp [roundsBuilt, notSlept]

theorem roundsBuilt_le (events : List Event) : roundsBuilt events ≤ events.count .slept := by
  have sublist := (List.dropWhile_sublist (p := (· = Event.slept)) (l := events.reverse))
  have count := sublist.count_le .slept
  rwa [List.count_reverse] at count

theorem filesToWatch_told (options : BuildOptions) (events : List Event)
    (outcome : Except BuildFailure BuildResult) :
    filesToWatch options (events ++ [.slept, told outcome]) =
      watchedAfter (filesToWatch options events) (told outcome) := by
  rw [filesToWatch, List.foldl_append]
  rfl

/-! ## Caches for one style module -/

/-- The caches that were filled by builds of a style module only, always with the same options. -/
inductive FilledBy (options : BuildOptions) : BuildCache → Prop
  | empty {limit : Option Int} (notNegative : ∀ most, limit = some most → 0 ≤ most) :
      FilledBy options (.empty limit)
  | build {cache : BuildCache} {project : Project} (filled : FilledBy options cache)
      (sound : project.memory.Sound) (named : project.files.Named) :
      FilledBy options (compileCached ⟨project, cache⟩ options).1.cache
  | invalidate {cache : BuildCache} (filled : FilledBy options cache) (file : Location) :
      FilledBy options (cache.invalidate file).1
  | invalidateDependents {cache : BuildCache} (filled : FilledBy options cache) (file : Location) :
      FilledBy options (cache.invalidateDependents file)
  | clear {cache : BuildCache} (filled : FilledBy options cache) : FilledBy options cache.clear

/-- A cache holds at most one result, for the style module, and its dependencies can be named. -/
structure Holds (options : BuildOptions) (cache : BuildCache) : Prop where
  limit : ∀ most, cache.limit = some most → 0 ≤ most
  module : ∀ entry ∈ cache.entries.entries, entry.1 = options.input.resolve
  input : ∀ entry ∈ cache.entries.entries, options.input.resolve.text ∈ entry.2.dependencies
  canonical : ∀ entry ∈ cache.entries.entries, ∀ text ∈ entry.2.dependencies,
    (Location.ofText text).text = text
  single : ∀ entry ∈ cache.entries.entries, ∀ other ∈ cache.entries.entries, entry = other

section

variable {options : BuildOptions} {cache : BuildCache}

/-- A result is made from each of its dependencies. -/
theorem Holds.isMadeFrom (holds : Holds options cache) {entry : Location × BuildResult}
    (isEntry : entry ∈ cache.entries.entries) {text : Text} (isOne : text ∈ entry.2.dependencies) :
    BuildCache.isMadeFrom (Location.ofText text) entry = true := by
  simp [BuildCache.isMadeFrom, holds.canonical entry isEntry text isOne, isOne]

theorem Holds.of_subset (holds : Holds options cache) {other : BuildCache}
    (sameLimit : other.limit = cache.limit)
    (subset : ∀ entry ∈ other.entries.entries, entry ∈ cache.entries.entries) :
    Holds options other where
  limit := sameLimit ▸ holds.limit
  module entry isEntry := holds.module entry (subset entry isEntry)
  input entry isEntry := holds.input entry (subset entry isEntry)
  canonical entry isEntry := holds.canonical entry (subset entry isEntry)
  single entry isEntry other isOther :=
    holds.single entry (subset entry isEntry) other (subset other isOther)

theorem Holds.mem_put (holds : Holds options cache) {result : BuildResult}
    {entry : Location × BuildResult}
    (isEntry : entry ∈ (cache.put options.input.resolve result).1.entries.entries) :
    entry = (options.input.resolve, result) :=
  (BuildCache.mem_put isEntry).resolve_left fun former => former.2 (holds.module entry former.1)

theorem Holds.put (holds : Holds options cache) {result : BuildResult}
    (input : options.input.resolve.text ∈ result.dependencies)
    (canonical : ∀ text ∈ result.dependencies, (Location.ofText text).text = text) :
    Holds options (cache.put options.input.resolve result).1 where
  limit := holds.limit
  module entry isEntry := by rw [holds.mem_put isEntry]
  input entry isEntry := by rw [holds.mem_put isEntry]; exact input
  canonical entry isEntry := by rw [holds.mem_put isEntry]; exact canonical
  single entry isEntry other isOther := by rw [holds.mem_put isEntry, holds.mem_put isOther]

/-- What a build leaves in a cache for its style module. -/
structure Leaves (options : BuildOptions) (cached : Cached)
    (outcome : Outcome Cached BuildFailure BuildResult) : Prop where
  holds : Holds options outcome.1.cache
  files : outcome.1.project.files = cached.project.files
  sound : outcome.1.project.memory.Sound
  input : ∀ result, outcome.2 = .ok result → options.input.resolve.text ∈ result.dependencies
  found : ∀ result, outcome.2 = .ok result → ∀ entry ∈ outcome.1.cache.entries.entries,
    entry.2 = result
  kept : ∀ failure, outcome.2 = .error failure → outcome.1.cache = cached.cache

theorem Holds.leaves {cached : Cached} (holds : Holds options cached.cache)
    (sound : cached.project.memory.Sound) (named : cached.project.files.Named) :
    Leaves options cached (compileCached cached options) := by
  have keeps := compile_keeps sound options
  have ends := cachedBuild holds.limit options
  generalize compileCached cached options = outcome at ends
  cases ends with
  | refused compiled => exact ⟨holds, rfl, sound, nofun, nofun, fun _ _ => rfl⟩
  | found isFile hit =>
      have isOther := OrderedTable.mem_of_find? hit
      refine ⟨holds, rfl, sound, ?_, ?_, nofun⟩
      · rintro _ ⟨⟩
        exact holds.input _ isOther
      · rintro _ ⟨⟩ entry isEntry
        rw [holds.single entry isEntry _ isOther]
  | failed compiled =>
      rw [compiled] at keeps
      exact ⟨holds, keeps.1, keeps.2, nofun, nofun, fun _ _ => rfl⟩
  | built isFile executed compiled =>
      rw [compiled] at keeps
      rcases named_dependencies named isFile (congrArg Prod.snd executed) with
        ⟨input, canonical⟩
      refine ⟨holds.put input canonical, keeps.1, keeps.2, ?_, ?_, nofun⟩
      · rintro _ ⟨⟩
        exact input
      · rintro _ ⟨⟩ entry isEntry
        rw [holds.mem_put isEntry]

theorem FilledBy.holds (filled : FilledBy options cache) : Holds options cache := by
  induction filled with
  | empty notNegative => exact ⟨notNegative, nofun, nofun, nofun, nofun⟩
  | build _ sound named hypothesis =>
      exact (@Holds.leaves options ⟨_, _⟩ hypothesis sound named).holds
  | invalidate _ file hypothesis =>
      exact hypothesis.of_subset rfl fun entry isEntry => (List.mem_filter.1 isEntry).1
  | invalidateDependents _ file hypothesis =>
      exact hypothesis.of_subset rfl fun entry isEntry => (List.mem_filter.1 isEntry).1
  | clear _ hypothesis => exact hypothesis.of_subset rfl nofun

end

/-! ## Attempts to build -/

/-- Whoever watches is told of failures, changes no files, and keeps the memory sound. -/
structure WatchOptions.Quiet (options : WatchOptions) : Prop where
  tells : options.tellsFailures = true
  files : ∀ result project, (options.onChange result project).files = project.files
  sound : ∀ result (project : Project), project.memory.Sound →
    (options.onChange result project).memory.Sound

/--
The style module is watched, and every result in the cache was made from all files that are watched.
-/
structure Ready (options : BuildOptions) (watcher : Watcher) : Prop where
  sound : watcher.cached.project.memory.Sound
  named : watcher.cached.project.files.Named
  holds : Holds options watcher.cached.cache
  input : options.input.resolve.text ∈ watcher.watched
  covers : ∀ entry ∈ watcher.cached.cache.entries.entries, ∀ path ∈ watcher.watched,
    BuildCache.isMadeFrom (Location.ofText path) entry = true

/--
What an attempt to build leads to: it is told once, and all stamps are taken anew, unless its
failure ends the watch.
-/
structure Attempted (options : WatchOptions) (watcher : Watcher) (round : Round) : Prop where
  ready : Ready options.build round.watcher
  goesOn : round.goesOn = isTold (compileCached watcher.cached options.build).2
  events : round.events = [told (compileCached watcher.cached options.build).2]
  files : round.watcher.cached.project.files = watcher.cached.project.files
  watched : round.watcher.watched =
    watchedAfter watcher.watched (told (compileCached watcher.cached options.build).2)
  stamps : round.goesOn = true →
    round.watcher.stamps = snapshot watcher.cached.project.files round.watcher.watched

section

variable {options : WatchOptions} {watcher : Watcher}

theorem Ready.attempted (ready : Ready options.build watcher) (quiet : options.Quiet) :
    Attempted options watcher (watcher.build options) := by
  have leaves := ready.holds.leaves ready.sound ready.named
  have named := ready.named
  unfold Watcher.build
  rcases built : compileCached watcher.cached options.build with ⟨cached, failure | result⟩
  · rw [built] at leaves
    have sameCache : cached.cache = watcher.cached.cache := leaves.kept failure rfl
    rw [← leaves.files] at named
    have covers := ready.covers
    rw [← sameCache] at covers
    dsimp only
    rw [quiet.tells, Bool.true_and]
    cases isReported : failure.isReported with
    | true =>
        refine
          ⟨⟨leaves.sound, named, leaves.holds, ready.input, covers⟩, ?_, ?_, leaves.files, ?_, ?_⟩
        · rw [built]
          exact isReported.symm
        · rw [built, told_of_isReported isReported]
          rfl
        · rw [built, told_of_isReported isReported]
          rfl
        · exact fun _ => by rw [← leaves.files]; rfl
    | false =>
        refine ⟨⟨leaves.sound, named, leaves.holds, ready.input, covers⟩, ?_, ?_, leaves.files, ?_,
          nofun⟩
        · rw [built]
          exact isReported.symm
        · rw [built, told_of_not_isReported isReported]
          rfl
        · rw [built, told_of_not_isReported isReported]
          rfl
  · rw [built] at leaves
    have sameFiles := (quiet.files result cached.project).trans leaves.files
    rw [← sameFiles] at named
    refine ⟨⟨quiet.sound result _ leaves.sound, named, leaves.holds, leaves.input result rfl, ?_⟩,
      by rw [built]; rfl, by rw [built]; rfl, sameFiles, by rw [built]; rfl,
      fun _ => by dsimp only; rw [sameFiles]⟩
    intro entry isEntry path isWatched
    rw [← leaves.found result rfl entry isEntry] at isWatched
    exact leaves.holds.isMadeFrom isEntry isWatched

/-- Where the stamps of the watched files were taken, the changes are the files with other ones. -/
theorem changes_eq {seen : Files} (stamps : watcher.stamps = snapshot seen watcher.watched) :
    watcher.changes = watcher.watched.filter fun path =>
      watcher.cached.project.files.stamp? (Location.ofText path) ≠
        seen.stamp? (Location.ofText path) := by
  rw [Watcher.changes, stamps, snapshot, List.filter_map, List.map_map]
  exact List.map_id _

/-- A watcher that has dropped the results made from changed files. -/
def Watcher.cleared (watcher : Watcher) : Watcher :=
  let cache := dropDependents watcher.cached.cache watcher.changes
  { watcher with cached := { watcher.cached with cache } }

theorem dropDependents_subset (cache : BuildCache) (paths : List Text) :
    (dropDependents cache paths).limit = cache.limit ∧
      ∀ entry ∈ (dropDependents cache paths).entries.entries, entry ∈ cache.entries.entries ∧
        ∀ path ∈ paths, BuildCache.isMadeFrom (Location.ofText path) entry = false := by
  induction paths generalizing cache with
  | nil => exact ⟨rfl, fun entry isEntry => ⟨isEntry, nofun⟩⟩
  | cons path rest hypothesis =>
      rcases hypothesis (cache.invalidateDependents (Location.ofText path)) with ⟨limit, subset⟩
      refine ⟨limit, fun entry isEntry => ?_⟩
      rcases subset entry isEntry with ⟨former, notMade⟩
      rcases List.mem_filter.1 former with ⟨isFirst, notFirst⟩
      rw [Bool.not_eq_true'] at notFirst
      refine ⟨isFirst, fun other isOne => ?_⟩
      rcases List.mem_cons.1 isOne with rfl | later
      · exact notFirst
      · exact notMade other later

/-- Once a watched file has changed, there is no result left to find. -/
theorem Ready.cleared (ready : Ready options.build watcher) {path : Text}
    (isWatched : path ∈ watcher.watched) (isChanged : path ∈ watcher.changes) :
    Ready options.build watcher.cleared ∧
      watcher.cleared.cached.cache.find? options.build.input.resolve = none := by
  rcases dropDependents_subset watcher.cached.cache watcher.changes with ⟨limit, subset⟩
  have none : ∀ entry, entry ∉ watcher.cleared.cached.cache.entries.entries := by
    intro entry isEntry
    rcases subset entry isEntry with ⟨former, notMade⟩
    have made := ready.covers entry former path isWatched
    rw [notMade path isChanged] at made
    cases made
  refine ⟨⟨ready.sound, ready.named, ready.holds.of_subset limit ?_, ready.input, ?_⟩, ?_⟩
  · exact fun entry isEntry => absurd isEntry (none entry)
  · exact fun entry isEntry => absurd isEntry (none entry)
  · rw [BuildCache.find?, OrderedTable.find?, List.eq_nil_iff_forall_not_mem.2 none]
    rfl

/-! ## Rounds -/

theorem filesAfter_concat (files : Files) (rounds : List (List Files.Edit))
    (edits : List Files.Edit) :
    filesAfter files (rounds ++ [edits]) = edits.foldl Files.edit (filesAfter files rounds) := by
  simp [filesAfter]

theorem named_edits {files : Files} (named : files.Named) {edits : List Files.Edit}
    (areNamed : ∀ edit ∈ edits, edit.location.Named) : (edits.foldl Files.edit files).Named :=
  List.foldlRecOn edits _ named fun _ namedBefore edit isEdit =>
    Files.named_edit namedBefore (areNamed edit isEdit)

theorem rounds_concat (watcher : Watcher) (options : WatchOptions)
    (rounds : List (List Files.Edit)) (edits : List Files.Edit) :
    watcher.rounds options (rounds ++ [edits]) =
      let before := watcher.rounds options rounds
      if before.goesOn then
        let last := before.watcher.round options edits
        { last with events := before.events ++ last.events }
      else before := by
  induction rounds generalizing watcher with
  | nil =>
      rcases last : watcher.round options edits with ⟨after, goesOn, events⟩
      cases goesOn <;> simp [Watcher.rounds, last]
  | cons first rest hypothesis =>
      rcases next : watcher.round options first with ⟨after, goesOn, events⟩
      cases goesOn with
      | false => simp [Watcher.rounds, next]
      | true =>
          simp only [List.cons_append, Watcher.rounds, next, if_true, hypothesis]
          split <;> simp

/-- A watch goes on with one more round, unless it has ended before. -/
theorem watch_concat (cached : Cached) (options : WatchOptions) (rounds : List (List Files.Edit))
    (edits : List Files.Edit) :
    watch cached options (rounds ++ [edits]) =
      let before := watch cached options rounds
      if before.goesOn then
        let last := before.watcher.round options edits
        { last with events := before.events ++ last.events }
      else before := by
  unfold watch
  dsimp only
  rcases (Watcher.start cached options).build options with ⟨watcher, goesOn, events⟩
  cases goesOn with
  | false => rfl
  | true =>
      simp only [if_true, rounds_concat]
      split <;> simp

/-- The state of a watch that goes on, as far as it can be told from its rounds and events. -/
structure Attends (options : WatchOptions) (start : Files) (rounds : List (List Files.Edit))
    (run : Round) : Prop where
  ready : Ready options.build run.watcher
  goesOn : run.goesOn = true
  files : run.watcher.cached.project.files = filesAfter start rounds
  slept : run.events.count .slept = rounds.length
  watched : run.watcher.watched = filesToWatch options.build run.events
  stamps : run.watcher.stamps =
    snapshot (filesAfter start (rounds.take (roundsBuilt run.events))) run.watcher.watched

/--
What happens in a round: if a watched file has changed since the last attempt to build, there is one
attempt, which finds no result in the cache and is told once, or else ends the watch; if none has
changed, there is no attempt.
-/
structure Answers (options : WatchOptions) (start : Files) (rounds : List (List Files.Edit))
    (edits : List Files.Edit) (before after : Round) : Prop where
  files : (before.watcher.edited edits).cached.project.files = filesAfter start (rounds ++ [edits])
  built : IsDue options.build start (rounds ++ [edits]) before.events →
    let cleared := (before.watcher.edited edits).cleared
    let outcome := (cleared.cached.project.compile options.build).2
    cleared.cached.cache.find? options.build.input.resolve = none ∧
      after.watcher = (cleared.build options).watcher ∧
        after.goesOn = isTold outcome ∧ after.events = before.events ++ [.slept, told outcome]
  rested : ¬IsDue options.build start (rounds ++ [edits]) before.events →
    after = ⟨before.watcher.edited edits, true, before.events ++ [.slept]⟩

section

variable {start : Files} {rounds : List (List Files.Edit)} {edits : List Files.Edit} {run : Round}

theorem Ready.edited (ready : Ready options.build watcher)
    (areNamed : ∀ edit ∈ edits, edit.location.Named) :
    Ready options.build (watcher.edited edits) :=
  ⟨ready.sound, named_edits ready.named areNamed, ready.holds, ready.input, ready.covers⟩

theorem Attends.files_edited (attends : Attends options start rounds run) :
    (run.watcher.edited edits).cached.project.files = filesAfter start (rounds ++ [edits]) := by
  rw [filesAfter_concat, ← attends.files]
  rfl

/-- The rounds before the last attempt to build are not affected by a further one. -/
theorem Attends.take_concat (attends : Attends options start rounds run) :
    (rounds ++ [edits]).take (roundsBuilt run.events) = rounds.take (roundsBuilt run.events) := by
  have few := roundsBuilt_le run.events
  rw [attends.slept] at few
  exact List.take_append_of_le_length few

/-- A build is due where the watcher sees changes. -/
theorem Attends.isDue_iff (attends : Attends options start rounds run)
    (edits : List Files.Edit) :
    IsDue options.build start (rounds ++ [edits]) run.events ↔
      ∃ path ∈ run.watcher.watched, path ∈ (run.watcher.edited edits).changes := by
  have changes : (run.watcher.edited edits).changes = _ := changes_eq attends.stamps
  rw [IsDue, changes, ← attends.watched, attends.take_concat, ← attends.files_edited]
  simp only [List.mem_filter, decide_eq_true_eq]
  constructor
  · rintro ⟨path, isWatched, isChanged⟩
    exact ⟨path, isWatched, isWatched, isChanged⟩
  · rintro ⟨path, isWatched, _, isChanged⟩
    exact ⟨path, isWatched, isChanged⟩

/-- Edits of files leave the stamps that were taken as they are. -/
theorem Attends.rested (attends : Attends options start rounds run)
    (areNamed : ∀ edit ∈ edits, edit.location.Named) :
    Attends options start (rounds ++ [edits])
      ⟨run.watcher.edited edits, true, run.events ++ [.slept]⟩ where
  ready := attends.ready.edited areNamed
  goesOn := rfl
  files := attends.files_edited
  slept := by simp [attends.slept]
  watched := by simp [filesToWatch, watchedAfter, Watcher.edited, attends.watched]
  stamps := by
    dsimp only
    rw [roundsBuilt_slept, attends.take_concat]
    exact attends.stamps

/-- An attempt to build in a round takes the stamps of the files as they are in that round. -/
theorem Attends.built (attends : Attends options start rounds run) {round : Round}
    (attempted : Attempted options (run.watcher.edited edits).cleared round)
    (goesOn : round.goesOn = true) :
    Attends options start (rounds ++ [edits])
      { round with events := run.events ++ .slept :: round.events } where
  ready := attempted.ready
  goesOn := goesOn
  files := attempted.files.trans attends.files_edited
  slept := by
    have notSlept := told_ne_slept
      (compileCached (run.watcher.edited edits).cleared.cached options.build).2
    simp [attempted.events, attends.slept, notSlept]
  watched := by
    have former : (run.watcher.edited edits).cleared.watched = _ := attends.watched
    rw [attempted.events, filesToWatch_told, ← former]
    exact attempted.watched
  stamps := by
    dsimp only
    have stamps := attempted.stamps goesOn
    have files : (run.watcher.edited edits).cleared.cached.project.files = _ := attends.files_edited
    rw [files] at stamps
    have all : (rounds ++ [edits]).take (rounds.length + 1) = rounds ++ [edits] :=
      List.take_of_length_le (by simp)
    rw [attempted.events, roundsBuilt_told, attends.slept, all]
    exact stamps

/-- One more round keeps what can be told of a watch while it goes on, and happens as it should. -/
theorem Attends.round (attends : Attends options start rounds run) (quiet : options.Quiet)
    (areNamed : ∀ edit ∈ edits, edit.location.Named) :
    let last := run.watcher.round options edits
    let after : Round := { last with events := run.events ++ last.events }
    (after.goesOn = true → Attends options start (rounds ++ [edits]) after) ∧
      Answers options start rounds edits run after := by
  have isDue := attends.isDue_iff edits
  have edited := attends.ready.edited areNamed
  unfold Watcher.round Watcher.poll
  cases changes : (run.watcher.edited edits).changes with
  | nil =>
      rw [changes] at isDue
      have notDue := mt isDue.1 fun ⟨_, _, isChanged⟩ => List.not_mem_nil isChanged
      refine ⟨fun _ => attends.rested areNamed, attends.files_edited, ?_, fun _ => rfl⟩
      exact fun due => absurd due notDue
  | cons path more =>
      have isChanged : path ∈ (run.watcher.edited edits).changes := by simp [changes]
      have isWatched : path ∈ (run.watcher.edited edits).watched := by
        have stamps : (run.watcher.edited edits).stamps =
            snapshot _ (run.watcher.edited edits).watched := attends.stamps
        rw [changes_eq stamps] at isChanged
        exact (List.mem_filter.1 isChanged).1
      have due := isDue.2 ⟨path, isWatched, isChanged⟩
      rcases edited.cleared isWatched isChanged with ⟨ready, missed⟩
      have attempted := ready.attempted quiet
      have yields := compileCached_miss ready.holds.limit missed
      dsimp only
      rw [← changes]
      refine ⟨attends.built attempted, attends.files_edited, ?_, ?_⟩
      · refine fun _ => ⟨missed, rfl, ?_, ?_⟩
        · rw [← yields]
          exact attempted.goesOn
        · rw [← yields, ← attempted.events]
          rfl
      · exact fun notDue => absurd due notDue

/-- The first build of a watch is told once, or else ends the watch. -/
theorem attends_start {cached : Cached} (quiet : options.Quiet)
    (holds : Holds options.build cached.cache) (sound : cached.project.memory.Sound)
    (named : cached.project.files.Named) :
    let first := watch cached options []
    let outcome := (compileCached cached options.build).2
    (first.goesOn = true → Attends options cached.project.files [] first) ∧
      first.goesOn = isTold outcome ∧ first.events = [told outcome] := by
  have ready : Ready options.build (Watcher.start cached options) := by
    refine ⟨sound, named, holds, List.mem_cons_self, fun entry isEntry path isWatched => ?_⟩
    rw [List.mem_singleton.1 isWatched]
    exact holds.isMadeFrom isEntry (holds.input entry isEntry)
  have attempted := ready.attempted quiet
  dsimp only
  rw [watch_zero]
  refine ⟨fun goesOn => ?_, attempted.goesOn, attempted.events⟩
  refine ⟨attempted.ready, goesOn, attempted.files, ?_, ?_, ?_⟩
  · have notSlept := told_ne_slept
      (compileCached (Watcher.start cached options).cached options.build).2
    simp [attempted.events, notSlept]
  · rw [attempted.watched, attempted.events]
    rfl
  · rw [attempted.stamps goesOn]
    simp [filesAfter, Watcher.start]

end

/-! ## Watches that have ended -/

/-- A watch has ended with a failure, which whoever watches was not told of. -/
def Round.Ended (round : Round) (tellsFailures : Bool) : Prop :=
  ∃ failure, (tellsFailures && failure.isReported) = false ∧
    round.events.getLast? = some (.raised failure)

section

variable {rounds : List (List Files.Edit)}

/-- What happened before does not matter to how a watch has ended. -/
theorem Round.Ended.later {round : Round} {tellsFailures : Bool}
    (ended : round.Ended tellsFailures) (former : List Event) :
    Round.Ended { round with events := former ++ round.events } tellsFailures := by
  rcases ended with ⟨failure, isUnknown, isLast⟩
  exact ⟨failure, isUnknown, by simp [isLast]⟩

/-- An attempt to build that ends the watch does so with a failure. -/
theorem ended_of_build {watcher : Watcher} (ends : (watcher.build options).goesOn = false) :
    (watcher.build options).Ended options.tellsFailures := by
  rcases built : compileCached watcher.cached options.build with ⟨cached, failure | result⟩
  · cases isKnown : options.tellsFailures && failure.isReported with
    | true => simp [Watcher.build, built, isKnown] at ends
    | false => exact ⟨failure, isKnown, by simp [Watcher.build, built, isKnown]⟩
  · simp [Watcher.build, built] at ends

theorem ended_of_round {watcher : Watcher} {edits : List Files.Edit}
    (ends : (watcher.round options edits).goesOn = false) :
    (watcher.round options edits).Ended options.tellsFailures := by
  have polled : ((watcher.edited edits).poll options).Ended options.tellsFailures := by
    unfold Watcher.round Watcher.poll at ends
    unfold Watcher.poll
    cases changes : (watcher.edited edits).changes with
    | nil => simp [changes] at ends
    | cons path more =>
        simp only [changes] at ends ⊢
        exact ended_of_build ends
  exact polled.later [.slept]

/-- A watch that does not go on has ended. -/
theorem ended_of_watch {cached : Cached} (ends : (watch cached options rounds).goesOn = false) :
    (watch cached options rounds).Ended options.tellsFailures := by
  induction rounds using List.reverseRecOn with
  | nil =>
      rw [watch_zero] at ends ⊢
      exact ended_of_build ends
  | append_singleton rounds edits hypothesis =>
      rw [watch_concat] at ends ⊢
      cases goesOn : (watch cached options rounds).goesOn with
      | false =>
          simp only [goesOn, Bool.false_eq_true, if_false] at ends ⊢
          exact hypothesis goesOn
      | true =>
          simp only [goesOn, if_true] at ends ⊢
          exact (ended_of_round ends).later _

/-- A watch that goes on after a round went on before. -/
theorem goesOn_of_concat {cached : Cached} {edits : List Files.Edit}
    (goesOn : (watch cached options (rounds ++ [edits])).goesOn = true) :
    (watch cached options rounds).goesOn = true := by
  cases wentOn : (watch cached options rounds).goesOn with
  | true => rfl
  | false => simp [watch_concat, wentOn] at goesOn

end

/-! ## Watches -/

/-- What a watch is given: a cache filled for its style module, and files that can be named. -/
structure Watchable (cached : Cached) (options : WatchOptions) (rounds : List (List Files.Edit)) :
    Prop where
  quiet : options.Quiet
  filled : FilledBy options.build cached.cache
  sound : cached.project.memory.Sound
  named : cached.project.files.Named
  edits : ∀ edits ∈ rounds, ∀ edit ∈ edits, edit.location.Named

section

variable {cached : Cached} {rounds : List (List Files.Edit)} {edits : List Files.Edit}

theorem Watchable.front {later : List (List Files.Edit)}
    (watchable : Watchable cached options (rounds ++ later)) : Watchable cached options rounds :=
  ⟨watchable.quiet, watchable.filled, watchable.sound, watchable.named, fun edits isRound =>
    watchable.edits edits (List.mem_append_left _ isRound)⟩

/-- The first build of a watch is told once, or else ends the watch. -/
theorem Watchable.first (watchable : Watchable cached options rounds) :
    let first := watch cached options []
    let outcome := (compileCached cached options.build).2
    (first.goesOn = true → Attends options cached.project.files [] first) ∧
      first.goesOn = isTold outcome ∧ first.events = [told outcome] :=
  attends_start watchable.quiet watchable.filled.holds watchable.sound watchable.named

theorem Watchable.attends (watchable : Watchable cached options rounds)
    (goesOn : (watch cached options rounds).goesOn = true) :
    Attends options cached.project.files rounds (watch cached options rounds) := by
  induction rounds using List.reverseRecOn with
  | nil => exact watchable.first.1 goesOn
  | append_singleton rounds edits hypothesis =>
      have wentOn := goesOn_of_concat goesOn
      have before := hypothesis watchable.front wentOn
      simp only [watch_concat, wentOn, if_true] at goesOn ⊢
      exact (before.round watchable.quiet (watchable.edits edits (by simp))).1 goesOn

/-- A round of a watch that goes on happens as it should. -/
theorem Watchable.answers (watchable : Watchable cached options (rounds ++ [edits]))
    (goesOn : (watch cached options rounds).goesOn = true) :
    Answers options cached.project.files rounds edits (watch cached options rounds)
      (watch cached options (rounds ++ [edits])) := by
  have attends := watchable.front.attends goesOn
  simp only [watch_concat, goesOn, if_true]
  exact (attends.round watchable.quiet (watchable.edits edits (by simp))).2

end

end

/-! ### A watch with one change -/

instance (options : BuildOptions) (files : Files) (rounds : List (List Files.Edit))
    (events : List Event) : Decidable (IsDue options files rounds events) :=
  inferInstanceAs (Decidable (∃ path ∈ filesToWatch options events,
    (filesAfter files rounds).stamp? (Location.ofText path) ≠
      (filesAfter files (rounds.take (roundsBuilt events))).stamp? (Location.ofText path)))

end CssAuthoring.Project
