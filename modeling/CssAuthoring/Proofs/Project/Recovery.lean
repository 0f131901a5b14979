import CssAuthoring.Proofs.Project.Gathering
import CssAuthoring.Proofs.Project.Watching

/-!
# Recovering from a failed build

After a failed build, the files of the last build that succeeded are watched on, or the style module
itself before any did.  When one of them changes that the failed build has executed, or tried to
execute, the next round builds again.  Other files that the failed build has executed are not
watched: where a module fails that no successful build has used, mending it is not noticed.

Main statements: `mem_dependencies_of_executed`, a build that succeeds has all accepted files of its
project that it executed among its dependencies, where their modules say that they were read from
them; `watch_recovers`, a watch builds again once a watched file of a failed build has changed;
`watch_misses`, and only then.
-/

namespace CssAuthoring.Project

/-! ## What a build executes -/

/-- The files that a build executes, or tries to: its style module and those of its modules. -/
def executed (project : Project) (options : BuildOptions) : List Location :=
  let ran := runNameless ⟨project.files, options.input.resolve.parent⟩ project.memory
    options.input.resolve
  options.input.resolve ::
    (ran.1.modules.drop (project.memory.modules.length + 1)).filterMap Module.origin

section

variable {project : Project} {options : BuildOptions} {file : Location}

theorem mem_executed_iff : file ∈ executed project options ↔
    file = options.input.resolve ∨ ∃ index module, project.memory.modules.length + 1 ≤ index ∧
      (runNameless ⟨project.files, options.input.resolve.parent⟩ project.memory
        options.input.resolve).1.module? index = some module ∧ module.origin = some file := by
  rw [executed, List.mem_cons, List.mem_filterMap]
  simp only [mem_drop_modules]
  refine or_congr_right ⟨?_, ?_⟩
  · rintro ⟨module, ⟨index, bound, isModule⟩, isOrigin⟩
    exact ⟨index, module, bound, isModule, isOrigin⟩
  · rintro ⟨index, module, bound, isModule, isOrigin⟩
    exact ⟨module, ⟨index, bound, isModule⟩, isOrigin⟩

/-- What a run gathers has numbers behind those of all former modules and of the one it runs as. -/
theorem gathers_nameless (sound : project.memory.Sound) (options : BuildOptions) :
    ∃ former : Memory, former.modules.length = project.memory.modules.length + 1 ∧
      former.loaded = project.memory.loaded ∧ former.Sound ∧
        Gathers project.files former (runNameless ⟨project.files, options.input.resolve.parent⟩
          project.memory options.input.resolve) := by
  let module := nameless project.files options.input.resolve
  refine ⟨(project.memory.addModule module).1, ?_, rfl, sound.addModule module,
    runNameless_gathers sound project.files _ _⟩
  simp [Memory.addModule]

/-- What a build executes is there, except perhaps for its style module. -/
theorem isFile_of_executed (sound : project.memory.Sound)
    (isOne : file ∈ executed project options) :
    file = options.input.resolve ∨ project.files.isFile file = true := by
  rcases gathers_nameless sound options with ⟨former, length, _, _, gathers⟩
  refine (mem_executed_iff.1 isOne).imp_right ?_
  rintro ⟨index, module, bound, isModule, isOrigin⟩
  exact gathers.sources index module file (length ▸ bound) isModule isOrigin

/--
A build that succeeds has every file that it executed among its dependencies, if it is one of its
project and accepted by its options, and the modules read from it are not of this library and say
where they are from.
-/
theorem mem_dependencies_of_executed (sound : project.memory.Sound) {result : BuildResult}
    (built : (project.execute options).2 = .ok result) (isOne : file ∈ executed project options)
    (isLocal : file.isBelow options.directory.resolve = true)
    (accepted : options.accepts file.text = true)
    (filed : ∀ index module, (runNameless ⟨project.files, options.input.resolve.parent⟩
        project.memory options.input.resolve).1.module? index = some module →
      module.origin = some file → project.memory.modules.length + 1 ≤ index →
        module.name.isOwn = false ∧ (runNameless ⟨project.files, options.input.resolve.parent⟩
          project.memory options.input.resolve).1.fileOf index = .ok (some file)) :
    file.text ∈ result.dependencies := by
  rcases gathers_nameless sound options with ⟨former, length, sameLoaded, soundFormer, gathers⟩
  have executes := mem_executed_iff.1 isOne
  rcases dependencies_of_executed built with ⟨memory, frame, ran, _, dependencies⟩
  rw [ran] at gathers executes filed
  rw [dependencies, mem_dependencies_iff]
  by_cases isInput : file.text = options.input.resolve.text
  · exact .inl isInput
  · refine .inr ⟨⟨file, ?_, rfl⟩, isInput, accepted⟩
    rcases executes with rfl | ⟨index, module, bound, isModule, isOrigin⟩
    · exact absurd rfl isInput
    · have found := gathers.loaded frame rfl index module (length ▸ bound) isModule
      have isNew : project.memory.loaded.contains module.name = false := by
        rw [← sameLoaded, OrderedTable.contains, Option.isSome_eq_false_iff,
          Option.isNone_iff_eq_none]
        cases loaded : former.loaded.find? module.name with
        | none => rfl
        | some other =>
            -- A module that was loaded before has a number that was there before.
            have same := gathers.keeps.loaded _ _ loaded
            rw [found] at same
            cases same
            rcases soundFormer _ _ loaded with ⟨old, isOld, _⟩
            have inside := (List.getElem?_eq_some_iff.1 isOld).1
            exact absurd (length ▸ bound) (Nat.not_le_of_lt inside)
      rcases filed index module isModule isOrigin bound with ⟨notOwn, said⟩
      exact List.mem_map_of_mem (mem_loadedSince isNew notOwn found said isLocal)

end

/-! ## Rounds after a failed build -/

/-- The project as the last of some rounds finds it, or before the first build if there are none. -/
def projectAt (cached : Cached) (options : WatchOptions) (rounds : List (List Files.Edit)) :
    Project :=
  match rounds.getLast? with
  | none => cached.project
  | some edits => ((watch cached options rounds.dropLast).watcher.edited edits).cached.project

section

variable {cached : Cached} {options : WatchOptions} {rounds idle : List (List Files.Edit)}
  {edits : List Files.Edit}

theorem projectAt_concat (cached : Cached) (options : WatchOptions)
    (rounds : List (List Files.Edit)) (edits : List Files.Edit) :
    projectAt cached options (rounds ++ [edits]) =
      ((watch cached options rounds).watcher.edited edits).cached.project := by
  simp [projectAt]

/-- A watch goes on as long as the last that happened did not end it. -/
theorem goesOn_of_last {event : Event}
    (isLast : (watch cached options rounds).events.getLast? = some event)
    (notEnding : event.ending? = none) : (watch cached options rounds).goesOn = true := by
  cases ends : (watch cached options rounds).goesOn with
  | true => rfl
  | false =>
      rcases ended_of_watch ends with ⟨failure, _, isEnding⟩
      rw [isLast, Option.some_inj] at isEnding
      rw [isEnding] at notEnding
      cases notEnding

/-- The project that a round finds is sound, and has the files after all edits so far. -/
theorem Watchable.finds (watchable : Watchable cached options rounds)
    (goesOn : (watch cached options rounds).goesOn = true) :
    (projectAt cached options rounds).memory.Sound ∧
      (projectAt cached options rounds).files = filesAfter cached.project.files rounds ∧
        (projectAt cached options rounds).files.Named := by
  cases rounds using List.reverseRecOn with
  | nil => exact ⟨watchable.sound, rfl, watchable.named⟩
  | append_singleton rounds edits =>
      have attends := watchable.front.attends (goesOn_of_concat goesOn)
      have ready := attends.ready.edited (watchable.edits edits (by simp))
      rw [projectAt_concat]
      exact ⟨ready.sound, attends.files_edited, ready.named⟩

/-- A failure that is told last is the one of building the project as it was found. -/
theorem compile_projectAt (watchable : Watchable cached options rounds)
    {failure : BuildFailure}
    (failed : (watch cached options rounds).events.getLast? = some (.failed failure)) :
    ((projectAt cached options rounds).compile options.build).2 = .error failure := by
  cases rounds using List.reverseRecOn with
  | nil =>
      have events := watchable.first.2.2
      rw [events, List.getLast?_singleton, Option.some_inj] at failed
      have ends := cachedBuild watchable.filled.holds.limit options.build
      have isFailure := eq_of_told failed
      generalize compileCached cached options.build = outcome at ends isFailure
      cases ends with
      | refused compiled | failed compiled =>
          cases isFailure
          exact congrArg Prod.snd compiled
      | found | built => cases isFailure
  | append_singleton rounds edits =>
      have answers := watchable.answers (goesOn_of_concat (goesOn_of_last failed rfl))
      rw [projectAt_concat]
      by_cases due : IsDue options.build cached.project.files (rounds ++ [edits])
          (watch cached options rounds).events
      · have isLast (events : List Event) (event : Event) :
            (events ++ [.slept, event]).getLast? = some event := by simp
        rw [(answers.built due).2.2.2, isLast, Option.some_inj] at failed
        exact eq_of_told failed
      · rw [answers.rested due] at failed
        simp at failed

/-- What can be told from events does not change while the watcher sleeps. -/
theorem told_replicate (options : BuildOptions) (events : List Event) (count : Nat) :
    filesToWatch options (events ++ List.replicate count .slept) = filesToWatch options events ∧
      roundsBuilt (events ++ List.replicate count .slept) = roundsBuilt events := by
  induction count with
  | zero => simp
  | succ count hypothesis =>
      rw [List.replicate_succ', ← List.append_assoc]
      refine ⟨?_, (roundsBuilt_slept _).trans hypothesis.2⟩
      rw [← hypothesis.1, filesToWatch, List.foldl_append]
      rfl

/-- Where a failure is told last, the last attempt to build was in the last round. -/
theorem roundsBuilt_failed {events : List Event} {failure : BuildFailure}
    (failed : events.getLast? = some (.failed failure)) :
    roundsBuilt events = events.count .slept := by
  rcases List.getLast?_eq_some_iff.1 failed with ⟨former, rfl⟩
  simp [roundsBuilt]

/--
After a failed build, as long as none follows, a round in which a file has changed attempts to build
again, if the failed build executed the file and it is the style module or one of those that the
last successful build depends on.
-/
theorem watch_recovers (watchable : Watchable cached options (rounds ++ idle ++ [edits]))
    (isNamed : options.build.input.resolve.Named) {failure : BuildFailure}
    (failed : (watch cached options rounds).events.getLast? = some (.failed failure))
    (quietly : (watch cached options (rounds ++ idle)).events =
      (watch cached options rounds).events ++ List.replicate idle.length .slept)
    {file : Location} (isOne : file ∈ executed (projectAt cached options rounds) options.build)
    (isKnown : file = options.build.input.resolve ∨
      file.text ∈ filesToWatch options.build (watch cached options rounds).events)
    (changed : (filesAfter cached.project.files (rounds ++ idle ++ [edits])).stamp? file ≠
      (projectAt cached options rounds).files.stamp? file) :
    ((projectAt cached options rounds).compile options.build).2 = .error failure ∧
      ∃ outcome, (watch cached options (rounds ++ idle ++ [edits])).events =
        (watch cached options (rounds ++ idle)).events ++ [.slept, told outcome] := by
  have watchableRounds := watchable.front.front
  have goesOn := goesOn_of_last failed rfl
  have attends := watchableRounds.attends goesOn
  rcases watchableRounds.finds goesOn with ⟨sound, files, named⟩
  refine ⟨compile_projectAt watchableRounds failed, ?_⟩
  -- A file that was executed is where its text leads.
  have isThere : Location.ofText file.text = file := by
    rcases isFile_of_executed sound isOne with rfl | isFile
    · exact Location.ofText_text isNamed
    · exact Location.ofText_text (Files.named_of_isFile named isFile)
  have isWatched : file.text ∈ filesToWatch options.build (watch cached options rounds).events := by
    rcases isKnown with rfl | isDependency
    · rw [← attends.watched]
      exact attends.ready.input
    · exact isDependency
  rcases told_replicate options.build (watch cached options rounds).events idle.length with
    ⟨sameFiles, sameRounds⟩
  have due : IsDue options.build cached.project.files (rounds ++ idle ++ [edits])
      (watch cached options (rounds ++ idle)).events := by
    refine ⟨file.text, by rwa [quietly, sameFiles], ?_⟩
    have front : (rounds ++ idle ++ [edits]).take rounds.length = rounds := by
      rw [List.append_assoc, List.take_left]
    rw [quietly, sameRounds, roundsBuilt_failed failed, attends.slept, front, isThere, ← files]
    exact changed
  -- While the watcher sleeps, nothing happens that ends the watch.
  have isLast : (watch cached options (rounds ++ idle)).events.getLast? = some (.failed failure) ∨
      (watch cached options (rounds ++ idle)).events.getLast? = some .slept := by
    rw [quietly, List.getLast?_append, List.getLast?_replicate, failed]
    split <;> simp
  have goesOnIdle : (watch cached options (rounds ++ idle)).goesOn = true :=
    isLast.elim (goesOn_of_last · rfl) (goesOn_of_last · rfl)
  exact ⟨_, ((watchable.answers goesOnIdle).built due).2.2.2⟩

/-! ### A module that is broken and mended -/

/-- How `style.py` is watched with the usual options. -/
def usualWatch : WatchOptions :=
  ⟨.ofTexts "/style.py" none none none, true, fun _ project => project⟩

theorem quiet_usualWatch : usualWatch.Quiet :=
  ⟨rfl, fun _ _ => rfl, fun _ _ sound => sound⟩

/-- Writes a module that fails. -/
def breaks : List Files.Edit := [.write ⟨["module.py"]⟩ [.fail "broken"]]

/-- Writes a module that does nothing. -/
def mends : List Files.Edit := [.write ⟨["module.py"]⟩ []]

/--
A module that a successful build has used is broken in one round, and mended two rounds later.
-/
theorem watch_recovers_mended :
    let cached := styleProject (.useModule ["module"]) ⟨["module.py"]⟩
    let failure : BuildFailure := .execution ⟨["style.py"]⟩ (.raised "broken")
    let files := filesAfter cached.project.files [breaks, [], mends]
    Watchable cached usualWatch ([breaks] ++ [[]] ++ [mends]) ∧
      (watch cached usualWatch [breaks]).events.getLast? = some (.failed failure) ∧
        (⟨["module.py"]⟩ : Location) ∈
            executed (projectAt cached usualWatch [breaks]) usualWatch.build ∧
          files.stamp? ⟨["module.py"]⟩ ≠
              (projectAt cached usualWatch [breaks]).files.stamp? ⟨["module.py"]⟩ ∧
            ((projectAt cached usualWatch [breaks]).compile usualWatch.build).2 = .error failure ∧
              ∃ outcome, (watch cached usualWatch ([breaks] ++ [[]] ++ [mends])).events =
                (watch cached usualWatch ([breaks] ++ [[]])).events ++ [.slept, told outcome] := by
  intro cached failure files
  have watchable : Watchable cached usualWatch ([breaks] ++ [[]] ++ [mends]) :=
    ⟨quiet_usualWatch, .empty nofun, sound_empty, by decide, by decide⟩
  have failed : (watch cached usualWatch [breaks]).events.getLast? = some (.failed failure) := by
    decide +kernel
  have quietly : (watch cached usualWatch ([breaks] ++ [[]])).events =
      (watch cached usualWatch [breaks]).events ++
        List.replicate ([[]] : List (List Files.Edit)).length .slept := by
    decide +kernel
  have isOne : (⟨["module.py"]⟩ : Location) ∈
      executed (projectAt cached usualWatch [breaks]) usualWatch.build := by
    decide +kernel
  have isKnown : (⟨["module.py"]⟩ : Location).text ∈
      filesToWatch usualWatch.build (watch cached usualWatch [breaks]).events := by
    decide +kernel
  have changed : files.stamp? ⟨["module.py"]⟩ ≠
      (projectAt cached usualWatch [breaks]).files.stamp? ⟨["module.py"]⟩ := by
    decide +kernel
  exact ⟨watchable, failed, isOne, changed,
    watch_recovers watchable (by decide) failed quietly isOne (.inr isKnown) changed⟩

/-- A module that fails in the first build is mended, and nothing is built. -/
theorem watch_misses :
    let cached : Cached := ⟨⟨(Files.empty.put ⟨["style.py"]⟩ (.script [.useModule ["module"]])).put
      ⟨["module.py"]⟩ (.script [.fail "broken"]), .empty⟩, .empty none⟩
    let failure : BuildFailure := .execution ⟨["style.py"]⟩ (.raised "broken")
    let files := filesAfter cached.project.files [mends]
    Watchable cached usualWatch [mends] ∧
      (watch cached usualWatch []).events.getLast? = some (.failed failure) ∧
        (⟨["module.py"]⟩ : Location) ∈ executed (projectAt cached usualWatch []) usualWatch.build ∧
          files.stamp? ⟨["module.py"]⟩ ≠
              (projectAt cached usualWatch []).files.stamp? ⟨["module.py"]⟩ ∧
            (watch cached usualWatch [mends]).events =
                (watch cached usualWatch []).events ++ [.slept] ∧
              (compile ⟨files, .empty⟩ usualWatch.build).2.isOk = true := by
  intro cached failure files
  have watchable : Watchable cached usualWatch [mends] :=
    ⟨quiet_usualWatch, .empty nofun, sound_empty, by decide, by decide⟩
  exact ⟨watchable, by decide +kernel, by decide +kernel, by decide +kernel, by decide +kernel,
    by decide +kernel⟩

end

end CssAuthoring.Project
