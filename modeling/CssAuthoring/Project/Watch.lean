import CssAuthoring.Project.Compile

/-!
# Watching style modules

A watcher builds a style module, and then looks from time to time whether a file that it watches has
changed: the files of the last build that succeeded, or the style module itself before any did.  If
so, it drops the results that were made from the changed files and builds again.  After a failed
build it goes on watching the same files.  A failure that is not one of the style module ends the
watch, and is told nobody.

Whoever watches is told of every build, and may change the project in return.

Main statements: `poll_unchanged`, nothing is built while no file changes; `watch_zero`, without
rounds there is one build.
-/

namespace CssAuthoring.Project

/-- What happens while a style module is watched. -/
inductive Event where
  | changed (result : BuildResult)
  | failed (failure : BuildFailure)
  | slept
  /-- A failure that ends the watch. -/
  | raised (failure : BuildFailure)
  deriving DecidableEq, Repr

/-- The failure that ends the watch, if the event is one. -/
def Event.ending? : Event → Option BuildFailure
  | raised failure => some failure
  | _ => none

/-- How a style module is watched. -/
structure WatchOptions where
  build : BuildOptions
  /-- Whether failures are only told, and do not end the watch. -/
  tellsFailures : Bool
  /-- What a result changes in the project. -/
  onChange : BuildResult → Project → Project

/-- A watcher: the project with its cache, the files it watches, and the stamps it has seen. -/
structure Watcher where
  cached : Cached
  watched : List Text
  stamps : List (Text × Option Nat)
  deriving Repr

/-- The stamps of files by their texts. -/
def snapshot (files : Files) (paths : List Text) : List (Text × Option Nat) :=
  paths.map fun path => (path, files.stamp? (Location.ofText path))

/-- A watcher after a round, whether it goes on, and what happened. -/
structure Round where
  watcher : Watcher
  goesOn : Bool
  events : List Event
  deriving Repr

/-- Builds the style module and takes the stamps of the files that are watched from then on. -/
def Watcher.build (watcher : Watcher) (options : WatchOptions) : Round :=
  match compileCached watcher.cached options.build with
  | (cached, .ok result) =>
    let project := options.onChange result cached.project
    ⟨⟨{ cached with project }, result.dependencies, snapshot project.files result.dependencies⟩,
      true, [.changed result]⟩
  | (cached, .error failure) =>
    if options.tellsFailures && failure.isReported then
      ⟨⟨cached, watcher.watched, snapshot cached.project.files watcher.watched⟩,
        true, [.failed failure]⟩
    else ⟨{ watcher with cached }, false, [.raised failure]⟩

/-- The files whose stamp is not the one that was seen. -/
def Watcher.changes (watcher : Watcher) : List Text :=
  (watcher.stamps.filter fun (path, seen) =>
    watcher.cached.project.files.stamp? (Location.ofText path) ≠ seen).map Prod.fst

/-- Drops the results that were made from files. -/
def dropDependents (cache : BuildCache) (paths : List Text) : BuildCache :=
  paths.foldl (fun cache path => cache.invalidateDependents (Location.ofText path)) cache

/-- Looks for changes, and builds again if there are any. -/
def Watcher.poll (watcher : Watcher) (options : WatchOptions) : Round :=
  match watcher.changes with
  | [] => ⟨watcher, true, []⟩
  | changed =>
    let cache := dropDependents watcher.cached.cache changed
    { watcher with cached := { watcher.cached with cache } }.build options

/-- The files of the project after edits. -/
def Watcher.edited (watcher : Watcher) (edits : List Files.Edit) : Watcher :=
  let project := watcher.cached.project
  let files := edits.foldl Files.edit project.files
  { watcher with cached := { watcher.cached with project := { project with files } } }

/-- One round: the watcher sleeps while files are edited, and then looks for changes. -/
def Watcher.round (watcher : Watcher) (options : WatchOptions) (edits : List Files.Edit) : Round :=
  let polled := (watcher.edited edits).poll options
  { polled with events := .slept :: polled.events }

/-- Rounds with the edits made in each, until one ends the watch. -/
def Watcher.rounds (watcher : Watcher) (options : WatchOptions) : List (List Files.Edit) → Round
  | [] => ⟨watcher, true, []⟩
  | edits :: rest =>
    let first := watcher.round options edits
    if first.goesOn then
      let later := first.watcher.rounds options rest
      { later with events := first.events ++ later.events }
    else first

/-- A watcher before its first build. -/
def Watcher.start (cached : Cached) (options : WatchOptions) : Watcher :=
  ⟨cached, [options.build.input.resolve.text], []⟩

/-- Watches a style module for as many rounds as there are lists of edits. -/
def watch (cached : Cached) (options : WatchOptions) (edits : List (List Files.Edit)) : Round :=
  let first := (Watcher.start cached options).build options
  if first.goesOn then
    let later := first.watcher.rounds options edits
    { later with events := first.events ++ later.events }
  else first

/-- Nothing is built while no file changes. -/
theorem poll_unchanged (watcher : Watcher) (options : WatchOptions)
    (unchanged : watcher.changes = []) : watcher.poll options = ⟨watcher, true, []⟩ := by
  simp [Watcher.poll, unchanged]

/-- Without rounds there is one build. -/
theorem watch_zero (cached : Cached) (options : WatchOptions) :
    watch cached options [] = (Watcher.start cached options).build options := by
  simp only [watch, Watcher.rounds, List.append_nil]
  cases built : (Watcher.start cached options).build options with
  | mk watcher goesOn events => cases goesOn <;> simp

end CssAuthoring.Project
