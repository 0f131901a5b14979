import CssAuthoring.Build.Cache
import CssAuthoring.Build.Options
import CssAuthoring.Project.Execute

/-!
# Building style modules

A build runs a style module and writes the stylesheets that its names refer to.  Its dependencies
are the style module and, among the modules that it loaded, those that come from files of the
project and that the options accept.  Modules that the build loaded from the project are evicted
again, whether it succeeds or fails, so that the next build reads them anew.  Where a module comes
from is what it says itself.  The modules of this library are never evicted, since style modules
have to share them, and are no dependencies.

A build may fail in ways that are not reported as failures of the style module: its file cannot even
be looked for, a module does not say in a text where it comes from, or the program is ended.

Main statements: `compile_missing`, a missing style module fails the build and changes nothing;
`compileCached_hit`, a result that is in the cache is taken from there.
-/

namespace CssAuthoring

/-- The files of a project, and what the builds so far have left in memory. -/
structure Project where
  files : Project.Files
  memory : Project.Memory
  deriving Repr

namespace Project

/-- Why a build failed. -/
inductive BuildFailure where
  | notFound (module : Location)
  | notFile (module : Location)
  | execution (module : Location) (cause : Fault)
  /-- The cache cannot hold any result, and has none left to drop. -/
  | overdrawn (module : Location)
  /-- The style module cannot be looked for, since a name on the way to it is too long. -/
  | tooLong (module : Location)
  /-- What a loaded module says of its file is no text; nothing was evicted. -/
  | notPath (module : Location) (type : Text)
  /-- The style module, or a module that it uses, has ended the program. -/
  | ended (module : Location) (message : Text)
  deriving DecidableEq, Repr

namespace BuildFailure

/-- The style module whose build failed. -/
def module : BuildFailure → Location
  | notFound module => module
  | notFile module => module
  | execution module _ => module
  | overdrawn module => module
  | tooLong module => module
  | notPath module _ => module
  | ended module _ => module

/-- The failure of a build whose style module did not run to its end. -/
def ofFault (module : Location) : Fault → BuildFailure
  | .exited message => ended module message
  | cause => execution module cause

/-- The message of a failure. -/
def message : BuildFailure → Text
  | notFound module => "Style module not found: " ++ module.text
  | notFile module => "Style module is not a file: " ++ module.text
  | execution module cause => "Error executing " ++ module.text ++ ": " ++ cause.message
  | overdrawn _ => []
  | tooLong module => "[Errno 36] File name too long: " ++ Text.quoted module.text
  | notPath _ type => "expected str, bytes or os.PathLike object, not " ++ type
  | ended _ message => message

/-- Whether a failure is an error in a selector or in a declaration. -/
def isAuthoring : BuildFailure → Bool
  | execution _ cause => cause.isAuthoring
  | _ => false

/-- Whether a failure is one of the style module, which those who wait for it are told of. -/
def isReported : BuildFailure → Bool
  | notFound _ => true
  | notFile _ => true
  | execution _ _ => true
  | _ => false

end BuildFailure

/-- Whether a text comes before another one in alphabetical order, or is the same. -/
def comesBefore (left right : Text) : Bool :=
  !decide (right < left)

/-- The modules that were loaded since, besides those of this library. -/
def freshModules (before after : Memory) : List (ModuleName × Nat) :=
  after.loaded.entries.filter fun entry => !before.loaded.contains entry.1 && !entry.1.isOwn

/-- The type of what a module that was loaded since says of its file, where that is no text. -/
def misfiled? (before after : Memory) : Option Text :=
  (freshModules before after).findSome? fun entry =>
    match after.fileOf entry.2 with
    | .error type => some type
    | .ok _ => none

/-- The modules that were loaded since, from files below a directory, with their files. -/
def loadedSince (before after : Memory) (root : Location) : List (ModuleName × Location) :=
  (freshModules before after).filterMap fun entry =>
    match after.fileOf entry.2 with
    | .ok (some file) => if file.isBelow root then some (entry.1, file) else none
    | _ => none

/-- The memory without the modules with given names. -/
def evictAll (memory : Memory) (names : List ModuleName) : Memory :=
  names.foldl Memory.evict memory

/-- The files that a style module was made from: itself, and the accepted others in order. -/
def dependencies (options : BuildOptions) (module : Location) (files : List Location) : List Text :=
  let others := (files.map Location.text).filter (· ≠ module.text)
  module.text :: (others.eraseDups.filter options.accepts).mergeSort comesBefore

/-- The CSS text of stylesheets: the texts of those with nodes, with blank lines between them. -/
def sheetsText (sheets : List Sheet) : Text :=
  let filled := sheets.filter fun sheet => !sheet.nodes.isEmpty
  List.intercalate ['\n', '\n'] (filled.map Sheet.build)

/-- Whether a style module can be run. -/
def checkModule (files : Files) (module : Location) : Except BuildFailure Unit :=
  if !files.contains module then
    if files.isTooLong module then .error (.tooLong module) else .error (.notFound module)
  else if !files.isFile module then .error (.notFile module)
  else .ok ()

/-- Runs a style module and writes its stylesheets. -/
def execute (project : Project) (options : BuildOptions) :
    Outcome Project BuildFailure BuildResult :=
  let module := options.input.resolve
  let around : Surroundings := ⟨project.files, module.parent⟩
  let (memory, ran) := runNameless around project.memory module
  match misfiled? project.memory memory with
  | some type => ({ project with memory }, .error (.notPath module type))
  | none =>
    let fresh := loadedSince project.memory memory options.directory.resolve
    let after := { project with memory := evictAll memory (fresh.map Prod.fst) }
    match ran with
    | .error cause => (after, .error (.ofFault module cause))
    | .ok frame =>
      (after, .ok ⟨sheetsText (memory.sheetsOf frame),
        dependencies options module (fresh.map Prod.snd)⟩)

/-- Builds a style module. -/
def compile (project : Project) (options : BuildOptions) :
    Outcome Project BuildFailure BuildResult :=
  match checkModule project.files options.input.resolve with
  | .error failure => (project, .error failure)
  | .ok () => project.execute options

/-- A project together with a cache of its builds. -/
structure Cached where
  project : Project
  cache : BuildCache
  deriving Repr

/-- Builds a style module unless its result is in the cache, and keeps the result there. -/
def compileCached (cached : Cached) (options : BuildOptions) :
    Outcome Cached BuildFailure BuildResult :=
  let module := options.input.resolve
  match checkModule cached.project.files module with
  | .error failure => (cached, .error failure)
  | .ok () =>
    match cached.cache.find? module with
    | some result => (cached, .ok result)
    | none =>
      match cached.project.execute options with
      | (project, .error failure) => ({ cached with project }, .error failure)
      | (project, .ok result) =>
        let (cache, kept) := cached.cache.put module result
        (⟨project, cache⟩,
          match kept with
          | .ok () => .ok result
          | .error _ => .error (.overdrawn module))

/-- A missing style module fails the build and changes nothing. -/
theorem compile_missing (project : Project) (options : BuildOptions)
    (missing : project.files.contains options.input.resolve = false)
    (short : project.files.isTooLong options.input.resolve = false) :
    project.compile options = (project, .error (.notFound options.input.resolve)) := by
  simp [compile, checkModule, missing, short]

/-- A result that is in the cache is taken from there. -/
theorem compileCached_hit (cached : Cached) (options : BuildOptions) (result : BuildResult)
    (file : cached.project.files.isFile options.input.resolve = true)
    (hit : cached.cache.find? options.input.resolve = some result) :
    compileCached cached options = (cached, .ok result) := by
  have present : cached.project.files.contains options.input.resolve = true := by
    simp only [Files.isFile, Bool.and_eq_true] at file
    exact file.1
  simp [compileCached, checkModule, present, file, hit]

end Project

end CssAuthoring
