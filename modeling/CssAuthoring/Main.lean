import CssAuthoring.CommandLine.Run

/-!
# The program

Runs the command that the arguments ask for: brings the style module from disk into a project, lets
the library decide what comes of it, and writes that out.  Watching goes on until the program is
stopped.
-/

namespace CssAuthoring.CommandLine

/-- How the program is used. -/
def usage : String :=
  "usage: css-authoring [-v] COMMAND\n\n" ++
  "  tokenize (selector|at-rule) TEXT [--json]\n" ++
  "  normalize (selector|at-rule) TEXT\n" ++
  "  compile MODULE [-o FILE] [--include PATTERN]... [--exclude PATTERN]...\n" ++
  "  watch MODULE [-o FILE] [--interval SECONDS]\n"

/-- The target of a command that builds a style module. -/
def Command.target? : Command → Option Target
  | compile target _ _ => some target
  | watch target _ => some target
  | _ => none

/-- What stands on disk at a location. -/
def contentOnDisk (location : Location) : IO (Option Project.Content) := do
  let file := (← IO.currentDir) / String.ofList location.text
  if ← file.isDir then
    return some .directory
  else if ← file.pathExists then
    return some (.text (← IO.FS.readFile file).toList)
  else
    return none

/-- The project after what stands on disk at a location has been brought into it. -/
def bringIn (project : Project) (location : Location) : IO Project := do
  let content ← contentOnDisk location
  if content = project.files.content? location then return project
  let files := match content with
    | some content => project.files.put location content
    | none => project.files.remove location
  return { project with files }

/-- Writes the file that CSS text goes to out to disk, if the project has it as a text. -/
def writeOut (project : Project) (here : Location) (target : Target) : IO Unit := do
  let some path := target.output | return
  let location := Location.ofText (pathFrom here path)
  let some (.text css) := project.files.content? location | return
  let root ← IO.currentDir
  IO.FS.createDirAll (root / String.ofList location.parent.text)
  IO.FS.writeFile (root / String.ofList location.text) (String.ofList css)

/-- Writes a text to an output at once. -/
def send (stream : IO.FS.Stream) (text : Text) : IO Unit := do
  stream.putStr (String.ofList text)
  stream.flush

/-- Writes out what happened in a round of watching. -/
def tell (here : Location) (target : Target) (round : Project.Round) : IO Unit := do
  send (← IO.getStdout) (round.events.flatMap (eventOutput target))
  send (← IO.getStderr) (round.events.flatMap eventErrors)
  unless round.events.isEmpty do
    writeOut round.watcher.cached.project here target

/-- The milliseconds in a number of seconds; none if there is no such time. -/
def milliseconds : Numeric.Binary64 → Nat
  | .finite false mantissa exponent =>
    1000 * mantissa * Nat.pow 2 exponent.toNat / Nat.pow 2 (-exponent).toNat
  | _ => 0

/-- Goes on watching after a round, for as long as the watcher does. -/
partial def keepWatching (here : Location) (target : Target) (options : Project.WatchOptions)
    (pause : Nat) (round : Project.Round) : IO Unit := do
  tell here target round
  if round.goesOn then
    IO.sleep pause.toUInt32
    let cached := round.watcher.cached
    let project ← bringIn cached.project options.build.input.resolve
    let watcher := { round.watcher with cached := { cached with project } }
    keepWatching here target options pause (watcher.poll options)

/-- Writes out a report, and gives the exit code. -/
def finish (here : Location) (target : Option Target) (report : Report) : IO UInt32 := do
  send (← IO.getStdout) report.output
  send (← IO.getStderr) (report.errors.getD usage.toList)
  if let some target := target then
    writeOut report.project here target
  match report.exit with
  | .ok code => return code.toUInt32
  | .error crash =>
    send (← IO.getStderr) (messageLine crash.message)
    return 1

/-- Runs what the arguments of the program ask for. -/
def start (arguments : List Text) : IO UInt32 := do
  let here := Location.ofText (← IO.currentDir).toString.toList
  let request := Request.ofArguments arguments
  let target := match request with
    | .command command => command.target?
    | _ => none
  let empty : Project := ⟨.empty, .empty⟩
  let project ← match target with
    | some target => bringIn empty (Location.ofText (pathFrom here target.module))
    | none => pure empty
  match request with
  | .command (.watch target interval) =>
    let options := watchOptions here target
    let watcher := Project.Watcher.start ⟨project, .empty none⟩ options
    keepWatching here target options (milliseconds interval) (watcher.build options)
    return 0
  | .stop .informed =>
    IO.print usage
    return 0
  | _ => finish here target (run project here [] arguments)

end CssAuthoring.CommandLine

/-- Runs the command that the arguments ask for. -/
def main (arguments : List String) : IO UInt32 :=
  CssAuthoring.CommandLine.start (arguments.map String.toList)
