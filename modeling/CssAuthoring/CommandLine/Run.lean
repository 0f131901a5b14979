import CssAuthoring.CommandLine.Command
import CssAuthoring.CommandLine.Listing
import CssAuthoring.Project.Watch
import CssAuthoring.Token.Mixed

/-!
# Running commands

What a command writes, which exit code it ends with, and what it changes in a project.  A command
about tokens depends on its arguments only.  A watcher runs until it is interrupted in its sleep,
which is no failure.  A failure that is not one of the style module crashes the command, unless the
style module has ended the program.

Main statements: `run_nothing`, without a command the exit code is one; `run_normalize`, normalizing
writes the normalized selector.
-/

namespace CssAuthoring.CommandLine

/-- Why a command ends without an exit code. -/
inductive Crash where
  | numeral (failure : Numeric.NumeralTooLong)
  /-- A selector that was lost among the arguments. -/
  | lostSelector
  /-- A build that failed in a way that is not reported. -/
  | build (failure : Project.BuildFailure)
  deriving DecidableEq, Repr

/-- The message of a crash. -/
def Crash.message : Crash → Text
  | numeral failure => failure.message
  | lostSelector => "'list' object has no attribute 'lstrip'"
  | build failure => failure.message

/-- What a command leaves behind. -/
structure Report where
  project : Project
  /-- The exit code, unless the command crashed. -/
  exit : Except Crash Nat
  output : Text
  /-- What is written about failures; none if it is a text on how the command is used. -/
  errors : Option Text
  /-- How long a watcher slept each time. -/
  pauses : List Numeric.Binary64
  deriving Repr

/-- A report that leaves the project as it is. -/
def report (project : Project) (exit : Nat) (output : Text) (errors : Option Text) : Report :=
  ⟨project, .ok exit, output, errors, []⟩

/-- The exit code for wrong arguments, and for errors in selectors and declarations. -/
def misuseCode : Nat := 2

/-- The exit code for builds that fail for another reason. -/
def failureCode : Nat := 3

/-- The text of a message on a line of its own. -/
def messageLine (message : Text) : Text :=
  message ++ ['\n']

/-- Why a text has no tokens. -/
inductive Refusal where
  | selector (error : Selector.Error)
  | crash (cause : Crash)
  deriving DecidableEq, Repr

/-- The tokens of a text in a grammar; a prelude that was lost is empty. -/
def tokensOf (dialect : Dialect) (text : Option Text) : Except Refusal (List AnyToken) :=
  match dialect, text with
  | .selector, none => .error (.crash .lostSelector)
  | .selector, some selector =>
    match Selector.tokenize selector with
    | .error error => .error (.selector error)
    | .ok tokens => .ok (tokens.map AnyToken.ofSelector)
  | .prelude, prelude =>
    match Prelude.tokenize (prelude.getD []) with
    | .error failure => .error (.crash (.numeral failure))
    | .ok tokens => .ok (tokens.map AnyToken.ofPrelude)

/-- The report on the tokens of a text, given how they are written. -/
def runTokens (project : Project) (dialect : Dialect) (text : Option Text)
    (write : List AnyToken → Text) : Report :=
  match tokensOf dialect text with
  | .ok tokens => report project 0 (write tokens) (some [])
  | .error (.selector error) => report project misuseCode [] (some (messageLine error.message))
  | .error (.crash cause) => ⟨project, .error cause, [], some [], []⟩

/-- The listing of tokens. -/
def listing (json : Bool) (tokens : List AnyToken) : Text :=
  if json then jsonTokens tokens ++ ['\n'] else tokens.flatMap line

/-- The written form of tokens in a grammar, on a line of its own. -/
def written (dialect : Dialect) (tokens : List AnyToken) : Text :=
  match dialect with
  | .selector => messageLine (AnyToken.render tokens)
  | .prelude => messageLine (AnyToken.renderPrelude tokens)

/-- A path as seen from a directory. -/
def pathFrom (here : Location) (path : Text) : Text :=
  match (Path.ofText path).root with
  | .relative => here.text ++ '/' :: path
  | _ => path

/-- Puts CSS text into the file that it goes to, if it goes to a file. -/
def deliver (here : Location) (target : Target) (css : Text) (project : Project) : Project :=
  match target.output with
  | none => project
  | some path =>
    let file := Location.ofText (pathFrom here path)
    { project with files := project.files.put file (.text (messageLine css)) }

/-- The CSS text that goes to the output. -/
def shownCss (target : Target) (css : Text) : Text :=
  match target.output with
  | none => messageLine css
  | some _ => []

/-- The options of a build that is asked for: patterns to exclude are added to the usual ones. -/
def buildOptions (here : Location) (target : Target) (including excluding : List Text) :
    BuildOptions :=
  .ofTexts (pathFrom here target.module) none (some including)
    (some (BuildOptions.usuallyExcluded ++ excluding))

/--
The report on a failure that is not one of the style module, from what was written before.  A
program that was ended with a message has written it, and has the exit code one.
-/
def ended (before : Report) (failure : Project.BuildFailure) : Report :=
  match failure with
  | .ended _ message =>
    { before with exit := .ok 1, errors := before.errors.map (· ++ messageLine message) }
  | other => { before with exit := .error (.build other) }

/-- Builds a style module. -/
def runCompile (project : Project) (here : Location) (target : Target)
    (including excluding : List Text) : Report :=
  match project.compile (buildOptions here target including excluding) with
  | (project, .ok result) =>
    report (deliver here target result.css project) 0 (shownCss target result.css) (some [])
  | (project, .error failure) =>
    if failure.isReported then
      report project (if failure.isAuthoring then misuseCode else failureCode) []
        (some (messageLine failure.message))
    else ended (report project 0 [] (some [])) failure

/-- What a watcher writes to the output about an event. -/
def eventOutput (target : Target) : Project.Event → Text
  | .changed result => shownCss target result.css
  | _ => []

/-- What a watcher writes about failures. -/
def eventErrors : Project.Event → Text
  | .failed failure =>
    messageLine ("WARNING surimi.compiler: Build failed: " ++ failure.message) ++
      messageLine failure.message
  | _ => []

/-- How a style module is watched from the command line: every result goes where it is to go. -/
def watchOptions (here : Location) (target : Target) : Project.WatchOptions :=
  ⟨buildOptions here target [] [], true, fun result => deliver here target result.css⟩

/-- Watches a style module through rounds of edits, and is interrupted in the sleep after them. -/
def runWatch (project : Project) (here : Location) (target : Target)
    (interval : Numeric.Binary64) (edits : List (List Project.Files.Edit)) : Report :=
  let watched := Project.watch ⟨project, .empty none⟩ (watchOptions here target) edits
  let pauses (count : Nat) : Report :=
    { project := watched.watcher.cached.project
      exit := .ok 0
      output := watched.events.flatMap (eventOutput target)
      errors := some (watched.events.flatMap eventErrors)
      pauses := List.replicate count interval }
  match watched.events.findSome? Project.Event.ending? with
  | none => pauses (edits.length + 1)
  | some failure => ended (pauses (watched.events.count .slept)) failure

/-- Runs a command in a directory; a watcher sees the edits round by round. -/
def runCommand (project : Project) (here : Location) (edits : List (List Project.Files.Edit)) :
    Command → Report
  | .tokenize dialect text json => runTokens project dialect text (listing json)
  | .normalize dialect text => runTokens project dialect text (written dialect)
  | .compile target including excluding => runCompile project here target including excluding
  | .watch target interval => runWatch project here target interval edits

/-- Runs what arguments ask for. -/
def run (project : Project) (here : Location) (edits : List (List Project.Files.Edit))
    (arguments : List Text) : Report :=
  match Request.ofArguments arguments with
  | .command command => runCommand project here edits command
  | .stop .informed => report project 0 [] (some [])
  | .stop .misused => report project misuseCode [] none
  | .nothing => report project 1 [] none

/-- Without a command the exit code is one. -/
theorem run_nothing (project : Project) (here : Location)
    (edits : List (List Project.Files.Edit)) :
    (run project here edits []).exit = .ok 1 := by
  simp [run, read_nil, report]

/-- Normalizing a selector writes it on a line of its own. -/
theorem run_normalize (project : Project) (selector normal : Text)
    (normalized : Selector.normalize selector = .ok normal) :
    (runTokens project .selector (some selector) (written .selector)).output =
      normal ++ ['\n'] := by
  unfold Selector.normalize at normalized
  cases tokens : Selector.tokenize selector with
  | error error => rw [tokens] at normalized; cases normalized
  | ok found =>
    rw [tokens] at normalized
    cases normalized
    simp [runTokens, tokensOf, tokens, report, written, messageLine, AnyToken.render_ofSelector]

end CssAuthoring.CommandLine
