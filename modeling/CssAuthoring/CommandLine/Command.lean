import CssAuthoring.CommandLine.Arguments

/-!
# Commands

The commands for tokens and for builds, and how they are read from arguments.  Switches and plain
arguments of a command may stand in any order.  General switches come before the command.

Main statement: `read_nil`, without arguments there is no command.
-/

namespace CssAuthoring.CommandLine

/-- The two grammars of tokens. -/
inductive Dialect where
  | selector
  | prelude
  deriving DecidableEq, Repr

/-- Where built CSS text goes, and how often a watcher looks for changes. -/
structure Target where
  module : Text
  output : Option Text
  deriving DecidableEq, Repr

/-- A command with what it needs. -/
inductive Command where
  /-- Lists the tokens of a text, perhaps as JSON; the text may have been lost in reading. -/
  | tokenize (dialect : Dialect) (text : Option Text) (json : Bool)
  | normalize (dialect : Dialect) (text : Option Text)
  | compile (target : Target) (including excluding : List Text)
  | watch (target : Target) (interval : Numeric.Binary64)
  deriving DecidableEq, Repr

/-- What arguments ask for. -/
inductive Request where
  | command (command : Command)
  | stop (cause : Stop)
  /-- No command at all. -/
  | nothing
  deriving DecidableEq, Repr

/-- The names of the commands. -/
inductive Verb where
  | tokenize
  | normalize
  | compile
  | watch
  deriving DecidableEq, Repr

/-- The command with a name. -/
def Verb.ofText? (text : Text) : Option Verb :=
  if text = "tokenize".toList then some .tokenize
  else if text = "normalize".toList then some .normalize
  else if text = "compile".toList then some .compile
  else if text = "watch".toList then some .watch
  else none

/-- The switches that ask for help. -/
def helpSwitches : Switches := [("-h", .help), ("--help", .help)]

/-- The switches before the command. -/
def generalSwitches : Switches :=
  let general : Switches :=
    [("-v", .verbose), ("--verbose", .verbose), ("--version", .version)]
  helpSwitches ++ general

/-- The switches for what a build writes and reports. -/
def buildSwitches : Switches :=
  [("-o", .output), ("--output", .output), ("--include", .including), ("--exclude", .excluding)]

/-- The switches of a watcher. -/
def watchSwitches : Switches :=
  [("-o", .output), ("--output", .output), ("--interval", .interval)]

/-- The switches of a command. -/
def Verb.switches : Verb → Switches
  | tokenize =>
    let listing : Switches := [("--json", .json)]
    helpSwitches ++ listing
  | normalize => helpSwitches
  | compile => helpSwitches ++ buildSwitches
  | watch => helpSwitches ++ watchSwitches

/-- How many plain arguments a command takes. -/
def Verb.plainCount : Verb → Nat
  | tokenize => 2
  | normalize => 2
  | compile => 1
  | watch => 1

/-- Whether the first plain argument of a command is the name of a grammar. -/
def Verb.takesDialect : Verb → Bool
  | tokenize => true
  | normalize => true
  | _ => false

/-- The grammar with a name. -/
def Dialect.ofText? (text : Text) : Option Dialect :=
  if text = "selector".toList then some .selector
  else if text = "at-rule".toList then some .prelude
  else none

/-- What has been read of the arguments of a command. -/
structure Collected where
  given : List (Switch × Text)
  /-- The plain arguments; one may have been lost. -/
  plain : List (Option Text)
  leftOver : Bool
  deriving DecidableEq, Repr

/-- Checks switches as they are met: help ends the reading, and an interval has to be a number. -/
def checkSwitches : List (Switch × Text) → Except Stop Unit
  | [] => .ok ()
  | (switch, value) :: rest =>
    if switch = .help ∨ switch = .version then .error .informed
    else if switch = .interval ∧ Numeric.Binary64.ofText? value = none then .error .misused
    else checkSwitches rest

/-- Checks a plain argument as it is met: the first may have to name a grammar. -/
def checkPlain (verb : Verb) (position : Nat) : Option Text → Except Stop Unit
  | none => .ok ()
  | some text =>
    if verb.takesDialect && position = 0 && (Dialect.ofText? text).isNone then .error .misused
    else .ok ()

/-- Whether an argument is the separator. -/
def isSeparator (argument : Argument) : Bool :=
  argument.2 = .separator

/-- The text of a plain argument with separators around it; a text like the separator is lost. -/
def plainText (group : List Argument) : Option Text :=
  ((group.map Prod.fst).erase separator).head?

/-- One plain argument with the separators around it, and what follows. -/
def takePlain (arguments : List Argument) : Option (Option Text × List Argument) :=
  let leading := arguments.takeWhile isSeparator
  match arguments.dropWhile isSeparator with
  | (text, .plain) :: rest =>
    some (plainText (leading ++ (text, .plain) :: rest.takeWhile isSeparator),
      rest.dropWhile isSeparator)
  | _ => none

/-- As many plain arguments as there are at the start, up to a number, and what follows. -/
def takePlains : Nat → List Argument → List (Option Text) × List Argument
  | 0, arguments => ([], arguments)
  | count + 1, arguments =>
    match takePlain arguments with
    | none => ([], arguments)
    | some (text, rest) =>
      let (more, after) := takePlains count rest
      (text :: more, after)

/-- Checks plain arguments one after the other. -/
def checkPlains (verb : Verb) (position : Nat) : List (Option Text) → Except Stop Unit
  | [] => .ok ()
  | text :: rest =>
    match checkPlain verb position text with
    | .error stop => .error stop
    | .ok () => checkPlains verb (position + 1) rest

/-- Whether an argument is a switch. -/
def isSwitch (argument : Argument) : Bool :=
  match argument.2 with
  | .switch _ => true
  | _ => false

/-- Takes the plain arguments at the start that a command still needs. -/
def collectPlain (verb : Verb) (collected : Collected) (arguments : List Argument) :
    Except Stop (Collected × List Argument) :=
  let missing := verb.plainCount - collected.plain.length
  let (texts, rest) := takePlains missing arguments
  (checkPlains verb collected.plain.length texts).map fun _ =>
    ({ collected with plain := collected.plain ++ texts }, rest)

/-- Reads the arguments of a command from left to right; what it does not take is left over. -/
def collect (verb : Verb) (collected : Collected) (arguments : List Argument) :
    Except Stop Collected :=
  match collectPlain verb collected (arguments.takeWhile fun argument => !isSwitch argument) with
  | .error stop => .error stop
  | .ok (collected, unused) =>
    let collected := { collected with leftOver := collected.leftOver || !unused.isEmpty }
    match behind : arguments.dropWhile fun argument => !isSwitch argument with
    | (_, .switch occurrence) :: rest =>
      match read : readSwitch verb.switches occurrence rest with
      | .error stop => .error stop
      | .ok (switched, after) =>
        match checkSwitches switched.given with
        | .error stop => .error stop
        | .ok () =>
          have : after.length < arguments.length := by
            have shorter := readSwitch_length read
            have bound := (List.dropWhile_suffix
              (fun argument => !isSwitch argument) (l := arguments)).length_le
            rw [behind, List.length_cons] at bound
            omega
          collect verb
            { collected with
              given := collected.given ++ switched.given
              leftOver := collected.leftOver || switched.leftOver } after
    | _ => .ok collected
termination_by arguments.length

/-- The values given to a switch, in order. -/
def Collected.values (collected : Collected) (switch : Switch) : List Text :=
  (collected.given.filter fun entry => entry.1 = switch).map Prod.snd

/-- How often a watcher usually looks for changes, in seconds. -/
def usualInterval : Numeric.Binary64 := .ofDecimal false 5 (-1)

/-- The command that the collected arguments make. -/
def Collected.command (collected : Collected) (verb : Verb) : Command :=
  let first := (collected.plain[0]?).getD none
  let dialect := (first.bind Dialect.ofText?).getD .prelude
  let text := (collected.plain[1]?).getD none
  let target : Target := ⟨first.getD [], (collected.values .output).getLast?⟩
  match verb with
  | .tokenize => .tokenize dialect text !(collected.values .json).isEmpty
  | .normalize => .normalize dialect text
  | .compile => .compile target (collected.values .including) (collected.values .excluding)
  | .watch =>
    let interval := (collected.values .interval).getLast?.bind Numeric.Binary64.ofText?
    .watch target (interval.getD usualInterval)

/-- Reads the arguments of a command; nothing may be missing or left over. -/
def readCommand (verb : Verb) (arguments : List Text) : Except Stop Command :=
  match classify verb.switches arguments with
  | .error stop => .error stop
  | .ok classified =>
    match collect verb ⟨[], [], false⟩ classified with
    | .error stop => .error stop
    | .ok collected =>
      if collected.plain.length < verb.plainCount || collected.leftOver then .error .misused
      else .ok (collected.command verb)

/-- Reads general switches up to the command, and then the command. -/
def readGeneral (leftOver : Bool) (arguments : List Argument) : Request :=
  match arguments with
  | [] => if leftOver then .stop .misused else .nothing
  | (_, .separator) :: _ => .stop .misused
  | (name, .plain) :: rest =>
    match Verb.ofText? name with
    | none => .stop .misused
    | some verb =>
      match readCommand verb (rest.map Prod.fst) with
      | .error cause => .stop cause
      | .ok command => if leftOver then .stop .misused else .command command
  | (_, .switch occurrence) :: rest =>
    match read : readSwitch generalSwitches occurrence rest with
    | .error cause => .stop cause
    | .ok (switched, after) =>
      match checkSwitches switched.given with
      | .error cause => .stop cause
      | .ok () =>
        have := Nat.lt_succ_of_le (readSwitch_length read)
        readGeneral (leftOver || switched.leftOver) after
termination_by arguments.length

/-- What arguments ask for. -/
def Request.ofArguments (arguments : List Text) : Request :=
  match classify generalSwitches arguments with
  | .error cause => .stop cause
  | .ok classified => readGeneral false classified

/-- Without arguments there is no command. -/
theorem read_nil : Request.ofArguments [] = .nothing := by
  simp [Request.ofArguments, classify, readGeneral]

end CssAuthoring.CommandLine
