import CssAuthoring.Numeric.Reading

/-!
# Arguments

How the arguments of a command are told apart into switches, with their values, and plain
arguments.  A long switch may be shortened as long as it stays unambiguous, and may have its value
behind an equals sign; short switches may be run together, with a value directly behind the last.
Behind the separator `--` every argument is plain, and so are negative numbers, a single hyphen, and
what begins with a hyphen but has a space inside.

A reading ends at once where help is asked for or something is wrong.

Main statements: `classify_behind`, everything behind the separator is plain;
`readSwitch_unknown`, a switch that is not known is left over.
-/

namespace CssAuthoring.CommandLine

/-- The switches of all commands. -/
inductive Switch where
  | help
  | version
  | verbose
  | json
  | output
  | including
  | excluding
  | interval
  deriving DecidableEq, Repr

/-- Whether a switch takes a value. -/
def Switch.takesValue : Switch → Bool
  | output => true
  | including => true
  | excluding => true
  | interval => true
  | _ => false

/-- The switches of a command by name. -/
abbrev Switches := List (Text × Switch)

/-- Why the arguments of a command are not read to their end. -/
inductive Stop where
  /-- Help or the version was asked for. -/
  | informed
  | misused
  deriving DecidableEq, Repr

/-- A value that stands in the same argument as its switch, perhaps behind an equals sign. -/
structure Joined where
  equals : Bool
  value : Text
  deriving DecidableEq, Repr

/-- A switch as it stands in an argument; none if it is not known. -/
structure Occurrence where
  switch : Option Switch
  name : Text
  joined : Option Joined
  deriving DecidableEq, Repr

/-- How an argument is read. -/
inductive Shape where
  | plain
  | separator
  | switch (occurrence : Occurrence)
  deriving DecidableEq, Repr

/-- An argument and how it is read. -/
abbrev Argument := Text × Shape

/-- The argument behind which all others are plain. -/
def separator : Text := ['-', '-']

/-- The switch with a name. -/
def find? (switches : Switches) (name : Text) : Option Switch :=
  (switches.find? fun entry => entry.1 = name).map Prod.snd

/-- An argument before its first equals sign, and the value behind it. -/
def splitEquals (argument : Text) : Text × Option Joined :=
  match argument.dropWhile (· ≠ '=') with
  | [] => (argument, none)
  | _ :: value => (argument.takeWhile (· ≠ '='), some ⟨true, value⟩)

/-- The switches that an argument may be short for, or run together with. -/
def candidates (switches : Switches) (argument : Text) : List Occurrence :=
  if separator.isPrefixOf argument then
    let (start, joined) := splitEquals argument
    (switches.filter fun entry => start.isPrefixOf entry.1).map fun entry =>
      ⟨some entry.2, entry.1, joined⟩
  else
    switches.filterMap fun entry =>
      if entry.1 = argument.take 2 then
        some ⟨some entry.2, entry.1, some ⟨false, argument.drop 2⟩⟩
      else if argument.isPrefixOf entry.1 then some ⟨some entry.2, entry.1, none⟩
      else none

/-- Whether a text is made of decimal digits of any script, at least one. -/
def isDigits (text : Text) : Bool :=
  !text.isEmpty && text.all fun character => Text.isDigit (Numeric.asciiDigit character)

/-- Whether an argument is a negative number without an exponent; a line feed may follow. -/
def isNegativeNumber (argument : Text) : Bool :=
  match argument with
  | '-' :: rest =>
    let body := if rest.getLast? = some '\n' then rest.dropLast else rest
    let whole := body.takeWhile (· ≠ '.')
    match body.dropWhile (· ≠ '.') with
    | [] => isDigits body
    | _ :: fraction => (whole.isEmpty || isDigits whole) && isDigits fraction
  | _ => false

/-- How a single argument is read. -/
def shapeOf (switches : Switches) (argument : Text) : Except Stop Shape :=
  if argument.head? ≠ some '-' then .ok .plain
  else
    match find? switches argument with
    | some switch => .ok (.switch ⟨some switch, argument, none⟩)
    | none =>
      if argument.length = 1 then .ok .plain
      else
        let (start, joined) := splitEquals argument
        match if joined.isSome then find? switches start else none with
        | some switch => .ok (.switch ⟨some switch, start, joined⟩)
        | none =>
          match candidates switches argument with
          | _ :: _ :: _ => .error .misused
          | [occurrence] => .ok (.switch occurrence)
          | [] =>
            if isNegativeNumber argument || argument.contains ' ' then .ok .plain
            else .ok (.switch ⟨none, argument, none⟩)

/-- How arguments are read. -/
def classify (switches : Switches) : List Text → Except Stop (List Argument)
  | [] => .ok []
  | argument :: rest =>
    if argument = separator then
      .ok ((argument, .separator) :: rest.map fun other => (other, .plain))
    else
      match shapeOf switches argument with
      | .error stop => .error stop
      | .ok shape => (classify switches rest).map ((argument, shape) :: ·)

/-- Switches with their values, and whether anything is left over. -/
structure Switched where
  given : List (Switch × Text)
  leftOver : Bool
  deriving DecidableEq, Repr

/--
The switches that are run together in one argument, given the last of them so far, and how the
value of the last one is joined to it; none if its value may be the next argument.
-/
def readRun (switches : Switches) (switch : Switch) (short : Bool) (joined : Joined) :
    Except Stop (Switched × Option Switch) :=
  if switch.takesValue then .ok (⟨[(switch, joined.value)], false⟩, none)
  else
    match short, joined with
    | true, ⟨false, letter :: rest⟩ =>
      if letter = '-' then .error .misused
      else
        let before (later : Switched × Option Switch) : Switched × Option Switch :=
          ({ later.1 with given := (switch, []) :: later.1.given }, later.2)
        match find? switches ['-', letter], rest with
        | none, _ => .ok (⟨[(switch, [])], true⟩, none)
        | some next, [] => .ok (⟨[(switch, [])], false⟩, some next)
        | some next, '=' :: value => (readRun switches next true ⟨true, value⟩).map before
        | some next, value => (readRun switches next true ⟨false, value⟩).map before
    | _, _ => .error .misused
termination_by joined.value.length

/-- The value of a switch that stands alone: the next argument, if the switch takes one. -/
def readLast (switch : Switch) (rest : List Argument) :
    Except Stop (List (Switch × Text) × List Argument) :=
  if switch.takesValue then
    match rest with
    | (value, .plain) :: after => .ok ([(switch, value)], after)
    | _ => .error .misused
  else .ok ([(switch, [])], rest)

/-- The switches in an argument with their values, and the arguments behind them. -/
def readSwitch (switches : Switches) (occurrence : Occurrence) (rest : List Argument) :
    Except Stop (Switched × List Argument) :=
  match occurrence.switch, occurrence.joined with
  | none, _ => .ok (⟨[], true⟩, rest)
  | some switch, none =>
    (readLast switch rest).map fun (given, after) => (⟨given, false⟩, after)
  | some switch, some joined =>
    let short := occurrence.name[1]? ≠ some '-'
    match readRun switches switch short joined with
    | .error stop => .error stop
    | .ok (run, none) => .ok (run, rest)
    | .ok (run, some last) =>
      (readLast last rest).map fun (given, after) =>
        ({ run with given := run.given ++ given }, after)

/-- Everything behind the separator is plain. -/
theorem classify_behind (switches : Switches) (rest : List Text) :
    classify switches (separator :: rest) =
      .ok ((separator, .separator) :: rest.map fun other => (other, .plain)) := by
  simp [classify]

/-- A switch that is not known is left over. -/
theorem readSwitch_unknown (switches : Switches) (name : Text) (joined : Option Joined)
    (rest : List Argument) :
    readSwitch switches ⟨none, name, joined⟩ rest = .ok (⟨[], true⟩, rest) := rfl

theorem readLast_length {switch : Switch} {rest after : List Argument}
    {given : List (Switch × Text)} (read : readLast switch rest = .ok (given, after)) :
    after.length ≤ rest.length := by
  unfold readLast at read
  split at read
  · split at read
    · cases read
      exact Nat.le_succ _
    · contradiction
  · cases read
    exact Nat.le_refl _

/-- Reading a switch leaves no more arguments than there were behind it. -/
theorem readSwitch_length {switches : Switches} {occurrence : Occurrence}
    {rest after : List Argument} {switched : Switched}
    (read : readSwitch switches occurrence rest = .ok (switched, after)) :
    after.length ≤ rest.length := by
  have last {switch : Switch} {result : Switched × List Argument}
      {make : List (Switch × Text) × List Argument → Switched × List Argument}
      (same : ∀ pair, (make pair).2 = pair.2)
      (mapped : (readLast switch rest).map make = .ok result) : result.2.length ≤ rest.length := by
    cases found : readLast switch rest with
    | error stop => rw [found] at mapped; cases mapped
    | ok pair =>
      rw [found] at mapped
      cases mapped
      rw [same]
      exact readLast_length found
  unfold readSwitch at read
  split at read
  · cases read
    exact Nat.le_refl _
  · exact last (fun _ => rfl) read
  · simp only at read
    split at read
    · contradiction
    · cases read
      exact Nat.le_refl _
    · exact last (fun _ => rfl) read

end CssAuthoring.CommandLine
