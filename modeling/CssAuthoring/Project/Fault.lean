import CssAuthoring.Project.Script

/-!
# Faults of style modules

Why the statements of a module did not run to their end.
-/

namespace CssAuthoring.Project

/-- Why a module failed. -/
inductive Fault where
  /-- A failure that the module itself asks for. -/
  | raised (message : Text)
  /-- The end of the program, which is no failure of the module. -/
  | exited (message : Text)
  /-- A module that is not there, perhaps because what should hold it is no package. -/
  | moduleNotFound (module : ModuleName) (noPackage : Option ModuleName)
  /--
  A name that a module does not have, which may still be running; the module is told by what it says
  of its own name and file.
  -/
  | cannotImport (name module : Text) (file : Option Text) (partly : Bool)
  | undefinedName (name : Text)
  /-- A failure to style. -/
  | style (failure : Sheet.Failure)
  /-- Something that is no stylesheet, used as one; it may be a module that is still running. -/
  | noAttribute (owner wanted : Text) (partly : Bool)
  | notCallable (type : Text)
  /-- A file that holds no statements. -/
  | unreadable (file : Text)
  /-- Modules that use each other more deeply than there are modules; this does not happen. -/
  | nestedTooDeep
  deriving DecidableEq, Repr

namespace Fault

/-- What is said of a module that is still running, before and after its name. -/
def partlyKind (partly : Bool) : Text :=
  if partly then "partially initialized " else []

/-- Why a module may still be running. -/
def partlyReason (partly : Bool) : Text :=
  if partly then " (most likely due to a circular import)" else []

/-- Where a name was looked for, as the message about it tells. -/
def whence (file : Option Text) (partly : Bool) (module : Text) : Text :=
  match file with
  | none => Text.quoted module ++ " (unknown location)"
  | some file =>
    let kind : Text := if partly then partlyKind true ++ "module " else []
    kind ++ Text.quoted module ++ partlyReason partly ++ " (" ++ file ++ [')']

/-- The message of a fault. -/
def message : Fault → Text
  | raised message => message
  | exited message => message
  | moduleNotFound module none => "No module named " ++ Text.quoted module.text
  | moduleNotFound module (some parent) =>
    "No module named " ++ Text.quoted module.text ++ "; " ++ Text.quoted parent.text ++
      " is not a package"
  | cannotImport name module file partly =>
    "cannot import name " ++ Text.quoted name ++ " from " ++ whence file partly module
  | undefinedName name => "name '" ++ name ++ "' is not defined"
  | style failure => failure.message
  | noAttribute owner wanted partly =>
    partlyKind partly ++ owner ++ " has no attribute '" ++ wanted ++ '\'' :: partlyReason partly
  | notCallable type => '\'' :: type ++ "' object is not callable"
  | unreadable file => "invalid syntax (" ++ file ++ ", line 1)"
  | nestedTooDeep => "modules are nested too deeply"

/-- Whether a fault is an error in a selector or in a declaration. -/
def isAuthoring : Fault → Bool
  | style (.selector _) => true
  | style (.style _) => true
  | _ => false

end Fault

end CssAuthoring.Project
