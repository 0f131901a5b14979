import CssAuthoring.Glob
import CssAuthoring.Path
import CssAuthoring.Text.Quoted

/-!
# Options of a build

Which style module to build, which directory its project lies in, and which of the files that it
uses count as dependencies.  Without patterns to include, every file counts that no pattern
excludes.

Main statement: `accepts_of_excluded`, an excluded file never counts.
-/

namespace CssAuthoring

/-- The options of a build. -/
structure BuildOptions where
  input : Path
  directory : Path
  included : List Text
  excluded : List Text
  deriving DecidableEq, Repr

namespace BuildOptions

/-- The patterns of files that usually do not count as dependencies. -/
def usuallyExcluded : List Text :=
  ["*/site-packages/*", "*/.venv/*", "*/node_modules/*"]

/-- Options for a style module; what is not given takes its usual value. -/
def ofTexts (input : Text) (directory : Option Text) (included excluded : Option (List Text)) :
    BuildOptions :=
  let path := Path.ofText input
  { input := path
    directory := (directory.map Path.ofText).getD path.parent
    included := included.getD []
    excluded := excluded.getD usuallyExcluded }

/-- Whether a file counts as a dependency. -/
def accepts (options : BuildOptions) (file : Text) : Bool :=
  (options.included.isEmpty || options.included.any fun pattern => Glob.matchesText pattern file)
    && !options.excluded.any fun pattern => Glob.matchesText pattern file

/-- The form in which options are shown. -/
def shown (options : BuildOptions) : Text :=
  "CompileOptions(" ++ Text.quoted options.input.text ++ ", cwd=" ++
    Text.quoted options.directory.text ++ [')']

/-- An excluded file never counts. -/
theorem accepts_of_excluded (options : BuildOptions) (file pattern : Text)
    (excludes : pattern ∈ options.excluded) (matched : Glob.matchesText pattern file = true) :
    options.accepts file = false := by
  simp only [accepts, Bool.and_eq_false_iff, Bool.not_eq_false', List.any_eq_true]
  exact .inr ⟨pattern, excludes, matched⟩

end BuildOptions

end CssAuthoring
