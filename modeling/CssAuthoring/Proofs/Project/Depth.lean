import CssAuthoring.Proofs.Project.Footprint

/-!
# How deeply loading is nested

Loading is nested at most as deeply as there are modules to load, and where the depth is enough, a
greater one changes nothing, whether a run succeeds or fails.  The depth of a run is computed from
the statements of all files, but does not show in what the run does: it depends on nothing but what
stands at each location.

Main statements: `ensure_agrees`, a greater depth than what is enough changes nothing;
`runNameless_congr`, files with the same content are run in the same way.
-/

namespace CssAuthoring.Project

/-- Two importers do the same wherever a depth is enough. -/
def Importer.Agrees (wanted : List ModuleName) (depth : Nat) (first second : Importer) : Prop :=
  ∀ memory name, memory.Sound → Affords wanted depth memory name →
    second memory name = first memory name

section

variable {wanted : List ModuleName} {depth : Nat} {first second : Importer} {memory : Memory}

/-! ## Statements -/

theorem performUseName_agrees (isOrderly : first.IsOrderly)
    (agrees : Importer.Agrees wanted depth first second) (sound : memory.Sound) (frame : Nat)
    {module : ModuleName} {name : Text} (affords : Affords wanted depth memory module)
    (affordsInside : Affords wanted depth memory (module ++ [name])) :
    performUseName second memory frame module name =
      performUseName first memory frame module name := by
  have imports := isOrderly memory module sound
  unfold performUseName
  rw [agrees memory module sound affords]
  refine Outcome.andThen_congr fun index imported => ?_
  rcases imports.sound module index (imports.found index imported) with ⟨found, isFound, rfl, _⟩
  have inside := agrees _ _ imports.sound (affordsInside.of_keeps imports.keeps)
  rw [isFound]
  simp only [importInside, inside]

/-- One statement does the same with importers that do the same. -/
theorem perform_agrees (isOrderly : first.IsOrderly)
    (agrees : Importer.Agrees wanted depth first second) (sound : memory.Sound) (frame : Nat)
    {statement : Statement} (affords : AffordsAll wanted depth memory [statement]) :
    perform second frame memory statement = perform first frame memory statement := by
  simp only [AffordsAll, List.flatMap_singleton] at affords
  cases statement with
  | useModule module =>
      have isAfforded := affords module (ModuleName.mem_path.2 (List.prefix_refl module))
      simp only [perform, performUseModule, agrees memory module sound isAfforded]
  | useName module name =>
      have outer := affords module (ModuleName.mem_path.2 (List.prefix_append module [name]))
      have inner := affords (module ++ [name]) (ModuleName.mem_path.2 (List.prefix_refl _))
      exact performUseName_agrees isOrderly agrees sound frame outer inner
  | newSheet | style | clear | assign | delete | fail | exit => rfl

theorem performAll_agrees (isOrderly : first.IsOrderly)
    (agrees : Importer.Agrees wanted depth first second) (sound : memory.Sound) (frame : Nat)
    {statements : List Statement} (affords : AffordsAll wanted depth memory statements) :
    performAll second frame memory statements = performAll first frame memory statements := by
  induction statements generalizing memory with
  | nil => rfl
  | cons statement rest hypothesis =>
      have orderly := perform_orderly isOrderly sound frame statement
      rw [performAll, performAll, perform_agrees isOrderly agrees sound frame affords.head]
      refine Outcome.andThen_congr fun _ _ => ?_
      exact hypothesis orderly.sound (affords.tail orderly.keeps)

theorem runContent_agrees (isOrderly : first.IsOrderly)
    (agrees : Importer.Agrees wanted depth first second) (sound : memory.Sound) (frame : Nat)
    (file : Location) {content : Content}
    (affords : AffordsAll wanted depth memory content.statements) :
    runContent second frame memory file content = runContent first frame memory file content := by
  cases content with
  | script statements => exact performAll_agrees isOrderly agrees sound frame affords
  | text | directory => rfl

/-! ## Modules -/

theorem loadFrom_agrees {files : Files} {search : Location} (complete : Complete files wanted)
    (isOrderly : first.IsOrderly) (agrees : Importer.Agrees wanted depth first second)
    (sound : memory.Sound) {name : ModuleName} (affords : Affords wanted (depth + 1) memory name)
    (missing : memory.loaded.find? name = none) :
    loadFrom second ⟨files, search⟩ memory name = loadFrom first ⟨files, search⟩ memory name := by
  have unmoved := directoryOf_unmoved files search memory name.dropLast.reverse
  unfold loadFrom
  dsimp only
  rcases looked : directoryOf files search memory name.dropLast.reverse with ⟨next, directory?⟩
  rw [looked] at unmoved
  cases directory? with
  | none => rfl
  | some directory =>
      dsimp only at unmoved ⊢
      cases locate files directory (name.getLast?.getD []) with
      | none => rfl
      | some source =>
          have soundNext := unmoved.toAlike.sound sound
          have missingNext : next.loaded.find? name = none := by rw [unmoved.loaded, missing]
          have affordsAll := affordsAll_entered complete soundNext
            (affords.of_keeps unmoved.toAlike.keeps) missingNext source
          have soundEntered := (keeps_entered soundNext source files missingNext).1
          have ran : runEntered second files next name source =
              runEntered first files next name source :=
            runContent_agrees isOrderly agrees soundEntered _ _ affordsAll
          dsimp only
          rw [runModule_eq, runModule_eq, ran]

/-- A greater depth than what is enough changes nothing. -/
theorem ensure_agrees {files : Files} (complete : Complete files wanted) (search : Location)
    (depth more : Nat) :
    Importer.Agrees wanted depth (ensure ⟨files, search⟩ depth)
      (ensure ⟨files, search⟩ (depth + more)) := by
  induction depth with
  | zero =>
      intro memory name sound affords
      cases found : memory.loaded.find? name with
      | some index => rw [ensure_loaded found, ensure_loaded found]
      | none => exact absurd (affords.pos complete found) (Nat.lt_irrefl 0)
  | succ depth hypothesis =>
      intro memory name sound affords
      have isOrderly := ensure_isOrderly ⟨files, search⟩ depth
      rw [Nat.succ_add]
      unfold ensure
      split
      · rfl
      · rename_i missing
        split
        · exact loadFrom_agrees complete isOrderly hypothesis sound affords missing
        · rename_i notTop
          have imports := isOrderly memory name.dropLast sound
          rw [hypothesis memory name.dropLast sound (affords.around complete notTop)]
          refine Outcome.andThen_congr fun _ _ => ?_
          split
          · rfl
          · rename_i stillMissing
            exact loadFrom_agrees complete isOrderly hypothesis imports.sound
              (affords.of_keeps imports.keeps) stillMissing

end

/-! ## Files with the same content -/

/-- The same stands at every location. -/
def Files.SameContent (files other : Files) : Prop :=
  ∀ location, other.content? location = files.content? location

section

variable {files other : Files}

namespace Files.SameContent

theorem refl (files : Files) : files.SameContent files := fun _ => rfl

variable (same : files.SameContent other) (location : Location)

include same

theorem contains : other.contains location = files.contains location := by
  simp only [Files.contains, same location]

theorem isDirectory : other.isDirectory location = files.isDirectory location := by
  simp only [Files.isDirectory, same location]

theorem isFile : other.isFile location = files.isFile location := by
  simp only [Files.isFile, same.contains, same.isDirectory]

theorem isTooLong : other.isTooLong location = files.isTooLong location := by
  unfold Files.isTooLong
  rw [show other.isDirectory = files.isDirectory from funext same.isDirectory]

end Files.SameContent

theorem locate_congr (same : files.SameContent other) (directory : Location) (name : Text) :
    locate other directory name = locate files directory name := by
  simp only [locate, same.isFile, same.isDirectory]

theorem directoryOf_congr (same : files.SameContent other) (search : Location) (memory : Memory)
    (parts : List Text) :
    directoryOf other search memory parts = directoryOf files search memory parts := by
  induction parts with
  | nil => rfl
  | cons last outer hypothesis => simp only [directoryOf, hypothesis, locate_congr same]

theorem runModule_congr (same : files.SameContent other) (importer : Importer) (memory : Memory)
    (name : ModuleName) (source : Source) :
    runModule importer other memory name source = runModule importer files memory name source := by
  have content : source.content other = source.content files := by
    unfold Source.content
    cases source.origin with
    | none => rfl
    | some file => exact congrArg (Option.getD · .directory) (same file)
  simp only [runModule, Source.module, content]

theorem ensure_congr (same : files.SameContent other) (search : Location) (depth : Nat) :
    ensure ⟨other, search⟩ depth = ensure ⟨files, search⟩ depth := by
  induction depth with
  | zero => rfl
  | succ depth hypothesis =>
      have loads (importer : Importer) (memory : Memory) (name : ModuleName) :
          loadFrom importer ⟨other, search⟩ memory name =
            loadFrom importer ⟨files, search⟩ memory name := by
        simp only [loadFrom, directoryOf_congr same, locate_congr same, runModule_congr same]
      funext memory name
      unfold ensure
      rw [hypothesis]
      simp only [loads]

/-- Files with the same content are run in the same way, whatever depth is computed for them. -/
theorem runNameless_congr (same : files.SameContent other) (search : Location) {memory : Memory}
    (sound : memory.Sound) (file : Location) :
    runNameless ⟨other, search⟩ memory file = runNameless ⟨files, search⟩ memory file := by
  let around : Surroundings := ⟨files, search⟩
  let aroundOther : Surroundings := ⟨other, search⟩
  -- Both depths are enough, and so is their sum.
  have deeper : Importer.Agrees around.wanted around.depth around.importer
      (ensure around (around.depth + aroundOther.depth)) :=
    ensure_agrees around.complete search around.depth aroundOther.depth
  have deeperOther : Importer.Agrees aroundOther.wanted aroundOther.depth aroundOther.importer
      (ensure aroundOther (aroundOther.depth + around.depth)) :=
    ensure_agrees aroundOther.complete search aroundOther.depth around.depth
  have sameNameless : nameless other file = nameless files file := by
    simp only [nameless, same file]
  rw [runNameless_eq, runNameless_eq, same file, sameNameless]
  let added := (memory.addModule (nameless files file)).1
  let content := (files.content? file).getD .directory
  let frame := memory.modules.length
  have soundAdded : added.Sound := sound.addModule (nameless files file)
  have affords := affordsAll_depth around added (rfl : files.content? file = _)
  have affordsOther := affordsAll_depth aroundOther added (same file)
  have ran : runContent aroundOther.importer frame added file content =
      runContent around.importer frame added file content :=
    calc
      _ = runContent (ensure aroundOther (aroundOther.depth + around.depth)) frame added file
            content :=
          (runContent_agrees (ensure_isOrderly _ _) deeperOther soundAdded frame file
            affordsOther).symm
      _ = runContent (ensure around (around.depth + aroundOther.depth)) frame added file content :=
          by rw [Nat.add_comm aroundOther.depth, ensure_congr same]
      _ = _ := runContent_agrees (ensure_isOrderly _ _) deeper soundAdded frame file affords
  exact congrArg (Outcome.andThen · _) ran

end

end CssAuthoring.Project
