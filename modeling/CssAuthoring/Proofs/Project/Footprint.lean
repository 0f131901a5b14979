import CssAuthoring.Proofs.Project.Importing

/-!
# The files that a run depends on

A run that succeeds depends on no files but its own and those of the modules that it loads: where
these stay as they are and no file appears, running again does the same.  For a file that a module
could have been read from instead is not there, and stays away; and a module that was looked for in
vain makes the run fail.

How deeply loading may be nested depends on all files, but it is always enough: every module that is
being loaded is one less to load.

Main statement: `runNameless_follows`, a run on files that agree where it matters is the same run.
-/

namespace CssAuthoring.Project

/-! ## Files that agree -/

/-- Files of a kind are as they were, and no file has appeared. -/
structure Agree (isKept : Location → Prop) (before after : Files) : Prop where
  kept : ∀ file, isKept file → after.content? file = before.content? file
  appeared : ∀ location, after.isFile location = true → before.isFile location = true

/-- Every loaded module was read from a file of a kind. -/
def Within (isKept : Location → Prop) (memory : Memory) : Prop :=
  ∀ name index, memory.loaded.find? name = some index →
    ∃ module file, memory.module? index = some module ∧ module.origin = some file ∧ isKept file

section

variable {isKept : Location → Prop} {before after : Files}

theorem Within.of_keeps {memory next : Memory} (within : Within isKept next)
    (keeps : Keeps memory next) (sound : memory.Sound) : Within isKept memory := by
  intro name index found
  rcases within name index (keeps.loaded name index found) with
    ⟨later, file, isLater, isOrigin, kept⟩
  rcases sound name index found with ⟨module, isModule, _⟩
  rcases keeps.modules index module isModule with ⟨same, isSame, identity⟩
  rw [isLater] at isSame
  cases isSame
  have sameOrigin : later.origin = module.origin := congrArg (·.2.1) identity
  exact ⟨module, file, isModule, sameOrigin ▸ isOrigin, kept⟩

theorem Agree.isFile (agree : Agree isKept before after) {file : Location} (kept : isKept file) :
    after.isFile file = before.isFile file := by
  simp only [Files.isFile, Files.contains, Files.isDirectory, agree.kept file kept]

/-- A module that was found in a kept file is found there again. -/
theorem locate_follows (agree : Agree isKept before after) {directory : Location} {name : Text}
    {source : Source} {file : Location} (found : locate before directory name = some source)
    (isOrigin : source.origin = some file) (kept : isKept file) :
    locate after directory name = some source := by
  have again := locate_isFile found isOrigin
  rw [← agree.isFile kept] at again
  unfold locate at found ⊢
  dsimp only at found ⊢
  split at found
  · cases found
    cases isOrigin
    rw [if_pos again]
  · rename_i notOwn
    have stillNotOwn := fun isOwn => notOwn (agree.appeared _ isOwn)
    rw [if_neg stillNotOwn]
    split at found
    · cases found
      cases isOrigin
      rw [if_pos again]
    · split at found
      · cases found
        cases isOrigin
      · cases found

/-- The directory of a package that was read from a file is found without a look at files. -/
theorem directoryOf_follows (after : Files) {memory : Memory} (within : Within isKept memory)
    (sound : memory.Sound) {search : Location} {parts : List Text} {next : Memory}
    {directory : Location}
    (found : directoryOf before search memory parts = (next, some directory)) :
    next = memory ∧ directoryOf after search memory parts = (memory, some directory) := by
  cases parts with
  | nil =>
      cases found
      exact ⟨rfl, rfl⟩
  | cons last outer =>
      rw [directoryOf] at found ⊢
      cases isLoaded : memory.loaded.find? (last :: outer).reverse with
      | none =>
          rw [isLoaded] at found
          cases found
      | some index =>
          rcases within _ index isLoaded with ⟨module, file, isModule, isOrigin, _⟩
          rcases sound _ index isLoaded with ⟨other, isOther, _, bare⟩
          rw [isModule] at isOther
          cases isOther
          rw [isLoaded, Option.bind_some, isModule, Option.map_some] at found
          rw [Option.bind_some, isModule, Option.map_some]
          dsimp only at found ⊢
          cases isPackage : module.package with
          | none =>
              rw [isPackage] at found
              cases found
          | regular place =>
              rw [isPackage] at found
              cases found
              exact ⟨rfl, rfl⟩
          | bare known =>
              rw [bare (by simp [Module.isBare, isPackage])] at isOrigin
              cases isOrigin

end

/-! ## How much is left to load -/

/-- How many of the wanted modules are not loaded. -/
def unloaded (wanted : List ModuleName) (memory : Memory) : Nat :=
  wanted.countP fun name => (memory.loaded.find? name).isNone

/-- A depth that is enough to load a wanted module. -/
structure Affords (wanted : List ModuleName) (depth : Nat) (memory : Memory) (name : ModuleName) :
    Prop where
  isWanted : name ∈ wanted
  enough : unloaded wanted memory * wanted.length + name.length ≤ depth

theorem unloaded_mono {wanted : List ModuleName} {memory next : Memory}
    (keeps : Keeps memory next) : unloaded wanted next ≤ unloaded wanted memory := by
  apply List.countP_mono_left
  intro name _ missing
  rw [Option.isNone_iff_eq_none] at missing ⊢
  exact keeps.not_loaded missing

/-- Once a wanted module is loaded, there is less left to load. -/
theorem unloaded_lt {wanted : List ModuleName} {memory next : Memory} (keeps : Keeps memory next)
    {name : ModuleName} (isWanted : name ∈ wanted) (missing : memory.loaded.find? name = none)
    {index : Nat} (found : next.loaded.find? name = some index) :
    unloaded wanted next < unloaded wanted memory := by
  rcases List.append_of_mem isWanted with ⟨front, back, rfl⟩
  have inFront : unloaded front next ≤ unloaded front memory := unloaded_mono keeps
  have inBack : unloaded back next ≤ unloaded back memory := unloaded_mono keeps
  simp only [unloaded] at inFront inBack
  simp only [unloaded, List.countP_append, List.countP_cons, missing, found]
  simp only [Option.isNone_none, Option.isNone_some]
  simp only [if_true, Bool.false_eq_true, if_false]
  omega

theorem Affords.of_keeps {wanted : List ModuleName} {depth : Nat} {memory next : Memory}
    {name : ModuleName} (affords : Affords wanted depth memory name) (keeps : Keeps memory next) :
    Affords wanted depth next name := by
  refine ⟨affords.isWanted, Nat.le_trans ?_ affords.enough⟩
  exact Nat.add_le_add_right (Nat.mul_le_mul_right _ (unloaded_mono keeps)) _

/-! ## Statements -/

/-- An importer loads what another one loads from kept files, where the depth is enough for it. -/
def Importer.Follows (isKept : Location → Prop) (wanted : List ModuleName) (depth : Nat)
    (first second : Importer) : Prop :=
  ∀ memory name next index, memory.Sound → Affords wanted depth memory name →
    first memory name = (next, .ok index) → Within isKept next →
      second memory name = (next, .ok index)

section

variable {isKept : Location → Prop} {wanted : List ModuleName} {depth : Nat}
  {first second : Importer} {memory next : Memory} {frame : Nat}

theorem performUseModule_follows (isOrderly : first.IsOrderly)
    (follows : Importer.Follows isKept wanted depth first second) (sound : memory.Sound)
    {module : ModuleName} (affords : Affords wanted depth memory module)
    (ran : performUseModule first memory frame module = (next, .ok ()))
    (within : Within isKept next) :
    performUseModule second memory frame module = (next, .ok ()) := by
  have imports := isOrderly memory module sound
  rcases Outcome.andThen_eq_ok.1 ran with ⟨middle, index, imported, bound⟩
  rw [imported] at imports
  have keeps : Keeps middle next := by
    cases bound
    exact (alike_bind middle frame _ _).keeps
  have followed := follows memory module middle index sound affords imported
    (within.of_keeps keeps imports.sound)
  exact Outcome.andThen_eq_ok.2 ⟨middle, index, followed, bound⟩

/-- Bringing the module inside a package into memory is not in vain where it is found there. -/
theorem importInside_follows (isOrderly : first.IsOrderly)
    (follows : Importer.Follows isKept wanted depth first second) (sound : memory.Sound)
    {found : Module} {index : Nat} {name : Text}
    (isLoaded : memory.loaded.find? found.name = some index)
    (notOwn : (memory.names index).contains name = false)
    (affords : Affords wanted depth memory (found.name ++ [name]))
    (ran : importInside first memory (found.name ++ [name]) = (next, .ok ())) {thing : Thing}
    (isMember : member next found index name = .ok thing) (within : Within isKept next) :
    importInside second memory (found.name ++ [name]) = (next, .ok ()) := by
  have imports := isOrderly memory (found.name ++ [name]) sound
  unfold importInside at ran ⊢
  rcases imported : first memory (found.name ++ [name]) with ⟨last, outcome⟩
  rw [imported] at ran imports
  cases outcome with
  | ok inner =>
      cases ran
      rw [follows _ _ _ _ sound affords imported within]
  | error fault =>
      cases fault with
      | moduleNotFound missing parent =>
          dsimp only at ran
          split at ran
          · rename_i same
            cases ran
            subst same
            -- Nothing has run, so that the name is not there, nor a module with it.
            have unmoved := imports.unmoved parent rfl (.inr ⟨index, by simpa using isLoaded⟩)
            have absent := imports.missing _ parent rfl
            rw [OrderedTable.contains, Option.isSome_eq_false_iff, Option.isNone_iff_eq_none]
              at notOwn
            have names := unmoved.names index
            have loaded := unmoved.loaded
            dsimp only at names loaded
            rw [member, names, loaded, notOwn, absent] at isMember
            cases isMember
          · cases ran
      | _ => cases ran

/-- A name is taken over from a module by bringing the same modules into memory again. -/
theorem performUseName_follows (isOrderly : first.IsOrderly)
    (follows : Importer.Follows isKept wanted depth first second) (sound : memory.Sound)
    {module : ModuleName} {name : Text} (affords : Affords wanted depth memory module)
    (affordsInside : Affords wanted depth memory (module ++ [name]))
    (ran : performUseName first memory frame module name = (next, .ok ()))
    (within : Within isKept next) :
    performUseName second memory frame module name = (next, .ok ()) := by
  have imports := isOrderly memory module sound
  rcases Outcome.andThen_eq_ok.1 ran with ⟨middle, index, imported, rest⟩
  rw [imported] at imports
  have isLoaded := imports.found index rfl
  rcases imports.sound module index isLoaded with ⟨found, isFound, rfl, _⟩
  dsimp only at isFound
  rw [isFound] at rest
  rcases Outcome.andThen_eq_ok.1 rest with ⟨last, done, ranInside, bound⟩
  rcases Outcome.andThen_eq_ok.1 bound with ⟨same, thing, looked, isBound⟩
  cases isMember : member last found index name with
  | error fault =>
      rw [isMember] at looked
      cases looked
  | ok other =>
      rw [isMember] at looked
      cases looked
      have keepsLast : Keeps last next := by
        cases isBound
        exact (alike_bind last frame name thing).keeps
      have bindsAgain {ran : Ran Unit} (again : ran = (last, .ok done)) :
          (ran.andThen fun memory _ =>
            (look memory (member memory found index name)).andThen fun memory thing =>
              (memory.bind frame name thing, .ok ())) = (next, .ok ()) :=
        Outcome.andThen_eq_ok.2 ⟨last, done, again, bound⟩
      by_cases own : (middle.names index).contains name || found.package = .none
      · rw [if_pos own] at ranInside
        have same : middle = last := congrArg Prod.fst ranInside
        have followed := follows memory found.name middle index sound affords imported
          (within.of_keeps (same ▸ keepsLast) imports.sound)
        refine Outcome.andThen_eq_ok.2 ⟨middle, index, followed, ?_⟩
        rw [isFound]
        exact bindsAgain (by rw [if_pos own, ranInside])
      · rw [if_neg own] at ranInside
        have inside := importInside_orderly isOrderly imports.sound (found.name ++ [name])
        rw [ranInside] at inside
        simp only [Bool.or_eq_true, decide_eq_true_eq, not_or, Bool.not_eq_true] at own
        have withinLast := within.of_keeps keepsLast inside.sound
        have again := importInside_follows isOrderly follows imports.sound isLoaded own.1
          (affordsInside.of_keeps imports.keeps) ranInside isMember withinLast
        have followed := follows memory found.name middle index sound affords imported
          (within.of_keeps (inside.keeps.trans keepsLast) imports.sound)
        refine Outcome.andThen_eq_ok.2 ⟨middle, index, followed, ?_⟩
        rw [isFound]
        exact bindsAgain (by rw [if_neg (by simp [own]), again])

/-! ### Files -/

/-- The statements of a file. -/
def Content.statements : Content → List Statement
  | .script statements => statements
  | _ => []

/-- A depth that is enough for all modules that statements may bring into memory. -/
def AffordsAll (wanted : List ModuleName) (depth : Nat) (memory : Memory)
    (statements : List Statement) : Prop :=
  ∀ name ∈ statements.flatMap Statement.wanted, Affords wanted depth memory name

theorem AffordsAll.head {statement : Statement} {rest : List Statement}
    (affords : AffordsAll wanted depth memory (statement :: rest)) :
    AffordsAll wanted depth memory [statement] := by
  intro name isWanted
  rw [List.flatMap_singleton] at isWanted
  exact affords name (List.mem_append_left _ isWanted)

theorem AffordsAll.tail {statement : Statement} {rest : List Statement}
    (affords : AffordsAll wanted depth memory (statement :: rest)) (keeps : Keeps memory next) :
    AffordsAll wanted depth next rest := fun name isWanted =>
  (affords name (List.mem_append_right _ isWanted)).of_keeps keeps

theorem ModuleName.mem_path {name other : ModuleName} : other ∈ name.path ↔ other <+: name := by
  simp only [path, List.mem_map, List.mem_range]
  constructor
  · rintro ⟨count, _, rfl⟩
    exact List.take_prefix count name
  · intro isPrefix
    exact ⟨other.length, Nat.lt_succ_of_le isPrefix.length_le,
      (List.prefix_iff_eq_take.1 isPrefix).symm⟩

theorem perform_follows (isOrderly : first.IsOrderly)
    (follows : Importer.Follows isKept wanted depth first second) (sound : memory.Sound)
    {statement : Statement} (affords : AffordsAll wanted depth memory [statement])
    (ran : perform first frame memory statement = (next, .ok ())) (within : Within isKept next) :
    perform second frame memory statement = (next, .ok ()) := by
  simp only [AffordsAll, List.flatMap_singleton] at affords
  cases statement with
  | useModule module =>
      have isAfforded := affords module (ModuleName.mem_path.2 (List.prefix_refl module))
      exact performUseModule_follows isOrderly follows sound isAfforded ran within
  | useName module name =>
      have outer := affords module (ModuleName.mem_path.2 (List.prefix_append module [name]))
      have inner := affords (module ++ [name]) (ModuleName.mem_path.2 (List.prefix_refl _))
      exact performUseName_follows isOrderly follows sound outer inner ran within
  | newSheet | style | clear | assign | delete | fail | exit => exact ran

theorem performAll_follows (isOrderly : first.IsOrderly)
    (follows : Importer.Follows isKept wanted depth first second) (sound : memory.Sound)
    {statements : List Statement} (affords : AffordsAll wanted depth memory statements)
    (ran : performAll first frame memory statements = (next, .ok ()))
    (within : Within isKept next) :
    performAll second frame memory statements = (next, .ok ()) := by
  induction statements generalizing memory with
  | nil => exact ran
  | cons statement rest hypothesis =>
      have orderly := perform_orderly isOrderly sound frame statement
      rcases Outcome.andThen_eq_ok.1 ran with ⟨middle, done, performed, ran⟩
      rw [performed] at orderly
      have keeps : Keeps middle next := by
        have others := performAll_orderly isOrderly orderly.sound frame rest
        rw [ran] at others
        exact others.keeps
      have again := perform_follows isOrderly follows sound affords.head performed
        (within.of_keeps keeps orderly.sound)
      have others := hypothesis orderly.sound (affords.tail orderly.keeps) ran
      exact Outcome.andThen_eq_ok.2 ⟨middle, done, again, others⟩

theorem runContent_follows (isOrderly : first.IsOrderly)
    (follows : Importer.Follows isKept wanted depth first second) (sound : memory.Sound)
    {content : Content} (affords : AffordsAll wanted depth memory content.statements)
    {file : Location} (ran : runContent first frame memory file content = (next, .ok ()))
    (within : Within isKept next) :
    runContent second frame memory file content = (next, .ok ()) := by
  cases content with
  | script statements => exact performAll_follows isOrderly follows sound affords ran within
  | text | directory => exact ran

end

/-! ## Modules -/

/-- The statements of one file are among those of all. -/
theorem Files.statements_content {files : Files} {file : Location} {content : Content}
    (found : files.content? file = some content) {statement : Statement}
    (isOne : statement ∈ content.statements) : statement ∈ files.statements := by
  rw [content?] at found
  split at found
  · cases found
    cases isOne
  · rcases Option.map_eq_some_iff.1 found with ⟨entry, isThere, rfl⟩
    have isEntry : entry ∈ files.entries.values :=
      List.mem_map_of_mem (OrderedTable.mem_of_find? isThere)
    exact List.mem_flatMap.2 ⟨entry, isEntry, isOne⟩

/-- The names of all modules that the statements of files want, and of the packages around them. -/
structure Complete (files : Files) (wanted : List ModuleName) : Prop where
  covers : ∀ statement ∈ files.statements, statement.wanted ⊆ wanted
  around : ∀ name ∈ wanted, name.dropLast ∈ wanted
  length : ∀ name ∈ wanted, name.length + 1 ≤ wanted.length

/-- What the statements of one file want is wanted. -/
theorem Complete.content {files : Files} {wanted : List ModuleName}
    (complete : Complete files wanted) {file : Location} {content : Option Content}
    (found : files.content? file = content) {name : ModuleName}
    (isAsked : name ∈ (content.getD .directory).statements.flatMap Statement.wanted) :
    name ∈ wanted := by
  rcases List.mem_flatMap.1 isAsked with ⟨statement, isOne, isWanted⟩
  cases content with
  | none => cases isOne
  | some content =>
      exact complete.covers statement (Files.statements_content found isOne) isWanted

theorem Surroundings.complete (around : Surroundings) : Complete around.files around.wanted := by
  -- What one statement wants are the prefixes of one name.
  have isPath (statement : Statement) :
      statement.wanted = [] ∨ ∃ whole : ModuleName, statement.wanted = whole.path := by
    cases statement with
    | useModule module => exact .inr ⟨module, rfl⟩
    | useName module name => exact .inr ⟨module ++ [name], rfl⟩
    | newSheet | style | clear | assign | delete | fail | exit => exact .inl rfl
  constructor
  · exact fun statement isOne name isWanted => List.mem_flatMap.2 ⟨statement, isOne, isWanted⟩
  · intro name isWanted
    rcases List.mem_flatMap.1 isWanted with ⟨statement, isOne, isWanted⟩
    refine List.mem_flatMap.2 ⟨statement, isOne, ?_⟩
    rcases isPath statement with none | ⟨whole, path⟩
    · rw [none] at isWanted
      cases isWanted
    · rw [path, ModuleName.mem_path] at isWanted ⊢
      exact (List.dropLast_prefix name).trans isWanted
  · intro name isWanted
    rcases List.mem_flatMap.1 isWanted with ⟨statement, isOne, isWanted⟩
    have bound : statement.wanted.length ≤ around.wanted.length := by
      rcases List.append_of_mem isOne with ⟨front, back, split⟩
      rw [Surroundings.wanted, split, List.flatMap_append, List.flatMap_cons]
      simp only [List.length_append]
      omega
    refine Nat.le_trans ?_ bound
    rcases isPath statement with none | ⟨whole, path⟩
    · rw [none] at isWanted
      cases isWanted
    · rw [path, ModuleName.mem_path] at isWanted
      rw [path, ModuleName.path, List.length_map, List.length_range]
      exact Nat.succ_le_succ isWanted.length_le

section

variable {isKept : Location → Prop} {wanted : List ModuleName} {depth : Nat}
  {first second : Importer} {before after : Files} {memory next : Memory}

/-- A module that was loaded was read from the file of its source. -/
theorem runModule_origin (isOrderly : first.IsOrderly) (sound : memory.Sound)
    {name : ModuleName} {source : Source} {index : Nat}
    (missing : memory.loaded.find? name = none)
    (ran : runModule first before memory name source = (next, .ok index)) :
    ∃ module, next.module? index = some module ∧ module.origin = source.origin := by
  have soundEntered := (keeps_entered sound source before missing).1
  rcases runModule_eq_ok.1 ran with ⟨last, done, rfl, rfl⟩
  have content : Orderly _ (runEntered first before memory name source) :=
    runContent_orderly isOrderly soundEntered _ _ _
  rw [done] at content
  have keeps := content.keeps.trans (alike_finish last memory.modules.length).keeps
  rcases keeps.modules _ _ (entered_module? source before memory name) with
    ⟨module, isModule, same⟩
  exact ⟨module, isModule, congrArg (·.2.1) same⟩

/-- A depth that is enough for a module that is not loaded is not zero. -/
theorem Affords.pos (complete : Complete after wanted) {name : ModuleName}
    (affords : Affords wanted depth memory name) (missing : memory.loaded.find? name = none) :
    0 < depth := by
  have some : 0 < unloaded wanted memory :=
    List.countP_pos_iff.2 ⟨name, affords.isWanted, by simp [missing]⟩
  have short := complete.length name affords.isWanted
  have product := Nat.mul_pos some (Nat.lt_of_lt_of_le (Nat.succ_pos _) short)
  have enough := affords.enough
  omega

/-- A depth that is enough for a module is enough for the package around it, and one to spare. -/
theorem Affords.around (complete : Complete after wanted) {name : ModuleName}
    (affords : Affords wanted (depth + 1) memory name) (notTop : name.dropLast ≠ []) :
    Affords wanted depth memory name.dropLast := by
  refine ⟨complete.around name affords.isWanted, ?_⟩
  have isLonger : 0 < name.length :=
    List.length_pos_iff.2 fun isEmpty => notTop (by rw [isEmpty]; rfl)
  have enough := affords.enough
  rw [List.length_dropLast]
  omega

/-- Once a module is entered, there is one less to load, which leaves enough for those it uses. -/
theorem affordsAll_entered (complete : Complete after wanted) (sound : memory.Sound)
    {name : ModuleName} (affords : Affords wanted (depth + 1) memory name)
    (missing : memory.loaded.find? name = none) (source : Source) :
    AffordsAll wanted depth (source.entered after memory name)
      (source.content after).statements := by
  intro other isAsked
  have otherWanted : other ∈ wanted := by
    rw [Source.content] at isAsked
    cases isOrigin : source.origin with
    | none =>
        rw [isOrigin] at isAsked
        cases isAsked
    | some file =>
        rw [isOrigin, Option.bind_some] at isAsked
        exact complete.content rfl isAsked
  refine ⟨otherWanted, ?_⟩
  have enough := affords.enough
  have less := unloaded_lt (keeps_entered sound source after missing).2 affords.isWanted missing
    (entered_find? source after memory name)
  have short := complete.length other otherWanted
  have product := Nat.mul_le_mul_right wanted.length (Nat.succ_le_of_lt less)
  rw [Nat.succ_mul] at product
  omega

/-- The depth of a run is enough for all that its file may bring into memory. -/
theorem affordsAll_depth (around : Surroundings) (memory : Memory) {file : Location}
    {content : Option Content} (found : around.files.content? file = content) :
    AffordsAll around.wanted around.depth memory (content.getD .directory).statements := by
  intro name isAsked
  have isWanted := around.complete.content found isAsked
  have short := around.complete.length name isWanted
  have few : unloaded around.wanted memory ≤ around.wanted.length := List.countP_le_length
  exact ⟨isWanted, Nat.add_le_add (Nat.mul_le_mul_right _ few) (by omega)⟩

/-- Reading a module from a kept file is reading it again. -/
theorem runModule_follows (agree : Agree isKept before after) (complete : Complete after wanted)
    (isOrderly : first.IsOrderly) (follows : Importer.Follows isKept wanted depth first second)
    (sound : memory.Sound) {name : ModuleName}
    (isAfforded : Affords wanted (depth + 1) memory name)
    (missing : memory.loaded.find? name = none) {source : Source} {file : Location}
    (isOrigin : source.origin = some file) (kept : isKept file)
    {index : Nat} (ran : runModule first before memory name source = (next, .ok index))
    (within : Within isKept next) :
    runModule second after memory name source = (next, .ok index) := by
  have sameContent : source.content after = source.content before := by
    simp only [Source.content, isOrigin, Option.bind_some, agree.kept file kept]
  have sameEntered : source.entered after memory name = source.entered before memory name := by
    rw [Source.entered, Source.module, sameContent, Source.entered, Source.module]
  have affords := affordsAll_entered complete sound isAfforded missing source
  rw [sameContent, sameEntered] at affords
  have soundEntered := (keeps_entered sound source before missing).1
  rcases runModule_eq_ok.1 ran with ⟨last, done, rfl, rfl⟩
  have orderly : Orderly _ (runEntered first before memory name source) :=
    runContent_orderly isOrderly soundEntered _ _ _
  rw [done] at orderly
  have again := runContent_follows isOrderly follows soundEntered affords done
    (within.of_keeps (alike_finish last _).keeps orderly.sound)
  refine runModule_eq_ok.2 ⟨last, ?_, rfl, rfl⟩
  rw [runEntered, sameContent, sameEntered]
  exact again

/-- A module that was loaded from a kept file is loaded from it again. -/
theorem loadFrom_follows {search : Location} (agree : Agree isKept before after)
    (complete : Complete after wanted) (isOrderly : first.IsOrderly)
    (follows : Importer.Follows isKept wanted depth first second) (sound : memory.Sound)
    {name : ModuleName} (affords : Affords wanted (depth + 1) memory name)
    (missing : memory.loaded.find? name = none) {index : Nat}
    (ran : loadFrom first ⟨before, search⟩ memory name = (next, .ok index))
    (within : Within isKept next) :
    loadFrom second ⟨after, search⟩ memory name = (next, .ok index) := by
  have imports := loadFrom_imports isOrderly sound ⟨before, search⟩ missing
  rw [ran] at imports
  have withinFirst := within.of_keeps imports.keeps sound
  unfold loadFrom at ran ⊢
  dsimp only at ran ⊢
  rcases looked : directoryOf before search memory name.dropLast.reverse with ⟨middle, directory?⟩
  rw [looked] at ran
  cases directory? with
  | none => cases ran
  | some directory =>
      rcases directoryOf_follows after withinFirst sound looked with ⟨rfl, again⟩
      rw [again]
      dsimp only at ran ⊢
      cases found : locate before directory (name.getLast?.getD []) with
      | none =>
          rw [found] at ran
          cases ran
      | some source =>
          rw [found] at ran
          rcases Outcome.andThen_eq_ok.1 ran with ⟨last, number, loaded, isAttached⟩
          have sameNumber : number = index := Except.ok.inj (congrArg Prod.snd isAttached)
          subst sameNumber
          have sameNext : attach last name number = next := congrArg Prod.fst isAttached
          subst sameNext
          have attached := attach_alike last name number
          have soundLast := (runModule_orderly isOrderly sound before missing source loaded).1.sound
          rcases runModule_origin isOrderly sound missing loaded with
            ⟨module, isModule, isOrigin⟩
          rcases attached.keeps.modules number module isModule with ⟨later, isLater, same⟩
          rcases within name number (imports.found number rfl) with
            ⟨known, file, isKnown, isFile, kept⟩
          rw [isLater] at isKnown
          cases isKnown
          have sameOrigin : later.origin = module.origin := congrArg (·.2.1) same
          have isSource : source.origin = some file := by
            rw [← isOrigin, ← sameOrigin, isFile]
          rw [locate_follows agree found isSource kept]
          have again := runModule_follows agree complete isOrderly follows sound affords missing
            isSource kept loaded (within.of_keeps attached.keeps soundLast)
          exact Outcome.andThen_eq_ok.2 ⟨last, number, again, isAttached⟩

/-- A module that was brought into memory from kept files is brought there again. -/
theorem ensure_follows {search : Location} (agree : Agree isKept before after)
    (complete : Complete after wanted) (depthBefore depth : Nat) :
    Importer.Follows isKept wanted depth (ensure ⟨before, search⟩ depthBefore)
      (ensure ⟨after, search⟩ depth) := by
  induction depthBefore generalizing depth with
  | zero =>
      intro memory name next index sound affords ran within
      unfold ensure at ran
      split at ran
      · rename_i index isLoaded
        cases ran
        exact ensure_loaded isLoaded _ depth
      · cases ran
  | succ depthBefore hypothesis =>
      intro memory name next index sound affords ran within
      have isOrderly := ensure_isOrderly ⟨before, search⟩ depthBefore
      unfold ensure at ran
      split at ran
      · rename_i index isLoaded
        cases ran
        exact ensure_loaded isLoaded _ depth
      · rename_i missing
        cases depth with
        | zero => exact absurd (affords.pos complete missing) (Nat.lt_irrefl 0)
        | succ depth =>
            unfold ensure
            rw [missing]
            dsimp only
            split at ran
            · exact loadFrom_follows agree complete isOrderly (hypothesis depth) sound affords
                missing ran within
            · rename_i notTop
              have imports := isOrderly memory name.dropLast sound
              rcases Outcome.andThen_eq_ok.1 ran with ⟨middle, packageIndex, imported, ran⟩
              rw [imported] at imports
              have followed (keeps : Keeps middle next) :=
                hypothesis depth memory name.dropLast middle packageIndex sound
                  (affords.around complete notTop) imported (within.of_keeps keeps imports.sound)
              split at ran
              · rename_i index isLoaded
                cases ran
                rw [followed (.refl _), Outcome.andThen_ok, isLoaded]
              · rename_i stillMissing
                have loads := loadFrom_imports isOrderly imports.sound ⟨before, search⟩ stillMissing
                rw [ran] at loads
                rw [followed loads.keeps, Outcome.andThen_ok, stillMissing]
                exact loadFrom_follows agree complete isOrderly (hypothesis depth)
                  imports.sound (affords.of_keeps imports.keeps) stillMissing ran within

/-- A run that succeeds with kept files is the same run on files that agree there. -/
theorem runNameless_follows {search file : Location} (agree : Agree isKept before after)
    (sound : memory.Sound) (kept : isKept file) {frame : Nat}
    (ran : runNameless ⟨before, search⟩ memory file = (next, .ok frame))
    (within : Within isKept next) :
    runNameless ⟨after, search⟩ memory file = (next, .ok frame) := by
  let around : Surroundings := ⟨after, search⟩
  have complete := around.complete
  have isOrderly := ensure_isOrderly ⟨before, search⟩ (Surroundings.depth ⟨before, search⟩)
  have follows : Importer.Follows isKept around.wanted around.depth
      (Surroundings.importer ⟨before, search⟩) around.importer :=
    ensure_follows agree complete _ _
  have sameNameless : nameless after file = nameless before file := by
    simp only [nameless, agree.kept file kept]
  rw [runNameless_eq] at ran ⊢
  rw [agree.kept file kept, sameNameless]
  have soundAdded := sound.addModule (nameless before file)
  have affords := affordsAll_depth around (memory.addModule (nameless before file)).1
    (agree.kept file kept)
  rcases Outcome.andThen_eq_ok.1 ran with ⟨last, done, ranContent, isLast⟩
  have same : last = next := congrArg Prod.fst isLast
  subst same
  have again := runContent_follows isOrderly follows soundAdded affords ranContent within
  exact Outcome.andThen_eq_ok.2 ⟨last, done, again, isLast⟩

end

end CssAuthoring.Project
