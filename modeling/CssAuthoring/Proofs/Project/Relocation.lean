import CssAuthoring.Project.Compile

/-!
# Running in memory that was used before

Stylesheets and modules of former builds stay in memory, so that those of a build have other numbers
than in memory that is empty.  Nothing but the numbers differs: a run behind other memory does what
it does alone, and ends in the same way.

Main statement: `execute_eq`, where no module is loaded, what a build yields does not depend on the
memory.
-/

namespace CssAuthoring

namespace OrderedTable

variable {κ ν μ : Type}

/-- The table with other values at the same keys. -/
def mapValues (change : ν → μ) (table : OrderedTable κ ν) : OrderedTable κ μ :=
  ⟨table.entries.map fun entry => (entry.1, change entry.2)⟩

theorem values_mapValues (change : ν → μ) (table : OrderedTable κ ν) :
    (table.mapValues change).values = table.values.map change := by
  simp [mapValues, values]

variable [DecidableEq κ]

theorem find?_mapValues (change : ν → μ) (table : OrderedTable κ ν) (key : κ) :
    (table.mapValues change).find? key = (table.find? key).map change := by
  simp only [mapValues, find?, List.find?_map, Option.map_map]
  rfl

theorem contains_mapValues (change : ν → μ) (table : OrderedTable κ ν) (key : κ) :
    (table.mapValues change).contains key = table.contains key := by
  simp [contains, find?_mapValues]

theorem insert_mapValues (change : ν → μ) (table : OrderedTable κ ν) (key : κ) (value : ν) :
    (table.mapValues change).insert key (change value) =
      (table.insert key value).mapValues change := by
  rcases table with ⟨entries⟩
  simp only [mapValues, insert, OrderedTable.mk.injEq]
  induction entries with
  | nil => rfl
  | cons entry rest hypothesis =>
      simp only [List.map_cons, insertEntry, hypothesis]
      split <;> rfl

theorem erase_mapValues (change : ν → μ) (table : OrderedTable κ ν) (key : κ) :
    (table.mapValues change).erase key = (table.erase key).mapValues change := by
  simp only [mapValues, erase, List.filter_map]
  rfl

end OrderedTable

namespace Project

/-! ## Memory behind other memory -/

/-- What a name refers to, in memory behind other memory. -/
def Thing.behind (front : Memory) : Thing → Thing
  | .sheet index => .sheet (front.sheets.length + index)
  | .module index => .module (front.modules.length + index)
  | thing => thing

/-- A module in memory behind other memory. -/
def Module.behind (front : Memory) (module : Module) : Module :=
  { module with names := module.names.mapValues (Thing.behind front) }

namespace Memory

variable (front memory : Memory)

/-- Memory behind other memory, of which nothing is loaded. -/
def behind : Memory where
  sheets := front.sheets ++ memory.sheets
  modules := front.modules ++ memory.modules.map (Module.behind front)
  loaded := memory.loaded.mapValues (front.modules.length + ·)

/-- Memory in which nothing is loaded is in front of nothing. -/
theorem behind_empty {memory : Memory} (unloaded : memory.loaded = .empty) :
    memory.behind .empty = memory := by
  rcases memory with ⟨sheets, modules, loaded⟩
  cases unloaded
  simp [behind, Memory.empty, OrderedTable.empty, OrderedTable.mapValues]

theorem behind_unloaded {memory : Memory} (unloaded : memory.loaded = .empty) :
    (front.behind memory).loaded = .empty := by
  rw [behind, unloaded]
  rfl

theorem behind_sheet (index : Nat) :
    (front.behind memory).sheet (front.sheets.length + index) = memory.sheet index := by
  rw [sheet, behind, List.getElem?_append_right (Nat.le_add_right _ _), Nat.add_sub_cancel_left,
    sheet]

theorem behind_withSheet (index : Nat) (sheet : Sheet) :
    (front.behind memory).withSheet (front.sheets.length + index) sheet =
      front.behind (memory.withSheet index sheet) := by
  simp [withSheet, behind]

theorem behind_addSheet :
    (front.behind memory).addSheet =
      (front.behind memory.addSheet.1, front.sheets.length + memory.addSheet.2) := by
  simp [addSheet, behind]

theorem behind_module? (index : Nat) :
    (front.behind memory).module? (front.modules.length + index) =
      (memory.module? index).map (Module.behind front) := by
  rw [module?, behind, List.getElem?_append_right (Nat.le_add_right _ _), Nat.add_sub_cancel_left,
    List.getElem?_map, module?]

theorem behind_names (index : Nat) :
    (front.behind memory).names (front.modules.length + index) =
      (memory.names index).mapValues (Thing.behind front) := by
  rw [names, behind_module?, names]
  cases memory.module? index <;> rfl

/-- A module is changed in the same way behind other memory. -/
theorem behind_modifyModule {change changeBehind : Module → Module}
    (same : ∀ module, changeBehind (Module.behind front module) = (change module).behind front)
    (index : Nat) :
    (front.behind memory).modifyModule (front.modules.length + index) changeBehind =
      front.behind (memory.modifyModule index change) := by
  have mapped (modules : List Module) :
      (modules.map (Module.behind front)).modify index changeBehind =
        (modules.modify index change).map (Module.behind front) := by
    apply List.ext_getElem?
    intro place
    simp only [List.getElem?_modify, List.getElem?_map]
    cases modules[place]? with
    | none => rfl
    | some module => by_cases here : index = place <;> simp [here, same]
  have appended (others : List Module) (back : List Module) :
      (others ++ back).modify (others.length + index) changeBehind =
        others ++ back.modify index changeBehind := by
    induction others with
    | nil => simp
    | cons other others hypothesis =>
        rw [List.cons_append, List.length_cons, Nat.add_right_comm, List.modify_succ_cons,
          hypothesis, List.cons_append]
  simp only [modifyModule, behind, appended, mapped]

theorem behind_bind (frame : Nat) (name : Text) (thing : Thing) :
    (front.behind memory).bind (front.modules.length + frame) name (thing.behind front) =
      front.behind (memory.bind frame name thing) := by
  apply behind_modifyModule
  intro module
  simp only [Module.behind, OrderedTable.insert_mapValues]

theorem behind_unbind (frame : Nat) (name : Text) :
    (front.behind memory).unbind (front.modules.length + frame) name =
      front.behind (memory.unbind frame name) := by
  apply behind_modifyModule
  intro module
  simp only [Module.behind, OrderedTable.erase_mapValues]

theorem behind_addModule (module : Module) :
    (front.behind memory).addModule (module.behind front) =
      (front.behind (memory.addModule module).1,
        front.modules.length + (memory.addModule module).2) := by
  simp [addModule, behind]

theorem behind_find? (name : ModuleName) :
    (front.behind memory).loaded.find? name =
      (memory.loaded.find? name).map (front.modules.length + ·) :=
  OrderedTable.find?_mapValues _ _ _

theorem behind_enter (name : ModuleName) (index : Nat) :
    (front.behind memory).enter name (front.modules.length + index) =
      front.behind (memory.enter name index) := by
  simp only [enter, behind, OrderedTable.insert_mapValues]

theorem behind_evict (name : ModuleName) :
    (front.behind memory).evict name = front.behind (memory.evict name) := by
  simp only [evict, behind, OrderedTable.erase_mapValues]

theorem behind_evictAll (names : List ModuleName) :
    evictAll (front.behind memory) names = front.behind (evictAll memory names) := by
  induction names generalizing memory with
  | nil => rfl
  | cons name names hypothesis =>
      show evictAll ((front.behind memory).evict name) names = _
      rw [behind_evict, hypothesis]
      rfl

theorem typeName_behind (thing : Thing) : typeName (thing.behind front) = typeName thing := by
  cases thing <;> rfl

theorem behind_setting (thing : Thing) :
    (front.behind memory).setting (thing.behind front) = memory.setting thing := by
  cases thing with
  | value | sheetMaker => rfl
  | sheet index => rw [setting, Thing.behind, setting, behind_sheet]
  | module index =>
      simp only [Thing.behind, setting, behind_module?, Option.map_map]
      rfl

theorem behind_textNamed (frame : Nat) (name : Text) :
    (front.behind memory).textNamed (front.modules.length + frame) name =
      memory.textNamed frame name := by
  rw [textNamed, behind_names, OrderedTable.find?_mapValues, textNamed]
  cases (memory.names frame).find? name with
  | none => rfl
  | some thing => cases thing <;> rfl

theorem behind_isNothing (thing : Thing) :
    (front.behind memory).isNothing (thing.behind front) = memory.isNothing thing := by
  cases thing with
  | value setting => cases setting <;> rfl
  | sheet index => rw [Thing.behind, isNothing, behind_sheet, isNothing]
  | module | sheetMaker => rfl

/-- What a module says of its file is the same behind other memory. -/
theorem behind_fileOf (index : Nat) :
    (front.behind memory).fileOf (front.modules.length + index) = memory.fileOf index := by
  rw [fileOf, behind_names, OrderedTable.find?_mapValues, fileOf]
  cases (memory.names index).find? fileName with
  | none => rfl
  | some thing =>
      dsimp only [Option.map_some]
      rw [behind_isNothing]
      cases thing <;> rfl

end Memory

/-! ## Runs behind other memory -/

/-- What a run does behind other memory, with a change of what it yields. -/
def Ran.behind {α β : Type} (front : Memory) (change : α → β) (ran : Ran α) : Ran β :=
  (front.behind ran.1, ran.2.map change)

/-- An importer does behind other memory what another one does. -/
def Importer.IsBehind (front : Memory) (importerBehind importer : Importer) : Prop :=
  ∀ memory name, importerBehind (front.behind memory) name =
    (importer memory name).behind front (front.modules.length + ·)

section

variable {front : Memory} {α β γ δ : Type}

theorem Ran.behind_andThen {change : α → β} {changeNext : γ → δ} {first : Ran α}
    {firstBehind : Ran β} (same : firstBehind = first.behind front change)
    {next : Memory → α → Ran γ} {nextBehind : Memory → β → Ran δ}
    (sameNext : ∀ memory value, nextBehind (front.behind memory) (change value) =
      (next memory value).behind front changeNext) :
    firstBehind.andThen nextBehind = Ran.behind front changeNext (first.andThen next) := by
  subst same
  rcases first with ⟨memory, outcome⟩
  cases outcome with
  | error fault => rfl
  | ok value => exact sameNext memory value

theorem look_behind {memory : Memory} {change : α → β} {result : Except Fault α}
    {resultBehind : Except Fault β} (same : resultBehind = result.map change) :
    look (front.behind memory) resultBehind = Ran.behind front change (look memory result) := by
  rw [same]
  rfl

theorem lookUp_behind (memory : Memory) (frame : Nat) (name : Text) :
    lookUp (front.behind memory) (front.modules.length + frame) name =
      (lookUp memory frame name).map (Thing.behind front) := by
  rw [lookUp, Memory.behind_names, OrderedTable.find?_mapValues, lookUp]
  cases (memory.names frame).find? name <;> rfl

theorem evaluate_behind (memory : Memory) (frame : Nat) (operand : Operand) :
    evaluate (front.behind memory) (front.modules.length + frame) operand =
      (evaluate memory frame operand).map (Thing.behind front) := by
  cases operand with
  | setting value => rfl
  | name name => exact lookUp_behind memory frame name

theorem lacking_behind (memory : Memory) (index : Nat) (wanted : Text) :
    lacking (front.behind memory) (front.modules.length + index) wanted =
      lacking memory index wanted := by
  rw [lacking, Memory.behind_textNamed, Memory.behind_module?, Option.map_map, lacking]
  rfl

theorem sheetNamed_behind (memory : Memory) (frame : Nat) (name ability : Text) :
    sheetNamed (front.behind memory) (front.modules.length + frame) name ability =
      (sheetNamed memory frame name ability).map (front.sheets.length + ·) := by
  rw [sheetNamed, lookUp_behind, sheetNamed]
  cases lookUp memory frame name with
  | error fault => rfl
  | ok thing =>
      cases thing with
      | value | sheet | sheetMaker => rfl
      | module index => exact congrArg Except.error (lacking_behind memory index ability)

theorem performNewSheet_behind (memory : Memory) (frame : Nat) (name : Text) :
    performNewSheet (front.behind memory) (front.modules.length + frame) name =
      (performNewSheet memory frame name).behind front id := by
  refine Ran.behind_andThen (look_behind (lookUp_behind memory frame _)) ?_
  intro memory maker
  have isMaker : maker.behind front = .sheetMaker ↔ maker = .sheetMaker := by
    cases maker <;> simp [Thing.behind]
  simp only [isMaker]
  split
  · rw [Memory.behind_addSheet]
    exact congrArg (·, _) (Memory.behind_bind front _ frame name (.sheet _))
  · rw [Memory.typeName_behind]
    rfl

/-- Operands refer to the same settings behind other memory. -/
theorem operands_behind (memory : Memory) (frame : Nat) (properties : List (Text × Operand)) :
    (properties.mapM fun (property, operand) =>
        (evaluate (front.behind memory) (front.modules.length + frame) operand).map (property, ·)) =
      (properties.mapM fun (property, operand) =>
          (evaluate memory frame operand).map (property, ·) :
        Except Fault (List (Text × Thing))).map
          (List.map fun setting => (setting.1, Thing.behind front setting.2)) := by
  induction properties with
  | nil => rfl
  | cons first rest hypothesis =>
      rcases first with ⟨property, operand⟩
      rw [List.mapM_cons, List.mapM_cons, hypothesis]
      dsimp only
      rw [evaluate_behind]
      cases evaluate memory frame operand with
      | error fault => rfl
      | ok thing =>
          cases (rest.mapM fun (property, operand) =>
              (evaluate memory frame operand).map (property, ·) :
            Except Fault (List (Text × Thing))) <;> rfl

theorem settings_behind (memory : Memory) (things : List (Text × Thing)) :
    (things.map fun setting => (setting.1, Thing.behind front setting.2)).map
        (fun (property, thing) => (property, (front.behind memory).setting thing)) =
      things.map fun (property, thing) => (property, memory.setting thing) := by
  rw [List.map_map]
  apply List.map_congr_left
  rintro ⟨property, thing⟩ _
  exact congrArg (property, ·) (Memory.behind_setting front memory thing)

theorem performStyle_behind (memory : Memory) (frame : Nat) (name : Text)
    (selectors : List Text) (properties : List (Text × Operand)) :
    performStyle (front.behind memory) (front.modules.length + frame) name selectors properties =
      (performStyle memory frame name selectors properties).behind front id := by
  have unchanged {α : Type} (result : Except Fault α) : result = result.map id := by
    cases result <;> rfl
  refine Ran.behind_andThen (look_behind (sheetNamed_behind memory frame name _)) ?_
  intro memory index
  refine Ran.behind_andThen (look_behind (unchanged _)) ?_
  intro memory builder
  refine Ran.behind_andThen (look_behind (operands_behind memory frame properties)) ?_
  intro memory things
  dsimp only
  rw [Memory.behind_sheet, id_eq]
  rcases (memory.sheet index).rule builder.selector builder.scopes with ⟨sheet, placed⟩
  dsimp only
  rw [Memory.behind_withSheet]
  cases placed with
  | error failure => rfl
  | ok handle =>
      dsimp only
      rw [settings_behind, Memory.behind_withSheet]
      cases (sheet.declare handle _).2 <;> rfl

theorem performDelete_behind (memory : Memory) (frame : Nat) (name : Text) :
    performDelete (front.behind memory) (front.modules.length + frame) name =
      (performDelete memory frame name).behind front id := by
  refine Ran.behind_andThen (look_behind (lookUp_behind memory frame name)) ?_
  intro memory thing
  exact congrArg (·, _) (Memory.behind_unbind front memory frame name)

section

variable {importerBehind importer : Importer}

theorem performUseModule_behind (isBehind : Importer.IsBehind front importerBehind importer)
    (memory : Memory) (frame : Nat) (module : ModuleName) :
    performUseModule importerBehind (front.behind memory) (front.modules.length + frame) module =
      (performUseModule importer memory frame module).behind front id := by
  refine Ran.behind_andThen (isBehind memory module) ?_
  intro memory index
  dsimp only
  rw [Memory.behind_find?]
  cases memory.loaded.find? (module.take 1) with
  | none => exact congrArg (·, _) (Memory.behind_bind front memory frame _ (.module index))
  | some outermost =>
      exact congrArg (·, _) (Memory.behind_bind front memory frame _ (.module outermost))

theorem importInside_behind (isBehind : Importer.IsBehind front importerBehind importer)
    (memory : Memory) (module : ModuleName) :
    importInside importerBehind (front.behind memory) module =
      (importInside importer memory module).behind front id := by
  rw [importInside, isBehind, importInside]
  rcases importer memory module with ⟨next, outcome⟩
  cases outcome with
  | ok index => rfl
  | error fault =>
      cases fault with
      | moduleNotFound missing parent =>
          simp only [Ran.behind, Except.map]
          split <;> rfl
      | _ => rfl

theorem member_behind (memory : Memory) (module : Module) (index : Nat) (name : Text) :
    member (front.behind memory) (module.behind front) (front.modules.length + index) name =
      (member memory module index name).map (Thing.behind front) := by
  have sameName : (module.behind front).name = module.name := rfl
  rw [member, Memory.behind_names, OrderedTable.find?_mapValues, sameName, Memory.behind_find?,
    Memory.behind_textNamed, Memory.behind_textNamed, member]
  cases (memory.names index).find? name with
  | some thing => rfl
  | none => cases memory.loaded.find? (module.name ++ [name]) <;> rfl

theorem performUseName_behind (isBehind : Importer.IsBehind front importerBehind importer)
    (memory : Memory) (frame : Nat) (module : ModuleName) (name : Text) :
    performUseName importerBehind (front.behind memory) (front.modules.length + frame) module name =
      (performUseName importer memory frame module name).behind front id := by
  refine Ran.behind_andThen (isBehind memory module) ?_
  intro memory index
  rw [Memory.behind_module?]
  cases memory.module? index with
  | none => rfl
  | some found =>
      have sameContains := OrderedTable.contains_mapValues (Thing.behind front)
        (memory.names index) name
      rw [← Memory.behind_names] at sameContains
      have inside :
          (if ((front.behind memory).names (front.modules.length + index)).contains name ||
              (found.behind front).package = .none then (front.behind memory, .ok ())
            else importInside importerBehind (front.behind memory)
              ((found.behind front).name ++ [name]) : Ran Unit) =
            Ran.behind front id
              (if (memory.names index).contains name || found.package = .none then (memory, .ok ())
                else importInside importer memory (found.name ++ [name])) := by
        have samePackage : (found.behind front).package = found.package := rfl
        have sameName : (found.behind front).name = found.name := rfl
        simp only [sameContains, samePackage, sameName]
        split
        · rfl
        · exact importInside_behind isBehind memory _
      refine Ran.behind_andThen inside ?_
      intro memory _
      refine Ran.behind_andThen (look_behind (member_behind memory found index name)) ?_
      intro memory thing
      exact congrArg (·, _) (Memory.behind_bind front memory frame name thing)

/-- A statement does behind other memory what it does alone. -/
theorem perform_behind (isBehind : Importer.IsBehind front importerBehind importer) (frame : Nat)
    (memory : Memory) (statement : Statement) :
    perform importerBehind (front.modules.length + frame) (front.behind memory) statement =
      (perform importer frame memory statement).behind front id := by
  cases statement with
  | newSheet name => exact performNewSheet_behind memory frame name
  | style sheet selectors properties =>
      exact performStyle_behind memory frame sheet selectors properties
  | clear name =>
      unfold perform
      refine Ran.behind_andThen (look_behind (sheetNamed_behind memory frame name _)) ?_
      intro memory index
      rw [Memory.behind_sheet, Memory.behind_withSheet]
      rfl
  | assign name operand =>
      unfold perform
      refine Ran.behind_andThen (look_behind (evaluate_behind memory frame operand)) ?_
      intro memory thing
      rw [Memory.behind_bind]
      rfl
  | delete name => exact performDelete_behind memory frame name
  | useModule module => exact performUseModule_behind isBehind memory frame module
  | useName module name => exact performUseName_behind isBehind memory frame module name
  | fail message | exit message => rfl

theorem performAll_behind (isBehind : Importer.IsBehind front importerBehind importer)
    (frame : Nat) (memory : Memory) (statements : List Statement) :
    performAll importerBehind (front.modules.length + frame) (front.behind memory) statements =
      (performAll importer frame memory statements).behind front id := by
  induction statements generalizing memory with
  | nil => rfl
  | cons statement rest hypothesis =>
      refine Ran.behind_andThen (perform_behind isBehind frame memory statement) ?_
      exact fun memory _ => hypothesis memory

theorem runContent_behind (isBehind : Importer.IsBehind front importerBehind importer)
    (frame : Nat) (memory : Memory) (file : Location) (content : Content) :
    runContent importerBehind (front.modules.length + frame) (front.behind memory) file content =
      (runContent importer frame memory file content).behind front id := by
  cases content with
  | script statements => exact performAll_behind isBehind frame memory statements
  | text text =>
      rw [runContent, runContent]
      split <;> rfl
  | directory => rfl

/-- No name of a module refers to a stylesheet or module at its start. -/
theorem firstNames_behind (called package : Text) (file : Option Location) (content : Content) :
    (firstNames called package file content).mapValues (Thing.behind front) =
      firstNames called package file content := by
  cases file <;> cases content <;> rfl

theorem module_behind (source : Source) (files : Files) (name : ModuleName) :
    (source.module files name).behind front = source.module files name := by
  rw [Source.module, Module.behind, firstNames_behind]

theorem nameless_behind (files : Files) (file : Location) :
    (nameless files file).behind front = nameless files file := by
  rw [nameless, Module.behind, firstNames_behind]

theorem runModule_behind (isBehind : Importer.IsBehind front importerBehind importer)
    (files : Files) (memory : Memory) (name : ModuleName) (source : Source) :
    runModule importerBehind files (front.behind memory) name source =
      (runModule importer files memory name source).behind front (front.modules.length + ·) := by
  have finish (memory : Memory) (index : Nat) :
      (front.behind memory).modifyModule (front.modules.length + index)
          (fun module => { module with loading := false }) =
        front.behind
          (memory.modifyModule index fun module => { module with loading := false }) := by
    apply Memory.behind_modifyModule
    exact fun _ => rfl
  have added := Memory.behind_addModule front memory (source.module files name)
  rw [module_behind] at added
  unfold runModule
  dsimp only
  rw [added]
  dsimp only
  rw [Memory.behind_enter, runContent_behind isBehind]
  generalize runContent importer _ _ _ _ = ran
  rcases ran with ⟨next, outcome⟩
  cases outcome with
  | error fault =>
      dsimp only [Ran.behind, Except.map]
      rw [finish, Memory.behind_evict]
  | ok done =>
      dsimp only [Ran.behind, Except.map]
      rw [finish]

theorem attach_behind (memory : Memory) (name : ModuleName) (index : Nat) :
    attach (front.behind memory) name (front.modules.length + index) =
      front.behind (attach memory name index) := by
  rw [attach, Memory.behind_find?, attach]
  cases name.getLast? with
  | none => rfl
  | some last =>
      cases memory.loaded.find? name.dropLast with
      | none => rfl
      | some parent => exact Memory.behind_bind front memory parent last (.module index)

theorem directoryOf_behind (files : Files) (search : Location) (memory : Memory)
    (parts : List Text) :
    directoryOf files search (front.behind memory) parts =
      (front.behind (directoryOf files search memory parts).1,
        (directoryOf files search memory parts).2) := by
  induction parts with
  | nil => rfl
  | cons last outer hypothesis =>
      unfold directoryOf
      dsimp only
      rw [Memory.behind_find?]
      cases memory.loaded.find? (last :: outer).reverse with
      | none => rfl
      | some index =>
          dsimp only [Option.map_some, Option.bind_some]
          rw [Memory.behind_module?]
          cases memory.module? index with
          | none => rfl
          | some module =>
              have samePackage : (module.behind front).package = module.package := rfl
              dsimp only [Option.map_some]
              rw [samePackage]
              cases module.package with
              | none => rfl
              | regular directory => rfl
              | bare known =>
                  dsimp only
                  rw [hypothesis]
                  rcases directoryOf files search memory outer with ⟨found, around⟩
                  dsimp only
                  cases around.bind fun directory => locate files directory last with
                  | none => rfl
                  | some source =>
                      cases source with
                      | bare place =>
                          refine congrArg (·, some place) ?_
                          apply Memory.behind_modifyModule
                          exact fun _ => rfl
                      | plain | package => rfl

theorem loadFrom_behind (isBehind : Importer.IsBehind front importerBehind importer)
    (around : Surroundings) (memory : Memory) (name : ModuleName) :
    loadFrom importerBehind around (front.behind memory) name =
      (loadFrom importer around memory name).behind front (front.modules.length + ·) := by
  unfold loadFrom
  dsimp only
  rw [directoryOf_behind]
  rcases directoryOf around.files around.search memory name.dropLast.reverse with
    ⟨found, directory?⟩
  cases directory? with
  | none => rfl
  | some directory =>
      dsimp only
      cases locate around.files directory (name.getLast?.getD []) with
      | none => rfl
      | some source =>
          refine Ran.behind_andThen (runModule_behind isBehind around.files found name source) ?_
          intro memory index
          rw [attach_behind]
          rfl

theorem ensure_behind (around : Surroundings) (depth : Nat) :
    Importer.IsBehind front (ensure around depth) (ensure around depth) := by
  induction depth with
  | zero =>
      intro memory name
      rw [ensure, Memory.behind_find?, ensure]
      cases memory.loaded.find? name <;> rfl
  | succ depth hypothesis =>
      intro memory name
      rw [ensure, Memory.behind_find?, ensure]
      cases memory.loaded.find? name with
      | some index => rfl
      | none =>
          dsimp only [Option.map_none]
          cases name.dropLast with
          | nil => exact loadFrom_behind hypothesis around memory name
          | cons first rest =>
              refine Ran.behind_andThen (hypothesis memory (first :: rest)) ?_
              intro memory _
              rw [Memory.behind_find?]
              cases memory.loaded.find? name with
              | some index => rfl
              | none => exact loadFrom_behind hypothesis around memory name

end

theorem runNameless_behind (around : Surroundings) (memory : Memory) (file : Location) :
    runNameless around (front.behind memory) file =
      (runNameless around memory file).behind front (front.modules.length + ·) := by
  have added := Memory.behind_addModule front memory (nameless around.files file)
  rw [nameless_behind] at added
  unfold runNameless
  dsimp only
  rw [added]
  exact Ran.behind_andThen (runContent_behind (ensure_behind around _) _ _ file _) fun _ _ => rfl

end

/-! ## Builds behind other memory -/

theorem eraseDups_map_add (offset : Nat) (indices : List Nat) :
    (indices.map (offset + ·)).eraseDups = indices.eraseDups.map (offset + ·) := by
  match indices with
  | [] => rfl
  | index :: rest =>
      have others : (rest.map (offset + ·)).filter (fun other => !other == offset + index) =
          (rest.filter fun other => !other == index).map (offset + ·) := by
        rw [List.filter_map]
        congr 2
        funext other
        rw [Function.comp_apply, Bool.not_inj_iff, Bool.eq_iff_iff, beq_iff_eq, beq_iff_eq]
        exact Nat.add_left_cancel_iff
      rw [List.map_cons, List.eraseDups_cons, others, List.eraseDups_cons, List.map_cons,
        eraseDups_map_add offset (rest.filter fun other => !other == index)]
termination_by indices.length
decreasing_by
  have := List.length_filter_le (fun other => !other == index) rest
  simp only [List.length_cons]
  omega

/-- The number of the stylesheet that a name refers to, if it refers to one. -/
def Thing.sheet? : Thing → Option Nat
  | .sheet index => some index
  | _ => none

theorem sheetsOf_behind (front memory : Memory) (frame : Nat) :
    (front.behind memory).sheetsOf (front.modules.length + frame) = memory.sheetsOf frame := by
  have indices (things : List Thing) :
      (things.map (Thing.behind front)).filterMap Thing.sheet? =
        (things.filterMap Thing.sheet?).map (front.sheets.length + ·) := by
    rw [List.filterMap_map, List.map_filterMap]
    congr 1
    funext thing
    cases thing <;> rfl
  unfold Memory.sheetsOf
  dsimp only
  rw [Memory.behind_names, OrderedTable.values_mapValues]
  change List.map _ (List.filterMap Thing.sheet? _).eraseDups =
    List.map _ (List.filterMap Thing.sheet? _).eraseDups
  rw [indices, eraseDups_map_add, List.map_map]
  apply List.map_congr_left
  exact fun index _ => Memory.behind_sheet front memory index

/-- The same modules are loaded since, with other numbers. -/
theorem freshModules_behind (front before after : Memory) :
    freshModules (front.behind before) (front.behind after) =
      (freshModules before after).map fun entry => (entry.1, front.modules.length + entry.2) := by
  have loaded (name : ModuleName) :
      (front.behind before).loaded.contains name = before.loaded.contains name :=
    OrderedTable.contains_mapValues _ _ _
  simp only [freshModules, loaded]
  exact List.filter_map

theorem misfiled?_behind (front before after : Memory) :
    misfiled? (front.behind before) (front.behind after) = misfiled? before after := by
  rw [misfiled?, freshModules_behind, List.findSome?_map, misfiled?]
  congr 1
  funext entry
  rw [Function.comp_apply, Memory.behind_fileOf]

theorem loadedSince_behind (front before after : Memory) (root : Location) :
    loadedSince (front.behind before) (front.behind after) root =
      loadedSince before after root := by
  rw [loadedSince, freshModules_behind, List.filterMap_map, loadedSince]
  congr 1
  funext entry
  rw [Function.comp_apply, Memory.behind_fileOf]

/-- A build behind other memory yields what it yields alone. -/
theorem execute_behind (files : Files) (front memory : Memory) (options : BuildOptions) :
    execute ⟨files, front.behind memory⟩ options =
      (⟨files, front.behind (execute ⟨files, memory⟩ options).1.memory⟩,
        (execute ⟨files, memory⟩ options).2) := by
  unfold execute
  dsimp only
  rw [runNameless_behind]
  rcases runNameless ⟨files, options.input.resolve.parent⟩ memory options.input.resolve with
    ⟨after, ran⟩
  dsimp only [Ran.behind]
  rw [misfiled?_behind]
  cases misfiled? memory after with
  | some type => rfl
  | none =>
      dsimp only
      rw [loadedSince_behind, Memory.behind_evictAll]
      cases ran with
      | error cause => rfl
      | ok frame =>
          dsimp only [Except.map]
          rw [sheetsOf_behind]

/-- Where no module is loaded, a build yields what it yields in empty memory. -/
theorem execute_eq {project : Project} (unloaded : project.memory.loaded = .empty)
    (options : BuildOptions) :
    project.execute options =
      (⟨project.files,
          project.memory.behind (execute ⟨project.files, .empty⟩ options).1.memory⟩,
        (execute ⟨project.files, .empty⟩ options).2) := by
  rcases project with ⟨files, memory⟩
  have same := execute_behind files memory .empty options
  rwa [Memory.behind_empty unloaded] at same

end Project

end CssAuthoring
