import CssAuthoring.Proofs.Sheet.Growth

/-!
# Calls append

Apart from clearing, a call only puts nodes behind others, also where it fails.  Every node stays
where it is, with its kind, keyword and prelude, and what a container held stays at its front.

What a call does to declarations is the sum of its attempts to declare properties somewhere.  An
attempt ends with the last property or with the first that fails, or right away if what it is made
in has no block; only the last attempt of a call can fail, and the call fails with it.
-/

namespace CssAuthoring

namespace Sheet

open CssAuthoring.Component

/-! ## Attempts -/

/-- Whether a property makes a declaration, or none because it is missing. -/
def isMade (property : Text × Setting) : Bool :=
  (declarationOf property.1 property.2).isOk

/-- The declaration that a property makes, if it makes one. -/
def made (property : Text × Setting) : List Declaration :=
  (declarationOf property.1 property.2).toOption.join.toList

/-- Properties that are to be declared in a rule or block. -/
structure Attempt where
  handle : Handle
  properties : Properties
  deriving Repr

namespace Attempt

/-- The declarations of the properties before the first that fails, in order. -/
def declared (attempt : Attempt) : List Declaration :=
  (attempt.properties.entries.takeWhile isMade).flatMap made

/-- No property fails. -/
def Complete (attempt : Attempt) : Prop :=
  ∀ property ∈ attempt.properties.entries, isMade property = true

/-- The properties up to one that fails do not. -/
def BreaksWith (attempt : Attempt) (failure : Failure) : Prop :=
  ∃ front name setting back, attempt.properties.entries = front ++ (name, setting) :: back ∧
    (∀ property ∈ front, isMade property = true) ∧ declarationOf name setting = .error failure

end Attempt

/-- The attempt to declare properties in what was placed, if it was. -/
def attempt (placed : Edited Handle) (properties : Properties) : List Attempt :=
  match placed.2 with
  | .ok handle => [⟨handle, properties⟩]
  | .error _ => []

/-- The rule of a frame of an animation, which is appended if it is not there. -/
def frameRule (sheet : Sheet) (name selector : Text) : Edited Handle :=
  sheet.edit (reach [⟨keyframesKeyword, name⟩] (placeRule (Text.collapse selector)))

/-- The attempts for the frames of an animation, up to the first frame that fails. -/
def frameAttempts (name : Text) : Sheet → List (Text × Properties) → List Attempt
  | _, [] => []
  | sheet, (selector, properties) :: rest =>
    attempt (sheet.frameRule name selector) properties ++
      match sheet.frame name selector properties with
      | (sheet, .ok _) => frameAttempts name sheet rest
      | (_, .error _) => []

/-- The attempts that a call makes, one after the other. -/
def Call.attempts (sheet : Sheet) : Call → List Attempt
  | .style builder properties =>
    attempt (sheet.rule builder.selector builder.scopes) properties
  | .declare handle properties => [⟨handle, properties⟩]
  | .atRule scope properties => attempt (sheet.block scope) properties
  | .keyframes name animation =>
    match sheet.block ⟨keyframesKeyword, name⟩ with
    | (sheet, .ok _) => frameAttempts name sheet animation.entries
    | (_, .error _) => []
  | _ => []

/-- The declarations that attempts make in a rule or block, in order. -/
def gained (attempts : List Attempt) (handle : Handle) : List Declaration :=
  attempts.flatMap fun attempt => if attempt.handle = handle then attempt.declared else []

/-- Why a change failed. -/
def failure? {α : Type} (edited : Edited α) : Option Failure :=
  match edited.2 with
  | .ok _ => none
  | .error failure => some failure

/-- Why a call fails. -/
def Call.failure? (sheet : Sheet) : Call → Option Failure
  | .style builder properties => Sheet.failure? (builder.style sheet properties)
  | .rule selector scopes => Sheet.failure? (sheet.rule selector scopes)
  | .declare handle properties => Sheet.failure? (sheet.declare handle properties)
  | .atRule scope properties => Sheet.failure? (sheet.atRule scope properties)
  | .statement scope => Sheet.failure? (sheet.statement scope)
  | .keyframes name animation => Sheet.failure? (sheet.keyframes name animation)
  | .clear => none

/-- Whether a failure is the refusal of a node without a block. -/
def Failure.isRefusal : Failure → Bool
  | noBlock _ => true
  | _ => false

/-- How attempts end: all are complete, or the last one breaks and the call with it. -/
inductive Ends (sheet : Sheet) : List Attempt → Option Failure → Prop where
  | done {attempts : List Attempt} (complete : ∀ attempt ∈ attempts, attempt.Complete) :
      Ends sheet attempts none
  /-- What fails is not a property: a selector, a prelude or a number in one of them. -/
  | outside {attempts : List Attempt} (complete : ∀ attempt ∈ attempts, attempt.Complete)
      {failure : Failure} (isOther : failure.isRefusal = false) :
      Ends sheet attempts (some failure)
  | inside {attempts : List Attempt} {last : Attempt} {failure : Failure}
      (complete : ∀ attempt ∈ attempts, attempt.Complete) (breaks : last.BreaksWith failure) :
      Ends sheet (attempts ++ [last]) (some failure)
  /-- The first declaration is refused by a node that has no block. -/
  | refused {attempts : List Attempt} {last : Attempt} {node : Node} {message : Text}
      (complete : ∀ attempt ∈ attempts, attempt.Complete) (declares : last.declared ≠ [])
      (there : sheet.node? last.handle = some node) (refuses : node.refusal = some message) :
      Ends sheet (attempts ++ [last]) (some (.noBlock message))

/-- What attempts to declare properties append are the declarations before the first failure. -/
theorem declarations_eq (entries : List (Text × Setting)) :
    (declarations entries).1 = (entries.takeWhile isMade).flatMap made := by
  induction entries with
  | nil => rfl
  | cons property rest hypothesis =>
      rcases property with ⟨name, setting⟩
      cases outcome : declarationOf name setting with
      | error failure => simp [declarations, isMade, outcome, Except.isOk, Except.toBool]
      | ok declaration =>
          simp [declarations, isMade, made, outcome, hypothesis, Except.isOk, Except.toBool,
            Except.toOption]

theorem isMade_of_declarations {entries : List (Text × Setting)}
    (complete : (declarations entries).2 = none) :
    ∀ property ∈ entries, isMade property = true := by
  induction entries with
  | nil => simp
  | cons first rest hypothesis =>
      rcases first with ⟨name, setting⟩
      cases outcome : declarationOf name setting with
      | error failure => simp [declarations, outcome] at complete
      | ok declaration =>
          simp only [declarations, outcome] at complete
          intro property member
          rcases List.mem_cons.1 member with rfl | later
          · simp [isMade, outcome, Except.isOk, Except.toBool]
          · exact hypothesis complete property later

theorem exists_of_declarations {entries : List (Text × Setting)} {failure : Failure}
    (broken : (declarations entries).2 = some failure) :
    ∃ front name setting back, entries = front ++ (name, setting) :: back ∧
      (∀ property ∈ front, isMade property = true) ∧
        declarationOf name setting = .error failure := by
  induction entries with
  | nil => cases broken
  | cons first rest hypothesis =>
      rcases first with ⟨name, setting⟩
      cases outcome : declarationOf name setting with
      | error cause =>
          simp only [declarations, outcome] at broken
          cases broken
          exact ⟨[], name, setting, rest, rfl, by simp, outcome⟩
      | ok declaration =>
          simp only [declarations, outcome] at broken
          rcases hypothesis broken with ⟨front, other, otherSetting, back, rfl, areMade, fails⟩
          refine ⟨(name, setting) :: front, other, otherSetting, back, rfl, ?_, fails⟩
          intro property member
          rcases List.mem_cons.1 member with rfl | later
          · simp [isMade, outcome, Except.isOk, Except.toBool]
          · exact areMade property later

theorem node?_of_refusal {sheet : Sheet} {handle : Handle} {declared : List Declaration}
    {failure : Failure} (refused : sheet.refusal handle declared = some failure) :
    declared ≠ [] ∧ ∃ node message, sheet.node? handle = some node ∧ node.refusal = some message ∧
      failure = .noBlock message := by
  unfold Sheet.refusal at refused
  split at refused
  · cases refused
  · rename_i some
    rcases Option.map_eq_some_iff.1 refused with ⟨message, found, rfl⟩
    rcases Option.bind_eq_some_iff.1 found with ⟨node, there, refuses⟩
    exact ⟨by simpa using some, node, message, there, refuses, rfl⟩

/-- One attempt is complete, or it breaks or is refused, and declaring fails with it. -/
theorem ends_declare (sheet : Sheet) {later : Sheet} (handle : Handle) (properties : Properties)
    (stays : ∀ node message, sheet.node? handle = some node → node.refusal = some message →
      later.node? handle = some node) :
    Ends later [⟨handle, properties⟩] (failure? (sheet.declare handle properties)) := by
  have isFirst : ∀ attempt ∈ ([] : List Attempt), attempt.Complete := by simp
  unfold failure? declare
  dsimp only
  cases refused : sheet.refusal handle (declarations properties.entries).1 with
  | some failure =>
      rcases node?_of_refusal refused with ⟨some, node, message, there, refuses, rfl⟩
      rw [declarations_eq] at some
      exact .refused isFirst some (stays node message there refuses) refuses
  | none =>
      cases outcome : (declarations properties.entries).2 with
      | none =>
          apply Ends.done
          intro attempt member
          rw [List.mem_singleton.1 member]
          exact isMade_of_declarations outcome
      | some failure => exact .inside isFirst (exists_of_declarations outcome)

/-- Attempts go on only after complete ones. -/
theorem Ends.append {sheet later : Sheet} {first second : List Attempt} {failure : Option Failure}
    (complete : Ends sheet first none) (ends : Ends later second failure) :
    Ends later (first ++ second) failure := by
  rcases complete with ⟨complete⟩
  have both {attempts : List Attempt} (rest : ∀ attempt ∈ attempts, attempt.Complete) :
      ∀ attempt ∈ first ++ attempts, attempt.Complete := by
    intro attempt member
    rcases List.mem_append.1 member with isFirst | isLater
    · exact complete attempt isFirst
    · exact rest attempt isLater
  cases ends with
  | done rest => exact .done (both rest)
  | outside rest isOther => exact .outside (both rest) isOther
  | inside rest breaks =>
      rw [← List.append_assoc]
      exact .inside (both rest) breaks
  | refused rest declares there refuses =>
      rw [← List.append_assoc]
      exact .refused (both rest) declares there refuses

theorem gained_append (first second : List Attempt) (handle : Handle) :
    gained (first ++ second) handle = gained first handle ++ gained second handle :=
  List.flatMap_append

theorem gained_single (attempt : Attempt) :
    gained [attempt] = only attempt.handle attempt.declared := by
  funext handle
  simp [gained, only]

theorem only_handle (handle : Handle) (declared : List Declaration) (era : Nat)
    (path : List Nat) :
    only handle declared ⟨era, path⟩ =
      if handle.era = era then only handle.path declared path else [] := by
  rcases handle with ⟨handleEra, handlePath⟩
  by_cases sameEra : handleEra = era <;> simp [only, sameEra]

/-! ## Stylesheets that grow -/

/-- The forests of a stylesheet grow, and rules and blocks in them gain declarations. -/
structure Grown (gain : Handle → List Declaration) (sheet later : Sheet) : Prop where
  eras : later.cleared.length = sheet.cleared.length
  stays : ∀ era, Extends (sheet.forest era) (later.forest era)
  gains : ∀ era, Gains (fun path => gain ⟨era, path⟩) (sheet.forest era) (later.forest era)

/-- A change makes attempts, and does nothing else to declarations. -/
structure Accounts {α : Type} (attempts : List Attempt) (sheet : Sheet) (edited : Edited α) :
    Prop where
  grown : Grown (gained attempts) sheet edited.1
  targets : ∀ attempt ∈ attempts, ∃ node, edited.1.node? attempt.handle = some node
  ends : Ends edited.1 attempts (failure? edited)

/-- A change places nodes only, and leads to a rule or block. -/
structure Places (sheet : Sheet) (placed : Edited Handle) : Prop where
  accounts : Accounts [] sheet placed
  block : ∀ handle, placed.2 = .ok handle →
    ∃ node, placed.1.node? handle = some node ∧ node.hasBlock = true

section

variable {sheet : Sheet}

theorem Grown.refl (sheet : Sheet) : Grown nothing sheet sheet :=
  ⟨rfl, fun _ => .refl _, fun _ => gains_refl _⟩

theorem Grown.node? {gain : Handle → List Declaration} {later : Sheet}
    (grown : Grown gain sheet later) {handle : Handle} {node : Node}
    (there : sheet.node? handle = some node) : ∃ found, later.node? handle = some found := by
  rcases (grown.stays handle.era).inside handle.path node there with ⟨content, isThere, _⟩
  exact ⟨_, isThere⟩

/-- A change that goes on after another one makes its attempts behind those of the other. -/
theorem Accounts.trans {α β : Type} {first second : List Attempt} {middle : Sheet} {value : α}
    {edited : Edited β} (former : Accounts first sheet (middle, (.ok value : Except Failure α)))
    (latter : Accounts second middle edited) : Accounts (first ++ second) sheet edited := by
  constructor
  · constructor
    · exact latter.grown.eras.trans former.grown.eras
    · exact fun era => (former.grown.stays era).trans (latter.grown.stays era)
    · intro era path
      dsimp only
      rw [gained_append]
      exact ((former.grown.gains era).trans (latter.grown.gains era)) path
  · intro attempt member
    rcases List.mem_append.1 member with isFirst | isSecond
    · rcases former.targets attempt isFirst with ⟨node, there⟩
      exact latter.grown.node? there
    · exact latter.targets attempt isSecond
  · exact former.ends.append latter.ends

/-- Another value in place of that of a change makes no difference. -/
theorem Accounts.map {α β : Type} {attempts : List Attempt} {edited : Edited α}
    (accounts : Accounts attempts sheet edited) (value : β) :
    Accounts attempts sheet (edited.andThen fun sheet _ => (sheet, .ok value)) := by
  rcases edited with ⟨later, outcome⟩
  cases outcome with
  | error failure => exact ⟨accounts.grown, accounts.targets, accounts.ends⟩
  | ok found => exact ⟨accounts.grown, accounts.targets, accounts.ends⟩

theorem error_of_map {ε α β : Type} {change : α → β} {outcome : Except ε α} {failure : ε}
    (failed : outcome.map change = .error failure) : outcome = .error failure := by
  cases outcome with
  | error cause => exact congrArg Except.error (Except.error.inj failed)
  | ok value => cases failed

theorem era_le_of_node? {handle : Handle} {node : Node} (there : sheet.node? handle = some node) :
    handle.era ≤ sheet.cleared.length := by
  apply Nat.le_of_not_lt
  intro beyond
  have missing : sheet.forest handle.era = [] := by
    rw [forest, if_neg (by omega), List.getElem?_eq_none (by omega)]
    rfl
  rw [Sheet.node?, missing, nodeAt?_nil] at there
  cases there

theorem cleared_withForest (era : Nat) (nodes : List Node) :
    (sheet.withForest era nodes).cleared.length = sheet.cleared.length := by
  unfold withForest
  split
  · rfl
  · exact List.length_set

theorem forest_withForest_of_ne {era other : Nat} (different : era ≠ other) (nodes : List Node) :
    (sheet.withForest era nodes).forest other = sheet.forest other := by
  unfold withForest
  split
  · rename_i now
    simp [forest, now ▸ different.symm]
  · simp [forest, different]

/-- Declaring in a node that is there leaves all nodes where they are. -/
theorem declare_stays {handle : Handle} {node : Node} (there : sheet.node? handle = some node)
    (properties : Properties) (era : Nat) :
    Extends (sheet.forest era) ((sheet.declare handle properties).1.forest era) := by
  unfold declare
  dsimp only
  by_cases here : handle.era = era
  · rw [← here, forest_withForest _ _ _ (era_le_of_node? there)]
    exact editAt_extends _ _ _
  · rw [forest_withForest_of_ne here]
    exact .refl _

/-- Declaring in a rule or block is one attempt. -/
theorem declare_accounts {handle : Handle} {node : Node} (there : sheet.node? handle = some node)
    (block : node.hasBlock = true) (properties : Properties) :
    Accounts [⟨handle, properties⟩] sheet (sheet.declare handle properties) := by
  have grown : Grown (gained [⟨handle, properties⟩]) sheet (sheet.declare handle properties).1 := by
    refine ⟨cleared_withForest _ _, declare_stays there properties, ?_⟩
    intro era path
    rw [gained_single, Attempt.declared, ← declarations_eq]
    unfold declare
    dsimp only
    by_cases here : handle.era = era
    · subst here
      rw [forest_withForest _ _ _ (era_le_of_node? there), editAt_gains there block _ path,
        only_handle, if_pos rfl]
    · rw [forest_withForest_of_ne here, only_handle, if_neg here, List.append_nil]
  have unrefused (other : Node) (message : Text) (isThere : sheet.node? handle = some other)
      (refuses : other.refusal = some message) :
      (sheet.declare handle properties).1.node? handle = some other := by
    rw [there] at isThere
    cases isThere
    rw [node.refusal_eq_none_iff.2 block] at refuses
    cases refuses
  refine ⟨grown, ?_, ends_declare sheet handle properties unrefused⟩
  intro attempt member
  rw [List.mem_singleton.1 member]
  exact grown.node? there

/-- Declaring in what was placed is the attempt of a call, if something was placed. -/
theorem Places.declare {placed : Edited Handle} (places : Places sheet placed)
    (properties : Properties) :
    Accounts (attempt placed properties) sheet
      (placed.andThen fun sheet handle => sheet.declare handle properties) := by
  rcases placed with ⟨middle, outcome⟩
  cases outcome with
  | error failure => exact ⟨places.accounts.grown, by simp [attempt], places.accounts.ends⟩
  | ok handle =>
      rcases places.block handle rfl with ⟨node, there, block⟩
      exact places.accounts.trans (declare_accounts there block properties)

/-! ### Frames -/

end

end Sheet

end CssAuthoring
