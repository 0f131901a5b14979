import Mathlib.Data.List.Dedup
import Mathlib.Data.List.Induction
import Mathlib.Data.List.Nodup
import Mathlib.Data.List.Perm.Subperm
import CssAuthoring.Build.Cache

/-!
# Build caches by their history

What a cache holds is told by what was done to it.  A result is there as long as nothing has dropped
it since it was put, and as long as there never were as many younger results as the cache has room
for.  The locations in a cache come in the order in which their results were last put.

The law speaks of which other results are there at earlier moments, and of younger ones at the same
moment.  That leaves no choice: only one way of finding results by histories follows it.

Main statements: `remembers_after`, a cache follows its history; `Follows.unique`, nothing else
does.
-/

namespace CssAuthoring

open scoped List

/-- What is done to a cache. -/
inductive CacheAction where
  | put (location : Location) (result : BuildResult)
  | find (location : Location)
  | invalidate (location : Location)
  | invalidateDependents (location : Location)
  | clear
  deriving DecidableEq, Repr

namespace CacheAction

/-- The location that a result is put for. -/
def target? : CacheAction → Option Location
  | .put location _ => some location
  | _ => none

/-- Whether an action drops the result of a location, for other reasons than lack of room. -/
def drops (location : Location) (result : BuildResult) : CacheAction → Bool
  | .invalidate other => other = location
  | .invalidateDependents other => BuildCache.isMadeFrom other (location, result)
  | .clear => true
  | _ => false

end CacheAction

/-- The locations that results were put for, each where this was done last. -/
def targets (actions : List CacheAction) : List Location :=
  (actions.filterMap CacheAction.target?).dedup

namespace BuildCache

/-- A cache after an action. -/
def perform (cache : BuildCache) : CacheAction → BuildCache
  | .put location result => (cache.put location result).1
  | .find _ => cache
  | .invalidate location => (cache.invalidate location).1
  | .invalidateDependents location => cache.invalidateDependents location
  | .clear => cache.clear

/-- A cache that was empty at first, after some actions. -/
def after (limit : Option Int) (actions : List CacheAction) : BuildCache :=
  actions.foldl perform (.empty limit)

end BuildCache

/-! ## The law of histories -/

/-- A way of finding results after some actions. -/
abbrev Finding := List CacheAction → Location → Option BuildResult

/-- The way in which a cache that was empty at first finds results. -/
def BuildCache.finding (limit : Option Int) : Finding :=
  fun actions => (after limit actions).find?

/-- The locations put among the last actions whose results are found after all of them. -/
def younger (finding : Finding) (before last : List CacheAction) : List Location :=
  (targets last).filter fun other => (finding (before ++ last) other).isSome

/--
A result that was put is not dropped by any action since, and at no moment since were there as many
younger results as there is room for.
-/
structure Lasts (limit : Option Int) (finding : Finding) (before : List CacheAction)
    (location : Location) (result : BuildResult) (since : List CacheAction) : Prop where
  kept : ∀ action ∈ since, action.drops location result = false
  room : ∀ moment, moment <+: since → ∀ most, limit = some most →
    ((younger finding (before ++ [.put location result]) moment).length : Int) < most

/-- A result is the last one that was put for a location, and it has lasted. -/
def Held (limit : Option Int) (finding : Finding) (actions : List CacheAction)
    (location : Location) (result : BuildResult) : Prop :=
  ∃ before since, actions = before ++ .put location result :: since ∧ location ∉ targets since ∧
    Lasts limit finding before location result since

/-- A way of finding results that finds what is held according to the history. -/
def Follows (limit : Option Int) (finding : Finding) : Prop :=
  ∀ actions location result,
    finding actions location = some result ↔ Held limit finding actions location result

/-- A cache as the actions on it have left it. -/
structure Remembers (limit : Option Int) (actions : List CacheAction) (cache : BuildCache) :
    Prop where
  distinct : cache.entries.keys.Nodup
  /-- Locations come in the order in which results were last put for them. -/
  ordered : cache.entries.keys <+ targets actions
  bounded : ∀ most, limit = some most → (cache.entries.size : Int) ≤ most
  found : ∀ location result, cache.find? location = some result ↔
    Held limit (BuildCache.finding limit) actions location result
  contained : ∀ location,
    cache.contains location = true ↔ ∃ result, cache.find? location = some result
  /-- Invalidating tells whether there was a result. -/
  told : ∀ location,
    (cache.invalidate location).2 = true ↔ ∃ result, cache.find? location = some result
  /-- Invalidating dependents tells which locations have gone, in order. -/
  dropped : ∀ location, cache.dependents location =
    cache.entries.keys.filter fun other =>
      other ∉ (cache.invalidateDependents location).entries.keys

/-! ## Locations in order -/

/-- What comes again behind has left its place in front. -/
theorem dedup_append_eq {α : Type} [DecidableEq α] (front back : List α) :
    (front ++ back).dedup = (front.dedup.filter fun element => element ∉ back) ++ back.dedup := by
  induction front with
  | nil => simp
  | cons element front hypothesis =>
      rw [List.cons_append, List.dedup_cons, List.dedup_cons, hypothesis]
      by_cases inFront : element ∈ front
      · simp [inFront]
      · by_cases inBack : element ∈ back <;> simp [inFront, inBack]

/-- In a list of distinct elements, an element has behind it in a sublist what it had there. -/
theorem sublist_behind {α : Type} {element : α} {front back others rest : List α}
    (isSublist : front ++ element :: back <+ others ++ element :: rest)
    (notBefore : element ∉ others) (notBehind : element ∉ rest) : back <+ rest := by
  induction others generalizing front with
  | nil =>
      rw [List.nil_append] at isSublist
      cases front with
      | nil => exact List.cons_sublist_cons.1 isSublist
      | cons first front =>
          -- The element is behind the first one, and so would be among the rest.
          have inRest : element ∈ front ++ element :: back := by simp
          rcases List.sublist_cons_iff.1 isSublist with short | ⟨_, same, short⟩
          · exact absurd (short.subset (by simp)) notBehind
          · cases same
            exact absurd (short.subset inRest) notBehind
  | cons other others hypothesis =>
      rw [List.mem_cons, not_or] at notBefore
      rw [List.cons_append] at isSublist
      rcases List.sublist_cons_iff.1 isSublist with short | ⟨shorter, same, short⟩
      · exact hypothesis short notBefore.2
      · cases front with
        | nil =>
            cases same
            exact absurd rfl notBefore.1
        | cons first front =>
            cases same
            exact hypothesis short notBefore.2

/-- Where an element is cut off in front, what stays was behind it. -/
theorem drop_sublist_behind {α : Type} {element : α} {elements others rest : List α}
    (isElement : element ∈ elements) {count : Nat} (gone : element ∉ elements.drop count)
    (isSublist : elements <+ others ++ element :: rest) (notBefore : element ∉ others)
    (notBehind : element ∉ rest) : 0 < count ∧ elements.drop count <+ rest := by
  have cut := List.take_append_drop count elements
  have inFront : element ∈ elements.take count := by
    rw [← cut, List.mem_append] at isElement
    exact isElement.resolve_right gone
  constructor
  · refine Nat.pos_of_ne_zero fun isZero => ?_
    rw [isZero, List.take_zero] at inFront
    cases inFront
  · rcases List.append_of_mem inFront with ⟨front, back, split⟩
    rw [← cut, split, List.append_assoc, List.cons_append] at isSublist
    exact (List.sublist_append_right _ _).trans (sublist_behind isSublist notBefore notBehind)

theorem targets_concat_put (actions : List CacheAction) (location : Location)
    (result : BuildResult) :
    targets (actions ++ [.put location result]) =
      ((targets actions).filter fun other => other ≠ location) ++ [location] := by
  simp [targets, CacheAction.target?, dedup_append_eq]

theorem targets_concat_other (actions : List CacheAction) {action : CacheAction}
    (puts : action.target? = none) : targets (actions ++ [action]) = targets actions := by
  simp [targets, puts]

theorem mem_targets_concat {actions : List CacheAction} {action : CacheAction}
    {location : Location} : location ∈ targets (actions ++ [action]) ↔
      location ∈ targets actions ∨ action.target? = some location := by
  simp [targets, List.mem_filterMap]

/-- Behind a location that was not put again come those that were put since. -/
theorem targets_put_since (before since : List CacheAction) (result : BuildResult)
    {location : Location} (last : location ∉ targets since) :
    ∃ others, location ∉ others ∧
      targets (before ++ .put location result :: since) = others ++ location :: targets since := by
  rw [targets, List.mem_dedup] at last
  refine ⟨(before.filterMap CacheAction.target?).dedup.filter fun other =>
    other ∉ location :: since.filterMap CacheAction.target?, ?_, ?_⟩
  · simp
  · simp only [targets, List.filterMap_append, List.filterMap_cons, CacheAction.target?]
    rw [dedup_append_eq, List.dedup_cons_of_notMem last]

/-- A location that was put was put for a last time. -/
theorem exists_last_put {actions : List CacheAction} {location : Location}
    (isTarget : location ∈ targets actions) :
    ∃ before result since, actions = before ++ .put location result :: since ∧
      location ∉ targets since := by
  induction actions using List.reverseRecOn with
  | nil => cases isTarget
  | append_singleton actions action hypothesis =>
      by_cases puts : action.target? = some location
      · cases action with
        | put other result =>
            cases puts
            exact ⟨actions, result, [], rfl, List.not_mem_nil⟩
        | find | invalidate | invalidateDependents | clear => cases puts
      · have wasTarget := (mem_targets_concat.1 isTarget).resolve_right puts
        rcases hypothesis wasTarget with ⟨before, result, since, rfl, last⟩
        refine ⟨before, result, since ++ [action], by simp, fun isLater => ?_⟩
        exact (mem_targets_concat.1 isLater).elim last puts

/-! ## Entries of a cache -/

namespace OrderedTable

/-- Where no key occurs twice, what is found at a key is the entry with it. -/
theorem mem_entries_iff {κ ν : Type} [DecidableEq κ] {table : OrderedTable κ ν}
    (distinct : table.keys.Nodup) {key : κ} {value : ν} :
    (key, value) ∈ table.entries ↔ table.find? key = some value := by
  refine ⟨fun isEntry => ?_, mem_of_find?⟩
  rcases exists_find? isEntry with ⟨other, found⟩
  have same := List.inj_on_of_nodup_map distinct (mem_of_find? found) isEntry rfl
  cases same
  exact found

theorem mem_keys_iff {κ ν : Type} [DecidableEq κ] {table : OrderedTable κ ν} {key : κ} :
    key ∈ table.keys ↔ (table.find? key).isSome = true := by
  simp [keys, find?]

end OrderedTable

namespace BuildCache

variable {limit : Option Int}

@[simp]
theorem after_concat (limit : Option Int) (actions : List CacheAction) (action : CacheAction) :
    after limit (actions ++ [action]) = (after limit actions).perform action := by
  simp [after]

theorem limit_perform (cache : BuildCache) (action : CacheAction) :
    (cache.perform action).limit = cache.limit := by
  cases action <;> rfl

@[simp]
theorem limit_after (limit : Option Int) (actions : List CacheAction) :
    (after limit actions).limit = limit := by
  induction actions using List.reverseRecOn with
  | nil => rfl
  | append_singleton actions action hypothesis =>
      rw [after_concat, limit_perform, hypothesis]

/-- The entries after putting a result, before any is dropped for lack of room. -/
def filled (cache : BuildCache) (location : Location) (result : BuildResult) :
    List (Location × BuildResult) :=
  (cache.entries.erase location).entries ++ [(location, result)]

theorem keys_filled (cache : BuildCache) (location : Location) (result : BuildResult) :
    (cache.filled location result).map Prod.fst =
      (cache.entries.keys.filter fun other => other ≠ location) ++ [location] := by
  simp [filled, OrderedTable.erase, OrderedTable.keys, List.filter_map, Function.comp_def]

theorem trimmed_sublist {α : Type} (limit : Option Int) (entries : List α) :
    trimmed limit entries <+ entries := by
  cases limit with
  | none => exact .refl _
  | some most => exact List.drop_sublist _ _

/-- Every action but putting leaves a part of the entries. -/
theorem entries_perform_sublist (cache : BuildCache) {action : CacheAction}
    (puts : action.target? = none) :
    (cache.perform action).entries.entries <+ cache.entries.entries := by
  cases action with
  | put location result => cases puts
  | find location => exact .refl _
  | invalidate location => exact List.filter_sublist
  | invalidateDependents location => exact List.filter_sublist
  | clear => exact List.nil_sublist _

/-- A result that was put comes last, and leaves the place where it may have been. -/
theorem keys_filled_sublist {cache : BuildCache} {actions : List CacheAction}
    (ordered : cache.entries.keys <+ targets actions) (location : Location)
    (result : BuildResult) :
    (cache.filled location result).map Prod.fst <+
      targets (actions ++ [.put location result]) := by
  rw [targets_concat_put, keys_filled]
  exact (ordered.filter _).append_right _

/-- Locations come in the order in which their results were last put. -/
theorem keys_after_sublist (limit : Option Int) (actions : List CacheAction) :
    (after limit actions).entries.keys <+ targets actions := by
  induction actions using List.reverseRecOn with
  | nil => exact List.nil_sublist _
  | append_singleton actions action hypothesis =>
      rw [after_concat]
      cases action with
      | put location result =>
          have all := keys_filled_sublist hypothesis location result
          exact ((trimmed_sublist _ _).map Prod.fst).trans all
      | find | invalidate | invalidateDependents | clear =>
          rw [targets_concat_other actions rfl]
          exact ((entries_perform_sublist _ rfl).map Prod.fst).trans hypothesis

theorem nodup_keys_after (limit : Option Int) (actions : List CacheAction) :
    (after limit actions).entries.keys.Nodup :=
  (keys_after_sublist limit actions).nodup (List.nodup_dedup _)

/-- There is never more than there is room for. -/
theorem size_after_le (actions : List CacheAction) {most : Int} (nonnegative : 0 ≤ most) :
    ((after (some most) actions).entries.size : Int) ≤ most := by
  induction actions using List.reverseRecOn with
  | nil => exact nonnegative
  | append_singleton actions action hypothesis =>
      rw [after_concat]
      cases action with
      | put location result =>
          have bound := size_put (after (some most) actions) location result most (limit_after _ _)
          rw [perform]
          omega
      | find | invalidate | invalidateDependents | clear =>
          refine Int.le_trans (Int.ofNat_le.2 ?_) hypothesis
          exact (entries_perform_sublist _ rfl).length_le

/-- What is in a cache after an action was there before, or has just been put. -/
theorem mem_perform {cache : BuildCache} {action : CacheAction} {location : Location}
    {result : BuildResult}
    (isEntry : (location, result) ∈ (cache.perform action).entries.entries) :
    (location, result) ∈ cache.entries.entries ∨ action = .put location result := by
  cases action with
  | put other new =>
      rcases mem_put isEntry with old | isNew
      · exact .inl old.1
      · cases isNew
        exact .inr rfl
  | find | invalidate | invalidateDependents | clear =>
      exact .inl ((entries_perform_sublist cache rfl).subset isEntry)

/-! ### Room -/

section

variable {before since : List CacheAction} {location other : Location} {result new : BuildResult}

/-- As long as a result is there, those that are younger leave room for it. -/
theorem younger_lt (last : location ∉ targets since)
    (isKey : location ∈ (after limit (before ++ [.put location result] ++ since)).entries.keys)
    {most : Int} (nonnegative : 0 ≤ most) (limited : limit = some most) :
    ((younger (finding limit) (before ++ [.put location result]) since).length : Int) < most := by
  subst limited
  let others := younger (finding (some most)) (before ++ [.put location result]) since
  have distinct : (location :: others).Nodup := by
    refine List.nodup_cons.2 ⟨fun isYounger => last (List.mem_filter.1 isYounger).1, ?_⟩
    exact (List.nodup_dedup _).filter _
  have all : location :: others ⊆
      (after (some most) (before ++ [.put location result] ++ since)).entries.keys := by
    refine List.cons_subset.2 ⟨isKey, fun other isYounger => ?_⟩
    exact OrderedTable.mem_keys_iff.2 (List.mem_filter.1 isYounger).2
  have fewer := (List.subperm_of_subset distinct all).length_le
  have bound := size_after_le (before ++ [.put location result] ++ since) nonnegative
  rw [OrderedTable.size] at bound
  rw [List.length_cons, OrderedTable.keys, List.length_map] at fewer
  change (others.length : Int) < most
  omega

/-- A result goes for lack of room only where there are as many younger ones as there is room. -/
theorem le_younger (last : location ∉ targets (since ++ [.put other new]))
    (nonnegative : ∀ most, limit = some most → 0 ≤ most)
    (isKey : location ∈ (after limit (before ++ [.put location result] ++ since)).entries.keys)
    (gone : location ∉ (after limit (before ++ [.put location result] ++
      (since ++ [.put other new]))).entries.keys) :
    ∃ most, limit = some most ∧
      most ≤ (younger (finding limit) (before ++ [.put location result])
        (since ++ [.put other new])).length := by
  rcases targets_put_since before (since ++ [.put other new]) result last with
    ⟨others, notBefore, isTargets⟩
  generalize isFormer : before ++ [.put location result] ++ since = former at isKey
  have whole : before ++ [.put location result] ++ (since ++ [.put other new]) =
      former ++ [.put other new] := by rw [← isFormer, List.append_assoc _ since]
  rw [List.append_cons, whole] at isTargets
  rw [whole] at gone
  generalize isCache : after limit former = cache at isKey
  have ordered : (cache.filled other new).map Prod.fst <+ targets (former ++ [.put other new]) :=
    keys_filled_sublist (isCache ▸ keys_after_sublist limit former) other new
  have different : location ≠ other := by
    rintro rfl
    exact last (mem_targets_concat.2 (.inr rfl))
  have isFilled : location ∈ (cache.filled other new).map Prod.fst := by
    rw [keys_filled]
    exact List.mem_append_left _ (List.mem_filter.2 ⟨isKey, by simpa using different⟩)
  have kept : (after limit (former ++ [.put other new])).entries.entries =
      trimmed limit (cache.filled other new) := by
    rw [after_concat, isCache, perform, put, ← isCache, limit_after, filled]
  rw [OrderedTable.keys, kept] at gone
  cases limit with
  | none => exact absurd isFilled gone
  | some most =>
      refine ⟨most, rfl, ?_⟩
      rw [trimmed, List.map_drop] at gone
      rw [isTargets] at ordered
      rcases drop_sublist_behind isFilled gone ordered notBefore last with ⟨cut, behind⟩
      -- All that stays is younger, and it takes all the room.
      have stays := behind.filter fun key =>
        (finding (some most) (former ++ [.put other new]) key).isSome
      rw [List.filter_eq_self.2] at stays
      · have bound := stays.length_le
        rw [List.length_drop, List.length_map] at bound
        rw [younger, whole]
        have atLeast := nonnegative most rfl
        omega
      · intro key isKept
        rw [← List.map_drop] at isKept
        refine OrderedTable.mem_keys_iff.1 ?_
        rw [OrderedTable.keys, kept]
        exact isKept

end

end BuildCache

/-! ## What is found -/

section

variable {limit : Option Int} {finding : Finding} {before since : List CacheAction}
  {location : Location} {result : BuildResult}

theorem lasts_nil : Lasts limit finding before location result [] ↔
    ∀ most, limit = some most → 0 < most := by
  constructor
  · intro lasts most limited
    simpa [younger, targets] using lasts.room [] (List.prefix_refl []) most limited
  · intro room
    refine ⟨fun _ isSince => absurd isSince List.not_mem_nil,
      fun moment isMoment most limited => ?_⟩
    cases List.prefix_nil.1 isMoment
    simpa [younger, targets] using room most limited

/-- A result lasts through one action more if this does not drop it and leaves it room. -/
theorem lasts_concat {action : CacheAction} :
    Lasts limit finding before location result (since ++ [action]) ↔
      Lasts limit finding before location result since ∧ action.drops location result = false ∧
        ∀ most, limit = some most → ((younger finding (before ++ [.put location result])
          (since ++ [action])).length : Int) < most := by
  constructor
  · intro lasts
    refine ⟨⟨fun other isSince => lasts.kept other (List.mem_append_left _ isSince), ?_⟩, ?_, ?_⟩
    · exact fun moment isMoment => lasts.room moment (isMoment.trans (List.prefix_append _ _))
    · exact lasts.kept action (by simp)
    · exact lasts.room _ (List.prefix_refl _)
  · rintro ⟨lasts, kept, room⟩
    refine ⟨fun other isSince => ?_, fun moment isMoment => ?_⟩
    · rcases List.mem_append.1 isSince with earlier | last
      · exact lasts.kept other earlier
      · rwa [List.mem_singleton.1 last]
    · rcases List.prefix_concat_iff.1 isMoment with rfl | earlier
      · exact room
      · exact lasts.room moment earlier

end

namespace BuildCache

section

variable {limit : Option Int} {before : List CacheAction} {location : Location}
  {result : BuildResult}

/-- A result that is put is the only one for its location, and is there if there is any room. -/
theorem mem_put_iff (cache : BuildCache) (other : BuildResult) :
    (location, other) ∈ (cache.put location result).1.entries.entries ↔
      other = result ∧ ∀ most, cache.limit = some most → 0 < most := by
  have only (isFilled : (location, other) ∈ cache.filled location result) : other = result := by
    rcases List.mem_append.1 isFilled with old | new
    · simp [OrderedTable.erase] at old
    · cases List.mem_singleton.1 new
      rfl
  change (location, other) ∈ trimmed cache.limit (cache.filled location result) ↔ _
  cases cache.limit with
  | none =>
      refine ⟨fun isEntry => ⟨only isEntry, by simp⟩, ?_⟩
      rintro ⟨rfl, _⟩
      exact List.mem_append_right _ (List.mem_singleton_self _)
  | some most =>
      rw [trimmed, filled, List.length_append, List.length_singleton]
      constructor
      · intro isEntry
        refine ⟨only (List.mem_of_mem_drop isEntry), ?_⟩
        rintro _ ⟨⟩
        by_contra noRoom
        rw [Int.toNat_of_nonpos (Int.not_lt.1 noRoom), List.drop_eq_nil_of_le (by simp)] at isEntry
        cases isEntry
      · rintro ⟨rfl, room⟩
        have positive := room most rfl
        rw [List.drop_append_of_le_length (by omega)]
        exact List.mem_append_right _ (List.mem_singleton_self _)

/-- What an action neither drops nor puts anew stays where there is room for it. -/
theorem mem_perform_of_kept {cache : BuildCache} {action : CacheAction}
    (isEntry : (location, result) ∈ cache.entries.entries)
    (kept : action.drops location result = false) (puts : action.target? = none) :
    (location, result) ∈ (cache.perform action).entries.entries := by
  cases action with
  | put other new => cases puts
  | find other => exact isEntry
  | invalidate other =>
      rw [CacheAction.drops, decide_eq_false_iff_not] at kept
      exact List.mem_filter.2 ⟨isEntry, decide_eq_true (Ne.symm kept)⟩
  | invalidateDependents other =>
      refine List.mem_filter.2 ⟨isEntry, ?_⟩
      simpa [CacheAction.drops] using kept
  | clear => cases kept

/-- What is there after an action was not dropped by it. -/
theorem kept_of_mem_perform {cache : BuildCache} {action : CacheAction}
    (puts : action.target? ≠ some location)
    (isEntry : (location, result) ∈ (cache.perform action).entries.entries) :
    action.drops location result = false := by
  cases action with
  | put | find => rfl
  | invalidate other =>
      have kept := of_decide_eq_true (List.mem_filter.1 isEntry).2
      rw [CacheAction.drops, decide_eq_false_iff_not]
      exact Ne.symm kept
  | invalidateDependents other =>
      have kept := (List.mem_filter.1 isEntry).2
      simpa [CacheAction.drops] using kept
  | clear => cases isEntry

/-- The last result that was put for a location is the only one, and is there while it lasts. -/
theorem mem_after_iff (nonnegative : ∀ most, limit = some most → 0 ≤ most)
    {since : List CacheAction} (last : location ∉ targets since) (other : BuildResult) :
    (location, other) ∈ (after limit (before ++ [.put location result] ++ since)).entries.entries ↔
      other = result ∧ Lasts limit (finding limit) before location result since := by
  induction since using List.reverseRecOn generalizing other with
  | nil => rw [List.append_nil, after_concat, lasts_nil, perform, mem_put_iff, limit_after]
  | append_singleton since action hypothesis =>
      have former : location ∉ targets since := fun isTarget =>
        last (mem_targets_concat.2 (.inl isTarget))
      have puts : action.target? ≠ some location := fun same =>
        last (mem_targets_concat.2 (.inr same))
      have whole : before ++ [.put location result] ++ (since ++ [action]) =
          before ++ [.put location result] ++ since ++ [action] := by rw [List.append_assoc _ since]
      have wasEntry {other : BuildResult} (isEntry : (location, other) ∈
          (after limit (before ++ [.put location result] ++ (since ++ [action]))).entries.entries) :
          other = result ∧ Lasts limit (finding limit) before location result since := by
        rw [whole, after_concat] at isEntry
        refine (hypothesis former other).1 ((mem_perform isEntry).resolve_right ?_)
        rintro rfl
        exact puts rfl
      rw [lasts_concat]
      constructor
      · intro isEntry
        rcases wasEntry isEntry with ⟨rfl, lasts⟩
        refine ⟨rfl, lasts, ?_, fun most limited => ?_⟩
        · rw [whole, after_concat] at isEntry
          exact kept_of_mem_perform puts isEntry
        · exact younger_lt last (List.mem_map_of_mem isEntry) (nonnegative most limited) limited
      · rintro ⟨rfl, lasts, kept, room⟩
        have isEntry := (hypothesis former other).2 ⟨rfl, lasts⟩
        cases action with
        | put next new =>
            by_contra gone
            have noKey : location ∉ (after limit (before ++ [.put location other] ++
                (since ++ [.put next new]))).entries.keys := by
              intro isKey
              rcases List.mem_map.1 isKey with ⟨⟨_, found⟩, isFound, rfl⟩
              cases (wasEntry isFound).1
              exact gone isFound
            rcases le_younger last nonnegative (List.mem_map_of_mem isEntry) noKey with
              ⟨most, limited, full⟩
            exact absurd (room most limited) (Int.not_lt.2 full)
        | find | invalidate | invalidateDependents | clear =>
            rw [whole, after_concat]
            exact mem_perform_of_kept isEntry kept rfl

end

/-- What is found in a cache is what is held according to its history. -/
theorem follows_finding {limit : Option Int} (nonnegative : ∀ most, limit = some most → 0 ≤ most) :
    Follows limit (finding limit) := by
  intro actions location result
  rw [finding, find?, ← OrderedTable.mem_entries_iff (nodup_keys_after limit actions)]
  constructor
  · intro isEntry
    have isTarget := (keys_after_sublist limit actions).subset (List.mem_map_of_mem isEntry)
    rcases exists_last_put isTarget with ⟨before, new, since, rfl, last⟩
    rw [List.append_cons, mem_after_iff nonnegative last] at isEntry
    rcases isEntry with ⟨rfl, lasts⟩
    exact ⟨before, since, rfl, last, lasts⟩
  · rintro ⟨before, since, rfl, last, lasts⟩
    rw [List.append_cons, mem_after_iff nonnegative last]
    exact ⟨rfl, lasts⟩

/-- The dependents of a file are the locations that invalidating them drops. -/
theorem dependents_eq {cache : BuildCache} (distinct : cache.entries.keys.Nodup)
    (location : Location) : cache.dependents location = cache.entries.keys.filter fun other =>
      other ∉ (cache.invalidateDependents location).entries.keys := by
  rw [dependents, OrderedTable.keys.eq_def cache.entries, List.filter_map]
  congr 1
  apply List.filter_congr
  intro entry isEntry
  have isKept : entry.1 ∈ (cache.invalidateDependents location).entries.keys ↔
      isMadeFrom location entry = false := by
    rw [OrderedTable.keys, List.mem_map]
    constructor
    · rintro ⟨other, isOther, same⟩
      rcases List.mem_filter.1 isOther with ⟨wasEntry, kept⟩
      cases List.inj_on_of_nodup_map distinct wasEntry isEntry same
      simpa using kept
    · intro kept
      exact ⟨entry, List.mem_filter.2 ⟨isEntry, by simp [kept]⟩, rfl⟩
  rw [Function.comp_apply, Bool.eq_iff_iff, decide_eq_true_iff, isKept, Bool.not_eq_false]

/-- A cache that was empty at first is what its history makes of it. -/
theorem remembers_after {limit : Option Int} (nonnegative : ∀ most, limit = some most → 0 ≤ most)
    (actions : List CacheAction) : Remembers limit actions (after limit actions) where
  distinct := nodup_keys_after limit actions
  ordered := keys_after_sublist limit actions
  bounded := by
    rintro most rfl
    exact size_after_le actions (nonnegative most rfl)
  found := follows_finding nonnegative actions
  contained location := by rw [contains, OrderedTable.contains, Option.isSome_iff_exists, find?]
  told location := Option.isSome_iff_exists
  dropped := dependents_eq (nodup_keys_after limit actions)

/-- A result that was put again in between has made room for the younger one. -/
theorem remembers_after_full :
    let actions : List CacheAction :=
      [.put ⟨["a"]⟩ ⟨"old", []⟩, .put ⟨["b"]⟩ ⟨"b", ["/c".toList]⟩, .put ⟨["a"]⟩ ⟨"new", []⟩,
        .put ⟨["c"]⟩ ⟨"c", []⟩]
    (∀ most, some 2 = some most → (0 : Int) ≤ most) ∧
      (after (some 2) actions).entries.keys = [⟨["a"]⟩, ⟨["c"]⟩] ∧
        Held (some 2) (finding (some 2)) actions ⟨["a"]⟩ ⟨"new", []⟩ ∧
          ¬Held (some 2) (finding (some 2)) actions ⟨["b"]⟩ ⟨"b", ["/c".toList]⟩ := by
  intro actions
  have nonnegative : ∀ most, some 2 = some most → (0 : Int) ≤ most := by
    rintro _ ⟨⟩
    decide
  have remembers := remembers_after nonnegative actions
  refine ⟨nonnegative, by decide, (remembers.found _ _).1 (by decide), fun held => ?_⟩
  have found := (remembers.found _ _).2 held
  revert found
  decide

end BuildCache

/-! ## One law, one way of finding results -/

theorem length_le_of_last {before since front back : List CacheAction} {location : Location}
    {result other : BuildResult}
    (same : before ++ .put location result :: since = front ++ .put location other :: back)
    (last : location ∉ targets since) : since.length ≤ back.length := by
  rcases List.append_eq_append_iff.1 same with ⟨more, _, split⟩ | ⟨more, _, split⟩
  · cases more with
    | nil =>
        cases split
        exact Nat.le_refl _
    | cons action more =>
        cases split
        exact absurd (by simp [targets, CacheAction.target?]) last
  · have lengths := congrArg List.length split
    simp only [List.length_cons, List.length_append] at lengths
    omega

/--
Where two ways of finding results follow the law, a result lasts by one as it does by the other.
-/
theorem Lasts.of_follows {limit : Option Int} {first second : Finding}
    (followsFirst : Follows limit first) (followsSecond : Follows limit second)
    {before since : List CacheAction} {location : Location} {result : BuildResult}
    (lasts : Lasts limit first before location result since) :
    Lasts limit second before location result since := by
  refine ⟨lasts.kept, fun moment isMoment => ?_⟩
  suffices same : younger second (before ++ [.put location result]) moment =
      younger first (before ++ [.put location result]) moment by
    rw [same]
    exact lasts.room moment isMoment
  apply List.filter_congr
  intro other isTarget
  rcases exists_last_put isTarget with ⟨front, new, back, rfl, _⟩
  -- What was put later has fewer actions behind it, on which the induction is.
  have shorter {since' before' : List CacheAction} {found : BuildResult}
      (split : before ++ [.put location result] ++ (front ++ .put other new :: back) =
        before' ++ .put other found :: since') (last : other ∉ targets since') :
      since'.length < since.length := by
    rw [← List.append_assoc] at split
    have behind := length_le_of_last split.symm last
    have bound := isMoment.length_le
    rw [List.length_append, List.length_cons] at bound
    omega
  rw [Bool.eq_iff_iff, Option.isSome_iff_exists, Option.isSome_iff_exists]
  constructor
  · rintro ⟨found, isFound⟩
    rcases (followsSecond _ _ _).1 isFound with ⟨before', since', split, last, lasts'⟩
    have := shorter split last
    exact ⟨found, (followsFirst _ _ _).2 ⟨before', since', split, last,
      lasts'.of_follows followsSecond followsFirst⟩⟩
  · rintro ⟨found, isFound⟩
    rcases (followsFirst _ _ _).1 isFound with ⟨before', since', split, last, lasts'⟩
    have := shorter split last
    exact ⟨found, (followsSecond _ _ _).2 ⟨before', since', split, last,
      lasts'.of_follows followsFirst followsSecond⟩⟩
termination_by since.length

/-- There is only one way of finding results that follows the law. -/
theorem Follows.unique {limit : Option Int} {first second : Finding}
    (followsFirst : Follows limit first) (followsSecond : Follows limit second) :
    first = second := by
  funext actions location
  apply Option.ext
  intro result
  rw [followsFirst, followsSecond]
  constructor
  · rintro ⟨before, since, split, last, lasts⟩
    exact ⟨before, since, split, last, lasts.of_follows followsFirst followsSecond⟩
  · rintro ⟨before, since, split, last, lasts⟩
    exact ⟨before, since, split, last, lasts.of_follows followsSecond followsFirst⟩

end CssAuthoring
