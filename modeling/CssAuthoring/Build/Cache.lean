import CssAuthoring.OrderedTable
import CssAuthoring.Path

/-!
# Build caches

Results of builds by the location of the style module, the one put in last at the end.  A cache with
a limit drops its oldest results once there are more.  A result is dropped when its own module or
one of its dependencies is invalidated.

Main statements: `find?_invalidate`, an invalidated result is gone; `size_put`, a cache never grows
beyond its limit; `mem_put`, putting a result adds no other.
-/

namespace CssAuthoring

/-- What a build yields: the CSS text, and the files it was made from. -/
structure BuildResult where
  css : Text
  dependencies : List Text
  deriving DecidableEq, Repr

/-- The form in which a result is shown. -/
def BuildResult.shown (result : BuildResult) : Text :=
  "<CompileResult " ++ Text.decimal result.css.length ++ " chars, " ++
    Text.decimal result.dependencies.length ++ " dependencies>".toList

/-- Results by location, with the greatest number of them if there is one. -/
structure BuildCache where
  limit : Option Int
  entries : OrderedTable Location BuildResult
  deriving Repr

/-- The failure to bring a cache below zero results. -/
inductive Overdrawn where
  | overdrawn
  deriving DecidableEq, Repr

namespace BuildCache

/-- The cache without results. -/
def empty (limit : Option Int) : BuildCache := ⟨limit, .empty⟩

/-- The result for a location. -/
def find? (cache : BuildCache) (location : Location) : Option BuildResult :=
  cache.entries.find? location

/-- Whether there is a result for a location. -/
def contains (cache : BuildCache) (location : Location) : Bool :=
  cache.entries.contains location

/-- The entries that stay under a limit: the newest ones. -/
def trimmed {α : Type} (limit : Option Int) (entries : List α) : List α :=
  match limit with
  | none => entries
  | some most => entries.drop (entries.length - most.toNat)

/--
Puts a result into a cache, as its newest.  Under a negative limit nothing stays, and there is still
more to drop.
-/
def put (cache : BuildCache) (location : Location) (result : BuildResult) :
    BuildCache × Except Overdrawn Unit :=
  let entries := (cache.entries.erase location).entries ++ [(location, result)]
  ({ cache with entries := ⟨trimmed cache.limit entries⟩ },
    if (cache.limit.map fun most => decide (most < 0)).getD false then .error .overdrawn
    else .ok ())

/-- Drops the result for a location, and tells whether there was one. -/
def invalidate (cache : BuildCache) (location : Location) : BuildCache × Bool :=
  ({ cache with entries := cache.entries.erase location }, (cache.find? location).isSome)

/-- Whether a result was made from a file. -/
def isMadeFrom (location : Location) (entry : Location × BuildResult) : Bool :=
  entry.1 = location || entry.2.dependencies.contains location.text

/-- The locations of the results that were made from a file, in order. -/
def dependents (cache : BuildCache) (location : Location) : List Location :=
  (cache.entries.entries.filter (isMadeFrom location)).map Prod.fst

/-- Drops the results that were made from a file. -/
def invalidateDependents (cache : BuildCache) (location : Location) : BuildCache :=
  { cache with
    entries := ⟨cache.entries.entries.filter fun entry => !isMadeFrom location entry⟩ }

/-- Drops all results. -/
def clear (cache : BuildCache) : BuildCache :=
  { cache with entries := .empty }

/-- An invalidated result is gone. -/
theorem find?_invalidate (cache : BuildCache) (location : Location) :
    (cache.invalidate location).1.find? location = none := by
  simp [invalidate, find?, OrderedTable.find?, OrderedTable.erase]

/-- A cache never grows beyond its limit. -/
theorem size_put (cache : BuildCache) (location : Location) (result : BuildResult) (most : Int)
    (limited : cache.limit = some most) :
    (cache.put location result).1.entries.size ≤ most.toNat := by
  simp only [put, trimmed, limited, OrderedTable.size, List.length_drop]
  omega

/-- What is in a cache after a result was put was there for another location, or was put. -/
theorem mem_put {cache : BuildCache} {location : Location} {result : BuildResult}
    {entry : Location × BuildResult}
    (isEntry : entry ∈ (cache.put location result).1.entries.entries) :
    (entry ∈ cache.entries.entries ∧ entry.1 ≠ location) ∨ entry = (location, result) := by
  have isOne : entry ∈ (cache.entries.erase location).entries ++ [(location, result)] := by
    simp only [put, trimmed] at isEntry
    split at isEntry
    · exact isEntry
    · exact List.mem_of_mem_drop isEntry
  simpa [OrderedTable.erase] using isOne

/-- A cache whose limit is not negative takes every result. -/
theorem put_ok {cache : BuildCache} (limit : ∀ most, cache.limit = some most → 0 ≤ most)
    (location : Location) (result : BuildResult) : (cache.put location result).2 = .ok () := by
  unfold put
  cases limited : cache.limit with
  | none => rfl
  | some most =>
    have notNegative : ¬most < 0 := Int.not_lt.2 (limit most limited)
    simp [notNegative]

end BuildCache

end CssAuthoring
