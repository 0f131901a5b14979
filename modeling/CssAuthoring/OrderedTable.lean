/-!
# Ordered tables

A finite table that remembers the order in which its keys were first put in.  Putting a key that is
present replaces its value and moves nothing; removing a key and putting it again moves it to the
end.  Declarations, module namespaces and build caches are such tables.

Main statements: `find?_insert`, the value written is there and other values stay; `find?_erase`, a
key that was removed is gone; `keys_insert`, what an insertion does to the order;
`nodup_keys_ofPairs`, no key occurs twice.
-/

namespace CssAuthoring

/-- What is left of a list without repetitions occurs once. -/
theorem nodup_eraseDups {α : Type} [BEq α] [LawfulBEq α] (elements : List α) :
    elements.eraseDups.Nodup := by
  cases elements with
  | nil => exact List.nodup_nil
  | cons element rest =>
    have shorter : (rest.filter fun other => !other == element).length < rest.length + 1 :=
      Nat.lt_succ_of_le (List.length_filter_le _ rest)
    rw [List.eraseDups_cons, List.nodup_cons]
    exact ⟨by simp, nodup_eraseDups _⟩
termination_by elements.length

/-- Keys with values, in order. -/
structure OrderedTable (κ ν : Type) where
  entries : List (κ × ν)
  deriving Repr

namespace OrderedTable

variable {κ ν : Type}

/-- The table without entries. -/
def empty : OrderedTable κ ν := ⟨[]⟩

/-- The keys, in order. -/
def keys (table : OrderedTable κ ν) : List κ :=
  table.entries.map Prod.fst

/-- The values, in the order of their keys. -/
def values (table : OrderedTable κ ν) : List ν :=
  table.entries.map Prod.snd

/-- How many keys there are. -/
def size (table : OrderedTable κ ν) : Nat :=
  table.entries.length

variable [DecidableEq κ]

/-- The value at a key. -/
def find? (table : OrderedTable κ ν) (key : κ) : Option ν :=
  (table.entries.find? fun entry => entry.1 = key).map Prod.snd

/-- Whether a key is present. -/
def contains (table : OrderedTable κ ν) (key : κ) : Bool :=
  (table.find? key).isSome

/-- Writes a value into a list of entries: in place if the key is there, else at the end. -/
def insertEntry (key : κ) (value : ν) : List (κ × ν) → List (κ × ν)
  | [] => [(key, value)]
  | entry :: rest =>
    if entry.1 = key then (key, value) :: rest else entry :: insertEntry key value rest

/-- Puts a value at a key. -/
def insert (table : OrderedTable κ ν) (key : κ) (value : ν) : OrderedTable κ ν :=
  ⟨insertEntry key value table.entries⟩

/-- Removes a key. -/
def erase (table : OrderedTable κ ν) (key : κ) : OrderedTable κ ν :=
  ⟨table.entries.filter fun entry => entry.1 ≠ key⟩

/-- Puts all entries of another table into a table, in order. -/
def merge (table other : OrderedTable κ ν) : OrderedTable κ ν :=
  other.entries.foldl (fun merged entry => merged.insert entry.1 entry.2) table

/-- The table of a list of pairs: a repeated key keeps its first place and takes the last value. -/
def ofPairs (pairs : List (κ × ν)) : OrderedTable κ ν :=
  pairs.foldl (fun table pair => table.insert pair.1 pair.2) empty

@[simp]
theorem find?_empty (key : κ) : (empty : OrderedTable κ ν).find? key = none := rfl

/-- The value written is there, and the value at every other key is what it was. -/
theorem find?_insert (table : OrderedTable κ ν) (key other : κ) (value : ν) :
    (table.insert key value).find? other =
      if key = other then some value else table.find? other := by
  obtain ⟨entries⟩ := table
  unfold insert find?
  simp only
  induction entries with
  | nil => by_cases same : key = other <;> simp [insertEntry, same]
  | cons entry rest hypothesis =>
    unfold insertEntry
    by_cases here : entry.1 = key
    · by_cases same : key = other <;> simp [here, same]
    · by_cases wanted : entry.1 = other
      · have different : key ≠ other := fun same => here (wanted.trans same.symm)
        simp [Ne.symm different, wanted, different]
      · simpa [here, wanted] using hypothesis

/-- What is found at a key is there with it. -/
theorem mem_of_find? {table : OrderedTable κ ν} {key : κ} {value : ν}
    (found : table.find? key = some value) : (key, value) ∈ table.entries := by
  rw [find?, Option.map_eq_some_iff] at found
  obtain ⟨entry, isFirst, rfl⟩ := found
  have isKey : entry.1 = key := by simpa using List.find?_some isFirst
  rw [← isKey]
  exact List.mem_of_find?_eq_some isFirst

/-- Where a key is there, something is found at it. -/
theorem exists_find? {table : OrderedTable κ ν} {entry : κ × ν} (isEntry : entry ∈ table.entries) :
    ∃ value, table.find? entry.1 = some value := by
  rw [← Option.isSome_iff_exists, find?, Option.isSome_map, List.find?_isSome]
  exact ⟨entry, isEntry, by simp⟩

/-- What is there after an insertion was there before, or was put in. -/
theorem mem_insert {table : OrderedTable κ ν} {key : κ} {value : ν} {entry : κ × ν}
    (isEntry : entry ∈ (table.insert key value).entries) :
    entry ∈ table.entries ∨ entry = (key, value) := by
  obtain ⟨entries⟩ := table
  unfold insert at isEntry
  simp only at isEntry ⊢
  induction entries with
  | nil => exact .inr (List.mem_singleton.1 isEntry)
  | cons first rest hypothesis =>
    unfold insertEntry at isEntry
    split at isEntry
    · exact (List.mem_cons.1 isEntry).elim .inr fun later => .inl (List.mem_cons_of_mem _ later)
    · rcases List.mem_cons.1 isEntry with rfl | later
      · exact .inl List.mem_cons_self
      · exact (hypothesis later).imp_left (List.mem_cons_of_mem _)

/-- A key that was removed is gone, and the value at every other key is what it was. -/
theorem find?_erase (table : OrderedTable κ ν) (key other : κ) :
    (table.erase key).find? other = if other = key then none else table.find? other := by
  obtain ⟨entries⟩ := table
  simp only [erase, find?, List.find?_filter]
  split
  · rename_i same
    simp [same]
  · rename_i different
    congr 2
    funext entry
    by_cases wanted : entry.1 = other <;> simp [wanted, different]

/-- A new key goes to the end; a present key moves nothing. -/
theorem keys_insert (table : OrderedTable κ ν) (key : κ) (value : ν) :
    (table.insert key value).keys =
      if key ∈ table.keys then table.keys else table.keys ++ [key] := by
  obtain ⟨entries⟩ := table
  unfold insert keys
  simp only
  induction entries with
  | nil => simp [insertEntry]
  | cons entry rest hypothesis =>
    unfold insertEntry
    by_cases here : entry.1 = key
    · simp [here]
    · have there : key ≠ entry.1 := fun same => here same.symm
      simp only [here, if_false, List.map_cons, hypothesis, List.mem_cons, there, false_or]
      split <;> simp

theorem nodup_keys_insert {table : OrderedTable κ ν} (distinct : table.keys.Nodup)
    (key : κ) (value : ν) : (table.insert key value).keys.Nodup := by
  rw [keys_insert]
  split
  · exact distinct
  · rename_i absent
    rw [List.nodup_append]
    exact ⟨distinct, by simp, by rintro first member second same rfl; simp_all⟩

/-- No key of a table built from pairs occurs twice. -/
theorem nodup_keys_ofPairs (pairs : List (κ × ν)) : (ofPairs pairs).keys.Nodup := by
  suffices general : ∀ table : OrderedTable κ ν, table.keys.Nodup →
      (pairs.foldl (fun table pair => table.insert pair.1 pair.2) table).keys.Nodup from
    general empty (by simp [empty, keys])
  induction pairs with
  | nil => exact fun _ distinct => distinct
  | cons pair rest hypothesis =>
    exact fun table distinct => hypothesis _ (nodup_keys_insert distinct pair.1 pair.2)

end OrderedTable

end CssAuthoring
