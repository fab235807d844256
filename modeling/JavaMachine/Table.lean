/-!
# Tables

A table is a finite map that remembers the order in which its keys were first added. Looking a key
up after an insertion gives the inserted value for that key and the old value for every other key;
a key is listed once.
-/

namespace JavaMachine

universe u v

/-- A finite map that lists its keys in the order in which they were first added. -/
structure Table (κ : Type u) (α : Type v) where
  entries : List (κ × α) := []
  keys_nodup : (entries.map Prod.fst).Nodup := by exact List.nodup_nil

namespace Table

variable {κ : Type u} {α : Type v} [DecidableEq κ]

instance : Inhabited (Table κ α) := ⟨{}⟩

/-- The value of a key in a list of pairs. -/
def lookupIn (key : κ) : List (κ × α) → Option α
  | [] => none
  | (other, value) :: rest => if other = key then some value else lookupIn key rest

/-- Replaces the value of a key where it stands, or adds the pair at the end. -/
def putInto (key : κ) (value : α) : List (κ × α) → List (κ × α)
  | [] => [(key, value)]
  | (other, old) :: rest =>
      if other = key then (key, value) :: rest else (other, old) :: putInto key value rest

/-- A new key is listed last; the order of the others stays. -/
theorem keys_putInto (key : κ) (value : α) (pairs : List (κ × α)) :
    (putInto key value pairs).map Prod.fst =
      if key ∈ pairs.map Prod.fst then pairs.map Prod.fst else pairs.map Prod.fst ++ [key] := by
  induction pairs with
  | nil => rfl
  | cons head rest inductionHypothesis =>
      obtain ⟨other, old⟩ := head
      by_cases same : other = key
      · simp [putInto, same]
      · have distinct : key ≠ other := fun equal => same equal.symm
        by_cases present : key ∈ rest.map Prod.fst <;>
          simp_all [putInto]

/-- No key comes to be listed twice. -/
theorem nodup_keys_putInto (key : κ) (value : α) (pairs : List (κ × α))
    (distinct : (pairs.map Prod.fst).Nodup) :
    ((putInto key value pairs).map Prod.fst).Nodup := by
  rw [keys_putInto]
  split
  · exact distinct
  · rename_i absent
    exact List.nodup_append.2 ⟨distinct, by simp, by
      intro left leftIn right rightIn equal
      simp only [List.mem_singleton] at rightIn
      exact absent (rightIn ▸ equal ▸ leftIn)⟩

/-- Only the key itself gets another value. -/
theorem lookupIn_putInto (key other : κ) (value : α) (pairs : List (κ × α)) :
    lookupIn other (putInto key value pairs) =
      if key = other then some value else lookupIn other pairs := by
  induction pairs with
  | nil => simp [putInto, lookupIn]
  | cons head rest inductionHypothesis =>
      obtain ⟨first, old⟩ := head
      by_cases same : first = key <;> by_cases wanted : key = other <;>
        simp_all [putInto, lookupIn]

/-- A key that is listed has a value. -/
theorem lookupIn_isSome_of_mem (key : κ) (pairs : List (κ × α)) (listed : key ∈ pairs.map Prod.fst) :
    (lookupIn key pairs).isSome := by
  induction pairs with
  | nil => cases listed
  | cons head rest inductionHypothesis =>
      obtain ⟨other, value⟩ := head
      rw [lookupIn]
      split
      · rfl
      next distinct =>
        rcases List.mem_cons.1 listed with same | among
        · exact absurd same.symm distinct
        · exact inductionHypothesis among

/-- The value of `key`, if it has one. -/
def find? (table : Table κ α) (key : κ) : Option α :=
  lookupIn key table.entries

/-- Gives `key` the value `value`. -/
def insert (table : Table κ α) (key : κ) (value : α) : Table κ α where
  entries := putInto key value table.entries
  keys_nodup := nodup_keys_putInto key value table.entries table.keys_nodup

/-- Takes over every pair of `other`, whose values win. -/
def insertAll (table other : Table κ α) : Table κ α :=
  other.entries.foldl (fun merged pair => merged.insert pair.1 pair.2) table

/-- Takes over those pairs of `other` whose keys have no value yet. -/
def insertMissing (table other : Table κ α) : Table κ α :=
  other.entries.foldl
    (fun merged pair =>
      if (merged.find? pair.1).isSome then merged else merged.insert pair.1 pair.2)
    table

/-- Whether `key` has a value. -/
def contains (table : Table κ α) (key : κ) : Bool := (table.find? key).isSome

/-- The keys, oldest first. -/
def keys (table : Table κ α) : List κ := table.entries.map Prod.fst

/-- The values, in the order of their keys. -/
def values (table : Table κ α) : List α := table.entries.map Prod.snd

/-- The number of keys. -/
def size (table : Table κ α) : Nat := table.entries.length

@[simp] theorem find?_empty (key : κ) : ({} : Table κ α).find? key = none := rfl

/-- An insertion changes the value of its own key only. -/
@[simp] theorem find?_insert (table : Table κ α) (key other : κ) (value : α) :
    (table.insert key value).find? other =
      if key = other then some value else table.find? other :=
  lookupIn_putInto key other value table.entries

/-- A new key makes a table longer by one. -/
theorem size_insert_of_absent (table : Table κ α) {key : κ} (value : α)
    (absent : table.find? key = none) : (table.insert key value).size = table.size + 1 := by
  have unlisted : key ∉ table.entries.map Prod.fst := by
    intro listed
    have found := lookupIn_isSome_of_mem key table.entries listed
    rw [find?] at absent
    rw [absent] at found
    cases found
  have keys := congrArg List.length (keys_putInto key value table.entries)
  rw [if_neg unlisted] at keys
  simpa [size, insert] using keys

/-- A key that is not listed has no value. -/
theorem lookupIn_eq_none (key : κ) (pairs : List (κ × α)) (absent : key ∉ pairs.map Prod.fst) :
    lookupIn key pairs = none := by
  induction pairs with
  | nil => rfl
  | cons head rest inductionHypothesis =>
      obtain ⟨other, value⟩ := head
      simp only [List.map_cons, List.mem_cons, not_or] at absent
      have distinct : other ≠ key := fun equal => absent.1 equal.symm
      rw [lookupIn, if_neg distinct]
      exact inductionHypothesis absent.2

theorem mem_of_lookupIn {key : κ} {value : α} {pairs : List (κ × α)}
    (found : lookupIn key pairs = some value) : (key, value) ∈ pairs := by
  induction pairs with
  | nil => cases found
  | cons head rest inductionHypothesis =>
      obtain ⟨other, first⟩ := head
      rw [lookupIn] at found
      split at found
      next same =>
        cases found
        exact same ▸ List.mem_cons_self
      next => exact List.mem_cons_of_mem _ (inductionHypothesis found)

/-- The pairs of a table are those of keys and their values. -/
theorem find?_eq_some {table : Table κ α} {key : κ} {value : α} :
    table.find? key = some value ↔ (key, value) ∈ table.entries := by
  refine ⟨mem_of_lookupIn, fun membership => ?_⟩
  obtain ⟨pairs, distinct⟩ := table
  change lookupIn key pairs = some value
  dsimp only at membership
  induction pairs with
  | nil => cases membership
  | cons head rest inductionHypothesis =>
      simp only [List.map_cons, List.nodup_cons] at distinct
      rcases List.mem_cons.1 membership with same | among
      · rw [← same, lookupIn, if_pos rfl]
      · have others : head.1 ≠ key := by
          intro same
          exact distinct.1 (same ▸ List.mem_map_of_mem among)
        rw [lookupIn, if_neg others]
        exact inductionHypothesis distinct.2 among

theorem mem_values_of_find? {table : Table κ α} {key : κ} {value : α}
    (found : table.find? key = some value) : value ∈ table.values :=
  List.mem_map.2 ⟨_, find?_eq_some.1 found, rfl⟩

theorem find?_foldl_insert (pairs : List (κ × α)) (distinct : (pairs.map Prod.fst).Nodup)
    (table : Table κ α) (key : κ) :
    (pairs.foldl (fun merged pair => merged.insert pair.1 pair.2) table).find? key =
      (lookupIn key pairs).or (table.find? key) := by
  induction pairs generalizing table with
  | nil => simp [lookupIn]
  | cons head rest inductionHypothesis =>
      obtain ⟨first, value⟩ := head
      simp only [List.map_cons, List.nodup_cons] at distinct
      rw [List.foldl_cons, inductionHypothesis distinct.2, find?_insert, lookupIn]
      by_cases same : first = key
      · subst same
        simp [lookupIn_eq_none first rest distinct.1]
      · simp [same]

/-- Of two values of a key the one of the table taken over wins. -/
@[simp] theorem find?_insertAll (table other : Table κ α) (key : κ) :
    (table.insertAll other).find? key = (other.find? key).or (table.find? key) :=
  find?_foldl_insert other.entries other.keys_nodup table key

theorem find?_foldl_insertNew (pairs : List (κ × α)) (table : Table κ α) (key : κ) :
    (pairs.foldl
      (fun merged pair =>
        if (merged.find? pair.1).isSome then merged else merged.insert pair.1 pair.2)
      table).find? key = (table.find? key).or (lookupIn key pairs) := by
  induction pairs generalizing table with
  | nil => simp [lookupIn]
  | cons head rest inductionHypothesis =>
      obtain ⟨first, value⟩ := head
      rw [List.foldl_cons, inductionHypothesis, lookupIn]
      by_cases same : first = key
      · subst same
        cases known : table.find? first with
        | some old => simp [known]
        | none => simp
      · cases known : table.find? first with
        | some old => simp [same]
        | none => simp [same]

/-- Of two values of a key the older one wins. -/
@[simp] theorem find?_insertMissing (table other : Table κ α) (key : κ) :
    (table.insertMissing other).find? key = (table.find? key).or (other.find? key) :=
  find?_foldl_insertNew other.entries table key

/-- Among tables that fill in what is missing the first with a value for a key decides. -/
theorem find?_foldl_insertMissing (others : List (Table κ α)) (table : Table κ α) (key : κ) :
    (others.foldl insertMissing table).find? key =
      (table.find? key).or (others.findSome? fun other => other.find? key) := by
  induction others generalizing table with
  | nil => simp
  | cons first rest inductionHypothesis =>
      rw [List.foldl_cons, inductionHypothesis, find?_insertMissing, Option.or_assoc]
      cases found : first.find? key with
      | none => simp [found]
      | some value => simp [found]

end Table
end JavaMachine
