/-!
# Keyed collections

A `Keyed` collection holds at most one value per key.  The order of its entries
says nothing; what a collection is shows in `get?`, and each operation is
described by what it does to `get?`.
-/

namespace TimelineStore

/-- Values by key, each key once. -/
structure Keyed (κ ν : Type) [DecidableEq κ] where
  entries : List (κ × ν)
  distinct : (entries.map Prod.fst).Nodup

namespace Keyed

variable {κ ν : Type} [DecidableEq κ]

/-- No entry at all. -/
def empty : Keyed κ ν :=
  ⟨[], .nil⟩

/-- The number of entries. -/
def size (collection : Keyed κ ν) : Nat :=
  collection.entries.length

/-- The values of all entries. -/
def values (collection : Keyed κ ν) : List ν :=
  collection.entries.map Prod.snd

/-- The value of a key. -/
def get? (collection : Keyed κ ν) (key : κ) : Option ν :=
  (collection.entries.find? (·.1 = key)).map Prod.snd

/-- The entries whose key `keep` holds of. -/
def filter (collection : Keyed κ ν) (keep : κ → Bool) : Keyed κ ν where
  entries := collection.entries.filter fun entry => keep entry.1
  distinct := (List.filter_sublist.map Prod.fst).nodup collection.distinct

/-- The collection without a key. -/
def erase (collection : Keyed κ ν) (key : κ) : Keyed κ ν :=
  collection.filter (· ≠ key)

/-- The collection with a value for a key, in place of an earlier one. -/
def insert (collection : Keyed κ ν) (key : κ) (value : ν) : Keyed κ ν where
  entries := (key, value) :: (collection.erase key).entries
  distinct := by
    refine List.nodup_cons.2 ⟨?_, (collection.erase key).distinct⟩
    simp [erase, filter]

/-- The collection with the value of one key changed, if it has one. -/
def modify (collection : Keyed κ ν) (key : κ) (change : ν → ν) : Keyed κ ν where
  entries := collection.entries.map fun entry =>
    if entry.1 = key then (entry.1, change entry.2) else entry
  distinct := by
    have same : (fun entry : κ × ν =>
        (if entry.1 = key then (entry.1, change entry.2) else entry).1) = Prod.fst := by
      funext entry
      split <;> rfl
    simpa [List.map_map, Function.comp_def, same] using collection.distinct

theorem filter_filter (collection : Keyed κ ν) (first second : κ → Bool) :
    (collection.filter first).filter second =
      collection.filter fun key => second key && first key := by
  simp only [filter, List.filter_filter]

section Lookup

@[simp] theorem get?_empty (key : κ) : (empty : Keyed κ ν).get? key = none := rfl

theorem get?_filter (collection : Keyed κ ν) (keep : κ → Bool) (key : κ) :
    (collection.filter keep).get? key = if keep key then collection.get? key else none := by
  unfold get? filter
  simp only [List.find?_filter]
  split
  · next h =>
    congr 2
    funext entry
    by_cases same : entry.1 = key <;> simp [same, h]
  · next h =>
    have nothing : collection.entries.find?
        (fun entry => keep entry.1 && decide (entry.1 = key)) = none := by
      refine List.find?_eq_none.2 fun entry _ => ?_
      by_cases same : entry.1 = key <;> simp [same, h]
    simp [nothing]

theorem get?_erase (collection : Keyed κ ν) (key other : κ) :
    (collection.erase key).get? other = if other = key then none else collection.get? other := by
  rw [erase, get?_filter]
  by_cases same : other = key <;> simp [same]

theorem get?_insert (collection : Keyed κ ν) (key other : κ) (value : ν) :
    (collection.insert key value).get? other =
      if other = key then some value else collection.get? other := by
  by_cases same : other = key
  · simp [get?, insert, same]
  · have rest := get?_erase collection key other
    simp only [same, if_false] at rest ⊢
    rw [← rest]
    simp [get?, insert, Ne.symm same]

theorem get?_modify (collection : Keyed κ ν) (key other : κ) (change : ν → ν) :
    (collection.modify key change).get? other =
      if other = key then (collection.get? other).map change else collection.get? other := by
  have each (entries : List (κ × ν)) :
      ((entries.map fun entry =>
          if entry.1 = key then (entry.1, change entry.2) else entry).find?
            (·.1 = other)).map Prod.snd =
        if other = key then ((entries.find? (·.1 = other)).map Prod.snd).map change
        else (entries.find? (·.1 = other)).map Prod.snd := by
    induction entries with
    | nil => simp
    | cons entry rest ih =>
        by_cases here : entry.1 = key <;> by_cases asked : entry.1 = other <;> grind
  exact each collection.entries

end Lookup

end Keyed

end TimelineStore
