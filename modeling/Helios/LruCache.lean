import Mathlib.Data.List.Basic

/-! A cache of bounded size that drops the key put in longest ago. -/

namespace Helios

/-- The entries with the latest first. -/
structure LruCache (K V : Type) where
  capacity : Nat
  entries : List (K × V)
  positive : 0 < capacity
  bounded : entries.length ≤ capacity
  distinct : (entries.map Prod.fst).Nodup

namespace LruCache

variable {K V : Type}

def new (capacity : Nat) (positive : 0 < capacity) : LruCache K V :=
  ⟨capacity, [], positive, Nat.zero_le _, List.nodup_nil⟩

theorem room (capacity : Nat) : 0 < max capacity 1 := by omega

variable [DecidableEq K]

/-- Looking a key up does not make it a late one. -/
def contains (cache : LruCache K V) (key : K) : Bool :=
  decide (key ∈ cache.entries.map Prod.fst)

def without (cache : LruCache K V) (key : K) : List (K × V) :=
  cache.entries.filter (fun entry => decide (entry.1 ≠ key))

theorem distinct_without (cache : LruCache K V) (key : K) (value : V) :
    (((key, value) :: cache.without key).map Prod.fst).Nodup := by
  rw [List.map_cons, List.nodup_cons]
  constructor
  · intro member
    rcases List.mem_map.mp member with ⟨entry, kept, same⟩
    have other := of_decide_eq_true (List.mem_filter.mp kept).2
    exact other same
  · exact cache.distinct.sublist (List.filter_sublist.map Prod.fst)

/-- The key goes to the front; the last one falls out of a full cache. -/
def put (cache : LruCache K V) (key : K) (value : V) : LruCache K V where
  capacity := cache.capacity
  entries := ((key, value) :: cache.without key).take cache.capacity
  positive := cache.positive
  bounded := by
    rw [List.length_take]
    exact Nat.min_le_left _ _
  distinct :=
    (cache.distinct_without key value).sublist ((List.take_sublist _ _).map Prod.fst)

theorem contains_iff (cache : LruCache K V) (key : K) :
    cache.contains key = true ↔ ∃ value, (key, value) ∈ cache.entries := by
  rw [contains, decide_eq_true_iff, List.mem_map]
  constructor
  · intro ⟨entry, member, same⟩
    exact ⟨entry.2, same ▸ member⟩
  · intro ⟨value, member⟩
    exact ⟨(key, value), member, rfl⟩

@[simp] theorem contains_new (capacity : Nat) (positive : 0 < capacity) (key : K) :
    (new capacity positive : LruCache K V).contains key = false := rfl

theorem entries_put (cache : LruCache K V) (key : K) (value : V) :
    (cache.put key value).entries =
      ((key, value) :: cache.without key).take cache.capacity := rfl

/-- Putting a key in brings no other. -/
theorem contains_of_put (cache : LruCache K V) (key other : K) (value : V)
    (held : (cache.put key value).contains other = true) :
    other = key ∨ cache.contains other = true := by
  rcases (contains_iff _ _).mp held with ⟨found, member⟩
  rcases List.mem_cons.mp (List.mem_of_mem_take member) with same | earlier
  · exact Or.inl (congrArg Prod.fst same)
  · exact Or.inr ((contains_iff _ _).mpr ⟨found, (List.mem_filter.mp earlier).1⟩)

end LruCache

end Helios
