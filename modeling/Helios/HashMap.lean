import Mathlib.Data.List.AList

/-! Finite maps as association lists with distinct keys. The list order stands
for the iteration order, which the source leaves open. -/

namespace Helios

abbrev HashMap (K V : Type) := AList (fun _ : K => V)

namespace HashMap

variable {K V : Type} [DecidableEq K]

def empty : HashMap K V := ∅

def get (map : HashMap K V) (key : K) : Option V := map.lookup key

def containsKey (map : HashMap K V) (key : K) : Bool := (map.lookup key).isSome

def values (map : HashMap K V) : List V := map.entries.map Sigma.snd

/-- Change the value at a key, if there is one (`get_mut`). -/
def modify (map : HashMap K V) (key : K) (change : V → V) : HashMap K V :=
  match map.lookup key with
  | some value => map.insert key (change value)
  | none => map

/-- `retain`. -/
def retain (map : HashMap K V) (keep : K → V → Bool) : HashMap K V :=
  ⟨map.entries.filter (fun entry => keep entry.1 entry.2),
    map.nodupKeys.sublist List.filter_sublist⟩

/-- `entry(key).or_default().push(value)`. -/
def push (map : HashMap K (List V)) (key : K) (value : V) : HashMap K (List V) :=
  map.insert key ((get map key).getD [] ++ [value])

def pushAll (map : HashMap K (List V)) (added : List (K × V)) : HashMap K (List V) :=
  added.foldl (fun held entry => push held entry.1 entry.2) map

/-- `BTreeMap::range(low..=high)`: the entries between two keys, in key order. -/
def range (map : HashMap Nat V) (low high : Nat) : List (Nat × V) :=
  (List.range' low (high + 1 - low)).filterMap
    (fun key => (map.lookup key).map (fun value => (key, value)))

/-- The smallest key, first in the iteration order of a `BTreeMap`. -/
def firstKey (map : HashMap Nat V) : Option Nat := map.keys.min?

@[simp] theorem get_empty (key : K) : get (empty : HashMap K V) key = none := by
  simp [get, empty]

@[simp] theorem get_insert (map : HashMap K V) (key : K) (value : V) :
    get (map.insert key value) key = some value := by
  simp [get]

theorem get_insert_ne (map : HashMap K V) (key other : K) (value : V) (different : other ≠ key) :
    get (map.insert key value) other = get map other :=
  AList.lookup_insert_ne different

theorem getD_push (map : HashMap K (List V)) (key other : K) (value : V) :
    (get (push map key value) other).getD [] =
      (get map other).getD [] ++ if key = other then [value] else [] := by
  rw [push]
  by_cases same : key = other
  · rw [same, get_insert, if_pos rfl, Option.getD_some]
  · rw [get_insert_ne _ _ _ _ (Ne.symm same), if_neg same, List.append_nil]

/-- Under each key, what was pushed to it, in order. -/
theorem getD_pushAll (map : HashMap K (List V)) (added : List (K × V)) (key : K) :
    (get (pushAll map added) key).getD [] =
      (get map key).getD [] ++ (added.filter (fun entry => decide (entry.1 = key))).map Prod.snd := by
  induction added generalizing map with
  | nil => simp [pushAll]
  | cons entry rest ih =>
      have later := ih (push map entry.1 entry.2)
      rw [getD_push] at later
      rw [pushAll, List.foldl_cons, ← pushAll, later, List.append_assoc, List.filter_cons]
      by_cases same : entry.1 = key
      · simp [same]
      · simp [same]

theorem mem_pushAll (added : List (K × V)) (key : K) (value : V) :
    value ∈ (get (pushAll empty added) key).getD [] ↔ (key, value) ∈ added := by
  rw [getD_pushAll, get_empty, Option.getD_none, List.nil_append, List.mem_map]
  constructor
  · intro ⟨entry, kept, same⟩
    rcases List.mem_filter.mp kept with ⟨member, own⟩
    rw [← same, ← of_decide_eq_true own]
    exact member
  · intro member
    exact ⟨(key, value), List.mem_filter.mpr ⟨member, decide_eq_true rfl⟩, rfl⟩

theorem get_modify (map : HashMap K V) (key other : K) (change : V → V) :
    get (modify map key change) other =
      if other = key then (get map key).map change else get map other := by
  unfold modify
  by_cases same : other = key
  · subst same
    rw [if_pos rfl]
    cases found : map.lookup other with
    | none => simp [get, found]
    | some value => simp [get, found]
  · rw [if_neg same]
    cases found : map.lookup key with
    | none => rfl
    | some value => exact get_insert_ne map key other _ same

theorem get_erase (map : HashMap K V) (key other : K) :
    get (map.erase key) other = if other = key then none else get map other := by
  by_cases same : other = key
  · subst same
    rw [if_pos rfl]
    exact AList.lookup_erase other map
  · rw [if_neg same]
    exact AList.lookup_erase_ne same

omit [DecidableEq K] in
theorem mem_entries_retain (map : HashMap K V) (keep : K → V → Bool) (key : K) (value : V) :
    ⟨key, value⟩ ∈ (retain map keep).entries ↔
      ⟨key, value⟩ ∈ map.entries ∧ keep key value = true :=
  List.mem_filter

theorem get_retain (map : HashMap K V) (keep : K → V → Bool) (key : K) :
    get (retain map keep) key = (get map key).filter (keep key) := by
  apply Option.ext
  intro value
  have kept := mem_entries_retain map keep key value
  rw [← AList.mem_lookup_iff, ← AList.mem_lookup_iff] at kept
  rw [Option.filter_eq_some_iff]
  exact kept

theorem mem_values (map : HashMap K V) (value : V) :
    value ∈ values map ↔ ∃ key, get map key = some value := by
  rw [values, List.mem_map]
  constructor
  · intro ⟨⟨key, held⟩, member, same⟩
    exact ⟨key, same ▸ AList.mem_lookup_iff.mpr member⟩
  · intro ⟨key, found⟩
    exact ⟨⟨key, value⟩, AList.mem_lookup_iff.mp found, rfl⟩

/-- The values are distinct if each tells its key. -/
theorem nodup_values (map : HashMap K V) (keyOf : V → K)
    (tells : ∀ key value, get map key = some value → key = keyOf value) :
    (values map).Nodup := by
  apply List.Nodup.map_on _ map.nodupKeys.nodup
  intro first firstIn second secondIn same
  have firstKey := tells first.1 first.2 (AList.mem_lookup_iff.mpr firstIn)
  have secondKey := tells second.1 second.2 (AList.mem_lookup_iff.mpr secondIn)
  apply map.nodupKeys.eq_of_fst_eq firstIn secondIn
  rw [firstKey, secondKey, same]

theorem length_ne_zero_of_get (map : HashMap K V) (key : K)
    (present : (get map key).isSome = true) : map.entries.length ≠ 0 := by
  have member : key ∈ map.keys := AList.mem_keys.mp (AList.lookup_isSome.mp present)
  have some := List.length_pos_of_mem member
  simp only [AList.keys, List.keys, List.length_map] at some
  omega

theorem length_insert_of_none (map : HashMap K V) (key : K) (value : V)
    (absent : get map key = none) :
    (map.insert key value).entries.length = map.entries.length + 1 := by
  rw [AList.entries_insert_of_notMem (AList.lookup_eq_none.mp absent), List.length_cons]

theorem length_insert_of_some (map : HashMap K V) (key : K) (value : V)
    (present : (get map key).isSome = true) :
    (map.insert key value).entries.length = map.entries.length := by
  have member : key ∈ map.keys := AList.mem_keys.mp (AList.lookup_isSome.mp present)
  have keys : (map.insert key value).keys.length = map.keys.length := by
    rw [AList.keys_insert, List.length_cons, List.length_erase_add_one member]
  simpa only [AList.keys, List.keys, List.length_map] using keys

theorem length_le_insert (map : HashMap K V) (key : K) (value : V) :
    map.entries.length ≤ (map.insert key value).entries.length := by
  cases found : get map key with
  | none =>
      rw [length_insert_of_none map key value found]
      exact Nat.le_succ _
  | some held => rw [length_insert_of_some map key value (by rw [found]; rfl)]

theorem length_erase_lt (map : HashMap K V) (key : K) (present : (get map key).isSome = true) :
    (map.erase key).entries.length < map.entries.length := by
  have member : key ∈ map.keys := AList.mem_keys.mp (AList.lookup_isSome.mp present)
  have fewer : (map.erase key).keys.length = map.keys.length - 1 := by
    rw [AList.keys_erase, List.length_erase_of_mem member]
  have some := List.length_pos_of_mem member
  simp only [AList.keys, List.keys, List.length_map] at fewer some
  omega

theorem length_erase_le (map : HashMap K V) (key : K) :
    (map.erase key).entries.length ≤ map.entries.length := by
  have fewer : (map.erase key).keys.length ≤ map.keys.length := by
    rw [AList.keys_erase]
    exact List.length_erase_le
  simpa only [AList.keys, List.keys, List.length_map] using fewer

theorem get_foldl_erase (map : HashMap K V) (keys : List K) (other : K) :
    get (keys.foldl (fun rest key => rest.erase key) map) other =
      if other ∈ keys then none else get map other := by
  induction keys generalizing map with
  | nil => simp
  | cons key keys ih =>
      rw [List.foldl_cons, ih, get_erase]
      by_cases same : other = key
      · simp [same]
      · simp [same]

theorem length_foldl_erase_le (map : HashMap K V) (keys : List K) :
    (keys.foldl (fun rest key => rest.erase key) map).entries.length ≤ map.entries.length := by
  induction keys generalizing map with
  | nil => exact Nat.le_refl _
  | cons key keys ih =>
      rw [List.foldl_cons]
      exact Nat.le_trans (ih (map.erase key)) (length_erase_le map key)

/-- A range of keys is full if and only if it has as many entries as keys. -/
theorem length_range_eq_iff (map : HashMap Nat V) (low high : Nat) :
    (range map low high).length = high + 1 - low ↔
      ∀ key, low ≤ key → key ≤ high → (get map key).isSome = true := by
  have keys : (List.range' low (high + 1 - low)).length = high + 1 - low := List.length_range'
  rw [← keys, range, List.filterMap_length_eq_length]
  constructor
  · intro full key above below
    have found := full key (List.mem_range'_1.mpr ⟨above, by omega⟩)
    simpa [get] using found
  · intro full key member
    have bounds := List.mem_range'_1.mp member
    have found := full key bounds.1 (by omega)
    simpa [get] using found

theorem length_range_le (map : HashMap Nat V) (low high : Nat) :
    (range map low high).length ≤ high + 1 - low := by
  have fewer := List.length_filterMap_le
    (fun key => (map.lookup key).map (fun value => (key, value)))
    (List.range' low (high + 1 - low))
  rwa [List.length_range'] at fewer

theorem map_snd_range (map : HashMap Nat V) (low high : Nat) :
    (range map low high).map Prod.snd =
      (List.range' low (high + 1 - low)).filterMap (get map) := by
  rw [range, List.map_filterMap]
  apply List.filterMap_congr
  intro key _
  cases found : map.lookup key with
  | none => simp [get, found]
  | some value => simp [get, found]

theorem map_fst_range (map : HashMap Nat V) (low high : Nat)
    (full : ∀ key, low ≤ key → key ≤ high → (get map key).isSome = true) :
    (range map low high).map Prod.fst = List.range' low (high + 1 - low) := by
  rw [range, List.map_filterMap]
  calc
    (List.range' low (high + 1 - low)).filterMap (fun key =>
        ((map.lookup key).map (fun value => (key, value))).map Prod.fst)
      = (List.range' low (high + 1 - low)).filterMap some := by
        apply List.filterMap_congr
        intro key member
        have bounds := List.mem_range'_1.mp member
        obtain ⟨value, found⟩ := Option.isSome_iff_exists.mp
          (full key bounds.1 (by omega))
        have found : map.lookup key = some value := found
        simp [found]
    _ = List.range' low (high + 1 - low) := List.filterMap_some

theorem firstKey_eq_none_iff (map : HashMap Nat V) :
    firstKey map = none ↔ ∀ key, get map key = none := by
  rw [firstKey, List.min?_eq_none_iff]
  constructor
  · intro noKeys key
    apply AList.lookup_eq_none.mpr
    rw [AList.mem_keys, noKeys]
    exact List.not_mem_nil
  · intro absent
    apply List.eq_nil_iff_forall_not_mem.mpr
    intro key member
    exact AList.lookup_eq_none.mp (absent key) (AList.mem_keys.mpr member)

theorem firstKey_le (map : HashMap Nat V) (first key : Nat) (least : firstKey map = some first)
    (present : (get map key).isSome = true) : first ≤ key := by
  have member : key ∈ map.keys := AList.mem_keys.mp (AList.lookup_isSome.mp present)
  exact (List.min?_eq_some_iff.mp least).2 key member

theorem last_dlookup {W : Type} (entries : List (Sigma (fun _ : K => V)))
    (distinct : entries.NodupKeys) (key : K) (write : V → Option W) :
    (entries.filterMap (fun entry => if entry.1 = key then write entry.2 else none)).getLast? =
      (entries.dlookup key).bind write := by
  induction entries with
  | nil => rfl
  | cons entry rest ih =>
      rcases List.nodupKeys_cons.mp distinct with ⟨fresh, others⟩
      have later := ih others
      by_cases same : entry.1 = key
      · subst same
        have absent : rest.dlookup entry.1 = none := List.dlookup_eq_none.mpr fresh
        have found : (entry :: rest).dlookup entry.1 = some entry.2 := List.dlookup_cons_eq _ _ _
        rw [absent, Option.bind_none, List.getLast?_eq_none_iff] at later
        rw [found, Option.bind_some, List.filterMap_cons, later, if_pos rfl]
        cases write entry.2 with
        | none => rfl
        | some value => rfl
      · have passed : (entry :: rest).dlookup key = rest.dlookup key :=
          List.dlookup_cons_ne _ _ (Ne.symm same)
        rw [passed, List.filterMap_cons, if_neg same]
        exact later

/-- A loop over the entries comes by a key at most once. -/
theorem last_entry {W : Type} (map : HashMap K V) (key : K) (write : V → Option W) :
    (map.entries.filterMap (fun entry => if entry.1 = key then write entry.2 else none)).getLast? =
      (get map key).bind write :=
  last_dlookup map.entries map.nodupKeys key write

/-- What is written under a key by a list of writes: the last of its values. -/
theorem get_foldl_insert {A : Type} (keyOf : A → K) (valueOf : A → V) (writes : List A)
    (map : HashMap K V) (key : K) :
    get (writes.foldl (fun map write => map.insert (keyOf write) (valueOf write)) map) key =
      (writes.filterMap (fun write =>
        if keyOf write = key then some (valueOf write) else none)).getLast?.or (get map key) := by
  induction writes generalizing map with
  | nil => rfl
  | cons write rest ih =>
      rw [List.foldl_cons, ih, List.filterMap_cons]
      by_cases same : keyOf write = key
      · rw [if_pos same, ← same, get_insert, List.getLast?_cons, Option.some_or]
        cases (rest.filterMap (fun other =>
          if keyOf other = keyOf write then some (valueOf other) else none)).getLast? with
        | none => rfl
        | some last => rfl
      · rw [if_neg same, get_insert_ne map _ _ _ (Ne.symm same)]

theorem mem_of_get_foldl_insert {A : Type} (keyOf : A → K) (valueOf : A → V) (writes : List A)
    (key : K) (value : V)
    (found : get (writes.foldl (fun map write => map.insert (keyOf write) (valueOf write)) empty)
      key = some value) :
    ∃ write ∈ writes, keyOf write = key ∧ valueOf write = value := by
  rw [get_foldl_insert, get_empty, Option.or_none] at found
  rcases List.mem_filterMap.mp (List.mem_of_getLast? found) with ⟨write, member, same⟩
  rw [Option.ite_none_right_eq_some] at same
  exact ⟨write, member, same.1, Option.some.inj same.2⟩

end HashMap

end Helios
