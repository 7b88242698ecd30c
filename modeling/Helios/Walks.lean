import Mathlib.Data.List.Rotate

/-! A value threaded through a list: each item takes over what the one before it
gives. A walk is the case in which an item takes its own source. -/

namespace Helios

section Threads

variable {V E : Type*} (takes : V → E → Prop) (gives : E → V)

def Threaded : V → List E → V → Prop
  | first, [], last => first = last
  | first, item :: rest, last => takes first item ∧ Threaded (gives item) rest last

theorem threaded_append (first last : V) (left right : List E) :
    Threaded takes gives first (left ++ right) last ↔
      ∃ middle, Threaded takes gives first left middle ∧
        Threaded takes gives middle right last := by
  induction left generalizing first with
  | nil =>
      constructor
      · intro whole
        exact ⟨first, rfl, whole⟩
      · intro ⟨middle, same, later⟩
        cases same
        exact later
  | cons item rest ih =>
      constructor
      · intro ⟨here, later⟩
        rcases (ih (gives item)).mp later with ⟨middle, before, after⟩
        exact ⟨middle, ⟨here, before⟩, after⟩
      · intro ⟨middle, ⟨here, before⟩, after⟩
        exact ⟨here, (ih (gives item)).mpr ⟨middle, before, after⟩⟩

/-- Every item takes some value. -/
theorem threaded_mem (first last : V) (items : List E)
    (threaded : Threaded takes gives first items last) (item : E) (member : item ∈ items) :
    ∃ value, takes value item := by
  induction items generalizing first with
  | nil => cases member
  | cons head rest ih =>
      rcases List.mem_cons.mp member with same | later
      · exact ⟨first, same ▸ threaded.1⟩
      · exact ih (gives head) threaded.2 later

end Threads

section Walks

variable {V E : Type*} (source target : E → V)

def Walk : V → List E → V → Prop := Threaded (fun place item => source item = place) target

theorem walk_append (first last : V) (left right : List E) :
    Walk source target first (left ++ right) last ↔
      ∃ middle, Walk source target first left middle ∧ Walk source target middle right last :=
  threaded_append _ target first last left right

/-- A walk is known by the ends of its items. -/
theorem walk_congr {E' : Type*} (source' target' : E' → V) (first last : V) (items : List E)
    (others : List E') (ends : items.map source = others.map source')
    (ends' : items.map target = others.map target') :
    Walk source target first items last ↔ Walk source' target' first others last := by
  induction items generalizing first others with
  | nil =>
      cases others with
      | nil => exact Iff.rfl
      | cons other rest => cases ends
  | cons item rest ih =>
      cases others with
      | nil => cases ends
      | cons other later =>
          rw [List.map_cons, List.map_cons, List.cons.injEq] at ends ends'
          have tail := ih (target item) later ends.2 ends'.2
          constructor
          · intro ⟨here, walk⟩
            exact ⟨ends.1.symm.trans here, ends'.1 ▸ tail.mp walk⟩
          · intro ⟨here, walk⟩
            exact ⟨ends.1.trans here, tail.mpr (ends'.1 ▸ walk)⟩

/-- A closed walk may start at any of its items. -/
theorem walk_rotate (first : V) (items : List E) (place : Nat) (item : E)
    (found : items[place]? = some item) (closed : Walk source target first items first) :
    Walk source target (source item) (items.rotate place) (source item) := by
  have inside := (List.getElem?_eq_some_iff.mp found).1
  have split : items.drop place = item :: items.drop (place + 1) := by
    rw [List.drop_eq_getElem_cons inside, (List.getElem?_eq_some_iff.mp found).2]
  rw [← List.take_append_drop place items, walk_append] at closed
  rcases closed with ⟨middle, before, after⟩
  have here : source item = middle := by
    rw [split] at after
    exact after.1
  rw [List.rotate_eq_drop_append_take (Nat.le_of_lt inside), walk_append, here]
  exact ⟨first, after, before⟩

theorem walk_comp {V' : Type*} (label : V → V') (inj : Function.Injective label) (first last : V)
    (items : List E) : Walk (label ∘ source) (label ∘ target) (label first) items (label last) ↔
      Walk source target first items last := by
  induction items generalizing first with
  | nil => exact inj.eq_iff
  | cons item rest ih => exact and_congr inj.eq_iff (ih (target item))

/-- The steps of a cycle through the places of a list. -/
theorem walk_zip (first last : V) (places : List V) :
    Walk Prod.fst Prod.snd first ((first :: places).zip (places ++ [last])) last := by
  induction places generalizing first with
  | nil => exact ⟨rfl, rfl⟩
  | cons place rest ih => exact ⟨rfl, ih place⟩

/-- The steps from each place of a list to the next. -/
theorem walk_zip_tail (first : V) (places : List V) :
    Walk Prod.fst Prod.snd first ((first :: places).zip places)
      ((first :: places).getLast (List.cons_ne_nil first places)) := by
  induction places generalizing first with
  | nil => rfl
  | cons place rest ih => exact ⟨rfl, ih place⟩

end Walks

end Helios
