import Helios.HashMap
import Helios.Runs
import Mathlib.Tactic

/-! A map from keys to the time each was last recorded, from which entries that have
reached a given age are pruned. On a clock that never goes back it holds a key exactly
as long as some record of it was young enough at every pruning. -/

namespace Helios.Recency

open Runs

variable {K : Type}

inductive Op (K : Type) where
  | record (key : K) (time : Nat)
  | prune (time : Nat)
  deriving DecidableEq

def Op.time : Op K → Nat
  | .record _ time => time
  | .prune time => time

/-- The times of the operations, in the order they are made. -/
def Timed (ops : List (Op K)) : Prop := (ops.map Op.time).Pairwise (· ≤ ·)

theorem timed_append (ops : List (Op K)) (op : Op K) (timed : Timed (ops ++ [op])) :
    Timed ops ∧ ∀ earlier ∈ ops, earlier.time ≤ op.time := by
  rw [Timed, List.map_append, List.pairwise_append] at timed
  refine ⟨timed.1, ?_⟩
  intro earlier member
  exact timed.2.2 earlier.time (List.mem_map_of_mem member) op.time (by simp)

variable (window : Nat)

/-- Two records of one key are a window apart. -/
def Spaced (ops : List (Op K)) : Prop :=
  ops.Pairwise (fun earlier later => ∀ key since time,
    earlier = .record key since → later = .record key time → since + window ≤ time)

theorem spaced_prune (ops : List (Op K)) (time : Nat) (spaced : Spaced window ops) :
    Spaced window (ops ++ [.prune time]) := by
  rw [Spaced, List.pairwise_append]
  refine ⟨spaced, List.pairwise_singleton _ _, ?_⟩
  intro earlier _ later last
  rw [List.mem_singleton.mp last]
  intro key since other _ impossible
  cases impossible

variable [DecidableEq K]

def step (held : HashMap K Nat) : Op K → HashMap K Nat
  | .record key time => held.insert key time
  | .prune time => HashMap.retain held (fun _ since => decide (time - since < window))

/-- What the map holds for a key: its latest record, unless a pruning found it too old. -/
theorem get_run (ops : List (Op K)) (positive : 0 < window) (timed : Timed ops) (key : K)
    (since : Nat) :
    HashMap.get (run (step window) HashMap.empty ops) key = some since ↔
      .record key since ∈ ops ∧ (∀ time, .record key time ∈ ops → time ≤ since) ∧
        ∀ time, .prune time ∈ ops → time - since < window := by
  induction ops using List.reverseRecOn generalizing since with
  | nil => simp
  | append_singleton ops op ih =>
      rcases timed_append ops op timed with ⟨before, latest⟩
      have known := ih before since
      rw [run_append, run_cons, run_nil]
      cases op with
      | record other time =>
          simp only [step, List.mem_append, List.mem_singleton, Op.record.injEq, reduceCtorEq,
            or_false]
          by_cases same : key = other
          · subst same
            rw [HashMap.get_insert, Option.some.injEq]
            constructor
            · intro now
              subst now
              refine ⟨Or.inr ⟨rfl, rfl⟩, ?_, ?_⟩
              · intro earlier recorded
                rcases recorded with old | ⟨-, now⟩
                · exact latest _ old
                · exact Nat.le_of_eq now
              · intro earlier pruned
                have ordered : earlier ≤ time := latest _ pruned
                omega
            · intro held
              rcases held with ⟨recorded, last, -⟩
              have least : time ≤ since := last time (Or.inr ⟨rfl, rfl⟩)
              rcases recorded with old | ⟨-, now⟩
              · exact Nat.le_antisymm least (latest _ old)
              · exact now.symm
          · rw [HashMap.get_insert_ne _ _ _ _ same, known]
            simp only [same, false_and, or_false]
      | prune time =>
          simp only [step, List.mem_append, List.mem_singleton, Op.prune.injEq, reduceCtorEq,
            or_false, HashMap.get_retain, Option.filter_eq_some_iff, decide_eq_true_eq, known]
          constructor
          · rintro ⟨⟨recorded, last, young⟩, now⟩
            refine ⟨recorded, last, ?_⟩
            intro earlier pruned
            rcases pruned with old | same
            · exact young earlier old
            · rwa [same]
          · rintro ⟨recorded, last, young⟩
            exact ⟨⟨recorded, last, fun earlier old => young earlier (Or.inl old)⟩,
              young time (Or.inr rfl)⟩

/-- When the operation records the key. -/
def Op.recordedAt (key : K) : Op K → Option Nat
  | .record other time => if other = key then some time else none
  | .prune _ => none

theorem mem_recordedAt (ops : List (Op K)) (key : K) (time : Nat) :
    time ∈ ops.filterMap (Op.recordedAt key) ↔ .record key time ∈ ops := by
  rw [List.mem_filterMap]
  constructor
  · rintro ⟨op, member, found⟩
    cases op with
    | record other since =>
        simp only [Op.recordedAt, Option.ite_none_right_eq_some, Option.some.injEq] at found
        rcases found with ⟨rfl, rfl⟩
        exact member
    | prune since => cases found
  · intro member
    exact ⟨.record key time, member, if_pos rfl⟩

/-- Of any records there is a latest. -/
theorem latest_record (ops : List (Op K)) (key : K) (time : Nat)
    (recorded : .record key time ∈ ops) :
    ∃ since, .record key since ∈ ops ∧ ∀ later, .record key later ∈ ops → later ≤ since := by
  have member := (mem_recordedAt ops key time).mpr recorded
  cases latest : (ops.filterMap (Op.recordedAt key)).max? with
  | none =>
      rw [List.max?_eq_none_iff.mp latest] at member
      cases member
  | some since =>
      rcases List.max?_eq_some_iff.mp latest with ⟨among, greatest⟩
      refine ⟨since, (mem_recordedAt ops key since).mp among, ?_⟩
      intro later found
      exact greatest later ((mem_recordedAt ops key later).mpr found)

/-- A key is held exactly if some record of it was young enough at every pruning. -/
theorem isSome_get_run (ops : List (Op K)) (positive : 0 < window) (timed : Timed ops) (key : K) :
    (HashMap.get (run (step window) HashMap.empty ops) key).isSome = true ↔
      ∃ since, .record key since ∈ ops ∧ ∀ time, .prune time ∈ ops → time - since < window := by
  rw [Option.isSome_iff_exists]
  constructor
  · rintro ⟨since, found⟩
    rcases (get_run window ops positive timed key since).mp found with ⟨recorded, -, young⟩
    exact ⟨since, recorded, young⟩
  · rintro ⟨time, recorded, young⟩
    rcases latest_record ops key time recorded with ⟨since, member, last⟩
    refine ⟨since, (get_run window ops positive timed key since).mpr ⟨member, last, ?_⟩⟩
    intro pruned found
    have newer := last time recorded
    have bound := young pruned found
    omega

/-- A key is only recorded when what is held of it has reached the age. -/
theorem spaced_record_of (ops : List (Op K)) (positive : 0 < window) (key : K) (time : Nat)
    (timed : Timed (ops ++ [.record key time])) (spaced : Spaced window ops)
    (old : ∀ since, HashMap.get (run (step window) HashMap.empty ops) key = some since →
      since + window ≤ time) :
    Spaced window (ops ++ [.record key time]) := by
  rcases timed_append ops _ timed with ⟨before, latest⟩
  rw [Spaced, List.pairwise_append]
  refine ⟨spaced, List.pairwise_singleton _ _, ?_⟩
  intro earlier member later last
  rw [List.mem_singleton.mp last]
  intro other since now first same
  cases same
  subst first
  rcases latest_record ops key since member with ⟨newest, recorded, last⟩
  have newer := last since member
  by_contra close
  have held : HashMap.get (run (step window) HashMap.empty ops) key = some newest := by
    refine (get_run window ops positive before key newest).mpr ⟨recorded, last, ?_⟩
    intro pruned found
    have ordered : pruned ≤ time := latest _ found
    omega
  have aged := old newest held
  omega

/-- Keys are only recorded while they are not held. -/
theorem spaced_record (ops : List (Op K)) (positive : 0 < window) (key : K) (time : Nat)
    (timed : Timed (ops ++ [.record key time])) (spaced : Spaced window ops)
    (absent : HashMap.containsKey (run (step window) HashMap.empty ops) key = false) :
    Spaced window (ops ++ [.record key time]) := by
  apply spaced_record_of window ops positive key time timed spaced
  intro since held
  have present : HashMap.containsKey (run (step window) HashMap.empty ops) key = true :=
    Option.isSome_iff_exists.mpr ⟨since, held⟩
  rw [absent] at present
  cases present

end Helios.Recency
