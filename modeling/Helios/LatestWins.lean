import Mathlib.Data.List.Basic
import Mathlib.Order.Defs.LinearOrder
import Mathlib.Order.Basic
import Mathlib.Order.Lattice

/-! Observations that arrive in any order: when a store that takes some of them and leaves
the others holds what was seen last. -/

namespace Helios.LatestWins

/-- What was seen, and at which slot. -/
structure Observation (Slot Content : Type) where
  slot : Slot
  content : Content
  deriving DecidableEq

section Cell

variable {Slot Content : Type} [LinearOrder Slot] (blank : Content)

def NotOlder (seen : List (Observation Slot Content)) (slot : Slot) : Prop :=
  ∀ other ∈ seen, other.slot ≤ slot

/-- The content seen at the highest slot; before any was seen, the blank one. -/
def Newest (seen : List (Observation Slot Content)) (content : Content) : Prop :=
  (seen = [] ∧ content = blank) ∨
    ∃ newest ∈ seen, newest.content = content ∧ NotOlder seen newest.slot

instance [DecidableEq Content] (seen : List (Observation Slot Content)) (content : Content) :
    Decidable (Newest blank seen content) := by
  unfold Newest NotOlder
  infer_instance

theorem notOlder_cons (seen : List (Observation Slot Content)) (added : Observation Slot Content)
    (slot : Slot) : NotOlder (added :: seen) slot ↔ added.slot ≤ slot ∧ NotOlder seen slot :=
  List.forall_mem_cons

/-- Taking an observation. -/
theorem newest_taken_iff (seen : List (Observation Slot Content))
    (added : Observation Slot Content) :
    Newest blank (added :: seen) added.content ↔
      NotOlder seen added.slot ∨ Newest blank seen added.content := by
  constructor
  · intro newest
    rcases newest with ⟨absurd, -⟩ | ⟨last, member, same, highest⟩
    · cases absurd
    · rw [notOlder_cons] at highest
      rcases List.mem_cons.mp member with rfl | earlier
      · exact Or.inl highest.2
      · exact Or.inr (Or.inr ⟨last, earlier, same, highest.2⟩)
  · intro cases_
    right
    by_cases fresh : NotOlder seen added.slot
    · exact ⟨added, List.mem_cons_self, rfl, (notOlder_cons _ _ _).mpr ⟨le_rfl, fresh⟩⟩
    · rcases cases_.resolve_left fresh with ⟨empty, -⟩ | ⟨last, member, same, highest⟩
      · rw [empty] at fresh
        exact absurd (fun other absurd => nomatch absurd) fresh
      · refine ⟨last, List.mem_cons_of_mem _ member, same,
          (notOlder_cons _ _ _).mpr ⟨?_, highest⟩⟩
        by_contra later
        exact fresh (fun other inside => (highest other inside).trans (not_le.mp later).le)

/-- Leaving an observation. -/
theorem newest_left_iff (seen : List (Observation Slot Content)) (added : Observation Slot Content)
    (content : Content) (newest : Newest blank seen content) :
    Newest blank (added :: seen) content ↔
      (∃ other ∈ seen, added.slot ≤ other.slot) ∨ added.content = content := by
  constructor
  · intro after
    rcases after with ⟨absurd, -⟩ | ⟨last, member, same, highest⟩
    · cases absurd
    · rw [notOlder_cons] at highest
      rcases List.mem_cons.mp member with rfl | earlier
      · exact Or.inr same
      · exact Or.inl ⟨last, earlier, highest.1⟩
  · intro cases_
    right
    by_cases covered : ∃ other ∈ seen, added.slot ≤ other.slot
    · obtain ⟨other, inside, below⟩ := covered
      rcases newest with ⟨empty, -⟩ | ⟨last, member, same, highest⟩
      · rw [empty] at inside
        cases inside
      · exact ⟨last, List.mem_cons_of_mem _ member, same,
          (notOlder_cons _ _ _).mpr ⟨below.trans (highest other inside), highest⟩⟩
    · refine ⟨added, List.mem_cons_self, cases_.resolve_left covered,
        (notOlder_cons _ _ _).mpr ⟨le_rfl, ?_⟩⟩
      intro other inside
      by_contra later
      exact covered ⟨other, inside, (not_le.mp later).le⟩

end Cell

section Store

variable {Key Slot Content : Type} [DecidableEq Key]

/-- What was seen of one key. -/
def seenOf (log : List (Key × Observation Slot Content)) (key : Key) :
    List (Observation Slot Content) :=
  (log.filter (fun entry => entry.1 = key)).map Prod.snd

theorem seenOf_same (log : List (Key × Observation Slot Content)) (key : Key)
    (added : Observation Slot Content) :
    seenOf ((key, added) :: log) key = added :: seenOf log key := by
  simp [seenOf]

theorem seenOf_other (log : List (Key × Observation Slot Content)) (key other : Key)
    (different : other ≠ key) (added : Observation Slot Content) :
    seenOf ((key, added) :: log) other = seenOf log other := by
  simp [seenOf, different.symm]

variable [LinearOrder Slot] (blank : Content)

def AllNewest (log : List (Key × Observation Slot Content)) (store : Key → Content) : Prop :=
  ∀ key, Newest blank (seenOf log key) (store key)

variable {blank} {log : List (Key × Observation Slot Content)} {store after : Key → Content}

/-- Only the key that something was seen of can go out of date. -/
theorem allNewest_cons_iff (before : AllNewest blank log store) (key : Key)
    (added : Observation Slot Content)
    (elsewhere : ∀ other, other ≠ key → after other = store other) :
    AllNewest blank ((key, added) :: log) after ↔
      Newest blank (added :: seenOf log key) (after key) := by
  constructor
  · intro all
    have own := all key
    rwa [seenOf_same] at own
  · intro own other
    by_cases same : other = key
    · rw [same, seenOf_same]
      exact own
    · rw [seenOf_other log key other same, elsewhere other same]
      exact before other

theorem allNewest_taken_iff (before : AllNewest blank log store) (key : Key)
    (added : Observation Slot Content) (taken : after key = added.content)
    (elsewhere : ∀ other, other ≠ key → after other = store other) :
    AllNewest blank ((key, added) :: log) after ↔
      NotOlder (seenOf log key) added.slot ∨ Newest blank (seenOf log key) added.content := by
  rw [allNewest_cons_iff before key added elsewhere, taken, newest_taken_iff]

theorem allNewest_left_iff (before : AllNewest blank log store) (key : Key)
    (added : Observation Slot Content) :
    AllNewest blank ((key, added) :: log) store ↔
      (∃ other ∈ seenOf log key, added.slot ≤ other.slot) ∨ added.content = store key := by
  rw [allNewest_cons_iff before key added (fun _ _ => rfl),
    newest_left_iff blank _ _ _ (before key)]

end Store

end Helios.LatestWins
