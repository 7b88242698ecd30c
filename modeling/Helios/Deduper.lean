import Helios.ArrivalOrder
import Helios.LruCache
import Mathlib.Data.List.DropRight

/-! The deduplication in front of the assembler: what it lets through, and the keys it
remembers. A duplicate changes nothing. -/

namespace Helios

section LastDistinct

variable {α : Type} [DecidableEq α]

/-- The last distinct items, each at its latest place. -/
def lastDistinct (count : Nat) (items : List α) : List α := items.dedup.rtake count

/-- The last items are the last distinct ones where they differ from each other. -/
theorem lastDistinct_eq_rtake (count : Nat) (items : List α)
    (distinct : (items.rtake count).Nodup) : lastDistinct count items = items.rtake count := by
  by_cases short : items.length ≤ count
  · have whole : items.rtake count = items := by
      rw [List.rtake, Nat.sub_eq_zero_of_le short, List.drop_zero]
    rw [whole] at distinct
    rw [lastDistinct, List.Nodup.dedup distinct]
  · have parts : items.take (items.length - count) ++ items.rtake count = items :=
      List.take_append_drop _ _
    have full : (items.rtake count).length = count := by
      rw [List.rtake, List.length_drop]
      omega
    have kept : items.rtake count <:+ items.dedup := by
      conv_rhs => rw [← parts, List.dedup_append, List.Nodup.dedup distinct]
      exact List.suffix_union_right _ _
    rcases kept with ⟨before, same⟩
    have place : (before ++ items.rtake count).length - count = before.length := by
      rw [List.length_append, full]
      omega
    rw [lastDistinct, ← same]
    conv_lhs => rw [List.rtake, place, List.drop_left]

end LastDistinct

namespace LruCache

variable {K V : Type} [DecidableEq K]

def keys (cache : LruCache K V) : List K := cache.entries.map Prod.fst

/-- A new key goes in front of the others, which keep their order. -/
theorem keys_put_new (cache : LruCache K V) (key : K) (value : V)
    (absent : cache.contains key = false) :
    (cache.put key value).keys = (key :: cache.keys).take cache.capacity := by
  have others : cache.without key = cache.entries := by
    rw [without, List.filter_eq_self]
    intro entry member
    rw [decide_eq_true_iff]
    intro same
    have held := (cache.contains_iff key).mpr ⟨entry.2, same ▸ member⟩
    rw [absent] at held
    cases held
  rw [keys, entries_put, others, List.map_take]
  rfl

end LruCache

structure Deduper where
  cache : LruCache Nat Unit

namespace Deduper

def new (capacity : Nat) : Deduper := ⟨LruCache.new (max capacity 1) (LruCache.room capacity)⟩

section

variable (fingerprint : DedupKey → Nat)

/-- A fresh key is put into the cache. -/
def isDuplicate (deduper : Deduper) (shred : ParsedShred) : Bool × Deduper :=
  let key := fingerprint (DedupKey.fromShred shred)
  if deduper.cache.contains key then (true, deduper)
  else (false, ⟨deduper.cache.put key ()⟩)

def accept (deduper : Deduper) (shred : ParsedShred) : Bool × Deduper :=
  let answer := isDuplicate fingerprint deduper shred
  (!answer.1, answer.2)

/-! Runs, with the keys accepted so far. -/

structure Watched where
  deduper : Deduper
  accepted : List DedupKey

def start (capacity : Nat) : Watched := ⟨new capacity, []⟩

def watch (watched : Watched) (shred : ParsedShred) : Watched :=
  let answer := accept fingerprint watched.deduper shred
  ⟨answer.2, if answer.1 then watched.accepted ++ [DedupKey.fromShred shred] else watched.accepted⟩

/-- The cache holds the keys accepted last, the latest first. -/
structure Remembers (capacity : Nat) (shreds : List ParsedShred) (watched : Watched) : Prop where
  sized : watched.deduper.cache.capacity = max capacity 1
  held : watched.deduper.cache.keys =
    (watched.accepted.reverse.take (max capacity 1)).map fingerprint
  seen : ∀ key ∈ watched.accepted, ∃ shred ∈ shreds, DedupKey.fromShred shred = key

theorem remembers_start (capacity : Nat) (shreds : List ParsedShred) :
    Remembers fingerprint capacity shreds (start capacity) :=
  ⟨rfl, by simp [start, new, LruCache.keys, LruCache.new], by simp [start]⟩

theorem remembers_watch (capacity : Nat) (shreds : List ParsedShred) (watched : Watched)
    (shred : ParsedShred) (member : shred ∈ shreds)
    (before : Remembers fingerprint capacity shreds watched) :
    Remembers fingerprint capacity shreds (watch fingerprint watched shred) := by
  cases held : watched.deduper.cache.contains (fingerprint (DedupKey.fromShred shred)) with
  | true =>
      have same : watch fingerprint watched shred = watched := by
        simp [watch, accept, isDuplicate, held]
      rw [same]
      exact before
  | false =>
      have next : watch fingerprint watched shred =
          ⟨⟨watched.deduper.cache.put (fingerprint (DedupKey.fromShred shred)) ()⟩,
            watched.accepted ++ [DedupKey.fromShred shred]⟩ := by
        simp [watch, accept, isDuplicate, held]
      rw [next]
      refine ⟨before.sized, ?_, ?_⟩
      · have room : ∃ rest, max capacity 1 = rest + 1 := ⟨max capacity 1 - 1, by omega⟩
        rcases room with ⟨rest, room⟩
        rw [LruCache.keys_put_new _ _ _ held, before.sized, before.held, room,
          List.reverse_append, List.reverse_singleton, List.singleton_append,
          List.take_succ_cons, List.take_succ_cons, List.map_cons, ← List.map_take,
          List.take_take, Nat.min_eq_left (Nat.le_succ rest)]
      · intro key listed
        rcases List.mem_append.mp listed with earlier | last
        · exact before.seen key earlier
        · exact ⟨shred, member, (List.mem_singleton.mp last).symm⟩

theorem remembers_run (capacity : Nat) (shreds : List ParsedShred) :
    Remembers fingerprint capacity shreds
      (Runs.run (watch fingerprint) (start capacity) shreds) := by
  apply Runs.run_invariant
  · exact remembers_start fingerprint capacity shreds
  · intro pair member before
    exact remembers_watch fingerprint capacity shreds pair.1 pair.2
      (Runs.trace_input _ _ _ pair member) before

/-- The last keys accepted differ from each other, since the cache does not repeat a key. -/
theorem window_distinct (capacity : Nat) (shreds : List ParsedShred) (watched : Watched)
    (remembers : Remembers fingerprint capacity shreds watched) :
    (watched.accepted.rtake (max capacity 1)).Nodup := by
  have distinct := watched.deduper.cache.distinct
  change watched.deduper.cache.keys.Nodup at distinct
  rw [remembers.held] at distinct
  rw [List.rtake_eq_reverse_take_reverse, List.nodup_reverse]
  exact List.Nodup.of_map _ distinct

/-- After any shreds, one more is accepted exactly if its key is not among the last distinct
keys accepted, as many as the cache has room for, and a duplicate leaves the cache as it is. -/
theorem accepted_iff_outside_window (capacity : Nat) (shreds : List ParsedShred)
    (shred : ParsedShred)
    (noCollision : Set.InjOn fingerprint {key | ∃ seen ∈ shred :: shreds,
      DedupKey.fromShred seen = key}) :
    let watched := Runs.run (watch fingerprint) (start capacity) shreds
    let window := lastDistinct (max capacity 1) watched.accepted
    ((accept fingerprint watched.deduper shred).1 = true ↔ DedupKey.fromShred shred ∉ window) ∧
      window = watched.accepted.rtake (max capacity 1) ∧
      ((isDuplicate fingerprint watched.deduper shred).1 = true →
        (isDuplicate fingerprint watched.deduper shred).2 = watched.deduper) := by
  intro watched window
  have remembers := remembers_run fingerprint capacity shreds
  have plain : window = watched.accepted.rtake (max capacity 1) :=
    lastDistinct_eq_rtake _ _ (window_distinct fingerprint capacity shreds watched remembers)
  have known : watched.deduper.cache.contains (fingerprint (DedupKey.fromShred shred)) = true ↔
      DedupKey.fromShred shred ∈ window := by
    rw [LruCache.contains, decide_eq_true_iff, plain, List.rtake_eq_reverse_take_reverse,
      List.mem_reverse]
    change _ ∈ watched.deduper.cache.keys ↔ _
    rw [remembers.held, List.mem_map]
    constructor
    · rintro ⟨key, inside, same⟩
      rcases remembers.seen key (List.mem_reverse.mp (List.mem_of_mem_take inside)) with
        ⟨origin, member, made⟩
      have equal := noCollision ⟨origin, List.mem_cons_of_mem _ member, made⟩
        ⟨shred, List.mem_cons_self, rfl⟩ same
      rwa [← equal]
    · intro inside
      exact ⟨DedupKey.fromShred shred, inside, rfl⟩
  refine ⟨?_, plain, ?_⟩
  · rw [← known]
    cases held : watched.deduper.cache.contains (fingerprint (DedupKey.fromShred shred)) with
    | true => simp [accept, isDuplicate, held]
    | false => simp [accept, isDuplicate, held]
  · cases held : watched.deduper.cache.contains (fingerprint (DedupKey.fromShred shred)) with
    | true => simp [isDuplicate, held]
    | false => simp [isDuplicate, held]

end

section Sample

open ArrivalOrder

/-- The hashes of the first two data shreds of slot 5, as the default hasher gives them. -/
def slotFiveHash (key : DedupKey) : Nat :=
  if key.index = 0 then 8300236363824418530 else 15995558387208449591

/-- With no capacity asked for there is room for one key. -/
theorem zero_capacity_rejects_repeat :
    let shred := shortShred 0 (by decide) false
    let watched := Runs.run (watch slotFiveHash) (start 0) [shred]
    ¬((accept slotFiveHash watched.deduper shred).1 = true ↔
      DedupKey.fromShred shred ∉ lastDistinct 0 watched.accepted) := by
  decide

theorem accepted_iff_outside_window_twoShreds :
    let watched := Runs.run (watch slotFiveHash) (start 1) twoShreds
    let window := lastDistinct 1 watched.accepted
    let shred := shortShred 0 (by decide) false
    ((accept slotFiveHash watched.deduper shred).1 = true ↔ DedupKey.fromShred shred ∉ window) ∧
      window = watched.accepted.rtake 1 ∧
      ((isDuplicate slotFiveHash watched.deduper shred).1 = true →
        (isDuplicate slotFiveHash watched.deduper shred).2 = watched.deduper) := by
  apply accepted_iff_outside_window slotFiveHash 1 twoShreds (shortShred 0 (by decide) false)
  rintro first ⟨origin, member, made⟩ second ⟨other, inside, same⟩ equal
  simp only [twoShreds, List.mem_cons, List.not_mem_nil, or_false] at member inside
  rcases member with rfl | rfl | rfl <;> rcases inside with rfl | rfl | rfl <;> subst made same <;>
    first | rfl | exact absurd equal (by decide)

end Sample

end Deduper

end Helios
