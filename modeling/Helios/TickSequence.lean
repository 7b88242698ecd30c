import Helios.TxBuilder

/-! The tick arrays of a Whirlpool swap are consecutive: the traversal moves from one
array to the next, and the builder goes on from where it stopped. -/

namespace Helios.TickSequence

open Orca

/-- So many consecutive arrays from `start` on. -/
def consecutive (start step : Int) (count : Nat) : List Int :=
  (List.range count).map (fun place : Nat => start + place * step)

@[simp] theorem length_consecutive (start step : Int) (count : Nat) :
    (consecutive start step count).length = count := by
  simp [consecutive]

theorem consecutive_succ (start step : Int) (count : Nat) :
    consecutive start step (count + 1) =
      consecutive start step count ++ [start + count * step] := by
  simp [consecutive, List.range_succ]

theorem getLast?_consecutive (start step : Int) (count : Nat) :
    (consecutive start step (count + 1)).getLast? = some (start + count * step) := by
  rw [consecutive_succ, List.getLast?_concat]

theorem head?_consecutive (start step : Int) (count : Nat) :
    (consecutive start step (count + 1)).head? = some start := by
  simp [consecutive, List.range_succ_eq_map]

theorem take_consecutive (start step : Int) (few count : Nat) (enough : few ≤ count) :
    (consecutive start step count).take few = consecutive start step few := by
  rw [consecutive, consecutive, ← List.map_take, List.take_range, Nat.min_eq_left enough]

theorem mem_consecutive (start step : Int) (count : Nat) (array : Int) :
    array ∈ consecutive start step count ↔ ∃ place < count, start + place * step = array := by
  simp [consecutive]

theorem not_mem_consecutive (start step : Int) (moves : step ≠ 0) (count : Nat) :
    start + count * step ∉ consecutive start step count := by
  rw [mem_consecutive]
  rintro ⟨place, before, same⟩
  have equal : (place : Int) = count := mul_right_cancel₀ moves (by linarith)
  omega

theorem nodup_consecutive (start step : Int) (moves : step ≠ 0) (count : Nat) :
    (consecutive start step count).Nodup := by
  induction count with
  | zero => exact List.nodup_nil
  | succ count ih =>
      rw [consecutive_succ, List.nodup_append]
      refine ⟨ih, List.nodup_singleton _, ?_⟩
      intro array member last inside same
      rw [List.mem_singleton.mp inside] at same
      exact not_mem_consecutive start step moves count (same ▸ member)

section Ticks

theorem tickArrayStartIndex_le (tick : Int) (tickSpacing : Nat) (spaced : 0 < tickSpacing) :
    tickArrayStartIndex tick tickSpacing ≤ tick := by
  have arrays := Int.ediv_mul_le (tick / tickSpacing) (b := 88) (by norm_num)
  have ticks := Int.ediv_mul_le tick (b := tickSpacing) (by omega)
  rw [tickArrayStartIndex, if_neg (by omega)]
  calc
    tick / tickSpacing / 88 * tickSpacing * 88
      = tick / tickSpacing / 88 * 88 * tickSpacing := by ring
    _ ≤ tick / tickSpacing * tickSpacing := by gcongr
    _ ≤ tick := ticks

theorem lt_tickArrayStartIndex_add (tick : Int) (tickSpacing : Nat) (spaced : 0 < tickSpacing) :
    tick < tickArrayStartIndex tick tickSpacing + tickArrayOffset tickSpacing := by
  have arrays := Int.lt_ediv_add_one_mul_self (tick / tickSpacing) (b := 88) (by norm_num)
  have ticks := Int.lt_ediv_add_one_mul_self tick (b := tickSpacing) (by omega)
  have whole : tick / tickSpacing + 1 ≤ (tick / tickSpacing / 88 + 1) * 88 := arrays
  rw [tickArrayStartIndex, if_neg (by omega), tickArrayOffset]
  calc
    tick < (tick / tickSpacing + 1) * tickSpacing := ticks
    _ ≤ (tick / tickSpacing / 88 + 1) * 88 * tickSpacing := by gcongr
    _ = tick / tickSpacing / 88 * tickSpacing * 88 + tickSpacing * 88 := by ring

theorem tickArrayOffset_dvd (tick : Int) (tickSpacing : Nat) :
    tickArrayOffset tickSpacing ∣ tickArrayStartIndex tick tickSpacing := by
  rw [tickArrayStartIndex]
  split
  · exact dvd_zero _
  · refine ⟨(tick.ediv tickSpacing).ediv orcaTickArraySize, ?_⟩
    rw [tickArrayOffset]
    ring

theorem tickArrayOffset_pos (tickSpacing : Nat) (spaced : 0 < tickSpacing) :
    0 < tickArrayOffset tickSpacing := by
  rw [tickArrayOffset, orcaTickArraySize]
  omega

theorem spacing_le_tickArrayOffset (tickSpacing : Nat) :
    (tickSpacing : Int) ≤ tickArrayOffset tickSpacing := by
  rw [tickArrayOffset, orcaTickArraySize]
  omega

/-- The one start whose array holds the tick. -/
theorem tickArrayStartIndex_unique (tick start : Int) (tickSpacing : Nat)
    (spaced : 0 < tickSpacing) (aligned : tickArrayOffset tickSpacing ∣ start) (low : start ≤ tick)
    (high : tick < start + tickArrayOffset tickSpacing) :
    tickArrayStartIndex tick tickSpacing = start := by
  have below := tickArrayStartIndex_le tick tickSpacing spaced
  have above := lt_tickArrayStartIndex_add tick tickSpacing spaced
  obtain ⟨place, found⟩ := tickArrayOffset_dvd tick tickSpacing
  obtain ⟨other, given⟩ := aligned
  have wide := tickArrayOffset_pos tickSpacing spaced
  rw [found] at below above ⊢
  rw [given] at low high ⊢
  have left : place < other + 1 := lt_of_mul_lt_mul_left (by linarith) wide.le
  have right : other < place + 1 := lt_of_mul_lt_mul_left (by linarith) wide.le
  rw [show place = other by omega]

/-- `b` is past `a` in the direction of the swap. -/
def Ahead (aToB : Bool) (a b : Int) : Prop := if aToB then b < a else a < b

theorem betterTick_cases (tickCurrent : Int) (aToB : Bool) (best : Option (Int × Int))
    (candidate : Int × Int) :
    betterTick tickCurrent aToB best candidate = best ∨
      (betterTick tickCurrent aToB best candidate = some candidate ∧
        Ahead aToB tickCurrent candidate.1) := by
  cases aToB with
  | false =>
      simp only [betterTick, Bool.false_eq_true, if_false]
      split
      · next better =>
          have order : tickCurrent < candidate.1 :=
            of_decide_eq_true ((Bool.and_eq_true _ _).mp better).1
          exact Or.inr ⟨rfl, order⟩
      · exact Or.inl rfl
  | true =>
      simp only [betterTick, if_true]
      split
      · next better =>
          have order : candidate.1 < tickCurrent :=
            of_decide_eq_true ((Bool.and_eq_true _ _).mp better).1
          exact Or.inr ⟨rfl, order⟩
      · exact Or.inl rfl

theorem betterTick_ahead (tickCurrent : Int) (aToB : Bool) (candidates : List (Int × Int))
    (start : Option (Int × Int)) (tick net : Int)
    (started : ∀ best, start = some best → Ahead aToB tickCurrent best.1)
    (found : candidates.foldl (betterTick tickCurrent aToB) start = some (tick, net)) :
    Ahead aToB tickCurrent tick := by
  induction candidates generalizing start with
  | nil => exact started (tick, net) found
  | cons candidate rest ih =>
      apply ih (betterTick tickCurrent aToB start candidate) _ found
      intro best kept
      rcases betterTick_cases tickCurrent aToB start candidate with same | ⟨taken, ahead⟩
      · exact started best (same ▸ kept)
      · rw [taken] at kept
        rw [← Option.some.inj kept]
        exact ahead

theorem nextInitializedTick_ahead (tickCurrent : Int) (tickSpacing : Nat) (aToB : Bool)
    (tickArrays : HashMap Int OrcaTickArray) (tick net : Int)
    (found : nextInitializedTick tickCurrent tickSpacing aToB tickArrays = some (tick, net)) :
    Ahead aToB tickCurrent tick :=
  betterTick_ahead tickCurrent aToB _ none tick net (fun _ absurd => nomatch absurd) found

/-- Where an event lies. -/
def eventTick : TraversalEvent → Int
  | .initializedTick tick _ => tick
  | .arrayBoundary tick => tick

/-- The event of a turn that starts at the tick. -/
def turnEvent (tickCurrent : Int) (tickSpacing : Nat) (aToB : Bool)
    (tickArrays : HashMap Int OrcaTickArray) : TraversalEvent :=
  nextEvent tickCurrent (tickArrayStartIndex tickCurrent tickSpacing)
    (tickArrayStartIndex tickCurrent tickSpacing + tickArrayOffset tickSpacing)
    tickSpacing aToB tickArrays

/-- An event lies between the tick and the boundary ahead, wherever the initialized
ticks of the cached arrays are. -/
theorem turnEvent_within (tickCurrent : Int) (tickSpacing : Nat) (spaced : 0 < tickSpacing)
    (aToB : Bool) (tickArrays : HashMap Int OrcaTickArray) :
    let start := tickArrayStartIndex tickCurrent tickSpacing
    let target := eventTick (turnEvent tickCurrent tickSpacing aToB tickArrays)
    if aToB then start ≤ target ∧ target ≤ tickCurrent
    else tickCurrent < target ∧ target ≤ start + tickArrayOffset tickSpacing := by
  have low := tickArrayStartIndex_le tickCurrent tickSpacing spaced
  have high := lt_tickArrayStartIndex_add tickCurrent tickSpacing spaced
  unfold turnEvent nextEvent
  cases found : nextInitializedTick tickCurrent tickSpacing aToB tickArrays with
  | none =>
      cases aToB with
      | false => exact ⟨high, le_rfl⟩
      | true => exact ⟨le_rfl, low⟩
  | some next =>
      have ahead := nextInitializedTick_ahead tickCurrent tickSpacing aToB tickArrays
        next.1 next.2 found
      cases aToB with
      | false =>
          simp only [Bool.false_eq_true, if_false]
          split
          · next within => exact ⟨ahead, within⟩
          · exact ⟨high, le_rfl⟩
      | true =>
          simp only [if_true]
          split
          · next within => exact ⟨within, Int.le_of_lt ahead⟩
          · exact ⟨le_rfl, low⟩

/-- How far apart consecutive arrays are, in the direction of the swap. -/
def arrayStep (aToB : Bool) (tickSpacing : Nat) : Int :=
  if aToB then -tickArrayOffset tickSpacing else tickArrayOffset tickSpacing

theorem arrayStep_ne_zero (aToB : Bool) (tickSpacing : Nat) (spaced : 0 < tickSpacing) :
    arrayStep aToB tickSpacing ≠ 0 := by
  have positive := tickArrayOffset_pos tickSpacing spaced
  cases aToB with
  | false => exact positive.ne'
  | true => exact (neg_neg_of_pos positive).ne

/-- The tick a turn leaves the traversal at. -/
def turnTick (tickCurrent : Int) (tickSpacing : Nat) (aToB : Bool)
    (tickArrays : HashMap Int OrcaTickArray) : Int :=
  let target := eventTick (turnEvent tickCurrent tickSpacing aToB tickArrays)
  if aToB then target - tickSpacing else target

theorem turnTick_array (tickCurrent : Int) (tickSpacing : Nat) (spaced : 0 < tickSpacing)
    (aToB : Bool) (tickArrays : HashMap Int OrcaTickArray) :
    let start := tickArrayStartIndex tickCurrent tickSpacing
    let next := tickArrayStartIndex (turnTick tickCurrent tickSpacing aToB tickArrays) tickSpacing
    next = start ∨ next = start + arrayStep aToB tickSpacing := by
  have within := turnEvent_within tickCurrent tickSpacing spaced aToB tickArrays
  have low := tickArrayStartIndex_le tickCurrent tickSpacing spaced
  have high := lt_tickArrayStartIndex_add tickCurrent tickSpacing spaced
  have aligned := tickArrayOffset_dvd tickCurrent tickSpacing
  have narrow := spacing_le_tickArrayOffset tickSpacing
  have wide := tickArrayOffset_pos tickSpacing spaced
  cases aToB with
  | false =>
      simp only [Bool.false_eq_true, if_false, turnTick, arrayStep] at within ⊢
      by_cases inside : eventTick (turnEvent tickCurrent tickSpacing false tickArrays) <
          tickArrayStartIndex tickCurrent tickSpacing + tickArrayOffset tickSpacing
      · left
        exact tickArrayStartIndex_unique _ _ tickSpacing spaced aligned (by linarith) inside
      · right
        exact tickArrayStartIndex_unique _ _ tickSpacing spaced
          (dvd_add aligned (dvd_refl _)) (by linarith) (by linarith)
  | true =>
      simp only [if_true, turnTick, arrayStep] at within ⊢
      by_cases inside : tickArrayStartIndex tickCurrent tickSpacing ≤
          eventTick (turnEvent tickCurrent tickSpacing true tickArrays) - tickSpacing
      · left
        exact tickArrayStartIndex_unique _ _ tickSpacing spaced aligned inside (by linarith)
      · right
        exact tickArrayStartIndex_unique _ _ tickSpacing spaced
          (dvd_add aligned (dvd_neg.mpr (dvd_refl _))) (by linarith) (by linarith)

end Ticks

section Traversals

variable {F : Type} [FloatArith F] (powf : F → F → F)

/-- The arrays so far are consecutive, and the current tick is in the last of them or
in the one after. -/
def Contiguous (start step : Int) (tickSpacing : Nat) (arrays : List Int)
    (tickCurrent : Int) : Prop :=
  ∃ count : Nat, arrays = consecutive start step (count + 1) ∧
    (tickArrayStartIndex tickCurrent tickSpacing = start + count * step ∨
      tickArrayStartIndex tickCurrent tickSpacing = start + (count + 1) * step)

/-- The same with the current tick in the last array. -/
def AtLast (start step : Int) (tickSpacing : Nat) (arrays : List Int) (tickCurrent : Int) : Prop :=
  ∃ count : Nat, arrays = consecutive start step (count + 1) ∧
    tickArrayStartIndex tickCurrent tickSpacing = start + count * step

theorem contiguous_of_atLast (start step : Int) (tickSpacing : Nat) (arrays : List Int)
    (tickCurrent : Int) (held : AtLast start step tickSpacing arrays tickCurrent) :
    Contiguous start step tickSpacing arrays tickCurrent := by
  obtain ⟨count, shape, here⟩ := held
  exact ⟨count, shape, Or.inl here⟩

theorem atLast_push (start step : Int) (moves : step ≠ 0) (tickSpacing : Nat)
    (arrays : List Int) (tickCurrent : Int)
    (held : Contiguous start step tickSpacing arrays tickCurrent) :
    AtLast start step tickSpacing
      (pushArray arrays (tickArrayStartIndex tickCurrent tickSpacing)) tickCurrent := by
  obtain ⟨count, shape, here | next⟩ := held
  · refine ⟨count, ?_, here⟩
    rw [pushArray, shape, getLast?_consecutive, here, if_pos rfl]
  · refine ⟨count + 1, ?_, by rw [next]; push_cast; ring⟩
    have fresh : ¬ some (start + count * step) = some (start + (count + 1) * step) := by
      intro same
      have equal := Option.some.inj same
      exact moves (by linarith)
    rw [pushArray, shape, getLast?_consecutive, next, if_neg fresh, consecutive_succ _ _ (count + 1)]
    push_cast
    rfl

theorem contiguous_move (start : Int) (aToB : Bool) (tickSpacing : Nat)
    (spaced : 0 < tickSpacing) (tickArrays : HashMap Int OrcaTickArray) (arrays : List Int)
    (tickCurrent : Int)
    (held : AtLast start (arrayStep aToB tickSpacing) tickSpacing arrays tickCurrent) :
    Contiguous start (arrayStep aToB tickSpacing) tickSpacing arrays
      (turnTick tickCurrent tickSpacing aToB tickArrays) := by
  obtain ⟨count, shape, here⟩ := held
  refine ⟨count, shape, ?_⟩
  rcases turnTick_array tickCurrent tickSpacing spaced aToB tickArrays with same | next
  · exact Or.inl (same.trans here)
  · right
    rw [next, here]
    ring

theorem contiguous_step (feeFactor : F) (start : Int) (aToB : Bool) (tickSpacing : Nat)
    (spaced : 0 < tickSpacing) (tickArrays : HashMap Int OrcaTickArray) (t : Traversal F)
    (held : Contiguous start (arrayStep aToB tickSpacing) tickSpacing t.traversedArrays
      t.tickCurrent) :
    Contiguous start (arrayStep aToB tickSpacing) tickSpacing
      (traversalStep powf feeFactor aToB tickSpacing tickArrays t).1.traversedArrays
      (traversalStep powf feeFactor aToB tickSpacing tickArrays t).1.tickCurrent := by
  have moves := arrayStep_ne_zero aToB tickSpacing spaced
  have pushed := atLast_push start _ moves tickSpacing t.traversedArrays t.tickCurrent held
  have moved := contiguous_move start aToB tickSpacing spaced tickArrays _ _ pushed
  have stays := contiguous_of_atLast start _ tickSpacing _ _ pushed
  unfold traversalStep
  split
  · exact held
  · dsimp only
    rw [turnTick, turnEvent] at moved
    generalize nextEvent t.tickCurrent _ _ tickSpacing aToB tickArrays = found at moved
    cases found with
    | initializedTick tick net =>
        dsimp only [eventTick] at moved ⊢
        split
        · exact moved
        · exact stays
    | arrayBoundary tick =>
        dsimp only [eventTick] at moved ⊢
        split
        · exact contiguous_of_atLast start _ tickSpacing _ _
            (atLast_push start _ moves tickSpacing _ _ moved)
        · exact stays

theorem contiguous_loop (feeFactor : F) (start : Int) (aToB : Bool) (tickSpacing : Nat)
    (spaced : 0 < tickSpacing) (tickArrays : HashMap Int OrcaTickArray) (fuel : Nat)
    (t : Traversal F)
    (held : Contiguous start (arrayStep aToB tickSpacing) tickSpacing t.traversedArrays
      t.tickCurrent) :
    Contiguous start (arrayStep aToB tickSpacing) tickSpacing
      (traversalLoop powf feeFactor aToB tickSpacing tickArrays fuel t).traversedArrays
      (traversalLoop powf feeFactor aToB tickSpacing tickArrays fuel t).tickCurrent := by
  induction fuel generalizing t with
  | zero => exact held
  | succ fuel ih =>
      have next := contiguous_step powf feeFactor start aToB tickSpacing spaced tickArrays t held
      rw [traversalLoop]
      split
      · next moved stepped =>
          rw [stepped] at next
          exact ih moved next
      · next moved stepped =>
          rw [stepped] at next
          exact next

theorem contiguous_start (tickCurrent step : Int) (tickSpacing : Nat) :
    Contiguous (tickArrayStartIndex tickCurrent tickSpacing) step tickSpacing
      [tickArrayStartIndex tickCurrent tickSpacing] tickCurrent :=
  ⟨0, by simp [consecutive], Or.inl (by simp)⟩

/-- Whatever the cached arrays hold and the prices come to, a quote crosses its arrays
one after the other, from the current one on. -/
theorem traversedArrays_consecutive (amountIn : Nat) (aToB : Bool)
    (sqrtPriceX64 liquidity : Nat) (tickCurrentIndex : Int) (tickSpacing feeBps : Nat)
    (spaced : 0 < tickSpacing) (tickArrays : HashMap Int OrcaTickArray) :
    ∃ count : Nat, (quoteExactIn powf amountIn aToB sqrtPriceX64 liquidity tickCurrentIndex
      tickSpacing feeBps tickArrays).traversedArrays =
        consecutive (tickArrayStartIndex tickCurrentIndex tickSpacing)
          (arrayStep aToB tickSpacing) (count + 1) := by
  rw [quoteExactIn]
  dsimp only
  split
  · exact ⟨0, by simp [consecutive]⟩
  · have final := contiguous_loop powf
      (FloatArith.div (FloatArith.max (FloatArith.sub (FloatArith.ofNat 10000)
        (FloatArith.ofNat feeBps)) (FloatArith.ofNat 0)) (FloatArith.ofNat 10000))
      _ aToB tickSpacing spaced tickArrays 512
      ⟨FloatArith.ofNat amountIn, FloatArith.ofNat 0, sqrtPriceX64ToFloat sqrtPriceX64,
        FloatArith.ofNat liquidity, tickCurrentIndex,
        [tickArrayStartIndex tickCurrentIndex tickSpacing]⟩
      (contiguous_start tickCurrentIndex (arrayStep aToB tickSpacing) tickSpacing)
    obtain ⟨count, shape, -⟩ := final
    exact ⟨count, shape⟩

end Traversals

section Builder

theorem dedup_nodup (starts kept : List Int) (distinct : (kept ++ starts).Nodup) :
    starts.foldl (fun kept start => if start ∈ kept then kept else kept ++ [start]) kept =
      kept ++ starts := by
  induction starts generalizing kept with
  | nil => simp
  | cons start starts ih =>
      have fresh : start ∉ kept := by
        intro member
        exact (List.nodup_append.mp distinct).2.2 start member start List.mem_cons_self rfl
      have split : kept ++ start :: starts = (kept ++ [start]) ++ starts := by simp
      rw [List.foldl_cons, if_neg fresh, split]
      exact ih (kept ++ [start]) (split ▸ distinct)

theorem dedupStarts_consecutive (start step : Int) (moves : step ≠ 0) (count : Nat) :
    dedupStarts (consecutive start step count) = consecutive start step count :=
  dedup_nodup (consecutive start step count) [] (nodup_consecutive start step moves count)

theorem extendTickArrays_consecutive (start step : Int) (moves : step ≠ 0) (fuel count : Nat) :
    extendTickArrays step fuel (consecutive start step (count + 1)) =
      consecutive start step (count + 1 + min fuel (4 - count)) := by
  induction fuel generalizing count with
  | zero => simp [extendTickArrays]
  | succ fuel ih =>
      have last : (consecutive start step (count + 1)).getLastD 0 = start + count * step := by
        rw [List.getLastD_eq_getLast?, getLast?_consecutive]
        rfl
      have next : start + count * step + step = start + (count + 1 : Nat) * step := by
        push_cast
        ring
      rw [extendTickArrays, length_consecutive]
      by_cases short : count + 1 < 5
      · rw [if_pos short, last, next]
        dsimp only
        rw [if_neg (not_mem_consecutive start step moves (count + 1)), ← consecutive_succ, ih]
        congr 1
        omega
      · rw [if_neg short]
        congr 1
        omega

/-- The arrays the builder asks for: those the quote crosses, and at least five. -/
theorem orderedTickArrayStarts_eq {F : Type} [FloatArith F] (powf : F → F → F)
    (orca : OrcaMetadata) (spaced : 0 < orca.tickSpacing) (amountIn feeBps : Nat) (aToB : Bool) :
    ∃ count, 5 ≤ count ∧ orderedTickArrayStarts powf orca amountIn feeBps aToB =
      consecutive (tickArrayStartIndex orca.tickCurrentIndex orca.tickSpacing)
        (arrayStep aToB orca.tickSpacing) count := by
  have moves := arrayStep_ne_zero aToB orca.tickSpacing spaced
  obtain ⟨crossed, shape⟩ : ∃ crossed : Nat, (if orca.tickArrays.entries ≠ [] then
      (quoteExactIn powf amountIn aToB orca.sqrtPrice orca.liquidity orca.tickCurrentIndex
        orca.tickSpacing feeBps orca.tickArrays).traversedArrays
      else [tickArrayStartIndex orca.tickCurrentIndex orca.tickSpacing]) =
        consecutive (tickArrayStartIndex orca.tickCurrentIndex orca.tickSpacing)
          (arrayStep aToB orca.tickSpacing) (crossed + 1) := by
    split
    · exact traversedArrays_consecutive powf amountIn aToB orca.sqrtPrice orca.liquidity
        orca.tickCurrentIndex orca.tickSpacing feeBps spaced orca.tickArrays
    · exact ⟨0, by simp [consecutive]⟩
  have filled : consecutive (tickArrayStartIndex orca.tickCurrentIndex orca.tickSpacing)
      (arrayStep aToB orca.tickSpacing) (crossed + 1) ≠ [] := by
    rw [← List.length_pos_iff, length_consecutive]
    omega
  refine ⟨crossed + 1 + min 5 (4 - crossed), by omega, ?_⟩
  rw [orderedTickArrayStarts, shape, if_neg filled, if_pos (head?_consecutive _ _ crossed),
    dedupStarts_consecutive _ _ moves]
  exact extendTickArrays_consecutive _ _ moves 5 crossed

theorem orderedTickArrayStarts_long {F : Type} [FloatArith F] (powf : F → F → F)
    (orca : OrcaMetadata) (spaced : orca.tickSpacing ≠ 0) (amountIn feeBps : Nat) (aToB : Bool) :
    5 ≤ (orderedTickArrayStarts powf orca amountIn feeBps aToB).length := by
  obtain ⟨count, enough, shape⟩ :=
    orderedTickArrayStarts_eq powf orca (Nat.pos_of_ne_zero spaced) amountIn feeBps aToB
  rw [shape, length_consecutive]
  exact enough

end Builder

end Helios.TickSequence
