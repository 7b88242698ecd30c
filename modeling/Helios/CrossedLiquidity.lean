import Helios.TickCrossings

/-! The liquidity a Whirlpool quote changes on its way. -/

namespace Helios.TickCrossings

open Orca TickSequence TickArrays

variable {F : Type} [FloatArith F] (powf : F → F → F) (feeFactor : F) (aToB : Bool)
  (tickSpacing : Nat) (tickArrays : HashMap Int OrcaTickArray)

/-- The initialized ticks whose net liquidity the loop applies, turn by turn, for whatever prices
are reached. -/
def crossedTicks : Nat → Traversal F → List (Int × Int)
  | 0, _ => []
  | fuel + 1, t =>
      match traversalStep powf feeFactor aToB tickSpacing tickArrays t with
      | (next, true) =>
          crossedBy tickSpacing aToB tickArrays t.tickCurrent ++ crossedTicks fuel next
      | (_, false) => []

/-- The net liquidity of a tick, with the sign of the direction. -/
def applyNet (liquidity : F) (entry : Int × Int) : F :=
  let held : Int := FloatArith.toNat liquidity
  FloatArith.ofNat (if aToB then held - entry.2 else held + entry.2).toNat

/-- A turn that goes on ends at the target of its tick, with the net liquidity applied; one that
does not leaves both as they are. -/
theorem traversalStep_spec (t : Traversal F) :
    let result := traversalStep powf feeFactor aToB tickSpacing tickArrays t
    if result.2 then
      result.1.tickCurrent = turnTick t.tickCurrent tickSpacing aToB tickArrays ∧
        result.1.liquidity = (crossedBy tickSpacing aToB tickArrays t.tickCurrent).foldl
          (applyNet aToB) t.liquidity
    else result.1.tickCurrent = t.tickCurrent ∧ result.1.liquidity = t.liquidity := by
  unfold traversalStep turnTick crossedBy turnEvent
  split
  · exact ⟨rfl, rfl⟩
  · dsimp only
    generalize nextEvent t.tickCurrent _ _ tickSpacing aToB tickArrays = found
    cases found with
    | initializedTick tick net =>
        dsimp only [eventTick]
        split
        · exact ⟨rfl, rfl⟩
        · exact ⟨rfl, rfl⟩
    | arrayBoundary tick =>
        dsimp only [eventTick]
        split
        · exact ⟨rfl, rfl⟩
        · exact ⟨rfl, rfl⟩

/-- The loop is so many turns. -/
theorem loop_along (fuel : Nat) (t : Traversal F) :
    ∃ turns ≤ fuel,
      (traversalLoop powf feeFactor aToB tickSpacing tickArrays fuel t).tickCurrent =
        tickAfter tickSpacing aToB tickArrays turns t.tickCurrent ∧
      crossedTicks powf feeFactor aToB tickSpacing tickArrays fuel t =
        crossedAlong tickSpacing aToB tickArrays turns t.tickCurrent ∧
      (traversalLoop powf feeFactor aToB tickSpacing tickArrays fuel t).liquidity =
        (crossedTicks powf feeFactor aToB tickSpacing tickArrays fuel t).foldl (applyNet aToB)
          t.liquidity := by
  induction fuel generalizing t with
  | zero => exact ⟨0, Nat.le_refl 0, rfl, rfl, rfl⟩
  | succ fuel ih =>
      have spec := traversalStep_spec powf feeFactor aToB tickSpacing tickArrays t
      rw [traversalLoop, crossedTicks]
      rcases result : traversalStep powf feeFactor aToB tickSpacing tickArrays t with ⟨next, goesOn⟩
      rw [result] at spec
      cases goesOn with
      | true =>
          rcases spec with ⟨tick, liquidity⟩
          rcases ih next with ⟨turns, few, last, crossed, applied⟩
          dsimp only at tick liquidity ⊢
          refine ⟨turns + 1, by omega, ?_, ?_, ?_⟩
          · rw [last, tick, tickAfter]
          · rw [crossed, tick, crossedAlong]
          · rw [applied, liquidity, List.foldl_append]
      | false => exact ⟨0, Nat.zero_le _, spec.1, rfl, spec.2⟩

/-- The tick lies on the way from the first tick to the price the loop has reached: one spacing
above the last tick when prices fall, where it already stands one spacing further down. -/
def Passed (first last tick : Int) : Prop :=
  if aToB then last + tickSpacing ≤ tick ∧ tick ≤ first else first < tick ∧ tick ≤ last

/-- The net liquidity of every initialized tick on the way is applied, once and with the sign of
the direction, and that of no other. -/
structure CrossesEach (fuel : Nat) (t : Traversal F) : Prop where
  each : ∀ entry, entry ∈ crossedTicks powf feeFactor aToB tickSpacing tickArrays fuel t ↔
    entry ∈ initializedTicks tickSpacing tickArrays ∧
      Passed aToB tickSpacing t.tickCurrent
        (traversalLoop powf feeFactor aToB tickSpacing tickArrays fuel t).tickCurrent entry.1
  once : (crossedTicks powf feeFactor aToB tickSpacing tickArrays fuel t).Nodup
  applied : (traversalLoop powf feeFactor aToB tickSpacing tickArrays fuel t).liquidity =
    (crossedTicks powf feeFactor aToB tickSpacing tickArrays fuel t).foldl (applyNet aToB)
      t.liquidity

/-- Downwards, the first tick itself, and a tick one spacing below an initialized one on the way
or below the start of an array. -/
def PassedOver (first tick : Int) : Prop :=
  aToB ∧ (tick = first ∨
    (tick + tickSpacing ≤ first ∧
      ∃ net, (tick + tickSpacing, net) ∈ initializedTicks tickSpacing tickArrays) ∨
    (tick + tickSpacing ≤ first ∧ tickArrayOffset tickSpacing ∣ tick + tickSpacing))

section Turns

variable {tickSpacing} {tickArrays} (arrays : WhirlpoolArrays tickSpacing tickArrays)
  (spaced : 0 < tickSpacing)

include arrays spaced

theorem crossedAlong_nodup (turns : Nat) (tickCurrent : Int) :
    (crossedAlong tickSpacing aToB tickArrays turns tickCurrent).Nodup := by
  induction turns generalizing tickCurrent with
  | zero => exact List.nodup_nil
  | succ turns ih =>
      rw [crossedAlong]
      apply List.Nodup.append
      · rw [crossedBy]
        split
        · exact List.nodup_singleton _
        · exact List.nodup_nil
      · exact ih _
      · intro entry here later
        have target := crossedBy_target tickSpacing aToB tickArrays tickCurrent entry here
        cases aToB with
        | false =>
            have above := ((up_crossed arrays spaced _ _ entry).mp later).2.1
            rw [up_target] at above
            omega
        | true =>
            have below := ((down_crossed arrays spaced _ _ entry).mp later).2.2.1
            rw [down_step] at below
            omega

/-- What is passed over is exactly what is missed. -/
theorem along_each_iff (turns : Nat) (first : Int) :
    (∀ entry, entry ∈ crossedAlong tickSpacing aToB tickArrays turns first ↔
      entry ∈ initializedTicks tickSpacing tickArrays ∧
        Passed aToB tickSpacing first (tickAfter tickSpacing aToB tickArrays turns first) entry.1) ↔
    ∀ entry ∈ initializedTicks tickSpacing tickArrays,
      Passed aToB tickSpacing first (tickAfter tickSpacing aToB tickArrays turns first) entry.1 →
        ¬ PassedOver aToB tickSpacing tickArrays first entry.1 := by
  cases aToB with
  | false =>
      constructor
      · intro _ entry _ _ over_
        exact Bool.false_ne_true over_.1
      · intro _ entry
        exact up_crossed arrays spaced turns first entry
  | true =>
      constructor
      · intro each entry member passed over_
        have crossed := (each entry).mpr ⟨member, passed⟩
        rcases (down_crossed arrays spaced turns first entry).mp crossed with
          ⟨-, above, below, apart⟩
        rcases over_.2 with same | ⟨within, net, upper⟩ | ⟨within, aligned⟩
        · omega
        · -- The tick above is on the way as well, so it is crossed and a target.
          have crossedUpper := (each _).mpr ⟨upper, show _ ∧ _ from ⟨by dsimp only; omega, within⟩⟩
          exact apart (crossed_target turns first _ crossedUpper)
        · apply apart
          exact boundary_mem_targets arrays spaced turns first _ aligned
            (le_tickArrayStartIndex spaced _ _ aligned within) (by omega)
      · intro none_ entry
        rw [down_crossed arrays spaced turns first entry]
        constructor
        · intro ⟨member, above, below, _⟩
          exact ⟨member, above, by omega⟩
        · intro ⟨member, above, below⟩
          have free := none_ entry member ⟨above, below⟩
          refine ⟨member, above, ?_, ?_⟩
          · by_contra reached
            exact free ⟨rfl, Or.inl (by omega)⟩
          · intro target
            have within := targetsAlong_le tickArrays spaced turns first _ target
            apply free
            rcases targetsAlong_kind turns first _ target with initialized | aligned
            · exact ⟨rfl, Or.inr (Or.inl ⟨within, initialized⟩)⟩
            · exact ⟨rfl, Or.inr (Or.inr ⟨within, aligned⟩)⟩

/-- The loop applies each tick on its way once, unless one of them is passed over. -/
theorem crosses_each_iff (fuel : Nat) (t : Traversal F) :
    CrossesEach powf feeFactor aToB tickSpacing tickArrays fuel t ↔
      ∀ entry ∈ initializedTicks tickSpacing tickArrays,
        Passed aToB tickSpacing t.tickCurrent
            (traversalLoop powf feeFactor aToB tickSpacing tickArrays fuel t).tickCurrent entry.1 →
          ¬ PassedOver aToB tickSpacing tickArrays t.tickCurrent entry.1 := by
  rcases loop_along powf feeFactor aToB tickSpacing tickArrays fuel t with
    ⟨turns, -, last, crossed, applied⟩
  have along := along_each_iff aToB arrays spaced turns t.tickCurrent
  constructor
  · intro holds
    have each := holds.each
    rw [crossed, last] at each
    rw [last]
    exact along.mp each
  · intro free
    rw [last] at free
    have each := along.mpr free
    refine ⟨?_, ?_, applied⟩
    · rw [crossed, last]
      exact each
    · rw [crossed]
      exact crossedAlong_nodup aToB arrays spaced turns t.tickCurrent

end Turns

/-! Two initialized ticks, one spacing apart. -/

def neighbours : HashMap Int OrcaTickArray :=
  AList.singleton 0 ⟨0, [⟨false, 0⟩, ⟨false, 0⟩, ⟨false, 0⟩, ⟨true, 5⟩, ⟨true, 7⟩] ++
    List.replicate 83 ⟨false, 0⟩⟩

theorem neighbours_arrays : WhirlpoolArrays 2 neighbours := by
  have only : ∀ start tickArray, HashMap.get neighbours start = some tickArray →
      start = 0 ∧ tickArray.startTickIndex = 0 ∧ tickArray.ticks.length = 88 := by
    intro start tickArray held
    by_cases key : start = 0
    · rw [key] at held
      cases held
      exact ⟨key, rfl, rfl⟩
    · rw [HashMap.get, AList.lookup_eq_none.mpr] at held
      · cases held
      · rw [AList.mem_keys]
        exact fun member => key (List.mem_singleton.mp member)
  constructor
  · intro start tickArray held
    rw [(only start tickArray held).1, (only start tickArray held).2.1]
  · intro start tickArray held
    rw [(only start tickArray held).1]
    exact dvd_zero _
  · intro start tickArray held
    exact (only start tickArray held).2.2
  · intro start tickArray held
    rw [(only start tickArray held).1]
    decide

/-- Upwards both are crossed. -/
theorem neighbours_upwards : CrossesEach wholePower 1 false 2 neighbours 512
    (traversalStart 5000 (2 ^ 64 + 2 ^ 50) (10 ^ 6) 1 2 : Traversal ℚ) :=
  (crosses_each_iff wholePower 1 false neighbours_arrays (by norm_num) 512 _).mpr
    (fun _ _ _ over_ => Bool.false_ne_true over_.1)

/-- Downwards the lower one is not. -/
theorem lower_neighbour_missed :
    ¬ ∀ (powf : ℚ → ℚ → ℚ) (feeFactor : ℚ) (aToB : Bool) (tickSpacing : Nat)
      (tickArrays : HashMap Int OrcaTickArray), WhirlpoolArrays tickSpacing tickArrays →
      0 < tickSpacing → ∀ fuel t,
        CrossesEach powf feeFactor aToB tickSpacing tickArrays fuel t := by
  intro always
  have here := (always wholePower 1 true 2 neighbours neighbours_arrays (by norm_num) 512
    (traversalStart 5000 18465190817783261167 (10 ^ 6) 19 2)).each (6, 5)
  have crossed : crossedTicks wholePower 1 true 2 neighbours 512
      (traversalStart 5000 18465190817783261167 (10 ^ 6) 19 2 : Traversal ℚ) = [(8, 7)] := by
    decide +kernel
  have last : (traversalLoop wholePower 1 true 2 neighbours 512
      (traversalStart 5000 18465190817783261167 (10 ^ 6) 19 2 : Traversal ℚ)).tickCurrent =
        -2 := by
    decide +kernel
  rw [crossed, last] at here
  have passed : Passed true 2 19 (-2) 6 := ⟨by norm_num, by norm_num⟩
  have missed := here.mpr ⟨by decide +kernel, passed⟩
  exact absurd missed (by decide)

end Helios.TickCrossings
