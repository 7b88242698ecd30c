import Helios.DirectSwap
import Helios.Fallible
import Helios.TickSequence

/-! The five tick arrays of a Whirlpool swap: which they are, that their indices fit
an `i32`, and that the direct swap asks for the first three. -/

namespace Helios.TickArrays

open Orca TickSequence TxBuilder Fallible

def FitsI32 (n : Int) : Prop := -2 ^ 31 ≤ n ∧ n < 2 ^ 31

/-- The `i32` values of a turn that starts at the tick. -/
def turnValues (tickCurrent : Int) (tickSpacing : Nat) (aToB : Bool)
    (tickArrays : HashMap Int OrcaTickArray) : List Int :=
  let currentArray := tickArrayStartIndex tickCurrent tickSpacing
  let tickNext := turnTick tickCurrent tickSpacing aToB tickArrays
  [tickCurrent, currentArray, currentArray + tickArrayOffset tickSpacing,
    eventTick (turnEvent tickCurrent tickSpacing aToB tickArrays), tickNext,
    tickArrayStartIndex tickNext tickSpacing]

theorem turnValues_near (tickCurrent : Int) (tickSpacing : Nat) (spaced : 0 < tickSpacing)
    (aToB : Bool) (tickArrays : HashMap Int OrcaTickArray) :
    ∀ value ∈ turnValues tickCurrent tickSpacing aToB tickArrays,
      tickArrayStartIndex tickCurrent tickSpacing - tickArrayOffset tickSpacing ≤ value ∧
        value ≤ tickArrayStartIndex tickCurrent tickSpacing + tickArrayOffset tickSpacing := by
  have within := turnEvent_within tickCurrent tickSpacing spaced aToB tickArrays
  have moved := turnTick_array tickCurrent tickSpacing spaced aToB tickArrays
  have low := tickArrayStartIndex_le tickCurrent tickSpacing spaced
  have high := lt_tickArrayStartIndex_add tickCurrent tickSpacing spaced
  have narrow := spacing_le_tickArrayOffset tickSpacing
  have wide := tickArrayOffset_pos tickSpacing spaced
  intro value member
  simp only [turnValues, List.mem_cons, List.not_mem_nil, or_false] at member
  cases aToB with
  | false =>
      simp only [Bool.false_eq_true, if_false, turnTick, arrayStep] at within moved member
      rcases member with rfl | rfl | rfl | rfl | rfl | rfl
      · constructor <;> linarith
      · constructor <;> linarith
      · constructor <;> linarith
      · constructor <;> linarith
      · constructor <;> linarith
      · rcases moved with same | next
        · constructor <;> linarith
        · constructor <;> linarith
  | true =>
      simp only [if_true, turnTick, arrayStep] at within moved member
      rcases member with rfl | rfl | rfl | rfl | rfl | rfl
      · constructor <;> linarith
      · constructor <;> linarith
      · constructor <;> linarith
      · constructor <;> linarith
      · constructor <;> linarith
      · rcases moved with same | next
        · constructor <;> linarith
        · constructor <;> linarith

/-- The protocol's range of ticks. -/
def TickInRange (tick : Int) : Prop := -443636 ≤ tick ∧ tick ≤ 443636

theorem abs_arrayStep (aToB : Bool) (tickSpacing : Nat) (width : tickSpacing < 2 ^ 16) :
    -5767080 ≤ arrayStep aToB tickSpacing ∧ arrayStep aToB tickSpacing ≤ 5767080 := by
  cases aToB with
  | false =>
      simp only [arrayStep, Bool.false_eq_true, if_false, tickArrayOffset, orcaTickArraySize]
      omega
  | true =>
      simp only [arrayStep, if_true, tickArrayOffset, orcaTickArraySize]
      omega

/-- So few arrays away from the first one, an index is small. -/
theorem start_bounds (tick : Int) (inRange : TickInRange tick) (tickSpacing : Nat)
    (spaced : 0 < tickSpacing) (width : tickSpacing < 2 ^ 16) (aToB : Bool) (place : Nat)
    (few : place ≤ 5) :
    -35046116 ≤ tickArrayStartIndex tick tickSpacing + place * arrayStep aToB tickSpacing ∧
      tickArrayStartIndex tick tickSpacing + place * arrayStep aToB tickSpacing ≤ 29279036 := by
  have low := tickArrayStartIndex_le tick tickSpacing spaced
  have high := lt_tickArrayStartIndex_add tick tickSpacing spaced
  have offset := (abs_arrayStep false tickSpacing width).2
  obtain ⟨below, above⟩ := abs_arrayStep aToB tickSpacing width
  obtain ⟨first, last⟩ := inRange
  simp only [arrayStep, Bool.false_eq_true, if_false] at offset
  have many : (place : Int) ≤ 5 := by omega
  have some : (0 : Int) ≤ place := by omega
  constructor
  · have least : -28835400 ≤ place * arrayStep aToB tickSpacing := by nlinarith
    linarith
  · have most : place * arrayStep aToB tickSpacing ≤ 28835400 := by nlinarith
    linarith

section Turns

variable {F : Type} [FloatArith F]

/-- The variables the loop starts with. -/
def traversalStart (amountIn sqrtPriceX64 liquidity : Nat) (tickCurrentIndex : Int)
    (tickSpacing : Nat) : Traversal F :=
  { remainingUserIn := FloatArith.ofNat amountIn
    amountOut := FloatArith.ofNat 0
    sqrtPrice := sqrtPriceX64ToFloat sqrtPriceX64
    liquidity := FloatArith.ofNat liquidity
    tickCurrent := tickCurrentIndex
    traversedArrays := [tickArrayStartIndex tickCurrentIndex tickSpacing] }

/-- Until a sixth array is crossed no value of the loop leaves the `i32` range. -/
theorem turn_fits (powf : F → F → F) (feeFactor : F) (aToB : Bool)
    (amountIn sqrtPriceX64 liquidity : Nat) (tick : Int) (inRange : TickInRange tick)
    (tickSpacing : Nat) (spaced : 0 < tickSpacing) (width : tickSpacing < 2 ^ 16)
    (tickArrays : HashMap Int OrcaTickArray) (turns : Nat)
    (early : (traversalLoop powf feeFactor aToB tickSpacing tickArrays turns
      (traversalStart amountIn sqrtPriceX64 liquidity tick tickSpacing)).traversedArrays.length ≤
        5) :
    ∀ value ∈ turnValues (traversalLoop powf feeFactor aToB tickSpacing tickArrays turns
      (traversalStart amountIn sqrtPriceX64 liquidity tick tickSpacing)).tickCurrent
        tickSpacing aToB tickArrays, FitsI32 value := by
  obtain ⟨count, shape, here⟩ := contiguous_loop powf feeFactor _ aToB tickSpacing spaced
    tickArrays turns (traversalStart amountIn sqrtPriceX64 liquidity tick tickSpacing)
    (contiguous_start tick (arrayStep aToB tickSpacing) tickSpacing)
  rw [shape, length_consecutive] at early
  obtain ⟨place, few, holds⟩ : ∃ place : Nat, place ≤ 5 ∧
      tickArrayStartIndex (traversalLoop powf feeFactor aToB tickSpacing tickArrays turns
        (traversalStart amountIn sqrtPriceX64 liquidity tick tickSpacing)).tickCurrent
          tickSpacing =
        tickArrayStartIndex tick tickSpacing + place * arrayStep aToB tickSpacing := by
    rcases here with last | next
    · exact ⟨count, by omega, last⟩
    · exact ⟨count + 1, by omega, by rw [next]; push_cast; ring⟩
  have bounds := start_bounds tick inRange tickSpacing spaced width aToB place few
  have offset := (abs_arrayStep false tickSpacing width).2
  simp only [arrayStep, Bool.false_eq_true, if_false] at offset
  intro value member
  have near := turnValues_near _ tickSpacing spaced aToB tickArrays value member
  rw [holds] at near
  constructor
  · linarith [near.1, bounds.1]
  · linarith [near.2, bounds.2]

end Turns

section Primary

variable {F : Type} (builder : TxBuilder)

theorem deriveOrcaTickArrays_primary (whirlpool : Pubkey) (start step : Int) (count : Nat)
    (enough : 5 ≤ count) (arrays : List Pubkey × List Pubkey)
    (derived : builder.deriveOrcaTickArrays whirlpool (consecutive start step count) =
      .ok arrays) :
    [start, start + step, start + step + step].mapM (builder.deriveOrcaTickArray whirlpool) =
      .ok arrays.1 := by
  have first : consecutive start step 5 =
      [start, start + step, start + step + step, start + 3 * step, start + 4 * step] := by
    simp only [consecutive, List.range_succ_eq_map, List.range_zero, List.map_cons, List.map_nil]
    norm_num
    ring
  have shape : consecutive start step count =
      consecutive start step 5 ++ (consecutive start step count).drop 5 := by
    rw [← take_consecutive start step 5 count enough, List.take_append_drop]
  rw [shape, first] at derived
  simp only [List.cons_append, deriveOrcaTickArrays, bind_eq_ok_iff] at derived
  obtain ⟨primary, done, supplemental, -, same⟩ := derived
  cases same
  exact done

/-- Where a direct swap lists its tick arrays, and which they are. -/
theorem orcaDirectIx_arrays (ctx : HopContext F) (orca : OrcaMetadata)
    (known : ctx.pool.orcaMeta = some orca) (ix : Instruction)
    (built : builder.orcaDirectIx ctx = .ok ix) :
    ∃ arrays, [tickArrayStartIndex orca.tickCurrentIndex orca.tickSpacing,
        tickArrayStartIndex orca.tickCurrentIndex orca.tickSpacing +
          arrayStep ctx.aToB orca.tickSpacing,
        tickArrayStartIndex orca.tickCurrentIndex orca.tickSpacing +
          arrayStep ctx.aToB orca.tickSpacing + arrayStep ctx.aToB orca.tickSpacing].mapM
          (builder.deriveOrcaTickArray ctx.hop.pool) = .ok arrays ∧
      (ix.accounts.drop 11).dropLast = arrays.map (fun array => .new array false) := by
  have step : (if ctx.aToB then -1 else 1) * tickArrayOffset orca.tickSpacing =
      arrayStep ctx.aToB orca.tickSpacing := by
    cases ctx.aToB with
    | false => simp [arrayStep]
    | true => simp [arrayStep]
  simp only [orcaDirectIx, known] at built
  split at built
  · cases built
  · simp only [liftBuild, bind_eq_ok_iff, step] at built
    obtain ⟨_, _, _, _, _, _, arrays, lifted, _, _, same⟩ := built
    refine ⟨arrays, ?_, ?_⟩
    · cases done : [tickArrayStartIndex orca.tickCurrentIndex orca.tickSpacing,
          tickArrayStartIndex orca.tickCurrentIndex orca.tickSpacing +
            arrayStep ctx.aToB orca.tickSpacing,
          tickArrayStartIndex orca.tickCurrentIndex orca.tickSpacing +
            arrayStep ctx.aToB orca.tickSpacing + arrayStep ctx.aToB orca.tickSpacing].mapM
            (builder.deriveOrcaTickArray ctx.hop.pool) with
      | error failed =>
          rw [done] at lifted
          cases lifted
      | ok derived =>
          rw [done] at lifted
          cases lifted
          rfl
    · cases same
      simp

end Primary

section Five

variable {F : Type} [FloatArith F]

/-- The arrays of a swap, for any power function and any outcome of the float
comparisons: consecutive from the one the current tick is in, all different, every
index in the `i32` range, and the first three those of a direct swap. -/
theorem five_tick_arrays (powf : F → F → F) (orca : OrcaMetadata)
    (spaced : 0 < orca.tickSpacing) (width : orca.tickSpacing < 2 ^ 16)
    (inRange : TickInRange orca.tickCurrentIndex) (amountIn feeBps : Nat) (aToB : Bool) :
    let start := tickArrayStartIndex orca.tickCurrentIndex orca.tickSpacing
    let direction : Int := if aToB then -1 else 1
    let offset := tickArrayOffset orca.tickSpacing
    let starts := orderedTickArrayStarts powf orca amountIn feeBps aToB
    starts.take 5 = [start, start + direction * offset, start + 2 * (direction * offset),
        start + 3 * (direction * offset), start + 4 * (direction * offset)] ∧
      starts.Nodup ∧
      FitsI32 offset ∧ FitsI32 (direction * offset) ∧ (∀ index ∈ starts.take 5, FitsI32 index) ∧
      (∀ feeFactor : F, ∀ turns : Nat,
        let turn := traversalLoop powf feeFactor aToB orca.tickSpacing orca.tickArrays turns
          (traversalStart amountIn orca.sqrtPrice orca.liquidity orca.tickCurrentIndex
            orca.tickSpacing)
        turn.traversedArrays.length ≤ 5 →
          ∀ value ∈ turnValues turn.tickCurrent orca.tickSpacing aToB orca.tickArrays,
            FitsI32 value) ∧
      ∀ (builder : TxBuilder) (ctx : HopContext F) (arrays : List Pubkey × List Pubkey)
        (ix : Instruction), ctx.pool.orcaMeta = some orca → ctx.aToB = aToB →
          builder.deriveOrcaTickArrays ctx.hop.pool starts = .ok arrays →
          builder.orcaDirectIx ctx = .ok ix →
            (ix.accounts.drop 11).dropLast = arrays.1.map (fun array => .new array false) := by
  have step : (if aToB then -1 else 1) * tickArrayOffset orca.tickSpacing =
      arrayStep aToB orca.tickSpacing := by
    cases aToB with
    | false => simp [arrayStep]
    | true => simp [arrayStep]
  obtain ⟨count, enough, shape⟩ :=
    orderedTickArrayStarts_eq powf orca spaced amountIn feeBps aToB
  have moves := arrayStep_ne_zero aToB orca.tickSpacing spaced
  have few := take_consecutive (tickArrayStartIndex orca.tickCurrentIndex orca.tickSpacing)
    (arrayStep aToB orca.tickSpacing) 5 count enough
  dsimp only
  rw [step, shape, few]
  refine ⟨?_, nodup_consecutive _ _ moves count, ?_, ?_, ?_, ?_, ?_⟩
  · simp [consecutive, List.range_succ_eq_map]
  · obtain ⟨low, high⟩ := abs_arrayStep false orca.tickSpacing width
    simp only [arrayStep, Bool.false_eq_true, if_false] at low high
    constructor <;> linarith
  · obtain ⟨low, high⟩ := abs_arrayStep aToB orca.tickSpacing width
    constructor <;> linarith
  · intro index member
    obtain ⟨place, below, rfl⟩ := (mem_consecutive _ _ _ _).mp member
    obtain ⟨low, high⟩ := start_bounds orca.tickCurrentIndex inRange orca.tickSpacing spaced
      width aToB place below.le
    constructor <;> linarith
  · intro feeFactor turns early
    exact turn_fits powf feeFactor aToB amountIn orca.sqrtPrice orca.liquidity
      orca.tickCurrentIndex inRange orca.tickSpacing spaced width orca.tickArrays turns early
  · intro builder ctx arrays ix known way derived built
    have primary := deriveOrcaTickArrays_primary builder ctx.hop.pool _ _ count enough arrays
      derived
    obtain ⟨direct, done, listed⟩ := orcaDirectIx_arrays builder ctx orca known ix built
    rw [way, primary] at done
    cases done
    exact listed

end Five

/-- A whirlpool below tick 0, with the array it is in. -/
def belowZero : OrcaMetadata where
  tokenVaultA := default
  tokenVaultB := default
  liquidity := 10 ^ 9
  sqrtPrice := 2 ^ 64 - 10 ^ 16
  tickSpacing := 64
  tickCurrentIndex := -11
  tickArrays := HashMap.empty.insert (-5632) ⟨-5632, List.replicate 88 ⟨false, 0⟩⟩

/-- The power function on exact numbers, for the whole exponents of even ticks. -/
def wholePower (base exponent : ℚ) : ℚ := base ^ ⌊exponent⌋

theorem belowZero_starts : (orderedTickArrayStarts wholePower belowZero 1000000 30 true).take 5 =
    [-5632, -11264, -16896, -22528, -28160] := by
  have five := (five_tick_arrays wholePower belowZero (by decide) (by decide)
    ⟨by decide, by decide⟩ 1000000 30 true).1
  exact five.trans (by decide)

end Helios.TickArrays
