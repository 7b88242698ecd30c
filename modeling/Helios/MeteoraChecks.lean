import Helios.AccountDecoders
import Helios.Fallible
import Helios.MeteoraBins

/-! The DLMM quote with every unchecked operator checked: a value that leaves its type, or a
zero divisor, is a fault. Saturating operators stay as they are. -/

namespace Helios.MeteoraChecks

open Fallible Machine
open Meteora (MeteoraStaticParameters MeteoraVariableParameters MeteoraBin MeteoraBinArray Rounding
  BinSwapQuote BinFits maxBinArraySize scaleOffset feePrecision maxFeeRate u128Max saturatingAdd128
  saturatingMul128 divCeil nextCachedBinArrayIndex)

inductive Fault where
  | leavesType
  | dividesByZero
  deriving DecidableEq

def u128 (n : Nat) : Except Fault Nat := if n < 2 ^ 128 then .ok n else .error .leavesType

def i64 (n : Int) : Except Fault Int :=
  if -2 ^ 63 ≤ n ∧ n < 2 ^ 63 then .ok n else .error .leavesType

/-- `as usize` on an index that is meant to be none below zero. -/
def asUsize (n : Int) : Except Fault Nat :=
  if 0 ≤ n ∧ n < 2 ^ 64 then .ok n.toNat else .error .leavesType

def divide (a b : Nat) : Except Fault Nat :=
  if b = 0 then .error .dividesByZero else .ok (a / b)

def remainder (a b : Nat) : Except Fault Nat :=
  if b = 0 then .error .dividesByZero else .ok (a % b)

def divideCeil (a b : Nat) : Except Fault Nat :=
  if b = 0 then .error .dividesByZero else .ok (divCeil a b)

section Operators

variable (n : Nat) (z : Int)

theorem u128_of_lt (fits : n < 2 ^ 128) : u128 n = .ok n := if_pos fits

theorem i64_of_bounds (low : -2 ^ 63 ≤ z) (high : z < 2 ^ 63) : i64 z = .ok z :=
  if_pos ⟨low, high⟩

theorem asUsize_of_bounds (low : 0 ≤ z) (high : z < 2 ^ 64) : asUsize z = .ok z.toNat :=
  if_pos ⟨low, high⟩

end Operators

/-! The bins and their arrays. -/

def binArrayLowerBinId (binArrayIndex : Int) : Except Fault Int :=
  i64 (binArrayIndex * maxBinArraySize)

def binArrayUpperBinId (binArrayIndex : Int) : Except Fault Int := do
  let lower ← binArrayLowerBinId binArrayIndex
  let past ← i64 (lower + maxBinArraySize)
  i64 (past - 1)

def binIdToBinArrayIndex (binId : Int) : Except Fault Int :=
  let idx := binId.tdiv maxBinArraySize
  let rem := binId.tmod maxBinArraySize
  if binId < 0 ∧ rem ≠ 0 then i64 (idx - 1) else .ok idx

/-- The place of a bin in its array. -/
def binPlace (binId lower upper : Int) : Except Fault Nat :=
  if 0 ≤ binId then do
    let place ← i64 (binId - lower)
    asUsize place
  else do
    let left ← i64 (upper - binId)
    let past ← i64 (maxBinArraySize - left)
    let place ← i64 (past - 1)
    asUsize place

def getBin (binArrays : HashMap Int MeteoraBinArray) (binId : Int) :
    Except Fault (Option MeteoraBin) := do
  let arrayIndex ← binIdToBinArrayIndex binId
  match HashMap.get binArrays arrayIndex with
  | none => return none
  | some binArray =>
      let lower ← binArrayLowerBinId arrayIndex
      let upper ← binArrayUpperBinId arrayIndex
      if binId < lower ∨ binId > upper then return none
      else
        let place ← binPlace binId lower upper
        return binArray.bins[place]?

/-! The fixed-point products and the fees. -/

def mulShrU64 (x y : Nat) (rounding : Rounding) : Except Fault (Option Nat) := do
  let hi := wrap 64 (y / 2 ^ scaleOffset)
  let lo := wrap 64 y
  let highPart ← u128 (x * hi)
  let lowProduct ← u128 (x * lo)
  let quotient := highPart + lowProduct / 2 ^ scaleOffset
  if u128Max < quotient then return none
  else
    let remainder := lowProduct % 2 ^ scaleOffset
    return some (if rounding = .up ∧ 0 < remainder then saturatingAdd128 quotient 1 else quotient)

def shlDivU64 (x y : Nat) (rounding : Rounding) : Except Fault (Option Nat) :=
  if y = 0 then .ok none
  else do
    let numerator ← u128 (x * 2 ^ scaleOffset)
    let quotient ← divide numerator y
    let remainder ← remainder numerator y
    return some (if rounding = .up ∧ 0 < remainder then saturatingAdd128 quotient 1 else quotient)

section Fees

variable (binStep : Nat) (parameters : MeteoraStaticParameters)
  (vParameters : MeteoraVariableParameters)

def getBaseFee : Except Fault Nat := do
  let power := min (10 ^ parameters.baseFeePowerFactor) u128Max
  let scaled ← u128 (parameters.baseFactor * binStep)
  let tenfold ← u128 (scaled * 10)
  u128 (tenfold * power)

def getVariableFee : Except Fault Nat :=
  if parameters.variableFeeControl = 0 then .ok 0
  else do
    let product ← u128 (vParameters.volatilityAccumulator * binStep)
    let square ← u128 (product ^ 2)
    let numerator ← u128 (parameters.variableFeeControl * square)
    divideCeil numerator 100000000000

def totalFee : Except Fault Nat := do
  let base ← getBaseFee binStep parameters
  let variable_ ← getVariableFee binStep parameters vParameters
  return min (saturatingAdd128 base variable_) maxFeeRate

def computeFee (inAmount : Nat) : Except Fault Nat := do
  let fee ← totalFee binStep parameters vParameters
  divideCeil (saturatingMul128 inAmount fee) (max (feePrecision - fee) 1)

def computeFeeFromAmount (inAmountWithFees : Nat) : Except Fault Nat := do
  let fee ← totalFee binStep parameters vParameters
  divideCeil (saturatingMul128 inAmountWithFees fee) feePrecision

/-! The quote of one bin, and the walk over the bins. -/

def getOutAmount (bin : MeteoraBin) (inAmount : Nat) (swapForY : Bool) :
    Except Fault (Option Nat) := do
  let out ← if swapForY then mulShrU64 inAmount bin.price .down
    else shlDivU64 inAmount bin.price .down
  return out.filter (fun amount => decide (amount ≤ u64Max))

/-- What the whole of a bin costs before the fee. -/
def maxAmountInWithoutFee (bin : MeteoraBin) (swapForY : Bool) : Except Fault (Option Nat) :=
  if swapForY then shlDivU64 bin.amountY bin.price .up else mulShrU64 bin.amountX bin.price .up

def swapExactInQuoteAtBin (bin : MeteoraBin) (inAmount : Nat) (swapForY : Bool) :
    Except Fault BinSwapQuote :=
  if (swapForY ∧ bin.amountY = 0) ∨ (¬ swapForY ∧ bin.amountX = 0) then .ok ⟨0, 0⟩
  else do
    let maxAmountOut := if swapForY then bin.amountY else bin.amountX
    let priced ← maxAmountInWithoutFee bin swapForY
    match priced with
    | none => return ⟨0, 0⟩
    | some withoutFee =>
        let maxFee ← computeFee binStep parameters vParameters withoutFee
        let maxAmountIn := saturatingAdd128 withoutFee maxFee
        if maxAmountIn < inAmount then return ⟨maxAmountIn, maxAmountOut⟩
        else
          let fee ← computeFeeFromAmount binStep parameters vParameters inAmount
          let amountInAfterFee := inAmount - fee
          if u64Max < amountInAfterFee then return ⟨0, 0⟩
          else
            let computed ← getOutAmount bin amountInAfterFee swapForY
            match computed with
            | none => return ⟨0, 0⟩
            | some computedOut => return ⟨inAmount, min computedOut maxAmountOut⟩

def quoteLoop (swapForY : Bool) (binArrays : HashMap Int MeteoraBinArray) :
    Nat → Nat → Nat → Int → Except Fault Nat
  | 0, _, totalOut, _ => .ok totalOut
  | fuel + 1, remainingIn, totalOut, currentBinId =>
      let direction : Int := if swapForY then -1 else 1
      if remainingIn = 0 then .ok totalOut
      else do
        let found ← getBin binArrays currentBinId
        match found with
        | none =>
            let currentArrayIndex ← binIdToBinArrayIndex currentBinId
            match nextCachedBinArrayIndex binArrays currentArrayIndex direction with
            | none => return totalOut
            | some nextArrayIndex =>
                let nextBinId ← if direction < 0 then binArrayUpperBinId nextArrayIndex
                  else binArrayLowerBinId nextArrayIndex
                quoteLoop swapForY binArrays fuel remainingIn totalOut nextBinId
        | some bin =>
            let quote ← swapExactInQuoteAtBin binStep parameters vParameters bin remainingIn
              swapForY
            if quote.amountInConsumed = 0 ∨ quote.amountOut = 0 then
              let nextBinId ← i64 (currentBinId + direction)
              quoteLoop swapForY binArrays fuel remainingIn totalOut nextBinId
            else
              let remainingIn := remainingIn - quote.amountInConsumed
              let totalOut := saturatingAdd128 totalOut quote.amountOut
              if remainingIn = 0 then return totalOut
              else
                let nextBinId ← i64 (currentBinId + direction)
                quoteLoop swapForY binArrays fuel remainingIn totalOut nextBinId

def quoteExactIn (amountIn : Nat) (swapForY : Bool) (activeId : Int)
    (binArrays : HashMap Int MeteoraBinArray) : Except Fault Nat :=
  if amountIn = 0 ∨ binArrays.entries = [] then .ok 0
  else do
    let totalOut ← quoteLoop binStep parameters vParameters swapForY binArrays 4096 amountIn 0
      activeId
    return min totalOut u64Max

end Fees

/-! Walking over the bins never leaves `i64`. -/

/-- Ids and indices this small leave room for every sum and product of the walk. -/
def Near (n : Int) : Prop := -2 ^ 41 ≤ n ∧ n ≤ 2 ^ 41

theorem binArrayLowerBinId_ok (index : Int) (near : Near index) :
    binArrayLowerBinId index = .ok (Meteora.binArrayLowerBinId index) := by
  rw [binArrayLowerBinId, Meteora.binArrayLowerBinId, maxBinArraySize]
  rcases near with ⟨low, high⟩
  exact i64_of_bounds _ (by omega) (by omega)

theorem binArrayUpperBinId_ok (index : Int) (near : Near index) :
    binArrayUpperBinId index = .ok (Meteora.binArrayUpperBinId index) := by
  rw [binArrayUpperBinId, binArrayLowerBinId_ok index near, ok_bind, Meteora.binArrayUpperBinId,
    Meteora.binArrayLowerBinId, maxBinArraySize]
  rcases near with ⟨low, high⟩
  rw [i64_of_bounds _ (by omega) (by omega), ok_bind]
  exact i64_of_bounds _ (by omega) (by omega)

theorem binIdToBinArrayIndex_ok (binId : Int) (near : Near binId) :
    binIdToBinArrayIndex binId = .ok (Meteora.binIdToBinArrayIndex binId) := by
  rw [binIdToBinArrayIndex]
  rcases near with ⟨low, high⟩
  have same := Meteora.binIdToBinArrayIndex_eq binId
  rw [Meteora.binIdToBinArrayIndex] at same ⊢
  split
  · next below =>
      rw [if_pos below] at same
      exact i64_of_bounds _ (by omega) (by omega)
  · rfl

theorem binPlace_ok (binId : Int) (near : Near binId) :
    binPlace binId (binId / 70 * 70) (binId / 70 * 70 + 70 - 1) = .ok (binId % 70).toNat := by
  rcases near with ⟨low, high⟩
  rw [binPlace, maxBinArraySize]
  split
  · rw [i64_of_bounds _ (by omega) (by omega), ok_bind, asUsize_of_bounds _ (by omega) (by omega)]
    congr 2
    omega
  · rw [i64_of_bounds (binId / 70 * 70 + 70 - 1 - binId) (by omega) (by omega), ok_bind,
      i64_of_bounds _ (by omega) (by omega), ok_bind, i64_of_bounds _ (by omega) (by omega), ok_bind,
      asUsize_of_bounds _ (by omega) (by omega)]
    congr 2
    omega

theorem getBin_ok (binArrays : HashMap Int MeteoraBinArray) (binId : Int) (near : Near binId) :
    getBin binArrays binId = .ok (Meteora.getBin binArrays binId) := by
  have index : Near (binId / 70) := by
    rcases near with ⟨low, high⟩
    constructor
    · omega
    · omega
  rw [getBin, binIdToBinArrayIndex_ok binId near, ok_bind, Meteora.binIdToBinArrayIndex_eq,
    Meteora.getBin_eq]
  cases HashMap.get binArrays (binId / 70) with
  | none => rfl
  | some binArray =>
      have inside : ¬ (binId < binId / 70 * 70 ∨ binId > binId / 70 * 70 + 70 - 1) := by omega
      dsimp only
      rw [binArrayLowerBinId_ok _ index, ok_bind, binArrayUpperBinId_ok _ index, ok_bind,
        Meteora.binArrayUpperBinId, Meteora.binArrayLowerBinId, maxBinArraySize, if_neg inside,
        binPlace_ok binId near]
      rfl

/-! The operators on words of 64 bits. -/

theorem mulShrU64_ok (x y : Nat) (rounding : Rounding) (smallX : x < 2 ^ 64) :
    mulShrU64 x y rounding = .ok (Meteora.mulShrU64 x y rounding) := by
  have high : x * wrap 64 (y / 2 ^ scaleOffset) ≤ (2 ^ 64 - 1) * (2 ^ 64 - 1) :=
    Nat.mul_le_mul (by omega) (Nat.le_sub_one_of_lt (Nat.mod_lt _ (by norm_num)))
  have low : x * wrap 64 y ≤ (2 ^ 64 - 1) * (2 ^ 64 - 1) :=
    Nat.mul_le_mul (by omega) (Nat.le_sub_one_of_lt (Nat.mod_lt _ (by norm_num)))
  rw [mulShrU64, Meteora.mulShrU64]
  dsimp only
  rw [u128_of_lt _ (by omega), ok_bind, u128_of_lt _ (by omega), ok_bind]
  split
  · rfl
  · rfl

theorem shlDivU64_ok (x y : Nat) (rounding : Rounding) (smallX : x < 2 ^ 64) :
    shlDivU64 x y rounding = .ok (Meteora.shlDivU64 x y rounding) := by
  have shifted : x * 2 ^ scaleOffset < 2 ^ 128 := by
    rw [scaleOffset]
    omega
  rw [shlDivU64, Meteora.shlDivU64]
  generalize x * 2 ^ scaleOffset = numerator at shifted
  split
  · rfl
  · next nonzero =>
      rw [u128_of_lt _ shifted, ok_bind, divide, if_neg nonzero, ok_bind, remainder,
        if_neg nonzero, ok_bind]
      dsimp only
      rw [wrap_of_lt 128 _ shifted]
      rfl

theorem getOutAmount_ok (bin : MeteoraBin) (inAmount : Nat) (swapForY : Bool)
    (small : inAmount < 2 ^ 64) :
    getOutAmount bin inAmount swapForY = .ok (Meteora.getOutAmount bin inAmount swapForY) := by
  have tested : ∀ out : Option Nat,
      out.filter (fun amount => decide (amount ≤ u64Max)) =
        out.bind (fun amount => if amount ≤ u64Max then some amount else none) := by
    intro out
    cases out with
    | none => rfl
    | some amount => simp [Option.filter_some]
  cases swapForY with
  | true =>
      simp only [getOutAmount, Meteora.getOutAmount, if_true, mulShrU64_ok _ _ _ small, ok_bind,
        tested]
      rfl
  | false =>
      simp only [getOutAmount, Meteora.getOutAmount, Bool.false_eq_true, if_false,
        shlDivU64_ok _ _ _ small, ok_bind, tested]
      rfl

section FeeBounds

variable (binStep : Nat) (parameters : MeteoraStaticParameters)
  (vParameters : MeteoraVariableParameters)

/-- The values of a decoded pair. -/
structure PairFits : Prop where
  binStep : binStep < 2 ^ 16
  baseFactor : parameters.baseFactor < 2 ^ 16
  variableFeeControl : parameters.variableFeeControl < 2 ^ 32
  volatilityAccumulator : vParameters.volatilityAccumulator < 2 ^ 32

/-- The base fee, whose power of ten saturates at `u128::MAX`, stays below 2^128. -/
def BaseFeeFits : Prop :=
  parameters.baseFactor * binStep * 10 * min (10 ^ parameters.baseFeePowerFactor) u128Max < 2 ^ 128

instance : Decidable (BaseFeeFits binStep parameters) := by
  unfold BaseFeeFits
  infer_instance

variable {binStep} {parameters} {vParameters}

theorem getBaseFee_eq (pair : PairFits binStep parameters vParameters) :
    getBaseFee binStep parameters =
      u128 (parameters.baseFactor * binStep * 10 *
        min (10 ^ parameters.baseFeePowerFactor) u128Max) := by
  have product : parameters.baseFactor * binStep ≤ (2 ^ 16 - 1) * (2 ^ 16 - 1) :=
    Nat.mul_le_mul (Nat.le_sub_one_of_lt pair.baseFactor) (Nat.le_sub_one_of_lt pair.binStep)
  rw [getBaseFee, u128_of_lt _ (by omega), ok_bind, u128_of_lt _ (by omega), ok_bind]

theorem getBaseFee_ok (pair : PairFits binStep parameters vParameters)
    (fits : BaseFeeFits binStep parameters) :
    getBaseFee binStep parameters = .ok (Meteora.getBaseFee binStep parameters) := by
  rw [getBaseFee_eq pair, u128_of_lt _ fits, Meteora.getBaseFee]
  exact congrArg Except.ok (wrap_of_lt 128 _ fits).symm

/-- The square of a 48-bit product times a 32-bit factor just fits. -/
theorem getVariableFee_ok (pair : PairFits binStep parameters vParameters) :
    getVariableFee binStep parameters vParameters =
      .ok (Meteora.getVariableFee binStep parameters vParameters) := by
  have product : vParameters.volatilityAccumulator * binStep ≤ (2 ^ 32 - 1) * (2 ^ 16 - 1) :=
    Nat.mul_le_mul (Nat.le_sub_one_of_lt pair.volatilityAccumulator)
      (Nat.le_sub_one_of_lt pair.binStep)
  have square : (vParameters.volatilityAccumulator * binStep) ^ 2 ≤
      ((2 ^ 32 - 1) * (2 ^ 16 - 1)) ^ 2 := Nat.pow_le_pow_left product 2
  have numerator : parameters.variableFeeControl *
      (vParameters.volatilityAccumulator * binStep) ^ 2 ≤
        (2 ^ 32 - 1) * ((2 ^ 32 - 1) * (2 ^ 16 - 1)) ^ 2 :=
    Nat.mul_le_mul (Nat.le_sub_one_of_lt pair.variableFeeControl) square
  have productFits : vParameters.volatilityAccumulator * binStep < 2 ^ 128 :=
    lt_of_le_of_lt product (by norm_num)
  have squareFits : (vParameters.volatilityAccumulator * binStep) ^ 2 < 2 ^ 128 :=
    lt_of_le_of_lt square (by norm_num)
  have numeratorFits : parameters.variableFeeControl *
      (vParameters.volatilityAccumulator * binStep) ^ 2 < 2 ^ 128 :=
    lt_of_le_of_lt numerator (by norm_num)
  rw [getVariableFee, Meteora.getVariableFee]
  split
  · rfl
  · rw [u128_of_lt _ productFits, ok_bind, u128_of_lt _ squareFits, ok_bind,
      u128_of_lt _ numeratorFits, ok_bind, wrap_of_lt 128 _ squareFits]
    dsimp only
    rw [wrap_of_lt 128 _ numeratorFits]
    exact if_neg (by norm_num)

theorem totalFee_ok (pair : PairFits binStep parameters vParameters)
    (fits : BaseFeeFits binStep parameters) :
    totalFee binStep parameters vParameters =
      .ok (Meteora.totalFee binStep parameters vParameters) := by
  rw [totalFee, getBaseFee_ok pair fits, ok_bind, getVariableFee_ok pair, ok_bind]
  rfl

theorem totalFee_error (pair : PairFits binStep parameters vParameters)
    (exceeds : ¬ BaseFeeFits binStep parameters) :
    totalFee binStep parameters vParameters = .error .leavesType := by
  have stops : getBaseFee binStep parameters = .error .leavesType :=
    (getBaseFee_eq pair).trans (if_neg exceeds)
  rw [totalFee, stops]
  rfl

theorem computeFee_ok (pair : PairFits binStep parameters vParameters)
    (fits : BaseFeeFits binStep parameters) (inAmount : Nat) :
    computeFee binStep parameters vParameters inAmount =
      .ok (Meteora.computeFee binStep parameters vParameters inAmount) := by
  rw [computeFee, totalFee_ok pair fits, ok_bind, divideCeil, if_neg (by omega)]
  rfl

theorem computeFeeFromAmount_ok (pair : PairFits binStep parameters vParameters)
    (fits : BaseFeeFits binStep parameters) (inAmount : Nat) :
    computeFeeFromAmount binStep parameters vParameters inAmount =
      .ok (Meteora.computeFeeFromAmount binStep parameters vParameters inAmount) := by
  rw [computeFeeFromAmount, totalFee_ok pair fits, ok_bind, divideCeil,
    if_neg (by norm_num [feePrecision])]
  rfl

end FeeBounds

/-! One bin. -/

/-- The bin has something to pay out, and a price to pay it at. -/
def Priced (swapForY : Bool) (bin : MeteoraBin) : Prop :=
  if swapForY then bin.amountY ≠ 0 ∧ bin.price ≠ 0 else bin.amountX ≠ 0

instance (swapForY : Bool) (bin : MeteoraBin) : Decidable (Priced swapForY bin) := by
  unfold Priced
  infer_instance

/-- The same without the checks. -/
def costOf (swapForY : Bool) (bin : MeteoraBin) : Option Nat :=
  if swapForY then Meteora.shlDivU64 bin.amountY bin.price .up
  else Meteora.mulShrU64 bin.amountX bin.price .up

theorem costOf_ok (swapForY : Bool) (bin : MeteoraBin) (sound : BinFits bin) :
    maxAmountInWithoutFee bin swapForY = .ok (costOf swapForY bin) := by
  cases swapForY with
  | true =>
      rw [maxAmountInWithoutFee, costOf, if_pos rfl, if_pos rfl]
      exact shlDivU64_ok _ _ _ sound.amountY
  | false =>
      rw [maxAmountInWithoutFee, costOf, if_neg Bool.false_ne_true, if_neg Bool.false_ne_true]
      exact mulShrU64_ok _ _ _ sound.amountX

theorem costOf_of_priced (swapForY : Bool) (bin : MeteoraBin) (sound : BinFits bin)
    (priced : Priced swapForY bin) : ∃ cost, costOf swapForY bin = some cost := by
  cases swapForY with
  | true =>
      rw [costOf, if_pos rfl, Meteora.shlDivU64_eq _ _ _ sound.amountY (Nat.pos_of_ne_zero priced.2)]
      exact ⟨_, rfl⟩
  | false =>
      rw [costOf, if_neg Bool.false_ne_true,
        Meteora.mulShrU64_eq _ _ _ sound.amountX sound.price]
      exact ⟨_, rfl⟩

/-- A bin that is not priced is empty or has no cost. -/
theorem idle_of_not_priced (swapForY : Bool) (bin : MeteoraBin) (idle : ¬ Priced swapForY bin) :
    ((swapForY ∧ bin.amountY = 0) ∨ (¬ swapForY ∧ bin.amountX = 0)) ∨
      costOf swapForY bin = none := by
  cases swapForY with
  | true =>
      by_cases empty : bin.amountY = 0
      · exact Or.inl (Or.inl ⟨rfl, empty⟩)
      · have unpriced : bin.price = 0 := by
          by_contra positive
          exact idle ⟨empty, positive⟩
        right
        rw [costOf, if_pos rfl, unpriced]
        exact Meteora.shlDivU64_zero _ _
  | false => exact Or.inl (Or.inr ⟨Bool.false_ne_true, not_not.mp idle⟩)

theorem full_of_priced (swapForY : Bool) (bin : MeteoraBin) (priced : Priced swapForY bin) :
    ¬ ((swapForY ∧ bin.amountY = 0) ∨ (¬ swapForY ∧ bin.amountX = 0)) := by
  cases swapForY with
  | true =>
      rintro (⟨-, empty⟩ | ⟨other, -⟩)
      · exact priced.1 empty
      · exact other rfl
  | false =>
      rintro (⟨other, -⟩ | ⟨-, empty⟩)
      · exact Bool.false_ne_true other
      · exact priced empty

section Walk

variable {binStep : Nat} {parameters : MeteoraStaticParameters}
  {vParameters : MeteoraVariableParameters} (swapForY : Bool)

theorem swap_ok (pair : PairFits binStep parameters vParameters)
    (fits : BaseFeeFits binStep parameters) (bin : MeteoraBin) (sound : BinFits bin)
    (inAmount : Nat) (small : inAmount < 2 ^ 64) :
    swapExactInQuoteAtBin binStep parameters vParameters bin inAmount swapForY =
      .ok (Meteora.swapExactInQuoteAtBin bin binStep parameters vParameters inAmount swapForY) := by
  have known := costOf_ok swapForY bin sound
  rw [swapExactInQuoteAtBin, Meteora.swapExactInQuoteAtBin]
  split
  · rfl
  · rw [known, ok_bind, ← costOf]
    cases costOf swapForY bin with
    | none => rfl
    | some withoutFee =>
        dsimp only
        rw [computeFee_ok pair fits, ok_bind]
        split
        · rfl
        · rw [computeFeeFromAmount_ok pair fits, ok_bind]
          split
          · rfl
          · rw [getOutAmount_ok _ _ _ (by omega), ok_bind]
            cases Meteora.getOutAmount bin (inAmount -
                Meteora.computeFeeFromAmount binStep parameters vParameters inAmount) swapForY with
            | none => rfl
            | some computedOut => rfl

/-- A bin that is not priced is passed over before any fee is computed. -/
theorem swap_idle (bin : MeteoraBin) (sound : BinFits bin) (idle : ¬ Priced swapForY bin)
    (inAmount : Nat) :
    swapExactInQuoteAtBin binStep parameters vParameters bin inAmount swapForY = .ok ⟨0, 0⟩ ∧
      Meteora.swapExactInQuoteAtBin bin binStep parameters vParameters inAmount swapForY =
        ⟨0, 0⟩ := by
  have known := costOf_ok swapForY bin sound
  rw [swapExactInQuoteAtBin, Meteora.swapExactInQuoteAtBin]
  rcases idle_of_not_priced swapForY bin idle with empty | free
  · rw [if_pos empty, if_pos empty]
    exact ⟨rfl, rfl⟩
  · constructor
    · split
      · rfl
      · rw [known, free]
        rfl
    · split
      · rfl
      · dsimp only
        rw [← costOf, free]

theorem swap_error (pair : PairFits binStep parameters vParameters)
    (exceeds : ¬ BaseFeeFits binStep parameters) (bin : MeteoraBin) (sound : BinFits bin)
    (priced : Priced swapForY bin) (inAmount : Nat) :
    swapExactInQuoteAtBin binStep parameters vParameters bin inAmount swapForY =
      .error .leavesType := by
  rcases costOf_of_priced swapForY bin sound priced with ⟨cost, known⟩
  rw [swapExactInQuoteAtBin, if_neg (full_of_priced swapForY bin priced)]
  dsimp only
  rw [costOf_ok swapForY bin sound, ok_bind, known]
  dsimp only
  rw [computeFee, totalFee_error pair exceeds]
  rfl

end Walk

end Helios.MeteoraChecks
