import Helios.HashMap
import Helios.Machine

/-! Quoting on Meteora DLMM bins. Bin ids and array indices stay within the
`i32` range times 70, so they are plain integers here; the `u128` totals keep
their wraps and saturations. -/

namespace Helios.Meteora

open Machine

structure MeteoraStaticParameters where
  baseFactor : Nat
  variableFeeControl : Nat
  baseFeePowerFactor : Nat
  deriving DecidableEq

structure MeteoraVariableParameters where
  volatilityAccumulator : Nat
  deriving DecidableEq

structure MeteoraBin where
  amountX : Nat
  amountY : Nat
  price : Nat
  deriving DecidableEq

structure MeteoraBinArray where
  index : Int
  bins : List MeteoraBin
  deriving DecidableEq

inductive Rounding where
  | up
  | down
  deriving DecidableEq

structure BinSwapQuote where
  amountInConsumed : Nat
  amountOut : Nat
  deriving DecidableEq

def maxBinArraySize : Int := 70
def scaleOffset : Nat := 64
def feePrecision : Nat := 1000000000
def maxFeeRate : Nat := 100000000

def u128Max : Nat := 2 ^ 128 - 1
def saturatingAdd128 (a b : Nat) : Nat := min (a + b) u128Max
def saturatingMul128 (a b : Nat) : Nat := min (a * b) u128Max
def divCeil (a b : Nat) : Nat := (a + b - 1) / b

def binArrayLowerBinId (binArrayIndex : Int) : Int := binArrayIndex * maxBinArraySize

def binArrayUpperBinId (binArrayIndex : Int) : Int :=
  binArrayLowerBinId binArrayIndex + maxBinArraySize - 1

def binIdToBinArrayIndex (binId : Int) : Int :=
  let idx := binId.tdiv maxBinArraySize
  let rem := binId.tmod maxBinArraySize
  if binId < 0 ∧ rem ≠ 0 then idx - 1 else idx

def getBin (binArrays : HashMap Int MeteoraBinArray) (binId : Int) : Option MeteoraBin := do
  let arrayIndex := binIdToBinArrayIndex binId
  let binArray ← HashMap.get binArrays arrayIndex
  let lower := binArrayLowerBinId arrayIndex
  let upper := binArrayUpperBinId arrayIndex
  if binId < lower ∨ binId > upper then none
  else
    let index :=
      if 0 ≤ binId then (binId - lower).toNat
      else (maxBinArraySize - (upper - binId) - 1).toNat
    binArray.bins[index]?

def nextCachedBinArrayIndex (binArrays : HashMap Int MeteoraBinArray)
    (currentIndex direction : Int) : Option Int :=
  if direction < 0 then (binArrays.keys.filter (· < currentIndex)).max?
  else (binArrays.keys.filter (currentIndex < ·)).min?

def mulShrU64 (x y : Nat) (rounding : Rounding) : Option Nat :=
  let hi := wrap 64 (y / 2 ^ scaleOffset)
  let lo := wrap 64 y
  let highPart := x * hi
  let lowProduct := x * lo
  let quotient := highPart + lowProduct / 2 ^ scaleOffset
  if u128Max < quotient then none
  else
    let remainder := lowProduct % 2 ^ scaleOffset
    some (if rounding = .up ∧ 0 < remainder then saturatingAdd128 quotient 1 else quotient)

def shlDivU64 (x y : Nat) (rounding : Rounding) : Option Nat :=
  if y = 0 then none
  else
    let numerator := wrap 128 (x * 2 ^ scaleOffset)
    let quotient := numerator / y
    let remainder := numerator % y
    some (if rounding = .up ∧ 0 < remainder then saturatingAdd128 quotient 1 else quotient)

def getBaseFee (binStep : Nat) (parameters : MeteoraStaticParameters) : Nat :=
  let power := min (10 ^ parameters.baseFeePowerFactor) u128Max
  wrap 128 (parameters.baseFactor * binStep * 10 * power)

def getVariableFee (binStep : Nat) (parameters : MeteoraStaticParameters)
    (vParameters : MeteoraVariableParameters) : Nat :=
  if parameters.variableFeeControl = 0 then 0
  else
    let square := wrap 128 ((vParameters.volatilityAccumulator * binStep) ^ 2)
    let numerator := wrap 128 (parameters.variableFeeControl * square)
    divCeil numerator 100000000000

def totalFee (binStep : Nat) (parameters : MeteoraStaticParameters)
    (vParameters : MeteoraVariableParameters) : Nat :=
  min (saturatingAdd128 (getBaseFee binStep parameters)
    (getVariableFee binStep parameters vParameters)) maxFeeRate

def computeFee (binStep : Nat) (parameters : MeteoraStaticParameters)
    (vParameters : MeteoraVariableParameters) (inAmount : Nat) : Nat :=
  let fee := totalFee binStep parameters vParameters
  let denominator := max (feePrecision - fee) 1
  divCeil (saturatingMul128 inAmount fee) denominator

def computeFeeFromAmount (binStep : Nat) (parameters : MeteoraStaticParameters)
    (vParameters : MeteoraVariableParameters) (inAmountWithFees : Nat) : Nat :=
  divCeil (saturatingMul128 inAmountWithFees (totalFee binStep parameters vParameters))
    feePrecision

def getOutAmount (bin : MeteoraBin) (inAmount : Nat) (swapForY : Bool) : Option Nat := do
  let out ← if swapForY then mulShrU64 inAmount bin.price .down
    else shlDivU64 inAmount bin.price .down
  if out ≤ u64Max then some out else none

def swapExactInQuoteAtBin (bin : MeteoraBin) (binStep : Nat)
    (parameters : MeteoraStaticParameters) (vParameters : MeteoraVariableParameters)
    (inAmount : Nat) (swapForY : Bool) : BinSwapQuote :=
  if (swapForY ∧ bin.amountY = 0) ∨ (¬ swapForY ∧ bin.amountX = 0) then ⟨0, 0⟩
  else
    let maxAmountOut := if swapForY then bin.amountY else bin.amountX
    match (if swapForY then shlDivU64 bin.amountY bin.price .up
        else mulShrU64 bin.amountX bin.price .up) with
    | none => ⟨0, 0⟩
    | some withoutFee =>
        let maxFee := computeFee binStep parameters vParameters withoutFee
        let maxAmountIn := saturatingAdd128 withoutFee maxFee
        if maxAmountIn < inAmount then ⟨maxAmountIn, maxAmountOut⟩
        else
          let fee := computeFeeFromAmount binStep parameters vParameters inAmount
          let amountInAfterFee := inAmount - fee
          if u64Max < amountInAfterFee then ⟨0, 0⟩
          else
            match getOutAmount bin amountInAfterFee swapForY with
            | none => ⟨0, 0⟩
            | some computedOut => ⟨inAmount, min computedOut maxAmountOut⟩

/-- The traversal of `quoteExactIn`, one unit of `fuel` for each turn the
source's `guard` still allows. -/
def quoteLoop (swapForY : Bool) (binStep : Nat) (parameters : MeteoraStaticParameters)
    (vParameters : MeteoraVariableParameters) (binArrays : HashMap Int MeteoraBinArray) :
    Nat → Nat → Nat → Int → Nat
  | 0, _, totalOut, _ => totalOut
  | fuel + 1, remainingIn, totalOut, currentBinId =>
      let direction : Int := if swapForY then -1 else 1
      if remainingIn = 0 then totalOut
      else
        match getBin binArrays currentBinId with
        | none =>
            match nextCachedBinArrayIndex binArrays (binIdToBinArrayIndex currentBinId)
                direction with
            | none => totalOut
            | some nextArrayIndex =>
                let nextBinId := if direction < 0 then binArrayUpperBinId nextArrayIndex
                  else binArrayLowerBinId nextArrayIndex
                quoteLoop swapForY binStep parameters vParameters binArrays fuel
                  remainingIn totalOut nextBinId
        | some bin =>
            let quote := swapExactInQuoteAtBin bin binStep parameters vParameters
              remainingIn swapForY
            if quote.amountInConsumed = 0 ∨ quote.amountOut = 0 then
              quoteLoop swapForY binStep parameters vParameters binArrays fuel
                remainingIn totalOut (currentBinId + direction)
            else
              quoteLoop swapForY binStep parameters vParameters binArrays fuel
                (remainingIn - quote.amountInConsumed)
                (saturatingAdd128 totalOut quote.amountOut) (currentBinId + direction)

def quoteExactIn (amountIn : Nat) (swapForY : Bool) (activeId : Int) (binStep : Nat)
    (parameters : MeteoraStaticParameters) (vParameters : MeteoraVariableParameters)
    (binArrays : HashMap Int MeteoraBinArray) : Nat :=
  if amountIn = 0 ∨ binArrays.entries = [] then 0
  else
    min (quoteLoop swapForY binStep parameters vParameters binArrays 4096 amountIn 0 activeId)
      u64Max

end Helios.Meteora
