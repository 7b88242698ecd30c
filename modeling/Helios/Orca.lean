import Helios.FloatArith
import Helios.HashMap
import Helios.Machine

/-! Quoting through Orca Whirlpool tick arrays. Prices are floats of the source,
so the traversal is stated over any float arithmetic and any power function. -/

namespace Helios.Orca

structure OrcaTick where
  initialized : Bool
  liquidityNet : Int
  deriving DecidableEq

structure OrcaTickArray where
  startTickIndex : Int
  ticks : List OrcaTick
  deriving DecidableEq

structure OrcaSwapQuote where
  amountOut : Nat
  traversedArrays : List Int
  deriving DecidableEq

inductive TraversalEvent where
  | initializedTick (tick liquidityNet : Int)
  | arrayBoundary (tick : Int)

def orcaTickArraySize : Int := 88

def tickArrayOffset (tickSpacing : Nat) : Int := tickSpacing * orcaTickArraySize

def tickArrayStartIndex (tickIndex : Int) (tickSpacing : Nat) : Int :=
  if tickSpacing = 0 then 0
  else (tickIndex.ediv tickSpacing).ediv orcaTickArraySize * tickSpacing * orcaTickArraySize

/-- One candidate of the scan in `nextInitializedTick`. -/
def betterTick (tickCurrent : Int) (aToB : Bool) (best : Option (Int × Int))
    (candidate : Int × Int) : Option (Int × Int) :=
  let isBetter :=
    if aToB then
      decide (candidate.1 < tickCurrent) && (best.map (fun b => decide (b.1 < candidate.1))).getD true
    else
      decide (tickCurrent < candidate.1) && (best.map (fun b => decide (candidate.1 < b.1))).getD true
  if isBetter then some candidate else best

def nextInitializedTick (tickCurrent : Int) (tickSpacing : Nat) (aToB : Bool)
    (tickArrays : HashMap Int OrcaTickArray) : Option (Int × Int) :=
  let candidates := (HashMap.values tickArrays).flatMap (fun tickArray =>
    (tickArray.ticks.zipIdx.filter (fun entry => entry.1.initialized)).map (fun entry =>
      (Machine.wrapI32 (tickArray.startTickIndex + (entry.2 : Int) * tickSpacing),
        entry.1.liquidityNet)))
  candidates.foldl (betterTick tickCurrent aToB) none

def nextEvent (tickCurrent lowerBoundary upperBoundary : Int) (tickSpacing : Nat) (aToB : Bool)
    (tickArrays : HashMap Int OrcaTickArray) : TraversalEvent :=
  let boundaryTick := if aToB then lowerBoundary else upperBoundary
  match nextInitializedTick tickCurrent tickSpacing aToB tickArrays with
  | some (initTick, liqNet) =>
      if aToB then
        if boundaryTick ≤ initTick then .initializedTick initTick liqNet
        else .arrayBoundary boundaryTick
      else if initTick ≤ boundaryTick then .initializedTick initTick liqNet
      else .arrayBoundary boundaryTick
  | none => .arrayBoundary boundaryTick

section Prices

variable {F : Type} [FloatArith F]

open FloatArith

def epsilon : F := ofRat (1 / 2 ^ 52)

def effectiveInputToReachTarget (aToB : Bool) (current target liquidity : F) : F :=
  if aToB then
    if le current target then ofNat 0
    else div (mul liquidity (sub current target)) (mul current target)
  else if le target current then ofNat 0
  else mul liquidity (sub target current)

def amountOutForStep (aToB : Bool) (current next liquidity : F) : F :=
  if aToB then mul liquidity (sub current next)
  else mul liquidity (sub (div (ofNat 1) current) (div (ofNat 1) next))

def partialAmountOut (aToB : Bool) (current liquidity effectiveInput : F) : F :=
  if le effectiveInput epsilon then ofNat 0
  else if aToB then
    let next := div (mul current liquidity) (add liquidity (mul effectiveInput current))
    amountOutForStep true current next liquidity
  else
    let next := add current (div effectiveInput liquidity)
    amountOutForStep false current next liquidity

def sqrtPriceX64ToFloat (value : Nat) : F := div (ofNat value) (ofNat (2 ^ 64))

def tickIndexToSqrtPrice (powf : F → F → F) (tickIndex : Int) : F :=
  powf (ofRat (10001 / 10000)) (div (ofInt tickIndex) (ofNat 2))

/-- The variables of the traversal loop. -/
structure Traversal (F : Type) where
  remainingUserIn : F
  amountOut : F
  sqrtPrice : F
  liquidity : F
  tickCurrent : Int
  traversedArrays : List Int

def pushArray (arrays : List Int) (start : Int) : List Int :=
  if arrays.getLast? = some start then arrays else arrays ++ [start]

/-- One turn of the loop: the next variables, and whether to go on. -/
def traversalStep (powf : F → F → F) (feeFactor : F) (aToB : Bool) (tickSpacing : Nat)
    (tickArrays : HashMap Int OrcaTickArray) (t : Traversal F) : Traversal F × Bool :=
  if le t.remainingUserIn epsilon || le t.liquidity (ofNat 0) then (t, false)
  else
    let currentArray := tickArrayStartIndex t.tickCurrent tickSpacing
    let t := { t with traversedArrays := pushArray t.traversedArrays currentArray }
    let event := nextEvent t.tickCurrent currentArray (currentArray + tickArrayOffset tickSpacing)
      tickSpacing aToB tickArrays
    let (targetTick, liquidityNet, crossingBoundary) := match event with
      | .initializedTick tick net => (tick, net, false)
      | .arrayBoundary tick => (tick, 0, true)
    let targetSqrt := tickIndexToSqrtPrice powf targetTick
    let required := effectiveInputToReachTarget aToB t.sqrtPrice targetSqrt t.liquidity
    let reached := isFinite required && lt epsilon required &&
      le required (add (mul t.remainingUserIn feeFactor) (ofRat (1 / 10 ^ 12)))
    if reached then
      let requiredUserIn := div required (FloatArith.max feeFactor epsilon)
      let tickCurrent := if aToB then targetTick - tickSpacing else targetTick
      let t := { t with
        remainingUserIn := FloatArith.max (sub t.remainingUserIn requiredUserIn) (ofNat 0)
        amountOut := add t.amountOut (amountOutForStep aToB t.sqrtPrice targetSqrt t.liquidity)
        sqrtPrice := targetSqrt
        tickCurrent := tickCurrent }
      if crossingBoundary then
        let nextArray := tickArrayStartIndex tickCurrent tickSpacing
        ({ t with traversedArrays := pushArray t.traversedArrays nextArray }, true)
      else
        let held : Int := FloatArith.toNat t.liquidity
        let updated := if aToB then held - liquidityNet else held + liquidityNet
        ({ t with liquidity := ofNat updated.toNat }, true)
    else
      let effectiveIn := mul t.remainingUserIn feeFactor
      let rest := partialAmountOut aToB t.sqrtPrice t.liquidity effectiveIn
      ({ t with amountOut := add t.amountOut rest }, false)

def traversalLoop (powf : F → F → F) (feeFactor : F) (aToB : Bool) (tickSpacing : Nat)
    (tickArrays : HashMap Int OrcaTickArray) : Nat → Traversal F → Traversal F
  | 0, t => t
  | fuel + 1, t =>
      match traversalStep powf feeFactor aToB tickSpacing tickArrays t with
      | (next, true) => traversalLoop powf feeFactor aToB tickSpacing tickArrays fuel next
      | (next, false) => next

def quoteExactIn (powf : F → F → F) (amountIn : Nat) (aToB : Bool) (sqrtPriceX64 liquidity : Nat)
    (tickCurrentIndex : Int) (tickSpacing feeBps : Nat)
    (tickArrays : HashMap Int OrcaTickArray) : OrcaSwapQuote :=
  let start := tickArrayStartIndex tickCurrentIndex tickSpacing
  if amountIn = 0 ∨ liquidity = 0 ∨ sqrtPriceX64 = 0 ∨ tickSpacing = 0 then ⟨0, [start]⟩
  else
    let feeFactor : F :=
      div (FloatArith.max (sub (ofNat 10000) (ofNat feeBps)) (ofNat 0)) (ofNat 10000)
    let final := traversalLoop powf feeFactor aToB tickSpacing tickArrays 512
      { remainingUserIn := ofNat amountIn
        amountOut := ofNat 0
        sqrtPrice := sqrtPriceX64ToFloat sqrtPriceX64
        liquidity := ofNat liquidity
        tickCurrent := tickCurrentIndex
        traversedArrays := [start] }
    ⟨toU64 (FloatArith.max final.amountOut (ofNat 0)), final.traversedArrays⟩

end Prices

end Helios.Orca
