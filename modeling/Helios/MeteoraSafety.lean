import Helios.DecodedValues
import Helios.MeteoraChecks

/-! When the DLMM quote stays within its types. -/

namespace Helios.MeteoraChecks

open Fallible Machine
open Meteora (MeteoraStaticParameters MeteoraVariableParameters MeteoraBin MeteoraBinArray
  MeteoraDecodedLbPair BinFits PairValues CachedFor nextBin nextArray firstBin visited maxFeeRate)

/-! The walk, turn by turn. -/

/-- What the walk needs of the cached arrays. -/
structure ArraysFit (binArrays : HashMap Int MeteoraBinArray) : Prop where
  indices : ∀ index ∈ binArrays.keys, -2 ^ 31 ≤ index ∧ index < 2 ^ 31
  bins : ∀ binId bin, Meteora.getBin binArrays binId = some bin → BinFits bin

/-- The walk starts near zero, jumps only to a cached array and moves one bin a turn. -/
def InReach (fuel : Nat) (binId : Int) : Prop :=
  fuel ≤ 4096 ∧ -2 ^ 41 + fuel ≤ binId ∧ binId + fuel ≤ 2 ^ 41

section Reach

variable {fuel : Nat} {binId : Int}

theorem InReach.near (reach : InReach fuel binId) : Near binId := by
  rcases reach with ⟨-, low, high⟩
  constructor
  · omega
  · omega

theorem InReach.nextBin (reach : InReach (fuel + 1) binId) (swapForY : Bool) :
    InReach fuel (nextBin swapForY binId) := by
  rcases reach with ⟨turns, low, high⟩
  push_cast at low high
  rw [Meteora.nextBin]
  constructor
  · omega
  · cases swapForY with
    | true => constructor <;> simp <;> omega
    | false => constructor <;> simp <;> omega

theorem InReach.firstBin (reach : InReach (fuel + 1) binId) (swapForY : Bool) (index : Int)
    (low : -2 ^ 31 ≤ index) (high : index < 2 ^ 31) : InReach fuel (firstBin swapForY index) := by
  have turns := reach.1
  rw [Meteora.firstBin, Meteora.binArrayUpperBinId, Meteora.binArrayLowerBinId,
    Meteora.maxBinArraySize]
  constructor
  · omega
  · split
    · omega
    · omega

end Reach

section Turns

variable {binStep : Nat} {parameters : MeteoraStaticParameters}
  {vParameters : MeteoraVariableParameters} (swapForY : Bool)
  {binArrays : HashMap Int MeteoraBinArray} (fuel remainingIn totalOut : Nat) (binId : Int)

theorem stepped (near : Near binId) :
    i64 (binId + if swapForY then -1 else 1) = .ok (nextBin swapForY binId) := by
  rcases near with ⟨low, high⟩
  rw [nextBin]
  cases swapForY with
  | true => exact i64_of_bounds _ (by simp; omega) (by simp; omega)
  | false => exact i64_of_bounds _ (by simp; omega) (by simp; omega)

theorem turn_gap (near : Near binId) (arrays : ArraysFit binArrays) (more : remainingIn ≠ 0)
    (index : Int) (gap : Meteora.getBin binArrays binId = none)
    (next : nextArray swapForY binArrays binId = some index) :
    quoteLoop binStep parameters vParameters swapForY binArrays (fuel + 1) remainingIn totalOut
        binId =
      quoteLoop binStep parameters vParameters swapForY binArrays fuel remainingIn totalOut
        (firstBin swapForY index) := by
  have bounds := arrays.indices index (Meteora.nextArray_mem swapForY binArrays binId index next)
  have nearIndex : Near index := ⟨by omega, by omega⟩
  rw [nextArray] at next
  rw [quoteLoop]
  dsimp only
  rw [if_neg more, getBin_ok binArrays binId near, ok_bind, gap]
  dsimp only
  rw [binIdToBinArrayIndex_ok binId near, ok_bind, next]
  dsimp only
  rw [binArrayUpperBinId_ok index nearIndex, binArrayLowerBinId_ok index nearIndex]
  cases swapForY with
  | true => rfl
  | false => rfl

theorem turn_end (near : Near binId) (gap : Meteora.getBin binArrays binId = none)
    (last : nextArray swapForY binArrays binId = none) :
    quoteLoop binStep parameters vParameters swapForY binArrays (fuel + 1) remainingIn totalOut
      binId = .ok totalOut := by
  rw [nextArray] at last
  rw [quoteLoop]
  dsimp only
  split
  · rfl
  · rw [getBin_ok binArrays binId near, ok_bind, gap]
    dsimp only
    rw [binIdToBinArrayIndex_ok binId near, ok_bind, last]
    rfl

theorem loop_done : quoteLoop binStep parameters vParameters swapForY binArrays fuel 0 totalOut
    binId = .ok totalOut := by
  cases fuel with
  | zero => rfl
  | succ fuel => rw [quoteLoop, if_pos rfl]

theorem turn_bin (near : Near binId) (more : remainingIn ≠ 0) (bin : MeteoraBin)
    (found : Meteora.getBin binArrays binId = some bin) :
    quoteLoop binStep parameters vParameters swapForY binArrays (fuel + 1) remainingIn totalOut
        binId =
      swapExactInQuoteAtBin binStep parameters vParameters bin remainingIn swapForY >>=
        fun quote =>
          if quote.amountInConsumed = 0 ∨ quote.amountOut = 0 then
            quoteLoop binStep parameters vParameters swapForY binArrays fuel remainingIn totalOut
              (nextBin swapForY binId)
          else
            quoteLoop binStep parameters vParameters swapForY binArrays fuel
              (remainingIn - quote.amountInConsumed)
              (Meteora.saturatingAdd128 totalOut quote.amountOut) (nextBin swapForY binId) := by
  rw [quoteLoop]
  dsimp only
  rw [if_neg more, getBin_ok binArrays binId near, ok_bind, found]
  dsimp only
  congr 1
  funext quote
  rw [stepped swapForY binId near]
  split
  · rfl
  · split
    · next done =>
        rw [done, loop_done]
        rfl
    · rfl

/-- The checked walk is the walk, when the quotes of the bins met are. -/
theorem quoteLoop_ok (arrays : ArraysFit binArrays) (reach : InReach fuel binId)
    (small : remainingIn < 2 ^ 64)
    (each : ∀ bin ∈ visited swapForY binArrays fuel binId, ∀ inAmount < 2 ^ 64,
      swapExactInQuoteAtBin binStep parameters vParameters bin inAmount swapForY =
        .ok (Meteora.swapExactInQuoteAtBin bin binStep parameters vParameters inAmount
          swapForY)) :
    quoteLoop binStep parameters vParameters swapForY binArrays fuel remainingIn totalOut binId =
      .ok (Meteora.quoteLoop swapForY binStep parameters vParameters binArrays fuel remainingIn
        totalOut binId) := by
  induction fuel generalizing remainingIn totalOut binId with
  | zero => rfl
  | succ fuel ih =>
      by_cases done : remainingIn = 0
      · rw [done, loop_done, Meteora.quoteLoop_done]
      · cases found : Meteora.getBin binArrays binId with
        | none =>
            cases next : nextArray swapForY binArrays binId with
            | none =>
                rw [turn_end swapForY fuel _ _ _ reach.near found next,
                  Meteora.quoteLoop_end _ _ _ _ _ _ _ _ _ found next]
            | some index =>
                have bounds := arrays.indices index
                  (Meteora.nextArray_mem swapForY binArrays binId index next)
                rw [Meteora.visited_gap _ _ _ _ index found next] at each
                rw [turn_gap swapForY fuel _ _ _ reach.near arrays done index found next,
                  Meteora.quoteLoop_gap _ _ _ _ _ _ _ _ _ done index found next]
                exact ih _ _ _ (reach.firstBin swapForY index bounds.1 bounds.2) small each
        | some bin =>
            rw [Meteora.visited_bin _ _ _ _ bin found] at each
            have later := fun other member => each other (List.mem_cons_of_mem bin member)
            rw [turn_bin swapForY fuel _ _ _ reach.near done bin found,
              each bin List.mem_cons_self remainingIn small, ok_bind,
              Meteora.quoteLoop_bin _ _ _ _ _ _ _ _ _ done bin found]
            dsimp only
            split
            · exact ih _ _ _ (reach.nextBin swapForY) small later
            · exact ih _ _ _ (reach.nextBin swapForY) (by omega) later

theorem visited_sound (arrays : ArraysFit binArrays) :
    ∀ bin ∈ visited swapForY binArrays fuel binId, BinFits bin := by
  intro bin met
  rcases Meteora.mem_visited swapForY binArrays fuel binId bin met with ⟨place, found⟩
  exact arrays.bins place bin found

/-- With a base fee that leaves its type, the first priced bin stops the walk. -/
theorem quoteLoop_error (pair : PairFits binStep parameters vParameters)
    (exceeds : ¬ BaseFeeFits binStep parameters) (arrays : ArraysFit binArrays)
    (reach : InReach fuel binId) (more : remainingIn ≠ 0)
    (priced : ∃ bin ∈ visited swapForY binArrays fuel binId, Priced swapForY bin) :
    quoteLoop binStep parameters vParameters swapForY binArrays fuel remainingIn totalOut binId =
      .error .leavesType := by
  induction fuel generalizing binId with
  | zero =>
      rcases priced with ⟨bin, member, -⟩
      cases member
  | succ fuel ih =>
      cases found : Meteora.getBin binArrays binId with
      | none =>
          cases next : nextArray swapForY binArrays binId with
          | none =>
              rw [Meteora.visited_end _ _ _ _ found next] at priced
              rcases priced with ⟨bin, member, -⟩
              cases member
          | some index =>
              have bounds := arrays.indices index
                (Meteora.nextArray_mem swapForY binArrays binId index next)
              rw [Meteora.visited_gap _ _ _ _ index found next] at priced
              rw [turn_gap swapForY fuel _ _ _ reach.near arrays more index found next]
              exact ih _ (reach.firstBin swapForY index bounds.1 bounds.2) priced
      | some bin =>
          have sound := arrays.bins binId bin found
          rw [turn_bin swapForY fuel _ _ _ reach.near more bin found]
          by_cases here : Priced swapForY bin
          · rw [swap_error swapForY pair exceeds bin sound here]
            rfl
          · rw [(swap_idle swapForY bin sound here remainingIn).1, ok_bind, if_pos (Or.inl rfl)]
            apply ih _ (reach.nextBin swapForY)
            rw [Meteora.visited_bin _ _ _ _ bin found] at priced
            rcases priced with ⟨other, member, holds⟩
            rcases List.mem_cons.mp member with rfl | later
            · exact absurd holds here
            · exact ⟨other, later, holds⟩

end Turns

/-! The quote on accounts that were decoded. -/

theorem pairFits_of_values (pair : MeteoraDecodedLbPair) (values : PairValues pair) :
    PairFits pair.binStep pair.parameters pair.vParameters where
  binStep := values.binStep
  baseFactor := values.baseFactor
  variableFeeControl := values.variableFeeControl
  volatilityAccumulator := values.volatilityAccumulator

theorem arraysFit_of_cached (lbPair : Pubkey) (pair : MeteoraDecodedLbPair)
    (values : PairValues pair) (binArrays : HashMap Int MeteoraBinArray)
    (cached : CachedFor lbPair pair binArrays) : ArraysFit binArrays where
  indices := cached.indices values
  bins := cached.bins

/-- The bins one quote can meet. -/
def metBins (pair : MeteoraDecodedLbPair) (binArrays : HashMap Int MeteoraBinArray)
    (swapForY : Bool) : List MeteoraBin :=
  visited swapForY binArrays 4096 pair.activeId

/-- Every operator of the quote stays within its type, and the fee rate below its cap. -/
def StaysWithin (pair : MeteoraDecodedLbPair) (binArrays : HashMap Int MeteoraBinArray)
    (amountIn : Nat) (swapForY : Bool) : Prop :=
  quoteExactIn pair.binStep pair.parameters pair.vParameters amountIn swapForY pair.activeId
      binArrays =
    .ok (Meteora.quoteExactIn amountIn swapForY pair.activeId pair.binStep pair.parameters
      pair.vParameters binArrays) ∧
  Meteora.totalFee pair.binStep pair.parameters pair.vParameters ≤ maxFeeRate

section Quote

variable (pair : MeteoraDecodedLbPair) (binArrays : HashMap Int MeteoraBinArray)
  (arrays : ArraysFit binArrays)
  (fitsPair : PairFits pair.binStep pair.parameters pair.vParameters)
  (reach : InReach 4096 pair.activeId) (amountIn : Nat)

include arrays fitsPair reach

theorem quoteExactIn_ok (word : amountIn < 2 ^ 64) (swapForY : Bool)
    (free : BaseFeeFits pair.binStep pair.parameters ∨
      ∀ bin ∈ metBins pair binArrays swapForY, ¬ Priced swapForY bin) :
    quoteExactIn pair.binStep pair.parameters pair.vParameters amountIn swapForY pair.activeId
        binArrays =
      .ok (Meteora.quoteExactIn amountIn swapForY pair.activeId pair.binStep pair.parameters
        pair.vParameters binArrays) := by
  rw [quoteExactIn, Meteora.quoteExactIn]
  split
  · rfl
  · rw [quoteLoop_ok swapForY 4096 amountIn 0 pair.activeId arrays reach word]
    · rfl
    · intro bin met inAmount small
      have sound := visited_sound swapForY 4096 pair.activeId arrays bin met
      rcases free with fits | unpriced
      · exact swap_ok swapForY fitsPair fits bin sound inAmount small
      · rcases swap_idle swapForY bin sound (unpriced bin met) inAmount with ⟨checked, plain⟩
        rw [checked, plain]

theorem quoteExactIn_error (more : amountIn ≠ 0) (swapForY : Bool)
    (exceeds : ¬ BaseFeeFits pair.binStep pair.parameters)
    (priced : ¬ ∀ bin ∈ metBins pair binArrays swapForY, ¬ Priced swapForY bin) :
    quoteExactIn pair.binStep pair.parameters pair.vParameters amountIn swapForY pair.activeId
      binArrays = .error .leavesType := by
  have met : ∃ bin ∈ metBins pair binArrays swapForY, Priced swapForY bin := by
    by_contra none_
    exact priced (fun bin met holds => none_ ⟨bin, met, holds⟩)
  have filled : binArrays.entries ≠ [] := by
    intro none_
    rcases met with ⟨bin, member, -⟩
    rw [metBins, Meteora.visited_empty swapForY binArrays 4096 pair.activeId none_] at member
    cases member
  rw [quoteExactIn, if_neg (not_or.mpr ⟨more, filled⟩),
    quoteLoop_error swapForY 4096 amountIn 0 pair.activeId fitsPair exceeds arrays reach more
      met]
  rfl

end Quote

theorem stays_within_iff (data : Account) (lbPair : Pubkey) (pair : MeteoraDecodedLbPair)
    (decoded : Meteora.decodeLbPair data = .value pair)
    (binArrays : HashMap Int MeteoraBinArray) (cached : CachedFor lbPair pair binArrays)
    (amountIn : Nat) (word : amountIn < 2 ^ 64) (swapForY : Bool) :
    StaysWithin pair binArrays amountIn swapForY ↔
      BaseFeeFits pair.binStep pair.parameters ∨ amountIn = 0 ∨
        ∀ bin ∈ metBins pair binArrays swapForY, ¬ Priced swapForY bin := by
  have values := Meteora.gives_decodeLbPair data pair decoded
  have fitsPair := pairFits_of_values pair values
  have arrays := arraysFit_of_cached lbPair pair values binArrays cached
  have reach : InReach 4096 pair.activeId := by
    rcases values.activeId with ⟨low, high⟩
    exact ⟨le_refl _, by omega, by omega⟩
  have rate := Meteora.totalFee_le pair.binStep pair.parameters pair.vParameters
  by_cases free : BaseFeeFits pair.binStep pair.parameters ∨
      ∀ bin ∈ metBins pair binArrays swapForY, ¬ Priced swapForY bin
  · have same := quoteExactIn_ok pair binArrays arrays fitsPair reach amountIn word swapForY free
    constructor
    · intro _
      rcases free with fits | unpriced
      · exact Or.inl fits
      · exact Or.inr (Or.inr unpriced)
    · intro _
      exact ⟨same, rate⟩
  · rcases not_or.mp free with ⟨exceeds, priced⟩
    constructor
    · intro ⟨stays, _⟩
      by_cases zero : amountIn = 0
      · exact Or.inr (Or.inl zero)
      · rw [quoteExactIn_error pair binArrays arrays fitsPair reach amountIn zero swapForY exceeds
          priced] at stays
        cases stays
    · intro holds
      rcases holds with fits | zero | unpriced
      · exact absurd fits exceeds
      · refine ⟨?_, rate⟩
        rw [quoteExactIn, Meteora.quoteExactIn, if_pos (Or.inl zero), if_pos (Or.inl zero)]
      · exact absurd unpriced priced

/-! A pair with a power of ten of its own in the base fee, and one array. -/

def pairData (power : UInt8) : Account :=
  Meteora.lbPairDiscriminator ++ leBytes 2 1 ++ List.replicate 24 0 ++ [power] ++
    List.replicate 45 0 ++ leBytes 2 1 ++ List.replicate 630 0

def zeroKey : Pubkey := Pubkey.ofBytes (List.replicate 32 0)

def onesPair (power : Nat) : MeteoraDecodedLbPair where
  activeId := 0
  binStep := 1
  reserveX := zeroKey
  reserveY := zeroKey
  parameters := ⟨1, 0, power⟩
  vParameters := ⟨0⟩
  binArrayBitmap := List.replicate 16 0

deriving instance DecidableEq for MeteoraDecodedLbPair

theorem steepPair_decoded : Meteora.decodeLbPair (pairData 255) = .value (onesPair 255) := by
  decide +kernel

/-- An array of index 0 whose bins are bytes of one. -/
def onesHeader : Account := Meteora.binArrayDiscriminator ++ List.replicate 48 0

def onesData : Account := onesHeader ++ List.replicate 10088 1

def onesBin : MeteoraBin :=
  ⟨ofLeBytes (List.replicate 8 1), ofLeBytes (List.replicate 8 1),
    ofLeBytes (List.replicate 16 1)⟩

def onesArray : MeteoraBinArray := ⟨0, (List.range 70).map (fun _ => onesBin)⟩

theorem onesData_length : onesData.length = 10144 := by
  rw [onesData, List.length_append, List.length_replicate]
  rfl

theorem get_onesData (offset width : Nat) (low : 56 ≤ offset) (high : offset + width ≤ 10144) :
    Account.get onesData offset width = some (List.replicate width 1) := by
  have header : onesHeader.length = 56 := rfl
  rw [Account.get, onesData_length, if_pos high, onesData, List.drop_append,
    List.drop_eq_nil_of_le (by omega), List.nil_append, List.drop_replicate, List.take_replicate,
    Nat.min_eq_left (by omega)]

/-- What is read before the bins is read from the header. -/
theorem get_onesHeader (offset width : Nat) (high : offset + width ≤ 56) :
    Account.get onesData offset width = Account.get onesHeader offset width := by
  have header : onesHeader.length = 56 := rfl
  rw [Account.get, Account.get, onesData_length, header, if_pos high, if_pos (by omega), onesData,
    List.drop_append_of_le_length (by omega), List.take_append_of_le_length]
  rw [List.length_drop]
  omega

theorem onesBin_decoded (place : Nat) (inside : place ∈ List.range 70) :
    Meteora.decodeBin onesData (56 + place * 144) = .value onesBin := by
  have bound := List.mem_range.mp inside
  rw [Meteora.decodeBin, Meteora.readNat, get_onesData _ _ (by omega) (by omega),
    Meteora.readNat, get_onesData _ _ (by omega) (by omega), Meteora.readNat,
    get_onesData _ _ (by omega) (by omega)]
  rfl

theorem onesArray_decoded : Meteora.decodeBinArray onesData zeroKey = .value onesArray := by
  have bins : (List.range 70).mapM (fun place => Meteora.decodeBin onesData (56 + place * 144)) =
      .value ((List.range 70).map (fun _ => onesBin)) := by
    rw [Decoded.mapM_congr _ (fun _ => .value onesBin) _ onesBin_decoded]
    exact List.mapM_pure
  have tag : Account.slice onesData 0 8 = .value Meteora.binArrayDiscriminator := by
    rw [Account.slice, get_onesHeader _ _ (by omega)]
    rfl
  have owner : Meteora.readPubkey onesData 24 = .value zeroKey := by
    rw [Meteora.readPubkey, get_onesHeader _ _ (by omega)]
    rfl
  have index : Meteora.readNat onesData 8 8 = .value 0 := by
    rw [Meteora.readNat, get_onesHeader _ _ (by omega)]
    rfl
  rw [Meteora.decodeBinArray, onesData_length, if_neg (by omega), tag, Decoded.value_bind,
    if_neg (not_not.mpr rfl), owner, Decoded.value_bind, if_neg (not_not.mpr rfl), bins,
    Decoded.value_bind, index, Decoded.value_bind, wrapI64_of_bounds _ (by omega) (by omega)]
  rfl

def onesArrays : HashMap Int MeteoraBinArray := AList.singleton 0 onesArray

theorem onesArrays_cached (power : Nat) : CachedFor zeroKey (onesPair power) onesArrays where
  requested := by
    intro index key
    rw [List.mem_singleton.mp key]
    exact Meteora.active_candidate 0 _
  decoded := by
    intro index binArray found
    have key : index = 0 := by
      by_contra other
      rw [HashMap.get, onesArrays, AList.lookup_eq_none.mpr] at found
      · cases found
      · rw [AList.mem_keys]
        exact fun member => other (List.mem_singleton.mp member)
    rw [key] at found
    cases found
    exact ⟨onesData, onesArray_decoded⟩

theorem onesBin_met : onesBin ∈ metBins (onesPair 255) onesArrays true := by
  have found : Meteora.getBin onesArrays 0 = some onesBin := by
    decide +kernel
  change onesBin ∈ visited true onesArrays (4095 + 1) 0
  rw [Meteora.visited_bin _ _ _ _ onesBin found]
  exact List.mem_cons_self

theorem levelPair_decoded : Meteora.decodeLbPair (pairData 0) = .value (onesPair 0) := by
  decide +kernel

theorem level_base_fee_stays : StaysWithin (onesPair 0) onesArrays 1 true :=
  (stays_within_iff (pairData 0) zeroKey (onesPair 0) levelPair_decoded onesArrays
    (onesArrays_cached 0) 1 (by norm_num) true).mpr (Or.inl (by decide +kernel))

/-- With the highest power a byte holds, the base fee leaves `u128` at the first priced bin. -/
theorem steep_base_fee_leaves :
    ¬ ∀ data lbPair pair, Meteora.decodeLbPair data = .value pair →
      ∀ binArrays, CachedFor lbPair pair binArrays → ∀ amountIn < 2 ^ 64, ∀ swapForY,
        StaysWithin pair binArrays amountIn swapForY := by
  intro always
  have stays := always (pairData 255) zeroKey (onesPair 255) steepPair_decoded onesArrays
    (onesArrays_cached 255) 1 (by norm_num) true
  have values := Meteora.gives_decodeLbPair (pairData 255) _ steepPair_decoded
  have arrays := arraysFit_of_cached zeroKey _ values onesArrays (onesArrays_cached 255)
  have exceeds : ¬ BaseFeeFits (onesPair 255).binStep (onesPair 255).parameters := by
    decide +kernel
  have reach : InReach 4096 (onesPair 255).activeId := by
    rw [InReach]
    decide
  have priced : Priced true onesBin := by
    decide
  have fault := quoteExactIn_error (onesPair 255) onesArrays arrays
    (pairFits_of_values _ values) reach 1 (by norm_num) true exceeds
    (fun idle => idle onesBin onesBin_met priced)
  rw [StaysWithin, fault] at stays
  cases stays.1

end Helios.MeteoraChecks
