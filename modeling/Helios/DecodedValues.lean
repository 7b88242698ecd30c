import Helios.DecoderTotality
import Helios.MeteoraWalk

/-! What holds of every value a decoder returns, and of the DLMM accounts in particular: each
number stays within the width it was read at. -/

namespace Helios

open Machine

namespace Decoded

variable {α β : Type}

/-- The value, if the decoding ends with one, is of this kind. -/
def Gives (result : Decoded α) (kind : α → Prop) : Prop :=
  ∀ decoded, result = value decoded → kind decoded

section Gives

variable (kind : α → Prop) (later : β → Prop)

theorem gives_value (decoded : α) (holds : kind decoded) : Gives (value decoded) kind := by
  intro other same
  cases same
  exact holds

theorem gives_refused : Gives (refused : Decoded α) kind := fun _ same => nomatch same

theorem gives_true (result : Decoded α) : Gives result (fun _ => True) := fun _ _ => trivial

theorem gives_bind (first : Decoded α) (next : α → Decoded β) (here : Gives first kind)
    (rest : ∀ decoded, kind decoded → Gives (next decoded) later) :
    Gives (first >>= next) later := by
  intro result same
  rcases (bind_eq_value_iff first next result).mp same with ⟨decoded, known, ends⟩
  exact rest decoded (here decoded known) result ends

/-- A step whose value no bound is needed for. -/
theorem gives_after (first : Decoded α) (next : α → Decoded β)
    (rest : ∀ decoded, Gives (next decoded) later) : Gives (first >>= next) later :=
  gives_bind (fun _ => True) later first next (gives_true first) (fun decoded _ => rest decoded)

theorem gives_guard (fails : Prop) [Decidable fails] (rest : Decoded α)
    (passed : Gives rest kind) : Gives (if fails then refused else rest) kind := by
  split
  · exact gives_refused kind
  · exact passed

theorem gives_mapM (f : α → Decoded β) (inputs : List α)
    (each : ∀ input ∈ inputs, Gives (f input) later) :
    Gives (inputs.mapM f) (fun outputs => ∀ output ∈ outputs, later output) := by
  induction inputs with
  | nil =>
      apply gives_value
      intro output member
      cases member
  | cons input rest ih =>
      rw [List.mapM_cons]
      refine gives_bind _ _ _ _ (each input List.mem_cons_self) (fun output holds => ?_)
      refine gives_bind _ _ _ _
        (ih (fun other member => each other (List.mem_cons_of_mem _ member)))
        (fun outputs others => ?_)
      refine gives_value _ _ ?_
      intro any member
      rcases List.mem_cons.mp member with rfl | inRest
      · exact holds
      · exact others any inRest

theorem gives_mapM_length (f : α → Decoded β) (inputs : List α) :
    Gives (inputs.mapM f) (fun outputs => outputs.length = inputs.length) := by
  induction inputs with
  | nil => exact gives_value _ _ rfl
  | cons input inputs ih =>
      rw [List.mapM_cons]
      refine gives_after _ _ _ (fun output => ?_)
      refine gives_bind _ _ _ _ ih (fun outputs long => ?_)
      exact gives_value _ _ (congrArg Nat.succ long)

end Gives

end Decoded

theorem ofLeBytes_lt (bytes : List UInt8) : ofLeBytes bytes < 256 ^ bytes.length := by
  induction bytes with
  | nil => exact Nat.one_pos
  | cons first rest ih =>
      have byte : first.toNat < 256 := first.toNat_lt
      rw [ofLeBytes, List.length_cons, pow_succ]
      omega

theorem wrapI32_bounds (n : Int) : -2 ^ 31 ≤ wrapI32 n ∧ wrapI32 n < 2 ^ 31 := by
  have low := Int.le_bmod (x := n) (m := 2 ^ 32) (by norm_num)
  have high := Int.bmod_lt (x := n) (m := 2 ^ 32) (by norm_num)
  rw [wrapI32]
  norm_num at low high ⊢
  exact ⟨low, high⟩

namespace Meteora

open Decoded

theorem gives_readNat (data : Account) (offset width : Nat) :
    Gives (readNat data offset width) (fun n => n < 256 ^ width) := by
  intro n same
  rw [readNat, Account.get] at same
  split at same
  · next inside =>
      cases same
      have size : ((data.drop offset).take width).length = width := by
        rw [List.length_take, List.length_drop]
        omega
      have bound := ofLeBytes_lt ((data.drop offset).take width)
      rw [size] at bound
      exact bound
  · cases same

/-- A decoded pair. -/
structure PairValues (pair : MeteoraDecodedLbPair) : Prop where
  binStep : pair.binStep < 2 ^ 16
  baseFactor : pair.parameters.baseFactor < 2 ^ 16
  baseFeePowerFactor : pair.parameters.baseFeePowerFactor < 2 ^ 8
  variableFeeControl : pair.parameters.variableFeeControl < 2 ^ 32
  volatilityAccumulator : pair.vParameters.volatilityAccumulator < 2 ^ 32
  activeId : -2 ^ 31 ≤ pair.activeId ∧ pair.activeId < 2 ^ 31

theorem gives_decodeLbPair (data : Account) : Gives (decodeLbPair data) PairValues := by
  rw [decodeLbPair]
  refine gives_guard _ _ _ ?_
  refine gives_after _ _ _ (fun tag => ?_)
  refine gives_guard _ _ _ ?_
  refine gives_bind _ _ _ _ (gives_readNat data 8 2) (fun baseFactor baseFactorFits => ?_)
  refine gives_bind _ _ _ _ (gives_readNat data 16 4)
    (fun variableFeeControl variableFeeControlFits => ?_)
  refine gives_after _ _ _ (fun baseFeePowerFactor => ?_)
  refine gives_bind _ _ _ _ (gives_readNat data 40 4)
    (fun volatilityAccumulator volatilityAccumulatorFits => ?_)
  refine gives_after _ _ _ (fun activeId => ?_)
  refine gives_bind _ _ _ _ (gives_readNat data 80 2) (fun binStep binStepFits => ?_)
  refine gives_after _ _ _ (fun reserveX => ?_)
  refine gives_after _ _ _ (fun reserveY => ?_)
  refine gives_after _ _ _ (fun binArrayBitmap => ?_)
  refine gives_value _ _ ?_
  norm_num at baseFactorFits variableFeeControlFits volatilityAccumulatorFits binStepFits
  constructor
  · exact binStepFits
  · exact baseFactorFits
  · exact baseFeePowerFactor.toNat_lt
  · exact variableFeeControlFits
  · exact volatilityAccumulatorFits
  · dsimp only
    exact wrapI32_bounds activeId

theorem gives_decodeBin (data : Account) (offset : Nat) :
    Gives (decodeBin data offset) BinFits := by
  rw [decodeBin]
  refine gives_bind _ _ _ _ (gives_readNat data offset 8) (fun amountX amountXFits => ?_)
  refine gives_bind _ _ _ _ (gives_readNat data (offset + 8) 8) (fun amountY amountYFits => ?_)
  refine gives_bind _ _ _ _ (gives_readNat data (offset + 16) 16) (fun price priceFits => ?_)
  refine gives_value _ _ ?_
  exact ⟨amountXFits, amountYFits, priceFits⟩

/-- The bins of a decoded array are decoded one by one. -/
theorem gives_decodeBinArray_bins (data : Account) (lbPair : Pubkey) :
    Gives (decodeBinArray data lbPair) (fun binArray =>
      (List.range 70).mapM (fun place => decodeBin data (56 + place * 144)) =
        value binArray.bins) := by
  rw [decodeBinArray]
  refine gives_guard _ _ _ ?_
  refine gives_after _ _ _ (fun tag => ?_)
  refine gives_guard _ _ _ ?_
  refine gives_after _ _ _ (fun owner => ?_)
  refine gives_guard _ _ _ ?_
  refine gives_bind _ _ _ _ (fun bins decoded => decoded) (fun bins decoded => ?_)
  refine gives_after _ _ _ (fun index => ?_)
  refine gives_value _ _ ?_
  exact decoded

theorem gives_decodeBinArray (data : Account) (lbPair : Pubkey) :
    Gives (decodeBinArray data lbPair) (fun binArray => ∀ bin ∈ binArray.bins, BinFits bin) := by
  intro binArray decoded
  apply gives_mapM BinFits _ _ (fun place _ => gives_decodeBin data _)
  exact gives_decodeBinArray_bins data lbPair binArray decoded

/-- A decoded array has all its bins. -/
theorem gives_decodeBinArray_length (data : Account) (lbPair : Pubkey) :
    Gives (decodeBinArray data lbPair) (fun binArray => binArray.bins.length = 70) := by
  intro binArray decoded
  have long := gives_mapM_length _ _ _ (gives_decodeBinArray_bins data lbPair binArray decoded)
  exact long.trans List.length_range

/-! The arrays that are asked for. -/

/-- The array of the active bin, or one the bitmap has a place for. -/
def Requestable (activeIndex index : Int) : Prop :=
  index = activeIndex ∨ (-binArrayBitmapSize ≤ index ∧ index < binArrayBitmapSize)

theorem requestable_of_bitmapHasIndex (bitmap : List Nat) (activeIndex index : Int)
    (has : bitmapHasIndex bitmap index = true) : Requestable activeIndex index := by
  rw [bitmapHasIndex] at has
  split at has
  · next inside => exact Or.inr inside
  · cases has

theorem candidateLoop_requestable (bitmap : List Nat) (activeIndex : Int) (fuel : Nat)
    (distance : Int) (negativeCount positiveCount : Nat) (out : List Int)
    (before : ∀ index ∈ out, Requestable activeIndex index) :
    ∀ index ∈ candidateLoop bitmap activeIndex fuel distance negativeCount positiveCount out,
      Requestable activeIndex index := by
  have taken : ∀ (count : Nat) (index : Int) (held : List Int),
      (∀ other ∈ held, Requestable activeIndex other) →
      ∀ other ∈ (if (decide (count < maxCachedBinArraysPerSide) &&
        bitmapHasIndex bitmap index) = true then held ++ [index] else held),
        Requestable activeIndex other := by
    intro count index held known other member
    split at member
    · next takes =>
        rw [Bool.and_eq_true] at takes
        rcases List.mem_append.mp member with inHeld | last
        · exact known other inHeld
        · rw [List.mem_singleton.mp last]
          exact requestable_of_bitmapHasIndex bitmap activeIndex index takes.2
    · exact known other member
  induction fuel generalizing distance negativeCount positiveCount out with
  | zero => exact before
  | succ fuel ih =>
      rw [candidateLoop]
      dsimp only
      split
      · have extended := taken positiveCount (activeIndex + distance) _
          (taken negativeCount (activeIndex - distance) out before)
        split
        · exact extended
        · exact ih _ _ _ _ extended
      · exact before

theorem candidate_requestable (activeId : Int) (bitmap : List Nat) (index : Int)
    (candidate : index ∈ candidateBinArrayIndices activeId bitmap) :
    Requestable (activeId / 70) index := by
  rw [candidateBinArrayIndices, binIdToBinArrayIndex_eq] at candidate
  rw [List.mem_dedup, List.mem_mergeSort] at candidate
  apply candidateLoop_requestable bitmap (activeId / 70) _ _ _ _ _ _ index candidate
  intro other member
  exact Or.inl (List.mem_singleton.mp member)

theorem candidateLoop_keeps (bitmap : List Nat) (activeIndex : Int) (fuel : Nat)
    (distance : Int) (negativeCount positiveCount : Nat) (out : List Int) (index : Int)
    (before : index ∈ out) :
    index ∈ candidateLoop bitmap activeIndex fuel distance negativeCount positiveCount out := by
  have kept : ∀ (takes : Bool) (other : Int) (held : List Int), index ∈ held →
      index ∈ if takes then held ++ [other] else held := by
    intro takes other held member
    split
    · exact List.mem_append_left _ member
    · exact member
  induction fuel generalizing distance negativeCount positiveCount out with
  | zero => exact before
  | succ fuel ih =>
      rw [candidateLoop]
      dsimp only
      split
      · have extended := kept (decide (positiveCount < maxCachedBinArraysPerSide) &&
            bitmapHasIndex bitmap (activeIndex + distance)) (activeIndex + distance) _
          (kept (decide (negativeCount < maxCachedBinArraysPerSide) &&
            bitmapHasIndex bitmap (activeIndex - distance)) (activeIndex - distance) out before)
        split
        · exact extended
        · exact ih _ _ _ _ extended
      · exact before

/-- The array of the active bin is always asked for. -/
theorem active_candidate (activeId : Int) (bitmap : List Nat) :
    activeId / 70 ∈ candidateBinArrayIndices activeId bitmap := by
  rw [candidateBinArrayIndices, binIdToBinArrayIndex_eq, List.mem_dedup, List.mem_mergeSort]
  exact candidateLoop_keeps _ _ _ _ _ _ _ _ List.mem_cons_self

/-- The bin arrays cached for a pair: each decoded for it, under an index that was asked
for. -/
structure CachedFor (lbPair : Pubkey) (pair : MeteoraDecodedLbPair)
    (binArrays : HashMap Int MeteoraBinArray) : Prop where
  requested : ∀ index ∈ binArrays.keys,
    index ∈ candidateBinArrayIndices pair.activeId pair.binArrayBitmap
  decoded : ∀ index binArray, HashMap.get binArrays index = some binArray →
    ∃ data, decodeBinArray data lbPair = value binArray

theorem CachedFor.bins {lbPair : Pubkey} {pair : MeteoraDecodedLbPair}
    {binArrays : HashMap Int MeteoraBinArray} (cached : CachedFor lbPair pair binArrays)
    (binId : Int) (bin : MeteoraBin) (found : getBin binArrays binId = some bin) :
    BinFits bin := by
  rw [getBin_eq] at found
  rcases Option.bind_eq_some_iff.mp found with ⟨binArray, held, place⟩
  rcases cached.decoded _ _ held with ⟨data, decoded⟩
  exact gives_decodeBinArray data lbPair binArray decoded bin (List.mem_of_getElem? place)

theorem CachedFor.indices {lbPair : Pubkey} {pair : MeteoraDecodedLbPair}
    {binArrays : HashMap Int MeteoraBinArray} (cached : CachedFor lbPair pair binArrays)
    (values : PairValues pair) (index : Int) (key : index ∈ binArrays.keys) :
    -2 ^ 31 ≤ index ∧ index < 2 ^ 31 := by
  rcases values.activeId with ⟨low, high⟩
  rcases candidate_requestable _ _ _ (cached.requested index key) with same | inBitmap
  · omega
  · rw [binArrayBitmapSize] at inBitmap
    omega

end Meteora

end Helios
