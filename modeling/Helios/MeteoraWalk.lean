import Helios.MeteoraBins

/-! The bins a DLMM quote meets, in order. Which they are does not depend on the amount. -/

namespace Helios.Meteora

/-- The bin after this one, in the direction of the swap. -/
def nextBin (swapForY : Bool) (binId : Int) : Int := binId + if swapForY then -1 else 1

/-- The array the walk goes on in when it has left the last one. -/
def nextArray (swapForY : Bool) (binArrays : HashMap Int MeteoraBinArray) (binId : Int) :
    Option Int :=
  nextCachedBinArrayIndex binArrays (binIdToBinArrayIndex binId) (if swapForY then -1 else 1)

/-- The first bin of an array in the direction of the swap. -/
def firstBin (swapForY : Bool) (binArrayIndex : Int) : Int :=
  if swapForY then binArrayUpperBinId binArrayIndex else binArrayLowerBinId binArrayIndex

/-- The bins met in so many turns. -/
def visited (swapForY : Bool) (binArrays : HashMap Int MeteoraBinArray) :
    Nat → Int → List MeteoraBin
  | 0, _ => []
  | fuel + 1, binId =>
      match getBin binArrays binId with
      | some bin => bin :: visited swapForY binArrays fuel (nextBin swapForY binId)
      | none =>
          match nextArray swapForY binArrays binId with
          | none => []
          | some index => visited swapForY binArrays fuel (firstBin swapForY index)

theorem nextArray_mem (swapForY : Bool) (binArrays : HashMap Int MeteoraBinArray) (binId : Int)
    (index : Int) (found : nextArray swapForY binArrays binId = some index) :
    index ∈ binArrays.keys := by
  rw [nextArray, nextCachedBinArrayIndex] at found
  split at found
  · exact List.mem_of_mem_filter (List.max?_mem found)
  · exact List.mem_of_mem_filter (List.min?_mem found)

/-! The walk never turns back. -/

/-- The other bin lies further on. -/
def Ahead (swapForY : Bool) (binId other : Int) : Prop :=
  if swapForY then other < binId else binId < other

def AtOrAhead (swapForY : Bool) (binId other : Int) : Prop :=
  other = binId ∨ Ahead swapForY binId other

theorem Ahead.trans {swapForY : Bool} {first second third : Int}
    (here : Ahead swapForY first second) (later : Ahead swapForY second third) :
    Ahead swapForY first third := by
  cases swapForY with
  | true => exact lt_trans later here
  | false => exact lt_trans here later

theorem Ahead.ne {swapForY : Bool} {first second : Int} (ahead : Ahead swapForY first second) :
    first ≠ second := by
  rintro rfl
  cases swapForY with
  | true => exact lt_irrefl _ ahead
  | false => exact lt_irrefl _ ahead

theorem AtOrAhead.of_ahead {swapForY : Bool} {first second third : Int}
    (later : AtOrAhead swapForY second third) (here : Ahead swapForY first second) :
    Ahead swapForY first third := by
  rcases later with rfl | later
  · exact here
  · exact here.trans later

theorem ahead_nextBin (swapForY : Bool) (binId : Int) :
    Ahead swapForY binId (nextBin swapForY binId) := by
  cases swapForY with
  | true =>
      change binId + -1 < binId
      omega
  | false =>
      change binId < binId + 1
      omega

theorem ahead_firstBin (swapForY : Bool) (binArrays : HashMap Int MeteoraBinArray) (binId : Int)
    (index : Int) (found : nextArray swapForY binArrays binId = some index) :
    Ahead swapForY binId (firstBin swapForY index) := by
  rw [nextArray, nextCachedBinArrayIndex, binIdToBinArrayIndex_eq] at found
  cases swapForY with
  | true =>
      rw [if_pos (by decide)] at found
      have below := of_decide_eq_true (List.mem_filter.mp (List.max?_mem found)).2
      change binArrayUpperBinId index < binId
      rw [binArrayUpperBinId, binArrayLowerBinId, maxBinArraySize]
      omega
  | false =>
      rw [if_neg (by decide)] at found
      have above := of_decide_eq_true (List.mem_filter.mp (List.min?_mem found)).2
      change binId < binArrayLowerBinId index
      rw [binArrayLowerBinId, maxBinArraySize]
      omega

section Visited

variable (swapForY : Bool) (binArrays : HashMap Int MeteoraBinArray) (fuel : Nat) (binId : Int)

theorem visited_bin (bin : MeteoraBin) (found : getBin binArrays binId = some bin) :
    visited swapForY binArrays (fuel + 1) binId =
      bin :: visited swapForY binArrays fuel (nextBin swapForY binId) := by
  rw [visited, found]

theorem visited_gap (index : Int) (gap : getBin binArrays binId = none)
    (next : nextArray swapForY binArrays binId = some index) :
    visited swapForY binArrays (fuel + 1) binId =
      visited swapForY binArrays fuel (firstBin swapForY index) := by
  rw [visited, gap]
  dsimp only
  rw [next]

theorem visited_end (gap : getBin binArrays binId = none)
    (last : nextArray swapForY binArrays binId = none) :
    visited swapForY binArrays (fuel + 1) binId = [] := by
  rw [visited, gap]
  dsimp only
  rw [last]

theorem mem_visited_ahead (bin : MeteoraBin) (met : bin ∈ visited swapForY binArrays fuel binId) :
    ∃ place, AtOrAhead swapForY binId place ∧ getBin binArrays place = some bin := by
  induction fuel generalizing binId with
  | zero => cases met
  | succ fuel ih =>
      cases found : getBin binArrays binId with
      | some here =>
          rw [visited_bin _ _ _ _ here found] at met
          rcases List.mem_cons.mp met with rfl | later
          · exact ⟨binId, Or.inl rfl, found⟩
          · rcases ih _ later with ⟨place, ahead, known⟩
            exact ⟨place, Or.inr (ahead.of_ahead (ahead_nextBin swapForY binId)), known⟩
      | none =>
          cases next : nextArray swapForY binArrays binId with
          | none =>
              rw [visited_end _ _ _ _ found next] at met
              cases met
          | some index =>
              rw [visited_gap _ _ _ _ index found next] at met
              rcases ih _ met with ⟨place, ahead, known⟩
              have jumped := ahead_firstBin swapForY binArrays binId index next
              exact ⟨place, Or.inr (ahead.of_ahead jumped), known⟩

theorem mem_visited (bin : MeteoraBin) (met : bin ∈ visited swapForY binArrays fuel binId) :
    ∃ place, getBin binArrays place = some bin := by
  rcases mem_visited_ahead swapForY binArrays fuel binId bin met with ⟨place, -, found⟩
  exact ⟨place, found⟩

theorem visited_empty (none_ : binArrays.entries = []) :
    visited swapForY binArrays fuel binId = [] := by
  apply List.eq_nil_iff_forall_not_mem.mpr
  intro bin met
  rcases mem_visited swapForY binArrays fuel binId bin met with ⟨place, found⟩
  rw [getBin_eq, HashMap.get, AList.lookup, none_] at found
  cases found

end Visited

/-- The ids of the bins met. -/
def visitedIds (swapForY : Bool) (binArrays : HashMap Int MeteoraBinArray) :
    Nat → Int → List Int
  | 0, _ => []
  | fuel + 1, binId =>
      match getBin binArrays binId with
      | some _ => binId :: visitedIds swapForY binArrays fuel (nextBin swapForY binId)
      | none =>
          match nextArray swapForY binArrays binId with
          | none => []
          | some index => visitedIds swapForY binArrays fuel (firstBin swapForY index)

section Ids

variable (swapForY : Bool) (binArrays : HashMap Int MeteoraBinArray) (fuel : Nat) (binId : Int)

theorem visited_pairs :
    List.Forall₂ (fun place bin => getBin binArrays place = some bin)
      (visitedIds swapForY binArrays fuel binId) (visited swapForY binArrays fuel binId) := by
  induction fuel generalizing binId with
  | zero => exact List.Forall₂.nil
  | succ fuel ih =>
      rw [visitedIds, visited]
      cases found : getBin binArrays binId with
      | some bin => exact List.Forall₂.cons found (ih _)
      | none =>
          cases nextArray swapForY binArrays binId with
          | none => exact List.Forall₂.nil
          | some index => exact ih _

theorem visitedIds_ahead :
    (∀ place ∈ visitedIds swapForY binArrays fuel binId, AtOrAhead swapForY binId place) ∧
      (visitedIds swapForY binArrays fuel binId).Pairwise (Ahead swapForY) := by
  induction fuel generalizing binId with
  | zero => exact ⟨(fun _ member => nomatch member), List.Pairwise.nil⟩
  | succ fuel ih =>
      rw [visitedIds]
      cases getBin binArrays binId with
      | some bin =>
          rcases ih (nextBin swapForY binId) with ⟨later, ordered⟩
          have ahead : ∀ place ∈ visitedIds swapForY binArrays fuel (nextBin swapForY binId),
              Ahead swapForY binId place := fun place member =>
            (later place member).of_ahead (ahead_nextBin swapForY binId)
          constructor
          · intro place member
            rcases List.mem_cons.mp member with rfl | inRest
            · exact Or.inl rfl
            · exact Or.inr (ahead place inRest)
          · exact List.Pairwise.cons ahead ordered
      | none =>
          cases next : nextArray swapForY binArrays binId with
          | none => exact ⟨(fun _ member => nomatch member), List.Pairwise.nil⟩
          | some index =>
              rcases ih (firstBin swapForY index) with ⟨later, ordered⟩
              have jumped := ahead_firstBin swapForY binArrays binId index next
              exact ⟨fun place member => Or.inr ((later place member).of_ahead jumped), ordered⟩

theorem visitedIds_nodup : (visitedIds swapForY binArrays fuel binId).Nodup :=
  (visitedIds_ahead swapForY binArrays fuel binId).2.imp Ahead.ne

end Ids

/-! One turn of the quote. -/

section Turn

variable (swapForY : Bool) (binStep : Nat) (parameters : MeteoraStaticParameters)
  (vParameters : MeteoraVariableParameters) (binArrays : HashMap Int MeteoraBinArray)
  (fuel remainingIn totalOut : Nat) (binId : Int)

theorem quoteLoop_done :
    quoteLoop swapForY binStep parameters vParameters binArrays fuel 0 totalOut binId =
      totalOut := by
  cases fuel with
  | zero => rfl
  | succ fuel => rw [quoteLoop, if_pos rfl]

theorem quoteLoop_gap (more : remainingIn ≠ 0) (index : Int)
    (gap : getBin binArrays binId = none)
    (next : nextArray swapForY binArrays binId = some index) :
    quoteLoop swapForY binStep parameters vParameters binArrays (fuel + 1) remainingIn totalOut
        binId =
      quoteLoop swapForY binStep parameters vParameters binArrays fuel remainingIn totalOut
        (firstBin swapForY index) := by
  rw [nextArray] at next
  rw [quoteLoop]
  dsimp only
  rw [if_neg more, gap]
  dsimp only
  rw [next]
  cases swapForY with
  | true => rfl
  | false => rfl

theorem quoteLoop_end (gap : getBin binArrays binId = none)
    (last : nextArray swapForY binArrays binId = none) :
    quoteLoop swapForY binStep parameters vParameters binArrays (fuel + 1) remainingIn totalOut
      binId = totalOut := by
  rw [nextArray] at last
  rw [quoteLoop]
  dsimp only
  split
  · rfl
  · rw [gap]
    dsimp only
    rw [last]

theorem quoteLoop_bin (more : remainingIn ≠ 0) (bin : MeteoraBin)
    (found : getBin binArrays binId = some bin) :
    quoteLoop swapForY binStep parameters vParameters binArrays (fuel + 1) remainingIn totalOut
        binId =
      let quote := swapExactInQuoteAtBin bin binStep parameters vParameters remainingIn swapForY
      if quote.amountInConsumed = 0 ∨ quote.amountOut = 0 then
        quoteLoop swapForY binStep parameters vParameters binArrays fuel remainingIn totalOut
          (nextBin swapForY binId)
      else
        quoteLoop swapForY binStep parameters vParameters binArrays fuel
          (remainingIn - quote.amountInConsumed)
          (saturatingAdd128 totalOut quote.amountOut) (nextBin swapForY binId) := by
  rw [quoteLoop]
  dsimp only
  rw [if_neg more, found]
  rfl

end Turn

end Helios.Meteora
