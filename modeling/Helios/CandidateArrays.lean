import Helios.DecodedValues
import Mathlib.Data.Nat.Count
import Mathlib.Order.Interval.Finset.Nat

/-! Which bin arrays are asked for: the active one, and on each side of it the nearest ones that
the bitmap has, up to a limit. The search goes out on both sides at once. -/

namespace Helios.Meteora

/-! The nearest members on one side, by distance. -/

section Side

-- members are told by their distance less one
variable (member : Nat → Prop) [DecidablePred member] (limit : Nat)

/-- One of the nearest `limit` members. -/
def Among (place : Nat) : Prop := member place ∧ Nat.count member place < limit

theorem among_step (seen : Nat) :
    (min limit (Nat.count member seen) < limit ∧ member seen) ↔ Among member limit seen := by
  rw [Among]
  constructor
  · intro ⟨room, taken⟩
    exact ⟨taken, by omega⟩
  · intro ⟨taken, room⟩
    exact ⟨by omega, taken⟩

theorem count_step (seen : Nat) :
    min limit (Nat.count member (seen + 1)) =
      if min limit (Nat.count member seen) < limit ∧ member seen then
        min limit (Nat.count member seen) + 1
      else min limit (Nat.count member seen) := by
  rw [Nat.count_succ]
  by_cases taken : member seen
  · simp only [taken, and_true, if_true]
    split
    · omega
    · omega
  · simp only [taken, and_false, if_false, Nat.add_zero]

/-- A full side has its nearest members within the distance looked at. -/
theorem among_lt_of_full (seen place : Nat) (full : limit ≤ Nat.count member seen)
    (near : Among member limit place) : place < seen := by
  by_contra beyond
  have more := Nat.count_monotone member (not_lt.mp beyond)
  have few := near.2
  omega

end Side

/-! The search. -/

section Search

variable (bitmap : List Nat) (activeIndex : Int)

def hasBelow (place : Nat) : Prop := bitmapHasIndex bitmap (activeIndex - (place + 1)) = true

def hasAbove (place : Nat) : Prop := bitmapHasIndex bitmap (activeIndex + (place + 1)) = true

instance : DecidablePred (hasBelow bitmap activeIndex) :=
  fun _ => inferInstanceAs (Decidable (_ = true))

instance : DecidablePred (hasAbove bitmap activeIndex) :=
  fun _ => inferInstanceAs (Decidable (_ = true))

/-- The active index, and what is to be taken below and above it within a distance. -/
def Wanted (seen : Nat) (index : Int) : Prop :=
  index = activeIndex ∨
    (∃ place < seen, Among (hasBelow bitmap activeIndex) maxCachedBinArraysPerSide place ∧
      index = activeIndex - (place + 1)) ∨
    ∃ place < seen, Among (hasAbove bitmap activeIndex) maxCachedBinArraysPerSide place ∧
      index = activeIndex + (place + 1)

/-- The state of the search when it has looked so far on both sides. -/
structure Looked (seen negativeCount positiveCount : Nat) (out : List Int) : Prop where
  negative : negativeCount =
    min maxCachedBinArraysPerSide (Nat.count (hasBelow bitmap activeIndex) seen)
  positive : positiveCount =
    min maxCachedBinArraysPerSide (Nat.count (hasAbove bitmap activeIndex) seen)
  found : ∀ index, index ∈ out ↔ Wanted bitmap activeIndex seen index

theorem looked_start : Looked bitmap activeIndex 0 0 0 [activeIndex] where
  negative := by
    rw [Nat.count_zero]
    rfl
  positive := by
    rw [Nat.count_zero]
    rfl
  found := by
    intro index
    rw [List.mem_singleton, Wanted]
    constructor
    · exact Or.inl
    · rintro (same | ⟨place, less, -⟩ | ⟨place, less, -⟩)
      · exact same
      · exact absurd less (Nat.not_lt_zero place)
      · exact absurd less (Nat.not_lt_zero place)

theorem exists_lt_succ_iff (seen : Nat) (holds : Nat → Prop) :
    (∃ place < seen + 1, holds place) ↔ (∃ place < seen, holds place) ∨ holds seen := by
  constructor
  · rintro ⟨place, less, here⟩
    rcases Nat.lt_succ_iff_lt_or_eq.mp less with before | rfl
    · exact Or.inl ⟨place, before, here⟩
    · exact Or.inr here
  · rintro (⟨place, less, here⟩ | here)
    · exact ⟨place, by omega, here⟩
    · exact ⟨seen, Nat.lt_succ_self seen, here⟩

/-- What a turn adds on both sides. -/
theorem wanted_succ (seen : Nat) (index : Int) :
    Wanted bitmap activeIndex (seen + 1) index ↔
      Wanted bitmap activeIndex seen index ∨
        (Among (hasBelow bitmap activeIndex) maxCachedBinArraysPerSide seen ∧
          index = activeIndex - (seen + 1)) ∨
        (Among (hasAbove bitmap activeIndex) maxCachedBinArraysPerSide seen ∧
          index = activeIndex + (seen + 1)) := by
  rw [Wanted, Wanted, exists_lt_succ_iff, exists_lt_succ_iff, or_or_or_comm, ← or_assoc]

theorem mem_taken (takes : Bool) (out : List Int) (added index : Int) :
    index ∈ (if takes then out ++ [added] else out) ↔
      index ∈ out ∨ takes = true ∧ index = added := by
  cases takes with
  | true => simp
  | false => simp

/-- A turn of the search that goes on. -/
theorem looked_turn (seen negativeCount positiveCount : Nat) (out : List Int)
    (looked : Looked bitmap activeIndex seen negativeCount positiveCount out)
    (takesNegative takesPositive : Bool)
    (negativeTaken : takesNegative = (decide (negativeCount < maxCachedBinArraysPerSide) &&
      bitmapHasIndex bitmap (activeIndex - (seen + 1))))
    (positiveTaken : takesPositive = (decide (positiveCount < maxCachedBinArraysPerSide) &&
      bitmapHasIndex bitmap (activeIndex + (seen + 1)))) :
    Looked bitmap activeIndex (seen + 1)
      (if takesNegative then negativeCount + 1 else negativeCount)
      (if takesPositive then positiveCount + 1 else positiveCount)
      (if takesPositive then
        (if takesNegative then out ++ [activeIndex - (seen + 1)] else out) ++
          [activeIndex + (seen + 1)]
      else if takesNegative then out ++ [activeIndex - (seen + 1)] else out) := by
  have below : takesNegative = true ↔ min maxCachedBinArraysPerSide
      (Nat.count (hasBelow bitmap activeIndex) seen) < maxCachedBinArraysPerSide ∧
        hasBelow bitmap activeIndex seen := by
    rw [negativeTaken, Bool.and_eq_true, decide_eq_true_eq, looked.negative]
    rfl
  have above : takesPositive = true ↔ min maxCachedBinArraysPerSide
      (Nat.count (hasAbove bitmap activeIndex) seen) < maxCachedBinArraysPerSide ∧
        hasAbove bitmap activeIndex seen := by
    rw [positiveTaken, Bool.and_eq_true, decide_eq_true_eq, looked.positive]
    rfl
  constructor
  · rw [count_step, looked.negative]
    exact if_congr below rfl rfl
  · rw [count_step, looked.positive]
    exact if_congr above rfl rfl
  · intro index
    rw [mem_taken, mem_taken, looked.found, wanted_succ, below, above, among_step, among_step,
      or_assoc]

theorem bounds_of_bitmapHasIndex (index : Int) (has : bitmapHasIndex bitmap index = true) :
    -binArrayBitmapSize ≤ index ∧ index < binArrayBitmapSize := by
  rw [bitmapHasIndex] at has
  split at has
  · next inside => exact inside
  · cases has

theorem bitmapHasIndex_outside (index : Int)
    (outside : index < -binArrayBitmapSize ∨ binArrayBitmapSize ≤ index) :
    bitmapHasIndex bitmap index = false := by
  rw [bitmapHasIndex, if_neg]
  omega

/-- What is to be taken, at any distance. -/
def WantedIn (index : Int) : Prop :=
  index = activeIndex ∨
    (∃ place, Among (hasBelow bitmap activeIndex) maxCachedBinArraysPerSide place ∧
      index = activeIndex - (place + 1)) ∨
    ∃ place, Among (hasAbove bitmap activeIndex) maxCachedBinArraysPerSide place ∧
      index = activeIndex + (place + 1)

/-- A search that has seen all it wants has found it. -/
theorem mem_of_complete (seen negativeCount positiveCount : Nat) (out : List Int)
    (looked : Looked bitmap activeIndex seen negativeCount positiveCount out)
    (below : ∀ place, Among (hasBelow bitmap activeIndex) maxCachedBinArraysPerSide place →
      place < seen)
    (above : ∀ place, Among (hasAbove bitmap activeIndex) maxCachedBinArraysPerSide place →
      place < seen) (index : Int) :
    index ∈ out ↔ WantedIn bitmap activeIndex index := by
  rw [looked.found, Wanted, WantedIn]
  apply or_congr_right
  apply or_congr
  · constructor
    · rintro ⟨place, -, taken⟩
      exact ⟨place, taken⟩
    · rintro ⟨place, among, same⟩
      exact ⟨place, below place among, among, same⟩
  · constructor
    · rintro ⟨place, -, taken⟩
      exact ⟨place, taken⟩
    · rintro ⟨place, among, same⟩
      exact ⟨place, above place among, among, same⟩

/-- Past both ends of the bitmap nothing is left to be seen. -/
theorem mem_of_outside (seen negativeCount positiveCount : Nat) (out : List Int)
    (looked : Looked bitmap activeIndex seen negativeCount positiveCount out)
    (low : activeIndex - seen < -binArrayBitmapSize)
    (high : binArrayBitmapSize - 1 < activeIndex + seen) (index : Int) :
    index ∈ out ↔ WantedIn bitmap activeIndex index := by
  apply mem_of_complete bitmap activeIndex seen negativeCount positiveCount out looked
  · intro place among
    have inside := (bounds_of_bitmapHasIndex bitmap _ among.1).1
    omega
  · intro place among
    have inside := (bounds_of_bitmapHasIndex bitmap _ among.1).2
    omega

/-- The search finds what is to be taken, whatever it has looked at before. -/
theorem mem_candidateLoop (fuel seen negativeCount positiveCount : Nat) (out : List Int)
    (looked : Looked bitmap activeIndex seen negativeCount positiveCount out)
    (enough : activeIndex.natAbs + 513 ≤ seen + fuel) (index : Int) :
    index ∈ candidateLoop bitmap activeIndex fuel (seen + 1) negativeCount positiveCount out ↔
      WantedIn bitmap activeIndex index := by
  induction fuel generalizing seen negativeCount positiveCount out with
  | zero =>
      rw [candidateLoop]
      apply mem_of_outside bitmap activeIndex seen negativeCount positiveCount out looked
      · rw [binArrayBitmapSize]
        omega
      · rw [binArrayBitmapSize]
        omega
  | succ fuel ih =>
      rw [candidateLoop]
      dsimp only
      split
      · have turned := looked_turn bitmap activeIndex seen negativeCount positiveCount out looked
          _ _ rfl rfl
        split
        · next outside =>
            exact mem_of_outside bitmap activeIndex (seen + 1) _ _ _ turned
              (by push_cast; exact outside.1) (by push_cast; exact outside.2) index
        · have later := ih (seen + 1) _ _ _ turned (by omega)
          push_cast at later
          exact later
      · next full =>
          have limits := looked.negative
          have others := looked.positive
          apply mem_of_complete bitmap activeIndex seen negativeCount positiveCount out looked
          · intro place among
            exact among_lt_of_full _ _ seen place (by omega) among
          · intro place among
            exact among_lt_of_full _ _ seen place (by omega) among

/-- More turns than reach past both ends change nothing: the search is over by then. -/
theorem candidateLoop_enough (fuel extra : Nat) (distance : Int)
    (negativeCount positiveCount : Nat) (out : List Int)
    (enough : activeIndex.natAbs + 513 ≤ distance + fuel) :
    candidateLoop bitmap activeIndex (fuel + extra) distance negativeCount positiveCount out =
      candidateLoop bitmap activeIndex fuel distance negativeCount positiveCount out := by
  induction fuel generalizing distance negativeCount positiveCount out with
  | zero =>
      rw [Nat.zero_add, candidateLoop]
      cases extra with
      | zero => rw [candidateLoop]
      | succ extra =>
          have low : activeIndex - distance < -binArrayBitmapSize := by
            rw [binArrayBitmapSize]
            omega
          have high : binArrayBitmapSize - 1 < activeIndex + distance := by
            rw [binArrayBitmapSize]
            omega
          rw [candidateLoop]
          dsimp only
          rw [bitmapHasIndex_outside bitmap _ (Or.inl low),
            bitmapHasIndex_outside bitmap _ (Or.inr (by omega))]
          simp [low, high]
  | succ fuel ih =>
      rw [show fuel + 1 + extra = fuel + extra + 1 by omega, candidateLoop, candidateLoop]
      dsimp only
      split
      · split
        · rfl
        · exact ih _ _ _ _ (by push_cast at enough ⊢; omega)
      · rfl

/-! The same in terms of the indices. -/

/-- One of the nearest indices below the active one that the bitmap has. -/
def NearestBelow (index : Int) : Prop :=
  index < activeIndex ∧ bitmapHasIndex bitmap index = true ∧
    ((Finset.Ioo index activeIndex).filter (fun other => bitmapHasIndex bitmap other = true)).card <
      maxCachedBinArraysPerSide

def NearestAbove (index : Int) : Prop :=
  activeIndex < index ∧ bitmapHasIndex bitmap index = true ∧
    ((Finset.Ioo activeIndex index).filter (fun other => bitmapHasIndex bitmap other = true)).card <
      maxCachedBinArraysPerSide

omit activeIndex in
/-- The members between, counted by their distance. -/
theorem card_between (indexAt : Nat → Int) (apart : Function.Injective indexAt)
    (between : Finset Int) (place : Nat)
    (covers : ∀ index, index ∈ between ↔ ∃ less < place, indexAt less = index) :
    (between.filter (fun other => bitmapHasIndex bitmap other = true)).card =
      Nat.count (fun less => bitmapHasIndex bitmap (indexAt less) = true) place := by
  have same : between.filter (fun other => bitmapHasIndex bitmap other = true) =
      ((Finset.range place).filter (fun less => bitmapHasIndex bitmap (indexAt less) = true)).image
        indexAt := by
    ext index
    rw [Finset.mem_filter, covers, Finset.mem_image]
    constructor
    · rintro ⟨⟨less, inside, rfl⟩, has⟩
      exact ⟨less, Finset.mem_filter.mpr ⟨Finset.mem_range.mpr inside, has⟩, rfl⟩
    · rintro ⟨less, taken, rfl⟩
      rcases Finset.mem_filter.mp taken with ⟨inside, has⟩
      exact ⟨⟨less, Finset.mem_range.mp inside, rfl⟩, has⟩
  rw [same, Finset.card_image_of_injective _ apart, Nat.count_eq_card_filter_range]

theorem nearestBelow_iff (index : Int) :
    NearestBelow bitmap activeIndex index ↔
      ∃ place, Among (hasBelow bitmap activeIndex) maxCachedBinArraysPerSide place ∧
        index = activeIndex - (place + 1) := by
  have counted : ∀ place : Nat,
      ((Finset.Ioo (activeIndex - ((place : Int) + 1)) activeIndex).filter
        (fun other => bitmapHasIndex bitmap other = true)).card =
        Nat.count (hasBelow bitmap activeIndex) place := by
    intro place
    apply card_between bitmap (fun less : Nat => activeIndex - ((less : Int) + 1))
    · intro first second same
      dsimp only at same
      omega
    · intro index
      rw [Finset.mem_Ioo]
      constructor
      · intro inside
        exact ⟨(activeIndex - index - 1).toNat, by omega, by omega⟩
      · rintro ⟨less, inside, rfl⟩
        omega
  constructor
  · rintro ⟨below, has, few⟩
    have same : index = activeIndex - (((activeIndex - index - 1).toNat : Int) + 1) := by omega
    refine ⟨(activeIndex - index - 1).toNat, ⟨?_, ?_⟩, same⟩
    · rw [hasBelow, ← same]
      exact has
    · rw [← counted, ← same]
      exact few
  · rintro ⟨place, among, rfl⟩
    refine ⟨by omega, among.1, ?_⟩
    rw [counted]
    exact among.2

theorem nearestAbove_iff (index : Int) :
    NearestAbove bitmap activeIndex index ↔
      ∃ place, Among (hasAbove bitmap activeIndex) maxCachedBinArraysPerSide place ∧
        index = activeIndex + (place + 1) := by
  have counted : ∀ place : Nat,
      ((Finset.Ioo activeIndex (activeIndex + ((place : Int) + 1))).filter
        (fun other => bitmapHasIndex bitmap other = true)).card =
        Nat.count (hasAbove bitmap activeIndex) place := by
    intro place
    apply card_between bitmap (fun less : Nat => activeIndex + ((less : Int) + 1))
    · intro first second same
      dsimp only at same
      omega
    · intro index
      rw [Finset.mem_Ioo]
      constructor
      · intro inside
        exact ⟨(index - activeIndex - 1).toNat, by omega, by omega⟩
      · rintro ⟨less, inside, rfl⟩
        omega
  constructor
  · rintro ⟨above, has, few⟩
    have same : index = activeIndex + (((index - activeIndex - 1).toNat : Int) + 1) := by omega
    refine ⟨(index - activeIndex - 1).toNat, ⟨?_, ?_⟩, same⟩
    · rw [hasAbove, ← same]
      exact has
    · rw [← counted, ← same]
      exact few
  · rintro ⟨place, among, rfl⟩
    refine ⟨by omega, among.1, ?_⟩
    rw [counted]
    exact among.2

end Search

/-- Every place found on a side is counted there. -/
theorem candidateLoop_length (bitmap : List Nat) (activeIndex : Int) (fuel : Nat) (distance : Int)
    (negativeCount positiveCount : Nat) (out : List Int) :
    (candidateLoop bitmap activeIndex fuel distance negativeCount positiveCount out).length ≤
      out.length + (maxCachedBinArraysPerSide - negativeCount) +
        (maxCachedBinArraysPerSide - positiveCount) := by
  -- one turn of one side
  have side : ∀ (count : Nat) (found : Bool) (index : Int) (held : List Int),
      let takes := decide (count < maxCachedBinArraysPerSide) && found
      (if takes then held ++ [index] else held).length +
          (maxCachedBinArraysPerSide - if takes then count + 1 else count) =
        held.length + (maxCachedBinArraysPerSide - count) := by
    intro count found index held takes
    cases taken : takes with
    | false => rfl
    | true =>
        have room : count < maxCachedBinArraysPerSide :=
          of_decide_eq_true (Bool.and_eq_true_iff.mp taken).1
        rw [if_pos rfl, if_pos rfl, List.length_append, List.length_singleton]
        omega
  induction fuel generalizing distance negativeCount positiveCount out with
  | zero =>
      rw [candidateLoop]
      omega
  | succ fuel ih =>
      rw [candidateLoop]
      dsimp only
      split
      · have below := side negativeCount (bitmapHasIndex bitmap (activeIndex - distance))
          (activeIndex - distance) out
        have above := side positiveCount (bitmapHasIndex bitmap (activeIndex + distance))
          (activeIndex + distance)
          (if decide (negativeCount < maxCachedBinArraysPerSide) &&
            bitmapHasIndex bitmap (activeIndex - distance) then out ++ [activeIndex - distance]
            else out)
        dsimp only at below above
        split
        · omega
        · refine (ih _ _ _ _).trans ?_
          omega
      · omega

/-- At most six arrays a side are asked for. -/
theorem length_candidateBinArrayIndices (activeId : Int) (bitmap : List Nat) :
    (candidateBinArrayIndices activeId bitmap).length ≤ 13 := by
  rw [candidateBinArrayIndices]
  have searched := candidateLoop_length bitmap (binIdToBinArrayIndex activeId)
    ((binIdToBinArrayIndex activeId).natAbs + 514) 1 0 0 [binIdToBinArrayIndex activeId]
  refine (List.dedup_sublist _).length_le.trans ?_
  rw [List.length_mergeSort]
  exact searched

end Helios.Meteora
