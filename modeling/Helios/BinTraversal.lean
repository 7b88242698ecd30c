import Helios.CandidateArrays
import Helios.MeteoraWalk
import Helios.TxBuilder

/-! Where the quote of a DLMM pair goes: which bins it asks, over which gaps it jumps, and what
is left of the amount when it stops. -/

namespace Helios.Meteora

open Machine Decoded

/-- Decoded arrays have all their bins. -/
def FullArrays (binArrays : HashMap Int MeteoraBinArray) : Prop :=
  ∀ index binArray, HashMap.get binArrays index = some binArray → binArray.bins.length = 70

structure Traversal where
  /-- The bins that were asked for a quote. -/
  ids : List Int
  /-- The arrays that were jumped to over a gap. -/
  jumps : List Int
  left : Nat
  total : Nat

namespace Traversal

/-- The guard of the loop when it stops. -/
def turns (walk : Traversal) : Nat := walk.ids.length + walk.jumps.length

def asked (binId : Int) (walk : Traversal) : Traversal := { walk with ids := binId :: walk.ids }

def jumped (index : Int) (walk : Traversal) : Traversal :=
  { walk with jumps := index :: walk.jumps }

theorem turns_asked (binId : Int) (walk : Traversal) :
    (walk.asked binId).turns = walk.turns + 1 := Nat.add_right_comm _ 1 _

theorem turns_jumped (index : Int) (walk : Traversal) :
    (walk.jumped index).turns = walk.turns + 1 := rfl

end Traversal

section Traverse

variable (swapForY : Bool) (binStep : Nat) (parameters : MeteoraStaticParameters)
  (vParameters : MeteoraVariableParameters) (binArrays : HashMap Int MeteoraBinArray)

/-- The loop of `quote_exact_in`, with the places it comes by. -/
def traverse : Nat → Nat → Nat → Int → Traversal
  | 0, left, total, _ => ⟨[], [], left, total⟩
  | fuel + 1, left, total, binId =>
      if left = 0 then ⟨[], [], left, total⟩
      else
        match getBin binArrays binId with
        | none =>
            match nextArray swapForY binArrays binId with
            | none => ⟨[], [], left, total⟩
            | some index => (traverse fuel left total (firstBin swapForY index)).jumped index
        | some bin =>
            let quote := swapExactInQuoteAtBin bin binStep parameters vParameters left swapForY
            if quote.amountInConsumed = 0 ∨ quote.amountOut = 0 then
              (traverse fuel left total (nextBin swapForY binId)).asked binId
            else
              (traverse fuel (left - quote.amountInConsumed)
                (saturatingAdd128 total quote.amountOut) (nextBin swapForY binId)).asked binId

variable (fuel left total : Nat) (binId : Int)

/-- The places do not change the quote. -/
theorem quoteLoop_eq_traverse :
    quoteLoop swapForY binStep parameters vParameters binArrays fuel left total binId =
      (traverse swapForY binStep parameters vParameters binArrays fuel left total binId).total := by
  induction fuel generalizing left total binId with
  | zero => rfl
  | succ fuel ih =>
      rw [traverse]
      by_cases done : left = 0
      · rw [if_pos done, done, quoteLoop_done]
      rw [if_neg done]
      cases found : getBin binArrays binId with
      | some bin =>
          rw [quoteLoop_bin _ _ _ _ _ _ _ _ _ done bin found]
          dsimp only
          split
          · exact ih left total _
          · exact ih _ _ _
      | none =>
          dsimp only
          cases next : nextArray swapForY binArrays binId with
          | none => exact quoteLoop_end _ _ _ _ _ _ _ _ _ found next
          | some index =>
              rw [quoteLoop_gap _ _ _ _ _ _ _ _ _ done index found next]
              exact ih left total _

/-- What one turn can do. -/
theorem traverse_cases :
    (traverse swapForY binStep parameters vParameters binArrays (fuel + 1) left total binId =
        ⟨[], [], left, total⟩ ∧
      (left = 0 ∨ getBin binArrays binId = none ∧ nextArray swapForY binArrays binId = none)) ∨
    (∃ index, getBin binArrays binId = none ∧
      nextArray swapForY binArrays binId = some index ∧
      traverse swapForY binStep parameters vParameters binArrays (fuel + 1) left total binId =
        (traverse swapForY binStep parameters vParameters binArrays fuel left total
          (firstBin swapForY index)).jumped index) ∨
    ∃ bin left' total', getBin binArrays binId = some bin ∧
      traverse swapForY binStep parameters vParameters binArrays (fuel + 1) left total binId =
        (traverse swapForY binStep parameters vParameters binArrays fuel left' total'
          (nextBin swapForY binId)).asked binId := by
  rw [traverse]
  by_cases done : left = 0
  · rw [if_pos done]
    exact Or.inl ⟨rfl, Or.inl done⟩
  rw [if_neg done]
  cases found : getBin binArrays binId with
  | some bin =>
      right
      right
      dsimp only
      split
      · exact ⟨bin, left, total, rfl, rfl⟩
      · exact ⟨bin, _, _, rfl, rfl⟩
  | none =>
      dsimp only
      cases nextArray swapForY binArrays binId with
      | none => exact Or.inl ⟨rfl, Or.inr ⟨rfl, rfl⟩⟩
      | some index => exact Or.inr (Or.inl ⟨index, rfl, rfl, rfl⟩)

/-- As long as the amount lasts, the bins asked are the bins met. -/
theorem traverse_ids :
    (traverse swapForY binStep parameters vParameters binArrays fuel left total binId).ids <+:
      visitedIds swapForY binArrays fuel binId := by
  induction fuel generalizing left total binId with
  | zero => exact List.prefix_rfl
  | succ fuel ih =>
      rw [visitedIds]
      rcases traverse_cases swapForY binStep parameters vParameters binArrays fuel left total binId
        with ⟨ended, -⟩ | ⟨index, gap, next, jumped⟩ | ⟨bin, left', total', found, asked⟩
      · rw [ended]
        exact List.nil_prefix
      · rw [jumped, gap]
        dsimp only
        rw [next]
        exact ih left total _
      · rw [asked, found]
        exact (List.prefix_cons_inj binId).mpr (ih left' total' _)

omit binId in
/-- The arrays come in the order of their bins. -/
theorem AtOrAhead.array {swapForY : Bool} {first second : Int}
    (ahead : AtOrAhead swapForY first second) : AtOrAhead swapForY (first / 70) (second / 70) := by
  cases swapForY with
  | true =>
      have order : second = first ∨ second < first := ahead
      change second / 70 = first / 70 ∨ second / 70 < first / 70
      omega
  | false =>
      have order : second = first ∨ first < second := ahead
      change second / 70 = first / 70 ∨ first / 70 < second / 70
      omega

omit binId in
theorem array_firstBin (index : Int) : firstBin swapForY index / 70 = index := by
  cases swapForY with
  | true =>
      change (index * 70 + 70 - 1) / 70 = index
      omega
  | false =>
      change index * 70 / 70 = index
      omega

/-- A jump goes to the next cached array. -/
theorem nextArray_ahead (index : Int) (next : nextArray swapForY binArrays binId = some index) :
    index ∈ binArrays.keys ∧ Ahead swapForY (binId / 70) index ∧
      ∀ other ∈ binArrays.keys, Ahead swapForY (binId / 70) other →
        AtOrAhead swapForY index other := by
  refine ⟨nextArray_mem swapForY binArrays binId index next, ?_⟩
  rw [nextArray, nextCachedBinArrayIndex, binIdToBinArrayIndex_eq] at next
  cases swapForY with
  | true =>
      rw [if_pos (by decide)] at next
      rcases List.max?_eq_some_iff.mp next with ⟨member, greatest⟩
      have here := of_decide_eq_true (List.mem_filter.mp member).2
      refine ⟨here, ?_⟩
      intro other cached below
      have least := greatest other (List.mem_filter.mpr ⟨cached, decide_eq_true below⟩)
      exact (lt_or_eq_of_le least).elim Or.inr Or.inl
  | false =>
      rw [if_neg (by decide)] at next
      rcases List.min?_eq_some_iff.mp next with ⟨member, least⟩
      have here := of_decide_eq_true (List.mem_filter.mp member).2
      refine ⟨here, ?_⟩
      intro other cached above
      have greatest := least other (List.mem_filter.mpr ⟨cached, decide_eq_true above⟩)
      exact (lt_or_eq_of_le greatest).elim Or.inr (fun same => Or.inl same.symm)

theorem nextArray_none (last : nextArray swapForY binArrays binId = none) :
    ∀ other ∈ binArrays.keys, ¬ Ahead swapForY (binId / 70) other := by
  intro other cached ahead
  rw [nextArray, nextCachedBinArrayIndex, binIdToBinArrayIndex_eq] at last
  cases swapForY with
  | true =>
      rw [if_pos (by decide), List.max?_eq_none_iff, List.filter_eq_nil_iff] at last
      exact last other cached (decide_eq_true ahead)
  | false =>
      rw [if_neg (by decide), List.min?_eq_none_iff, List.filter_eq_nil_iff] at last
      exact last other cached (decide_eq_true ahead)

/-- The jumps go to cached arrays, each further on. -/
theorem traverse_jumps :
    let jumps := (traverse swapForY binStep parameters vParameters binArrays fuel left total
      binId).jumps
    (∀ index ∈ jumps, index ∈ binArrays.keys ∧ Ahead swapForY (binId / 70) index) ∧
      jumps.Pairwise (Ahead swapForY) := by
  induction fuel generalizing left total binId with
  | zero => exact ⟨(fun _ member => nomatch member), List.Pairwise.nil⟩
  | succ fuel ih =>
      rcases traverse_cases swapForY binStep parameters vParameters binArrays fuel left total binId
        with ⟨ended, -⟩ | ⟨index, -, next, jumped⟩ | ⟨bin, left', total', -, asked⟩
      · rw [ended]
        exact ⟨(fun _ member => nomatch member), List.Pairwise.nil⟩
      · rw [jumped]
        rcases ih left total (firstBin swapForY index) with ⟨later, ordered⟩
        rcases nextArray_ahead swapForY binArrays binId index next with ⟨cached, ahead, -⟩
        rw [array_firstBin] at later
        constructor
        · intro other member
          rcases List.mem_cons.mp member with rfl | inRest
          · exact ⟨cached, ahead⟩
          · exact ⟨(later other inRest).1, ahead.trans (later other inRest).2⟩
        · exact List.Pairwise.cons (fun other member => (later other member).2) ordered
      · rw [asked]
        rcases ih left' total' (nextBin swapForY binId) with ⟨later, ordered⟩
        refine ⟨?_, ordered⟩
        intro other member
        refine ⟨(later other member).1, ?_⟩
        rcases AtOrAhead.array (Or.inr (ahead_nextBin swapForY binId)) with same | further
        · rw [← same]
          exact (later other member).2
        · exact further.trans (later other member).2

theorem array_cached (place : Int) (cached : (getBin binArrays place).isSome = true) :
    place / 70 ∈ binArrays.keys := by
  rw [getBin_eq] at cached
  rcases Option.isSome_iff_exists.mp cached with ⟨bin, here⟩
  rcases Option.bind_eq_some_iff.mp here with ⟨binArray, held, -⟩
  exact AList.lookup_isSome.mp (Option.isSome_iff_exists.mpr ⟨binArray, held⟩)

theorem visitedIds_cached (place : Int)
    (met : place ∈ visitedIds swapForY binArrays fuel binId) :
    (getBin binArrays place).isSome = true := by
  rcases List.getElem_of_mem met with ⟨turn, inside, rfl⟩
  have pair := (visited_pairs swapForY binArrays fuel binId).get inside
    ((visited_pairs swapForY binArrays fuel binId).length_eq ▸ inside)
  exact Option.isSome_iff_exists.mpr ⟨_, pair⟩

theorem traverse_turns_le :
    (traverse swapForY binStep parameters vParameters binArrays fuel left total binId).turns ≤
      fuel := by
  induction fuel generalizing left total binId with
  | zero => exact le_rfl
  | succ fuel ih =>
      rcases traverse_cases swapForY binStep parameters vParameters binArrays fuel left total binId
        with ⟨ended, -⟩ | ⟨index, -, -, jumped⟩ | ⟨bin, left', total', -, asked⟩
      · rw [ended]
        exact Nat.zero_le _
      · rw [jumped, Traversal.turns_jumped]
        exact Nat.succ_le_succ (ih _ _ _)
      · rw [asked, Traversal.turns_asked]
        exact Nat.succ_le_succ (ih _ _ _)

/-- However long the guard allows it, a traversal takes at most 71 turns for each cached array:
one for each of its bins and one to come to it. -/
theorem traverse_ends :
    (traverse swapForY binStep parameters vParameters binArrays fuel left total binId).turns ≤
      71 * binArrays.keys.length := by
  have asked : (traverse swapForY binStep parameters vParameters binArrays fuel left total
      binId).ids.length ≤ binArrays.keys.length * 70 := by
    have met := traverse_ids swapForY binStep parameters vParameters binArrays fuel left total binId
    have once := met.sublist.nodup (visitedIds_nodup swapForY binArrays fuel binId)
    rw [← List.toFinset_card_of_nodup once,
      ← List.toFinset_card_of_nodup (AList.keys_nodup binArrays)]
    refine le_trans (Finset.card_le_card ?_) (Finset.card_biUnion_le_card_mul
      binArrays.keys.toFinset (fun index => Finset.Ico (index * 70) (index * 70 + 70)) 70 ?_)
    · intro place member
      have cached := visitedIds_cached swapForY binArrays fuel binId place
        (met.subset (List.mem_toFinset.mp member))
      refine Finset.mem_biUnion.mpr ⟨place / 70,
        List.mem_toFinset.mpr (array_cached binArrays place cached), ?_⟩
      rw [Finset.mem_Ico]
      omega
    · intro index _
      rw [Int.card_Ico]
      omega
  have jumped : (traverse swapForY binStep parameters vParameters binArrays fuel left total
      binId).jumps.length ≤ binArrays.keys.length := by
    rcases traverse_jumps swapForY binStep parameters vParameters binArrays fuel left total binId
      with ⟨cached, ordered⟩
    exact (List.subperm_of_subset (ordered.imp Ahead.ne)
      (fun index member => (cached index member).1)).length_le
  rw [Traversal.turns]
  omega

/-- A bin is cached if its array is. -/
theorem getBin_isSome_iff (full : FullArrays binArrays) (place : Int) :
    (getBin binArrays place).isSome = true ↔ place / 70 ∈ binArrays.keys := by
  constructor
  · exact array_cached binArrays place
  · intro cached
    rw [getBin_eq]
    rcases Option.isSome_iff_exists.mp (AList.lookup_isSome.mpr cached) with ⟨binArray, found⟩
    have long := full (place / 70) binArray found
    have inside : (place % 70).toNat < binArray.bins.length := by omega
    rw [HashMap.get, found, Option.bind_some, List.getElem?_eq_getElem inside]
    rfl

/-- A traversal that stops before its guard, with some of the amount left, has asked all bins
from its start on. -/
theorem traverse_complete (full : FullArrays binArrays)
    (stopped : (traverse swapForY binStep parameters vParameters binArrays fuel left total
      binId).turns < fuel)
    (more : (traverse swapForY binStep parameters vParameters binArrays fuel left total
      binId).left ≠ 0) (place : Int) (ahead : AtOrAhead swapForY binId place)
    (cached : (getBin binArrays place).isSome = true) :
    place ∈ (traverse swapForY binStep parameters vParameters binArrays fuel left total
      binId).ids := by
  induction fuel generalizing left total binId with
  | zero => exact absurd stopped (Nat.not_lt_zero _)
  | succ fuel ih =>
      have array := (getBin_isSome_iff binArrays full place).mp cached
      -- over a gap, the place is in an array further on
      have beyond : getBin binArrays binId = none → Ahead swapForY (binId / 70) (place / 70) := by
        intro gap
        have absent : binId / 70 ∉ binArrays.keys := by
          rw [← getBin_isSome_iff binArrays full, gap]
          exact Bool.false_ne_true
        exact (AtOrAhead.array ahead).resolve_left (fun same => absent (same ▸ array))
      rcases traverse_cases swapForY binStep parameters vParameters binArrays fuel left total binId
        with ⟨ended, used | ⟨gap, last⟩⟩ | ⟨index, gap, next, jumped⟩ |
          ⟨bin, left', total', found, asked⟩
      · rw [ended] at more
        exact absurd used more
      · exact absurd (beyond gap) (nextArray_none swapForY binArrays binId last _ array)
      · rw [jumped] at stopped more ⊢
        rw [Traversal.turns_jumped] at stopped
        apply ih left total (firstBin swapForY index) (by omega) more
        have nearest := (nextArray_ahead swapForY binArrays binId index next).2.2 _ array
          (beyond gap)
        cases swapForY with
        | true =>
            have order : place / 70 = index ∨ place / 70 < index := nearest
            change place = index * 70 + 70 - 1 ∨ place < index * 70 + 70 - 1
            omega
        | false =>
            have order : place / 70 = index ∨ index < place / 70 := nearest
            change place = index * 70 ∨ index * 70 < place
            omega
      · rw [asked] at stopped more ⊢
        rw [Traversal.turns_asked] at stopped
        rcases ahead with rfl | further
        · exact List.mem_cons_self
        · apply List.mem_cons_of_mem
          apply ih left' total' (nextBin swapForY binId) (by omega) more
          cases swapForY with
          | true =>
              change place < binId at further
              change place = binId + -1 ∨ place < binId + -1
              omega
          | false =>
              change binId < place at further
              change place = binId + 1 ∨ binId + 1 < place
              omega

omit binStep parameters vParameters fuel left total binId swapForY in
/-- What is cached for a pair stays clear of the guard. -/
theorem CachedFor.full {lbPair : Pubkey} {pair : MeteoraDecodedLbPair}
    (cached : CachedFor lbPair pair binArrays) :
    FullArrays binArrays ∧ binArrays.keys.length ≤ 13 := by
  constructor
  · intro index binArray held
    rcases cached.decoded index binArray held with ⟨data, decoded⟩
    exact gives_decodeBinArray_length data lbPair binArray decoded
  · have asked : binArrays.keys ⊆ candidateBinArrayIndices pair.activeId pair.binArrayBitmap :=
      cached.requested
    exact ((List.subperm_of_subset (AList.keys_nodup binArrays) asked).length_le).trans
      (length_candidateBinArrayIndices _ _)

omit fuel left total binId in
/-- Where a bin is, and which bins a quote comes by: cached ones, from the active bin on and each
further on than the last. Unless the guard or the end of the amount stops it, these are all of
them, and the guard does not stop it on up to 57 arrays. -/
theorem quote_visits_cached_bins (activeId : Int) (amountIn : Nat) :
    let walk := traverse swapForY binStep parameters vParameters binArrays 4096 amountIn 0 activeId
    (∀ binId, binIdToBinArrayIndex binId = Int.fdiv binId 70 ∧
      meteoraBinIdToArrayIndex binId = binIdToBinArrayIndex binId ∧
      getBin binArrays binId = (HashMap.get binArrays (binIdToBinArrayIndex binId)).bind
        (fun binArray => binArray.bins[(Int.fmod binId 70).toNat]?)) ∧
    quoteExactIn amountIn swapForY activeId binStep parameters vParameters binArrays =
      (if amountIn = 0 ∨ binArrays.entries = [] then 0 else min walk.total u64Max) ∧
    (∀ place ∈ walk.ids, AtOrAhead swapForY activeId place ∧
      (getBin binArrays place).isSome = true) ∧
    walk.ids.Pairwise (Ahead swapForY) ∧
    walk.turns ≤ 4096 ∧
    (∀ fuel, (traverse swapForY binStep parameters vParameters binArrays fuel amountIn 0
      activeId).turns ≤ 71 * binArrays.keys.length) ∧
    (FullArrays binArrays → walk.turns < 4096 → walk.left ≠ 0 →
      ∀ place, AtOrAhead swapForY activeId place → (getBin binArrays place).isSome = true →
        place ∈ walk.ids) ∧
    (binArrays.keys.length ≤ 57 → walk.turns < 4096) ∧
    ∀ lbPair pair, CachedFor lbPair pair binArrays →
      FullArrays binArrays ∧ binArrays.keys.length ≤ 13 := by
  intro walk
  have ids := traverse_ids swapForY binStep parameters vParameters binArrays 4096 amountIn 0
    activeId
  have ends := traverse_ends swapForY binStep parameters vParameters binArrays
  rcases visitedIds_ahead swapForY binArrays 4096 activeId with ⟨ahead, ordered⟩
  refine ⟨?_, ?_, ?_, ordered.sublist ids.sublist, traverse_turns_le _ _ _ _ _ _ _ _ _,
    fun fuel => ends fuel amountIn 0 activeId, ?_, ?_, ?_⟩
  · intro binId
    rw [Int.fdiv_eq_ediv_of_nonneg _ (by norm_num), Int.fmod_eq_emod_of_nonneg _ (by norm_num),
      binIdToBinArrayIndex_eq]
    exact ⟨rfl, binIdToBinArrayIndex_eq binId, getBin_eq binArrays binId⟩
  · rw [quoteExactIn, quoteLoop_eq_traverse]
  · intro place member
    exact ⟨ahead place (ids.subset member),
      visitedIds_cached swapForY binArrays 4096 activeId place (ids.subset member)⟩
  · intro full stopped more place further cached
    exact traverse_complete swapForY binStep parameters vParameters binArrays 4096 amountIn 0
      activeId full stopped more place further cached
  · intro few
    have bounded := ends 4096 amountIn 0 activeId
    change (traverse _ _ _ _ _ _ _ _ _).turns < 4096
    omega
  · intro lbPair pair cached
    exact cached.full binArrays

end Traverse

/-! A row of arrays that is longer than the guard. -/

/-- One unit for sale in the last bin of the row. -/
def rowBin (place : Nat) : MeteoraBin := ⟨if place = 4129 then 1 else 0, 0, 2 ^ 64⟩

def rowArray (index : Nat) : MeteoraBinArray :=
  ⟨index, (List.range 70).map (fun offset => rowBin (index * 70 + offset))⟩

def longRow : HashMap Int MeteoraBinArray :=
  ⟨(List.range 59).map (fun index : Nat => ⟨(index : Int), rowArray index⟩), by
    rw [List.NodupKeys, List.keys, List.map_map]
    exact List.nodup_range.map Nat.cast_injective⟩

theorem longRow_bin (place : Nat) (inside : place < 4130) :
    getBin longRow place = some (rowBin place) := by
  have held : HashMap.get longRow ((place / 70 : Nat) : Int) = some (rowArray (place / 70)) := by
    apply (List.mem_dlookup_iff longRow.nodupKeys).mpr
    exact List.mem_map.mpr ⟨place / 70, List.mem_range.mpr (by omega), rfl⟩
  rw [getBin_eq, show (place : Int) / 70 = ((place / 70 : Nat) : Int) by omega, held,
    Option.bind_some, show ((place : Int) % 70).toNat = place % 70 by omega, rowArray,
    List.getElem?_map, List.getElem?_range (Nat.mod_lt place (by norm_num)), Option.map_some,
    Nat.div_add_mod']

/-- On the empty bins of the row nothing is bought. -/
theorem traverse_longRow (fuel place : Nat) (inside : place + fuel ≤ 4129) :
    traverse false 0 ⟨0, 0, 0⟩ ⟨0⟩ longRow fuel 1 0 place =
      ⟨(List.range' place fuel).map Nat.cast, [], 1, 0⟩ := by
  induction fuel generalizing place with
  | zero => rfl
  | succ fuel ih =>
      have empty : rowBin place = ⟨0, 0, 2 ^ 64⟩ := by
        rw [rowBin, if_neg (by omega)]
      have nothing : swapExactInQuoteAtBin ⟨0, 0, 2 ^ 64⟩ 0 ⟨0, 0, 0⟩ ⟨0⟩ 1 false = ⟨0, 0⟩ := rfl
      have next : nextBin false place = ((place + 1 : Nat) : Int) := rfl
      rw [traverse, if_neg Nat.one_ne_zero, longRow_bin place (by omega), empty]
      dsimp only
      rw [nothing, if_pos (Or.inl rfl), next, ih (place + 1) (by omega), List.range'_succ]
      rfl

/-- The guard stops the quote before the one bin with something to sell. -/
theorem guard_stops_quote :
    FullArrays longRow ∧ AtOrAhead false 0 4129 ∧ getBin longRow 4129 = some (rowBin 4129) ∧
    swapExactInQuoteAtBin (rowBin 4129) 0 ⟨0, 0, 0⟩ ⟨0⟩ 1 false = ⟨1, 1⟩ ∧
    (traverse false 0 ⟨0, 0, 0⟩ ⟨0⟩ longRow 4096 1 0 0).left = 1 ∧
    4129 ∉ (traverse false 0 ⟨0, 0, 0⟩ ⟨0⟩ longRow 4096 1 0 0).ids ∧
    quoteExactIn 1 false 0 0 ⟨0, 0, 0⟩ ⟨0⟩ longRow = 0 := by
  have walked : traverse false 0 ⟨0, 0, 0⟩ ⟨0⟩ longRow 4096 1 0 0 = _ :=
    traverse_longRow 4096 0 (by norm_num)
  have unseen : (4129 : Int) ∉ (List.range' 0 4096).map Nat.cast := by
    intro member
    rcases List.mem_map.mp member with ⟨place, inRow, same⟩
    have small := (List.mem_range'_1.mp inRow).2
    omega
  have ahead : (0 : Int) < 4129 := by norm_num
  refine ⟨?_, Or.inr ahead, longRow_bin 4129 (by norm_num), by decide, ?_, ?_, ?_⟩
  · intro index binArray held
    have member := (List.mem_dlookup_iff longRow.nodupKeys).mp held
    rcases List.mem_map.mp member with ⟨place, -, same⟩
    cases same
    rw [rowArray, List.length_map, List.length_range]
  · rw [walked]
  · rw [walked]
    exact unseen
  · have filled : longRow.entries ≠ [] := List.cons_ne_nil _ _
    rw [quoteExactIn, if_neg (not_or.mpr ⟨Nat.one_ne_zero, filled⟩), quoteLoop_eq_traverse, walked]
    rfl

end Helios.Meteora
