import Helios.MeteoraOffers
import Helios.PriceLevels

/-! What a DLMM quote can pay: never more than the bins met hold, more for more, and nothing
gained by swapping back. -/

namespace Helios.Meteora

open Machine PriceLadder

/-! The state a swap leaves. -/

/-- What each bin took and paid in the traversal of the quote. -/
def quoteFills (swapForY : Bool) (binStep : Nat) (parameters : MeteoraStaticParameters)
    (vParameters : MeteoraVariableParameters) (binArrays : HashMap Int MeteoraBinArray) :
    Nat → Nat → Int → List (Int × BinSwapQuote)
  | 0, _, _ => []
  | fuel + 1, remainingIn, currentBinId =>
      if remainingIn = 0 then []
      else
        match getBin binArrays currentBinId with
        | none =>
            match nextArray swapForY binArrays currentBinId with
            | none => []
            | some index =>
                quoteFills swapForY binStep parameters vParameters binArrays fuel remainingIn
                  (firstBin swapForY index)
        | some bin =>
            let quote := swapExactInQuoteAtBin bin binStep parameters vParameters remainingIn
              swapForY
            if quote.amountInConsumed = 0 ∨ quote.amountOut = 0 then
              quoteFills swapForY binStep parameters vParameters binArrays fuel remainingIn
                (nextBin swapForY currentBinId)
            else
              (currentBinId, quote) ::
                quoteFills swapForY binStep parameters vParameters binArrays fuel
                  (remainingIn - quote.amountInConsumed) (nextBin swapForY currentBinId)

/-- The fills of `quoteExactIn`. -/
def swapFills (amountIn : Nat) (swapForY : Bool) (activeId : Int) (binStep : Nat)
    (parameters : MeteoraStaticParameters) (vParameters : MeteoraVariableParameters)
    (binArrays : HashMap Int MeteoraBinArray) : List (Int × BinSwapQuote) :=
  if amountIn = 0 ∨ binArrays.entries = [] then []
  else quoteFills swapForY binStep parameters vParameters binArrays 4096 amountIn activeId

/-- What the fills of one bin add up to. -/
def filledAt (amount : BinSwapQuote → Nat) (fills : List (Int × BinSwapQuote)) (binId : Int) :
    Nat :=
  ((fills.filter (fun entry => decide (entry.1 = binId))).map
    (fun entry => amount entry.2)).sum

/-- A bin after X was swapped for Y: the Y is gone, and no more X has come in than was paid.
How much of the fee stays in the bin is left open. -/
structure BinAfter (fills : List (Int × BinSwapQuote)) (binId : Int)
    (before after : MeteoraBin) : Prop where
  price : after.price = before.price
  amountY : after.amountY + filledAt BinSwapQuote.amountOut fills binId = before.amountY
  amountX : after.amountX ≤
    before.amountX + filledAt BinSwapQuote.amountInConsumed fills binId

/-- The bin state after X was swapped for Y. -/
structure StateAfter (fills : List (Int × BinSwapQuote))
    (before after : HashMap Int MeteoraBinArray) : Prop where
  bins : ∀ binId,
    Option.Rel (BinAfter fills binId) (getBin before binId) (getBin after binId)
  sound : ∀ binId bin, getBin after binId = some bin → BinFits bin

/-! What is asked of the state before. -/

/-- The prices of the cached bins rise with the bin ids. -/
def PricesRise (binArrays : HashMap Int MeteoraBinArray) : Prop :=
  ∀ lower upper lowerBin upperBin, lower < upper → getBin binArrays lower = some lowerBin →
    getBin binArrays upper = some upperBin → lowerBin.price ≤ upperBin.price

/-- The bins below the active one hold no X. -/
def NoneBelow (activeId : Int) (binArrays : HashMap Int MeteoraBinArray) : Prop :=
  ∀ binId bin, binId < activeId → getBin binArrays binId = some bin → bin.amountX = 0

/-- What the bins met hold of the token on the way out. -/
def outSide (swapForY : Bool) (binArrays : HashMap Int MeteoraBinArray) (activeId : Int) : Nat :=
  ((visited swapForY binArrays 4096 activeId).map
    (fun bin => if swapForY then bin.amountY else bin.amountX)).sum

/-- Whatever part of this bin a payment up to the top buys, its amount fits `u64`. -/
def PartsFit (binStep : Nat) (parameters : MeteoraStaticParameters)
    (vParameters : MeteoraVariableParameters) (swapForY : Bool) (top : Nat)
    (bin : MeteoraBin) : Prop :=
  ∀ paid cost, 0 < paid → paid ≤ top →
    (if swapForY then shlDivU64 bin.amountY bin.price .up
      else mulShrU64 bin.amountX bin.price .up) = some cost →
    paid ≤ saturatingAdd128 cost (computeFee binStep parameters vParameters cost) →
    (getOutAmount bin (paid - computeFeeFromAmount binStep parameters vParameters paid)
      swapForY).isSome

section Quote

variable (binStep : Nat) (parameters : MeteoraStaticParameters)
  (vParameters : MeteoraVariableParameters) (binArrays : HashMap Int MeteoraBinArray)
  (swapForY : Bool) (activeId : Int)

theorem stocks_eq : ((offersMet swapForY binArrays 4096 activeId).map Offer.stock).sum =
    outSide swapForY binArrays activeId := by
  rw [offersMet, outSide, List.map_map]
  congr 1
  apply List.map_congr_left
  intro bin _
  exact (stock_eq swapForY bin).symm

theorem visited_length (fuel : Nat) : (visited swapForY binArrays fuel activeId).length ≤ fuel := by
  induction fuel generalizing activeId with
  | zero => exact Nat.le_refl _
  | succ fuel ih =>
      cases found : getBin binArrays activeId with
      | some bin =>
          rw [visited_bin _ _ _ _ bin found, List.length_cons]
          exact Nat.succ_le_succ (ih _)
      | none =>
          cases next : nextArray swapForY binArrays activeId with
          | none =>
              rw [visited_end _ _ _ _ found next]
              exact Nat.zero_le _
          | some index =>
              rw [visited_gap _ _ _ _ index found next]
              exact (ih _).trans (Nat.le_succ _)

variable (sound : ∀ binId bin, getBin binArrays binId = some bin → BinFits bin)

include sound

/-- 4096 bins of one word each stay within `u128`. -/
theorem outSide_le : outSide swapForY binArrays activeId ≤ u128Max := by
  have each : ∀ amount ∈ (visited swapForY binArrays 4096 activeId).map
      (fun bin => if swapForY then bin.amountY else bin.amountX), amount ≤ 2 ^ 64 := by
    intro amount member
    rcases List.mem_map.mp member with ⟨bin, met, rfl⟩
    rcases mem_visited swapForY binArrays 4096 activeId bin met with ⟨place, found⟩
    have fits := sound place bin found
    split
    · exact fits.amountY.le
    · exact fits.amountX.le
  have size := visited_length binArrays swapForY activeId 4096
  have bound := List.sum_le_card_nsmul _ _ each
  rw [List.length_map, smul_eq_mul] at bound
  rw [outSide]
  calc _ ≤ (visited swapForY binArrays 4096 activeId).length * 2 ^ 64 := bound
    _ ≤ 4096 * 2 ^ 64 := Nat.mul_le_mul_right _ size
    _ ≤ u128Max := by decide

theorem quoteExactIn_total (amountIn : Nat) (small : amountIn < 2 ^ 64) :
    quoteExactIn amountIn swapForY activeId binStep parameters vParameters binArrays =
      min (totalOf binStep parameters vParameters (offersMet swapForY binArrays 4096 activeId)
        amountIn) u64Max := by
  have room := outSide_le binArrays swapForY activeId sound
  rw [quoteExactIn]
  split
  · next idle =>
      rw [Eq.comm, totalOf]
      rcases idle with zero | none_
      · rw [zero, total_zero, Nat.zero_min]
      · rw [offersMet, visited_empty swapForY binArrays 4096 activeId none_]
        exact Nat.zero_min _
  · rw [quoteLoop_total swapForY binStep parameters vParameters binArrays sound 4096 amountIn 0
      activeId small, Nat.zero_add]
    rw [Nat.zero_add, stocks_eq]
    exact room

/-- The quote is at most what the bins met hold. -/
theorem quoteExactIn_le (amountIn : Nat) (small : amountIn < 2 ^ 64) :
    quoteExactIn amountIn swapForY activeId binStep parameters vParameters binArrays ≤
      outSide swapForY binArrays activeId := by
  rw [quoteExactIn_total binStep parameters vParameters binArrays swapForY activeId sound amountIn
    small, ← stocks_eq]
  exact (Nat.min_le_left _ _).trans (total_le _ _ _ _ _)

omit sound in
/-- The offers get no better on the way. -/
theorem offersMet_worse (rise : PricesRise binArrays) (fuel : Nat) :
    (offersMet swapForY binArrays fuel activeId).Pairwise NoBetter := by
  induction fuel generalizing activeId with
  | zero => exact List.Pairwise.nil
  | succ fuel ih =>
      rw [offersMet]
      cases found : getBin binArrays activeId with
      | none =>
          cases next : nextArray swapForY binArrays activeId with
          | none =>
              rw [visited_end _ _ _ _ found next]
              exact List.Pairwise.nil
          | some index =>
              rw [visited_gap _ _ _ _ index found next]
              exact ih _
      | some bin =>
          rw [visited_bin _ _ _ _ bin found, List.map_cons]
          apply List.Pairwise.cons
          · intro offer member
            rcases List.mem_map.mp member with ⟨other, met, rfl⟩
            rcases mem_visited_ahead swapForY binArrays fuel _ other met with
              ⟨place, further, known⟩
            have ahead := further.of_ahead (ahead_nextBin swapForY activeId)
            cases swapForY with
            | true =>
                have falls := rise place activeId other bin ahead known found
                exact Nat.mul_le_mul_right _ falls
            | false =>
                have climbs := rise activeId place bin other ahead found known
                exact Nat.mul_le_mul_left _ climbs
          · exact ih _

omit sound in
theorem within_of_partsFit (top : Nat) (word : top < 2 ^ 64) (bin : MeteoraBin)
    (fits : BinFits bin) (parts : PartsFit binStep parameters vParameters swapForY top bin) :
    Within (totalFee binStep parameters vParameters) feePrecision u64Max top
      (offerOf swapForY bin) := by
  intro paid more below affordable
  by_cases free : (offerOf swapForY bin).gives = 0
  · rw [Offer.buys, free, Nat.mul_zero, Nat.zero_div]
    exact Nat.zero_le _
  · have known := costOf_offer swapForY bin fits
    rw [if_neg free] at known
    have whole := full_iff binStep parameters vParameters (offerOf swapForY bin).cost paid
      (lt_of_le_of_lt below word)
    have converted := parts paid _ more below known
      (not_lt.mp (fun holds => not_lt.mpr affordable (whole.mp holds)))
    rw [computeFeeFromAmount_net _ _ _ paid (lt_of_le_of_lt below word),
      getOutAmount_offer swapForY bin fits _
        (lt_of_le_of_lt (net_le _ _ _) (lt_of_le_of_lt below word))] at converted
    split at converted
    · cases converted
    · next allowed => exact not_lt.mp (not_or.mp allowed).2

/-- More in, more out. -/
theorem quoteExactIn_mono (rise : PricesRise binArrays) (less more : Nat) (ordered : less ≤ more)
    (word : more < 2 ^ 64)
    (parts : ∀ bin ∈ visited swapForY binArrays 4096 activeId,
      PartsFit binStep parameters vParameters swapForY more bin) :
    quoteExactIn less swapForY activeId binStep parameters vParameters binArrays ≤
      quoteExactIn more swapForY activeId binStep parameters vParameters binArrays := by
  rw [quoteExactIn_total binStep parameters vParameters binArrays swapForY activeId sound less
      (lt_of_le_of_lt ordered word),
    quoteExactIn_total binStep parameters vParameters binArrays swapForY activeId sound more word]
  apply min_le_min_right
  apply total_mono _ _ _ (totalFee_lt binStep parameters vParameters) more _
    (offersMet_worse binArrays swapForY activeId rise 4096) _ less more ordered (le_refl _)
  intro offer member
  rcases List.mem_map.mp member with ⟨bin, met, rfl⟩
  rcases mem_visited swapForY binArrays 4096 activeId bin met with ⟨place, found⟩
  exact within_of_partsFit binStep parameters vParameters swapForY more word bin
    (sound place bin found) (parts bin met)

end Quote

/-! There and back. -/

section Trace

variable (swapForY : Bool) (binStep : Nat) (parameters : MeteoraStaticParameters)
  (vParameters : MeteoraVariableParameters) (binArrays : HashMap Int MeteoraBinArray)

/-- The fills of the offers met, under the ids of their bins. -/
def traceOf (fuel left : Nat) (binId : Int) : List (Int × Fill) :=
  trace (totalFee binStep parameters vParameters) feePrecision u64Max
    (visitedIds swapForY binArrays fuel binId) (offersMet swapForY binArrays fuel binId) left

theorem traceOf_sizes (fuel : Nat) (binId : Int) :
    (visitedIds swapForY binArrays fuel binId).length =
      (offersMet swapForY binArrays fuel binId).length := by
  rw [offersMet, List.length_map]
  exact (visited_pairs swapForY binArrays fuel binId).length_eq

theorem mem_traceOf (fuel left : Nat) (binId place : Int) (fill : Fill)
    (member : (place, fill) ∈ traceOf swapForY binStep parameters vParameters binArrays fuel left
      binId) :
    ∃ bin before, getBin binArrays place = some bin ∧ AtOrAhead swapForY binId place ∧
      fill = taken (totalFee binStep parameters vParameters) feePrecision u64Max
        (offerOf swapForY bin) before := by
  rcases mem_trace _ _ _ _ _ _ _ _ member with ⟨offer, before, paired, same⟩
  rw [offersMet, List.zip_map_right] at paired
  rcases List.mem_map.mp paired with ⟨⟨key, bin⟩, together, split⟩
  cases split
  have found : getBin binArrays key = some bin :=
    List.forall₂_zip (visited_pairs swapForY binArrays fuel binId) together
  have met := (visitedIds_ahead swapForY binArrays fuel binId).1 key (List.of_mem_zip together).1
  exact ⟨bin, before, found, met, same⟩

theorem traceOf_bin (fuel left : Nat) (binId : Int) (bin : MeteoraBin)
    (found : getBin binArrays binId = some bin) :
    traceOf swapForY binStep parameters vParameters binArrays (fuel + 1) left binId =
      (binId, taken (totalFee binStep parameters vParameters) feePrecision u64Max
          (offerOf swapForY bin) left) ::
        traceOf swapForY binStep parameters vParameters binArrays fuel
          (left - (taken (totalFee binStep parameters vParameters) feePrecision u64Max
            (offerOf swapForY bin) left).spent) (nextBin swapForY binId) := by
  have ids : visitedIds swapForY binArrays (fuel + 1) binId =
      binId :: visitedIds swapForY binArrays fuel (nextBin swapForY binId) := by
    rw [visitedIds, found]
  rw [traceOf, ids, offersMet, visited_bin _ _ _ _ bin found]
  rfl

theorem traceOf_gap (fuel left : Nat) (binId index : Int) (gap : getBin binArrays binId = none)
    (next : nextArray swapForY binArrays binId = some index) :
    traceOf swapForY binStep parameters vParameters binArrays (fuel + 1) left binId =
      traceOf swapForY binStep parameters vParameters binArrays fuel left
        (firstBin swapForY index) := by
  have ids : visitedIds swapForY binArrays (fuel + 1) binId =
      visitedIds swapForY binArrays fuel (firstBin swapForY index) := by
    rw [visitedIds, gap]
    dsimp only
    rw [next]
  rw [traceOf, ids, offersMet, visited_gap _ _ _ _ index gap next]
  rfl

theorem traceOf_end (fuel left : Nat) (binId : Int) (gap : getBin binArrays binId = none)
    (last : nextArray swapForY binArrays binId = none) :
    traceOf swapForY binStep parameters vParameters binArrays (fuel + 1) left binId = [] := by
  have ids : visitedIds swapForY binArrays (fuel + 1) binId = [] := by
    rw [visitedIds, gap]
    dsimp only
    rw [last]
  rw [traceOf, ids]
  rfl

theorem filledAt_cons (amount : BinSwapQuote → Nat) (entry : Int × BinSwapQuote)
    (rest : List (Int × BinSwapQuote)) (place : Int) :
    filledAt amount (entry :: rest) place =
      (if entry.1 = place then amount entry.2 else 0) + filledAt amount rest place := by
  rw [filledAt, List.filter_cons]
  by_cases same : entry.1 = place
  · simp [same, filledAt]
  · simp [same, filledAt]

/-- An amount of the code's own fills, and the same amount of the purchase. -/
def SameAmount (ofQuote : BinSwapQuote → Nat) (ofFill : Fill → Nat) : Prop :=
  ofFill none_ = 0 ∧ ∀ spent bought, ofQuote ⟨spent, bought⟩ = ofFill ⟨spent, bought⟩

/-- What the code's own fills of a bin add up to. -/
theorem filledAt_traceOf (ofQuote : BinSwapQuote → Nat) (ofFill : Fill → Nat)
    (same : SameAmount ofQuote ofFill)
    (sound : ∀ binId bin, getBin binArrays binId = some bin → BinFits bin)
    (fuel left : Nat) (binId place : Int) (small : left < 2 ^ 64) :
    filledAt ofQuote
        (quoteFills swapForY binStep parameters vParameters binArrays fuel left binId) place =
      amountAt ofFill
        (traceOf swapForY binStep parameters vParameters binArrays fuel left binId) place := by
  induction fuel generalizing left binId with
  | zero => rfl
  | succ fuel ih =>
      rw [quoteFills]
      by_cases done : left = 0
      · rw [if_pos done, Eq.comm]
        apply amountAt_eq_zero
        intro entry member _
        rw [done] at member
        rw [trace_zero _ _ _ _ _ entry member]
        exact same.1
      rw [if_neg done]
      cases found : getBin binArrays binId with
      | none =>
          dsimp only
          cases next : nextArray swapForY binArrays binId with
          | none =>
              rw [traceOf_end _ _ _ _ _ _ _ _ found next]
              rfl
          | some index =>
              rw [traceOf_gap _ _ _ _ _ _ _ _ index found next]
              exact ih _ _ small
      | some bin =>
          rw [traceOf_bin _ _ _ _ _ _ _ _ bin found, amountAt_cons]
          dsimp only
          rw [swap_fill swapForY binStep parameters vParameters bin (sound binId bin found) left
            small, fillAt, taken]
          dsimp only
          by_cases idle : (fillOf (totalFee binStep parameters vParameters) feePrecision u64Max
              (offerOf swapForY bin) left).spent = 0 ∨
            (fillOf (totalFee binStep parameters vParameters) feePrecision u64Max
              (offerOf swapForY bin) left).bought = 0
          · rw [if_pos idle, if_pos (Or.inr idle), ih _ _ small, same.1, ite_self, Nat.zero_add]
            rfl
          · rw [if_neg idle, if_neg (not_or.mpr ⟨done, idle⟩), filledAt_cons,
              ih _ _ (lt_of_le_of_lt (Nat.sub_le _ _) small)]
            dsimp only
            rw [same.2]

end Trace

section RoundTrip

variable (binStep : Nat) (parameters : MeteoraStaticParameters)
  (vParameters vAfter : MeteoraVariableParameters) (before after : HashMap Int MeteoraBinArray)
  (activeId start : Int) (amountIn back : Nat)

/-- The X paid and the Y bought, bin by bin. -/
def outward : List (Int × Fill) :=
  traceOf true binStep parameters vParameters before 4096 amountIn activeId

/-- The Y paid back and the X returned, bin by bin, at the fees of then. -/
def homeward : List (Int × Fill) :=
  traceOf false binStep parameters vAfter after 4096 back start

def priceAt (binId : Int) : Nat := ((getBin before binId).map MeteoraBin.price).getD 0

/-- The bins of both swaps. -/
def bothIds : Finset Int :=
  (visitedIds true before 4096 activeId).toFinset ∪ (visitedIds false after 4096 start).toFinset

def levelAt (binId : Int) : PriceLevels.Level where
  price := priceAt before binId
  spent := amountAt Fill.spent
    (outward binStep parameters vParameters before activeId amountIn) binId
  bought := amountAt Fill.bought
    (outward binStep parameters vParameters before activeId amountIn) binId
  paid := amountAt Fill.spent (homeward binStep parameters vAfter after start back) binId
  returned := amountAt Fill.bought (homeward binStep parameters vAfter after start back) binId

def levels : List PriceLevels.Level :=
  ((bothIds before after activeId start).sort (· ≤ ·)).map
    (levelAt binStep parameters vParameters vAfter before after activeId start amountIn back)

theorem sum_levels (amount : PriceLevels.Level → Nat) :
    ((levels binStep parameters vParameters vAfter before after activeId start amountIn back).map
        amount).sum =
      ∑ binId ∈ bothIds before after activeId start,
        amount (levelAt binStep parameters vParameters vAfter before after activeId start amountIn
          back binId) := by
  rw [levels, List.map_map]
  conv_rhs => rw [← Finset.sort_toFinset (bothIds before after activeId start) (· ≤ ·)]
  rw [List.sum_toFinset _ (Finset.sort_nodup _ _)]
  rfl

/-- A trace adds up to its purchase. -/
theorem sum_trace (amount : Fill → Nat) (swapForY : Bool)
    (vParameters : MeteoraVariableParameters) (binArrays : HashMap Int MeteoraBinArray)
    (left : Nat) (binId : Int)
    (keys : Finset Int) (known : ∀ place ∈ visitedIds swapForY binArrays 4096 binId, place ∈ keys) :
    ∑ place ∈ keys, amountAt amount
        (traceOf swapForY binStep parameters vParameters binArrays 4096 left binId) place =
      ((fills (totalFee binStep parameters vParameters) feePrecision u64Max
        (offersMet swapForY binArrays 4096 binId) left).map amount).sum := by
  rw [sum_amountAt]
  · exact trace_sum _ _ _ amount _ _ left (traceOf_sizes swapForY binArrays 4096 binId)
  · intro entry member
    exact known entry.1 (List.of_mem_zip member).1

theorem outward_fill (place : Int) (fill : Fill)
    (member : (place, fill) ∈ outward binStep parameters vParameters before activeId amountIn) :
    place ≤ activeId ∧ fill.bought * 2 ^ 64 ≤ fill.spent * priceAt before place := by
  rcases mem_traceOf _ _ _ _ _ _ _ _ _ _ member with ⟨bin, left, found, reached, same⟩
  have fair := taken_fair (totalFee binStep parameters vParameters) feePrecision u64Max
    (offerOf true bin) left
  have price : priceAt before place = bin.price := by
    rw [priceAt, found]
    rfl
  rw [price, same]
  exact ⟨reached.elim (fun at_ => at_.le) (fun ahead => le_of_lt ahead), fair⟩

theorem homeward_fill (place : Int) (fill : Fill)
    (member : (place, fill) ∈ homeward binStep parameters vAfter after start back) :
    ∃ bin, getBin after place = some bin ∧ fill.bought ≤ bin.amountX ∧
      fill.bought * bin.price ≤ fill.spent * 2 ^ 64 ∧ (bin.price = 0 → fill.bought = 0) := by
  rcases mem_traceOf _ _ _ _ _ _ _ _ _ _ member with ⟨bin, left, found, -, same⟩
  have fair := taken_fair (totalFee binStep parameters vAfter) feePrecision u64Max
    (offerOf false bin) left
  have stocked := taken_bought_le (totalFee binStep parameters vAfter) feePrecision u64Max
    (offerOf false bin) left
  rw [same]
  refine ⟨bin, found, stocked, fair, ?_⟩
  intro free
  rw [taken_unpriced _ _ _ (offerOf false bin) free left]
  rfl

theorem mem_visitedIds (swapForY : Bool) (binArrays : HashMap Int MeteoraBinArray) (fuel : Nat)
    (binId place : Int) (member : place ∈ visitedIds swapForY binArrays fuel binId) :
    ∃ bin, getBin binArrays place = some bin := by
  have pairs := visited_pairs swapForY binArrays fuel binId
  rcases List.getElem_of_mem member with ⟨index, inside, same⟩
  have here := (List.forall₂_iff_get.mp pairs).2 index inside (by rw [← pairs.length_eq]; exact inside)
  rw [List.get_eq_getElem, same] at here
  exact ⟨_, here⟩

variable (sound : ∀ binId bin, getBin before binId = some bin → BinFits bin)
  (small : amountIn < 2 ^ 64)
  (settled : StateAfter
    (quoteFills true binStep parameters vParameters before 4096 amountIn activeId) before after)

include settled

/-- A bin of the second swap was there before the first, at the same price. -/
theorem price_kept (place : Int) (bin : MeteoraBin) (found : getBin after place = some bin) :
    (∃ old, getBin before place = some old) ∧ bin.price = priceAt before place := by
  have related := settled.bins place
  rw [found] at related
  cases known : getBin before place with
  | none =>
      rw [known] at related
      cases related
  | some old =>
      rw [known] at related
      cases related with
      | some holds =>
          refine ⟨⟨old, rfl⟩, ?_⟩
          rw [priceAt, known, holds.price]
          rfl

theorem fair_levels (place : Int) :
    PriceLevels.Fair (2 ^ 64) (levelAt binStep parameters vParameters vAfter before after activeId
      start amountIn back place) where
  bought := by
    apply amountAt_mul_le
    intro entry member same
    have holds := (outward_fill binStep parameters vParameters before activeId amountIn entry.1
      entry.2 member).2
    rw [same] at holds
    exact holds
  returned := by
    apply amountAt_mul_le
    intro entry member same
    rcases homeward_fill binStep parameters vAfter after start back entry.1 entry.2 member with
      ⟨bin, found, -, fair, -⟩
    rw [same] at found
    change entry.2.bought * priceAt before place ≤ _
    rw [← (price_kept _ _ _ _ _ _ _ settled place bin found).2]
    exact fair
  priced := by
    intro free
    apply amountAt_eq_zero
    intro entry member same
    rcases homeward_fill binStep parameters vAfter after start back entry.1 entry.2 member with
      ⟨bin, found, -, -, unpriced⟩
    rw [same] at found
    apply unpriced
    rw [(price_kept _ _ _ _ _ _ _ settled place bin found).2]
    exact free

omit settled in
theorem rising_levels (rise : PricesRise before)
    (known : ∀ place ∈ bothIds before after activeId start,
      ∃ bin, getBin before place = some bin) :
    (levels binStep parameters vParameters vAfter before after activeId start amountIn
      back).Pairwise (fun lower upper => lower.price ≤ upper.price) := by
  rw [levels, List.pairwise_map]
  apply (Finset.sortedLT_sort (bothIds before after activeId start)).pairwise.imp_of_mem
  intro lower upper inLower inUpper less
  rcases known lower ((Finset.mem_sort _).mp inLower) with ⟨lowerBin, foundLower⟩
  rcases known upper ((Finset.mem_sort _).mp inUpper) with ⟨upperBin, foundUpper⟩
  have climbs := rise lower upper lowerBin upperBin less foundLower foundUpper
  change priceAt before lower ≤ priceAt before upper
  rw [priceAt, priceAt, foundLower, foundUpper]
  exact climbs

include sound small

/-- Below the active bin only the X that was paid in can come back. -/
theorem returned_le_spent_below (below : NoneBelow activeId before) (place : Int)
    (lower : place < activeId) :
    (levelAt binStep parameters vParameters vAfter before after activeId start amountIn back
        place).returned ≤
      (levelAt binStep parameters vParameters vAfter before after activeId start amountIn back
        place).spent := by
  have once : ((homeward binStep parameters vAfter after start back).map Prod.fst).Nodup := by
    rw [homeward, traceOf, trace_keys]
    · exact visitedIds_nodup false after 4096 start
    · exact traceOf_sizes false after 4096 start
  apply amountAt_le _ _ _ _ once
  intro entry member same
  rcases homeward_fill binStep parameters vAfter after start back entry.1 entry.2 member with
    ⟨bin, found, stocked, -, -⟩
  rw [same] at found
  have related := settled.bins place
  rw [found] at related
  cases known : getBin before place with
  | none =>
      rw [known] at related
      cases related
  | some old =>
      rw [known] at related
      cases related with
      | some holds =>
          have came := holds.amountX
          rw [below place old lower known, Nat.zero_add,
            filledAt_traceOf true binStep parameters vParameters before
              BinSwapQuote.amountInConsumed Fill.spent ⟨rfl, fun _ _ => rfl⟩ sound 4096 amountIn
              activeId place small] at came
          exact stocked.trans came

theorem covered_levels (below : NoneBelow activeId before) :
    (levels binStep parameters vParameters vAfter before after activeId start amountIn
      back).Pairwise PriceLevels.Covers := by
  rw [levels, List.pairwise_map]
  apply (Finset.sortedLT_sort (bothIds before after activeId start)).pairwise.imp
  intro lower upper less
  by_cases inside : lower < activeId
  · left
    exact returned_le_spent_below binStep parameters vParameters vAfter before after activeId start
      amountIn back sound small settled below lower inside
  · right
    apply amountAt_eq_zero
    intro entry member same
    have reached := (outward_fill binStep parameters vParameters before activeId amountIn entry.1
      entry.2 member).1
    omega

/-- Paying back no more Y than was bought returns no more X than was paid. -/
theorem homeward_le (rise : PricesRise before) (below : NoneBelow activeId before)
    (enough : back ≤ totalOf binStep parameters vParameters
      (offersMet true before 4096 activeId) amountIn) :
    totalOf binStep parameters vAfter (offersMet false after 4096 start) back ≤ amountIn := by
  have inBoth : ∀ place ∈ visitedIds true before 4096 activeId,
      place ∈ bothIds before after activeId start := fun place member =>
    Finset.mem_union_left _ (List.mem_toFinset.mpr member)
  have inBothToo : ∀ place ∈ visitedIds false after 4096 start,
      place ∈ bothIds before after activeId start := fun place member =>
    Finset.mem_union_right _ (List.mem_toFinset.mpr member)
  have known : ∀ place ∈ bothIds before after activeId start,
      ∃ bin, getBin before place = some bin := by
    intro place member
    rcases Finset.mem_union.mp member with outgoing | returning
    · exact mem_visitedIds true before 4096 activeId place (List.mem_toFinset.mp outgoing)
    · rcases mem_visitedIds false after 4096 start place (List.mem_toFinset.mp returning) with
        ⟨bin, found⟩
      exact (price_kept _ _ _ _ _ _ _ settled place bin found).1
  have levels_fair : ∀ level ∈ levels binStep parameters vParameters vAfter before after activeId
      start amountIn back, PriceLevels.Fair (2 ^ 64) level := by
    intro level member
    rcases List.mem_map.mp member with ⟨place, -, rfl⟩
    exact fair_levels binStep parameters vParameters vAfter before after activeId start amountIn
      back settled place
  have spent := sum_trace binStep parameters Fill.spent true vParameters before amountIn activeId _
    inBoth
  have bought := sum_trace binStep parameters Fill.bought true vParameters before amountIn activeId _
    inBoth
  have paid := sum_trace binStep parameters Fill.spent false vAfter after back start _ inBothToo
  have returned := sum_trace binStep parameters Fill.bought false vAfter after back start _
    inBothToo
  have gain := PriceLevels.returned_le_spent (2 ^ 64) _
    (rising_levels binStep parameters vParameters vAfter before after activeId start amountIn back
      rise known)
    levels_fair
    (covered_levels binStep parameters vParameters vAfter before after activeId start amountIn back
      sound small settled below)
  rw [sum_levels, sum_levels, sum_levels, sum_levels] at gain
  have covers := (spent_le (totalFee binStep parameters vAfter) feePrecision u64Max
    (offersMet false after 4096 start) back).trans enough
  calc totalOf binStep parameters vAfter (offersMet false after 4096 start) back
      = _ := returned.symm
    _ ≤ _ := gain (le_of_eq_of_le paid (le_of_le_of_eq covers bought.symm))
    _ = _ := spent
    _ ≤ amountIn := spent_le _ _ _ _ _

end RoundTrip

/-- The fills of a quote that stops at once are those of a walk that stops at once. -/
theorem swapFills_eq (amountIn : Nat) (swapForY : Bool) (activeId : Int) (binStep : Nat)
    (parameters : MeteoraStaticParameters) (vParameters : MeteoraVariableParameters)
    (binArrays : HashMap Int MeteoraBinArray) :
    swapFills amountIn swapForY activeId binStep parameters vParameters binArrays =
      quoteFills swapForY binStep parameters vParameters binArrays 4096 amountIn activeId := by
  rw [swapFills]
  split
  · next idle =>
      rw [quoteFills]
      split
      · rfl
      · next more =>
          have none_ := idle.resolve_left more
          have gap : getBin binArrays activeId = none := by
            rw [getBin_eq, HashMap.get, AList.lookup, none_]
            rfl
          have last : nextArray swapForY binArrays activeId = none := by
            rw [nextArray, nextCachedBinArrayIndex, AList.keys, none_]
            split
            · rfl
            · rfl
          rw [gap]
          dsimp only
          rw [last]
  · rfl

/-- On bins with rising prices a quote pays at most what the bins met hold, it pays no less for
more as long as no part of a bin met converts to more than `u64`, and swapping all of the output
back gains nothing if no bin below the active one held any X before. -/
theorem quote_sound (binStep : Nat) (parameters : MeteoraStaticParameters)
    (vParameters : MeteoraVariableParameters) (binArrays : HashMap Int MeteoraBinArray)
    (activeId : Int) (sound : ∀ binId bin, getBin binArrays binId = some bin → BinFits bin)
    (rise : PricesRise binArrays) :
    (∀ swapForY amountIn, amountIn < 2 ^ 64 →
      quoteExactIn amountIn swapForY activeId binStep parameters vParameters binArrays ≤
        outSide swapForY binArrays activeId) ∧
    (∀ swapForY less more, less ≤ more → more < 2 ^ 64 →
      (∀ bin ∈ visited swapForY binArrays 4096 activeId,
        PartsFit binStep parameters vParameters swapForY more bin) →
      quoteExactIn less swapForY activeId binStep parameters vParameters binArrays ≤
        quoteExactIn more swapForY activeId binStep parameters vParameters binArrays) ∧
    (NoneBelow activeId binArrays → ∀ amountIn < 2 ^ 64, ∀ after,
      StateAfter (swapFills amountIn true activeId binStep parameters vParameters binArrays)
        binArrays after → ∀ start vAfter,
      quoteExactIn (quoteExactIn amountIn true activeId binStep parameters vParameters binArrays)
        false start binStep parameters vAfter after ≤ amountIn) := by
  refine ⟨?_, ?_, ?_⟩
  · intro swapForY amountIn small
    exact quoteExactIn_le binStep parameters vParameters binArrays swapForY activeId sound amountIn
      small
  · intro swapForY less more ordered word parts
    exact quoteExactIn_mono binStep parameters vParameters binArrays swapForY activeId sound rise
      less more ordered word parts
  · intro below amountIn small after settled start vAfter
    rw [swapFills_eq] at settled
    have bought := quoteExactIn_total binStep parameters vParameters binArrays true activeId sound
      amountIn small
    have word : quoteExactIn amountIn true activeId binStep parameters vParameters binArrays <
        2 ^ 64 := by
      rw [bought, u64Max]
      omega
    rw [quoteExactIn_total binStep parameters vAfter after false start settled.sound _ word]
    apply (Nat.min_le_left _ _).trans
    apply homeward_le binStep parameters vParameters vAfter binArrays after activeId start amountIn
      _ sound small settled rise below
    rw [bought]
    exact Nat.min_le_left _ _

/-! Two bins, the lower at half the price, with some X in it or none. -/

def twoBins (lowerX lowerY upperX upperY : Nat) : HashMap Int MeteoraBinArray :=
  AList.singleton 0 ⟨0, [⟨lowerX, lowerY, 2 ^ 63⟩, ⟨upperX, upperY, 2 ^ 64⟩] ++
    List.replicate 68 ⟨0, 0, 2 ^ 64⟩⟩

theorem getBin_twoBins (lowerX lowerY upperX upperY : Nat) (binId : Int) :
    getBin (twoBins lowerX lowerY upperX upperY) binId =
      if binId = 0 then some ⟨lowerX, lowerY, 2 ^ 63⟩
      else if binId = 1 then some ⟨upperX, upperY, 2 ^ 64⟩
      else if 2 ≤ binId ∧ binId < 70 then some ⟨0, 0, 2 ^ 64⟩
      else none := by
  rw [getBin_eq]
  by_cases inside : binId / 70 = 0
  · rw [inside]
    obtain ⟨place, rfl⟩ : ∃ place : Nat, binId = place := ⟨binId.toNat, by omega⟩
    have index : ((place : Int) % 70).toNat = place := by omega
    rw [index]
    rcases place with _ | _ | place
    · rfl
    · rfl
    · have bound : place < 68 := by omega
      rw [if_neg (by omega), if_neg (by omega), if_pos (by omega)]
      change (List.replicate 68 (⟨0, 0, 2 ^ 64⟩ : MeteoraBin))[place]? = _
      rw [List.getElem?_replicate, if_pos bound]
  · have missing : HashMap.get (twoBins lowerX lowerY upperX upperY) (binId / 70) = none := by
      rw [HashMap.get, AList.lookup_eq_none]
      intro member
      exact inside (List.mem_singleton.mp (AList.mem_keys.mp member))
    rw [missing, if_neg (by omega), if_neg (by omega), if_neg (by omega)]
    rfl

theorem twoBins_sound (lowerX lowerY upperX upperY : Nat) (first : lowerX < 2 ^ 64)
    (second : lowerY < 2 ^ 64) (third : upperX < 2 ^ 64) (fourth : upperY < 2 ^ 64) (binId : Int)
    (bin : MeteoraBin) (found : getBin (twoBins lowerX lowerY upperX upperY) binId = some bin) :
    BinFits bin := by
  rw [getBin_twoBins] at found
  split at found
  · cases found
    exact ⟨first, second, by norm_num⟩
  · split at found
    · cases found
      exact ⟨third, fourth, by norm_num⟩
    · split at found
      · cases found
        exact ⟨by norm_num, by norm_num, by norm_num⟩
      · cases found

theorem twoBins_rise (lowerX lowerY upperX upperY : Nat) :
    PricesRise (twoBins lowerX lowerY upperX upperY) := by
  have price : ∀ binId bin, getBin (twoBins lowerX lowerY upperX upperY) binId = some bin →
      0 ≤ binId ∧ bin.price = if binId = 0 then 2 ^ 63 else 2 ^ 64 := by
    intro binId bin found
    rw [getBin_twoBins] at found
    split at found
    · next zero =>
        cases found
        exact ⟨by omega, by rw [if_pos zero]⟩
    · next zero =>
        rw [if_neg zero]
        split at found
        · cases found
          exact ⟨by omega, rfl⟩
        · split at found
          · cases found
            exact ⟨by omega, rfl⟩
          · cases found
  intro lower upper lowerBin upperBin less foundLower foundUpper
  rcases price lower lowerBin foundLower with ⟨nonneg, lowerPrice⟩
  rcases price upper upperBin foundUpper with ⟨-, upperPrice⟩
  rw [lowerPrice, upperPrice, if_neg (show upper ≠ 0 by omega)]
  split
  · norm_num
  · exact Nat.le_refl _

/-- What 102 X take from the upper and the lower bin. -/
def twoFills : List (Int × BinSwapQuote) := [(1, ⟨100, 100⟩), (0, ⟨2, 1⟩)]

/-- The state they leave, with all that was paid in the bins. -/
theorem twoBins_after (lowerX : Nat) (small : lowerX + 2 < 2 ^ 64) :
    StateAfter twoFills (twoBins lowerX 1 0 100) (twoBins (lowerX + 2) 0 100 0) where
  bins := by
    intro binId
    rw [getBin_twoBins, getBin_twoBins]
    split
    · next zero =>
        rw [zero]
        exact Option.Rel.some ⟨rfl, rfl, Nat.le_refl _⟩
    · next notZero =>
        split
        · next one =>
            rw [one]
            exact Option.Rel.some ⟨rfl, rfl, Nat.le_refl _⟩
        · next notOne =>
            split
            · have nothing : ∀ amount, filledAt amount twoFills binId = 0 := by
                intro amount
                rw [twoFills, filledAt_cons, filledAt_cons, if_neg (Ne.symm notOne),
                  if_neg (Ne.symm notZero)]
                rfl
              exact Option.Rel.some ⟨rfl, by rw [nothing], by rw [nothing]⟩
            · exact Option.Rel.none
  sound := twoBins_sound _ _ _ _ small (by norm_num) (by norm_num) (by norm_num)

def noFees : MeteoraStaticParameters := ⟨0, 0, 0⟩
def calm : MeteoraVariableParameters := ⟨0⟩

/-- With nothing in the lower bin, the way back returns what was paid. -/
theorem empty_lower_bin_returns :
    quoteExactIn (quoteExactIn 102 true 1 1 noFees calm (twoBins 0 1 0 100)) false 0 1 noFees calm
      (twoBins 2 0 100 0) ≤ 102 := by
  have fills : swapFills 102 true 1 1 noFees calm (twoBins 0 1 0 100) = twoFills := by
    decide +kernel
  refine (quote_sound 1 noFees calm (twoBins 0 1 0 100) 1
    (twoBins_sound _ _ _ _ (by norm_num) (by norm_num) (by norm_num) (by norm_num))
    (twoBins_rise _ _ _ _)).2.2 ?_ 102 (by norm_num) (twoBins 2 0 100 0) ?_ 0 calm
  · intro binId bin lower found
    rw [getBin_twoBins, if_neg (show binId ≠ 1 by omega),
      if_neg (show ¬ (2 ≤ binId ∧ binId < 70) by omega)] at found
    split at found
    · cases found
      rfl
    · cases found
  · rw [fills]
    exact twoBins_after 0 (by norm_num)

/-- The bin a swap ends in. -/
def lastBin (activeId : Int) (fills : List (Int × BinSwapQuote)) : Int :=
  (fills.getLast?.map Prod.fst).getD activeId

/-- An array of one price, with Y in its first bin only. -/
def steepBins : HashMap Int MeteoraBinArray :=
  AList.singleton 0 ⟨0, ⟨0, u64Max, 2 ^ 127⟩ :: List.replicate 69 ⟨0, 0, 2 ^ 127⟩⟩

theorem steepBins_bin (binId : Int) (bin : MeteoraBin)
    (found : getBin steepBins binId = some bin) :
    BinFits bin ∧ bin.price = 2 ^ 127 := by
  rw [getBin_eq] at found
  rcases Option.bind_eq_some_iff.mp found with ⟨binArray, held, place⟩
  have same : binArray.bins =
      ⟨0, u64Max, 2 ^ 127⟩ :: List.replicate 69 (⟨0, 0, 2 ^ 127⟩ : MeteoraBin) := by
    by_cases key : binId / 70 = 0
    · rw [key] at held
      cases held
      rfl
    · rw [HashMap.get, AList.lookup_eq_none.mpr] at held
      · cases held
      · rw [AList.mem_keys]
        exact fun member => key (List.mem_singleton.mp member)
  have member := List.mem_of_getElem? place
  rw [same] at member
  rcases List.mem_cons.mp member with first | others
  · rw [first]
    exact ⟨⟨by norm_num, by norm_num [u64Max], by norm_num⟩, rfl⟩
  · rw [List.eq_of_mem_replicate others]
    exact ⟨⟨by norm_num, by norm_num, by norm_num⟩, rfl⟩

/-- A part that converts to more than `u64` is passed over, so two units buy less than one; and X
that lies in a lower bin is sold on the way back at the lower price. -/
theorem more_pays_less_and_lower_bin_overpays :
    (¬ ∀ binStep parameters vParameters binArrays activeId,
      (∀ binId bin, getBin binArrays binId = some bin → BinFits bin) → PricesRise binArrays →
      ∀ swapForY less more, less ≤ more → more < 2 ^ 64 →
        quoteExactIn less swapForY activeId binStep parameters vParameters binArrays ≤
          quoteExactIn more swapForY activeId binStep parameters vParameters binArrays) ∧
    ¬ ∀ binStep parameters vParameters binArrays activeId,
      (∀ binId bin, getBin binArrays binId = some bin → BinFits bin) → PricesRise binArrays →
      ∀ amountIn < 2 ^ 64, ∀ after,
        StateAfter (swapFills amountIn true activeId binStep parameters vParameters binArrays)
          binArrays after →
        quoteExactIn (quoteExactIn amountIn true activeId binStep parameters vParameters binArrays)
          false
          (lastBin activeId
            (swapFills amountIn true activeId binStep parameters vParameters binArrays))
          binStep parameters vParameters after ≤ amountIn := by
  constructor
  · intro always
    have here := always 1 noFees calm steepBins 0 (fun binId bin found =>
        (steepBins_bin binId bin found).1)
      (fun _ _ _ _ _ lower upper => by
        rw [(steepBins_bin _ _ lower).2, (steepBins_bin _ _ upper).2])
      true 1 2 (by norm_num) (by norm_num)
    have falls : quoteExactIn 2 true 0 1 noFees calm steepBins <
        quoteExactIn 1 true 0 1 noFees calm steepBins := by
      decide +kernel
    omega
  · intro never
    have fills : swapFills 102 true 1 1 noFees calm (twoBins 1000 1 0 100) = twoFills := by
      decide +kernel
    have here := never 1 noFees calm (twoBins 1000 1 0 100) 1
      (twoBins_sound _ _ _ _ (by norm_num) (by norm_num) (by norm_num) (by norm_num))
      (twoBins_rise _ _ _ _) 102 (by norm_num) (twoBins 1002 0 100 0)
      (by rw [fills]; exact twoBins_after 1000 (by norm_num))
    rw [fills] at here
    have back : quoteExactIn (quoteExactIn 102 true 1 1 noFees calm (twoBins 1000 1 0 100)) false
        (lastBin 1 twoFills) 1 noFees calm (twoBins 1002 0 100 0) = 202 := by
      decide +kernel
    rw [back] at here
    exact absurd here (by norm_num)

end Helios.Meteora
