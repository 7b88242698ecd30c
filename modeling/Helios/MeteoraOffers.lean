import Helios.MeteoraWalk
import Helios.PriceLadder

/-! A DLMM quote is a purchase from the offers of the bins met. -/

namespace Helios.Meteora

open Machine PriceLadder

/-- What a bin offers: the token on the way out, at the price of the bin. -/
def offerOf (swapForY : Bool) (bin : MeteoraBin) : Offer :=
  if swapForY then ⟨bin.price, 2 ^ scaleOffset, bin.amountY⟩
  else ⟨2 ^ scaleOffset, bin.price, bin.amountX⟩

theorem divCeil_eq_ceilDiv (a b : Nat) : divCeil a b = a ⌈/⌉ b :=
  (Nat.ceilDiv_eq_add_pred_div a b).symm

section Fees

variable (binStep : Nat) (parameters : MeteoraStaticParameters)
  (vParameters : MeteoraVariableParameters)

theorem totalFee_lt : totalFee binStep parameters vParameters < feePrecision :=
  lt_of_le_of_lt (totalFee_le binStep parameters vParameters) (by decide)

theorem saturatingMul_fee (amount : Nat) (small : amount < 2 ^ 64) :
    saturatingMul128 amount (totalFee binStep parameters vParameters) =
      amount * totalFee binStep parameters vParameters := by
  have rate := totalFee_le binStep parameters vParameters
  have product : amount * totalFee binStep parameters vParameters ≤ 2 ^ 64 * maxFeeRate :=
    Nat.mul_le_mul small.le rate
  rw [saturatingMul128, Nat.min_eq_left]
  exact product.trans (by decide)

theorem computeFeeFromAmount_net (amount : Nat) (small : amount < 2 ^ 64) :
    amount - computeFeeFromAmount binStep parameters vParameters amount =
      net (totalFee binStep parameters vParameters) feePrecision amount := by
  rw [computeFeeFromAmount, saturatingMul_fee _ _ _ amount small, divCeil_eq_ceilDiv, net]

/-- A cost of one word keeps its fee within `u128`. -/
theorem computeFee_gross (cost : Nat) (small : cost < 2 ^ 64) :
    saturatingAdd128 cost (computeFee binStep parameters vParameters cost) =
      gross (totalFee binStep parameters vParameters) feePrecision cost := by
  have proper := totalFee_lt binStep parameters vParameters
  have product : cost * totalFee binStep parameters vParameters ≤ 2 ^ 64 * maxFeeRate :=
    Nat.mul_le_mul small.le (totalFee_le binStep parameters vParameters)
  have fee : (cost * totalFee binStep parameters vParameters) ⌈/⌉
      (feePrecision - totalFee binStep parameters vParameters) ≤ 2 ^ 64 * maxFeeRate := by
    rw [ceilDiv_le_iff_le_smul (by omega), smul_eq_mul]
    exact product.trans (Nat.le_mul_of_pos_left _ (by omega))
  rw [computeFee, saturatingMul_fee _ _ _ cost small, Nat.max_eq_left (by omega), divCeil_eq_ceilDiv,
    saturatingAdd128, gross, Nat.min_eq_left]
  have room : 2 ^ 64 + 2 ^ 64 * maxFeeRate ≤ u128Max := by decide
  omega

/-- A cost of more than a word is more than there is to pay, with its fee or without. -/
theorem full_iff (cost left : Nat) (small : left < 2 ^ 64) :
    saturatingAdd128 cost (computeFee binStep parameters vParameters cost) < left ↔
      gross (totalFee binStep parameters vParameters) feePrecision cost < left := by
  by_cases word : cost < 2 ^ 64
  · rw [computeFee_gross _ _ _ cost word]
  · have more := le_gross (totalFee binStep parameters vParameters) feePrecision cost
    rw [saturatingAdd128, u128Max]
    omega

end Fees

section OneBin

variable (swapForY : Bool) (binStep : Nat) (parameters : MeteoraStaticParameters)
  (vParameters : MeteoraVariableParameters) (bin : MeteoraBin) (sound : BinFits bin)

/-- The fills at the fee of the pair, as far as an amount fits `u64`. -/
def fillAt (offer : Offer) (left : Nat) : Fill :=
  fillOf (totalFee binStep parameters vParameters) feePrecision u64Max offer left

include sound

/-- What the whole of a bin costs. -/
theorem costOf_offer :
    (if swapForY then shlDivU64 bin.amountY bin.price .up
      else mulShrU64 bin.amountX bin.price .up) =
      if (offerOf swapForY bin).gives = 0 then none else some (offerOf swapForY bin).cost := by
  cases swapForY with
  | true =>
      rw [if_pos rfl, offerOf, if_pos rfl]
      dsimp only
      split
      · next free => rw [free, shlDivU64_zero]
      · next priced =>
          rw [shlDivU64_eq _ _ _ sound.amountY (Nat.pos_of_ne_zero priced), if_pos rfl,
            divCeil_eq_ceilDiv]
          rfl
  | false =>
      rw [if_neg Bool.false_ne_true, offerOf, if_neg Bool.false_ne_true]
      dsimp only
      rw [if_neg (by norm_num [scaleOffset]),
        mulShrU64_eq _ _ _ sound.amountX sound.price, if_pos rfl, divCeil_eq_ceilDiv]
      rfl

theorem getOutAmount_offer (paid : Nat) (small : paid < 2 ^ 64) :
    getOutAmount bin paid swapForY =
      if (offerOf swapForY bin).takes = 0 ∨ u64Max < (offerOf swapForY bin).buys paid then none
      else some ((offerOf swapForY bin).buys paid) := by
  have fits : ∀ amount : Nat, ((some amount).bind fun out =>
      if out ≤ u64Max then some out else none) = if u64Max < amount then none else some amount := by
    intro amount
    rw [Option.bind_some]
    split
    · rw [if_neg (by omega)]
    · rw [if_pos (by omega)]
  cases swapForY with
  | true =>
      have out := mulShrU64_eq paid bin.price .down small sound.price
      rw [if_neg (by decide)] at out
      rw [getOutAmount, if_pos rfl, out, Option.bind_eq_bind, fits, offerOf, if_pos rfl,
        Offer.buys, scaleOffset]
      simp only [Nat.pow_eq_zero, OfNat.ofNat_ne_zero, false_and, false_or]
  | false =>
      rw [getOutAmount, if_neg Bool.false_ne_true, Option.bind_eq_bind, offerOf,
        if_neg Bool.false_ne_true, Offer.buys, scaleOffset]
      dsimp only
      by_cases free : bin.price = 0
      · rw [free, shlDivU64_zero, if_pos (Or.inl rfl)]
        rfl
      · have out := shlDivU64_eq paid bin.price .down small (Nat.pos_of_ne_zero free)
        rw [if_neg (by decide)] at out
        rw [out, fits]
        simp only [free, false_or]

omit sound in
theorem empty_iff_stock :
    ((swapForY ∧ bin.amountY = 0) ∨ (¬ swapForY ∧ bin.amountX = 0)) ↔
      (offerOf swapForY bin).stock = 0 := by
  cases swapForY with
  | true => simp [offerOf]
  | false => simp [offerOf]

omit sound in
theorem stock_eq : (if swapForY then bin.amountY else bin.amountX) =
    (offerOf swapForY bin).stock := by
  cases swapForY with
  | true => rfl
  | false => rfl

theorem swap_fill (left : Nat) (small : left < 2 ^ 64) :
    swapExactInQuoteAtBin bin binStep parameters vParameters left swapForY =
      ⟨(fillAt binStep parameters vParameters (offerOf swapForY bin) left).spent,
        (fillAt binStep parameters vParameters (offerOf swapForY bin) left).bought⟩ := by
  rw [swapExactInQuoteAtBin, fillAt, fillOf]
  by_cases empty : (offerOf swapForY bin).stock = 0
  · rw [if_pos ((empty_iff_stock swapForY bin).mpr empty), if_pos (Or.inl empty)]
    rfl
  rw [if_neg (fun holds => empty ((empty_iff_stock swapForY bin).mp holds)),
    costOf_offer swapForY bin sound, stock_eq]
  by_cases free : (offerOf swapForY bin).gives = 0
  · rw [if_pos free, if_pos (Or.inr free)]
    rfl
  rw [if_neg free, if_neg (not_or.mpr ⟨empty, free⟩)]
  have paysFee := computeFee_gross binStep parameters vParameters (offerOf swapForY bin).cost
  have after := computeFeeFromAmount_net binStep parameters vParameters left small
  have buys := getOutAmount_offer swapForY bin sound
    (net (totalFee binStep parameters vParameters) feePrecision left)
    (lt_of_le_of_lt (net_le _ _ _) small)
  have nets : ¬ u64Max < net (totalFee binStep parameters vParameters) feePrecision left := by
    have less := net_le (totalFee binStep parameters vParameters) feePrecision left
    rw [u64Max]
    omega
  dsimp only
  rw [after, if_neg nets, buys]
  generalize offerOf swapForY bin = offer at *
  have whole := full_iff binStep parameters vParameters offer.cost left small
  by_cases full : gross (totalFee binStep parameters vParameters) feePrecision offer.cost < left
  · have word : offer.cost < 2 ^ 64 := by
      have more := le_gross (totalFee binStep parameters vParameters) feePrecision offer.cost
      omega
    rw [if_pos (whole.mpr full), if_pos full, paysFee word]
  · rw [if_neg (fun holds => full (whole.mp holds)), if_neg full]
    by_cases refused : offer.takes = 0 ∨ u64Max < offer.buys
        (net (totalFee binStep parameters vParameters) feePrecision left)
    · rw [if_pos refused, if_pos refused]
      rfl
    · rw [if_neg refused, if_neg refused]

end OneBin

/-! The whole walk. -/

section Walk

variable (swapForY : Bool) (binStep : Nat) (parameters : MeteoraStaticParameters)
  (vParameters : MeteoraVariableParameters) (binArrays : HashMap Int MeteoraBinArray)

def totalOf (offers : List Offer) (left : Nat) : Nat :=
  total (totalFee binStep parameters vParameters) feePrecision u64Max offers left

/-- The offers met in so many turns. -/
def offersMet (fuel : Nat) (binId : Int) : List Offer :=
  (visited swapForY binArrays fuel binId).map (offerOf swapForY)

theorem quoteLoop_total (sound : ∀ binId bin, getBin binArrays binId = some bin → BinFits bin)
    (fuel left totalOut : Nat) (binId : Int) (small : left < 2 ^ 64)
    (room : totalOut + ((offersMet swapForY binArrays fuel binId).map Offer.stock).sum ≤ u128Max) :
    quoteLoop swapForY binStep parameters vParameters binArrays fuel left totalOut binId =
      totalOut + totalOf binStep parameters vParameters
        (offersMet swapForY binArrays fuel binId) left := by
  induction fuel generalizing left totalOut binId with
  | zero => rfl
  | succ fuel ih =>
      by_cases done : left = 0
      · rw [done, quoteLoop_done, totalOf, total_zero, Nat.add_zero]
      cases found : getBin binArrays binId with
      | none =>
          cases next : nextArray swapForY binArrays binId with
          | none =>
              rw [quoteLoop_end _ _ _ _ _ _ _ _ _ found next, offersMet,
                visited_end _ _ _ _ found next]
              rfl
          | some index =>
              rw [offersMet, visited_gap _ _ _ _ index found next] at room ⊢
              rw [quoteLoop_gap _ _ _ _ _ _ _ _ _ done index found next]
              exact ih _ _ _ small room
      | some bin =>
          have same : offersMet swapForY binArrays (fuel + 1) binId =
              offerOf swapForY bin :: offersMet swapForY binArrays fuel
                (nextBin swapForY binId) := by
            rw [offersMet, visited_bin _ _ _ _ bin found]
            rfl
          have bought := taken_bought_le (totalFee binStep parameters vParameters) feePrecision
            u64Max (offerOf swapForY bin) left
          rw [same, List.map_cons, List.sum_cons] at room
          rw [quoteLoop_bin _ _ _ _ _ _ _ _ _ done bin found, same, totalOf, total_cons,
            swap_fill swapForY binStep parameters vParameters bin (sound binId bin found) left small]
          rw [taken] at bought ⊢
          rw [fillAt]
          dsimp only
          by_cases idle : (fillOf (totalFee binStep parameters vParameters) feePrecision u64Max
              (offerOf swapForY bin) left).spent = 0 ∨
            (fillOf (totalFee binStep parameters vParameters) feePrecision u64Max
              (offerOf swapForY bin) left).bought = 0
          · rw [if_pos idle, if_pos (Or.inr idle), ih _ _ _ small (by omega)]
            simp [none_, totalOf]
          · have busy := not_or.mpr ⟨done, idle⟩
            rw [if_neg busy] at bought
            rw [if_neg idle, if_neg busy, saturatingAdd128, Nat.min_eq_left (by omega),
              ih _ _ _ (by omega) (by omega), totalOf]
            omega

end Walk

end Helios.Meteora
