import Helios.CrossDex
import Helios.FloatRounding
import Helios.PairIndex
import Helios.RouteExecution
import Helios.Walks

/-! What a scanner promises of its routes: a closed chain of hops, each quoted by its
pool, that pays more than the fees. The two-pool scans keep it. -/

namespace Helios.ScannedRoutes

open Machine FloatArith CrossDex

/-- A pool trades a token for another in one of its directions. -/
def Trades (pool : DexPool) (aToB : Bool) (tokenIn tokenOut : Pubkey) : Prop :=
  if aToB then tokenIn = pool.tokenA ∧ tokenOut = pool.tokenB
  else tokenIn = pool.tokenB ∧ tokenOut = pool.tokenA

theorem trades_back (pool : DexPool) (aToB : Bool) (tokenIn tokenOut : Pubkey)
    (trades : Trades pool aToB tokenIn tokenOut) : Trades pool (!aToB) tokenOut tokenIn := by
  cases aToB with
  | true => exact trades.symm
  | false => exact trades.symm

/-- A pool on the tokens of a pair, in the direction that its first token tells. -/
theorem trades_of_pair (pool : DexPool) (tokenIn tokenOut : Pubkey)
    (pair : (pool.tokenA = tokenIn ∧ pool.tokenB = tokenOut) ∨
      (pool.tokenB = tokenIn ∧ pool.tokenA = tokenOut)) :
    Trades pool (decide (pool.tokenA = tokenIn)) tokenIn tokenOut := by
  by_cases first : pool.tokenA = tokenIn
  · rw [decide_eq_true first]
    refine ⟨first.symm, ?_⟩
    rcases pair with ⟨-, second⟩ | ⟨back, second⟩
    · exact second.symm
    · rw [← second, first, back]
  · rw [decide_eq_false first]
    rcases pair with ⟨absurd, -⟩ | ⟨back, second⟩
    · exact (first absurd).elim
    · exact ⟨back.symm, second.symm⟩

theorem mints_of_trades (pool : DexPool) (aToB : Bool) (tokenIn tokenOut : Pubkey)
    (trades : Trades pool aToB tokenIn tokenOut) :
    PairIndex.mints pool = s(tokenIn, tokenOut) := by
  rw [PairIndex.mints]
  cases aToB with
  | true =>
      rcases trades with ⟨rfl, rfl⟩
      rfl
  | false =>
      rcases trades with ⟨rfl, rfl⟩
      exact Sym2.eq_swap

section Quotes

variable {F : Type} [FloatArith F] (powf : F → F → F) (now : Instant)

theorem toU64_lt (x : F) : toU64 x < 2 ^ 64 := by
  rw [toU64]
  have bound := Nat.min_le_right (toNat x) (2 ^ 64 - 1)
  have same : Nat.min (toNat x) (2 ^ 64 - 1) = min (toNat x) (2 ^ 64 - 1) := rfl
  omega

theorem quote_lt (pool : DexPool) (aToB : Bool) (amountIn : Nat) :
    pool.quote powf now aToB amountIn < 2 ^ 64 := by
  rw [DexPool.quote]
  dsimp only
  split
  · norm_num
  · split
    · next orca _ =>
        split
        · norm_num
        · split
          · rw [Orca.quoteExactIn]
            dsimp only
            split
            · norm_num
            · exact toU64_lt _
          · rw [DexPool.orcaSingleRangeQuote]
            dsimp only
            split
            · exact toU64_lt _
            · exact toU64_lt _
    · split
      · next meteora _ =>
          rw [Meteora.quoteExactIn]
          split
          · norm_num
          · have capped := Nat.min_le_right (Meteora.quoteLoop aToB meteora.binStep
              meteora.parameters meteora.vParameters meteora.binArrays 4096 amountIn 0
              meteora.activeId) u64Max
            exact lt_of_le_of_lt capped (by decide)
      · split
        · exact RouteExecution.xyKQuote_lt _ _ _ _
        · exact RouteExecution.xyKQuote_lt _ _ _ _

/-- A hop through a cached pool that trades its two tokens, put out at the pool's own
quote. -/
def QuotedHop (cache : PoolStateCache) (amountIn : Nat) (hop : Hop F) : Prop :=
  ∃ pool aToB, cache.get hop.pool = some pool ∧ Trades pool aToB hop.tokenIn hop.tokenOut ∧
    hop.amountOut = pool.quote powf now aToB amountIn

structure Profitable (cache : PoolStateCache) (fees : Nat) (route : RouteParams F) : Prop where
  closed : ∃ mint ∈ anchorTokens, Walk Hop.tokenIn Hop.tokenOut mint route.hops mint
  profit : ∃ last, Threaded (QuotedHop powf now cache) Hop.amountOut route.borrowAmount
      route.hops last ∧
    route.netProfit = last - route.borrowAmount - fees ∧ 0 < route.netProfit

theorem profitable_relabel (cache : PoolStateCache) (fees : Nat) (plain route : RouteParams F)
    (same : route = { plain with strategy := route.strategy, tier := route.tier })
    (profitable : Profitable powf now cache fees plain) :
    Profitable powf now cache fees route := by
  have hops : route.hops = plain.hops := by rw [same]
  have borrowed : route.borrowAmount = plain.borrowAmount := by rw [same]
  have nets : route.netProfit = plain.netProfit := by rw [same]
  constructor
  · rw [hops]
    exact profitable.closed
  · rw [hops, borrowed, nets]
    exact profitable.profit

/-- Every hop trades the tokens of its cached pool. -/
theorem mints_of_profitable (cache : PoolStateCache) (fees : Nat) (route : RouteParams F)
    (profitable : Profitable powf now cache fees route) (hop : Hop F) (member : hop ∈ route.hops)
    (pool : DexPool) (cached : cache.get hop.pool = some pool) :
    PairIndex.mints pool = s(hop.tokenIn, hop.tokenOut) := by
  rcases profitable.profit with ⟨last, threaded, -⟩
  rcases threaded_mem _ _ _ _ _ threaded hop member with
    ⟨amountIn, held, aToB, same, trades, -⟩
  rw [cached] at same
  rw [Option.some.inj same]
  exact mints_of_trades held aToB hop.tokenIn hop.tokenOut trades

end Quotes

/-- A gain below `2 ^ 63` is not lost in the signed subtraction of the fees. -/
theorem signedNet_eq (gross fees : Nat) (small : gross < 2 ^ 63) (low : fees < 2 ^ 62) :
    wrapI64 (wrapI64 gross - (fees : Nat)) = (gross : Int) - fees := by
  rw [wrapI64_of_bounds (gross : Int) (by omega) (by omega)]
  exact wrapI64_of_bounds _ (by omega) (by omega)

/-- A positive net profit is the plain difference: a wrap would have made it negative. -/
theorem signedNet_of_pos (gross fees : Nat) (small : gross < 2 ^ 64) (low : fees < 2 ^ 62)
    (positive : 0 < wrapI64 (wrapI64 gross - (fees : Nat))) :
    wrapI64 (wrapI64 gross - (fees : Nat)) = (gross : Int) - fees ∧ gross < 2 ^ 63 + fees := by
  have cast : wrapI64 (wrapI64 gross - (fees : Nat)) = wrapI64 (gross - fees) := by
    rw [wrapI64, wrapI64, wrapI64, Int.bmod_sub_bmod]
  rw [cast] at positive ⊢
  rcases Int.lt_or_le (gross - fees : Int) (2 ^ 63) with within | past
  · exact ⟨wrapI64_of_bounds _ (by omega) within, by omega⟩
  · rw [wrapI64_of_overflow _ past (by omega)] at positive
    omega

/-- And where the plain difference fits, it is the net profit. -/
theorem signedNet_of_fits (gross fees : Nat) (small : gross < 2 ^ 63 + fees) (low : fees < 2 ^ 62) :
    wrapI64 (wrapI64 gross - (fees : Nat)) = (gross : Int) - fees := by
  have cast : wrapI64 (wrapI64 gross - (fees : Nat)) = wrapI64 (gross - fees) := by
    rw [wrapI64, wrapI64, wrapI64, Int.bmod_sub_bmod]
  rw [cast]
  exact wrapI64_of_bounds _ (by omega) (by omega)

/-! The cap of 5 % in floats keeps an output below 106 % of what was borrowed. -/

theorem round_ratio_le : (Double.round (105 / 100)).value ≤ 105 / 100 * (1 + 1 / 2 ^ 53) :=
  Double.round_le _ (by norm_num)

theorem le_of_capped (borrowAmount last : Nat)
    (capped : lt (mul (ofNat borrowAmount) (maxReturnMultiplier : Double)) (ofNat last) = false) :
    100 * last ≤ 106 * borrowAmount := by
  have bound : (Double.round (last : ℚ)).value ≤
      (Double.round ((Double.round (borrowAmount : ℚ)).value *
        (Double.round (105 / 100)).value)).value :=
    not_lt.mp (of_decide_eq_false capped)
  have borrowed : (0 : ℚ) ≤ borrowAmount := Nat.cast_nonneg _
  have out : (0 : ℚ) ≤ last := Nat.cast_nonneg _
  have low := Double.le_round (last : ℚ) out
  have paid := Double.round_le (borrowAmount : ℚ) borrowed
  have product : (Double.round (borrowAmount : ℚ)).value * (Double.round (105 / 100)).value ≤
      borrowAmount * (1 + 1 / 2 ^ 53) * (105 / 100 * (1 + 1 / 2 ^ 53)) :=
    mul_le_mul paid round_ratio_le (Double.round_nonneg _ (by norm_num)) (by positivity)
  have positive : 0 ≤ (Double.round (borrowAmount : ℚ)).value * (Double.round (105 / 100)).value :=
    mul_nonneg (Double.round_nonneg _ borrowed) (Double.round_nonneg _ (by norm_num))
  have high := Double.round_le _ positive
  have final : (100 * last : ℚ) ≤ 106 * borrowAmount := by
    norm_num at low high product
    linarith
  exact_mod_cast final

theorem quotient_bounds (borrowAmount last : Nat) (some : 0 < borrowAmount) :
    (last : ℚ) * (1 - 1 / 2 ^ 53) ≤
      (Double.round (last : ℚ)).value / (Double.round (borrowAmount : ℚ)).value *
        (borrowAmount * (1 + 1 / 2 ^ 53)) ∧
    0 ≤ (Double.round (last : ℚ)).value / (Double.round (borrowAmount : ℚ)).value := by
  have borrowed : (0 : ℚ) < borrowAmount := Nat.cast_pos.mpr some
  have out : (0 : ℚ) ≤ last := Nat.cast_nonneg _
  have low := Double.le_round (last : ℚ) out
  have paid := Double.round_le (borrowAmount : ℚ) (le_of_lt borrowed)
  have positive : 0 < (Double.round (borrowAmount : ℚ)).value := by
    have least := Double.le_round (borrowAmount : ℚ) (le_of_lt borrowed)
    have scaled : 0 < (borrowAmount : ℚ) * (1 - 1 / 2 ^ 53) := mul_pos borrowed (by norm_num)
    linarith
  have nonneg := div_nonneg (Double.round_nonneg _ out) (le_of_lt positive)
  refine ⟨?_, nonneg⟩
  calc
    (last : ℚ) * (1 - 1 / 2 ^ 53) ≤ (Double.round (last : ℚ)).value := low
    _ = (Double.round (last : ℚ)).value / (Double.round (borrowAmount : ℚ)).value *
        (Double.round (borrowAmount : ℚ)).value := (div_mul_cancel₀ _ (ne_of_gt positive)).symm
    _ ≤ _ := mul_le_mul_of_nonneg_left paid nonneg

/-- The same cap on the ratio of the two. -/
theorem le_of_ratio_capped (borrowAmount last : Nat) (some : 0 < borrowAmount)
    (capped : lt (maxReturnMultiplier : Double) (div (ofNat last) (ofNat borrowAmount)) = false) :
    100 * last ≤ 106 * borrowAmount := by
  have bound : (Double.round ((Double.round (last : ℚ)).value /
      (Double.round (borrowAmount : ℚ)).value)).value ≤ (Double.round (105 / 100)).value :=
    not_lt.mp (of_decide_eq_false capped)
  rcases quotient_bounds borrowAmount last some with ⟨spread, nonneg⟩
  have low := Double.le_round _ nonneg
  have ratio := round_ratio_le
  generalize (Double.round (last : ℚ)).value / (Double.round (borrowAmount : ℚ)).value = quotient at *
  have small : quotient ≤ 1055 / 1000 := by
    norm_num at low ratio
    linarith
  have borrowed : (0 : ℚ) ≤ borrowAmount * (1 + 1 / 2 ^ 53) := by positivity
  have product := mul_le_mul_of_nonneg_right small borrowed
  have final : (100 * last : ℚ) ≤ 106 * borrowAmount := by
    norm_num at spread product
    linarith
  exact_mod_cast final

/-- A spread of at most 2000 basis points is one of at most twice the borrow. -/
theorem le_of_spread_capped (borrowAmount last : Nat) (some : 0 < borrowAmount)
    (capped : lt (ofNat 2000 : Double)
      (mul (sub (div (ofNat last) (ofNat borrowAmount)) (ofNat 1)) (ofNat 10000)) = false) :
    last ≤ 2 * borrowAmount := by
  by_contra more
  have twice : (2 * borrowAmount : ℚ) ≤ last := by exact_mod_cast Nat.le_of_not_le more
  have bound : (Double.round ((Double.round ((Double.round ((Double.round (last : ℚ)).value /
      (Double.round (borrowAmount : ℚ)).value)).value - (Double.round (1 : Nat)).value)).value *
        (Double.round (10000 : Nat)).value)).value ≤ (Double.round (2000 : Nat)).value :=
    not_lt.mp (of_decide_eq_false capped)
  rcases quotient_bounds borrowAmount last some with ⟨spread, nonneg⟩
  have low := Double.le_round _ nonneg
  generalize (Double.round (last : ℚ)).value / (Double.round (borrowAmount : ℚ)).value = quotient at *
  have borrowed : (0 : ℚ) < borrowAmount := Nat.cast_pos.mpr some
  have large : 199 / 100 ≤ quotient := by
    have scaled : (borrowAmount : ℚ) * (199 / 100) ≤ borrowAmount * quotient := by
      norm_num at spread
      linarith
    exact le_of_mul_le_mul_left scaled borrowed
  have one := Double.round_le ((1 : Nat) : ℚ) (Nat.cast_nonneg _)
  have scale := Double.le_round ((10000 : Nat) : ℚ) (Nat.cast_nonneg _)
  have limit := Double.round_le ((2000 : Nat) : ℚ) (Nat.cast_nonneg _)
  generalize (Double.round quotient).value = ratio at *
  have above : (98 : ℚ) / 100 ≤ ratio - (Double.round ((1 : Nat) : ℚ)).value := by
    norm_num at low one ⊢
    linarith
  have gain := Double.le_round _ (le_trans (by norm_num) above)
  generalize ratio - (Double.round ((1 : Nat) : ℚ)).value = part at *
  have points : (97 / 100 : ℚ) * 9999 ≤
      (Double.round part).value * (Double.round ((10000 : Nat) : ℚ)).value := by
    apply mul_le_mul _ _ (by norm_num)
    · exact Double.round_nonneg _ (le_trans (by norm_num) above)
    · norm_num at gain ⊢
      linarith
    · norm_num at scale ⊢
      linarith
  have rounded := Double.le_round _ (le_trans (by norm_num) points)
  norm_num at rounded points limit bound
  linarith

/-! The two-pool scans. -/

section TwoHops

variable (powf : Double → Double → Double) (now : Instant) (cache : PoolStateCache)
  (keyed : ∀ address pool, cache.get address = some pool → pool.poolAddress = address)

theorem netProfit_of_built {F : Type} [FloatArith F] (powf : F → F → F) (first : DexPool)
    (firstAToB : Bool) (second : DexPool) (secondAToB : Bool) (tokenIn tokenMid : Pubkey)
    (borrowAmount : Nat) (route : RouteParams F)
    (built : twoHopRoute powf now first firstAToB second secondAToB tokenIn tokenMid borrowAmount =
      some route) :
    route.netProfit = netProfit (second.quote powf now secondAToB
      (first.quote powf now firstAToB borrowAmount) - borrowAmount) := by
  simp only [twoHopRoute, Option.ite_none_left_eq_some] at built
  rcases built with ⟨-, -, -, -, -, same⟩
  rw [← Option.some.inj same]

include keyed in
theorem cached_of_member (pool : DexPool) (member : pool ∈ HashMap.values cache.inner) :
    cache.get pool.poolAddress = some pool := by
  rcases (HashMap.mem_values cache.inner pool).mp member with ⟨address, found⟩
  rw [keyed address pool found]
  exact found

theorem isAnchor_mem (token : Pubkey) (anchor : isAnchor token = true) : token ∈ anchorTokens :=
  of_decide_eq_true anchor

theorem tokens_of_pairKey (pool : DexPool) (key : Pubkey × Pubkey)
    (ofPair : pairKey pool.tokenA pool.tokenB = key) :
    (pool.tokenA = key.1 ∧ pool.tokenB = key.2) ∨ (pool.tokenB = key.1 ∧ pool.tokenA = key.2) := by
  rw [pairKey] at ofPair
  split at ofPair
  · rw [← ofPair]
    exact Or.inl ⟨rfl, rfl⟩
  · rw [← ofPair]
    exact Or.inr ⟨rfl, rfl⟩

include keyed in
/-- There on one pool and back on the other. -/
theorem profitable_twoHop (first second : DexPool) (firstAToB secondAToB : Bool)
    (mint tokenMid : Pubkey) (borrowAmount : Nat) (route : RouteParams Double)
    (anchor : isAnchor mint = true) (firstIn : first ∈ HashMap.values cache.inner)
    (secondIn : second ∈ HashMap.values cache.inner) (there : Trades first firstAToB mint tokenMid)
    (back : Trades second secondAToB tokenMid mint)
    (built : twoHopRoute powf now first firstAToB second secondAToB mint tokenMid borrowAmount =
      some route) :
    Profitable powf now cache (txFeePerHop * 2) route := by
  have spec := twoHopRoute_spec powf now first firstAToB second secondAToB mint tokenMid
    borrowAmount route built
  rcases spec.hops with ⟨firstHop, secondHop, hops, firstPool, -, firstTokenIn, firstTokenOut,
    firstOut, secondPool, -, secondTokenIn, secondTokenOut, secondOut⟩
  have nets := netProfit_of_built now powf first firstAToB second secondAToB mint tokenMid
    borrowAmount route built
  have gains := spec.gains
  have positive := spec.nets
  have out := quote_lt powf now second secondAToB (first.quote powf now firstAToB borrowAmount)
  have capped := le_of_capped borrowAmount _ spec.capped
  rw [firstOut.symm] at nets gains positive out capped secondOut
  rw [secondOut.symm] at nets gains positive out capped
  have exactly : netProfit (secondHop.amountOut - borrowAmount) =
      ((secondHop.amountOut - borrowAmount : Nat) : Int) - (txFeePerHop * 2 : Nat) :=
    signedNet_eq _ _ (by omega) (by decide)
  constructor
  · refine ⟨mint, isAnchor_mem mint anchor, ?_⟩
    rw [hops]
    exact ⟨firstTokenIn, secondTokenIn.trans firstTokenOut.symm, secondTokenOut⟩
  · refine ⟨secondHop.amountOut, ?_, ?_, ?_⟩
    · rw [hops, spec.borrowed]
      refine ⟨⟨first, firstAToB, ?_, ?_, firstOut⟩, ⟨second, secondAToB, ?_, ?_, secondOut⟩, rfl⟩
      · rw [firstPool]
        exact cached_of_member cache keyed first firstIn
      · rw [firstTokenIn, firstTokenOut]
        exact there
      · rw [secondPool]
        exact cached_of_member cache keyed second secondIn
      · rw [secondTokenIn, secondTokenOut]
        exact back
    · rw [nets, exactly, spec.borrowed]
      omega
    · rw [nets]
      exact positive

include keyed in
theorem profitable_of_found (passes : DexPool → Bool) (route : RouteParams Double)
    (found : Found powf now cache passes route) :
    Profitable powf now cache (txFeePerHop * 2) route := by
  rcases found with ⟨key, high, low, borrowAmounts, divergenceBps, plain, highIn, lowIn, built, same⟩
  have trades : ∀ rate : PoolRate Double, Candidate cache passes key rate →
      Trades rate.pool rate.canonicalOrder key.1 key.2 := by
    intro rate candidate
    rw [candidate.order]
    exact trades_of_pair rate.pool key.1 key.2 (tokens_of_pairKey rate.pool key candidate.ofPair)
  apply profitable_relabel powf now cache _ plain route same
  rcases built with ⟨anchor, forward⟩ | ⟨anchor, reverse⟩
  · rcases List.mem_filterMap.mp forward with ⟨borrowAmount, -, built⟩
    rw [buildCrossDexRoute, Option.ite_none_left_eq_some] at built
    exact profitable_twoHop powf now cache keyed high.pool low.pool _ _ key.1 key.2 borrowAmount
      plain anchor highIn.cached lowIn.cached (trades high highIn)
      (trades_back _ _ _ _ (trades low lowIn)) built.2
  · rcases List.mem_filterMap.mp reverse with ⟨borrowAmount, -, built⟩
    exact profitable_twoHop powf now cache keyed low.pool high.pool _ _ key.2 key.1 borrowAmount
      plain anchor lowIn.cached highIn.cached (trades_back _ _ _ _ (trades low lowIn))
      (trades high highIn) built

end TwoHops

end Helios.ScannedRoutes
