import Helios.Executability
import Helios.FloatRounding
import Helios.RouteExecution
import Helios.SeedBytes

/-! When a route that pays 95 % of each quote on still pays its borrow back. -/

namespace Helios.RouteExecution

open CrossDex HeliosProgram Machine TxBuilder

section Claim

variable {F : Type} [FloatArith F] (powf : F → F → F) (now : Instant) (builder : TxBuilder)
variable {State : Type} (runtime : Runtime State) (wallet : State → Wallet)

theorem plainRoute_of_returned (cache : PoolStateCache) (buyPool sellPool : DexPool)
    (tokenA tokenB : Pubkey) (borrowAmount divergenceBps : Nat) (route : RouteParams F)
    (returned : buildCrossDexRoute powf now buyPool (decide (buyPool.tokenA = tokenA)) sellPool
      (decide (sellPool.tokenA = tokenA)) tokenA tokenB borrowAmount divergenceBps = some route)
    (small : borrowAmount < 2 ^ 64) (buyPlain : buyPool.IsXyK) (sellPlain : sellPool.IsXyK)
    (buyCached : cache.get buyPool.poolAddress = some buyPool)
    (sellCached : cache.get sellPool.poolAddress = some sellPool) :
    borrowAmount ≠ 0 ∧ ∃ firstHop secondHop,
      PlainRoute now cache buyPool sellPool tokenA tokenB borrowAmount route firstHop secondHop := by
  rw [buildCrossDexRoute, Option.ite_none_left_eq_some] at returned
  have spec := twoHopRoute_spec powf now _ _ _ _ _ _ _ _ returned.2
  rcases spec.hops with ⟨firstHop, secondHop, hops, firstPool, firstProgram, firstIn, firstOut,
    firstAmount, secondPool, secondProgram, secondIn, secondOut, -⟩
  constructor
  · intro zero
    have gains := spec.gains
    rw [quote_of_isXyK powf _ _ _ _ sellPlain, quote_of_isXyK powf _ _ _ _ buyPlain, zero,
      xyQuote_zero, xyQuote_zero] at gains
    exact Nat.lt_irrefl 0 gains
  · refine ⟨firstHop, secondHop, ⟨hops, spec.borrowed, small, buyPlain, sellPlain, ?_, ?_,
      firstProgram, secondProgram, firstIn, firstOut, secondIn, secondOut, ?_⟩⟩
    · rw [firstPool]
      exact buyCached
    · rw [secondPool]
      exact sellCached
    · rw [firstAmount, quote_of_isXyK powf _ _ _ _ buyPlain]

/-- The program accepts the route, and the user has lost nothing, exactly when
the discounted second swap covers the borrow; otherwise it ends in
`InsufficientProfit`. -/
theorem route_keeps_balance_iff (authority : Pubkey) (cache : PoolStateCache)
    (tokenPrograms : HashMap Pubkey Pubkey) (user : Pubkey) (buyPool sellPool : DexPool)
    (tokenA tokenB : Pubkey) (borrowAmount divergenceBps : Nat) (route : RouteParams F)
    (returned : buildCrossDexRoute powf now buyPool (decide (buyPool.tokenA = tokenA)) sellPool
      (decide (sellPool.tokenA = tokenA)) tokenA tokenB borrowAmount divergenceBps = some route)
    (small : borrowAmount < 2 ^ 64) (buyPlain : buyPool.IsXyK) (sellPlain : sellPool.IsXyK)
    (buyCached : cache.get buyPool.poolAddress = some buyPool)
    (sellCached : cache.get sellPool.poolAddress = some sellPool) (ix : Instruction)
    (assembled : builder.buildHeliosInstruction powf route user cache tokenPrograms = .ok ix)
    (swaps : SwapsAsQuoted powf now builder runtime wallet cache tokenPrograms route)
    (read : ∀ state, runtime.tokenAmount state user = some (wallet state tokenA))
    (infos : List AccountInfo)
    (presents : Presents (initializeConfig authority) (ix.accounts.drop 4) infos) (start : State)
    (funded : borrowAmount ≤ wallet start tokenA) (fits : wallet start tokenA ≤ u64Max) :
    ∃ args, decodeHeliosFlashArbArgs ix = some args ∧
      ((∃ after profit, executeRouteOnly runtime (initializeConfig authority) user infos
          args.minProfit args.hopAccountCounts args.hopData start = .ok (after, profit) ∧
          wallet start tokenA ≤ wallet after tokenA) ↔
        DiscountCovered buyPool sellPool now tokenA tokenB borrowAmount) ∧
      (executeRouteOnly runtime (initializeConfig authority) user infos args.minProfit
          args.hopAccountCounts args.hopData start = .error (.helios .insufficientProfit) ↔
        ¬ DiscountCovered buyPool sellPool now tokenA tokenB borrowAmount) := by
  rcases plainRoute_of_returned powf now cache buyPool sellPool tokenA tokenB borrowAmount
    divergenceBps route returned small buyPlain sellPlain buyCached sellCached with
    ⟨borrows, firstHop, secondHop, plain⟩
  rcases buildHeliosInstruction_ok powf builder cache route user tokenPrograms ix assembled with
    ⟨hops, built, accounts, data⟩
  have readable := flashArbArgs_fits powf builder cache tokenPrograms route hops
    (plain.borrowed.symm ▸ plain.small) (by rw [plain.hops]; norm_num) built
  rw [accounts] at presents
  rcases executeHops_balance powf now builder runtime wallet authority cache tokenPrograms buyPool
    sellPool tokenA tokenB borrowAmount route firstHop secondHop plain swaps hops built infos
    presents start funded with ⟨after, ran, left⟩
  have outcome := executeWithCheck_of_hops runtime (initializeConfig authority) user infos 0
    (flashArbArgs route hops).hopAccountCounts (flashArbArgs route hops).hopData start after
    (wallet start tokenA) (wallet after tokenA) (read start) ran (read after) fits
  have covers : wallet start tokenA ≤ wallet after tokenA ↔
      DiscountCovered buyPool sellPool now tokenA tokenB borrowAmount := by
    rw [left, balanceAfter, DiscountCovered]
    omega
  refine ⟨flashArbArgs route hops, decode_of_built route hops ix data readable
    (plain.borrowed ▸ borrows), ?_, ?_⟩
  · rw [executeRouteOnly, flashArbArgs]
    dsimp only [flashArbArgs] at outcome
    rw [outcome, Nat.add_zero, ← covers]
    constructor
    · rintro ⟨final, profit, accepted, kept⟩
      split at accepted
      · cases accepted
      · cases accepted
        exact kept
    · intro kept
      exact ⟨after, _, if_neg (not_lt.mpr kept), kept⟩
  · rw [executeRouteOnly, flashArbArgs]
    dsimp only [flashArbArgs] at outcome
    rw [outcome, Nat.add_zero, ← covers, not_le]
    constructor
    · intro refused
      split at refused
      · next less => exact less
      · cases refused
    · exact fun less => if_pos less

end Claim

/-! On polled reserves the cap on the return and the cap on the impact leave no
route whose discounted second swap covers the borrow. -/

section Polled

/-- `x * y = k` in the rationals. Selling 95 % of `mid` pays at least the borrow
only if all of `mid` pays 5.25 % more, since the impact is at most 5 %. -/
theorem discount_loses (borrow rIn rOut fee mid sold final : ℚ) (rInPositive : 0 < rIn)
    (feeNonneg : 0 ≤ fee) (feeLe : fee ≤ 10000) (midNonneg : 0 ≤ mid) (soldNonneg : 0 ≤ sold)
    (discount : 100 * sold ≤ 95 * mid)
    (covered : borrow * (rIn * 10000 + sold * fee) ≤ sold * fee * rOut)
    (floor : mid * fee * rOut < (final + 1) * (rIn * 10000 + mid * fee))
    (impact : mid * 100 ≤ 5 * rIn * (1 + 1 / 10 ^ 12))
    (capped : final ≤ 105 / 100 * borrow * (1 + 1 / 10 ^ 12))
    (nets : borrow + 10000 < final) : False := by
  have large : 199000 < borrow := by
    linarith
  have depth : 0 < rIn * 10000 := by
    positivity
  have paid : mid * fee ≤ 5 / 100 * (rIn * 10000) * (1 + 1 / 10 ^ 12) := by
    have scaled : mid * fee ≤ mid * 10000 := mul_le_mul_of_nonneg_left feeLe midNonneg
    linarith
  have paidNonneg : 0 ≤ mid * fee := mul_nonneg midNonneg feeNonneg
  have beyond : borrow < rOut := by
    by_contra small
    have less : sold * fee * (rOut - borrow) ≤ 0 :=
      mul_nonpos_of_nonneg_of_nonpos (mul_nonneg soldNonneg feeNonneg) (by linarith)
    have whole : 0 < borrow * (rIn * 10000) := mul_pos (by linarith) depth
    linarith
  have full : 100 * (borrow * (rIn * 10000)) + 95 * borrow * (mid * fee) ≤
      95 * (mid * fee * rOut) := by
    have part : 100 * sold * (fee * (rOut - borrow)) ≤ 95 * mid * (fee * (rOut - borrow)) :=
      mul_le_mul_of_nonneg_right discount (mul_nonneg feeNonneg (by linarith))
    linarith
  have ratio : final + 1 ≤ borrow * (1050006 / 1000000) := by
    linarith
  have above : 95 * (final + 1) * (rIn * 10000 + mid * fee) ≤
      95 * (borrow * (1050006 / 1000000)) * (rIn * 10000 + mid * fee) :=
    mul_le_mul_of_nonneg_right (by linarith) (by linarith)
  have short : borrow * (100 * (rIn * 10000) + 95 * (mid * fee)) <
      borrow * (95 * (1050006 / 1000000) * (rIn * 10000 + mid * fee)) := by
    linarith
  have cancelled := lt_of_mul_lt_mul_left short (by linarith)
  linarith

/-- The checked impact bounds the true one up to rounding. -/
theorem impact_bound (mid reserve : Nat) (some : 0 < reserve)
    (checked : FloatArith.lt (maxImpactPct : Double)
      (FloatArith.mul (FloatArith.div (FloatArith.ofNat mid) (FloatArith.ofNat reserve))
        (FloatArith.ofNat 100)) = false) :
    (mid : ℚ) * 100 ≤ 5 * reserve * (1 + 1 / 10 ^ 12) := by
  have order : (Double.round ((Double.round ((Double.round (mid : ℚ)).value /
      (Double.round (reserve : ℚ)).value)).value * (Double.round ((100 : Nat) : ℚ)).value)).value ≤
      (Double.round ((5 : Nat) : ℚ)).value := not_lt.mp (of_decide_eq_false checked)
  have positive : (0 : ℚ) < reserve := by exact_mod_cast some
  have top := Double.round_le ((5 : Nat) : ℚ) (by norm_num)
  have midLow := Double.le_round (mid : ℚ) (by positivity)
  have reserveHigh := Double.round_le (reserve : ℚ) (le_of_lt positive)
  have reservePositive : 0 < (Double.round (reserve : ℚ)).value :=
    lt_of_lt_of_le (by positivity) (Double.le_round (reserve : ℚ) (le_of_lt positive))
  have hundredLow := Double.le_round ((100 : Nat) : ℚ) (by norm_num)
  have quotientNonneg : 0 ≤ (Double.round (mid : ℚ)).value / (Double.round (reserve : ℚ)).value :=
    div_nonneg (Double.round_nonneg _ (by positivity)) (le_of_lt reservePositive)
  have quotientLow := Double.le_round _ quotientNonneg
  have ratio : (mid : ℚ) * (1 - 1 / 2 ^ 53) / (reserve * (1 + 1 / 2 ^ 53)) ≤
      (Double.round (mid : ℚ)).value / (Double.round (reserve : ℚ)).value :=
    div_le_div₀ (Double.round_nonneg _ (by positivity)) midLow reservePositive reserveHigh
  have product : (mid : ℚ) * (1 - 1 / 2 ^ 53) / (reserve * (1 + 1 / 2 ^ 53)) * (1 - 1 / 2 ^ 53) *
      (100 * (1 - 1 / 2 ^ 53)) ≤
      (Double.round ((Double.round (mid : ℚ)).value / (Double.round (reserve : ℚ)).value)).value *
        (Double.round ((100 : Nat) : ℚ)).value := by
    apply mul_le_mul _ hundredLow (by norm_num) (Double.round_nonneg _ quotientNonneg)
    exact le_trans (mul_le_mul_of_nonneg_right ratio (by norm_num)) quotientLow
  have low := Double.le_round _ (mul_nonneg (Double.round_nonneg _ quotientNonneg)
    (Double.round_nonneg ((100 : Nat) : ℚ) (by norm_num)))
  have chain : (mid : ℚ) * (1 - 1 / 2 ^ 53) / (reserve * (1 + 1 / 2 ^ 53)) * (1 - 1 / 2 ^ 53) *
      (100 * (1 - 1 / 2 ^ 53)) * (1 - 1 / 2 ^ 53) ≤ 5 * (1 + 1 / 2 ^ 53) := by
    calc
      _ ≤ _ * (1 - 1 / 2 ^ 53) := mul_le_mul_of_nonneg_right product (by norm_num)
      _ ≤ _ := low
      _ ≤ _ := order
      _ ≤ _ := top
  have cleared : (mid : ℚ) * 100 * ((1 - 1 / 2 ^ 53) ^ 4 / (1 + 1 / 2 ^ 53)) ≤
      5 * (1 + 1 / 2 ^ 53) * reserve := by
    rw [← div_le_iff₀ positive]
    calc
      _ = (mid : ℚ) * (1 - 1 / 2 ^ 53) / (reserve * (1 + 1 / 2 ^ 53)) * (1 - 1 / 2 ^ 53) *
          (100 * (1 - 1 / 2 ^ 53)) * (1 - 1 / 2 ^ 53) := by
        field_simp
      _ ≤ _ := chain
  have midNonneg : (0 : ℚ) ≤ mid := by positivity
  norm_num at cleared ⊢
  linarith

/-- The checked cap bounds the true return up to rounding. -/
theorem return_bound (borrow final : Nat)
    (checked : FloatArith.lt (FloatArith.mul (FloatArith.ofNat borrow) (maxReturnMultiplier : Double))
      (FloatArith.ofNat final) = false) :
    (final : ℚ) ≤ 105 / 100 * borrow * (1 + 1 / 10 ^ 12) := by
  have order : (Double.round (final : ℚ)).value ≤ (Double.round ((Double.round (borrow : ℚ)).value *
      (Double.round (105 / 100)).value)).value := not_lt.mp (of_decide_eq_false checked)
  have finalLow := Double.le_round (final : ℚ) (by positivity)
  have borrowHigh := Double.round_le (borrow : ℚ) (by positivity)
  have borrowNonneg := Double.round_nonneg (borrow : ℚ) (by positivity)
  have multiplierHigh := Double.round_le (105 / 100) (by norm_num)
  have multiplierNonneg := Double.round_nonneg (105 / 100) (by norm_num)
  have productHigh := Double.round_le _ (mul_nonneg borrowNonneg multiplierNonneg)
  have product : (Double.round (borrow : ℚ)).value * (Double.round (105 / 100)).value ≤
      borrow * (1 + 1 / 2 ^ 53) * (105 / 100 * (1 + 1 / 2 ^ 53)) :=
    mul_le_mul borrowHigh multiplierHigh multiplierNonneg (by positivity)
  have chain : (final : ℚ) * (1 - 1 / 2 ^ 53) ≤
      borrow * (1 + 1 / 2 ^ 53) * (105 / 100 * (1 + 1 / 2 ^ 53)) * (1 + 1 / 2 ^ 53) := by
    calc
      _ ≤ _ := finalLow
      _ ≤ _ := order
      _ ≤ _ := productHigh
      _ ≤ _ := mul_le_mul_of_nonneg_right product (by norm_num)
  have whole : (0 : ℚ) ≤ borrow := by positivity
  norm_num at chain ⊢
  linarith

theorem xyQuote_polled (pool : DexPool) (now : Instant) (aToB : Bool) (amountIn : Nat)
    (polled : pool.effectiveReserves now = (pool.reserveA, pool.reserveB)) :
    xyQuote pool now aToB amountIn =
      if pool.reserveA = 0 ∨ pool.reserveB = 0 then 0
      else DexPool.xyKQuote (reserveIn pool aToB) (reserveIn pool (!aToB)) pool.feeBps amountIn := by
  rw [xyQuote, polled]
  cases aToB with
  | false => rfl
  | true => rfl

theorem netProfit_positive (gross : Nat) (small : gross < 2 ^ 63) (nets : 0 < netProfit gross) :
    10000 < gross := by
  have bound : (gross : Int) < 2 ^ 63 := by exact_mod_cast small
  rw [netProfit, wrapI64_of_bounds gross (by omega) bound, txFeePerHop,
    wrapI64_of_bounds _ (by push_cast; omega) (by push_cast; omega)] at nets
  push_cast at nets
  omega

/-- Where the sell pool quotes from its polled reserves and no product
overflows, every route the scanner returns loses: the code then never does what
it set out to do. -/
theorem polled_route_never_covered (powf : Double → Double → Double) (now : Instant)
    (buyPool sellPool : DexPool) (tokenA tokenB : Pubkey) (borrowAmount divergenceBps : Nat)
    (route : RouteParams Double)
    (returned : buildCrossDexRoute powf now buyPool (decide (buyPool.tokenA = tokenA)) sellPool
      (decide (sellPool.tokenA = tokenA)) tokenA tokenB borrowAmount divergenceBps = some route)
    (buyPlain : buyPool.IsXyK) (sellPlain : sellPool.IsXyK)
    (direction : decide (sellPool.tokenA = tokenB) = !decide (sellPool.tokenA = tokenA))
    (polled : sellPool.effectiveReserves now = (sellPool.reserveA, sellPool.reserveB))
    (fee : sellPool.feeBps ≤ 10000) (smallA : sellPool.reserveA < 2 ^ 64)
    (smallB : sellPool.reserveB < 2 ^ 64)
    (unwrapped : xyQuote buyPool now (decide (buyPool.tokenA = tokenA)) borrowAmount * 10000 *
      max sellPool.reserveA sellPool.reserveB < 2 ^ 128) :
    ¬ DiscountCovered buyPool sellPool now tokenA tokenB borrowAmount := by
  intro covered
  rw [buildCrossDexRoute, Option.ite_none_left_eq_some] at returned
  have spec := twoHopRoute_spec powf now _ _ _ _ _ _ _ _ returned.2
  have gains := spec.gains
  have impact := spec.secondImpact
  have capped := spec.capped
  have nets := spec.nets
  rw [quote_of_isXyK powf _ _ _ _ sellPlain, quote_of_isXyK powf _ _ _ _ buyPlain] at gains capped nets
  rw [quote_of_isXyK powf _ _ _ _ buyPlain] at impact
  rw [← direction] at gains impact capped nets
  rw [DiscountCovered] at covered
  generalize decide (sellPool.tokenA = tokenB) = aToB at *
  have midSmall := xyQuote_lt buyPool now (decide (buyPool.tokenA = tokenA)) borrowAmount
  generalize xyQuote buyPool now (decide (buyPool.tokenA = tokenA)) borrowAmount = mid at *
  rw [xyQuote_polled sellPool now aToB _ polled] at gains capped nets covered
  have funded : ¬ (sellPool.reserveA = 0 ∨ sellPool.reserveB = 0) := by
    intro empty
    rw [if_pos empty] at gains
    exact Nat.not_lt_zero _ gains
  rw [if_neg funded] at gains capped nets covered
  have inBounds : 0 < reserveIn sellPool aToB ∧ reserveIn sellPool aToB < 2 ^ 64 := by
    cases aToB with
    | false => exact ⟨Nat.pos_of_ne_zero (fun zero => funded (Or.inr zero)), smallB⟩
    | true => exact ⟨Nat.pos_of_ne_zero (fun zero => funded (Or.inl zero)), smallA⟩
  have outBounds : reserveIn sellPool (!aToB) < 2 ^ 64 ∧
      reserveIn sellPool (!aToB) ≤ max sellPool.reserveA sellPool.reserveB := by
    cases aToB with
    | false => exact ⟨smallA, Nat.le_max_left _ _⟩
    | true => exact ⟨smallB, Nat.le_max_right _ _⟩
  generalize reserveIn sellPool (!aToB) = rOut at *
  rw [priceImpact, Nat.max_eq_left inBounds.1] at impact
  generalize reserveIn sellPool aToB = rIn at *
  have soldLe := discounted_le mid
  have soldDiscount : 100 * (saturatingMul64 mid 95 / 100) ≤ 95 * mid := by
    have less : min (mid * 95) u64Max ≤ mid * 95 := Nat.min_le_left _ _
    rw [saturatingMul64]
    omega
  have midUnwrapped : mid * 10000 * rOut < 2 ^ 128 :=
    lt_of_le_of_lt (Nat.mul_le_mul_left _ outBounds.2) unwrapped
  have soldUnwrapped : saturatingMul64 mid 95 / 100 * 10000 * rOut < 2 ^ 128 :=
    lt_of_le_of_lt (Nat.mul_le_mul_right _ (Nat.mul_le_mul_right _ soldLe)) midUnwrapped
  generalize saturatingMul64 mid 95 / 100 = sold at *
  rw [DexPool.xyKQuote_eq rIn rOut sellPool.feeBps mid fee inBounds.2 outBounds.1 midSmall
    midUnwrapped]
    at gains capped nets
  rw [DexPool.xyKQuote_eq rIn rOut sellPool.feeBps sold fee inBounds.2 outBounds.1
    (lt_of_le_of_lt soldLe midSmall) soldUnwrapped] at covered
  have depth : 0 < rIn * 10000 := Nat.mul_pos inBounds.1 (by norm_num)
  have feeLe : 10000 - sellPool.feeBps ≤ 10000 := Nat.sub_le _ _
  generalize 10000 - sellPool.feeBps = factor at *
  have returnBound := return_bound borrowAmount _ capped
  have finalSmall : mid * factor * rOut / (rIn * 10000 + mid * factor) ≤ rOut := by
    apply Nat.div_le_of_le_mul
    exact Nat.mul_le_mul_right rOut (Nat.le_add_left _ _)
  have soldCovered : borrowAmount * (rIn * 10000 + sold * factor) ≤ sold * factor * rOut :=
    (Nat.le_div_iff_mul_le (Nat.add_pos_left depth _)).mp covered
  have finalFloor : mid * factor * rOut <
      (mid * factor * rOut / (rIn * 10000 + mid * factor) + 1) * (rIn * 10000 + mid * factor) :=
    lt_of_lt_of_eq (Nat.lt_mul_div_succ _ (Nat.add_pos_left depth _)) (Nat.mul_comm _ _)
  generalize mid * factor * rOut / (rIn * 10000 + mid * factor) = final at *
  have grossSmall : final - borrowAmount < 2 ^ 63 := by
    by_contra large
    have far : borrowAmount + 2 ^ 63 ≤ final := by omega
    have borrowSmall : borrowAmount < 2 ^ 64 := by omega
    have far : (borrowAmount : ℚ) + 2 ^ 63 ≤ final := by exact_mod_cast far
    have borrowSmall : (borrowAmount : ℚ) < 2 ^ 64 := by exact_mod_cast borrowSmall
    linarith
  have gross := netProfit_positive _ grossSmall nets
  exact discount_loses borrowAmount rIn rOut factor mid sold final (by exact_mod_cast inBounds.1)
    (by positivity) (by exact_mod_cast feeLe) (by positivity) (by positivity)
    (by exact_mod_cast soldDiscount) (by exact_mod_cast soldCovered) (by exact_mod_cast finalFloor)
    (impact_bound mid rIn inBounds.1 impact) returnBound
    (by
      have sum : borrowAmount + 10000 < final := by omega
      exact_mod_cast sum)

end Polled

/-! A runtime in which Raydium pools swap as they quote, over token accounts kept
under the mint itself. -/

section Raydium

variable {F : Type} [FloatArith F] (powf : F → F → F)

/-- Raydium's account layout: the pool third, the user's two accounts before the
signer at the end. -/
def raydiumRuntime (cache : PoolStateCache) (now : Instant) : Runtime Wallet where
  invoke wallet ix infos :=
    match (infos.map AccountInfo.key)[2]?.bind cache.get, (infos.map AccountInfo.key)[15]?,
      (infos.map AccountInfo.key)[16]? with
    | some pool, some source, some destination =>
        let spent := encodedAmountIn (DexType.fromProgramId ix.programId) ix.data
        if spent ≤ wallet source then
          .ok (swapped wallet source destination spent
            (xyQuote pool now (decide (source = pool.tokenA)) spent))
        else .error (.runtime 1)
    | _, _, _ => .error (.runtime 0)
  tokenAmount wallet account := some (wallet account)

/-- Derives every token account as its mint. -/
def mintBuilder : TxBuilder :=
  ⟨.ofNat 7, .ofNat 8, fun seeds _ => some (Pubkey.ofBytes (seeds.getLastD []))⟩

theorem mintBuilder_account (owner mint program : Pubkey) :
    mintBuilder.associatedTokenAddressWithProgram owner mint program = .ok mint :=
  congrArg Except.ok (ofBytes_toBytes mint)

theorem raydiumRuntime_swaps (cache : PoolStateCache) (now : Instant)
    (tokenPrograms : HashMap Pubkey Pubkey) (route : RouteParams F)
    (raydium : ∀ hop ∈ route.hops, ∀ pool, cache.get hop.pool = some pool →
      pool.dexType = .raydiumAmmV4 ∧ pool.IsXyK ∧ hop.dexProgram = dexProgramFor .raydiumAmmV4) :
    SwapsAsQuoted powf now mintBuilder (raydiumRuntime cache now) id cache tokenPrograms route := by
  intro hop member pool cached hopIdx amountIn built done program others keys wallet funded
  rcases raydium hop member pool cached with ⟨_, plain, programIs⟩
  have spec := hopBuilt_of_ok powf mintBuilder cache tokenPrograms hopIdx amountIn hop pool built
    cached done
  rcases spec.accounts with ⟨ctx, sameHop, samePool, source, destination, listed⟩
  have dex : DexType.fromProgramId hop.dexProgram = .raydiumAmmV4 := by
    rw [programIs, fromProgramId_dexProgramFor]
  rw [mintBuilder_account] at source destination
  rw [dex] at listed
  simp only [hopAccounts, raydiumAccounts] at listed
  split at listed
  · cases listed
  · split at listed
    · have shape := (Except.ok.inj listed).symm
      rw [shape] at keys
      have first : program.key = hop.dexProgram := by
        rw [List.map_cons, List.map_cons, List.cons.injEq] at keys
        rw [keys.1, sameHop]
        rfl
      refine ⟨swapped wallet hop.tokenIn hop.tokenOut _ _, ?_, rfl⟩
      rw [id_eq] at funded
      simp only [raydiumRuntime, keys, hopInstruction, first]
      simp only [List.map_cons, List.getElem?_cons_succ, List.getElem?_cons_zero,
        AccountMeta.new, sameHop, Option.bind_some, cached, ← Except.ok.inj source,
        ← Except.ok.inj destination]
      rw [if_pos funded, ← quote_of_isXyK powf pool now _ _ plain]
    · cases listed

end Raydium

/-! Two hydrated Raydium pools 3 % apart, and a borrow of one WSOL. -/

section Sample

open Executability PairIndex Runs

def hydratedPool (address reserveB : Nat) : DexPool := wsolPool address reserveB (.ofNat 30)

def buySample : DexPool := hydratedPool 1 (103 * 10 ^ 11)

def sellSample : DexPool := hydratedPool 2 (10 ^ 13)

def pairCache : PoolStateCache :=
  run (applyOp firstArgument) PoolStateCache.new [.upsert buySample, .upsert sellSample]

def sampleWallet : Wallet := fun token => if token = wsol then 10 ^ 9 else 0

def sampleReturned : Option (RouteParams Double) :=
  buildCrossDexRoute firstArgument 0 buySample (decide (buySample.tokenA = wsol)) sellSample
    (decide (sellSample.tokenA = wsol)) wsol (.ofNat (2 ^ 255)) (10 ^ 9) 300

def presented (ix : Instruction) : List AccountInfo :=
  (ix.accounts.drop 4).map (fun account =>
    ⟨account.pubkey, account.isSigner, account.isWritable, true⟩)

def refusal {Result : Type} : Except ProgramError Result → Option ProgramError
  | .error failed => some failed
  | .ok _ => none

theorem eq_error_of_refusal {Result : Type} (outcome : Except ProgramError Result)
    (failed : ProgramError) (refused : refusal outcome = some failed) :
    outcome = .error failed := by
  cases outcome with
  | error other => rw [Option.some.inj refused]
  | ok result => cases refused

/-- The route, its instruction, and how the program ends on it. -/
def sampleOutcome : Option ProgramError := do
  let route ← sampleReturned
  let ix ← (mintBuilder.buildHeliosInstruction firstArgument route wsol pairCache
    HashMap.empty).toOption
  let args ← decodeHeliosFlashArbArgs ix
  refusal (executeRouteOnly (raydiumRuntime pairCache 0) (initializeConfig default) wsol
    (presented ix) args.minProfit args.hopAccountCounts args.hopData sampleWallet)

theorem sampleOutcome_refused :
    sampleOutcome = some (.helios .insufficientProfit) := by
  decide +kernel

theorem buySample_plain : buySample.IsXyK := ⟨rfl, rfl⟩

theorem sellSample_plain : sellSample.IsXyK := ⟨rfl, rfl⟩

theorem buySample_cached : pairCache.get buySample.poolAddress = some buySample := by
  decide +kernel

theorem sellSample_cached : pairCache.get sellSample.poolAddress = some sellSample := by
  decide +kernel

theorem sample_swaps (route : RouteParams Double) (returned : sampleReturned = some route) :
    SwapsAsQuoted firstArgument 0 mintBuilder (raydiumRuntime pairCache 0) id pairCache
      HashMap.empty route := by
  rcases plainRoute_of_returned firstArgument 0 pairCache buySample sellSample wsol
    (.ofNat (2 ^ 255)) (10 ^ 9) 300 route returned (by norm_num) buySample_plain sellSample_plain
    buySample_cached sellSample_cached with ⟨_, firstHop, secondHop, plain⟩
  apply raydiumRuntime_swaps
  intro hop member pool cached
  rw [plain.hops] at member
  rcases List.mem_cons.mp member with here | later
  · rw [here, plain.buyCached] at cached
    rw [← Option.some.inj cached, here]
    exact ⟨rfl, buySample_plain, plain.buyProgram⟩
  · rw [List.mem_singleton.mp later, plain.sellCached] at cached
    rw [← Option.some.inj cached, List.mem_singleton.mp later]
    exact ⟨rfl, sellSample_plain, plain.sellProgram⟩

theorem sample_assembled :
    ∃ route ix args, sampleReturned = some route ∧
      mintBuilder.buildHeliosInstruction firstArgument route wsol pairCache HashMap.empty =
        .ok ix ∧
      decodeHeliosFlashArbArgs ix = some args ∧
      executeRouteOnly (raydiumRuntime pairCache 0) (initializeConfig default) wsol
        (presented ix) args.minProfit args.hopAccountCounts args.hopData sampleWallet =
          .error (.helios .insufficientProfit) := by
  have ran := sampleOutcome_refused
  simp only [sampleOutcome, Option.bind_eq_bind, Option.bind_eq_some_iff] at ran
  rcases ran with ⟨route, returned, ix, assembled, args, decoded, refused⟩
  refine ⟨route, ix, args, returned, ?_, decoded, eq_error_of_refusal _ _ refused⟩
  cases built : mintBuilder.buildHeliosInstruction firstArgument route wsol pairCache
    HashMap.empty with
  | error failed =>
      rw [built] at assembled
      cases assembled
  | ok made =>
      rw [built] at assembled
      rw [Option.some.inj assembled]

/-- An accepted route, executed exactly as quoted, ends in `InsufficientProfit`. -/
theorem returned_route_refused :
    ¬ ∀ route ix args, sampleReturned = some route →
      mintBuilder.buildHeliosInstruction firstArgument route wsol pairCache HashMap.empty =
        .ok ix →
      SwapsAsQuoted firstArgument 0 mintBuilder (raydiumRuntime pairCache 0) id pairCache
        HashMap.empty route →
      decodeHeliosFlashArbArgs ix = some args →
      executeRouteOnly (raydiumRuntime pairCache 0) (initializeConfig default) wsol
        (presented ix) args.minProfit args.hopAccountCounts args.hopData sampleWallet ≠
          .error (.helios .insufficientProfit) := by
  intro never
  rcases sample_assembled with ⟨route, ix, args, returned, assembled, decoded, refused⟩
  exact never route ix args returned assembled (sample_swaps route returned) decoded refused

theorem sample_route_keeps_balance_iff :
    ∃ ix args, decodeHeliosFlashArbArgs ix = some args ∧
      ((∃ after profit, executeRouteOnly (raydiumRuntime pairCache 0) (initializeConfig default)
          wsol (presented ix) args.minProfit args.hopAccountCounts args.hopData sampleWallet =
            .ok (after, profit) ∧ sampleWallet wsol ≤ after wsol) ↔
        DiscountCovered buySample sellSample 0 wsol (.ofNat (2 ^ 255)) (10 ^ 9)) ∧
      (executeRouteOnly (raydiumRuntime pairCache 0) (initializeConfig default) wsol
          (presented ix) args.minProfit args.hopAccountCounts args.hopData sampleWallet =
            .error (.helios .insufficientProfit) ↔
        ¬ DiscountCovered buySample sellSample 0 wsol (.ofNat (2 ^ 255)) (10 ^ 9)) := by
  rcases sample_assembled with ⟨route, ix, -, returned, assembled, -⟩
  have held : sampleWallet wsol = 10 ^ 9 := if_pos rfl
  have funded : 10 ^ 9 ≤ id sampleWallet wsol := by rw [id_eq, held]
  have presents : Presents (initializeConfig default) (ix.accounts.drop 4) (presented ix) := by
    refine ⟨?_, ?_⟩
    · rw [presented, List.map_map]
      rfl
    · intro info member _
      rcases List.mem_map.mp member with ⟨account, _, same⟩
      rw [← same]
  have small : id sampleWallet wsol ≤ u64Max := by
    rw [id_eq, held]
    decide
  have swaps := sample_swaps route returned
  have outcome := route_keeps_balance_iff firstArgument 0 mintBuilder (raydiumRuntime pairCache 0)
    id default pairCache HashMap.empty wsol buySample sellSample wsol (.ofNat (2 ^ 255)) (10 ^ 9)
    300 route returned (by norm_num) buySample_plain sellSample_plain buySample_cached sellSample_cached
    ix assembled swaps (fun _ => rfl) (presented ix) presents sampleWallet
    funded small
  simp only [id_eq] at outcome
  exact ⟨ix, outcome⟩

/-- A fresh reserve far below the polled one makes up for the discount. -/
def drainedSellSample : DexPool :=
  { sellSample with reserveAOptimistic := 1141487750, reserveBOptimistic := 10 ^ 8 }

example : (buildCrossDexRoute firstArgument 0 buySample true drainedSellSample true wsol
      (.ofNat (2 ^ 255)) (10 ^ 9) 300).isSome = true ∧
    DiscountCovered buySample drainedSellSample 0 wsol (.ofNat (2 ^ 255)) (10 ^ 9) := by
  decide +kernel

end Sample

end Helios.RouteExecution
