import Helios.ExactQuotes
import Helios.OpportunityScanner

/-! The loan a vault update settles on: the first of the amounts tried that passes, whatever the
later ones or the opposite direction would bring. -/

namespace Helios.BestBorrow

open Machine ConstantProduct ExactQuotes OpportunityScanner

section Trips

variable {F : Type} [FloatArith F] (powf : F → F → F) (now : Instant)

/-- The pools a round trip buys and sells on. -/
def sides (pool counterpart : DexPool) (buyOwn : Bool) : DexPool × DexPool :=
  if buyOwn then (pool, counterpart) else (counterpart, pool)

/-- What a loan comes back as. -/
def tripOut (pools : DexPool × DexPool) (anchor : Pubkey) (borrow : Nat) : Nat :=
  quoteSell powf now pools.2 anchor (quoteBuy powf now pools.1 anchor borrow)

/-- A round trip passes the scanner's checks. -/
def Clears (pools : DexPool × DexPool) (anchor : Pubkey) (borrow : Nat) : Prop :=
  borrow < tripOut powf now pools anchor borrow ∧
    minNet ≤ netAfterFees (tripOut powf now pools anchor borrow - borrow) ∧
    spreadAllowed F pools.1 pools.2 borrow (tripOut powf now pools anchor borrow) = true

/-- The scanner looks at a direction: more is bought there, and neither quote is zero. -/
def Compared (pools : DexPool × DexPool) (anchor : Pubkey) (borrow : Nat) : Prop :=
  0 < quoteBuy powf now pools.2 anchor borrow ∧
    quoteBuy powf now pools.2 anchor borrow < quoteBuy powf now pools.1 anchor borrow

/-- No round trip between the two pools that passes, in either direction and with any amount
tried, nets more than the route. -/
def Greatest (pool counterpart : DexPool) (anchor : Pubkey) (route : RouteParams F) : Prop :=
  ∀ borrow ∈ borrows, ∀ buyOwn, Clears powf now (sides pool counterpart buyOwn) anchor borrow →
    netAfterFees (tripOut powf now (sides pool counterpart buyOwn) anchor borrow - borrow) ≤
      route.netProfit

/-- The first amount that passes. -/
def firstPassing (pool counterpart : DexPool) (anchor meme : Pubkey) : Option Nat :=
  borrows.find? (fun borrow => (comparePools powf now pool counterpart anchor meme borrow).isSome)

/-- Nothing beyond the first amount that passes returns more for the lamports lent in addition
than those lamports: neither a larger amount nor a direction the scanner does not look at. -/
def FirstSuffices (pool counterpart : DexPool) (anchor meme : Pubkey) : Prop :=
  ∀ first buyFirst, firstPassing powf now pool counterpart anchor meme = some first →
    Compared powf now (sides pool counterpart buyFirst) anchor first →
    ∀ borrow ∈ borrows, ∀ buyOwn,
      first < borrow ∨ ¬ Compared powf now (sides pool counterpart buyOwn) anchor borrow →
      Clears powf now (sides pool counterpart buyOwn) anchor borrow →
      tripOut powf now (sides pool counterpart buyOwn) anchor borrow + first ≤
        tripOut powf now (sides pool counterpart buyFirst) anchor first + borrow

/-- A route that a vault update of one pool made over a counterpart. -/
structure MadeOver (scanner : OpportunityScanner) (poolAddr : Pubkey) (pool counterpart : DexPool)
    (anchor meme : Pubkey) (route : RouteParams F) : Prop where
  own : scanner.poolCache.get poolAddr = some pool
  anchored : anchorOf pool = some (anchor, meme)
  listed : ∃ counterparts address, HashMap.get scanner.counterpartIndex poolAddr = some counterparts ∧
    address ∈ counterparts ∧ scanner.poolCache.get address = some counterpart
  found : borrows.findSome? (comparePools powf now pool counterpart anchor meme) = some route

variable {powf : F → F → F} {now : Instant}

theorem tripOut_lt (pools : DexPool × DexPool) (anchor : Pubkey) (borrow : Nat) :
    tripOut powf now pools anchor borrow < 2 ^ 64 :=
  ScannedRoutes.quote_lt powf now pools.2 _ _

/-- A net profit that passes is the plain difference: a wrap would make it negative. -/
theorem netAfterFees_eq (gross : Nat) (small : gross < 2 ^ 64)
    (passes : minNet ≤ netAfterFees gross) : netAfterFees gross = (gross : Int) - fees := by
  have positive : 0 < netAfterFees gross := lt_of_lt_of_le (by decide) passes
  exact (ScannedRoutes.signedNet_of_pos gross fees small (by decide) positive).1

/-- A round trip that passes nets what it gains less the fees. -/
theorem net_of_clears (pools : DexPool × DexPool) (anchor : Pubkey) (borrow : Nat)
    (clears : Clears powf now pools anchor borrow) :
    netAfterFees (tripOut powf now pools anchor borrow - borrow) =
      (tripOut powf now pools anchor borrow : Int) - borrow - fees := by
  have small : tripOut powf now pools anchor borrow < 2 ^ 64 := tripOut_lt pools anchor borrow
  rcases clears with ⟨gains, nets, _⟩
  generalize tripOut powf now pools anchor borrow = out at small gains nets ⊢
  have exactly := netAfterFees_eq (out - borrow) (lt_of_le_of_lt (Nat.sub_le _ _) small) nets
  rw [exactly, Nat.cast_sub gains.le]

theorem buySellRoute_some (buyPool sellPool : DexPool) (anchor meme : Pubkey) (borrow : Nat)
    (route : RouteParams F)
    (built : buySellRoute powf now buyPool sellPool anchor meme borrow
      (quoteBuy powf now buyPool anchor borrow) = some route) :
    Clears powf now (buyPool, sellPool) anchor borrow ∧
      route.netProfit = netAfterFees (tripOut powf now (buyPool, sellPool) anchor borrow - borrow) := by
  simp only [buySellRoute, Option.ite_none_left_eq_some, Bool.not_eq_true', Bool.not_eq_false]
    at built
  rcases built with ⟨gains, nets, spread, same⟩
  refine ⟨⟨not_le.mp gains, not_lt.mp nets, spread⟩, ?_⟩
  rw [← Option.some.inj same, tripOut]

theorem buySellRoute_isSome (buyPool sellPool : DexPool) (anchor meme : Pubkey) (borrow : Nat)
    (clears : Clears powf now (buyPool, sellPool) anchor borrow) :
    (buySellRoute powf now buyPool sellPool anchor meme borrow
      (quoteBuy powf now buyPool anchor borrow)).isSome = true := by
  rcases clears with ⟨gains, nets, spread⟩
  rw [tripOut] at gains nets spread
  rw [buySellRoute, if_neg (not_le.mpr gains), if_neg (not_lt.mpr nets), spread]
  rfl

theorem comparePools_some (pool counterpart : DexPool) (anchor meme : Pubkey) (borrow : Nat)
    (route : RouteParams F)
    (built : comparePools powf now pool counterpart anchor meme borrow = some route) :
    ∃ buyOwn, Compared powf now (sides pool counterpart buyOwn) anchor borrow ∧
      Clears powf now (sides pool counterpart buyOwn) anchor borrow ∧
      route.netProfit =
        netAfterFees (tripOut powf now (sides pool counterpart buyOwn) anchor borrow - borrow) := by
  simp only [comparePools, Option.ite_none_left_eq_some] at built
  rcases built with ⟨quoted, built⟩
  split at built
  · next more =>
      exact ⟨true, ⟨Nat.pos_of_ne_zero (not_or.mp quoted).2, more⟩,
        buySellRoute_some pool counterpart anchor meme borrow route built⟩
  · split at built
    · next less =>
        exact ⟨false, ⟨Nat.pos_of_ne_zero (not_or.mp quoted).1, less⟩,
          buySellRoute_some counterpart pool anchor meme borrow route built⟩
    · cases built

theorem comparePools_isSome (pool counterpart : DexPool) (anchor meme : Pubkey) (borrow : Nat)
    (buyOwn : Bool) (compared : Compared powf now (sides pool counterpart buyOwn) anchor borrow)
    (clears : Clears powf now (sides pool counterpart buyOwn) anchor borrow) :
    (comparePools powf now pool counterpart anchor meme borrow).isSome = true := by
  rw [comparePools]
  cases buyOwn with
  | true =>
      rcases compared with ⟨positive, more⟩
      rw [sides, if_pos rfl] at positive more clears
      dsimp only at positive more
      rw [if_neg (by omega), if_pos more]
      exact buySellRoute_isSome pool counterpart anchor meme borrow clears
  | false =>
      rcases compared with ⟨positive, more⟩
      rw [sides, if_neg Bool.false_ne_true] at positive more clears
      dsimp only at positive more
      rw [if_neg (by omega), if_neg (by omega), if_pos more]
      exact buySellRoute_isSome counterpart pool anchor meme borrow clears

/-- Only one direction is compared. -/
theorem compared_unique (pool counterpart : DexPool) (anchor : Pubkey) (borrow : Nat)
    (one other : Bool) (first : Compared powf now (sides pool counterpart one) anchor borrow)
    (second : Compared powf now (sides pool counterpart other) anchor borrow) : one = other := by
  have left := first.2
  have right := second.2
  cases one with
  | true =>
      cases other with
      | true => rfl
      | false => exact absurd (left.trans right) (lt_irrefl _)
  | false =>
      cases other with
      | true => exact absurd (left.trans right) (lt_irrefl _)
      | false => rfl

/-- The amounts before the one that passes do not. -/
theorem firstPassing_of_found (pool counterpart : DexPool) (anchor meme : Pubkey)
    (route : RouteParams F)
    (found : borrows.findSome? (comparePools powf now pool counterpart anchor meme) = some route) :
    ∃ first, firstPassing powf now pool counterpart anchor meme = some first ∧
      comparePools powf now pool counterpart anchor meme first = some route := by
  rcases List.findSome?_eq_some_iff.mp found with ⟨before, first, rest, split, built, none⟩
  refine ⟨first, ?_, built⟩
  rw [firstPassing, List.find?_eq_some_iff_append]
  refine ⟨by rw [built]; rfl, before, rest, split, ?_⟩
  intro borrow earlier
  rw [none borrow earlier]
  rfl

theorem borrows_sorted : borrows.Pairwise (· < ·) := by decide

/-- What stands before the first amount that passes does not pass. -/
theorem not_passing_of_le (pool counterpart : DexPool) (anchor meme : Pubkey) (first borrow : Nat)
    (found : firstPassing powf now pool counterpart anchor meme = some first)
    (listed : borrow ∈ borrows) (earlier : borrow < first) :
    (comparePools powf now pool counterpart anchor meme borrow).isSome = false := by
  rcases (List.find?_eq_some_iff_append.mp found).2 with ⟨before, rest, split, none⟩
  have sorted := borrows_sorted
  rw [split] at sorted listed
  rcases List.mem_append.mp listed with inside | after
  · exact (Bool.not_eq_true' _).mp (none borrow inside)
  · have tail := (List.pairwise_append.mp sorted).2.1
    rcases List.mem_cons.mp after with same | later
    · omega
    · have above := (List.pairwise_cons.mp tail).1 borrow later
      omega

/-- The route over one counterpart is the greatest exactly if its amount is enough. -/
theorem greatest_iff (pool counterpart : DexPool) (anchor meme : Pubkey) (route : RouteParams F)
    (found : borrows.findSome? (comparePools powf now pool counterpart anchor meme) = some route) :
    Greatest powf now pool counterpart anchor route ↔
      FirstSuffices powf now pool counterpart anchor meme := by
  rcases firstPassing_of_found pool counterpart anchor meme route found with
    ⟨first, passes, built⟩
  rcases comparePools_some pool counterpart anchor meme first route built with
    ⟨buyFirst, compared, cleared, net⟩
  have firstNet := net_of_clears _ anchor first cleared
  constructor
  · intro greatest other buyOther same comparedOther borrow listed buyOwn _ clears
    rw [passes] at same
    cases same
    have only := compared_unique pool counterpart anchor first buyOther buyFirst comparedOther
      compared
    subst only
    have bound := greatest borrow listed buyOwn clears
    rw [net, firstNet, net_of_clears _ anchor borrow clears] at bound
    omega
  · intro enough borrow listed buyOwn clears
    rw [net, firstNet, net_of_clears _ anchor borrow clears]
    by_cases beyond : first < borrow ∨
        ¬ Compared powf now (sides pool counterpart buyOwn) anchor borrow
    · have bound := enough first buyFirst passes compared borrow listed buyOwn beyond clears
      omega
    · rcases not_or.mp beyond with ⟨notLater, looked⟩
      have looked := not_not.mp looked
      have passing := comparePools_isSome pool counterpart anchor meme borrow buyOwn looked clears
      rcases Nat.lt_or_eq_of_le (not_lt.mp notLater) with earlier | same
      · rw [not_passing_of_le pool counterpart anchor meme first borrow passes listed earlier]
          at passing
        cases passing
      · subst same
        have only := compared_unique pool counterpart anchor borrow buyOwn buyFirst looked compared
        rw [only]

/-- Every route a vault update returns was made over some counterpart. -/
theorem madeOver_of_returned (scanner : OpportunityScanner) (poolAddr : Pubkey)
    (route : RouteParams F) (returned : route ∈ (onVaultUpdate powf now scanner poolAddr).1) :
    ∃ pool counterpart anchor meme,
      MadeOver powf now scanner poolAddr pool counterpart anchor meme route := by
  rw [onVaultUpdate] at returned
  split at returned
  · next counterparts pool indexed cached =>
      split at returned
      · cases returned
      · split at returned
        · cases returned
        · next anchor meme anchored =>
            have member := List.mem_mergeSort.mp (List.mem_of_mem_take returned)
            rcases List.mem_filterMap.mp member with ⟨address, named, built⟩
            rcases Option.bind_eq_some_iff.mp built with ⟨counterpart, otherCached, built⟩
            rw [Option.ite_none_right_eq_some] at built
            exact ⟨pool, counterpart, anchor, meme, cached, anchored,
              ⟨counterparts, address, indexed, named, otherCached⟩, built.2⟩
  · cases returned

/-- Every route returned is made over a counterpart, and is the greatest between its two pools
exactly if nothing beyond the first amount that passes returns more than it costs. -/
theorem returned_greatest_iff (scanner : OpportunityScanner) (poolAddr : Pubkey)
    (route : RouteParams F) (returned : route ∈ (onVaultUpdate powf now scanner poolAddr).1) :
    (∃ pool counterpart anchor meme,
      MadeOver powf now scanner poolAddr pool counterpart anchor meme route) ∧
    ∀ pool counterpart anchor meme,
      MadeOver powf now scanner poolAddr pool counterpart anchor meme route →
      (Greatest powf now pool counterpart anchor route ↔
        FirstSuffices powf now pool counterpart anchor meme) := by
  refine ⟨madeOver_of_returned scanner poolAddr route returned, ?_⟩
  intro pool counterpart anchor meme made
  exact greatest_iff pool counterpart anchor meme route made.found

/-- Sold to the pool it could have been bought from, at most what a loan buys there is worth no
more than the loan. -/
theorem quoteSell_le (pool : DexPool) (anchor : Pubkey) (borrow sold : Nat) (plain : pool.IsXyK)
    (fee : pool.feeBps ≤ 10000) (smallA : (pool.effectiveReserves now).1 < 2 ^ 64)
    (smallB : (pool.effectiveReserves now).2 < 2 ^ 64) (small : borrow < 2 ^ 64)
    (within : sold ≤ quoteBuy powf now pool anchor borrow) :
    quoteSell powf now pool anchor sold ≤ borrow := by
  have word : sold < 2 ^ 64 := lt_of_le_of_lt within (ScannedRoutes.quote_lt powf now pool _ _)
  have back : ∀ reserveIn reserveOut, reserveIn < 2 ^ 64 → reserveOut < 2 ^ 64 →
      sold ≤ DexPool.xyKQuote reserveIn reserveOut pool.feeBps borrow →
      DexPool.xyKQuote reserveOut reserveIn pool.feeBps sold ≤ borrow := by
    intro reserveIn reserveOut smallIn smallOut bought
    have most : sold ≤ output reserveIn reserveOut borrow := by
      calc sold ≤ DexPool.xyKQuote reserveIn reserveOut pool.feeBps borrow := bought
        _ ≤ exactOutput reserveIn reserveOut pool.feeBps borrow :=
            xyKQuote_le_exactOutput _ _ _ _ fee smallIn small
        _ ≤ output reserveIn reserveOut borrow := exactOutput_le_output _ _ _ _
    calc DexPool.xyKQuote reserveOut reserveIn pool.feeBps sold
        ≤ exactOutput reserveOut reserveIn pool.feeBps sold :=
          xyKQuote_le_exactOutput _ _ _ _ fee smallOut word
      _ ≤ output reserveOut reserveIn sold := exactOutput_le_output _ _ _ _
      _ ≤ output reserveOut reserveIn (output reserveIn reserveOut borrow) :=
          output_mono _ _ _ _ most
      _ ≤ borrow := output_back_le _ _ _
  rw [quoteBuy, RouteExecution.quote_of_isXyK powf _ _ _ _ plain, RouteExecution.xyQuote] at within
  rw [quoteSell, RouteExecution.quote_of_isXyK powf _ _ _ _ plain, RouteExecution.xyQuote]
  dsimp only at within ⊢
  split
  · exact Nat.zero_le _
  · next filled =>
      rw [if_neg filled] at within
      generalize decide (pool.tokenA = anchor) = own at within ⊢
      cases own with
      | true => exact back _ _ smallA smallB within
      | false => exact back _ _ smallB smallA within

/-- Between constant-product pools the direction that buys no more than the other pool gives
never passes, so that only larger amounts are left to compare. -/
theorem opposite_not_clears (pools : DexPool × DexPool) (anchor : Pubkey) (borrow : Nat)
    (plain : pools.2.IsXyK) (fee : pools.2.feeBps ≤ 10000)
    (smallA : (pools.2.effectiveReserves now).1 < 2 ^ 64)
    (smallB : (pools.2.effectiveReserves now).2 < 2 ^ 64) (small : borrow < 2 ^ 64)
    (less : quoteBuy powf now pools.1 anchor borrow ≤ quoteBuy powf now pools.2 anchor borrow) :
    ¬ Clears powf now pools anchor borrow := by
  intro clears
  have gains := clears.1
  have bound := quoteSell_le pools.2 anchor borrow _ plain fee smallA smallB small less
  rw [tripOut] at gains
  omega

end Trips

instance (powf : Double → Double → Double) (now : Instant) (pools : DexPool × DexPool)
    (anchor : Pubkey) (borrow : Nat) : Decidable (Clears powf now pools anchor borrow) := by
  unfold Clears
  infer_instance

/-! The two pools of the index, 8 % apart. -/

def deeper : DexPool := anchoredPool 1 usdc (206 * 10 ^ 9)
def thinner : DexPool := anchoredPool 2 usdc (190 * 10 ^ 9)

theorem deeper_route_made :
    ∃ route ∈ (onVaultUpdate plainPowf 0 (after indexed) (.ofNat 1)).1,
      route.borrowAmount = 50000000 ∧ route.netProfit = 3854022 := by
  have evaluated : ((onVaultUpdate plainPowf 0 (after indexed) (.ofNat 1)).1.map
      (fun route => (route.borrowAmount, route.netProfit))) = [(50000000, 3854022)] := by
    decide +kernel
  have member : (50000000, 3854022) ∈ (onVaultUpdate plainPowf 0 (after indexed) (.ofNat 1)).1.map
      (fun route => (route.borrowAmount, route.netProfit)) := by
    rw [evaluated]
    exact List.mem_singleton_self _
  rcases List.mem_map.mp member with ⟨route, returned, values⟩
  rw [Prod.mk.injEq] at values
  exact ⟨route, returned, values.1, values.2⟩

/-- 50,000,000 lamports are settled on, though 100,000,000 pass and net almost twice as much. -/
theorem first_loan_beaten :
    ∃ route ∈ (onVaultUpdate plainPowf 0 (after indexed) (.ofNat 1)).1,
      (after indexed).poolCache.get (.ofNat 1) = some deeper ∧
      (after indexed).poolCache.get (.ofNat 2) = some thinner ∧
      route.borrowAmount = 50000000 ∧ ¬ Greatest plainPowf 0 deeper thinner wsol route := by
  rcases deeper_route_made with ⟨route, returned, borrowed, net⟩
  have more : route.netProfit <
      netAfterFees (tripOut plainPowf 0 (sides deeper thinner true) wsol 100000000 - 100000000) := by
    rw [net]
    decide +kernel
  refine ⟨route, returned, rfl, rfl, borrowed, ?_⟩
  intro greatest
  have bound := greatest 100000000 (by decide) true (by decide +kernel)
  omega

theorem deeper_route_greatest_iff :
    ∃ route ∈ (onVaultUpdate plainPowf 0 (after indexed) (.ofNat 1)).1,
      ∀ pool counterpart anchor meme,
        MadeOver plainPowf 0 (after indexed) (.ofNat 1) pool counterpart anchor meme route →
        (Greatest plainPowf 0 pool counterpart anchor route ↔
          FirstSuffices plainPowf 0 pool counterpart anchor meme) := by
  rcases deeper_route_made with ⟨route, returned, _⟩
  exact ⟨route, returned, (returned_greatest_iff (after indexed) (.ofNat 1) route returned).2⟩

end Helios.BestBorrow
