import Helios.BestBorrow

/-! The strategies that trade between a pool and another on its pair: after a change of
liquidity, and while a pool lags an oracle. Both borrow the bought pool's first token and take
the sold pool's second for the token in between. -/

namespace Helios.TwoPoolStrategies

open Machine FloatArith CrossDex ScannedRoutes OpportunityScanner BestBorrow

def e4MinDivergenceBps : Nat := 50
def e4Fees : Nat := 15000
def e5Fees : Nat := 10000

/-- What a route builder reads of a detected lag. `direction` tells that the pool's spot price
is below the oracle's. -/
structure OracleLagOpportunity where
  pool : Pubkey
  direction : Bool

section Builders

variable {F : Type} [FloatArith F] (powf : F → F → F) (now : Instant)

def rate (F : Type) [FloatArith F] (pool : DexPool) (aToB : Bool) : F :=
  if pool.reserveA = 0 ∨ pool.reserveB = 0 then ofNat 0
  else if aToB then div (ofNat pool.reserveB) (ofNat pool.reserveA)
  else div (ofNat pool.reserveA) (ofNat pool.reserveB)

def isZero (x : F) : Bool := le x (ofNat 0) && le (ofNat 0) x

/-- The absolute relative difference, cast to `i64`. -/
def divergenceBps (priceA priceB : F) : Nat :=
  let spread := sub (div priceB priceA) (ofNat 1)
  let size := if lt spread (ofNat 0) then sub (ofNat 0) spread else spread
  Min.min (toNat (mul size (ofNat 10000))) (2 ^ 63 - 1)

/-- The body the two builders share. -/
def buyThenSell (pools : DexPool × DexPool) (borrowAmount fees : Nat) (risk : ℚ)
    (strategy : String) : Option (RouteParams F) :=
  let mid := pools.1.quoteAToB powf now borrowAmount
  let out := pools.2.quoteBToA powf now mid
  if out ≤ borrowAmount then none
  else
    let grossProfit := out - borrowAmount
    let netProfit := wrapI64 (wrapI64 grossProfit - (fees : Nat))
    if netProfit ≤ 0 then none
    else
      some {
        hops := [
          { pool := pools.1.poolAddress
            dexProgram := dexProgramFor pools.1.dexType
            tokenIn := pools.1.tokenA
            tokenOut := pools.1.tokenB
            amountOut := mid
            priceImpact := priceImpact pools.1 true borrowAmount },
          { pool := pools.2.poolAddress
            dexProgram := dexProgramFor pools.2.dexType
            tokenIn := pools.2.tokenB
            tokenOut := pools.2.tokenA
            amountOut := out
            priceImpact := priceImpact pools.2 false mid }]
        borrowAmount := borrowAmount
        grossProfit := grossProfit
        netProfit := netProfit
        riskFactor := ofRat risk
        strategy := strategy
        tier := 0 }

/-- "Buy cheap, sell expensive": the pool with the lower rate of B for A is bought on. -/
def e4Sides (F : Type) [FloatArith F] (affected alt : DexPool) : DexPool × DexPool :=
  if lt (rate F affected true) (rate F alt true) then (affected, alt) else (alt, affected)

/-- The rates are known and far enough apart. -/
def diverges (F : Type) [FloatArith F] (affected alt : DexPool) : Bool :=
  !(isZero (rate F affected true) || isZero (rate F alt true)) &&
    !decide (divergenceBps (rate F affected true) (rate F alt true) < e4MinDivergenceBps)

def e4Pair (affected : DexPool) (borrowAmount : Nat) (alt : DexPool) : Option (RouteParams F) :=
  if diverges F affected alt then
    buyThenSell powf now (e4Sides F affected alt) borrowAmount e4Fees (3 / 10) "liquidity-event"
  else none

/-- Another pool, of another DEX, on the same two tokens. -/
def parallel (affected other : DexPool) : Bool :=
  decide (other.poolAddress ≠ affected.poolAddress ∧ other.dexType ≠ affected.dexType ∧
    ((other.tokenA = affected.tokenA ∧ other.tokenB = affected.tokenB) ∨
      (other.tokenA = affected.tokenB ∧ other.tokenB = affected.tokenA)))

def e4Opportunity (eventPool : Pubkey) (cache : PoolStateCache) (borrowAmount : Nat) :
    Option (RouteParams F) := do
  let affected ← cache.get eventPool
  ((HashMap.values cache.inner).filter (parallel affected)).findSome?
    (e4Pair powf now affected borrowAmount)

/-- Another pool with the same tokens in the same order and more of the first. -/
def moreLiquid (lagging other : DexPool) : Bool :=
  decide (other.poolAddress ≠ lagging.poolAddress ∧ other.tokenA = lagging.tokenA ∧
    other.tokenB = lagging.tokenB ∧ lagging.reserveA < other.reserveA)

/-- `max_by_key` on the first reserve: of equal ones the last. -/
def maxByReserve : List DexPool → Option DexPool
  | [] => none
  | head :: tail => some (tail.foldl (fun best next =>
      if next.reserveA < best.reserveA then best else next) head)

def e5Sides (lag : OracleLagOpportunity) (lagging reference : DexPool) : DexPool × DexPool :=
  if lag.direction then (lagging, reference) else (reference, lagging)

def e5Opportunity (lag : OracleLagOpportunity) (cache : PoolStateCache) (borrowAmount : Nat) :
    Option (RouteParams F) := do
  let lagging ← cache.get lag.pool
  let reference ← maxByReserve ((HashMap.values cache.inner).filter (moreLiquid lagging))
  buyThenSell powf now (e5Sides lag lagging reference) borrowAmount e5Fees (2 / 10) "stale-oracle"

end Builders

/-! What the claim asks of a builder over a cache of two pools. -/

/-- A constant-product pool: its fee is at most the whole, its reserves are 64-bit. -/
structure ConstantProductPool (pool : DexPool) (now : Instant) : Prop where
  plain : pool.IsXyK
  fee : pool.feeBps ≤ 10000
  smallA : (pool.effectiveReserves now).1 < 2 ^ 64
  smallB : (pool.effectiveReserves now).2 < 2 ^ 64

structure TwoPools (cache : PoolStateCache) (first second : DexPool) : Prop where
  apart : first.poolAddress ≠ second.poolAddress
  holds : ∀ address pool, cache.get address = some pool ↔
    (address = first.poolAddress ∧ pool = first) ∨ (address = second.poolAddress ∧ pool = second)
  tokens : first.tokenA ≠ first.tokenB
  pair : PairIndex.mints first = PairIndex.mints second

section Claim

variable {F : Type} [FloatArith F] (powf : F → F → F) (now : Instant)

/-- A round trip between the pools pays the fees and more. -/
def Pays (pools : DexPool × DexPool) (mint : Pubkey) (fees borrow : Nat) : Prop :=
  borrow + fees < tripOut powf now pools mint borrow

/-- The same, and what is left has a sign in 64 bits. -/
def Earns (pools : DexPool × DexPool) (mint : Pubkey) (fees borrow : Nat) : Prop :=
  Pays powf now pools mint fees borrow ∧
    tripOut powf now pools mint borrow < borrow + fees + 2 ^ 63

/-- Some amount tried pays in one of the two directions. -/
def SomePays (first second : DexPool) (fees : Nat) (tried : List Nat) : Prop :=
  ∃ borrow ∈ tried, Pays powf now (first, second) first.tokenA fees borrow ∨
    Pays powf now (second, first) first.tokenA fees borrow

/-- The route is a closed chain of hops through the tokens their pools really trade, states the
profit of their quotes, and buys where more of the token in between is to be had. -/
structure Lawful (cache : PoolStateCache) (fees borrow : Nat) (route : RouteParams F) : Prop where
  closed : ∃ mint, Walk Hop.tokenIn Hop.tokenOut mint route.hops mint
  profit : ∃ last, Threaded (QuotedHop powf now cache) Hop.amountOut borrow route.hops last ∧
    route.netProfit = last - borrow - fees ∧ 0 < route.netProfit
  cheap : ∃ buyHop sellHop buyPool sellPool, route.hops = [buyHop, sellHop] ∧
    cache.get buyHop.pool = some buyPool ∧ cache.get sellHop.pool = some sellPool ∧
    quoteBuy powf now sellPool buyHop.tokenIn borrow < quoteBuy powf now buyPool buyHop.tokenIn borrow

/-- Where the two pools pay at all, a route is returned, and every route returned is lawful. -/
def Meets (cache : PoolStateCache) (first second : DexPool) (fees : Nat) (tried : List Nat)
    (builder : Nat → Option (RouteParams F)) : Prop :=
  SomePays powf now first second fees tried →
    (∃ borrow ∈ tried, (builder borrow).isSome = true) ∧
    ∀ borrow ∈ tried, ∀ route, builder borrow = some route →
      Lawful powf now cache fees borrow route

variable {powf : F → F → F} {now : Instant}

/-- The two quotes of the body are a round trip where both pools name the tokens in one order. -/
theorem quotes_eq_tripOut (pools : DexPool × DexPool) (borrow : Nat)
    (order : pools.2.tokenA = pools.1.tokenA) :
    pools.2.quoteBToA powf now (pools.1.quoteAToB powf now borrow) =
      tripOut powf now pools pools.1.tokenA borrow := by
  rw [tripOut, quoteSell, quoteBuy, decide_eq_true rfl, decide_eq_true order]
  rfl

theorem buyThenSell_isSome_iff (pools : DexPool × DexPool) (borrow fees : Nat) (risk : ℚ)
    (strategy : String) (low : fees < 2 ^ 62) (order : pools.2.tokenA = pools.1.tokenA) :
    (buyThenSell powf now pools borrow fees risk strategy).isSome = true ↔
      Earns powf now pools pools.1.tokenA fees borrow := by
  have small : tripOut powf now pools pools.1.tokenA borrow < 2 ^ 64 :=
    tripOut_lt pools pools.1.tokenA borrow
  rw [buyThenSell, Earns, Pays]
  dsimp only
  rw [quotes_eq_tripOut pools borrow order]
  generalize tripOut powf now pools pools.1.tokenA borrow = out at small ⊢
  split
  · next loses =>
      constructor
      · intro absent
        cases absent
      · rintro ⟨pays, -⟩
        omega
  · next gains =>
      split
      · next nets =>
          constructor
          · intro absent
            cases absent
          · rintro ⟨pays, fits⟩
            rw [signedNet_of_fits (out - borrow) fees (by omega) low] at nets
            omega
      · next nets =>
          have positive := signedNet_of_pos (out - borrow) fees (by omega) low (not_le.mp nets)
          rw [positive.1] at nets
          have bounds : borrow + fees < out ∧ out < borrow + fees + 2 ^ 63 := by omega
          constructor
          · exact fun _ => bounds
          · exact fun _ => Option.isSome_some

/-- A route between two pools that name the tokens in one order is lawful. -/
theorem lawful_of_built (cache : PoolStateCache) (pools : DexPool × DexPool) (borrow fees : Nat)
    (risk : ℚ) (strategy : String) (route : RouteParams F) (low : fees < 2 ^ 62)
    (word : borrow < 2 ^ 64) (cachedBuy : cache.get pools.1.poolAddress = some pools.1)
    (cachedSell : cache.get pools.2.poolAddress = some pools.2)
    (constant : ConstantProductPool pools.2 now) (order : pools.2.tokenA = pools.1.tokenA)
    (other : pools.2.tokenB = pools.1.tokenB)
    (built : buyThenSell powf now pools borrow fees risk strategy = some route) :
    Lawful powf now cache fees borrow route := by
  have earns := (buyThenSell_isSome_iff pools borrow fees risk strategy low order).mp
    (by rw [built]; rfl)
  have small : tripOut powf now pools pools.1.tokenA borrow < 2 ^ 64 :=
    tripOut_lt pools pools.1.tokenA borrow
  rw [buyThenSell] at built
  dsimp only at built
  rw [Option.ite_none_left_eq_some, Option.ite_none_left_eq_some] at built
  rcases built with ⟨gains, nets, same⟩
  have same := (Option.some.inj same).symm
  have exactly := signedNet_of_pos _ fees (lt_of_le_of_lt (Nat.sub_le _ _)
    (by rw [quotes_eq_tripOut pools borrow order]; exact small)) low (not_le.mp nets)
  have dearer : quoteBuy powf now pools.2 pools.1.tokenA borrow <
      quoteBuy powf now pools.1 pools.1.tokenA borrow := by
    by_contra less
    have back := quoteSell_le pools.2 pools.1.tokenA borrow _ constant.plain constant.fee
      constant.smallA constant.smallB word (not_lt.mp less)
    have pays := earns.1
    rw [Pays, tripOut] at pays
    omega
  subst same
  constructor
  · exact ⟨pools.1.tokenA, rfl, other, order⟩
  · refine ⟨pools.2.quoteBToA powf now (pools.1.quoteAToB powf now borrow),
      ⟨⟨pools.1, true, cachedBuy, ⟨rfl, rfl⟩, rfl⟩, ⟨pools.2, false, cachedSell, ⟨rfl, rfl⟩, rfl⟩,
        rfl⟩, ?_⟩
    dsimp only
    rw [exactly.1] at nets ⊢
    omega
  · exact ⟨_, _, pools.1, pools.2, rfl, cachedBuy, cachedSell, dearer⟩

/-- A route between pools that name the tokens in opposite orders does not chain. -/
theorem not_lawful_of_swapped (cache : PoolStateCache) (pools : DexPool × DexPool)
    (borrow fees : Nat) (risk : ℚ) (strategy : String) (route : RouteParams F)
    (tokens : pools.1.tokenA ≠ pools.1.tokenB) (swapped : pools.2.tokenB = pools.1.tokenA)
    (built : buyThenSell powf now pools borrow fees risk strategy = some route) :
    ¬ Lawful powf now cache fees borrow route := by
  rw [buyThenSell] at built
  dsimp only at built
  rw [Option.ite_none_left_eq_some, Option.ite_none_left_eq_some] at built
  have same := (Option.some.inj built.2.2).symm
  subst same
  intro lawful
  rcases lawful.closed with ⟨mint, -, chains, -⟩
  exact tokens (swapped.symm.trans chains)

/-! A cache of two pools. -/

variable (cache : PoolStateCache) (first second : DexPool)

theorem twoPools_symm {cache first second} (two : TwoPools cache first second) :
    cache.get first.poolAddress = some first ∧ cache.get second.poolAddress = some second :=
  ⟨(two.holds _ _).mpr (Or.inl ⟨rfl, rfl⟩), (two.holds _ _).mpr (Or.inr ⟨rfl, rfl⟩)⟩

/-- What a search that leaves the first pool out looks at. -/
theorem filter_twoPools (two : TwoPools cache first second) (keep : DexPool → Bool)
    (other : keep first = false) :
    (HashMap.values cache.inner).filter keep = if keep second then [second] else [] := by
  have members : ∀ pool, pool ∈ (HashMap.values cache.inner).filter keep ↔
      pool = second ∧ keep second = true := by
    intro pool
    rw [List.mem_filter, HashMap.mem_values]
    constructor
    · rintro ⟨⟨address, found⟩, kept⟩
      rcases (two.holds address pool).mp found with ⟨-, same⟩ | ⟨-, same⟩
      · rw [same, other] at kept
        cases kept
      · exact ⟨same, same ▸ kept⟩
    · rintro ⟨rfl, kept⟩
      exact ⟨⟨_, (twoPools_symm two).2⟩, kept⟩
  have nodup : ((HashMap.values cache.inner).filter keep).Nodup := by
    apply List.Nodup.filter
    apply HashMap.nodup_values cache.inner DexPool.poolAddress
    intro address pool found
    rcases (two.holds address pool).mp found with ⟨home, same⟩ | ⟨home, same⟩
    · rw [home, same]
    · rw [home, same]
  split
  · next kept =>
      apply List.perm_singleton.mp
      apply (List.perm_ext_iff_of_nodup nodup (List.nodup_singleton second)).mpr
      intro pool
      rw [members, List.mem_singleton]
      exact and_iff_left kept
  · next dropped =>
      apply List.eq_nil_iff_forall_not_mem.mpr
      intro pool member
      exact dropped ((members pool).mp member).2

theorem order_cases (two : TwoPools cache first second) :
    (second.tokenA = first.tokenA ∧ second.tokenB = first.tokenB) ∨
      (second.tokenA = first.tokenB ∧ second.tokenB = first.tokenA) := by
  rcases Sym2.eq_iff.mp two.pair with same | swapped
  · exact Or.inl ⟨same.1.symm, same.2.symm⟩
  · exact Or.inr ⟨swapped.2.symm, swapped.1.symm⟩

theorem e4Opportunity_eq (two : TwoPools cache first second) (borrow : Nat) :
    e4Opportunity powf now first.poolAddress cache borrow =
      if second.dexType ≠ first.dexType then e4Pair powf now first borrow second else none := by
  have other : parallel first first = false := by
    rw [parallel, decide_eq_false_iff_not]
    exact fun ⟨apart, _⟩ => apart rfl
  have kept : parallel first second = decide (second.dexType ≠ first.dexType) := by
    rw [parallel, decide_eq_decide]
    constructor
    · exact fun ⟨_, dex, _⟩ => dex
    · exact fun dex => ⟨two.apart.symm, dex, order_cases cache first second two⟩
  rw [e4Opportunity, (twoPools_symm two).1, Option.bind_eq_bind, Option.bind_some,
    filter_twoPools cache first second two (parallel first) other, kept]
  by_cases dex : second.dexType ≠ first.dexType
  · rw [if_pos dex, decide_eq_true dex, if_pos rfl, List.findSome?_singleton]
  · rw [if_neg dex, decide_eq_false dex, if_neg Bool.false_ne_true, List.findSome?_nil]

theorem e5Opportunity_eq (two : TwoPools cache first second) (lag : OracleLagOpportunity)
    (lagging : lag.pool = first.poolAddress) (borrow : Nat) :
    e5Opportunity powf now lag cache borrow =
      if second.tokenA = first.tokenA ∧ first.reserveA < second.reserveA then
        buyThenSell powf now (e5Sides lag first second) borrow e5Fees (2 / 10) "stale-oracle"
      else none := by
  have other : moreLiquid first first = false := by
    rw [moreLiquid, decide_eq_false_iff_not]
    exact fun ⟨apart, _⟩ => apart rfl
  have kept : moreLiquid first second =
      decide (second.tokenA = first.tokenA ∧ first.reserveA < second.reserveA) := by
    rw [moreLiquid, decide_eq_decide]
    constructor
    · exact fun ⟨_, order, _, deeper⟩ => ⟨order, deeper⟩
    · rintro ⟨order, deeper⟩
      rcases order_cases cache first second two with ⟨_, same⟩ | ⟨swapped, _⟩
      · exact ⟨two.apart.symm, order, same, deeper⟩
      · exact absurd (order.symm.trans swapped) two.tokens
  rw [e5Opportunity, lagging, (twoPools_symm two).1, Option.bind_eq_bind, Option.bind_some,
    filter_twoPools cache first second two (moreLiquid first) other, kept]
  by_cases deeper : second.tokenA = first.tokenA ∧ first.reserveA < second.reserveA
  · rw [if_pos deeper, decide_eq_true deeper, if_pos rfl]
    rfl
  · rw [if_neg deeper, decide_eq_false deeper, if_neg Bool.false_ne_true]
    rfl

variable {cache first second}

/-- A builder that runs the body on the two pools behind a gate. -/
theorem meets_iff_of_body (two : TwoPools cache first second)
    (constantFirst : ConstantProductPool first now)
    (constantSecond : ConstantProductPool second now) (tried : List Nat)
    (words : ∀ borrow ∈ tried, borrow < 2 ^ 64) (pools : DexPool × DexPool)
    (either : pools = (first, second) ∨ pools = (second, first)) (fees : Nat) (low : fees < 2 ^ 62)
    (risk : ℚ) (strategy : String) (gate : Prop) [Decidable gate]
    (builder : Nat → Option (RouteParams F))
    (body : ∀ borrow, builder borrow =
      if gate then buyThenSell powf now pools borrow fees risk strategy else none) :
    Meets powf now cache first second fees tried builder ↔
      ¬ SomePays powf now first second fees tried ∨
        (second.tokenA = first.tokenA ∧ gate ∧
          ∃ borrow ∈ tried, Earns powf now pools first.tokenA fees borrow) := by
  have cached := twoPools_symm two
  have ordered : second.tokenA = first.tokenA →
      pools.2.tokenA = pools.1.tokenA ∧ pools.1.tokenA = first.tokenA := by
    intro order
    rcases either with rfl | rfl
    · exact ⟨order, rfl⟩
    · exact ⟨order.symm, order⟩
  constructor
  · intro meets
    by_cases pays : SomePays powf now first second fees tried
    · rcases meets pays with ⟨⟨borrow, listed, returned⟩, lawful⟩
      right
      rw [body] at returned
      split at returned
      · next passes =>
          rcases order_cases cache first second two with ⟨order, _⟩ | ⟨swapped, other⟩
          · have earns := (buyThenSell_isSome_iff pools borrow fees risk strategy low
              (ordered order).1).mp returned
            rw [(ordered order).2] at earns
            exact ⟨order, passes, borrow, listed, earns⟩
          · rcases Option.isSome_iff_exists.mp returned with ⟨route, built⟩
            have tokens : pools.1.tokenA ≠ pools.1.tokenB ∧ pools.2.tokenB = pools.1.tokenA := by
              rcases either with rfl | rfl
              · exact ⟨two.tokens, other⟩
              · exact ⟨by rw [swapped, other]; exact two.tokens.symm, swapped.symm⟩
            have made : builder borrow = some route := by rw [body, if_pos passes, built]
            exact absurd (lawful borrow listed route made) (not_lawful_of_swapped cache pools borrow
              fees risk strategy route tokens.1 tokens.2 built)
      · cases returned
    · exact Or.inl pays
  · rintro (never | ⟨order, passes, borrow, listed, earns⟩) pays
    · exact absurd pays never
    · have same := ordered order
      constructor
      · refine ⟨borrow, listed, ?_⟩
        rw [body, if_pos passes, buyThenSell_isSome_iff pools borrow fees risk strategy low same.1,
          same.2]
        exact earns
      · intro amount member route built
        rw [body, if_pos passes] at built
        rcases order_cases cache first second two with ⟨_, other⟩ | ⟨swapped, _⟩
        · rcases either with rfl | rfl
          · exact lawful_of_built cache (first, second) amount fees risk strategy route low
              (words amount member) cached.1 cached.2 constantSecond same.1 other built
          · exact lawful_of_built cache (second, first) amount fees risk strategy route low
              (words amount member) cached.2 cached.1 constantFirst same.1 other.symm built
        · exact absurd (order.symm.trans swapped) two.tokens

/-- Each builder does what it should exactly where nothing pays, or where the direction it
settles on is the one that pays between pools that name their tokens in one order. -/
theorem strategies_meet_iff (two : TwoPools cache first second)
    (constantFirst : ConstantProductPool first now)
    (constantSecond : ConstantProductPool second now) (tried : List Nat)
    (words : ∀ borrow ∈ tried, borrow < 2 ^ 64) :
    (Meets powf now cache first second e4Fees tried
        (e4Opportunity powf now first.poolAddress cache) ↔
      ¬ SomePays powf now first second e4Fees tried ∨
        (second.tokenA = first.tokenA ∧
          (second.dexType ≠ first.dexType ∧ diverges F first second = true) ∧
          ∃ borrow ∈ tried, Earns powf now (e4Sides F first second) first.tokenA e4Fees borrow)) ∧
    ∀ lag : OracleLagOpportunity, lag.pool = first.poolAddress →
      (Meets powf now cache first second e5Fees tried (e5Opportunity powf now lag cache) ↔
        ¬ SomePays powf now first second e5Fees tried ∨
          (second.tokenA = first.tokenA ∧
            (second.tokenA = first.tokenA ∧ first.reserveA < second.reserveA) ∧
            ∃ borrow ∈ tried, Earns powf now (e5Sides lag first second) first.tokenA e5Fees
              borrow)) := by
  constructor
  · apply meets_iff_of_body two constantFirst constantSecond tried words _ _ e4Fees (by decide)
      (3 / 10) "liquidity-event" _ _ _
    · rw [e4Sides]
      split
      · exact Or.inl rfl
      · exact Or.inr rfl
    · intro borrow
      rw [e4Opportunity_eq cache first second two, e4Pair]
      by_cases dex : second.dexType ≠ first.dexType
      · rw [if_pos dex]
        by_cases apart : diverges F first second = true
        · rw [if_pos apart, if_pos ⟨dex, apart⟩]
        · rw [if_neg apart, if_neg (fun both => apart both.2)]
      · rw [if_neg dex, if_neg (fun both => dex both.1)]
  · intro lag lagging
    apply meets_iff_of_body two constantFirst constantSecond tried words _ _ e5Fees (by decide)
      (2 / 10) "stale-oracle" _ _ _
    · rw [e5Sides]
      split
      · exact Or.inl rfl
      · exact Or.inr rfl
    · exact e5Opportunity_eq cache first second two lag lagging

end Claim

/-! Where the quotes are made from the reserves that are compared, the direction of the first
strategy never pays: a lower rate of B for A buys fewer of B. -/

section Polled

variable {F : Type} [FloatArith F] {powf : F → F → F} {now : Instant}

/-- A constant-product pool quoted from its polled reserves, none of them empty. -/
structure PolledPool (pool : DexPool) (now : Instant) : Prop extends
    ConstantProductPool pool now where
  polled : pool.effectiveReserves now = (pool.reserveA, pool.reserveB)
  filledA : 0 < pool.reserveA
  filledB : 0 < pool.reserveB

theorem quote_le_output (pool : DexPool) (polled : PolledPool pool now) (aToB : Bool)
    (amount : Nat) (word : amount < 2 ^ 64) :
    pool.quote powf now aToB amount ≤
      ConstantProduct.output (CrossDex.reserveIn pool aToB) (CrossDex.reserveIn pool (!aToB))
        amount := by
  have smallA : pool.reserveA < 2 ^ 64 := by
    have small := polled.smallA
    rw [polled.polled] at small
    exact small
  have smallB : pool.reserveB < 2 ^ 64 := by
    have small := polled.smallB
    rw [polled.polled] at small
    exact small
  have filledA := polled.filledA
  have filledB := polled.filledB
  rw [RouteExecution.quote_of_isXyK powf _ _ _ _ polled.plain, RouteExecution.xyQuote,
    polled.polled]
  dsimp only
  rw [if_neg (by omega)]
  cases aToB with
  | true =>
      exact le_trans (ExactQuotes.xyKQuote_le_exactOutput _ _ _ _ polled.fee smallA word)
        (ExactQuotes.exactOutput_le_output _ _ _ _)
  | false =>
      exact le_trans (ExactQuotes.xyKQuote_le_exactOutput _ _ _ _ polled.fee smallB word)
        (ExactQuotes.exactOutput_le_output _ _ _ _)

theorem tripOut_le_of_rate (pools : DexPool × DexPool) (buy : PolledPool pools.1 now)
    (sell : PolledPool pools.2 now) (order : pools.2.tokenA = pools.1.tokenA)
    (cheaper : pools.1.reserveB * pools.2.reserveA ≤ pools.2.reserveB * pools.1.reserveA)
    (borrow : Nat) (word : borrow < 2 ^ 64) :
    tripOut powf now pools pools.1.tokenA borrow ≤ borrow := by
  rw [← quotes_eq_tripOut pools borrow order]
  have bought : pools.1.quoteAToB powf now borrow ≤
      ConstantProduct.output pools.1.reserveA pools.1.reserveB borrow :=
    quote_le_output pools.1 buy true borrow word
  have some : pools.1.quoteAToB powf now borrow < 2 ^ 64 := ScannedRoutes.quote_lt powf now _ _ _
  calc pools.2.quoteBToA powf now (pools.1.quoteAToB powf now borrow)
      ≤ ConstantProduct.output pools.2.reserveB pools.2.reserveA
          (pools.1.quoteAToB powf now borrow) := quote_le_output pools.2 sell false _ some
    _ ≤ ConstantProduct.output pools.2.reserveB pools.2.reserveA
          (ConstantProduct.output pools.1.reserveA pools.1.reserveB borrow) :=
        ConstantProduct.output_mono _ _ _ _ bought
    _ ≤ borrow := ConstantProduct.output_between_le _ _ _ _ _ buy.filledA cheaper

/-- The rates in exact arithmetic, cross-multiplied. -/
theorem rate_le_iff (pool other : DexPool) (own : PolledPool pool now)
    (others : PolledPool other now) :
    rate ℚ pool true ≤ rate ℚ other true ↔
      pool.reserveB * other.reserveA ≤ other.reserveB * pool.reserveA := by
  have filled : (0 : ℚ) < pool.reserveA := Nat.cast_pos.mpr own.filledA
  have filledOther : (0 : ℚ) < other.reserveA := Nat.cast_pos.mpr others.filledA
  have value : ∀ held : DexPool, PolledPool held now →
      rate ℚ held true = (held.reserveB : ℚ) / held.reserveA := by
    intro held polled
    have filledA := polled.filledA
    have filledB := polled.filledB
    rw [rate, if_neg (by omega)]
    rfl
  rw [value pool own, value other others, div_le_div_iff₀ filled filledOther]
  exact_mod_cast Iff.rfl

/-- The pool that the first strategy buys on is the dearer one. -/
theorem e4_never_earns (first second : DexPool) (own : PolledPool first now)
    (others : PolledPool second now) (order : second.tokenA = first.tokenA) (fees borrow : Nat)
    (word : borrow < 2 ^ 64) (powf : ℚ → ℚ → ℚ) :
    ¬ Earns powf now (e4Sides ℚ first second) first.tokenA fees borrow := by
  rintro ⟨pays, -⟩
  rw [Pays, e4Sides] at pays
  split at pays
  · next less =>
      have cheaper := (rate_le_iff first second own others).mp (of_decide_eq_true less).le
      have bound : tripOut powf now (first, second) first.tokenA borrow ≤ borrow :=
        tripOut_le_of_rate (first, second) own others order cheaper borrow word
      omega
  · next more =>
      have below : rate ℚ second true ≤ rate ℚ first true :=
        not_lt.mp (fun less => more (decide_eq_true less))
      have cheaper := (rate_le_iff second first others own).mp below
      have bound : tripOut powf now (second, first) second.tokenA borrow ≤ borrow :=
        tripOut_le_of_rate (second, first) others own order.symm cheaper borrow word
      rw [order] at bound
      omega

end Polled

/-! Two pools with one rate 8 % above the other's. -/

/-- 79 of A and 190 of B; the cheaper place to buy A. -/
def shallow : DexPool := { anchoredPool 1 usdc (190 * 10 ^ 9) with dexType := .raydiumAmmV4 }

/-- 158 of A and 412 of B; the cheaper place to buy B. -/
def ample : DexPool :=
  { anchoredPool 2 usdc (412 * 10 ^ 9) with reserveA := 158 * 10 ^ 9 }

def bothPools : PoolStateCache := (PoolStateCache.new.upsert shallow).upsert ample

theorem bothPools_two : TwoPools bothPools shallow ample := by
  have apart : shallow.poolAddress ≠ ample.poolAddress := by decide
  refine ⟨apart, ?_, by decide +kernel, rfl⟩
  intro address pool
  have empty : PoolStateCache.new.get address = none := HashMap.get_empty address
  rw [bothPools, PairIndex.get_upsert, PairIndex.get_upsert, empty]
  generalize shallow = one at apart ⊢
  generalize ample = other at apart ⊢
  by_cases last : address = other.poolAddress
  · rw [if_pos last, Option.some.injEq, eq_comm]
    constructor
    · exact fun same => Or.inr ⟨last, same⟩
    · rintro (⟨home, -⟩ | ⟨-, same⟩)
      · exact absurd (home.symm.trans last) apart
      · exact same
  · rw [if_neg last]
    by_cases here : address = one.poolAddress
    · rw [if_pos here, Option.some.injEq, eq_comm]
      constructor
      · exact fun same => Or.inl ⟨here, same⟩
      · rintro (⟨-, same⟩ | ⟨home, -⟩)
        · exact same
        · exact absurd home last
    · rw [if_neg here]
      constructor
      · intro absent
        cases absent
      · rintro (⟨home, -⟩ | ⟨home, -⟩)
        · exact absurd home here
        · exact absurd home last

theorem shallow_constant : ConstantProductPool shallow 0 :=
  ⟨⟨rfl, rfl⟩, by decide, by decide +kernel, by decide +kernel⟩

theorem ample_constant : ConstantProductPool ample 0 :=
  ⟨⟨rfl, rfl⟩, by decide, by decide +kernel, by decide +kernel⟩

def lagging : OracleLagOpportunity := ⟨.ofNat 1, true⟩

/-- Borrowing 100,000,000 of A, buying B on the ample pool and selling it on the shallow one nets over
7,000,000, and neither strategy returns a route. -/
theorem profitable_pair_missed :
    TwoPools bothPools shallow ample ∧ ConstantProductPool shallow 0 ∧ ConstantProductPool ample 0 ∧
      ¬ Meets plainPowf 0 bothPools shallow ample e4Fees [100000000]
        (e4Opportunity plainPowf 0 (.ofNat 1) bothPools) ∧
      ¬ Meets plainPowf 0 bothPools shallow ample e5Fees [100000000]
        (e5Opportunity plainPowf 0 lagging bothPools) := by
  have pays : 107000000 < tripOut plainPowf 0 (ample, shallow) shallow.tokenA 100000000 := by
    decide +kernel
  refine ⟨bothPools_two, shallow_constant, ample_constant, ?_, ?_⟩
  · intro meets
    have some : SomePays plainPowf 0 shallow ample e4Fees [100000000] := by
      refine ⟨100000000, List.mem_singleton_self _, Or.inr ?_⟩
      rw [Pays, e4Fees]
      omega
    rcases (meets some).1 with ⟨borrow, listed, returned⟩
    rw [List.mem_singleton.mp listed] at returned
    have absent : (e4Opportunity plainPowf 0 (.ofNat 1) bothPools 100000000).isSome = false := by
      decide +kernel
    rw [absent] at returned
    cases returned
  · intro meets
    have some : SomePays plainPowf 0 shallow ample e5Fees [100000000] := by
      refine ⟨100000000, List.mem_singleton_self _, Or.inr ?_⟩
      rw [Pays, e5Fees]
      omega
    rcases (meets some).1 with ⟨borrow, listed, returned⟩
    rw [List.mem_singleton.mp listed] at returned
    have absent : (e5Opportunity plainPowf 0 lagging bothPools 100000000).isSome = false := by
      decide +kernel
    rw [absent] at returned
    cases returned

theorem bothPools_meet_iff :
    Meets plainPowf 0 bothPools shallow ample e4Fees [100000000]
        (e4Opportunity plainPowf 0 shallow.poolAddress bothPools) ↔
      ¬ SomePays plainPowf 0 shallow ample e4Fees [100000000] ∨
        (ample.tokenA = shallow.tokenA ∧
          (ample.dexType ≠ shallow.dexType ∧ diverges Double shallow ample = true) ∧
          ∃ borrow ∈ [100000000], Earns plainPowf 0 (e4Sides Double shallow ample) shallow.tokenA e4Fees
            borrow) :=
  (strategies_meet_iff bothPools_two shallow_constant ample_constant [100000000]
    (by decide)).1

end Helios.TwoPoolStrategies
