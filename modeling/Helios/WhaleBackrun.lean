import Helios.BackrunQuote
import Helios.Checked
import Helios.CrossDex
import Helios.DirtyVaults
import Helios.FloatRounding
import Helios.OpportunityScanner
import Helios.SplitQuotes

/-! The back-run of a whale's swap. The cache already holds the swap when the strategy simulates
it, without a fee, and sells into the reserves moved twice. The balances it fetches go to the
polled copies, which the first hop reads only where the optimistic ones are not in use. -/

namespace Helios.WhaleBackrun

open Machine FloatArith BackrunQuote ConstantProduct FreshReserves PoolHydrator SplitQuotes

/-- `MAX_COUNTERPART_AGE_SECS`. -/
def maxCounterpartAgeSecs : Nat := 7200

/-- When a call reads the whale's pool, tests the ages, stamps the balances and quotes. -/
structure Clock where
  readAt : Instant
  filteredAt : Instant
  refreshedAt : Instant
  quotedAt : Instant

def simulatePostSwap (ra rb amountIn : Nat) (aToB : Bool) : Nat × Nat :=
  if ra = 0 ∨ rb = 0 ∨ amountIn = 0 then (ra, rb)
  else if aToB then
    let newRa := saturatingAdd64 ra amountIn
    let amountOut :=
      wrap 64 (((checkedMul 128 rb amountIn).bind (fun n => checkedDiv n newRa)).getD 0)
    (newRa, rb - amountOut)
  else
    let newRb := saturatingAdd64 rb amountIn
    let amountOut :=
      wrap 64 (((checkedMul 128 ra amountIn).bind (fun n => checkedDiv n newRb)).getD 0)
    (ra - amountOut, newRb)

example : simulatePostSwap 1000 2000 100 true = (1100, 1819) := by decide

/-! The balances of the counterparts. -/

def getVaultPubkeys (pool : DexPool) : Pubkey × Pubkey :=
  match pool.raydiumMeta, pool.orcaMeta, pool.meteoraMeta with
  | some held, _, _ => (held.vaultA, held.vaultB)
  | none, some held, _ => (held.tokenVaultA, held.tokenVaultB)
  | none, none, some held => (held.tokenVaultA, held.tokenVaultB)
  | none, none, none => (default, default)

/-- `vault_map` beside `vault_keys`: a pool's place, whether the vault is its A, and the key. -/
def vaultMap (counterparts : List DexPool) : List ((Nat × Bool) × Pubkey) :=
  counterparts.zipIdx.flatMap (fun (pool, place) =>
    let vaults := getVaultPubkeys pool
    if vaults.1 = default ∨ vaults.2 = default then []
    else [((place, true), vaults.1), ((place, false), vaults.2)])

/-- `all_accounts[chunk_start + j] = acc` for a whole reply. A reply that is too long panics. -/
def placeReply (all : Reply) (start : Nat) (reply : Reply) : Option Reply :=
  if start + reply.length ≤ all.length then
    some (all.take start ++ reply ++ all.drop (start + reply.length))
  else none

/-- The accounts of the keys, a hundred to a request. -/
def fetchAccounts (rpc : Nat → List Pubkey → Option Reply) (keys : List Pubkey) : Option Reply :=
  (chunks 100 keys.length keys).zipIdx.foldlM (fun all (chunk, place) =>
    match rpc place chunk with
    | none => some all
    | some reply => placeReply all (100 * place) reply) (List.replicate keys.length none)

def writeBalance (now : Instant) (isVaultA : Bool) (amount : Nat) (pool : DexPool) : DexPool :=
  if isVaultA then { pool with reserveA := amount, lastUpdated := now }
  else { pool with reserveB := amount, lastUpdated := now }

/-- A zero balance is taken for a failed read. -/
def refreshSide (now : Instant) (pools : List DexPool)
    (entry : ((Nat × Bool) × Pubkey) × Option Account) : List DexPool :=
  match entry.2.bind tokenAmount with
  | none => pools
  | some amount =>
      if 0 < amount then pools.modify entry.1.1.1 (writeBalance now entry.1.1.2 amount) else pools

def refreshCounterpartVaults (rpc : Nat → List Pubkey → Option Reply) (now : Instant)
    (counterparts : List DexPool) : Option (List DexPool) :=
  let slots := vaultMap counterparts
  if slots.isEmpty then some counterparts
  else
    (fetchAccounts rpc (slots.map Prod.snd)).map (fun all =>
      (slots.zip all).foldl (refreshSide now) counterparts)

/-- The first route for each key. -/
def firstPerKey {α : Type} (key : α → Option Pubkey) (seen : List (Option Pubkey)) :
    List α → List α
  | [] => []
  | entry :: rest =>
      if key entry ∈ seen then firstPerKey key seen rest
      else entry :: firstPerKey key (key entry :: seen) rest

section Strategy

variable {F : Type} [FloatArith F] (powf : F → F → F) (rpc : Nat → List Pubkey → Option Reply)
  (clock : Clock) (cache : PoolStateCache) (poolAddr : Pubkey) (amountIn : Nat) (aToB : Bool)

def impactPct (F : Type) [FloatArith F] (reserves : Nat × Nat) (amountIn : Nat) (aToB : Bool) : F :=
  mul (div (ofNat amountIn) (ofNat (if aToB then reserves.1 else reserves.2))) (ofNat 100)

/-- The token of a pool that is not WSOL, if the other one is. -/
def pairedToken (whale : DexPool) : Option Pubkey :=
  if whale.tokenA = wsol then some whale.tokenB
  else if whale.tokenB = wsol then some whale.tokenA
  else none

/-- The whale's pool and the reserves simulated for it, unless the call returns early. -/
def screened (F : Type) [FloatArith F] (clock : Clock) (cache : PoolStateCache)
    (poolAddr : Pubkey) (amountIn : Nat) (aToB : Bool) : Option (DexPool × Nat × Nat) := do
  let whale ← cache.get poolAddr
  let affected ← pairedToken whale
  let nCounterparts := ((cache.poolsForToken affected).filter (fun p =>
    decide (p.poolAddress ≠ poolAddr ∧ 0 < p.reserveA))).length
  let (ra, rb) := whale.effectiveReserves clock.readAt
  let (postRa, postRb) := simulatePostSwap ra rb amountIn aToB
  if nCounterparts = 0 then none
  else if ra = 0 ∨ rb = 0 then none
  else if lt (impactPct F (ra, rb) amountIn aToB) (ofNat 1) then none
  else if postRa = 0 ∨ postRb = 0 then none
  else some (whale, postRa, postRb)

def affectedToken (whale : DexPool) (aToB : Bool) : Pubkey :=
  if aToB then whale.tokenB else whale.tokenA

def affectedIsA (whale : DexPool) (aToB : Bool) : Bool :=
  decide (whale.tokenA = affectedToken whale aToB)

/-- The token the loan is made in. -/
def otherToken (whale : DexPool) (aToB : Bool) : Pubkey :=
  if affectedIsA whale aToB then whale.tokenB else whale.tokenA

def counterparts (whale : DexPool) : List DexPool :=
  (cache.poolsForToken (affectedToken whale aToB)).filter (fun p =>
    decide (p.poolAddress ≠ poolAddr ∧ 0 < p.reserveA ∧ 0 < p.reserveB ∧
      p.lastUpdated.elapsedSecs clock.filteredAt < maxCounterpartAgeSecs))

/-- None of the tests of a counterpart says to go on to the next one. -/
def aligned (whale : DexPool) (cp : DexPool) : Bool :=
  let affected := affectedToken whale aToB
  let other := otherToken whale aToB
  let reserves := cp.effectiveReserves clock.quotedAt
  decide (¬ (cp.tokenA = affected ∧ cp.tokenB ≠ other) ∧
    ¬ (cp.tokenA ≠ affected ∧ cp.tokenA ≠ other) ∧ other = wsol ∧
    ¬ (reserves.1 = 0 ∨ reserves.2 = 0))

/-- The first hop: the affected token for the loan, on the counterpart. -/
def midAmount (whale : DexPool) (trip : DexPool × Nat) : Nat :=
  if trip.1.tokenA = affectedToken whale aToB then
    trip.1.quoteBToA powf clock.quotedAt trip.2
  else trip.1.quoteAToB powf clock.quotedAt trip.2

/-- The second hop, on the simulated reserves. -/
def finalAmount (whale : DexPool) (post : Nat × Nat) (trip : DexPool × Nat) : Nat :=
  xyKQuote post.1 post.2 (midAmount powf clock aToB whale trip) (affectedIsA whale aToB)
    whale.feeBps

def netProfit (whale : DexPool) (post : Nat × Nat) (trip : DexPool × Nat) : Int :=
  wrapI64 (wrapI64 (finalAmount powf clock aToB whale post trip) - wrapI64 trip.2)

/-- None of the tests of an amount says to go on to the next one. -/
def passes (whale : DexPool) (post : Nat × Nat) (trip : DexPool × Nat) : Bool :=
  decide (¬ (affectedIsA whale aToB = true ∧ post.2 / 2 < trip.2) ∧
    ¬ (affectedIsA whale aToB = false ∧ post.1 / 2 < trip.2) ∧
    midAmount powf clock aToB whale trip ≠ 0 ∧
    finalAmount powf clock aToB whale post trip ≠ 0 ∧
    ¬ netProfit powf clock aToB whale post trip < minProfitLamports)

/-- The route of a counterpart and an amount. -/
def routeOf (whale : DexPool) (post : Nat × Nat) (trip : DexPool × Nat) : RouteParams F :=
  let affected := affectedToken whale aToB
  let mid := midAmount powf clock aToB whale trip
  let net := netProfit powf clock aToB whale post trip
  let cpReserves := trip.1.effectiveReserves clock.quotedAt
  { hops := [
      { pool := trip.1.poolAddress
        dexProgram := CrossDex.dexProgramFor trip.1.dexType
        tokenIn := wsol
        tokenOut := affected
        amountOut := mid
        priceImpact := mul (div (ofNat trip.2)
          (ofNat (if trip.1.tokenA = affected then cpReserves.2 else cpReserves.1))) (ofNat 100) },
      { pool := poolAddr
        dexProgram := CrossDex.dexProgramFor whale.dexType
        tokenIn := affected
        tokenOut := wsol
        amountOut := finalAmount powf clock aToB whale post trip
        priceImpact := mul (div (ofNat mid)
          (ofNat (if affectedIsA whale aToB then post.1 else post.2))) (ofNat 100) }]
    borrowAmount := trip.2
    grossProfit := (net % 2 ^ 64).toNat
    netProfit := net
    riskFactor := ofRat (3 / 10)
    strategy := "whale_backrun"
    tier := 2 }

/-- The counterparts and amounts a route is pushed for, in order. -/
def trips (whale : DexPool) (post : Nat × Nat) (refreshed : List DexPool) : List (DexPool × Nat) :=
  (refreshed.filter (aligned clock aToB whale)).flatMap (fun cp =>
    (borrowAmounts.map (fun borrow => (cp, borrow))).filter (passes powf clock aToB whale post))

def checkBackrun : Option (List (RouteParams F)) :=
  match screened F clock cache poolAddr amountIn aToB with
  | none => some []
  | some (whale, post) =>
      let held := counterparts clock cache poolAddr aToB whale
      if held.isEmpty then some []
      else
        (refreshCounterpartVaults rpc clock.refreshedAt held).map (fun refreshed =>
          let routes := (trips powf clock aToB whale post refreshed).map
            (routeOf powf clock poolAddr aToB whale post)
          firstPerKey (fun route => route.hops.head?.map Hop.pool) []
            (routes.mergeSort (fun a b => decide (b.netProfit ≤ a.netProfit))))

end Strategy

/-! Selling into reserves that have moved twice. -/

section Moved

variable (reserveIn left reserveOut moved feeBps amountIn : Nat)

/-- An output that a deeper reserve and a smaller opposite one do not raise by a unit is worth
less than the reserve over what was added to it. -/
theorem output_mul_moved_lt (paid more : Nat) (less : left ≤ reserveIn) (counted : paid ≤ more)
    (positive : 0 < output left (reserveOut + moved) more)
    (bounded : output left (reserveOut + moved) more ≤ output reserveIn reserveOut paid) :
    output left (reserveOut + moved) more * moved < reserveOut := by
  have afforded : output left (reserveOut + moved) more * (reserveIn + more) ≤
      more * reserveOut := by
    calc output left (reserveOut + moved) more * (reserveIn + more)
        ≤ output reserveIn reserveOut more * (reserveIn + more) :=
          Nat.mul_le_mul_right _ (bounded.trans (output_mono _ _ _ _ counted))
      _ ≤ more * reserveOut := output_mul_le _ _ _
  have paidMore : 0 < more := by
    rcases Nat.eq_zero_or_pos more with none | some
    · rw [output, none, Nat.zero_mul, Nat.zero_div] at positive
      exact absurd positive (Nat.lt_irrefl 0)
    · exact some
  have last : more * (reserveOut + moved) <
      (output left (reserveOut + moved) more + 1) * (left + more) := by
    rw [← Nat.div_lt_iff_lt_mul (by omega)]
    exact Nat.lt_succ_self _
  generalize output left (reserveOut + moved) more = out at positive afforded last ⊢
  have gap : more * moved < reserveIn + more := by nlinarith
  have scaled : out * (more * moved) < more * reserveOut := by
    calc out * (more * moved) < out * (reserveIn + more) :=
          Nat.mul_lt_mul_of_pos_left gap positive
      _ ≤ more * reserveOut := afforded
  have factored : more * (out * moved) < more * reserveOut := by
    calc more * (out * moved) = out * (more * moved) := by ring
      _ < more * reserveOut := scaled
  exact Nat.lt_of_mul_lt_mul_left factored

/-- The simulator's output on reserves moved by an amount that counts is above the pool's own
quote. -/
theorem quote_lt_of_moved (less : left ≤ reserveIn) (room : reserveOut + moved < 2 ^ 64)
    (inSmall : reserveIn < 2 ^ 64) (small : amountIn < 2 ^ 64) (feeSmall : feeBps < 2 ^ 64)
    (stocked : 0 < reserveOut)
    (large : 2 ≤ xyKQuote left (reserveOut + moved) amountIn true feeBps)
    (counts : reserveOut ≤ xyKQuote left (reserveOut + moved) amountIn true feeBps * moved) :
    DexPool.xyKQuote reserveIn reserveOut feeBps amountIn <
      xyKQuote left (reserveOut + moved) amountIn true feeBps := by
  have live : ¬ (left = 0 ∨ reserveOut + moved = 0 ∨ amountIn = 0) := by
    intro idle
    rw [xyKQuote, if_pos idle] at large
    omega
  rcases Nat.lt_or_ge 10000 feeBps with exceeds | fee
  · -- past a fee of the whole amount the simulator says 0 or 1
    rw [xyKQuote_of_gt _ _ _ _ exceeds feeSmall (by omega) room small (by omega) (by omega)
      (by omega)] at large
    split at large
    · omega
    · omega
  · rw [xyKQuote_of_le _ _ _ _ fee (by omega) room small (by omega) (by omega) (by omega)]
      at large counts ⊢
    by_contra bounded
    have exact_ := ExactQuotes.xyKQuote_le_exactOutput reserveIn reserveOut feeBps amountIn fee
      inSmall small
    have idle := output_mul_moved_lt (reserveIn * 10000) (left * 10000) reserveOut moved
      (amountIn * (10000 - feeBps)) (amountIn * (10000 - feeBps) + uncharged feeBps amountIn)
      (Nat.mul_le_mul_right 10000 less) (Nat.le_add_right _ _) (by omega)
      ((not_lt.mp bounded).trans exact_)
    omega

end Moved

/-- An impact of 1 % is more than one part in 10^8. -/
theorem counted_of_impact (reserve amountIn : Nat) (filled : 0 < reserve)
    (shown : lt (mul (div (ofNat amountIn) (ofNat reserve)) (ofNat 100) : Double) (ofNat 1) =
      false) : reserve ≤ 100000000 * amountIn := by
  by_contra exceeds
  have more : ((100000000 * amountIn : Nat) : ℚ) ≤ (reserve : ℚ) := by
    exact_mod_cast (not_le.mp exceeds).le
  rw [Nat.cast_mul] at more
  have positive : (0 : ℚ) < (reserve : ℚ) := by exact_mod_cast filled
  have paid : (0 : ℚ) ≤ (amountIn : ℚ) := Nat.cast_nonneg amountIn
  have top := Double.round_le (amountIn : ℚ) paid
  have bottom := Double.le_round (reserve : ℚ) positive.le
  have above := Double.round_nonneg (amountIn : ℚ) paid
  have below := Double.round_pos (reserve : ℚ) positive
  have ratio : (Double.round (amountIn : ℚ)).value / (Double.round (reserve : ℚ)).value ≤
      1 / 10000000 := by
    rw [div_le_iff₀ below]
    norm_num at more
    linarith
  have quotient := Double.round_le _ (div_nonneg above below.le)
  have hundred : (Double.round ((100 : Nat) : ℚ)).value ≤ 101 := by decide +kernel
  have hundredNonneg := Double.round_nonneg ((100 : Nat) : ℚ) (by norm_num)
  have quotientNonneg := Double.round_nonneg _ (div_nonneg above below.le)
  have product : (Double.round ((Double.round (amountIn : ℚ)).value /
      (Double.round (reserve : ℚ)).value)).value * (Double.round ((100 : Nat) : ℚ)).value ≤
        1 / 1000000 * 101 := by
    apply mul_le_mul _ hundred hundredNonneg (by norm_num)
    linarith
  have rounded := Double.round_le _ (mul_nonneg quotientNonneg hundredNonneg)
  have one : (1 : ℚ) / 2 ≤ (Double.round ((1 : Nat) : ℚ)).value := by decide +kernel
  have less : lt (mul (div (ofNat amountIn) (ofNat reserve)) (ofNat 100) : Double) (ofNat 1) =
      true := by
    change decide ((Double.round ((Double.round ((Double.round (amountIn : ℚ)).value /
      (Double.round (reserve : ℚ)).value)).value *
        (Double.round ((100 : Nat) : ℚ)).value)).value <
          (Double.round ((1 : Nat) : ℚ)).value) = true
    rw [decide_eq_true_eq]
    linarith
  rw [less] at shown
  cases shown

/-- The simulation adds the amount to the side paid into and adds nothing to the other. -/
theorem simulatePostSwap_spec (ra rb amountIn : Nat) (aToB : Bool) (smallA : ra < 2 ^ 64)
    (smallB : rb < 2 ^ 64) :
    (0 < component (simulatePostSwap ra rb amountIn aToB) aToB →
      0 < component (simulatePostSwap ra rb amountIn aToB) (!aToB) →
      component (simulatePostSwap ra rb amountIn aToB) aToB =
        saturatingAdd64 (component (ra, rb) aToB) amountIn) ∧
      component (simulatePostSwap ra rb amountIn aToB) (!aToB) ≤ component (ra, rb) (!aToB) := by
  rw [simulatePostSwap]
  split
  · next idle =>
      refine ⟨?_, Nat.le_refl _⟩
      intro filled stocked
      have none : amountIn = 0 := by
        rcases idle with empty | empty | none
        · cases aToB <;> simp [component, empty] at filled stocked
        · cases aToB <;> simp [component, empty] at filled stocked
        · exact none
      cases aToB <;> simp only [component, saturatingAdd64, u64Max, none] <;> simp <;> omega
  · cases aToB with
    | true => exact ⟨fun _ _ => rfl, Nat.sub_le _ _⟩
    | false => exact ⟨fun _ _ => rfl, Nat.sub_le _ _⟩

/-! What a refresh leaves in the counterparts. -/

/-- The balance that entries hold for a vault of the counterpart at a place. -/
def balanceIn (entries : List (((Nat × Bool) × Pubkey) × Option Account)) (place : Nat)
    (isVaultA : Bool) : Option Nat :=
  entries.findSome? (fun entry =>
    if entry.1.1 = (place, isVaultA) then entry.2.bind tokenAmount else none)

/-- The balance a call fetches for a vault of the counterpart at a place. -/
def fetchedBalance (rpc : Nat → List Pubkey → Option Reply) (counterparts : List DexPool)
    (place : Nat) (isVaultA : Bool) : Option Nat :=
  match fetchAccounts rpc ((vaultMap counterparts).map Prod.snd) with
  | none => none
  | some all => balanceIn ((vaultMap counterparts).zip all) place isVaultA

/-- A counterpart after balances were written to its polled copies. -/
structure Refreshed (balance : Bool → Option Nat) (before after : DexPool) : Prop where
  address : after.poolAddress = before.poolAddress
  optimistic : ∀ side, optimistic after side = optimistic before side
  shredUpdate : after.lastShredUpdate = before.lastShredUpdate
  polled : ∀ side, polled after side =
    ((balance side).filter (fun amount => decide (0 < amount))).getD (polled before side)

theorem refreshed_refl (pool : DexPool) : Refreshed (fun _ => none) pool pool :=
  ⟨rfl, fun _ => rfl, rfl, fun _ => rfl⟩

@[simp] theorem polled_writeBalance (now : Instant) (isVaultA : Bool) (amount : Nat)
    (pool : DexPool) (side : Bool) :
    polled (writeBalance now isVaultA amount pool) side =
      if side = isVaultA then amount else polled pool side := by
  cases isVaultA <;> cases side <;> rfl

theorem writeBalance_kept (now : Instant) (isVaultA : Bool) (amount : Nat) (pool : DexPool) :
    (writeBalance now isVaultA amount pool).poolAddress = pool.poolAddress ∧
      (∀ side, optimistic (writeBalance now isVaultA amount pool) side = optimistic pool side) ∧
      (writeBalance now isVaultA amount pool).lastShredUpdate = pool.lastShredUpdate := by
  cases isVaultA with
  | true => exact ⟨rfl, fun _ => rfl, rfl⟩
  | false => exact ⟨rfl, fun _ => rfl, rfl⟩

theorem balanceIn_cons (entry : ((Nat × Bool) × Pubkey) × Option Account)
    (rest : List (((Nat × Bool) × Pubkey) × Option Account)) (place : Nat) (side : Bool) :
    balanceIn (entry :: rest) place side =
      (if entry.1.1 = (place, side) then entry.2.bind tokenAmount else none).or
        (balanceIn rest place side) := by
  rw [balanceIn, List.findSome?_cons]
  split
  · next found => rw [found, Option.some_or]
  · next none_ =>
      rw [none_, Option.none_or]
      rfl

theorem balanceIn_eq_none (entries : List (((Nat × Bool) × Pubkey) × Option Account))
    (place : Nat) (side : Bool) (absent : (place, side) ∉ entries.map (fun entry => entry.1.1)) :
    balanceIn entries place side = none := by
  rw [balanceIn, List.findSome?_eq_none_iff]
  intro entry member
  rw [if_neg]
  intro own
  exact absent (List.mem_map.mpr ⟨entry, member, own⟩)

/-- One entry writes its balance on its own side, or nothing. -/
theorem refreshSide_spec (now : Instant) (entry : ((Nat × Bool) × Pubkey) × Option Account)
    (place : Nat) (pools : List DexPool) (pool : DexPool) (found : pools[place]? = some pool) :
    ∃ after, (refreshSide now pools entry)[place]? = some after ∧
      Refreshed (fun side => if entry.1.1 = (place, side) then entry.2.bind tokenAmount else none)
        pool after := by
  have idle : (entry.1.1.1 = place →
        (entry.2.bind tokenAmount).filter (fun amount => decide (0 < amount)) = none) →
      Refreshed (fun side => if entry.1.1 = (place, side) then entry.2.bind tokenAmount else none)
        pool pool := by
    intro nothing
    refine ⟨rfl, fun _ => rfl, rfl, ?_⟩
    intro side
    split
    · next own =>
        rw [nothing (congrArg Prod.fst own)]
        rfl
    · rfl
  rw [refreshSide]
  generalize entry.2.bind tokenAmount = read at idle ⊢
  cases read with
  | none => exact ⟨pool, found, idle (fun _ => rfl)⟩
  | some amount =>
      dsimp only
      split
      · next positive =>
          by_cases own : entry.1.1.1 = place
          · rcases writeBalance_kept now entry.1.1.2 amount pool with ⟨address, kept, stamp⟩
            refine ⟨writeBalance now entry.1.1.2 amount pool, ?_, address, kept, stamp, ?_⟩
            · rw [own, List.getElem?_modify_eq, found]
              rfl
            · intro side
              have stays : (some amount).filter (fun amount => decide (0 < amount)) =
                  some amount := Option.filter_eq_some_iff.mpr ⟨rfl, decide_eq_true positive⟩
              rw [polled_writeBalance]
              by_cases here : side = entry.1.1.2
              · rw [if_pos here, if_pos (by rw [here, ← own]), stays]
                rfl
              · rw [if_neg here, if_neg (fun key => here (congrArg Prod.snd key).symm)]
                rfl
          · refine ⟨pool, ?_, idle (fun same => absurd same own)⟩
            rw [List.getElem?_modify_ne _ _ own]
            exact found
      · next zero =>
          refine ⟨pool, found, idle (fun _ => ?_)⟩
          exact Option.filter_eq_none_iff.mpr (fun other same => by
            cases same
            exact zero ∘ of_decide_eq_true)

theorem Refreshed.trans {first second : Bool → Option Nat} {before middle after : DexPool}
    (one : Refreshed first before middle) (two : Refreshed second middle after)
    (alone : ∀ side, first side = none ∨ second side = none) :
    Refreshed (fun side => (first side).or (second side)) before after where
  address := two.address.trans one.address
  optimistic := fun side => (two.optimistic side).trans (one.optimistic side)
  shredUpdate := two.shredUpdate.trans one.shredUpdate
  polled := by
    intro side
    rw [two.polled side, one.polled side]
    rcases alone side with idle | idle
    · rw [idle]
      rfl
    · rw [idle, Option.or_none]
      rfl

/-- Each vault comes once, so a fetched balance stays where it was written. -/
theorem foldl_refreshSide (now : Instant)
    (entries : List (((Nat × Bool) × Pubkey) × Option Account))
    (once : (entries.map (fun entry => entry.1.1)).Nodup) (place : Nat) (pools : List DexPool)
    (pool : DexPool) (found : pools[place]? = some pool) :
    ∃ after, (entries.foldl (refreshSide now) pools)[place]? = some after ∧
      Refreshed (balanceIn entries place) pool after := by
  induction entries generalizing pools pool with
  | nil => exact ⟨pool, found, refreshed_refl pool⟩
  | cons entry rest ih =>
      rw [List.map_cons, List.nodup_cons] at once
      rcases refreshSide_spec now entry place pools pool found with ⟨middle, step, written⟩
      rcases ih once.2 _ _ step with ⟨after, at_, left⟩
      have same : balanceIn (entry :: rest) place = fun side =>
          (if entry.1.1 = (place, side) then entry.2.bind tokenAmount else none).or
            (balanceIn rest place side) := funext (balanceIn_cons entry rest place)
      rw [same]
      refine ⟨after, at_, written.trans left ?_⟩
      intro side
      by_cases own : entry.1.1 = (place, side)
      · right
        apply balanceIn_eq_none
        rw [← own]
        exact once.1
      · left
        exact if_neg own

theorem length_foldl_refreshSide (now : Instant)
    (entries : List (((Nat × Bool) × Pubkey) × Option Account)) (pools : List DexPool) :
    (entries.foldl (refreshSide now) pools).length = pools.length := by
  induction entries generalizing pools with
  | nil => rfl
  | cons entry rest ih =>
      rw [List.foldl_cons, ih, refreshSide]
      split
      · rfl
      · split
        · exact List.length_modify _ _ _
        · rfl

theorem nodup_vaultMap (pools : List DexPool) : ((vaultMap pools).map Prod.fst).Nodup := by
  rw [vaultMap, List.map_flatMap, List.nodup_flatMap]
  constructor
  · intro entry _
    dsimp only
    split
    · exact List.nodup_nil
    · simp
  · have places := List.pairwise_map.mp (List.nodup_zipIdx_map_snd pools)
    apply places.imp
    intro first second apart key inFirst inSecond
    have placeOf : ∀ entry : DexPool × Nat, key ∈ ((fun ((pool, place) : DexPool × Nat) =>
        let vaults := getVaultPubkeys pool
        if vaults.1 = default ∨ vaults.2 = default then []
        else [((place, true), vaults.1), ((place, false), vaults.2)]) entry).map Prod.fst →
          key.1 = entry.2 := by
      intro entry member
      dsimp only at member
      split at member
      · cases member
      · simp only [List.map_cons, List.map_nil, List.mem_cons, List.not_mem_nil, or_false] at member
        rcases member with same | same
        · rw [same]
        · rw [same]
    exact apart ((placeOf first inFirst).symm.trans (placeOf second inSecond))

theorem length_placeReply (all : Reply) (start : Nat) (reply after : Reply)
    (placed : placeReply all start reply = some after) : after.length = all.length := by
  rw [placeReply] at placed
  split at placed
  · next fits =>
      cases placed
      rw [List.length_append, List.length_append, List.length_take, List.length_drop]
      omega
  · cases placed

theorem length_fetchAccounts (rpc : Nat → List Pubkey → Option Reply) (keys : List Pubkey)
    (all : Reply) (fetched : fetchAccounts rpc keys = some all) : all.length = keys.length := by
  have kept : ∀ (requests : List (List Pubkey × Nat)) (before after : Reply),
      requests.foldlM (fun all (chunk, place) =>
        match rpc place chunk with
        | none => some all
        | some reply => placeReply all (100 * place) reply) before = some after →
      after.length = before.length := by
    intro requests
    induction requests with
    | nil =>
        intro before after same
        cases same
        rfl
    | cons request rest ih =>
        intro before after ran
        rw [List.foldlM_cons] at ran
        rcases Option.bind_eq_some_iff.mp ran with ⟨middle, step, later⟩
        rw [ih middle after later]
        dsimp only at step
        split at step
        · cases step
          rfl
        · exact length_placeReply _ _ _ _ step
  rw [kept _ _ _ fetched, List.length_replicate]

/-- Each counterpart keeps its place, and its polled copies take the balances fetched for it. -/
theorem refreshed_of_refresh (rpc : Nat → List Pubkey → Option Reply) (now : Instant)
    (pools after : List DexPool) (done : refreshCounterpartVaults rpc now pools = some after) :
    after.length = pools.length ∧ ∀ (place : Nat) (pool : DexPool), pools[place]? = some pool →
      ∃ held, after[place]? = some held ∧
        Refreshed (fetchedBalance rpc pools place) pool held := by
  rw [refreshCounterpartVaults] at done
  split at done
  · next empty =>
      cases done
      refine ⟨rfl, ?_⟩
      intro place pool found
      refine ⟨pool, found, ?_⟩
      have nothing : fetchedBalance rpc pools place = fun _ => none := by
        funext side
        rw [fetchedBalance, List.isEmpty_iff.mp empty]
        cases fetchAccounts rpc (([] : List ((Nat × Bool) × Pubkey)).map Prod.snd) <;> rfl
      rw [nothing]
      exact refreshed_refl pool
  · rcases Option.map_eq_some_iff.mp done with ⟨all, fetched, same⟩
    have whole := length_fetchAccounts rpc _ all fetched
    rw [List.length_map] at whole
    have once : (((vaultMap pools).zip all).map (fun entry => entry.1.1)).Nodup := by
      have firsts : ((vaultMap pools).zip all).map (fun entry => entry.1.1) =
          (vaultMap pools).map Prod.fst := by
        rw [← List.map_fst_zip whole.ge, List.map_map, List.map_fst_zip whole.ge]
        rfl
      rw [firsts]
      exact nodup_vaultMap pools
    rw [← same]
    refine ⟨length_foldl_refreshSide _ _ _, ?_⟩
    intro place pool found
    have balances : fetchedBalance rpc pools place =
        balanceIn ((vaultMap pools).zip all) place := by
      funext side
      rw [fetchedBalance, fetched]
    rw [balances]
    exact foldl_refreshSide now _ once place pools pool found

/-- The reserves a quote reads off a refreshed counterpart are the balances just fetched. -/
def ReadsFetched (balance : Bool → Option Nat) (now : Instant) (pool : DexPool) : Prop :=
  ∀ side amount, balance side = some amount →
    component (pool.effectiveReserves now) side = amount

/-- The optimistic copies are not in use or hold the balances fetched, and no balance is zero. -/
def FetchedInUse (balance : Bool → Option Nat) (now : Instant) (pool : DexPool) : Prop :=
  ∀ side amount, balance side = some amount →
    if InUse pool now then optimistic pool side = amount else 0 < amount

theorem readsFetched_iff (balance : Bool → Option Nat) (now : Instant) (before after : DexPool)
    (refreshed : Refreshed balance before after) (filled : ∀ side, 0 < polled before side) :
    ReadsFetched balance now after ↔ FetchedInUse balance now before := by
  have same : InUse after now ↔ InUse before now := by
    have first : after.reserveAOptimistic = before.reserveAOptimistic := refreshed.optimistic true
    have second : after.reserveBOptimistic = before.reserveBOptimistic :=
      refreshed.optimistic false
    rw [InUse, InUse, first, second, refreshed.shredUpdate]
  refine forall₂_congr (fun side amount => imp_congr_right (fun fetched => ?_))
  by_cases used : InUse before now
  · have reserves : after.effectiveReserves now =
        (after.reserveAOptimistic, after.reserveBOptimistic) := if_pos (same.mpr used)
    have read : component (after.effectiveReserves now) side = optimistic after side := by
      rw [reserves]
      cases side <;> rfl
    rw [if_pos used, read, refreshed.optimistic side]
  · have reserves : after.effectiveReserves now = (after.reserveA, after.reserveB) :=
      if_neg (fun inUse => used (same.mp inUse))
    have read : component (after.effectiveReserves now) side = polled after side := by
      rw [reserves]
      cases side <;> rfl
    have held := filled side
    rw [if_neg used, read, refreshed.polled side, fetched]
    rcases Nat.eq_zero_or_pos amount with zero | positive
    · rw [zero]
      exact iff_of_false (Nat.ne_of_gt held) (Nat.lt_irrefl 0)
    · have kept : (some amount).filter (fun amount => decide (0 < amount)) = some amount :=
        Option.filter_eq_some_iff.mpr ⟨rfl, decide_eq_true positive⟩
      rw [kept]
      exact iff_of_true rfl positive

/-! The routes as their counterparts and amounts. -/

theorem firstPerKey_map {α β : Type} (key : β → Option Pubkey) (f : α → β)
    (seen : List (Option Pubkey)) (entries : List α) :
    firstPerKey key seen (entries.map f) =
      (firstPerKey (fun entry => key (f entry)) seen entries).map f := by
  induction entries generalizing seen with
  | nil => rfl
  | cons entry rest ih =>
      rw [List.map_cons, firstPerKey, firstPerKey]
      split
      · exact ih seen
      · rw [List.map_cons, ih]

theorem mem_of_mem_firstPerKey {α : Type} (key : α → Option Pubkey) (seen : List (Option Pubkey))
    (entries : List α) (entry : α) (kept : entry ∈ firstPerKey key seen entries) :
    entry ∈ entries := by
  induction entries generalizing seen with
  | nil => cases kept
  | cons first rest ih =>
      rw [firstPerKey] at kept
      split at kept
      · exact List.mem_cons_of_mem _ (ih seen kept)
      · rcases List.mem_cons.mp kept with same | later
        · rw [same]
          exact List.mem_cons_self
        · exact List.mem_cons_of_mem _ (ih _ later)

section Routes

variable (powf : Double → Double → Double) (rpc : Nat → List Pubkey → Option Reply)
  (clock : Clock) (cache : PoolStateCache) (poolAddr : Pubkey) (amountIn : Nat) (aToB : Bool)
  (whale : DexPool) (post : Nat × Nat)

/-- The trips that are kept: for each counterpart the one that nets most. -/
def bestTrips (refreshed : List DexPool) : List (DexPool × Nat) :=
  firstPerKey (fun trip => some trip.1.poolAddress) []
    ((trips powf clock aToB whale post refreshed).mergeSort (fun a b =>
      decide (netProfit powf clock aToB whale post b ≤ netProfit powf clock aToB whale post a)))

/-- What a route should be: the second hop is no more than the whale pool's own quote, the first
one is quoted on what was fetched. -/
structure Met (route : RouteParams Double) : Prop where
  secondHop : ∀ whale, cache.get poolAddr = some whale →
    ∀ first ∈ route.hops[0]?, ∀ second ∈ route.hops[1]?,
      second.amountOut ≤ whale.quote powf clock.readAt (decide (whale.tokenA = second.tokenIn))
        first.amountOut
  firstHop : ∀ whale refreshed, cache.get poolAddr = some whale →
    refreshCounterpartVaults rpc clock.refreshedAt
      (counterparts clock cache poolAddr aToB whale) = some refreshed →
    ∀ first ∈ route.hops[0]?, ∀ (place : Nat) (cp : DexPool), refreshed[place]? = some cp →
      cp.poolAddress = first.pool →
        ReadsFetched (fetchedBalance rpc (counterparts clock cache poolAddr aToB whale) place)
          clock.quotedAt cp

/-- No loan tried on a counterpart of the pair passes the tests: at most half of the WSOL, and
the minimum profit through both pools at the reserves moved twice. -/
def Idle (refreshed : List DexPool) : Prop :=
  ∀ cp ∈ refreshed, aligned clock aToB whale cp = true →
    ∀ borrow ∈ borrowAmounts, passes powf clock aToB whale post (cp, borrow) = false

/-- Both mints of the whale's pool are one, or its reserve has no room for the amount. -/
def Degenerate : Prop :=
  whale.tokenA = whale.tokenB ∨
    2 ^ 64 ≤ component (whale.effectiveReserves clock.readAt) aToB + amountIn

/-- A trip that is as it should be all the same. -/
structure Spared (trip : DexPool × Nat) : Prop where
  bounded : finalAmount powf clock aToB whale post trip ≤
    whale.quote powf clock.readAt (affectedIsA whale aToB) (midAmount powf clock aToB whale trip)
  fetched : ∀ (place : Nat) (cp : DexPool),
    (counterparts clock cache poolAddr aToB whale)[place]? = some cp →
    cp.poolAddress = trip.1.poolAddress →
      FetchedInUse (fetchedBalance rpc (counterparts clock cache poolAddr aToB whale) place)
        clock.quotedAt cp

/-- The recorded pool is of 64-bit words. -/
structure Words (pool : DexPool) : Prop where
  reserveA : pool.reserveA < 2 ^ 64
  reserveB : pool.reserveB < 2 ^ 64
  reserveAOptimistic : pool.reserveAOptimistic < 2 ^ 64
  reserveBOptimistic : pool.reserveBOptimistic < 2 ^ 64
  feeBps : pool.feeBps < 2 ^ 64

theorem Words.effective {pool : DexPool} (words : Words pool) (now : Instant) :
    (pool.effectiveReserves now).1 < 2 ^ 64 ∧ (pool.effectiveReserves now).2 < 2 ^ 64 := by
  rw [DexPool.effectiveReserves]
  split
  · exact ⟨words.reserveAOptimistic, words.reserveBOptimistic⟩
  · exact ⟨words.reserveA, words.reserveB⟩

/-- What a call that does not return early has found. -/
structure Screened : Prop where
  cached : cache.get poolAddr = some whale
  filled : ∀ side, 0 < component (whale.effectiveReserves clock.readAt) side
  impact : lt (impactPct Double (whale.effectiveReserves clock.readAt) amountIn aToB) (ofNat 1) =
    false
  simulated : post = simulatePostSwap (whale.effectiveReserves clock.readAt).1
    (whale.effectiveReserves clock.readAt).2 amountIn aToB
  left : ∀ side, 0 < component post side

theorem screened_spec
    (passed : screened Double clock cache poolAddr amountIn aToB = some (whale, post)) :
    Screened clock cache poolAddr amountIn aToB whale post := by
  rcases Option.bind_eq_some_iff.mp passed with ⟨held, cached, later⟩
  rcases Option.bind_eq_some_iff.mp later with ⟨affected, -, last⟩
  dsimp only at last
  rw [Option.ite_none_left_eq_some, Option.ite_none_left_eq_some, Option.ite_none_left_eq_some,
    Option.ite_none_left_eq_some] at last
  rcases last with ⟨-, filled, impact, left, same⟩
  cases same
  refine ⟨cached, ?_, Bool.eq_false_iff.mpr impact, rfl, ?_⟩
  · intro side
    cases side <;> simp only [component] <;> simp <;> omega
  · intro side
    cases side <;> simp only [component] <;> simp <;> omega

theorem mem_trips_iff (refreshed : List DexPool) (trip : DexPool × Nat) :
    trip ∈ trips powf clock aToB whale post refreshed ↔
      (trip.1 ∈ refreshed ∧ aligned clock aToB whale trip.1 = true) ∧ trip.2 ∈ borrowAmounts ∧
        passes powf clock aToB whale post trip = true := by
  rw [trips, List.mem_flatMap]
  constructor
  · rintro ⟨cp, kept, tried⟩
    rcases List.mem_filter.mp tried with ⟨mapped, passed⟩
    rcases List.mem_map.mp mapped with ⟨borrow, amount, same⟩
    cases same
    exact ⟨List.mem_filter.mp kept, amount, passed⟩
  · rintro ⟨kept, amount, passed⟩
    exact ⟨trip.1, List.mem_filter.mpr kept,
      List.mem_filter.mpr ⟨List.mem_map.mpr ⟨trip.2, amount, rfl⟩, passed⟩⟩

theorem mem_trips_of_bestTrips (refreshed : List DexPool) (trip : DexPool × Nat)
    (member : trip ∈ bestTrips powf clock aToB whale post refreshed) :
    trip ∈ trips powf clock aToB whale post refreshed :=
  List.mem_mergeSort.mp (mem_of_mem_firstPerKey _ _ _ _ member)

theorem bestTrips_eq_nil_iff (refreshed : List DexPool) :
    bestTrips powf clock aToB whale post refreshed = [] ↔
      trips powf clock aToB whale post refreshed = [] := by
  constructor
  · intro none_
    rw [bestTrips] at none_
    rw [List.eq_nil_iff_forall_not_mem]
    intro trip member
    generalize ordered : (trips powf clock aToB whale post refreshed).mergeSort _ = sorted at none_
    rw [← List.mem_mergeSort, ordered] at member
    cases sorted with
    | nil => cases member
    | cons best rest =>
        rw [firstPerKey, if_neg List.not_mem_nil] at none_
        cases none_
  · intro none_
    rw [List.eq_nil_iff_forall_not_mem]
    intro trip member
    have pushed := mem_trips_of_bestTrips powf clock aToB whale post refreshed trip member
    rw [none_] at pushed
    cases pushed

theorem idle_iff (refreshed : List DexPool) :
    Idle powf clock aToB whale post refreshed ↔
      bestTrips powf clock aToB whale post refreshed = [] := by
  rw [bestTrips_eq_nil_iff, List.eq_nil_iff_forall_not_mem]
  constructor
  · intro idle trip member
    rcases (mem_trips_iff powf clock aToB whale post refreshed trip).mp member with
      ⟨⟨fetched, pair⟩, amount, passed⟩
    rw [idle trip.1 fetched pair trip.2 amount] at passed
    cases passed
  · intro absent cp fetched pair borrow amount
    by_contra passed
    exact absent (cp, borrow) ((mem_trips_iff powf clock aToB whale post refreshed _).mpr
      ⟨⟨fetched, pair⟩, amount, Bool.not_eq_false _ ▸ passed⟩)

theorem midAmount_lt (trip : DexPool × Nat) :
    midAmount powf clock aToB whale trip < 2 ^ 64 := by
  rw [midAmount]
  split
  · exact ScannedRoutes.quote_lt powf clock.quotedAt _ _ _
  · exact ScannedRoutes.quote_lt powf clock.quotedAt _ _ _

theorem affectedIsA_of_ne (apart : whale.tokenA ≠ whale.tokenB) :
    affectedIsA whale aToB = !aToB := by
  cases aToB with
  | true => exact decide_eq_false apart
  | false => exact decide_eq_true rfl

/-- The second hop sells against the whale. -/
theorem finalAmount_eq (apart : whale.tokenA ≠ whale.tokenB) (trip : DexPool × Nat) :
    finalAmount powf clock aToB whale post trip =
      xyKQuote (component post (!aToB)) (component post aToB)
        (midAmount powf clock aToB whale trip) true whale.feeBps := by
  rw [finalAmount, affectedIsA_of_ne aToB whale apart]
  cases aToB with
  | true => exact xyKQuote_false _ _ _ _
  | false => rfl

theorem Screened.impact_counted (found : Screened clock cache poolAddr amountIn aToB whale post) :
    component (whale.effectiveReserves clock.readAt) aToB ≤ 100000000 * amountIn := by
  apply counted_of_impact _ _ (found.filled aToB)
  have shown := found.impact
  cases aToB with
  | true => exact shown
  | false => exact shown

/-- Outside the degenerate cases every sale that passes is above the pool's own quote. -/
theorem quote_lt_finalAmount (plain : whale.IsXyK) (words : Words whale)
    (found : Screened clock cache poolAddr amountIn aToB whale post)
    (usual : ¬ Degenerate clock amountIn aToB whale) (trip : DexPool × Nat)
    (tried : trip.2 ∈ borrowAmounts) (passed : passes powf clock aToB whale post trip = true) :
    whale.quote powf clock.readAt (affectedIsA whale aToB)
        (midAmount powf clock aToB whale trip) <
      finalAmount powf clock aToB whale post trip := by
  rw [Degenerate, not_or, not_le] at usual
  rcases usual with ⟨apart, room⟩
  have sale := finalAmount_eq powf clock aToB whale post apart trip
  have own := quote_eq powf whale clock.readAt (!aToB) (midAmount powf clock aToB whale trip) plain
  have read : sides whale clock.readAt (!aToB) =
      (component (whale.effectiveReserves clock.readAt) (!aToB),
        component (whale.effectiveReserves clock.readAt) aToB) := by
    cases aToB <;> rfl
  have filledIn := found.filled (!aToB)
  have filledOut := found.filled aToB
  rw [read, if_neg (by dsimp only; omega)] at own
  have bounds := words.effective clock.readAt
  have inSmall : component (whale.effectiveReserves clock.readAt) (!aToB) < 2 ^ 64 := by
    cases aToB with
    | true => exact bounds.2
    | false => exact bounds.1
  have moved := simulatePostSwap_spec (whale.effectiveReserves clock.readAt).1
    (whale.effectiveReserves clock.readAt).2 amountIn aToB bounds.1 bounds.2
  rw [← found.simulated, Prod.mk.eta] at moved
  have taken : component post aToB =
      component (whale.effectiveReserves clock.readAt) aToB + amountIn := by
    rw [moved.1 (found.left aToB) (found.left (!aToB)), saturatingAdd64, u64Max]
    exact min_eq_left (by omega)
  have judged : JudgedProfitable (finalAmount powf clock aToB whale post trip) trip.2 := by
    rw [passes, decide_eq_true_eq] at passed
    exact passed.2.2.2.2
  have proceeds := profit_of_judged _ trip.2
    (by rw [sale]; exact xyKQuote_lt _ _ _ _ _) tried judged
  have loan : 100000000 ≤ trip.2 := by
    have each : ∀ borrow ∈ borrowAmounts, 100000000 ≤ borrow := by decide
    exact each trip.2 tried
  rw [affectedIsA_of_ne aToB whale apart, own, sale, taken]
  rw [sale, taken] at proceeds
  apply quote_lt_of_moved _ _ _ _ _ _ moved.2 room inSmall
    (midAmount_lt powf clock aToB whale trip) words.feeBps filledOut (by omega)
  calc component (whale.effectiveReserves clock.readAt) aToB
      ≤ 100000000 * amountIn :=
        found.impact_counted clock cache poolAddr amountIn aToB whale post
    _ ≤ _ := Nat.mul_le_mul_right amountIn (by omega)

theorem netProfit_routeOf (trip : DexPool × Nat) :
    (routeOf powf clock poolAddr aToB whale post trip).netProfit =
      netProfit powf clock aToB whale post trip := by
  rw [routeOf]

/-- The routes are those of the trips that are kept. -/
theorem routes_eq (refreshed : List DexPool) :
    firstPerKey (fun route => route.hops.head?.map Hop.pool) []
        (((trips powf clock aToB whale post refreshed).map
          (routeOf powf clock poolAddr aToB whale post)).mergeSort
            (fun a b => decide (b.netProfit ≤ a.netProfit))) =
      (bestTrips powf clock aToB whale post refreshed).map
        (routeOf powf clock poolAddr aToB whale post) := by
  rw [bestTrips, ← List.map_mergeSort, firstPerKey_map]
  · rfl
  · intro a _ b _
    rw [netProfit_routeOf, netProfit_routeOf]

/-- A kept trip's route is as it should be exactly if the case is degenerate and the trip is
spared. -/
theorem met_routeOf_iff (plain : whale.IsXyK) (words : Words whale)
    (found : Screened clock cache poolAddr amountIn aToB whale post) (refreshed : List DexPool)
    (done : refreshCounterpartVaults rpc clock.refreshedAt
      (counterparts clock cache poolAddr aToB whale) = some refreshed)
    (trip : DexPool × Nat) (tried : trip.2 ∈ borrowAmounts)
    (passed : passes powf clock aToB whale post trip = true) :
    Met powf rpc clock cache poolAddr aToB (routeOf powf clock poolAddr aToB whale post trip) ↔
      Degenerate clock amountIn aToB whale ∧
        Spared powf rpc clock cache poolAddr aToB whale post trip := by
  have placed := refreshed_of_refresh rpc clock.refreshedAt _ refreshed done
  have filled : ∀ (place : Nat) (cp : DexPool),
      (counterparts clock cache poolAddr aToB whale)[place]? = some cp →
        ∀ side, 0 < polled cp side := by
    intro place cp at_ side
    have kept := List.mem_filter.mp (List.mem_of_getElem? at_)
    rw [decide_eq_true_eq] at kept
    cases side with
    | true => exact kept.2.2.1
    | false => exact kept.2.2.2.1
  constructor
  · intro met
    have bounded : finalAmount powf clock aToB whale post trip ≤
        whale.quote powf clock.readAt (affectedIsA whale aToB)
          (midAmount powf clock aToB whale trip) :=
      met.secondHop whale found.cached _ rfl _ rfl
    refine ⟨?_, ⟨bounded, ?_⟩⟩
    · by_contra usual
      exact absurd (quote_lt_finalAmount powf clock cache poolAddr amountIn aToB whale post plain
        words found usual trip tried passed) (not_lt.mpr bounded)
    · intro place cp at_ address
      rcases placed.2 place cp at_ with ⟨held, after, written⟩
      rw [← readsFetched_iff _ clock.quotedAt cp held written (filled place cp at_)]
      exact met.firstHop whale refreshed found.cached done _ rfl place held after
        (written.address.trans address)
  · rintro ⟨-, spared⟩
    constructor
    · intro cached same first isFirst second isSecond
      rw [found.cached] at same
      cases same
      cases isFirst
      cases isSecond
      exact spared.bounded
    · intro cached reply same again first isFirst place held after address
      rw [found.cached] at same
      cases same
      rw [done] at again
      cases again
      cases isFirst
      have inside : place < (counterparts clock cache poolAddr aToB whale).length := by
        rw [← placed.1]
        exact (List.getElem?_eq_some_iff.mp after).1
      rcases placed.2 place _ (List.getElem?_eq_getElem inside) with ⟨other, at_, written⟩
      rw [after] at at_
      cases at_
      rw [readsFetched_iff _ clock.quotedAt _ held written
        (filled place _ (List.getElem?_eq_getElem inside))]
      exact spared.fetched place _ (List.getElem?_eq_getElem inside)
        (written.address.symm.trans address)

theorem forall_mem_and_iff {α : Type} (items : List α) (common : Prop) (holds : α → Prop) :
    (∀ item ∈ items, common ∧ holds item) ↔
      items = [] ∨ common ∧ ∀ item ∈ items, holds item := by
  cases items with
  | nil => exact iff_of_true (fun _ member => absurd member List.not_mem_nil) (Or.inl rfl)
  | cons first rest =>
      rw [or_iff_right (List.cons_ne_nil _ _)]
      constructor
      · intro both
        exact ⟨(both first List.mem_cons_self).1, fun item member => (both item member).2⟩
      · rintro ⟨shared, each⟩ item member
        exact ⟨shared, each item member⟩

/-- The routes made on the refreshed counterparts. -/
theorem met_routes_iff (plain : whale.IsXyK) (words : Words whale)
    (found : Screened clock cache poolAddr amountIn aToB whale post) (refreshed : List DexPool)
    (done : refreshCounterpartVaults rpc clock.refreshedAt
      (counterparts clock cache poolAddr aToB whale) = some refreshed) :
    (∀ route ∈ (bestTrips powf clock aToB whale post refreshed).map
        (routeOf powf clock poolAddr aToB whale post),
        Met powf rpc clock cache poolAddr aToB route) ↔
      Idle powf clock aToB whale post refreshed ∨
        Degenerate clock amountIn aToB whale ∧
          ∀ trip ∈ bestTrips powf clock aToB whale post refreshed,
            Spared powf rpc clock cache poolAddr aToB whale post trip := by
  rw [List.forall_mem_map, idle_iff, ← forall_mem_and_iff]
  refine forall₂_congr (fun trip member => ?_)
  have pushed := mem_trips_of_bestTrips powf clock aToB whale post refreshed trip member
  rcases ((mem_trips_iff powf clock aToB whale post refreshed trip).mp pushed).2 with
    ⟨tried, passed⟩
  exact met_routeOf_iff powf rpc clock cache poolAddr amountIn aToB whale post plain words
    found refreshed done trip tried passed

/-- The routes of a call on a constant-product pool. -/
theorem met_iff (cached : cache.get poolAddr = some whale) (plain : whale.IsXyK)
    (words : Words whale) :
    (∀ routes, checkBackrun powf rpc clock cache poolAddr amountIn aToB = some routes →
        ∀ route ∈ routes, Met powf rpc clock cache poolAddr aToB route) ↔
      ∀ post refreshed,
        screened Double clock cache poolAddr amountIn aToB = some (whale, post) →
        refreshCounterpartVaults rpc clock.refreshedAt
          (counterparts clock cache poolAddr aToB whale) = some refreshed →
        Idle powf clock aToB whale post refreshed ∨
          Degenerate clock amountIn aToB whale ∧
            ∀ trip ∈ bestTrips powf clock aToB whale post refreshed,
              Spared powf rpc clock cache poolAddr aToB whale post trip := by
  rw [checkBackrun]
  cases passed : screened Double clock cache poolAddr amountIn aToB with
  | none =>
      refine iff_of_true ?_ ?_
      · intro routes same route member
        cases same
        cases member
      · intro post refreshed absent
        cases absent
  | some screen =>
      rcases screen with ⟨own, post⟩
      have found := screened_spec clock cache poolAddr amountIn aToB own post passed
      have same := found.cached
      rw [cached] at same
      cases same
      dsimp only
      split
      · next empty =>
          have none_ := List.isEmpty_iff.mp empty
          refine iff_of_true ?_ ?_
          · intro routes same route member
            cases same
            cases member
          · intro post' refreshed same done
            rw [none_] at done
            cases done
            exact Or.inl (fun _ member => absurd member List.not_mem_nil)
      · constructor
        · intro met post' refreshed same done
          cases same
          apply (met_routes_iff powf rpc clock cache poolAddr amountIn aToB whale post plain words
            found refreshed done).mp
          apply met
          rw [done, Option.map_some]
          exact congrArg some (routes_eq powf clock poolAddr aToB whale post refreshed)
        · intro spared routes ran
          rcases Option.map_eq_some_iff.mp ran with ⟨refreshed, done, rfl⟩
          rw [routes_eq]
          exact (met_routes_iff powf rpc clock cache poolAddr amountIn aToB whale post plain words
            found refreshed done).mpr (spared post refreshed rfl done)

end Routes

section Recorded

variable (powf : Double → Double → Double) (rpc : Nat → List Pubkey → Option Reply)
  (clock : Clock) (poolAddr : Pubkey) (aToB : Bool)

/-- The processor's test for a whale, on the polled reserve before the swap. -/
def whaleDetected (F : Type) [FloatArith F] (pool : DexPool) (amountIn : Nat) (aToB : Bool) :
    Bool :=
  let reserveIn := polled pool aToB
  let impact : F :=
    if 0 < reserveIn then mul (div (ofNat amountIn) (ofNat reserveIn)) (ofNat 100) else ofNat 0
  le (ofNat 1) impact

/-- What the processor has in the cache when it emits a swap. -/
def recordedPool (pool : DexPool) (swap : Swap) : DexPool :=
  pool.applySwapDelta powf swap.recordedAt swap.amountIn
    (pool.quote powf swap.quotedAt aToB swap.amountIn) aToB

theorem recordedPool_fields (pool : DexPool) (swap : Swap) :
    let out := pool.quote powf swap.quotedAt aToB swap.amountIn
    let after := recordedPool powf aToB pool swap
    after.reserveA =
        (if aToB then saturatingAdd64 pool.reserveA swap.amountIn else pool.reserveA - out) ∧
      after.reserveB =
        (if aToB then pool.reserveB - out else saturatingAdd64 pool.reserveB swap.amountIn) ∧
      after.reserveAOptimistic = pool.reserveAOptimistic ∧
      after.reserveBOptimistic = pool.reserveBOptimistic ∧ after.feeBps = pool.feeBps := by
  by_cases whirlpool : pool.dexType = .orcaWhirlpool
  · cases aToB with
    | true => simp [recordedPool, DexPool.applySwapDelta, whirlpool]
    | false => simp [recordedPool, DexPool.applySwapDelta, whirlpool]
  · cases aToB with
    | true => simp [recordedPool, DexPool.applySwapDelta, whirlpool]
    | false => simp [recordedPool, DexPool.applySwapDelta, whirlpool]

theorem words_recordedPool (pool : DexPool) (swap : Swap) (words : Words pool) :
    Words (recordedPool powf aToB pool swap) := by
  have added : ∀ reserve, saturatingAdd64 reserve swap.amountIn < 2 ^ 64 := by
    intro reserve
    rw [saturatingAdd64, u64Max]
    omega
  have lowered : ∀ reserve out, reserve < 2 ^ 64 → reserve - out < 2 ^ 64 := by
    intro reserve out small
    omega
  rcases recordedPool_fields powf aToB pool swap with ⟨first, second, optimisticA, optimisticB, fee⟩
  constructor
  · rw [first]
    split
    · exact added _
    · exact lowered _ _ words.reserveA
  · rw [second]
    split
    · exact lowered _ _ words.reserveB
    · exact added _
  · rw [optimisticA]
    exact words.reserveAOptimistic
  · rw [optimisticB]
    exact words.reserveBOptimistic
  · rw [fee]
    exact words.feeBps

/-- After a swap was quoted and recorded, the routes are as they should be exactly if there are
none, outside the degenerate cases. -/
theorem recorded_backrun_met_iff (before : PoolStateCache) (pool : DexPool) (swap : Swap)
    (cached : before.get poolAddr = some pool) (plain : pool.IsXyK) (words : Words pool) :
    (∀ routes, checkBackrun powf rpc clock (record powf poolAddr aToB before swap) poolAddr
        swap.amountIn aToB = some routes →
      ∀ route ∈ routes,
        Met powf rpc clock (record powf poolAddr aToB before swap) poolAddr aToB route) ↔
      ∀ post refreshed,
        screened Double clock (record powf poolAddr aToB before swap) poolAddr swap.amountIn aToB =
          some (recordedPool powf aToB pool swap, post) →
        refreshCounterpartVaults rpc clock.refreshedAt
          (counterparts clock (record powf poolAddr aToB before swap) poolAddr aToB
            (recordedPool powf aToB pool swap)) = some refreshed →
        Idle powf clock aToB (recordedPool powf aToB pool swap) post refreshed ∨
          Degenerate clock swap.amountIn aToB (recordedPool powf aToB pool swap) ∧
            ∀ trip ∈ bestTrips powf clock aToB (recordedPool powf aToB pool swap) post refreshed,
              Spared powf rpc clock (record powf poolAddr aToB before swap) poolAddr aToB
                (recordedPool powf aToB pool swap) post trip :=
  met_iff powf rpc clock _ poolAddr swap.amountIn aToB (recordedPool powf aToB pool swap)
    (get_record powf poolAddr aToB before swap pool cached)
    (applySwapDelta_polled powf aToB pool swap.recordedAt swap.amountIn _ plain).1
    (words_recordedPool powf aToB pool swap words)

end Recorded

/-! A tenth of a pool's WSOL goes in, and a counterpart with the old price has an optimistic
copy one second old. -/

def vaultsOf (vaultA vaultB : Nat) : RaydiumMetadata :=
  { authority := default, nonce := 0, openOrders := default, targetOrders := default
    vaultA := .ofNat vaultA, vaultB := .ofNat vaultB
    marketId := default, marketProgram := default, marketEventQueue := default
    marketBids := default, marketAsks := default, marketBaseVault := default
    marketQuoteVault := default, marketVaultSigner := default }

def staleCounterpart : DexPool :=
  { OpportunityScanner.anchoredPool 2 usdc (206 * 10 ^ 9) with
    reserveAOptimistic := 79 * 10 ^ 9, reserveBOptimistic := 206 * 10 ^ 9
    raydiumMeta := some (vaultsOf 11 12) }

def pairedCache : PoolStateCache :=
  (PoolStateCache.new.upsert (OpportunityScanner.anchoredPool 1 usdc (206 * 10 ^ 9))).upsert
    staleCounterpart

def whaleSwap : Swap := ⟨0, 0, 8000000000⟩

def backrunClock : Clock := ⟨10 ^ 9, 10 ^ 9, 10 ^ 9, 10 ^ 9⟩

/-- A token account with an amount in its low two bytes times 2^32. -/
def tokenAccount (high : UInt8) : Account :=
  List.replicate 68 0 ++ [high, 0, 0, 0]

/-- The vaults hold 20 * 2^32 and 45 * 2^32. -/
def vaultReply (_place : Nat) (_keys : List Pubkey) : Option Reply :=
  some [some (tokenAccount 20), some (tokenAccount 45)]

def recordedCache : PoolStateCache :=
  record OpportunityScanner.plainPowf (.ofNat 1) true pairedCache whaleSwap

def recordedWhale : DexPool :=
  recordedPool OpportunityScanner.plainPowf true
    (OpportunityScanner.anchoredPool 1 usdc (206 * 10 ^ 9)) whaleSwap

theorem recordedWhale_cached : recordedCache.get (.ofNat 1) = some recordedWhale :=
  get_record OpportunityScanner.plainPowf (.ofNat 1) true pairedCache whaleSwap _ rfl

def recordedPost : Nat × Nat := simulatePostSwap 87000000000 187100482870 8000000000 true

/-- The counterpart with the balances fetched for it. -/
def refreshedCounterpart : DexPool :=
  { staleCounterpart with
    reserveA := 20 * 2 ^ 32, reserveB := 45 * 2 ^ 32, lastUpdated := 10 ^ 9 }

theorem recordedWhale_screened :
    screened Double backrunClock recordedCache (.ofNat 1) 8000000000 true =
      some (recordedWhale, recordedPost) := by
  decide +kernel

theorem staleCounterpart_refreshed :
    refreshCounterpartVaults vaultReply backrunClock.refreshedAt
        (counterparts backrunClock recordedCache (.ofNat 1) true recordedWhale) =
      some [refreshedCounterpart] := by
  decide +kernel

theorem words_recordedWhale : Words recordedWhale :=
  words_recordedPool OpportunityScanner.plainPowf true _ whaleSwap
    ⟨by decide, by decide, by decide, by decide, by decide⟩

/-- A route sells above the pool's quote, and the first hop reads 79 * 10^9 where 20 * 2^32 was
fetched. -/
theorem whale_counted_twice :
    whaleDetected Double (OpportunityScanner.anchoredPool 1 usdc (206 * 10 ^ 9)) 8000000000 true =
        true ∧
      (¬ ∀ routes, checkBackrun OpportunityScanner.plainPowf vaultReply backrunClock recordedCache
          (.ofNat 1) 8000000000 true = some routes →
        ∀ route ∈ routes, Met OpportunityScanner.plainPowf vaultReply backrunClock recordedCache
          (.ofNat 1) true route) ∧
      fetchedBalance vaultReply
          (counterparts backrunClock recordedCache (.ofNat 1) true recordedWhale) 0 true =
        some (20 * 2 ^ 32) ∧
      component (refreshedCounterpart.effectiveReserves backrunClock.quotedAt) true =
        79 * 10 ^ 9 := by
  have plain : recordedWhale.IsXyK := ⟨rfl, rfl⟩
  refine ⟨by decide +kernel, ?_, by decide +kernel, by decide +kernel⟩
  rw [met_iff OpportunityScanner.plainPowf vaultReply backrunClock recordedCache (.ofNat 1)
    8000000000 true recordedWhale recordedWhale_cached plain words_recordedWhale]
  intro spared
  have kept := spared recordedPost [refreshedCounterpart] recordedWhale_screened
    staleCounterpart_refreshed
  have pays : passes OpportunityScanner.plainPowf backrunClock true recordedWhale recordedPost
      (refreshedCounterpart, 1000000000) = true := by decide +kernel
  rcases kept with idle | ⟨same | full, -⟩
  · have fails := idle refreshedCounterpart (List.mem_singleton_self _) (by decide +kernel)
      1000000000 (by decide)
    rw [pays] at fails
    cases fails
  · exact absurd same (by decide +kernel)
  · exact absurd full (by decide +kernel)

theorem recorded_backrun_met_iff_whaleSwap :
    (∀ routes, checkBackrun OpportunityScanner.plainPowf vaultReply backrunClock
        (record OpportunityScanner.plainPowf (.ofNat 1) true pairedCache whaleSwap) (.ofNat 1)
        whaleSwap.amountIn true = some routes →
      ∀ route ∈ routes, Met OpportunityScanner.plainPowf vaultReply backrunClock
        (record OpportunityScanner.plainPowf (.ofNat 1) true pairedCache whaleSwap) (.ofNat 1) true
        route) ↔
      ∀ post refreshed,
        screened Double backrunClock
            (record OpportunityScanner.plainPowf (.ofNat 1) true pairedCache whaleSwap) (.ofNat 1)
            whaleSwap.amountIn true = some (recordedWhale, post) →
        refreshCounterpartVaults vaultReply backrunClock.refreshedAt
          (counterparts backrunClock
            (record OpportunityScanner.plainPowf (.ofNat 1) true pairedCache whaleSwap) (.ofNat 1)
            true recordedWhale) = some refreshed →
        Idle OpportunityScanner.plainPowf backrunClock true recordedWhale post refreshed ∨
          Degenerate backrunClock whaleSwap.amountIn true recordedWhale ∧
            ∀ trip ∈ bestTrips OpportunityScanner.plainPowf backrunClock true recordedWhale post
                refreshed,
              Spared OpportunityScanner.plainPowf vaultReply backrunClock
                (record OpportunityScanner.plainPowf (.ofNat 1) true pairedCache whaleSwap)
                (.ofNat 1) true recordedWhale post trip :=
  recorded_backrun_met_iff OpportunityScanner.plainPowf vaultReply backrunClock (.ofNat 1) true
    pairedCache (OpportunityScanner.anchoredPool 1 usdc (206 * 10 ^ 9)) whaleSwap rfl ⟨rfl, rfl⟩
    ⟨by decide, by decide, by decide, by decide, by decide⟩

end Helios.WhaleBackrun
