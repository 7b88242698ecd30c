import Helios.Fallible
import Helios.HeliosProgram

/-! A two-hop route from the scanner to the on-chain profit check, over pools
that swap exactly as they quote. The builder lets the second hop spend only 95 %
of what the first is quoted to pay. -/

namespace Helios.RouteExecution

open CrossDex Fallible HeliosProgram Machine TxBuilder

/-- The user's token accounts, by mint. -/
abbrev Wallet := Pubkey → Nat

def swapped (wallet : Wallet) (tokenIn tokenOut : Pubkey) (spent received : Nat) : Wallet :=
  fun token =>
    if token = tokenIn then wallet token - spent
    else if token = tokenOut then wallet token + received
    else wallet token

/-- The `amount_in` written in a hop's data. -/
def encodedAmountIn (dex : DexType) (data : List UInt8) : Nat :=
  ofLeBytes ((data.drop (if dex = .raydiumAmmV4 then 1 else 8)).take 8)

/-- The constant-product quote of a pool on its effective reserves. -/
def xyQuote (pool : DexPool) (now : Instant) (aToB : Bool) (amountIn : Nat) : Nat :=
  let (ra, rb) := pool.effectiveReserves now
  if ra = 0 ∨ rb = 0 then 0
  else if aToB then DexPool.xyKQuote ra rb pool.feeBps amountIn
  else DexPool.xyKQuote rb ra pool.feeBps amountIn

/-- 95 % of the buy pool's quote for the borrow, sold on the sell pool, still
pays the borrow back. -/
def DiscountCovered (buyPool sellPool : DexPool) (now : Instant) (tokenA tokenB : Pubkey)
    (borrowAmount : Nat) : Prop :=
  borrowAmount ≤ xyQuote sellPool now (decide (sellPool.tokenA = tokenB))
    (saturatingMul64 (xyQuote buyPool now (decide (buyPool.tokenA = tokenA)) borrowAmount) 95 / 100)

instance (buyPool sellPool : DexPool) (now : Instant) (tokenA tokenB : Pubkey)
    (borrowAmount : Nat) :
    Decidable (DiscountCovered buyPool sellPool now tokenA tokenB borrowAmount) := by
  unfold DiscountCovered
  infer_instance

section Data

theorem encodedAmountIn_buildSwapData (dex : DexType) (amountIn minOut : Nat) (aToB : Bool)
    (arrays : Nat) (data : List UInt8)
    (written : buildSwapData dex amountIn minOut aToB arrays = .ok data)
    (bound : amountIn < 2 ^ 64) : encodedAmountIn dex data = amountIn := by
  have value := fun front rest => ofLeBytes_at front rest amountIn bound
  cases dex with
  | raydiumAmmV4 =>
      cases written
      rw [encodedAmountIn, if_pos rfl]
      exact value [9] _
  | orcaWhirlpool =>
      cases written
      rw [encodedAmountIn, if_neg (by decide), orcaSwapV2Data]
      simp only [List.append_assoc]
      exact value [43, 4, 237, 11, 26, 201, 30, 98] _
  | meteoraDlmm =>
      cases written
      rw [encodedAmountIn, if_neg (by decide)]
      exact value [248, 198, 244, 145, 90, 24, 30, 227] _
  | pumpSwap =>
      cases written
      rw [encodedAmountIn, if_neg (by decide)]
      cases aToB with
      | false => exact value [102, 6, 61, 18, 1, 218, 235, 234] _
      | true => exact value [51, 230, 133, 164, 1, 127, 131, 173] _
  | raydiumClmm => cases written
  | fluxbeam => cases written
  | saber => cases written
  | raydiumCpmm => cases written
  | unknown => cases written

theorem buildSwapData_length (dex : DexType) (amountIn minOut : Nat) (aToB : Bool) (arrays : Nat)
    (data : List UInt8) (written : buildSwapData dex amountIn minOut aToB arrays = .ok data) :
    data.length < 2 ^ 32 := by
  cases dex with
  | raydiumAmmV4 =>
      cases written
      simp
  | orcaWhirlpool =>
      cases written
      rw [orcaSwapV2Data]
      by_cases many : 0 < arrays
      · simp [many]
      · simp [many]
  | meteoraDlmm =>
      cases written
      simp
  | pumpSwap =>
      cases written
      split
      · simp
      · simp
  | raydiumClmm => cases written
  | fluxbeam => cases written
  | saber => cases written
  | raydiumCpmm => cases written
  | unknown => cases written

end Data

section Quotes

variable {F : Type} [FloatArith F] (powf : F → F → F)

theorem quote_of_isXyK (pool : DexPool) (now : Instant) (aToB : Bool) (amountIn : Nat)
    (plain : pool.IsXyK) : pool.quote powf now aToB amountIn = xyQuote pool now aToB amountIn := by
  rw [DexPool.quote, xyQuote, plain.1, plain.2]

theorem xyKQuote_lt (reserveIn reserveOut feeBps amountIn : Nat) :
    DexPool.xyKQuote reserveIn reserveOut feeBps amountIn < 2 ^ 64 := by
  rw [DexPool.xyKQuote]
  exact Nat.mod_lt _ (by norm_num)

theorem xyKQuote_zero (reserveIn reserveOut feeBps : Nat) :
    DexPool.xyKQuote reserveIn reserveOut feeBps 0 = 0 := by
  simp [DexPool.xyKQuote, wrap]

theorem xyQuote_lt (pool : DexPool) (now : Instant) (aToB : Bool) (amountIn : Nat) :
    xyQuote pool now aToB amountIn < 2 ^ 64 := by
  rw [xyQuote]
  dsimp only
  split
  · norm_num
  · split
    · exact xyKQuote_lt _ _ _ _
    · exact xyKQuote_lt _ _ _ _

theorem xyQuote_zero (pool : DexPool) (now : Instant) (aToB : Bool) :
    xyQuote pool now aToB 0 = 0 := by
  simp only [xyQuote, xyKQuote_zero, ite_self]

/-- What the second hop spends is at most what the first received. -/
theorem discounted_le (amount : Nat) : saturatingMul64 amount 95 / 100 ≤ amount := by
  have less : min (amount * 95) u64Max ≤ amount * 95 := Nat.min_le_left _ _
  rw [saturatingMul64]
  omega

end Quotes

section Builder

variable {F : Type} [FloatArith F] (powf : F → F → F) (builder : TxBuilder)

/-- What a hop that was built tells about its pool, its accounts and its data. -/
structure HopBuilt (cache : PoolStateCache) (tokenPrograms : HashMap Pubkey Pubkey)
    (hopIdx amountIn : Nat) (hop : Hop F) (pool : DexPool) (built : BuiltHop) : Prop where
  tokens : checkTokens hopIdx hop pool = .ok ()
  accounts : ∃ ctx : HopContext F, ctx.hop = hop ∧ ctx.pool = pool ∧
    builder.associatedTokenAddressWithProgram builder.payer hop.tokenIn
      (tokenProgramOf tokenPrograms hop.tokenIn) = .ok ctx.userSource ∧
    builder.associatedTokenAddressWithProgram builder.payer hop.tokenOut
      (tokenProgramOf tokenPrograms hop.tokenOut) = .ok ctx.userDestination ∧
    builder.hopAccounts powf (DexType.fromProgramId hop.dexProgram) ctx = .ok built.accounts
  data : buildSwapData (DexType.fromProgramId hop.dexProgram) amountIn minOut
    (decide (hop.tokenIn = pool.tokenA))
    (orcaSupplementalTickArrays (DexType.fromProgramId hop.dexProgram)) = .ok built.data

theorem hopBuilt_of_ok (cache : PoolStateCache) (tokenPrograms : HashMap Pubkey Pubkey)
    (hopIdx amountIn : Nat) (hop : Hop F) (pool : DexPool) (built : BuiltHop)
    (cached : cache.get hop.pool = some pool)
    (done : builder.buildHop powf cache tokenPrograms hopIdx amountIn hop = .ok built) :
    HopBuilt powf builder cache tokenPrograms hopIdx amountIn hop pool built := by
  simp only [buildHop, cached, bind_eq_ok_iff] at done
  rcases done with ⟨_, tokens, source, sourceDone, destination, destinationDone, accounts, listed,
    data, written, same⟩
  cases same
  exact ⟨tokens, ⟨_, rfl, rfl, sourceDone, destinationDone, listed⟩, written⟩

omit [FloatArith F] in
theorem checkTokens_spec (hopIdx : Nat) (hop : Hop F) (pool : DexPool)
    (tokens : checkTokens hopIdx hop pool = .ok ()) :
    hop.tokenIn ≠ hop.tokenOut ∧ (hop.tokenIn = pool.tokenA ∨ hop.tokenIn = pool.tokenB) ∧
      (hop.tokenOut = pool.tokenA ∨ hop.tokenOut = pool.tokenB) := by
  unfold checkTokens at tokens
  split at tokens
  · cases tokens
  · next different =>
      split at tokens
      · cases tokens
      · next inside =>
          split at tokens
          · cases tokens
          · next outside =>
              exact ⟨different, or_iff_not_and_not.mpr inside, or_iff_not_and_not.mpr outside⟩

/-- Constant-product pools are built for two DEXes, with eighteen accounts each
and the program first. -/
theorem hopAccounts_of_isXyK (hop : Hop F) (pool : DexPool) (plain : pool.IsXyK)
    (program : hop.dexProgram = dexProgramFor pool.dexType) (ctx : HopContext F)
    (sameHop : ctx.hop = hop) (samePool : ctx.pool = pool) (accounts : List AccountMeta)
    (listed : builder.hopAccounts powf (DexType.fromProgramId hop.dexProgram) ctx = .ok accounts) :
    ∃ first rest, accounts = first :: rest ∧ rest.length = 17 ∧
      first.pubkey ∈ initialWhitelist := by
  subst sameHop samePool
  rw [program, fromProgramId_dexProgramFor] at listed
  unfold hopAccounts at listed
  cases dex : ctx.pool.dexType with
  | raydiumAmmV4 =>
      rw [dex] at listed program
      simp only [raydiumAccounts] at listed
      split at listed
      · cases listed
      · split at listed
        · cases listed
          refine ⟨_, _, rfl, rfl, ?_⟩
          rw [AccountMeta.newReadonly, program]
          exact List.mem_cons_self
        · cases listed
  | orcaWhirlpool =>
      rw [dex] at listed
      simp only [orcaAccounts, plain.1] at listed
      cases listed
  | meteoraDlmm =>
      rw [dex] at listed
      simp only [meteoraAccounts, plain.2] at listed
      cases listed
  | pumpSwap =>
      rw [dex] at listed
      simp only [pumpSwapAccounts, bind_eq_ok_iff] at listed
      rcases listed with ⟨_, _, _, _, _, _, _, _, _, _, _, _, _, _, _, _, same⟩
      cases same
      refine ⟨_, _, rfl, rfl, ?_⟩
      rw [AccountMeta.newReadonly, initialWhitelist]
      simp only [List.mem_cons, true_or, or_true]
  | raydiumClmm => rw [dex] at listed; cases listed
  | fluxbeam => rw [dex] at listed; cases listed
  | saber => rw [dex] at listed; cases listed
  | raydiumCpmm => rw [dex] at listed; cases listed
  | unknown => rw [dex] at listed; cases listed

/-- What the hop at a place spends: the borrow at first, then what the builder lets
the hop before pass on. -/
def spentAt (next : Hop F → Nat) (borrowAmount : Nat) (hops : List (Hop F)) : Nat → Nat
  | 0 => borrowAmount
  | place + 1 => (hops[place]?.map next).getD 0

omit [FloatArith F] in
theorem spentAt_cons (next : Hop F → Nat) (borrowAmount : Nat) (hop : Hop F)
    (rest : List (Hop F)) (place : Nat) :
    spentAt next borrowAmount (hop :: rest) (place + 1) = spentAt next (next hop) rest place := by
  cases place with
  | zero => rfl
  | succ before => rfl

/-- Each hop of a route is built with its place and what it spends. -/
theorem buildHops_each (cache : PoolStateCache) (tokenPrograms : HashMap Pubkey Pubkey)
    (hops : List (Hop F)) (hopIdx amountIn : Nat) (built : List BuiltHop)
    (done : builder.buildHops powf cache tokenPrograms hopIdx amountIn hops = .ok built) :
    built.length = hops.length ∧ ∀ place hop, hops[place]? = some hop →
      ∃ builtHop, built[place]? = some builtHop ∧
        builder.buildHop powf cache tokenPrograms (hopIdx + place)
          (spentAt safeOut amountIn hops place) hop = .ok builtHop := by
  induction hops generalizing hopIdx amountIn built with
  | nil =>
      cases done
      refine ⟨rfl, ?_⟩
      intro place hop found
      cases found
  | cons first rest ih =>
      simp only [buildHops, bind_eq_ok_iff] at done
      rcases done with ⟨head, headDone, tail, tailDone, same⟩
      cases same
      rcases ih (hopIdx + 1) (safeOut first) tail tailDone with ⟨length, each⟩
      refine ⟨by rw [List.length_cons, List.length_cons, length], ?_⟩
      intro place hop found
      cases place with
      | zero =>
          cases found
          exact ⟨head, rfl, headDone⟩
      | succ before =>
          rcases each before hop found with ⟨builtHop, here, hopDone⟩
          refine ⟨builtHop, here, ?_⟩
          rw [spentAt_cons, Nat.add_comm before 1, ← Nat.add_assoc]
          exact hopDone

theorem buildHop_data_length (cache : PoolStateCache) (tokenPrograms : HashMap Pubkey Pubkey)
    (hopIdx amountIn : Nat) (hop : Hop F) (built : BuiltHop)
    (done : builder.buildHop powf cache tokenPrograms hopIdx amountIn hop = .ok built) :
    built.data.length < 2 ^ 32 := by
  cases cached : cache.get hop.pool with
  | none =>
      rw [buildHop, cached] at done
      cases done
  | some pool =>
      have spec := hopBuilt_of_ok powf builder cache tokenPrograms hopIdx amountIn hop pool built
        cached done
      exact buildSwapData_length _ _ _ _ _ _ spec.data

/-- The arguments of a built route survive their encoding. -/
theorem flashArbArgs_fits (cache : PoolStateCache) (tokenPrograms : HashMap Pubkey Pubkey)
    (route : RouteParams F) (hops : List BuiltHop) (small : route.borrowAmount < 2 ^ 64)
    (short : route.hops.length < 2 ^ 32)
    (built : builder.buildHops powf cache tokenPrograms 0 route.borrowAmount route.hops =
      .ok hops) : (flashArbArgs route hops).Fits := by
  rcases buildHops_each powf builder cache tokenPrograms route.hops 0 route.borrowAmount hops
    built with ⟨length, each⟩
  have count : hops.length < 2 ^ 32 := length ▸ short
  refine ⟨small, by norm_num [flashArbArgs], ?_, ?_, ?_⟩
  · rw [flashArbArgs, List.length_map]
    exact count
  · rw [flashArbArgs, List.length_map]
    exact count
  · intro data member
    rcases List.mem_map.mp member with ⟨builtHop, inside, same⟩
    rcases List.mem_iff_getElem?.mp inside with ⟨place, found⟩
    have within : place < route.hops.length := length ▸ (List.getElem?_eq_some_iff.mp found).1
    rcases each place _ (List.getElem?_eq_getElem within) with ⟨other, here, done⟩
    rw [found] at here
    cases here
    rw [← same]
    exact buildHop_data_length powf builder cache tokenPrograms _ _ _ _ done

theorem buildHops_two_ok (cache : PoolStateCache) (tokenPrograms : HashMap Pubkey Pubkey)
    (amountIn : Nat) (firstHop secondHop : Hop F) (hops : List BuiltHop)
    (done : builder.buildHops powf cache tokenPrograms 0 amountIn [firstHop, secondHop] =
      .ok hops) :
    ∃ first second, hops = [first, second] ∧
      builder.buildHop powf cache tokenPrograms 0 amountIn firstHop = .ok first ∧
      builder.buildHop powf cache tokenPrograms 1 (safeOut firstHop) secondHop = .ok second := by
  simp only [buildHops, bind_eq_ok_iff] at done
  rcases done with ⟨first, firstDone, rest, ⟨second, secondDone, none, last, restIs⟩, same⟩
  cases last
  cases restIs
  cases same
  exact ⟨first, second, rfl, firstDone, secondDone⟩

theorem buildHeliosInstruction_ok (cache : PoolStateCache) (route : RouteParams F)
    (user : Pubkey) (tokenPrograms : HashMap Pubkey Pubkey) (ix : Instruction)
    (done : builder.buildHeliosInstruction powf route user cache tokenPrograms = .ok ix) :
    ∃ hops, builder.buildHops powf cache tokenPrograms 0 route.borrowAmount route.hops = .ok hops ∧
      ix.accounts.drop 4 = hops.flatMap BuiltHop.accounts ∧
      ix.data = executeFlashArbDiscriminator ++ (flashArbArgs route hops).serialize := by
  simp only [buildHeliosInstruction, bind_eq_ok_iff] at done
  rcases done with ⟨hops, built, config, _, same⟩
  cases same
  exact ⟨hops, built, rfl, rfl⟩

omit [FloatArith F] in
/-- The executor reads back the arguments it wrote, unless nothing is borrowed. -/
theorem decode_of_data (route : RouteParams F) (hops : List BuiltHop) (ix : Instruction)
    (data : ix.data = executeFlashArbDiscriminator ++ (flashArbArgs route hops).serialize)
    (fits : (flashArbArgs route hops).Fits) :
    decodeHeliosFlashArbArgs ix =
      if route.borrowAmount ≠ 0 then some (flashArbArgs route hops) else none := by
  have long : ¬ ix.data.length < 8 := by
    rw [data, List.length_append]
    simp [executeFlashArbDiscriminator]
  have payload : ix.data.drop 8 = (flashArbArgs route hops).serialize := by
    rw [data]
    exact List.drop_left' rfl
  rw [decodeHeliosFlashArbArgs, if_neg long, payload,
    ExecuteFlashArbArgs.tryFromSlice_serialize _ fits, Option.filter_some]
  by_cases borrows : route.borrowAmount = 0
  · simp [flashArbArgs, borrows]
  · simp [flashArbArgs, borrows]

omit [FloatArith F] in
theorem decode_of_built (route : RouteParams F) (hops : List BuiltHop) (ix : Instruction)
    (data : ix.data = executeFlashArbDiscriminator ++ (flashArbArgs route hops).serialize)
    (fits : (flashArbArgs route hops).Fits) (borrows : route.borrowAmount ≠ 0) :
    decodeHeliosFlashArbArgs ix = some (flashArbArgs route hops) := by
  rw [decode_of_data route hops ix data fits, if_pos borrows]

end Builder

section Execution

variable {F : Type} [FloatArith F] (powf : F → F → F) (now : Instant) (builder : TxBuilder)
variable {State : Type} (runtime : Runtime State) (wallet : State → Wallet)

/-- The pools swap exactly as they quote: a call made from a built hop spends the
amount its data encodes, if the user has it, and pays the cached pool's quote. -/
def SwapsAsQuoted (cache : PoolStateCache) (tokenPrograms : HashMap Pubkey Pubkey)
    (route : RouteParams F) : Prop :=
  ∀ hop ∈ route.hops, ∀ pool, cache.get hop.pool = some pool → ∀ hopIdx amountIn built,
    builder.buildHop powf cache tokenPrograms hopIdx amountIn hop = .ok built →
    ∀ program others, (program :: others).map AccountInfo.key =
      built.accounts.map AccountMeta.pubkey → ∀ state,
    encodedAmountIn (DexType.fromProgramId hop.dexProgram) built.data ≤
      wallet state hop.tokenIn →
    ∃ after, runtime.invoke state (hopInstruction program others built.data) (program :: others) =
        .ok after ∧
      wallet after = swapped (wallet state) hop.tokenIn hop.tokenOut
        (encodedAmountIn (DexType.fromProgramId hop.dexProgram) built.data)
        (pool.quote powf now (decide (hop.tokenIn = pool.tokenA))
          (encodedAmountIn (DexType.fromProgramId hop.dexProgram) built.data))

/-- The accounts a transaction hands the program: those of the instruction, with
the listed DEX programs deployed. -/
structure Presents (config : HeliosConfig) (metas : List AccountMeta)
    (infos : List AccountInfo) : Prop where
  keys : infos.map AccountInfo.key = metas.map AccountMeta.pubkey
  deployed : ∀ info ∈ infos, info.key ∈ config.dexWhitelist → info.executable = true

theorem presents_append (config : HeliosConfig) (left right : List AccountMeta)
    (infos : List AccountInfo) (presents : Presents config (left ++ right) infos) :
    ∃ first rest, infos = first ++ rest ∧ Presents config left first ∧
      Presents config right rest := by
  have keys := presents.keys
  rw [List.map_append, List.map_eq_append_iff] at keys
  rcases keys with ⟨first, rest, split, firstKeys, restKeys⟩
  refine ⟨first, rest, split, ⟨firstKeys, ?_⟩, ⟨restKeys, ?_⟩⟩
  · intro info member
    exact presents.deployed info (split ▸ List.mem_append_left rest member)
  · intro info member
    exact presents.deployed info (split ▸ List.mem_append_right first member)

/-- One hop on chain: its call is allowed, and moves the quoted amounts. -/
theorem executeHop_swaps (authority : Pubkey) (cache : PoolStateCache)
    (tokenPrograms : HashMap Pubkey Pubkey) (route : RouteParams F)
    (swaps : SwapsAsQuoted powf now builder runtime wallet cache tokenPrograms route)
    (hop : Hop F) (member : hop ∈ route.hops) (pool : DexPool) (plain : pool.IsXyK)
    (cached : cache.get hop.pool = some pool)
    (program : hop.dexProgram = dexProgramFor pool.dexType) (hopIdx amountIn : Nat)
    (small : amountIn < 2 ^ 64) (built : BuiltHop)
    (done : builder.buildHop powf cache tokenPrograms hopIdx amountIn hop = .ok built)
    (infos : List AccountInfo)
    (presents : Presents (initializeConfig authority) built.accounts infos) (state : State)
    (funded : amountIn ≤ wallet state hop.tokenIn) :
    infos.length = 18 ∧ ∃ after,
      executeHop runtime (initializeConfig authority) infos built.data state = .ok after ∧
      wallet after = swapped (wallet state) hop.tokenIn hop.tokenOut amountIn
        (xyQuote pool now (decide (hop.tokenIn = pool.tokenA)) amountIn) := by
  have spec := hopBuilt_of_ok powf builder cache tokenPrograms hopIdx amountIn hop pool built
    cached done
  rcases spec.accounts with ⟨ctx, sameHop, samePool, -, -, listed⟩
  rcases hopAccounts_of_isXyK powf builder hop pool plain program ctx sameHop samePool
    built.accounts listed with ⟨first, rest, shape, count, allowed⟩
  have spends := encodedAmountIn_buildSwapData _ amountIn _ _ _ built.data spec.data small
  have keys := presents.keys
  rw [shape, List.map_cons] at keys
  cases infos with
  | nil => cases keys
  | cons info others =>
      rw [List.map_cons, List.cons.injEq] at keys
      have lengths := congrArg List.length keys.2
      rw [List.length_map, List.length_map, count] at lengths
      have known : info.key ∈ (initializeConfig authority).dexWhitelist := keys.1 ▸ allowed
      rcases swaps hop member pool cached hopIdx amountIn built done info others presents.keys
        state (spends.symm ▸ funded) with ⟨after, called, moved⟩
      refine ⟨by rw [List.length_cons, lengths], after, ?_, ?_⟩
      · rw [executeHop_of_allowed runtime _ info others built.data state known
          (presents.deployed info List.mem_cons_self known)]
        exact called
      · rw [moved, spends, quote_of_isXyK powf pool now _ _ plain]

/-- A two-hop route over constant-product pools, as the builder and the program
see it. -/
structure PlainRoute (cache : PoolStateCache) (buyPool sellPool : DexPool)
    (tokenA tokenB : Pubkey) (borrowAmount : Nat) (route : RouteParams F)
    (firstHop secondHop : Hop F) : Prop where
  hops : route.hops = [firstHop, secondHop]
  borrowed : route.borrowAmount = borrowAmount
  small : borrowAmount < 2 ^ 64
  buyPlain : buyPool.IsXyK
  sellPlain : sellPool.IsXyK
  buyCached : cache.get firstHop.pool = some buyPool
  sellCached : cache.get secondHop.pool = some sellPool
  buyProgram : firstHop.dexProgram = dexProgramFor buyPool.dexType
  sellProgram : secondHop.dexProgram = dexProgramFor sellPool.dexType
  buyIn : firstHop.tokenIn = tokenA
  buyOut : firstHop.tokenOut = tokenB
  sellIn : secondHop.tokenIn = tokenB
  sellOut : secondHop.tokenOut = tokenA
  quoted : firstHop.amountOut = xyQuote buyPool now (decide (buyPool.tokenA = tokenA)) borrowAmount

/-- What the two swaps leave in the wallet's borrow-token account. -/
def balanceAfter (buyPool sellPool : DexPool) (tokenA tokenB : Pubkey)
    (borrowAmount before : Nat) : Nat :=
  before - borrowAmount + xyQuote sellPool now (decide (sellPool.tokenA = tokenB))
    (saturatingMul64 (xyQuote buyPool now (decide (buyPool.tokenA = tokenA)) borrowAmount) 95 / 100)

theorem executeHops_balance (authority : Pubkey) (cache : PoolStateCache)
    (tokenPrograms : HashMap Pubkey Pubkey) (buyPool sellPool : DexPool) (tokenA tokenB : Pubkey)
    (borrowAmount : Nat) (route : RouteParams F) (firstHop secondHop : Hop F)
    (plain : PlainRoute now cache buyPool sellPool tokenA tokenB borrowAmount route firstHop
      secondHop)
    (swaps : SwapsAsQuoted powf now builder runtime wallet cache tokenPrograms route)
    (hops : List BuiltHop)
    (built : builder.buildHops powf cache tokenPrograms 0 route.borrowAmount route.hops = .ok hops)
    (infos : List AccountInfo)
    (presents : Presents (initializeConfig authority) (hops.flatMap BuiltHop.accounts) infos)
    (start : State) (funded : borrowAmount ≤ wallet start tokenA) :
    ∃ after, executeHops runtime (initializeConfig authority) infos
        (flashArbArgs route hops).hopAccountCounts (flashArbArgs route hops).hopData start =
          .ok after ∧
      wallet after tokenA =
        balanceAfter now buyPool sellPool tokenA tokenB borrowAmount (wallet start tokenA) := by
  rw [plain.hops] at built
  rcases buildHops_two_ok powf builder cache tokenPrograms _ firstHop secondHop hops built with
    ⟨first, second, shape, firstDone, secondDone⟩
  subst shape
  rw [plain.borrowed] at firstDone
  have firstSpec := hopBuilt_of_ok powf builder cache tokenPrograms 0 _ firstHop buyPool first
    plain.buyCached firstDone
  have different : tokenA ≠ tokenB := by
    have tokens := (checkTokens_spec 0 firstHop buyPool firstSpec.tokens).1
    rwa [plain.buyIn, plain.buyOut] at tokens
  rw [List.flatMap_cons, List.flatMap_cons, List.flatMap_nil, List.append_nil] at presents
  rcases presents_append _ first.accounts second.accounts infos presents with
    ⟨firstInfos, secondInfos, split, firstPresents, secondPresents⟩
  subst split
  have firstIn : firstHop ∈ route.hops := by
    rw [plain.hops]
    exact List.mem_cons_self
  have secondIn : secondHop ∈ route.hops := by
    rw [plain.hops]
    exact List.mem_cons_of_mem _ (List.mem_singleton.mpr rfl)
  rcases executeHop_swaps powf now builder runtime wallet authority cache tokenPrograms route swaps
    firstHop firstIn buyPool plain.buyPlain plain.buyCached plain.buyProgram 0 borrowAmount
    plain.small first firstDone firstInfos firstPresents start (plain.buyIn.symm ▸ funded) with
    ⟨firstCount, middle, firstRan, firstMoved⟩
  have spent : safeOut firstHop =
      saturatingMul64 (xyQuote buyPool now (decide (buyPool.tokenA = tokenA)) borrowAmount) 95 /
        100 := by
    rw [safeOut, plain.quoted]
  have received : wallet middle tokenB = wallet start tokenB +
      xyQuote buyPool now (decide (tokenA = buyPool.tokenA)) borrowAmount := by
    rw [firstMoved, plain.buyIn, plain.buyOut, swapped, if_neg different.symm, if_pos rfl]
  have paid : wallet middle tokenA = wallet start tokenA - borrowAmount := by
    rw [firstMoved, plain.buyIn, swapped, if_pos rfl]
  have flip : decide (tokenA = buyPool.tokenA) = decide (buyPool.tokenA = tokenA) :=
    decide_eq_decide.mpr eq_comm
  have fundedSecond : safeOut firstHop ≤ wallet middle secondHop.tokenIn := by
    rw [plain.sellIn, received, spent, flip]
    exact Nat.le_trans (discounted_le _) (Nat.le_add_left _ _)
  have smallSecond : safeOut firstHop < 2 ^ 64 := by
    rw [spent]
    exact lt_of_le_of_lt (discounted_le _) (xyQuote_lt _ _ _ _)
  rcases executeHop_swaps powf now builder runtime wallet authority cache tokenPrograms route swaps
    secondHop secondIn sellPool plain.sellPlain plain.sellCached plain.sellProgram 1
    (safeOut firstHop) smallSecond second secondDone secondInfos secondPresents middle
    fundedSecond with ⟨secondCount, after, secondRan, secondMoved⟩
  have firstLength : first.accounts.length = 18 := by
    rw [← firstCount, ← List.length_map (f := AccountInfo.key), firstPresents.keys,
      List.length_map]
  have secondLength : second.accounts.length = 18 := by
    rw [← secondCount, ← List.length_map (f := AccountInfo.key), secondPresents.keys,
      List.length_map]
  refine ⟨after, ?_, ?_⟩
  · simp only [executeHops, flashArbArgs, List.map_cons, List.map_nil, List.length_cons,
      List.length_nil, ne_eq, not_true, if_false, List.zip_cons_cons, List.zip_nil_left]
    rw [executeHopList_cons runtime _ _ _ _ firstInfos secondInfos start
      (by rw [firstCount, firstLength]; rfl) (List.ne_nil_of_length_eq_add_one firstCount), firstRan,
      ok_bind]
    have last := executeHopList_cons runtime (initializeConfig authority)
      (UInt8.ofNat second.accounts.length) second.data [] secondInfos [] middle
      (by rw [secondCount, secondLength]; rfl) (List.ne_nil_of_length_eq_add_one secondCount)
    rw [List.append_nil] at last
    rw [last, secondRan, ok_bind, executeHopList, if_pos rfl]
  · have sellFlip : decide (tokenB = sellPool.tokenA) = decide (sellPool.tokenA = tokenB) :=
      decide_eq_decide.mpr eq_comm
    rw [secondMoved, plain.sellIn, plain.sellOut, swapped, if_neg different, if_pos rfl, paid,
      spent, sellFlip, balanceAfter]

end Execution

end Helios.RouteExecution
