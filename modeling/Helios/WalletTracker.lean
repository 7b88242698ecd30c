import Helios.FloatOrder
import Helios.KeyText
import Helios.PoolCache
import Helios.Recency

/-! The tracker of wallets: what it keeps of each wallet, how it classes it, and which
patterns it reports. A pattern is reported at most once a minute for a kind, wallet, token
and pool. -/

namespace Helios.WalletTracker

open Machine Runs FloatArith

def minSwapAmount : Nat := 10000000
def maxTrackedWallets : Nat := 50000
def walletHistorySize : Nat := 100
def fastFlipSlots : Nat := 10

def seconds (count : Nat) : Nat := count * 10 ^ 9

/-- How long a reported pattern is not reported again. -/
def patternWindow : Nat := seconds 60

/-- A decoded swap, with its tokens. -/
structure SwapInfo where
  signer : Pubkey
  programId : Pubkey
  pool : Pubkey
  tokenIn : Pubkey
  tokenOut : Pubkey
  amountIn : Nat
  amountOut : Nat
  aToB : Bool

inductive Category where
  | unknown
  | bot
  | whale
  | smartMoney
  deriving DecidableEq

section Types

variable (F : Type)

structure WalletSwapEvent where
  slot : Nat
  dexType : DexType
  pool : Pubkey
  tokenIn : Pubkey
  tokenOut : Pubkey
  amountIn : Nat
  amountOut : Nat
  isBuy : Bool
  impactBps : F
  timestamp : Instant

/-- `seen` lists every swap since the wallet was entered; the program keeps no such list. -/
structure WalletState where
  swaps : List (WalletSwapEvent F)
  totalSwaps : Nat
  buys : Nat
  sells : Nat
  lastSeen : Instant
  category : Category
  seen : List (WalletSwapEvent F)

inductive PatternType where
  | fastFlip
  | whaleAccumulation
  | tokenRotation
  | dexPreference
  deriving DecidableEq

structure DetectedPattern where
  patternType : PatternType
  wallet : Pubkey
  tokenMint : Option Pubkey
  pool : Option Pubkey
  dexType : DexType
  confidence : F

inductive WalletAlert where
  | smartMoneyDetected (wallet : Pubkey) (category : Category) (totalSwaps : Nat) (winRate : F)
  | patternDetected (pattern : DetectedPattern F)

/-- `alerts` and `reported` list what was handed to the alert channel and to the logger,
`journal` the writes to the recent patterns; the program keeps no such lists. -/
structure Tracker where
  wallets : HashMap Pubkey (WalletState F)
  recentPatterns : HashMap String Instant
  alerts : List (WalletAlert F)
  reported : List (DetectedPattern F × Instant)
  journal : List (Recency.Op String)

end Types

def PatternType.text : PatternType → String
  | fastFlip => "fast_flip"
  | whaleAccumulation => "whale_accumulation"
  | tokenRotation => "token_rotation"
  | dexPreference => "dex_preference"

/-- `{:?}` of a DEX. -/
def dexText : DexType → String
  | .raydiumAmmV4 => "RaydiumAmmV4"
  | .raydiumClmm => "RaydiumClmm"
  | .orcaWhirlpool => "OrcaWhirlpool"
  | .meteoraDlmm => "MeteoraDlmm"
  | .pumpSwap => "PumpSwap"
  | .fluxbeam => "Fluxbeam"
  | .saber => "Saber"
  | .raydiumCpmm => "RaydiumCpmm"
  | .unknown => "Unknown"

def keyText (key : Option Pubkey) : String := (key.map Pubkey.display).getD ""

section Step

variable {F : Type} [FloatArith F]

def DetectedPattern.dedupKey (pattern : DetectedPattern F) : String :=
  pattern.patternType.text ++ "_" ++ pattern.wallet.display ++ "_" ++ keyText pattern.tokenMint ++
    "_" ++ keyText pattern.pool

def WalletState.new (now : Instant) : WalletState F := ⟨[], 0, 0, 0, now, .unknown, []⟩

def WalletState.pushSwap (wallet : WalletState F) (swap : WalletSwapEvent F) : WalletState F :=
  let kept :=
    if walletHistorySize ≤ wallet.swaps.length then wallet.swaps.tail else wallet.swaps
  { wallet with
    totalSwaps := wallet.totalSwaps + 1
    buys := if swap.isBuy then wallet.buys + 1 else wallet.buys
    sells := if swap.isBuy then wallet.sells else wallet.sells + 1
    lastSeen := swap.timestamp
    swaps := kept ++ [swap]
    seen := wallet.seen ++ [swap] }

/-- The share of swaps that are matched pairs of a buy and a sell. -/
def WalletState.winRate (wallet : WalletState F) : F :=
  if wallet.totalSwaps = 0 then ofNat 0
  else div (ofNat (min wallet.sells wallet.buys)) (ofNat wallet.totalSwaps)

def classified (wallet : WalletState F) (now : Instant) : Category :=
  if 10 ≤ wallet.totalSwaps then
    let recent := wallet.swaps.filter (fun swap => decide (now - swap.timestamp < seconds 3600))
    if 20 ≤ recent.length then .bot
    else if wallet.swaps.any (fun swap => lt (ofNat 100) swap.impactBps) then .whale
    else if le (ofRat (3 / 5)) wallet.winRate then .smartMoney
    else wallet.category
  else wallet.category

def WalletState.classify (wallet : WalletState F) (now : Instant) : WalletState F :=
  { wallet with category := classified wallet now }

/-! The patterns. -/

/-- A sale within ten slots of the latest purchase of the same token but for this swap. -/
def detectFastFlip (address : Pubkey) (wallet : WalletState F) (latest : WalletSwapEvent F) :
    Option (DetectedPattern F) :=
  if latest.isBuy then none
  else
    (wallet.swaps.reverse.tail.find? (fun swap =>
      swap.isBuy && decide (swap.tokenOut = latest.tokenIn) &&
        decide (latest.slot - swap.slot ≤ fastFlipSlots))).map (fun swap =>
      let profit := wrapI64 (wrapI64 latest.amountOut - wrapI64 swap.amountIn)
      { patternType := .fastFlip
        wallet := address
        tokenMint := some swap.tokenOut
        pool := some latest.pool
        dexType := latest.dexType
        confidence := if 0 < profit then ofRat (4 / 5) else ofRat (3 / 10) })

def detectAccumulation (address : Pubkey) (wallet : WalletState F) (latest : WalletSwapEvent F)
    (now : Instant) : Option (DetectedPattern F) :=
  if !latest.isBuy then none
  else
    let sameTokenBuys := wallet.swaps.filter (fun swap =>
      swap.isBuy && decide (swap.tokenOut = latest.tokenOut) &&
        decide (now - swap.timestamp < seconds 300))
    if 3 ≤ sameTokenBuys.length then
      some {
        patternType := .whaleAccumulation
        wallet := address
        tokenMint := some latest.tokenOut
        pool := some latest.pool
        dexType := latest.dexType
        confidence := FloatArith.min (div (ofNat sameTokenBuys.length) (ofNat 10)) (ofNat 1) }
    else none

def detectTokenRotation (address : Pubkey) (wallet : WalletState F)
    (latest : WalletSwapEvent F) : Option (DetectedPattern F) :=
  let pairCount := (wallet.swaps.filter (fun swap =>
    decide ((swap.tokenIn = latest.tokenIn ∧ swap.tokenOut = latest.tokenOut) ∨
      (swap.tokenIn = latest.tokenOut ∧ swap.tokenOut = latest.tokenIn)))).length
  if 5 ≤ pairCount then
    some {
      patternType := .tokenRotation
      wallet := address
      tokenMint := some latest.tokenOut
      pool := some latest.pool
      dexType := latest.dexType
      confidence := FloatArith.min (div (ofNat pairCount) (ofNat 20)) (ofNat 1) }
  else none

/-- The DEXes that most of a wallet's swaps are on, unless the guard's key is held. -/
def detectDexPreference (address : Pubkey) (wallet : WalletState F)
    (recentPatterns : HashMap String Instant) : List (DetectedPattern F) :=
  if wallet.totalSwaps < 10 then []
  else
    (wallet.swaps.map WalletSwapEvent.dexType).dedup.filterMap (fun dex =>
      let count := (wallet.swaps.filter (fun swap => decide (swap.dexType = dex))).length
      let ratio : F := div (ofNat count) (ofNat wallet.swaps.length)
      if le (ofRat (7 / 10)) ratio && decide (7 ≤ count) then
        if HashMap.containsKey recentPatterns
            ("dex_pref_" ++ address.display ++ "_" ++ dexText dex) then none
        else
          some {
            patternType := .dexPreference
            wallet := address
            tokenMint := none
            pool := none
            dexType := dex
            confidence := ratio }
      else none)

/-- Whether the same pattern was reported in the last minute. -/
def suppressed (tracker : Tracker F) (pattern : DetectedPattern F) (now : Instant) : Bool :=
  match HashMap.get tracker.recentPatterns pattern.dedupKey with
  | some last => decide (now - last < patternWindow)
  | none => false

def record (tracker : Tracker F) (key : String) (now : Instant) : Tracker F :=
  { tracker with
    recentPatterns := tracker.recentPatterns.insert key now
    journal := tracker.journal ++ [.record key now] }

/-- The collection of old entries when there are many. -/
def collect (tracker : Tracker F) (now : Instant) : Tracker F :=
  if 10000 < tracker.recentPatterns.entries.length then
    { tracker with
      recentPatterns := HashMap.retain tracker.recentPatterns
        (fun _ since => decide (now - since < patternWindow))
      journal := tracker.journal ++ [.prune now] }
  else tracker

def emitPattern (now : Instant) (tracker : Tracker F) (pattern : DetectedPattern F) :
    Tracker F :=
  if suppressed tracker pattern now then tracker
  else
    let recorded := record tracker pattern.dedupKey now
    collect { recorded with
      alerts :=
        if le (ofRat (7 / 10)) pattern.confidence then
          recorded.alerts ++ [.patternDetected pattern]
        else recorded.alerts
      reported := recorded.reported ++ [(pattern, now)] } now

/-- The patterns that do not depend on what was reported. -/
def swapPatterns (address : Pubkey) (wallet : WalletState F) (latest : WalletSwapEvent F)
    (now : Instant) : List (DetectedPattern F) :=
  (detectFastFlip address wallet latest).toList ++
    (detectAccumulation address wallet latest now).toList ++
    (detectTokenRotation address wallet latest).toList

def detectPatterns (tracker : Tracker F) (address : Pubkey) (wallet : WalletState F)
    (latest : WalletSwapEvent F) (now : Instant) : Tracker F :=
  let tracker := (swapPatterns address wallet latest now).foldl (emitPattern now) tracker
  (detectDexPreference address wallet tracker.recentPatterns).foldl (emitPattern now) tracker

/-- The swap's share of the reserve it pays into, in basis points. -/
def impactOf (cache : PoolStateCache) (swap : SwapInfo) : F :=
  match cache.get swap.pool with
  | none => ofNat 0
  | some pool =>
      let reserve := if swap.aToB then pool.reserveA else pool.reserveB
      if 0 < reserve then mul (div (ofNat swap.amountIn) (ofNat reserve)) (ofNat 10000)
      else ofNat 0

def eventOf (cache : PoolStateCache) (swap : SwapInfo) (slot : Nat) (now : Instant) :
    WalletSwapEvent F :=
  { slot := slot
    dexType := DexType.fromProgramId swap.programId
    pool := swap.pool
    tokenIn := swap.tokenIn
    tokenOut := swap.tokenOut
    amountIn := swap.amountIn
    amountOut := swap.amountOut
    isBuy := decide (swap.tokenIn = wsol)
    impactBps := impactOf cache swap
    timestamp := now }

def evictStaleWallets (tracker : Tracker F) (now : Instant) : Tracker F :=
  { tracker with
    wallets := HashMap.retain tracker.wallets
      (fun _ wallet => decide (now - wallet.lastSeen < seconds 3600)) }

/-- An observed swap, with the pools it meets and the clock. -/
structure Observed where
  cache : PoolStateCache
  swap : SwapInfo
  slot : Nat
  now : Instant

def Observed.dust (observed : Observed) : Bool :=
  decide (observed.swap.amountIn < minSwapAmount) &&
    decide (observed.swap.amountOut < minSwapAmount)

def Observed.event (observed : Observed) : WalletSwapEvent F :=
  eventOf observed.cache observed.swap observed.slot observed.now

def classAlert (address : Pubkey) (before : Category) (wallet : WalletState F) :
    List (WalletAlert F) :=
  if wallet.category ≠ before ∧ (wallet.category = .smartMoney ∨ wallet.category = .whale) then
    [.smartMoneyDetected address wallet.category wallet.totalSwaps wallet.winRate]
  else []

def walletOf (tracker : Tracker F) (observed : Observed) : WalletState F :=
  (HashMap.get tracker.wallets observed.swap.signer).getD (.new observed.now)

/-- The wallet after its swap. -/
def swapped (tracker : Tracker F) (observed : Observed) : WalletState F :=
  ((walletOf tracker observed).pushSwap observed.event).classify observed.now

/-- The tracker with the wallet entered, and its class announced when it is new. -/
def entered (tracker : Tracker F) (observed : Observed) : Tracker F :=
  let wallet := swapped tracker observed
  { tracker with
    wallets := tracker.wallets.insert observed.swap.signer wallet
    alerts := tracker.alerts ++
      classAlert observed.swap.signer (walletOf tracker observed).category wallet }

/-- The tracker once the patterns of a wallet with enough swaps are reported. -/
def detected (tracker : Tracker F) (observed : Observed) : Tracker F :=
  let wallet := swapped tracker observed
  if 3 ≤ wallet.totalSwaps then
    detectPatterns (entered tracker observed) observed.swap.signer wallet observed.event
      observed.now
  else entered tracker observed

def observeSwap (tracker : Tracker F) (observed : Observed) : Tracker F :=
  if observed.dust then tracker
  else
    let detected := detected tracker observed
    if maxTrackedWallets < detected.wallets.entries.length then
      evictStaleWallets detected observed.now
    else detected

def start (F : Type) : Tracker F := ⟨HashMap.empty, HashMap.empty, [], [], []⟩

end Step

/-- A purchase and, ten seconds later, the sale of what it bought. -/
def purchase : Observed :=
  { cache := ⟨HashMap.empty, 0, HashMap.empty⟩
    swap :=
      { signer := .ofNat 1, programId := .ofNat 2, pool := .ofNat 3, tokenIn := wsol
        tokenOut := .ofNat 4, amountIn := 10 ^ 9, amountOut := 10 ^ 6, aToB := true }
    slot := 100
    now := seconds 1 }

def sale : Observed :=
  { purchase with
    swap :=
      { purchase.swap with tokenIn := .ofNat 4, tokenOut := wsol, aToB := false }
    slot := 120
    now := seconds 11 }

/-! What is kept of a wallet. -/

/-- The counts are those of the swaps since the wallet was entered, and the history is their
last hundred. -/
structure WalletState.Counted {F : Type} (wallet : WalletState F) : Prop where
  total : wallet.totalSwaps = wallet.seen.length
  buys : wallet.buys = wallet.seen.countP WalletSwapEvent.isBuy
  sells : wallet.sells = wallet.seen.countP (fun swap => !swap.isBuy)
  swaps : wallet.swaps = wallet.seen.drop (wallet.seen.length - walletHistorySize)

section Counts

variable {F : Type}

theorem counted_new (now : Instant) : (WalletState.new now : WalletState F).Counted where
  total := rfl
  buys := rfl
  sells := rfl
  swaps := rfl

theorem counted_pushSwap (wallet : WalletState F) (swap : WalletSwapEvent F)
    (counted : wallet.Counted) : (wallet.pushSwap swap).Counted where
  total := by simp [WalletState.pushSwap, counted.total]
  buys := by cases bought : swap.isBuy <;> simp [WalletState.pushSwap, counted.buys, bought]
  sells := by cases bought : swap.isBuy <;> simp [WalletState.pushSwap, counted.sells, bought]
  swaps := by
    have kept := counted.swaps
    have short : wallet.swaps.length = wallet.seen.length -
        (wallet.seen.length - walletHistorySize) := by
      rw [kept, List.length_drop]
    simp only [WalletState.pushSwap, List.length_append, List.length_singleton]
    by_cases full : walletHistorySize ≤ wallet.swaps.length
    · have long : walletHistorySize ≤ wallet.seen.length := by omega
      rw [if_pos full, kept, List.tail_drop, List.drop_append_of_le_length (by
        rw [walletHistorySize] at *; omega)]
      rw [Nat.sub_add_comm long]
    · have none_ : wallet.seen.length - walletHistorySize = 0 := by
        rw [walletHistorySize] at *
        omega
      have still : wallet.seen.length + 1 - walletHistorySize = 0 := by
        rw [walletHistorySize] at *
        omega
      rw [if_neg full, kept, none_, still, List.drop_zero, List.drop_zero]

theorem counted_walletOf (tracker : Tracker F) (observed : Observed)
    (counted : ∀ signer wallet, HashMap.get tracker.wallets signer = some wallet →
      wallet.Counted) : (walletOf tracker observed).Counted := by
  rw [walletOf]
  cases held : HashMap.get tracker.wallets observed.swap.signer with
  | none => exact counted_new _
  | some wallet => exact counted _ _ held

end Counts

section Wallets

variable {F : Type} [FloatArith F]

theorem counted_swapped (tracker : Tracker F) (observed : Observed)
    (counted : (walletOf tracker observed).Counted) : (swapped tracker observed).Counted :=
  have pushed := counted_pushSwap _ observed.event counted
  ⟨pushed.total, pushed.buys, pushed.sells, pushed.swaps⟩

theorem wallets_emitPattern (now : Instant) (tracker : Tracker F) (pattern : DetectedPattern F) :
    (emitPattern now tracker pattern).wallets = tracker.wallets := by
  unfold emitPattern collect
  split
  · rfl
  · dsimp only
    split <;> rfl

theorem wallets_emitAll (now : Instant) (tracker : Tracker F) (found : List (DetectedPattern F)) :
    (found.foldl (emitPattern now) tracker).wallets = tracker.wallets := by
  induction found generalizing tracker with
  | nil => rfl
  | cons pattern rest ih => rw [List.foldl_cons, ih, wallets_emitPattern]

theorem wallets_detectPatterns (tracker : Tracker F) (address : Pubkey) (wallet : WalletState F)
    (latest : WalletSwapEvent F) (now : Instant) :
    (detectPatterns tracker address wallet latest now).wallets = tracker.wallets := by
  rw [detectPatterns, wallets_emitAll, wallets_emitAll]

theorem wallets_detected (tracker : Tracker F) (observed : Observed) :
    (detected tracker observed).wallets =
      tracker.wallets.insert observed.swap.signer (swapped tracker observed) := by
  unfold detected
  dsimp only
  split
  · exact wallets_detectPatterns _ _ _ _ _
  · rfl

/-- What an observation leaves of the wallets. -/
theorem wallets_observeSwap (tracker : Tracker F) (observed : Observed)
    (enough : observed.dust = false) :
    let wallets := tracker.wallets.insert observed.swap.signer (swapped tracker observed)
    (observeSwap tracker observed).wallets = wallets ∨
      (observeSwap tracker observed).wallets = HashMap.retain wallets
        (fun _ wallet => decide (observed.now - wallet.lastSeen < seconds 3600)) := by
  rw [observeSwap, if_neg (by simp [enough])]
  dsimp only
  split
  · right
    rw [evictStaleWallets, wallets_detected]
  · left
    exact wallets_detected tracker observed

/-- A wallet that is tracked after an observation was tracked before, or just swapped. -/
theorem get_observeSwap (tracker : Tracker F) (observed : Observed) (signer : Pubkey)
    (wallet : WalletState F)
    (found : HashMap.get (observeSwap tracker observed).wallets signer = some wallet) :
    (observed.dust = false ∧ signer = observed.swap.signer ∧ wallet = swapped tracker observed) ∨
      ((observed.dust = false → signer ≠ observed.swap.signer) ∧
        HashMap.get tracker.wallets signer = some wallet) := by
  cases small : observed.dust with
  | true =>
      rw [observeSwap, if_pos small] at found
      exact Or.inr ⟨by simp, found⟩
  | false =>
      have inserted : HashMap.get (tracker.wallets.insert observed.swap.signer
          (swapped tracker observed)) signer = some wallet := by
        rcases wallets_observeSwap tracker observed small with kept | evicted
        · rwa [kept] at found
        · rw [evicted, HashMap.get_retain, Option.filter_eq_some_iff] at found
          exact found.1
      by_cases own : signer = observed.swap.signer
      · rw [own, HashMap.get_insert] at inserted
        exact Or.inl ⟨rfl, own, (Option.some.inj inserted).symm⟩
      · rw [HashMap.get_insert_ne _ _ _ _ own] at inserted
        exact Or.inr ⟨fun _ => own, inserted⟩

/-- The swaps of a signer that are large enough. -/
def eventsOf (F : Type) [FloatArith F] (observed : List Observed) (signer : Pubkey) :
    List (WalletSwapEvent F) :=
  observed.filterMap (fun one =>
    if one.dust = false ∧ signer = one.swap.signer then some one.event else none)

theorem eventsOf_own (observed : List Observed) (one : Observed) (enough : one.dust = false) :
    eventsOf F (observed ++ [one]) one.swap.signer =
      eventsOf F observed one.swap.signer ++ [one.event] := by
  simp [eventsOf, enough]

theorem eventsOf_other (observed : List Observed) (one : Observed) (signer : Pubkey)
    (other : one.dust = false → signer ≠ one.swap.signer) :
    eventsOf F (observed ++ [one]) signer = eventsOf F observed signer := by
  have skipped : ¬ (one.dust = false ∧ signer = one.swap.signer) := by
    rintro ⟨enough, same⟩
    exact other enough same
  simp [eventsOf, skipped]

theorem counted_run (observed : List Observed) (signer : Pubkey) (wallet : WalletState F)
    (found : HashMap.get (run observeSwap (start F) observed).wallets signer = some wallet) :
    wallet.Counted := by
  induction observed using List.reverseRecOn generalizing signer wallet with
  | nil => simp [start] at found
  | append_singleton observed one ih =>
      rw [run_append, run_cons, run_nil] at found
      rcases get_observeSwap _ one signer wallet found with ⟨-, -, rfl⟩ | ⟨-, before⟩
      · exact counted_swapped _ one (counted_walletOf _ one ih)
      · exact ih signer wallet before

/-- The swaps seen of a wallet are the latest ones of its signer. -/
theorem seen_suffix (observed : List Observed) (signer : Pubkey) (wallet : WalletState F)
    (found : HashMap.get (run observeSwap (start F) observed).wallets signer = some wallet) :
    wallet.seen ≠ [] ∧ wallet.seen <:+ eventsOf F observed signer := by
  induction observed using List.reverseRecOn generalizing signer wallet with
  | nil => simp [start] at found
  | append_singleton observed one ih =>
      rw [run_append, run_cons, run_nil] at found
      rcases get_observeSwap _ one signer wallet found with ⟨enough, rfl, rfl⟩ | ⟨other, before⟩
      · refine ⟨by simp [swapped, WalletState.classify, WalletState.pushSwap], ?_⟩
        have latest : (swapped (run observeSwap (start F) observed) one).seen =
            (walletOf (run observeSwap (start F) observed) one).seen ++ [one.event] := rfl
        rw [eventsOf_own _ _ enough, latest]
        refine (List.suffix_append_inj_of_length_eq rfl).mpr ⟨?_, rfl⟩
        rw [walletOf]
        cases held : HashMap.get (run observeSwap (start F) observed).wallets one.swap.signer with
        | none => exact List.nil_suffix
        | some wallet => exact (ih _ wallet held).2
      · rw [eventsOf_other _ _ _ other]
        exact ih signer wallet before

/-- No collection takes a wallet that swapped within the hour. -/
theorem kept_observeSwap (tracker : Tracker F) (observed : Observed) (signer : Pubkey)
    (wallet : WalletState F) (enough : observed.dust = false)
    (held : HashMap.get (tracker.wallets.insert observed.swap.signer (swapped tracker observed))
      signer = some wallet)
    (young : observed.now - wallet.lastSeen < seconds 3600) :
    HashMap.get (observeSwap tracker observed).wallets signer = some wallet := by
  rcases wallets_observeSwap tracker observed enough with kept | evicted
  · rwa [kept]
  · rw [evicted, HashMap.get_retain, held]
    exact Option.filter_some_pos (decide_eq_true young)

theorem seconds_pos (count : Nat) (positive : 0 < count) : 0 < seconds count :=
  Nat.mul_pos positive (by norm_num)

/-- While the later swaps come within the hour, the wallet keeps all swaps from one on. -/
theorem still_tracked (before later : List Observed) (one : Observed)
    (enough : one.dust = false)
    (clocked : (before ++ one :: later).Pairwise (fun earlier late => earlier.now ≤ late.now))
    (young : ∀ late ∈ later, late.now - one.now < seconds 3600) :
    ∃ wallet, HashMap.get (run observeSwap (start F) (before ++ one :: later)).wallets
        one.swap.signer = some wallet ∧
      one.now ≤ wallet.lastSeen ∧ eventsOf F (one :: later) one.swap.signer <:+ wallet.seen := by
  induction later using List.reverseRecOn with
  | nil =>
      refine ⟨swapped (run observeSwap (start F) before) one, ?_, Nat.le_refl _, ?_⟩
      · rw [run_append, run_cons, run_nil]
        apply kept_observeSwap _ _ _ _ enough (HashMap.get_insert _ _ _)
        exact lt_of_eq_of_lt (Nat.sub_self _) (seconds_pos 3600 (by norm_num))
      · have own := eventsOf_own (F := F) [] one enough
        rw [List.nil_append] at own
        rw [own]
        exact List.suffix_append _ _
  | append_singleton later late ih =>
      have ordered : ((before ++ one :: later) ++ [late]).Pairwise
          (fun earlier late => earlier.now ≤ late.now) := by
        rw [List.append_assoc]
        exact clocked
      rcases List.pairwise_append.mp ordered with ⟨earlier, -, latest⟩
      have after : one.now ≤ late.now :=
        latest one (by simp) late (List.mem_singleton_self late)
      rcases ih earlier (fun other member => young other (by simp [member])) with
        ⟨wallet, held, seen, suffix⟩
      have close := young late (by simp)
      have order : before ++ one :: (later ++ [late]) = (before ++ one :: later) ++ [late] := by
        rw [List.append_assoc, List.cons_append]
      have tail : one :: (later ++ [late]) = (one :: later) ++ [late] := rfl
      rw [order, tail, run_append, run_cons, run_nil]
      cases small : late.dust with
      | true =>
          rw [observeSwap, if_pos small, eventsOf_other _ _ _ (by simp [small])]
          exact ⟨wallet, held, seen, suffix⟩
      | false =>
          by_cases own : one.swap.signer = late.swap.signer
          · rw [own] at held suffix ⊢
            rw [eventsOf_own _ _ small]
            refine ⟨swapped (run observeSwap (start F) (before ++ one :: later)) late, ?_,
              after, ?_⟩
            · apply kept_observeSwap _ _ _ _ small (HashMap.get_insert _ _ _)
              exact lt_of_eq_of_lt (Nat.sub_self _) (seconds_pos 3600 (by norm_num))
            · have pushed : (swapped (run observeSwap (start F) (before ++ one :: later))
                  late).seen = wallet.seen ++ [late.event] := by
                rw [swapped, walletOf, held]
                rfl
              rw [pushed]
              exact (List.suffix_append_inj_of_length_eq rfl).mpr ⟨suffix, rfl⟩
          · rw [eventsOf_other _ _ _ (fun _ => own)]
            refine ⟨wallet, ?_, seen, suffix⟩
            apply kept_observeSwap _ _ _ _ small
            · rwa [HashMap.get_insert_ne _ _ _ _ own]
            · exact lt_of_le_of_lt (Nat.sub_le_sub_left seen _) close

/-- A tracked wallet holds the last hundred of its signer's latest swaps, counted as they
are, and no wallet is forgotten within an hour of a swap. -/
theorem wallets_hold_latest (observed : List Observed)
    (clocked : observed.Pairwise (fun earlier late => earlier.now ≤ late.now)) :
    (∀ signer wallet,
      HashMap.get (run observeSwap (start F) observed).wallets signer = some wallet →
        wallet.Counted ∧ wallet.seen ≠ [] ∧ wallet.seen <:+ eventsOf F observed signer) ∧
    ∀ before one later, observed = before ++ one :: later → one.dust = false →
      (∀ late ∈ later, late.now - one.now < seconds 3600) →
      ∃ wallet, HashMap.get (run observeSwap (start F) observed).wallets one.swap.signer =
          some wallet ∧
        eventsOf F (one :: later) one.swap.signer <:+ wallet.seen := by
  constructor
  · intro signer wallet found
    exact ⟨counted_run observed signer wallet found, seen_suffix observed signer wallet found⟩
  · rintro before one later rfl enough young
    rcases still_tracked (F := F) before later one enough clocked young with
      ⟨wallet, held, -, suffix⟩
    exact ⟨wallet, held, suffix⟩

/-- The trader is tracked with both swaps. -/
theorem wallets_hold_latest_sold :
    ∃ wallet, HashMap.get (run observeSwap (start ℚ) [purchase, sale]).wallets
        purchase.swap.signer = some wallet ∧
      eventsOf ℚ [purchase, sale] purchase.swap.signer <:+ wallet.seen := by
  have ordered : [purchase, sale].Pairwise (fun earlier late => earlier.now ≤ late.now) := by
    simp [purchase, sale, seconds]
  have enough : purchase.dust = false := by decide +kernel
  have young : ∀ late ∈ [sale], late.now - purchase.now < seconds 3600 := by
    simp [purchase, sale, seconds]
  exact (wallets_hold_latest (F := ℚ) [purchase, sale] ordered).2 [] purchase [sale] rfl enough
    young

theorem alerts_emitPattern (now : Instant) (tracker : Tracker F) (pattern : DetectedPattern F)
    (alert : WalletAlert F) (sent : alert ∈ (emitPattern now tracker pattern).alerts) :
    alert ∈ tracker.alerts ∨ ∃ pattern, alert = .patternDetected pattern := by
  have collected : ∀ tracker : Tracker F, (collect tracker now).alerts = tracker.alerts := by
    intro tracker
    unfold collect
    split <;> rfl
  unfold emitPattern at sent
  split at sent
  · exact Or.inl sent
  · dsimp only at sent
    rw [collected] at sent
    dsimp only at sent
    split at sent
    · rcases List.mem_append.mp sent with before | now_
      · exact Or.inl before
      · exact Or.inr ⟨pattern, List.mem_singleton.mp now_⟩
    · exact Or.inl sent

theorem alerts_emitAll (now : Instant) (found : List (DetectedPattern F)) (tracker : Tracker F)
    (alert : WalletAlert F) (sent : alert ∈ (found.foldl (emitPattern now) tracker).alerts) :
    alert ∈ tracker.alerts ∨ ∃ pattern, alert = .patternDetected pattern := by
  induction found generalizing tracker with
  | nil => exact Or.inl sent
  | cons pattern rest ih =>
      rcases ih _ sent with before | other
      · exact alerts_emitPattern now tracker pattern alert before
      · exact Or.inr other

theorem alerts_detected (tracker : Tracker F) (observed : Observed) (alert : WalletAlert F)
    (sent : alert ∈ (detected tracker observed).alerts) :
    alert ∈ (entered tracker observed).alerts ∨ ∃ pattern, alert = .patternDetected pattern := by
  unfold detected at sent
  dsimp only at sent
  split at sent
  · rw [detectPatterns] at sent
    rcases alerts_emitAll _ _ _ _ sent with before | other
    · exact alerts_emitAll _ _ _ _ before
    · exact Or.inr other
  · exact Or.inl sent

theorem alerts_observeSwap (tracker : Tracker F) (observed : Observed) (alert : WalletAlert F)
    (sent : alert ∈ (observeSwap tracker observed).alerts) :
    alert ∈ tracker.alerts ∨
      alert ∈ classAlert observed.swap.signer (walletOf tracker observed).category
        (swapped tracker observed) ∨
      ∃ pattern, alert = .patternDetected pattern := by
  have among : alert ∈ tracker.alerts ∨ alert ∈ (detected tracker observed).alerts := by
    unfold observeSwap at sent
    split at sent
    · exact Or.inl sent
    · dsimp only at sent
      split at sent <;> exact Or.inr sent
  rcases among with before | sent
  · exact Or.inl before
  · rcases alerts_detected tracker observed alert sent with early | other
    · rcases List.mem_append.mp early with before | announced
      · exact Or.inl before
      · exact Or.inr (Or.inl announced)
    · exact Or.inr (Or.inr other)

end Wallets

/-! The class of a wallet, in binary64. -/

section Classes

theorem countP_add (seen : List (WalletSwapEvent Double)) :
    seen.length = seen.countP WalletSwapEvent.isBuy + seen.countP (fun swap => !swap.isBuy) := by
  rw [List.length_eq_countP_add_countP WalletSwapEvent.isBuy]
  simp

/-- Matched pairs are at most half of the swaps, also when both counts are rounded. -/
theorem winRate_le (wallet : WalletState Double) (counted : wallet.Counted) :
    wallet.winRate.value ≤ (Double.round (51 / 100)).value := by
  rw [WalletState.winRate]
  split
  · exact Double.round_mono 0 (51 / 100) (le_refl 0) (by norm_num)
  · next some_ =>
      have all := countP_add wallet.seen
      rw [← counted.buys, ← counted.sells, ← counted.total] at all
      have pairs : 2 * ((Min.min wallet.sells wallet.buys : Nat) : ℚ) ≤ wallet.totalSwaps := by
        exact_mod_cast (by omega : 2 * Min.min wallet.sells wallet.buys ≤ wallet.totalSwaps)
      have positive : (0 : ℚ) < wallet.totalSwaps := Nat.cast_pos.mpr (Nat.pos_of_ne_zero some_)
      have matched : (0 : ℚ) ≤ (Min.min wallet.sells wallet.buys : Nat) := Nat.cast_nonneg _
      have high := Double.round_le _ matched
      have low := Double.le_round (wallet.totalSwaps : ℚ) positive.le
      apply Double.round_mono
      · exact div_nonneg (Double.round_nonneg _ matched) (Double.round_nonneg _ positive.le)
      · refine (div_le_iff₀ (Double.round_pos _ positive)).mpr ?_
        refine le_trans high ?_
        linarith

theorem winRate_lt : (Double.round (51 / 100)).value < (Double.round (3 / 5)).value := by
  decide +kernel

theorem classified_ne (wallet : WalletState Double) (now : Instant) (counted : wallet.Counted)
    (before : wallet.category ≠ .smartMoney) : classified wallet now ≠ .smartMoney := by
  have poor : le (ofRat (3 / 5)) wallet.winRate = false :=
    decide_eq_false (not_le.mpr (lt_of_le_of_lt (winRate_le wallet counted) winRate_lt))
  unfold classified
  dsimp only
  split
  · split
    · simp
    · split
      · simp
      · rw [poor, if_neg (by simp)]
        exact before
  · exact before

theorem sober_swapped (tracker : Tracker Double) (observed : Observed)
    (counted : ∀ signer wallet, HashMap.get tracker.wallets signer = some wallet →
      wallet.Counted)
    (sober : ∀ signer wallet, HashMap.get tracker.wallets signer = some wallet →
      wallet.category ≠ .smartMoney) :
    (swapped tracker observed).category ≠ .smartMoney := by
  apply classified_ne _ _ (counted_pushSwap _ _ (counted_walletOf tracker observed counted))
  change (walletOf tracker observed).category ≠ .smartMoney
  rw [walletOf]
  cases held : HashMap.get tracker.wallets observed.swap.signer with
  | none => simp [WalletState.new]
  | some wallet => exact sober _ _ held

theorem sober_run (observed : List Observed) (signer : Pubkey) (wallet : WalletState Double)
    (found : HashMap.get (run observeSwap (start Double) observed).wallets signer =
      some wallet) : wallet.category ≠ .smartMoney := by
  induction observed using List.reverseRecOn generalizing signer wallet with
  | nil => simp [start] at found
  | append_singleton observed one ih =>
      rw [run_append, run_cons, run_nil] at found
      rcases get_observeSwap _ one signer wallet found with ⟨-, -, rfl⟩ | ⟨-, before⟩
      · exact sober_swapped _ one (counted_run observed) ih
      · exact ih signer wallet before

/-- No wallet is ever classed as smart money, and an alert of that name is of a whale. -/
theorem never_smart_money (observed : List Observed) :
    let tracker := run observeSwap (start Double) observed
    (∀ signer wallet, HashMap.get tracker.wallets signer = some wallet →
      wallet.category ≠ .smartMoney) ∧
    ∀ address category totalSwaps winRate,
      .smartMoneyDetected address category totalSwaps winRate ∈ tracker.alerts →
        category = .whale := by
  refine ⟨sober_run observed, ?_⟩
  intro address category totalSwaps winRate sent
  induction observed using List.reverseRecOn with
  | nil => cases sent
  | append_singleton observed one ih =>
      rw [run_append, run_cons, run_nil] at sent
      rcases alerts_observeSwap _ one _ sent with before | announced | ⟨pattern, other⟩
      · exact ih before
      · rw [classAlert] at announced
        split at announced
        · next new =>
            have same := List.mem_singleton.mp announced
            cases same
            rcases new.2 with smart | whale
            · exact absurd smart
                (sober_swapped _ one (counted_run observed) (sober_run observed))
            · exact whale
        · cases announced
      · cases other

end Classes

/-! The keys of patterns. -/

/-- What makes two patterns the same. -/
def DetectedPattern.kind {F : Type} (pattern : DetectedPattern F) :
    PatternType × Pubkey × Option Pubkey × Option Pubkey :=
  (pattern.patternType, pattern.wallet, pattern.tokenMint, pattern.pool)

/-- A text can be cut at the last of its marks. -/
theorem cut_last {α : Type} (mark : α) (left right first second : List α)
    (fresh : mark ∉ first) (fresh' : mark ∉ second)
    (same : left ++ mark :: first = right ++ mark :: second) : left = right ∧ first = second := by
  rcases List.append_eq_append_iff.mp same with ⟨rest, longer, tail⟩ | ⟨rest, longer, tail⟩
  · cases rest with
    | nil => exact ⟨by rw [longer, List.append_nil], (List.cons.inj tail).2⟩
    | cons other rest =>
        rcases List.cons.inj tail with ⟨-, inside⟩
        exact absurd (by rw [inside]; simp) fresh
  · cases rest with
    | nil => exact ⟨by rw [longer, List.append_nil], (List.cons.inj tail).2.symm⟩
    | cons other rest =>
        rcases List.cons.inj tail with ⟨-, inside⟩
        exact absurd (by rw [inside]; simp) fresh'

theorem no_mark (key : Pubkey) : '_' ∉ key.display.toList := by
  intro member
  rw [Pubkey.display_chars] at member
  rcases List.mem_append.mp member with zero | digit
  · exact absurd (List.eq_of_mem_replicate zero) (by decide)
  · rcases List.mem_map.mp digit with ⟨value, inDigits, same⟩
    have known := Pubkey.mem_alphabet value
      (Nat.digits_lt_base (by norm_num) (List.mem_reverse.mp inDigits))
    rw [same] at known
    exact absurd known (by decide)

theorem display_inj (first second : Pubkey) (same : first.display = second.display) :
    first = second := by
  have read := Pubkey.fromStr_display first
  rw [same, Pubkey.fromStr_display second] at read
  exact (Option.some.inj read).symm

theorem no_mark_keyText (key : Option Pubkey) : '_' ∉ (keyText key).toList := by
  cases key with
  | none => simp [keyText]
  | some key => exact no_mark key

theorem keyText_inj (first second : Option Pubkey) (same : keyText first = keyText second) :
    first = second := by
  have full : ∀ key : Pubkey, key.display ≠ "" := by
    intro key empty
    have read := Pubkey.fromStr_display key
    simp [empty, Pubkey.fromStr] at read
  cases first with
  | none =>
      cases second with
      | none => rfl
      | some second => exact absurd same.symm (full second)
  | some first =>
      cases second with
      | none => exact absurd same (full first)
      | some second => rw [display_inj first second same]

theorem text_inj (first second : PatternType) (same : first.text = second.text) :
    first = second := by
  cases first <;> cases second <;> first | rfl | exact absurd same (by decide)

section Keys

variable {F : Type}

theorem dedupKey_chars (pattern : DetectedPattern F) :
    pattern.dedupKey.toList = ((pattern.patternType.text.toList ++
      '_' :: pattern.wallet.display.toList) ++ '_' :: (keyText pattern.tokenMint).toList) ++
        '_' :: (keyText pattern.pool).toList := by
  simp [DetectedPattern.dedupKey, String.toList_append]

/-- The key of a pattern tells it from every other. -/
theorem dedupKey_eq_iff (first second : DetectedPattern F) :
    first.dedupKey = second.dedupKey ↔ first.kind = second.kind := by
  constructor
  · intro same
    have chars := congrArg String.toList same
    rw [dedupKey_chars, dedupKey_chars] at chars
    rcases cut_last '_' _ _ _ _ (no_mark_keyText _) (no_mark_keyText _) chars with ⟨rest, pool⟩
    rcases cut_last '_' _ _ _ _ (no_mark_keyText _) (no_mark_keyText _) rest with ⟨rest, token⟩
    rcases cut_last '_' _ _ _ _ (no_mark _) (no_mark _) rest with ⟨type, wallet⟩
    have sameType := text_inj _ _ (String.toList_inj.mp type)
    have sameWallet := display_inj _ _ (String.toList_inj.mp wallet)
    have sameToken := keyText_inj _ _ (String.toList_inj.mp token)
    have samePool := keyText_inj _ _ (String.toList_inj.mp pool)
    rw [DetectedPattern.kind, sameType, sameWallet, sameToken, samePool]
    rfl
  · intro same
    simp only [DetectedPattern.kind, Prod.mk.injEq] at same
    rcases same with ⟨type, wallet, token, pool⟩
    rw [DetectedPattern.dedupKey, type, wallet, token, pool]
    rfl

/-- No key of a pattern is one that the search for preferred DEXes looks up. -/
theorem guard_ne (pattern : DetectedPattern F) (address : Pubkey) (dex : DexType) :
    pattern.dedupKey ≠ "dex_pref_" ++ address.display ++ "_" ++ dexText dex := by
  intro same
  have ninth := congrArg (fun text => text.toList[8]?) same
  rw [DetectedPattern.dedupKey] at ninth
  cases kind : pattern.patternType with
  | fastFlip => simp [kind, PatternType.text] at ninth
  | whaleAccumulation => simp [kind, PatternType.text] at ninth
  | tokenRotation => simp [kind, PatternType.text] at ninth
  | dexPreference => simp [kind, PatternType.text] at ninth

end Keys

/-! Which patterns are reported. -/

/-- The key and the time of an operation that records one. -/
def recordOf : Recency.Op String → Option (String × Instant)
  | .record key time => some (key, time)
  | .prune _ => none

theorem mem_recordOf (journal : List (Recency.Op String)) (key : String) (time : Instant) :
    (key, time) ∈ journal.filterMap recordOf ↔ .record key time ∈ journal := by
  rw [List.mem_filterMap]
  constructor
  · rintro ⟨op, member, same⟩
    cases op with
    | record other since =>
        simp only [recordOf, Option.some.injEq, Prod.mk.injEq] at same
        rcases same with ⟨rfl, rfl⟩
        exact member
    | prune since => cases same
  · intro member
    exact ⟨.record key time, member, rfl⟩

/-- The recent patterns are what the writes leave, and the writes are the reports. -/
structure Journaled {F : Type} (now : Instant) (tracker : Tracker F) : Prop where
  holds : tracker.recentPatterns =
    run (Recency.step patternWindow) HashMap.empty tracker.journal
  timed : Recency.Timed tracker.journal
  past : ∀ op ∈ tracker.journal, op.time ≤ now
  spaced : Recency.Spaced patternWindow tracker.journal
  reports : tracker.journal.filterMap recordOf =
    tracker.reported.map (fun report => (report.1.dedupKey, report.2))

/-- The same pattern was reported within the last minute. -/
def Recent {F : Type} (now : Instant) (tracker : Tracker F) (pattern : DetectedPattern F) :
    Prop :=
  ∃ report ∈ tracker.reported, report.1.kind = pattern.kind ∧ now < report.2 + patternWindow

section Reports

variable {F : Type}

theorem patternWindow_pos : 0 < patternWindow := seconds_pos 60 (by norm_num)

theorem aged_iff (now since : Nat) :
    now - since < patternWindow ↔ now < since + patternWindow := by
  have positive := patternWindow_pos
  omega

theorem journaled_later (now later : Instant) (tracker : Tracker F)
    (journaled : Journaled now tracker) (after : now ≤ later) : Journaled later tracker :=
  { journaled with past := fun op member => Nat.le_trans (journaled.past op member) after }

theorem timed_snoc (now : Instant) (tracker : Tracker F) (journaled : Journaled now tracker)
    (op : Recency.Op String) (same : op.time = now) :
    Recency.Timed (tracker.journal ++ [op]) := by
  rw [Recency.Timed, List.map_append, List.pairwise_append]
  refine ⟨journaled.timed, List.pairwise_singleton _ _, ?_⟩
  intro earlier member later last
  rcases List.mem_map.mp member with ⟨before, inside, rfl⟩
  rw [List.map_singleton] at last
  rw [List.mem_singleton.mp last, same]
  exact journaled.past before inside

theorem past_snoc (now : Instant) (tracker : Tracker F) (journaled : Journaled now tracker)
    (op : Recency.Op String) (same : op.time = now) (other : Recency.Op String)
    (member : other ∈ tracker.journal ++ [op]) : other.time ≤ now := by
  rcases List.mem_append.mp member with before | last
  · exact journaled.past other before
  · rw [List.mem_singleton.mp last]
    exact Nat.le_of_eq same

theorem journaled_collect (now : Instant) (tracker : Tracker F)
    (journaled : Journaled now tracker) : Journaled now (collect tracker now) := by
  unfold collect
  split
  · exact {
      holds := by
        rw [run_append, run_cons, run_nil, ← journaled.holds]
        rfl
      timed := timed_snoc now tracker journaled _ rfl
      past := past_snoc now tracker journaled _ rfl
      spaced := Recency.spaced_prune _ _ _ journaled.spaced
      reports := by
        rw [List.filterMap_append, journaled.reports]
        exact List.append_nil _ }
  · exact journaled

/-- A key that is held was reported. -/
theorem reported_of_get (now : Instant) (tracker : Tracker F)
    (journaled : Journaled now tracker) (key : String) (since : Instant)
    (held : HashMap.get tracker.recentPatterns key = some since) :
    ∃ report ∈ tracker.reported, report.1.dedupKey = key ∧ report.2 = since := by
  rw [journaled.holds] at held
  rcases (Recency.get_run _ _ patternWindow_pos journaled.timed key since).mp held with
    ⟨recorded, -, -⟩
  have member := (mem_recordOf tracker.journal key since).mpr recorded
  rw [journaled.reports] at member
  rcases List.mem_map.mp member with ⟨report, inside, same⟩
  rcases Prod.mk.inj same with ⟨keyed, timed⟩
  exact ⟨report, inside, keyed, timed⟩

theorem reported_collect (now : Instant) (tracker : Tracker F) :
    (collect tracker now).reported = tracker.reported := by
  unfold collect
  split <;> rfl

theorem recent_prefix (now : Instant) (before after : Tracker F) (pattern : DetectedPattern F)
    (longer : before.reported <+: after.reported) (recent : Recent now before pattern) :
    Recent now after pattern := by
  rcases recent with ⟨report, inside, same, young⟩
  exact ⟨report, longer.subset inside, same, young⟩

theorem spaced_reports (now : Instant) (tracker : Tracker F)
    (journaled : Journaled now tracker) :
    tracker.reported.Pairwise (fun earlier later =>
      earlier.1.kind = later.1.kind → earlier.2 + patternWindow ≤ later.2) := by
  have records : (tracker.journal.filterMap recordOf).Pairwise (fun earlier later =>
      earlier.1 = later.1 → earlier.2 + patternWindow ≤ later.2) := by
    rw [List.pairwise_filterMap]
    apply List.Pairwise.imp _ journaled.spaced
    rintro (⟨key, since⟩ | since) (⟨other, time⟩ | time) apart <;>
      simp only [recordOf, Option.some.injEq, reduceCtorEq, false_implies, implies_true]
    rintro _ rfl _ rfl rfl
    exact apart _ _ _ rfl rfl
  rw [journaled.reports, List.pairwise_map] at records
  apply List.Pairwise.imp _ records
  intro earlier later apart same
  exact apart ((dedupKey_eq_iff _ _).mpr same)

variable [FloatArith F]

theorem reported_emitPattern (now : Instant) (tracker : Tracker F)
    (pattern : DetectedPattern F) :
    tracker.reported <+: (emitPattern now tracker pattern).reported := by
  unfold emitPattern
  split
  · exact List.prefix_refl _
  · dsimp only
    rw [reported_collect]
    exact List.prefix_append _ _

theorem journaled_emitPattern (now : Instant) (tracker : Tracker F)
    (pattern : DetectedPattern F) (journaled : Journaled now tracker) :
    Journaled now (emitPattern now tracker pattern) ∧
      Recent now (emitPattern now tracker pattern) pattern := by
  unfold emitPattern
  cases held : suppressed tracker pattern now with
  | true =>
      rw [if_pos rfl]
      refine ⟨journaled, ?_⟩
      unfold suppressed at held
      split at held
      · next last found =>
          rcases reported_of_get now tracker journaled _ _ found with
            ⟨report, inside, keyed, timed⟩
          refine ⟨report, inside, (dedupKey_eq_iff _ _).mp keyed, ?_⟩
          have young := of_decide_eq_true held
          rw [timed]
          exact (aged_iff _ _).mp young
      · cases held
  | false =>
      rw [if_neg (by simp)]
      dsimp only
      refine ⟨journaled_collect now _ ?_, ?_⟩
      · exact {
          holds := by
            rw [record, run_append, run_cons, run_nil, ← journaled.holds]
            rfl
          timed := timed_snoc now tracker journaled _ rfl
          past := past_snoc now tracker journaled _ rfl
          spaced := by
            apply Recency.spaced_record_of _ _ patternWindow_pos _ _
              (timed_snoc now tracker journaled _ rfl) journaled.spaced
            intro since found
            rw [← journaled.holds] at found
            rw [suppressed, found] at held
            have old := of_decide_eq_false held
            exact Nat.not_lt.mp (fun young => old ((aged_iff _ _).mpr young))
          reports := by
            rw [record, List.filterMap_append, journaled.reports, List.map_append]
            rfl }
      · rw [Recent, reported_collect]
        refine ⟨(pattern, now), by simp, rfl, ?_⟩
        exact Nat.lt_add_of_pos_right patternWindow_pos

theorem reported_emitAll (now : Instant) (tracker : Tracker F)
    (found : List (DetectedPattern F)) :
    tracker.reported <+: (found.foldl (emitPattern now) tracker).reported := by
  induction found generalizing tracker with
  | nil => exact List.prefix_refl _
  | cons pattern rest ih => exact (reported_emitPattern now tracker pattern).trans (ih _)

theorem journaled_emitAll (now : Instant) (tracker : Tracker F)
    (found : List (DetectedPattern F)) (journaled : Journaled now tracker) :
    Journaled now (found.foldl (emitPattern now) tracker) ∧
      ∀ pattern ∈ found, Recent now (found.foldl (emitPattern now) tracker) pattern := by
  induction found generalizing tracker with
  | nil => exact ⟨journaled, by simp⟩
  | cons pattern rest ih =>
      rcases journaled_emitPattern now tracker pattern journaled with ⟨next, recent⟩
      rcases ih _ next with ⟨last, others⟩
      refine ⟨last, ?_⟩
      intro other member
      rcases List.mem_cons.mp member with rfl | later
      · exact recent_prefix now _ _ other (reported_emitAll now _ rest) recent
      · exact others other later

/-- The guard of the search for preferred DEXes holds back nothing. -/
theorem dexPreference_unguarded (now : Instant) (tracker : Tracker F)
    (journaled : Journaled now tracker) (address : Pubkey) (wallet : WalletState F) :
    detectDexPreference address wallet tracker.recentPatterns =
      detectDexPreference address wallet HashMap.empty := by
  have free : ∀ map : HashMap String Instant,
      (∀ key since, HashMap.get map key = some since →
        ∃ pattern : DetectedPattern F, pattern.dedupKey = key) →
      ∀ dex, HashMap.containsKey map ("dex_pref_" ++ address.display ++ "_" ++ dexText dex) =
        false := by
    intro map keyed dex
    by_contra present
    rcases Option.isSome_iff_exists.mp (Bool.not_eq_false _ |>.mp present) with ⟨since, held⟩
    rcases keyed _ since held with ⟨pattern, same⟩
    exact guard_ne pattern address dex same
  have reported : ∀ key since, HashMap.get tracker.recentPatterns key = some since →
      ∃ pattern : DetectedPattern F, pattern.dedupKey = key := by
    intro key since held
    rcases reported_of_get now tracker journaled key since held with ⟨report, -, keyed, -⟩
    exact ⟨report.1, keyed⟩
  have nothing : ∀ key since, HashMap.get (HashMap.empty : HashMap String Instant) key =
      some since → ∃ pattern : DetectedPattern F, pattern.dedupKey = key := by
    intro key since held
    rw [HashMap.get_empty] at held
    cases held
  unfold detectDexPreference
  simp only [free _ reported, free _ nothing]

/-- Every pattern an observation finds in the wallet's history. -/
def patternsOf (tracker : Tracker F) (observed : Observed) : List (DetectedPattern F) :=
  let wallet := swapped tracker observed
  if observed.dust = false ∧ 3 ≤ wallet.totalSwaps then
    swapPatterns observed.swap.signer wallet observed.event observed.now ++
      detectDexPreference observed.swap.signer wallet HashMap.empty
  else []

/-- An observation reports exactly through its patterns. -/
theorem journaled_observeSwap (tracker : Tracker F) (observed : Observed)
    (journaled : Journaled observed.now tracker) :
    Journaled observed.now (observeSwap tracker observed) ∧
      ∀ pattern ∈ patternsOf tracker observed,
        Recent observed.now (observeSwap tracker observed) pattern := by
  have start : Journaled observed.now (entered tracker observed) :=
    ⟨journaled.holds, journaled.timed, journaled.past, journaled.spaced, journaled.reports⟩
  have done : observed.dust = false → Journaled observed.now (detected tracker observed) ∧
      ∀ pattern ∈ patternsOf tracker observed,
        Recent observed.now (detected tracker observed) pattern := by
    intro enough
    unfold detected patternsOf
    dsimp only
    by_cases many : 3 ≤ (swapped tracker observed).totalSwaps
    · rw [if_pos many, if_pos ⟨enough, many⟩, detectPatterns]
      rcases journaled_emitAll _ _ (swapPatterns observed.swap.signer
        (swapped tracker observed) observed.event observed.now) start with ⟨middle, recent⟩
      rw [dexPreference_unguarded _ _ middle]
      rcases journaled_emitAll _ _ (detectDexPreference observed.swap.signer
        (swapped tracker observed) HashMap.empty) middle with ⟨last, others⟩
      refine ⟨last, ?_⟩
      intro pattern member
      rcases List.mem_append.mp member with early | late
      · exact recent_prefix _ _ _ pattern (reported_emitAll _ _ _) (recent pattern early)
      · exact others pattern late
    · rw [if_neg many, if_neg (fun both => many both.2)]
      exact ⟨start, by simp⟩
  unfold observeSwap
  cases small : observed.dust with
  | true =>
      rw [if_pos rfl]
      refine ⟨journaled, ?_⟩
      simp [patternsOf, small]
  | false =>
      rcases done small with ⟨last, recent⟩
      rw [if_neg (by simp)]
      dsimp only
      split
      · exact ⟨⟨last.holds, last.timed, last.past, last.spaced, last.reports⟩, recent⟩
      · exact ⟨last, recent⟩

theorem journaled_run (observed : List Observed) (now : Instant)
    (clocked : (observed.map Observed.now ++ [now]).Pairwise (· ≤ ·)) :
    Journaled now (run observeSwap (start F) observed) := by
  induction observed using List.reverseRecOn generalizing now with
  | nil => exact ⟨rfl, List.Pairwise.nil, by simp [start], List.Pairwise.nil, rfl⟩
  | append_singleton observed one ih =>
      rw [List.map_append, List.map_singleton] at clocked
      rcases List.pairwise_append.mp clocked with ⟨earlier, -, latest⟩
      rw [run_append, run_cons, run_nil]
      exact journaled_later one.now now _ (journaled_observeSwap _ one (ih one.now earlier)).1
        (latest one.now (by simp) now (List.mem_singleton_self now))

end Reports

end Helios.WalletTracker
