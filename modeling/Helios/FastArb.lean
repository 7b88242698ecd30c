import Helios.FlashSequence

/-! The executor's fast path: the route is quoted again on the pools of the moment, gated by its
profit, and sent without a simulation. -/

namespace Helios.FastArb

open FlashLoans Machine TxBuilder

def defaultTipLamports : Nat := 50000
def maxTipLamports : Nat := 500000
def minTipLamports : Nat := 10000

/-- The packet limit. -/
def maxTxSize : Nat := 1232

structure JitoSender where
  /-- 0 leaves the tip to the percentile read off the tip-floor API. -/
  tipLamportsOverride : Nat
  dynamicTip : Nat
  requestId : Nat

def JitoSender.new (tipLamports : Option Nat) : JitoSender :=
  ⟨tipLamports.getD 0, defaultTipLamports, 1⟩

def JitoSender.currentTip (sender : JitoSender) : Nat :=
  if 0 < sender.tipLamportsOverride then sender.tipLamportsOverride
  else min (max sender.dynamicTip minTipLamports) maxTipLamports

/-- What a refresh of the tip floor stores. -/
def JitoSender.refreshed (sender : JitoSender) (tip : Nat) : JitoSender :=
  { sender with dynamicTip := min (max tip minTipLamports) maxTipLamports }

def jitoTipAccounts : List Pubkey :=
  [.parse "96gYZGLnJYVFmbjzopPSU6QiEV5fGqZNyN9nmNhvrZU5",
    .parse "HFqU5x63VTqvQss8hp11i4wVV8bD44PvwucfZ2bU7gRe",
    .parse "Cw8CFyM9FkoMi7K7Crf6HNQqf4uEMzpKw6QNghXLvLkY",
    .parse "ADaUMid9yfUytqMBgopwjb2DTLSokTSzL1zt6iGPaS49",
    .parse "DfXygSm4jCyNCybVYYK6DwvWqjKee8pbDmJGcLWNDXjh",
    .parse "ADuUkR4vqLUMWXxW9gh6D6L8pMSawimctcNZ5pGwDcEt",
    .parse "DttWaMuVvTiduZRnguLF7jNxTgiMBZ1hyAumKUiL2KRL",
    .parse "3AVi9Tg9Uo68tJfuvoKvqKNWKkC5wPdSSdeBnizKZ6jT"]

def JitoSender.tipAccount (sender : JitoSender) : Pubkey :=
  jitoTipAccounts.getD (sender.requestId % jitoTipAccounts.length) default

/-- `system_instruction::transfer`. -/
def transfer (payer receiver : Pubkey) (lamports : Nat) : Instruction :=
  ⟨systemProgramId, [.new payer true, .new receiver false], [2, 0, 0, 0] ++ leBytes 8 lamports⟩

def JitoSender.tipInstruction (sender : JitoSender) (payer : Pubkey) : Instruction :=
  transfer payer sender.tipAccount sender.currentTip

/-- What the loop is started with. Compiling, signing and writing out a message is left to
`compile`. -/
structure Executor (F : Type) where
  builder : TxBuilder
  flash : FlashEnv
  fees : PriorityFees F
  compile : List Instruction → Pubkey → Option (List UInt8)
  sender : JitoSender
  minProfit : Int
  fastArbEnabled : Bool
  dryRun : Bool

/-- What a bundle meets. `winner` is the provider whose transaction passed the simulation of
the slow path. -/
structure Moment where
  poolCache : PoolStateCache
  now : Instant
  tokenPrograms : HashMap Pubkey Pubkey
  derivedBlockhash : Option Pubkey
  cachedBlockhash : Pubkey
  winner : Option FlashProvider

/-- A transaction sent for a route, whose profit is the one the executor counts on. -/
structure Sent (F : Type) where
  route : RouteParams F
  instructions : List Instruction

section Loop

variable {F : Type} [FloatArith F] (powf : F → F → F)

/-- A hop on its pool as the cache holds it. -/
def freshOut (pool : DexPool) (now : Instant) (hop : Hop F) (currentIn : Nat) : Nat :=
  if hop.tokenIn = pool.tokenA then pool.quoteAToB powf now currentIn
  else pool.quoteBToA powf now currentIn

/-- The re-quote loop: the hops with their new outputs, and whether none was zero. A hop whose
pool is not cached is passed over. -/
def requote (cache : PoolStateCache) (now : Instant) : List (Hop F) → Nat → List (Hop F) × Bool
  | [], _ => ([], true)
  | hop :: rest, currentIn =>
      match cache.get hop.pool with
      | some pool =>
          let out := freshOut powf pool now hop currentIn
          if out = 0 then (hop :: rest, false)
          else
            let (others, stillProfitable) := requote cache now rest out
            ({ hop with amountOut := out } :: others, stillProfitable)
      | none =>
          let (others, stillProfitable) := requote cache now rest currentIn
          (hop :: others, stillProfitable)

/-- The profit the gate compares. -/
def freshNet (route : RouteParams F) (fresh : List (Hop F) × Bool) : Int :=
  if fresh.2 then
    let freshFinal := (fresh.1.getLast?.map Hop.amountOut).getD 0
    if route.borrowAmount < freshFinal then
      wrapI64 (wrapI64 (wrapI64 freshFinal - wrapI64 route.borrowAmount) - 10000)
    else route.netProfit
  else route.netProfit

def freshRoute (cache : PoolStateCache) (now : Instant) (route : RouteParams F) : RouteParams F :=
  let fresh := requote powf cache now route.hops route.borrowAmount
  let net := freshNet route fresh
  { route with hops := fresh.1, grossProfit := (max net 0).toNat, netProfit := net }

def tipPct (route : RouteParams F) : Nat :=
  if route.strategy = "pump_graduation_arb" then 30
  else
    match route.tier with
    | 1 => 15
    | 2 => 15
    | 3 => 25
    | 4 => 10
    | _ => 10

def tipLamports (sender : JitoSender) (route : RouteParams F) : Nat :=
  let net := (max route.netProfit 0).toNat
  let profitTip := saturatingMul64 net (tipPct route) / 100
  min (max sender.currentTip profitTip) 2000000

variable (executor : Executor F)

/-- A built list of instructions that compiles. -/
def attempt (blockhash : Pubkey) (built : Except TxError (List Instruction)) :
    Option (List Instruction × List UInt8) :=
  match built with
  | .ok instructions => (executor.compile instructions blockhash).map (fun tx => (instructions, tx))
  | .error _ => none

/-- From the re-quoted route on: the direct build, else the one through the program. -/
def sendFast (moment : Moment) (route : RouteParams F) : Option (Sent F) :=
  if route.netProfit < executor.minProfit then none
  else
    let blockhash := moment.derivedBlockhash.getD moment.cachedBlockhash
    if blockhash = default then none
    else
      let tipIx := transfer executor.builder.payer executor.sender.tipAccount
        (tipLamports executor.sender route)
      let direct := attempt executor blockhash (executor.builder.buildDirectSwapTx executor.flash
        executor.fees route .marginFi moment.poolCache (some tipIx) moment.tokenPrograms)
      let built := match direct with
        | some tx => some tx
        | none => attempt executor blockhash (executor.builder.buildInnerCached powf executor.flash
            executor.fees route .marginFi moment.poolCache (some tipIx) moment.tokenPrograms)
      match built with
      | some (instructions, tx) =>
          if maxTxSize < tx.length then none else some ⟨route, instructions⟩
      | none => none

/-- The end of the slow path: the simulated route is built again with the tip. -/
def sendSlow (moment : Moment) (route : RouteParams F) : Option (Sent F) :=
  if moment.cachedBlockhash = default then none
  else
    match moment.winner with
    | none => none
    | some provider =>
        match attempt executor moment.cachedBlockhash (executor.builder.buildInnerCached powf
          executor.flash executor.fees route provider moment.poolCache
          (some (executor.sender.tipInstruction executor.builder.payer)) moment.tokenPrograms) with
        | some (instructions, _) =>
            if executor.dryRun then none else some ⟨route, instructions⟩
        | none => none

/-- One bundle of the loop, once the dedup map has let it through. -/
def process (moment : Moment) (route : RouteParams F) : Option (Sent F) :=
  if route.netProfit < executor.minProfit then none
  else if executor.fastArbEnabled && !executor.dryRun then
    sendFast powf executor moment (freshRoute powf moment.poolCache moment.now route)
  else sendSlow powf executor moment route

/-! What a re-quote comes to. -/

/-- The output of the hops on the cached pools, chained. A hop without a pool passes its input
on; at the end of the route its recorded output stands. -/
inductive Requotes (cache : PoolStateCache) (now : Instant) :
    List (Hop F) → Nat → Nat → Nat → Prop
  | done (input recorded : Nat) : Requotes cache now [] input recorded recorded
  | quoted (hop : Hop F) (rest : List (Hop F)) (pool : DexPool) (input recorded output : Nat)
      (cached : cache.get hop.pool = some pool)
      (paid : 0 < freshOut powf pool now hop input)
      (later : Requotes cache now rest (freshOut powf pool now hop input)
        (freshOut powf pool now hop input) output) :
      Requotes cache now (hop :: rest) input recorded output
  | missing (hop : Hop F) (rest : List (Hop F)) (input recorded output : Nat)
      (uncached : cache.get hop.pool = none)
      (later : Requotes cache now rest input hop.amountOut output) :
      Requotes cache now (hop :: rest) input recorded output

omit [FloatArith F] in
theorem lastOut_cons (hop : Hop F) (rest : List (Hop F)) (recorded : Nat) :
    ((hop :: rest).getLast?.map Hop.amountOut).getD recorded =
      (rest.getLast?.map Hop.amountOut).getD hop.amountOut := by
  rw [List.getLast?_cons]
  cases rest.getLast? with
  | none => rfl
  | some last => rfl

theorem requote_of_requotes (cache : PoolStateCache) (now : Instant) (hops : List (Hop F))
    (input recorded output : Nat) (requotes : Requotes powf cache now hops input recorded output) :
    (requote powf cache now hops input).2 = true ∧
      ((requote powf cache now hops input).1.getLast?.map Hop.amountOut).getD recorded =
        output := by
  induction requotes with
  | done input recorded => exact ⟨rfl, rfl⟩
  | quoted hop rest pool input recorded output cached paid later ih =>
      simp only [requote, cached, if_neg (Nat.ne_of_gt paid), lastOut_cons]
      exact ih
  | missing hop rest input recorded output uncached later ih =>
      simp only [requote, uncached, lastOut_cons]
      exact ih

omit [FloatArith F] in
/-- The gate's profit never exceeds the gain it is taken from. -/
theorem freshNet_le (route : RouteParams F) (fresh : List (Hop F) × Bool) (output : Nat)
    (still : fresh.2 = true) (last : (fresh.1.getLast?.map Hop.amountOut).getD 0 = output)
    (gains : route.borrowAmount < output) :
    freshNet route fresh ≤ output - route.borrowAmount - 10000 := by
  have cast : wrapI64 (wrapI64 (wrapI64 output - wrapI64 route.borrowAmount) - 10000) =
      wrapI64 (output - route.borrowAmount - 10000) := by
    rw [wrapI64, wrapI64, wrapI64, wrapI64, wrapI64]
    simp only [Int.bmod_sub_bmod, Int.sub_bmod_bmod]
  rw [freshNet, if_pos still]
  dsimp only
  rw [last, if_pos gains, cast]
  rcases Int.lt_or_le (output - route.borrowAmount - 10000 : Int) (2 ^ 63) with small | large
  · rw [wrapI64_of_bounds _ (by omega) small]
  · exact le_trans (wrapI64_lt _).le large

theorem sendFast_gate (moment : Moment) (route : RouteParams F) (sent : Sent F)
    (done : sendFast powf executor moment route = some sent) :
    executor.minProfit ≤ route.netProfit ∧ sent.route = route := by
  rw [sendFast] at done
  split at done
  · cases done
  · next gate =>
      refine ⟨not_lt.mp gate, ?_⟩
      dsimp only at done
      split at done
      · cases done
      · split at done
        · split at done
          · cases done
          · cases done
            rfl
        · cases done

end Loop

/-- The route of 100 lamports through two equal pools, recorded at a profit of 50000. -/
def staleRoute : RouteParams Double :=
  { FlashSequence.sampleRoute with netProfit := 50000, tier := 1 }

def sampleExecutor : Executor Double where
  builder := Executability.constantBuilder
  flash := FlashSequence.sampleEnv
  fees := ⟨⟨10⟩, 1000, 5000⟩
  compile := fun _ _ => some []
  sender := .new none
  minProfit := 10000
  fastArbEnabled := true
  dryRun := false

def sampleMoment : Moment :=
  ⟨FlashSequence.sampleCache, 0, HashMap.empty, none, .ofNat 60, none⟩

theorem staleRoute_sent :
    (process (fun base _ => base) sampleExecutor sampleMoment staleRoute).isSome = true := by
  decide +kernel

end Helios.FastArb
