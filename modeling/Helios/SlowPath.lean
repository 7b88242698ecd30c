import Helios.FastArb
import Helios.RouteDedup

/-! The executor's slow path: a transaction for each provider of the loan, in order of
preference, of which the first that fits a packet, passes the checks and survives a
simulation is built again with a tip and sent. Three are simulated at a time. -/

namespace Helios.SlowPath

open FlashLoans Machine Runs TxBuilder FastArb FloatArith

def maxPreflightBytes : Nat := 3000
def maxAccountsPerTx : Nat := 64
def parallelSimulations : Nat := 3

/-- How long the executor trusts what it knows of token accounts. -/
def ataCacheTtl : Nat := RouteDedup.seconds 60

structure LookupTable where
  key : Pubkey
  addresses : List Pubkey

/-- A compiled transaction: its bytes, the keys it lists and how many it looks up. -/
structure Compiled where
  bytes : List UInt8
  accountKeys : List Pubkey
  lookedUp : Nat

structure SimulationResult where
  success : Bool
  unitsConsumed : Nat
  estimatedProfit : Option Int

/-- The providers in the order they are tried, each once. -/
def fallbackCandidates (preferred : FlashProvider) : List FlashProvider :=
  [preferred, .marginFi, .solend, .kamino, .portFinance].foldl
    (fun providers provider =>
      if provider ∈ providers then providers else providers ++ [provider]) []

/-- What the loop is started with. -/
structure SlowExecutor (F : Type) where
  builder : TxBuilder
  flash : FlashEnv
  fees : PriorityFees F
  compile : List LookupTable → List Instruction → Pubkey → Option Compiled
  minProfit : Int
  dryRun : Bool

/-- What a bundle meets. The pools are read when the transactions are built, when they are
built again with a new lookup table, and when the last one is built; `routeAlt` is the answer
of the table cache for a set of keys, with the tables then loaded. -/
structure SlowMoment where
  cachedBlockhash : Pubkey
  alts : List LookupTable
  routeAlt : List Pubkey → Option (List LookupTable)
  builtOn : PoolStateCache
  rebuiltOn : PoolStateCache
  sentOn : PoolStateCache
  tokenPrograms : HashMap Pubkey Pubkey
  sentPrograms : HashMap Pubkey Pubkey
  simulate : Compiled → Option SimulationResult
  sender : JitoSender

structure Bundle (F : Type) where
  route : RouteParams F
  flashProvider : FlashProvider

/-- A transaction built for a provider. -/
structure Candidate where
  provider : FlashProvider
  instructions : List Instruction
  tx : Compiled

inductive Rejection (F : Type) where
  | oversized (bytes : Nat)
  | tooManyAccounts (accounts : Nat)
  | lowProfit (netProfit minProfit : Int)
  | noBorrow
  | noGrossProfit
  | noHops
  | zeroHop (place : Nat)
  | risk (factor : F)

/-- The reason that is logged, with the risk printed by `fixed`. -/
def Rejection.reason {F : Type} (fixed : F → String) : Rejection F → String
  | oversized bytes => s!"TX wildly oversized: {bytes} bytes (possible bug)"
  | tooManyAccounts accounts => s!"too many accounts: {accounts} > {maxAccountsPerTx}"
  | lowProfit netProfit minProfit => s!"net_profit {netProfit} < min_profit {minProfit}"
  | noBorrow => "borrow_amount=0"
  | noGrossProfit => "gross_profit=0"
  | noHops => "route has no hops"
  | zeroHop place => s!"hop[{place}] amount_out=0"
  | risk factor => s!"risk_factor={fixed factor} >= 1.0 (maximum risk)"

/-- What becomes of a bundle. -/
inductive Verdict where
  | noBlockhash
  | noTransactions
  | preflightRejected
  | simulationsFailed
  | rebuildFailed
  | dryRun (provider : FlashProvider)
  | sent (provider : FlashProvider) (instructions : List Instruction)
  deriving DecidableEq

section Path

variable {F : Type} [FloatArith F] (powf : F → F → F)

/-- The checks made in the process, `none` if all pass. -/
def check (tx : Compiled) (route : RouteParams F) (minProfit : Int) : Option (Rejection F) :=
  let accounts := tx.accountKeys.length + tx.lookedUp
  if maxPreflightBytes < tx.bytes.length then some (.oversized tx.bytes.length)
  else if maxAccountsPerTx < accounts then some (.tooManyAccounts accounts)
  else if route.netProfit < minProfit then some (.lowProfit route.netProfit minProfit)
  else if route.borrowAmount = 0 then some .noBorrow
  else if route.grossProfit = 0 then some .noGrossProfit
  else if route.hops.isEmpty then some .noHops
  else
    match route.hops.findIdx? (fun hop => decide (hop.amountOut = 0)) with
    | some place => some (.zeroHop place)
    | none => if le (ofNat 1) route.riskFactor then some (.risk route.riskFactor) else none

variable (executor : SlowExecutor F) (moment : SlowMoment) (bundle : Bundle F)

/-- `build_for_simulation_cached`. -/
def buildFor (cache : PoolStateCache) (alts : List LookupTable) (provider : FlashProvider) :
    Option Candidate :=
  match executor.builder.buildInnerCached powf executor.flash executor.fees bundle.route provider
    cache none moment.tokenPrograms with
  | .ok instructions =>
      (executor.compile alts instructions moment.cachedBlockhash).map
        (fun tx => ⟨provider, instructions, tx⟩)
  | .error _ => none

def buildAll (cache : PoolStateCache) (alts : List LookupTable) : List Candidate :=
  (fallbackCandidates bundle.flashProvider).filterMap
    (buildFor powf executor moment bundle cache alts)

def oversized (candidate : Candidate) : Bool :=
  decide (maxTxSize < candidate.tx.bytes.length)

/-- The pools and tables the candidates are taken from: those of the start, unless one is too
large and the table cache answers for its keys. -/
def buildsOn : PoolStateCache × List LookupTable :=
  match (buildAll powf executor moment bundle moment.builtOn moment.alts).find? oversized with
  | none => (moment.builtOn, moment.alts)
  | some large =>
      match moment.routeAlt large.tx.accountKeys with
      | some alts => (moment.rebuiltOn, alts)
      | none => (moment.builtOn, moment.alts)

def txCandidates : List Candidate :=
  let on := buildsOn powf executor moment bundle
  (buildAll powf executor moment bundle on.1 on.2).filter (fun candidate => !oversized candidate)

def simulated (candidate : Candidate) : Option (Candidate × SimulationResult) :=
  match moment.simulate candidate.tx with
  | some result => if result.success then some (candidate, result) else none
  | none => none

/-- The first success among the simulations, of which up to three run at once. -/
def winner (candidates : List Candidate) : Option (Candidate × SimulationResult) :=
  let parallelBatch := candidates.take (min candidates.length parallelSimulations)
  let sequentialBatch := candidates.drop (min candidates.length parallelSimulations)
  let first :=
    if 2 ≤ parallelBatch.length then (parallelBatch.map (simulated moment)).findSome? id
    else
      match parallelBatch.head? with
      | some candidate => simulated moment candidate
      | none => none
  match first with
  | some found => some found
  | none => sequentialBatch.findSome? (simulated moment)

/-- The rebuild with the tip, and the send. -/
def sendFor (provider : FlashProvider) : Verdict :=
  match executor.builder.buildInnerCached powf executor.flash executor.fees bundle.route provider
    moment.sentOn (some (moment.sender.tipInstruction executor.builder.payer))
    moment.sentPrograms with
  | .ok instructions =>
      match executor.compile (buildsOn powf executor moment bundle).2 instructions
        moment.cachedBlockhash with
      | some _ =>
          if executor.dryRun then .dryRun provider else .sent provider instructions
      | none => .rebuildFailed
  | .error _ => .rebuildFailed

def slowPath : Verdict :=
  if moment.cachedBlockhash = default then .noBlockhash
  else
    let candidates := txCandidates powf executor moment bundle
    if candidates.isEmpty then .noTransactions
    else
      let passed := candidates.filter
        (fun candidate => (check candidate.tx bundle.route executor.minProfit).isNone)
      if passed.isEmpty then .preflightRejected
      else
        match winner moment passed with
        | none => .simulationsFailed
        | some (candidate, _) => sendFor powf executor moment bundle candidate.provider

/-! The plain path: one provider after the other. -/

/-- A provider's transaction, if it fits, passes the checks and survives its simulation. -/
def acceptable (provider : FlashProvider) : Option (Candidate × SimulationResult) :=
  let on := buildsOn powf executor moment bundle
  match buildFor powf executor moment bundle on.1 on.2 provider with
  | some candidate =>
      if oversized candidate then none
      else if (check candidate.tx bundle.route executor.minProfit).isNone then
        simulated moment candidate
      else none
  | none => none

def plainPath : Verdict :=
  if moment.cachedBlockhash = default then .noBlockhash
  else
    match (fallbackCandidates bundle.flashProvider).findSome?
      (acceptable powf executor moment bundle) with
    | some (candidate, _) => sendFor powf executor moment bundle candidate.provider
    | none =>
        let candidates := txCandidates powf executor moment bundle
        if candidates = [] then .noTransactions
        else if ∀ candidate ∈ candidates,
            (check candidate.tx bundle.route executor.minProfit).isNone = false then
          .preflightRejected
        else .simulationsFailed

theorem winner_eq (candidates : List Candidate) :
    winner moment candidates = candidates.findSome? (simulated moment) := by
  have parts := List.take_append_drop (min candidates.length parallelSimulations) candidates
  have split : (candidates.take (min candidates.length parallelSimulations) ++
      candidates.drop (min candidates.length parallelSimulations)).findSome?
        (simulated moment) =
      ((candidates.take (min candidates.length parallelSimulations)).findSome?
        (simulated moment)).or
      ((candidates.drop (min candidates.length parallelSimulations)).findSome?
        (simulated moment)) := List.findSome?_append
  rw [parts] at split
  have first : (if 2 ≤ (candidates.take (min candidates.length parallelSimulations)).length then
      ((candidates.take (min candidates.length parallelSimulations)).map
        (simulated moment)).findSome? id
      else
        match (candidates.take (min candidates.length parallelSimulations)).head? with
        | some candidate => simulated moment candidate
        | none => none) =
      (candidates.take (min candidates.length parallelSimulations)).findSome?
        (simulated moment) := by
    generalize candidates.take (min candidates.length parallelSimulations) = batch
    split_ifs with several
    · rw [List.findSome?_map]
      rfl
    · cases batch with
      | nil => rfl
      | cons only rest =>
          cases rest with
          | nil => simp [List.findSome?]; cases simulated moment only <;> rfl
          | cons second rest => exact absurd (by simp) several
  rw [winner, first, split]
  cases (candidates.take (min candidates.length parallelSimulations)).findSome?
    (simulated moment) with
  | none => rfl
  | some found => rfl

/-- What passed the checks succeeds in a simulation as the providers do. -/
theorem findSome?_passed :
    ((txCandidates powf executor moment bundle).filter
      (fun candidate => (check candidate.tx bundle.route executor.minProfit).isNone)).findSome?
        (simulated moment) =
      (fallbackCandidates bundle.flashProvider).findSome?
        (acceptable powf executor moment bundle) := by
  rw [txCandidates, buildAll]
  generalize fallbackCandidates bundle.flashProvider = providers
  induction providers with
  | nil => rfl
  | cons provider rest ih =>
      rw [List.findSome?_cons]
      cases built : buildFor powf executor moment bundle (buildsOn powf executor moment bundle).1
        (buildsOn powf executor moment bundle).2 provider with
      | none =>
          have own : acceptable powf executor moment bundle provider = none := by
            simp [acceptable, built]
          rw [List.filterMap_cons_none built, own]
          exact ih
      | some candidate =>
          rw [List.filterMap_cons_some built]
          cases large : oversized candidate with
          | true =>
              have own : acceptable powf executor moment bundle provider = none := by
                simp [acceptable, built, large]
              rw [List.filter_cons_of_neg (by simp [large]), own]
              exact ih
          | false =>
              rw [List.filter_cons_of_pos (by simp [large])]
              cases fits : (check candidate.tx bundle.route executor.minProfit).isNone with
              | true =>
                  have own : acceptable powf executor moment bundle provider =
                      simulated moment candidate := by
                    simp only [acceptable, built, large, fits, Bool.false_eq_true, if_false, if_true]
                  rw [List.filter_cons_of_pos (by exact fits), List.findSome?_cons, ih, own]
              | false =>
                  have own : acceptable powf executor moment bundle provider = none := by
                    simp only [acceptable, built, large, fits, Bool.false_eq_true, if_false]
                  rw [List.filter_cons_of_neg (by simp [fits]), own]
                  exact ih

/-- The path with its batches is the plain one. -/
theorem slowPath_eq_plainPath :
    slowPath powf executor moment bundle = plainPath powf executor moment bundle := by
  rw [slowPath, plainPath]
  split
  · rfl
  · dsimp only
    rw [winner_eq, findSome?_passed]
    cases found : (fallbackCandidates bundle.flashProvider).findSome?
        (acceptable powf executor moment bundle) with
    | some pair =>
        rw [← findSome?_passed] at found
        rcases List.exists_of_findSome?_eq_some found with ⟨candidate, passed, -⟩
        rcases List.mem_filter.mp passed with ⟨member, -⟩
        have filled : (txCandidates powf executor moment bundle).isEmpty = false :=
          List.isEmpty_eq_false_iff.mpr (List.ne_nil_of_mem member)
        have some_ := List.isEmpty_eq_false_iff.mpr (List.ne_nil_of_mem passed)
        simp only [filled, some_, Bool.false_eq_true, if_false]
    | none =>
        simp only [List.isEmpty_iff, List.filter_eq_nil_iff, Bool.not_eq_true]

/-- The build for a simulation and the one that is sent differ by the tip alone. -/
theorem buildInnerCached_tip (builder : TxBuilder) (flash : FlashEnv) (fees : PriorityFees F)
    (route : RouteParams F) (provider : FlashProvider) (cache : PoolStateCache)
    (tokenPrograms : HashMap Pubkey Pubkey) (tip : Instruction) :
    builder.buildInnerCached powf flash fees route provider cache (some tip) tokenPrograms =
      (builder.buildInnerCached powf flash fees route provider cache none tokenPrograms).map
        (· ++ [tip]) := by
  change _ = (fun instructions => instructions ++ [tip]) <$> _
  simp only [buildInnerCached, map_bind, map_pure, Option.toList_some, Option.toList_none,
    List.append_nil]

theorem check_eq_none (tx : Compiled) (route : RouteParams F) (minProfit : Int)
    (passed : check tx route minProfit = none) :
    tx.accountKeys.length + tx.lookedUp ≤ maxAccountsPerTx ∧ minProfit ≤ route.netProfit ∧
      route.borrowAmount ≠ 0 ∧ route.grossProfit ≠ 0 ∧ route.hops ≠ [] ∧
      (∀ hop ∈ route.hops, hop.amountOut ≠ 0) ∧ le (ofNat 1) route.riskFactor = false := by
  unfold check at passed
  dsimp only at passed
  split_ifs at passed with large many low borrow gross empty risk
  · split at passed
    · cases passed
    · cases passed
  · split at passed
    · cases passed
    · next zero =>
        refine ⟨Nat.not_lt.mp many, not_lt.mp low, borrow, gross, ?_, ?_, ?_⟩
        · simpa using empty
        · intro hop member
          exact of_decide_eq_false (List.findIdx?_eq_none_iff.mp zero hop member)
        · simpa using risk

theorem acceptable_eq_some (provider : FlashProvider) (candidate : Candidate)
    (result : SimulationResult)
    (found : acceptable powf executor moment bundle provider = some (candidate, result)) :
    buildFor powf executor moment bundle (buildsOn powf executor moment bundle).1
        (buildsOn powf executor moment bundle).2 provider = some candidate ∧
      candidate.tx.bytes.length ≤ maxTxSize ∧
      check candidate.tx bundle.route executor.minProfit = none ∧
      moment.simulate candidate.tx = some result ∧ result.success = true := by
  unfold acceptable at found
  dsimp only at found
  split at found
  · next built build =>
      split_ifs at found with large passed
      unfold simulated at found
      split at found
      · next answer simulation =>
          split_ifs at found with success
          cases found
          rw [oversized, decide_eq_true_eq, Nat.not_lt] at large
          exact ⟨build, large, Option.isNone_iff_eq_none.mp passed, simulation, success⟩
      · cases found
  · cases found

theorem buildFor_eq_some (cache : PoolStateCache) (alts : List LookupTable)
    (provider : FlashProvider) (candidate : Candidate)
    (built : buildFor powf executor moment bundle cache alts provider = some candidate) :
    candidate.provider = provider ∧
      executor.builder.buildInnerCached powf executor.flash executor.fees bundle.route provider
        cache none moment.tokenPrograms = .ok candidate.instructions ∧
      executor.compile alts candidate.instructions moment.cachedBlockhash = some candidate.tx := by
  unfold buildFor at built
  split at built
  · next instructions listed =>
      rcases Option.map_eq_some_iff.mp built with ⟨tx, compiled, rfl⟩
      exact ⟨rfl, listed, compiled⟩
  · cases built

theorem sendFor_eq_sent (provider other : FlashProvider) (instructions : List Instruction)
    (done : sendFor powf executor moment bundle provider = .sent other instructions) :
    executor.dryRun = false ∧ other = provider ∧
      executor.builder.buildInnerCached powf executor.flash executor.fees bundle.route provider
        moment.sentOn (some (moment.sender.tipInstruction executor.builder.payer))
        moment.sentPrograms = .ok instructions := by
  unfold sendFor at done
  split at done
  · next built listed =>
      split at done
      · split_ifs at done with dry
        cases done
        exact ⟨by simpa using dry, rfl, listed⟩
      · cases done
  · cases done

/-- What the transaction of a provider must do to be sent. -/
structure Accepted (provider : FlashProvider) (candidate : Candidate) : Prop where
  built : buildFor powf executor moment bundle (buildsOn powf executor moment bundle).1
    (buildsOn powf executor moment bundle).2 provider = some candidate
  fits : candidate.tx.bytes.length ≤ maxTxSize
  passes : check candidate.tx bundle.route executor.minProfit = none
  survives : ∃ result, moment.simulate candidate.tx = some result ∧ result.success = true

theorem accepted_of_acceptable (provider : FlashProvider) (candidate : Candidate)
    (result : SimulationResult)
    (found : acceptable powf executor moment bundle provider = some (candidate, result)) :
    Accepted powf executor moment bundle provider candidate := by
  rcases acceptable_eq_some powf executor moment bundle provider candidate result found with
    ⟨built, fits, passes, simulation, success⟩
  exact ⟨built, fits, passes, result, simulation, success⟩

theorem acceptable_of_accepted (provider : FlashProvider) (candidate : Candidate)
    (accepted : Accepted powf executor moment bundle provider candidate) :
    acceptable powf executor moment bundle provider ≠ none := by
  rcases accepted.survives with ⟨result, simulation, success⟩
  have small : oversized candidate = false := decide_eq_false (Nat.not_lt.mpr accepted.fits)
  simp [acceptable, accepted.built, small, accepted.passes, simulated, simulation, success]

end Path

/-- The executor of the route of 100 lamports, whose simulations all succeed. -/
def sampleSlow : SlowExecutor Double where
  builder := Executability.constantBuilder
  flash := FlashSequence.sampleEnv
  fees := ⟨⟨10⟩, 1000, 5000⟩
  compile := fun _ _ _ => some ⟨[], [], 0⟩
  minProfit := 10000
  dryRun := false

def sampleSlowMoment : SlowMoment :=
  { cachedBlockhash := .ofNat 60
    alts := []
    routeAlt := fun _ => none
    builtOn := FlashSequence.sampleCache
    rebuiltOn := FlashSequence.sampleCache
    sentOn := FlashSequence.sampleCache
    tokenPrograms := HashMap.empty
    sentPrograms := HashMap.empty
    simulate := fun _ => some ⟨true, 0, none⟩
    sender := .new none }

def sampleBundle : Bundle Double := ⟨{ staleRoute with grossProfit := 60000 }, .marginFi⟩

def Verdict.isSent : Verdict → Bool
  | .sent _ _ => true
  | _ => false

/-- A creation that was sent: when the cache was last emptied, the instant, the accounts the
transaction creates, and those that were missing. -/
structure Creation where
  filledAt : Instant
  sentAt : Instant
  required : List Pubkey
  missing : List Pubkey

/-- `creations` lists what was sent; the program keeps no such list. -/
structure AtaCache where
  known : List Pubkey
  filledAt : Instant
  creations : List Creation

/-- What the check of a route's accounts meets: the answers of the RPC for accounts and for a
transaction, and whether the setup transaction is built (`none` is an error). -/
structure AtaMoment where
  now : Instant
  tokenPrograms : HashMap Pubkey Pubkey
  accounts : List Pubkey → Option (List Bool)
  setup : Option Bool
  accepted : Bool

section Atas

variable {F : Type}

/-- The token account of each mint, once a mint; `none` stands for an address that cannot be
derived, which stops the program. -/
def requiredTokenAccounts (builder : TxBuilder) (tokenPrograms : HashMap Pubkey Pubkey)
    (route : RouteParams F) : Option (List (Pubkey × Pubkey)) :=
  (routeMints route).mapM (fun mint =>
    (builder.associatedTokenAddressWithProgram builder.payer mint
      (tokenProgramOf tokenPrograms mint)).toOption.map (fun ata => (mint, ata)))

def AtaCache.expire (cache : AtaCache) (now : Instant) : AtaCache :=
  if ataCacheTtl < now - cache.filledAt then { cache with known := [], filledAt := now }
  else cache

/-- The accounts that are not known, with what the RPC says of them. -/
def checked (cache : AtaCache) (moment : AtaMoment) (required : List (Pubkey × Pubkey)) :
    Option (List (Pubkey × Bool)) :=
  let unchecked := (required.filter (fun pair => decide (pair.2 ∉ cache.known))).map Prod.snd
  (moment.accounts unchecked).map (fun answers => unchecked.zip answers)

def ensureRouteAtas (builder : TxBuilder) (dryRun : Bool) (cache : AtaCache)
    (moment : AtaMoment) (route : RouteParams F) : AtaCache :=
  match requiredTokenAccounts builder moment.tokenPrograms route with
  | none => cache
  | some required =>
      if required.all (fun pair => decide (pair.2 ∈ cache.known)) then cache
      else
        match checked cache moment required with
        | none => cache
        | some answers =>
            let existing := (answers.filter Prod.snd).map Prod.fst
            let missing := (answers.filter (fun answer => !answer.2)).map Prod.fst
            let seen := { cache with known := cache.known ++ existing }
            if missing.isEmpty || dryRun then seen
            else
              match moment.setup with
              | some true =>
                  if moment.accepted then
                    { seen with
                      known := seen.known ++ required.map Prod.snd
                      creations := seen.creations ++
                        [⟨cache.filledAt, moment.now, required.map Prod.snd, missing⟩] }
                  else seen
              | _ => seen

/-- A bundle that reaches the slow path. -/
def ataStep (builder : TxBuilder) (dryRun : Bool) (cache : AtaCache)
    (bundle : AtaMoment × RouteParams F) : AtaCache :=
  ensureRouteAtas builder dryRun (cache.expire bundle.1.now) bundle.1 bundle.2

def AtaCache.start (now : Instant) : AtaCache := ⟨[], now, []⟩

/-- Of two creations the later one is for accounts the earlier did not create, or the cache was
emptied between them. -/
def Apart (earlier later : Creation) : Prop :=
  earlier.filledAt ≤ earlier.sentAt ∧
    ((earlier.filledAt = later.filledAt ∧ ∀ ata ∈ later.missing, ata ∉ earlier.required) ∨
      (earlier.filledAt + ataCacheTtl < later.filledAt ∧ earlier.sentAt ≤ later.filledAt))

structure AtasKept (now : Instant) (cache : AtaCache) : Prop where
  filled : cache.filledAt ≤ now
  apart : cache.creations.Pairwise Apart
  each : ∀ creation ∈ cache.creations,
    creation.missing ≠ [] ∧ (∀ ata ∈ creation.missing, ata ∈ creation.required) ∧
      creation.filledAt ≤ creation.sentAt ∧ creation.sentAt ≤ now
  known : ∀ creation ∈ cache.creations,
    (creation.filledAt = cache.filledAt ∧ ∀ ata ∈ creation.required, ata ∈ cache.known) ∨
      (creation.filledAt + ataCacheTtl < cache.filledAt ∧ creation.sentAt ≤ cache.filledAt)

theorem missing_unknown (cache : AtaCache) (moment : AtaMoment)
    (required : List (Pubkey × Pubkey)) (answers : List (Pubkey × Bool))
    (asked : checked cache moment required = some answers) (ata : Pubkey)
    (member : ata ∈ (answers.filter (fun answer => !answer.2)).map Prod.fst) :
    ata ∈ required.map Prod.snd ∧ ata ∉ cache.known := by
  rcases Option.map_eq_some_iff.mp asked with ⟨found, -, zipped⟩
  rcases List.mem_map.mp member with ⟨answer, kept, rfl⟩
  rw [← zipped] at kept
  have among := (List.of_mem_zip (List.mem_filter.mp kept).1).1
  rcases List.mem_map.mp among with ⟨pair, inside, same⟩
  rcases List.mem_filter.mp inside with ⟨wanted, unknown⟩
  rw [← same]
  exact ⟨List.mem_map_of_mem wanted, of_decide_eq_true unknown⟩

/-- What a check of the accounts can do. -/
theorem ensureRouteAtas_cases (builder : TxBuilder) (dryRun : Bool) (cache : AtaCache)
    (moment : AtaMoment) (route : RouteParams F) :
    let next := ensureRouteAtas builder dryRun cache moment route
    next.filledAt = cache.filledAt ∧ (∀ ata ∈ cache.known, ata ∈ next.known) ∧
      (next.creations = cache.creations ∨
        ∃ required missing, dryRun = false ∧ missing ≠ [] ∧
          (∀ ata ∈ missing, ata ∈ required ∧ ata ∉ cache.known) ∧
          (∀ ata ∈ required, ata ∈ next.known) ∧
          next.creations = cache.creations ++
            [⟨cache.filledAt, moment.now, required, missing⟩]) := by
  have same : cache.filledAt = cache.filledAt ∧ (∀ ata ∈ cache.known, ata ∈ cache.known) :=
    ⟨rfl, fun _ member => member⟩
  unfold ensureRouteAtas
  split
  · exact ⟨same.1, same.2, Or.inl rfl⟩
  · next required listed =>
      split
      · exact ⟨same.1, same.2, Or.inl rfl⟩
      · split
        · exact ⟨same.1, same.2, Or.inl rfl⟩
        · next answers asked =>
            have more : ∀ others : List Pubkey, ∀ ata ∈ cache.known,
                ata ∈ cache.known ++ others :=
              fun _ _ member => List.mem_append_left _ member
            dsimp only
            split
            · exact ⟨rfl, more _, Or.inl rfl⟩
            · next some_ =>
                split
                · split
                  · refine ⟨rfl, ?_, Or.inr ⟨required.map Prod.snd, _, ?_, ?_,
                      missing_unknown cache moment required answers asked, ?_, rfl⟩⟩
                    · intro ata member
                      exact List.mem_append_left _ (List.mem_append_left _ member)
                    · cases dryRun with
                      | true => exact absurd (Bool.or_true _) some_
                      | false => rfl
                    · intro empty
                      exact some_ (by rw [empty]; rfl)
                    · intro ata member
                      exact List.mem_append_right _ member
                  · exact ⟨rfl, more _, Or.inl rfl⟩
                · exact ⟨rfl, more _, Or.inl rfl⟩

theorem atasKept_expire (now later : Instant) (cache : AtaCache) (kept : AtasKept now cache)
    (after : now ≤ later) : AtasKept later (cache.expire later) := by
  have each : ∀ creation ∈ cache.creations,
      creation.missing ≠ [] ∧ (∀ ata ∈ creation.missing, ata ∈ creation.required) ∧
        creation.filledAt ≤ creation.sentAt ∧ creation.sentAt ≤ later := by
    intro creation member
    rcases kept.each creation member with ⟨some_, inside, order, sent⟩
    exact ⟨some_, inside, order, Nat.le_trans sent after⟩
  unfold AtaCache.expire
  split
  · next old =>
      have expired : cache.filledAt + ataCacheTtl < later := Nat.add_lt_of_lt_sub' old
      refine ⟨Nat.le_refl _, kept.apart, each, ?_⟩
      intro creation member
      right
      refine ⟨?_, (each creation member).2.2.2⟩
      rcases kept.known creation member with ⟨same, -⟩ | ⟨earlier, -⟩
      · rw [same]
        exact expired
      · exact Nat.lt_trans earlier (Nat.lt_of_le_of_lt (Nat.le_add_right _ _) expired)
  · exact ⟨Nat.le_trans kept.filled after, kept.apart, each, kept.known⟩

theorem atasKept_ensure (builder : TxBuilder) (dryRun : Bool) (cache : AtaCache)
    (moment : AtaMoment) (route : RouteParams F) (kept : AtasKept moment.now cache) :
    AtasKept moment.now (ensureRouteAtas builder dryRun cache moment route) := by
  rcases ensureRouteAtas_cases builder dryRun cache moment route with ⟨filled, more, outcome⟩
  have known : ∀ creation ∈ cache.creations,
      (creation.filledAt = cache.filledAt ∧ ∀ ata ∈ creation.required,
        ata ∈ (ensureRouteAtas builder dryRun cache moment route).known) ∨
      (creation.filledAt + ataCacheTtl < cache.filledAt ∧ creation.sentAt ≤ cache.filledAt) := by
    intro creation member
    rcases kept.known creation member with ⟨same, inside⟩ | earlier
    · exact Or.inl ⟨same, fun ata wanted => more ata (inside ata wanted)⟩
    · exact Or.inr earlier
  rcases outcome with still | ⟨required, missing, -, some_, unknown, covered, added⟩
  · refine ⟨filled ▸ kept.filled, still ▸ kept.apart, still ▸ kept.each, ?_⟩
    rw [still, filled]
    exact known
  · have apart : ∀ creation ∈ cache.creations,
        Apart creation ⟨cache.filledAt, moment.now, required, missing⟩ := by
      intro creation member
      refine ⟨(kept.each creation member).2.2.1, ?_⟩
      rcases kept.known creation member with ⟨same, inside⟩ | earlier
      · exact Or.inl ⟨same, fun ata lost wanted => (unknown ata lost).2 (inside ata wanted)⟩
      · exact Or.inr earlier
    refine ⟨filled ▸ kept.filled, ?_, ?_, ?_⟩
    · rw [added, List.pairwise_append]
      refine ⟨kept.apart, List.pairwise_singleton _ _, ?_⟩
      intro earlier member later last
      rw [List.mem_singleton.mp last]
      exact apart earlier member
    · intro creation member
      rw [added] at member
      rcases List.mem_append.mp member with before | last
      · exact kept.each creation before
      · rw [List.mem_singleton.mp last]
        exact ⟨some_, fun ata lost => (unknown ata lost).1, kept.filled, Nat.le_refl _⟩
    · intro creation member
      rw [filled]
      rw [added] at member
      rcases List.mem_append.mp member with before | last
      · exact known creation before
      · rw [List.mem_singleton.mp last]
        exact Or.inl ⟨rfl, covered⟩

theorem atasKept_run (builder : TxBuilder) (dryRun : Bool)
    (bundles : List (AtaMoment × RouteParams F)) (now : Instant) (cache : AtaCache)
    (kept : AtasKept now cache)
    (clocked : (now :: bundles.map (fun bundle => bundle.1.now)).Pairwise (· ≤ ·)) :
    ∃ later, AtasKept later (run (ataStep builder dryRun) cache bundles) := by
  induction bundles generalizing now cache with
  | nil => exact ⟨now, kept⟩
  | cons bundle rest ih =>
      rcases List.pairwise_cons.mp clocked with ⟨after, later⟩
      have expired := atasKept_expire now bundle.1.now cache kept (after _ (by simp))
      exact ih bundle.1.now _ (atasKept_ensure builder dryRun _ bundle.1 bundle.2 expired) later

theorem creations_dryRun (builder : TxBuilder) (bundles : List (AtaMoment × RouteParams F))
    (cache : AtaCache) :
    (run (ataStep builder true) cache bundles).creations = cache.creations := by
  induction bundles generalizing cache with
  | nil => rfl
  | cons bundle rest ih =>
      have expired : (cache.expire bundle.1.now).creations = cache.creations := by
        unfold AtaCache.expire
        split <;> rfl
      rw [run_cons, ih, ataStep, ← expired]
      rcases (ensureRouteAtas_cases builder true (cache.expire bundle.1.now) bundle.1
        bundle.2).2.2 with still | ⟨_, _, live, -⟩
      · exact still
      · cases live

/-- Of an account that is missing a creation is sent at most once for each filling of the
cache, and two fillings are more than a minute apart. A dry run sends none. -/
theorem created_once_a_filling (builder : TxBuilder) (dryRun : Bool) (began : Instant)
    (bundles : List (AtaMoment × RouteParams F))
    (clocked : (began :: bundles.map (fun bundle => bundle.1.now)).Pairwise (· ≤ ·)) :
    let cache := run (ataStep builder dryRun) (.start began) bundles
    cache.creations.Pairwise Apart ∧
    (∀ creation ∈ cache.creations,
      creation.missing ≠ [] ∧ ∀ ata ∈ creation.missing, ata ∈ creation.required) ∧
    (dryRun = true → cache.creations = []) := by
  have start : AtasKept began (.start began) :=
    ⟨Nat.le_refl _, List.Pairwise.nil, by simp [AtaCache.start], by simp [AtaCache.start]⟩
  rcases atasKept_run builder dryRun bundles began _ start clocked with ⟨later, kept⟩
  refine ⟨kept.apart, ?_, ?_⟩
  · intro creation member
    exact ⟨(kept.each creation member).1, (kept.each creation member).2.1⟩
  · intro dry
    rw [dry]
    exact creations_dryRun builder bundles _

/-- Two bundles on one route ten seconds apart, whose accounts the RPC never finds. -/
def neverFound (now : Instant) : AtaMoment × RouteParams Double :=
  (⟨now, HashMap.empty, fun keys => some (keys.map (fun _ => false)), some true, true⟩, staleRoute)

theorem created_once_a_filling_neverFound :
    let cache := run (ataStep Executability.constantBuilder false) (.start 0)
      [neverFound (RouteDedup.seconds 5), neverFound (RouteDedup.seconds 15)]
    cache.creations.length = 1 ∧ cache.creations.Pairwise Apart := by
  refine ⟨by decide +kernel, ?_⟩
  exact (created_once_a_filling Executability.constantBuilder false 0
    [neverFound (RouteDedup.seconds 5), neverFound (RouteDedup.seconds 15)]
    (by decide +kernel)).1

end Atas

end Helios.SlowPath
