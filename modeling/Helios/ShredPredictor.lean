import Helios.MlScorer
import Helios.PoolState

/-! The predictor that learns which swaps an opportunity follows. Swaps are recorded as the
shreds bring them, an opportunity is credited to the swaps of its pools seen shortly before,
and the models are saved, loaded and lost with the process. Swaps, opportunities and the
database each have threads of their own. -/

namespace Helios.ShredPredictor

open Machine Runs FloatArith
open MlScorer (Unit)

def sizeBuckets : Nat := 12
def hourBuckets : Nat := 24

/-- How long a swap waits for an opportunity. -/
def pendingTtl : Nat := 5 * 10 ^ 9

/-- The share of the latency that an opportunity has to outlast, in milliseconds. -/
def turbineLatencyMs : Nat := 669

section Models

variable (F : Type)

structure PoolSwapModel where
  pool : String
  dexType : String
  arbRate : F
  avgArbProfit : F
  avgDelayMs : F
  sizeArbRates : List F
  hourlyRates : List F
  nSwaps : Nat
  nArbs : Nat

structure PairPersistenceModel where
  pairKey : String
  persistenceRate : F
  avgWindowMs : F
  executionSuccessRate : F
  nObservations : Nat

end Models

/-- A swap that waits. `id` is its place among all the swaps of the process. -/
structure PendingSwap where
  pool : String
  detectedAt : Instant
  sizeBucket : Nat
  id : Nat

def PendingSwap.young (swap : PendingSwap) (now : Instant) : Bool :=
  decide (now - swap.detectedAt < pendingTtl)

/-- `amount_to_bucket`. -/
def amountToBucket (amount : Nat) : Nat :=
  if amount / 1000 = 0 then 0 else Min.min (Nat.log2 (amount / 1000)) (sizeBuckets - 1)

/-! A swap is recorded in four steps, each of which is done at once. -/

structure SwapCall where
  pool : String
  dexType : String
  amount : Nat
  slot : Nat

inductive SwapStage where
  | model
  | pending
  | count
  | expire
  | done
  deriving DecidableEq

structure SwapTask where
  call : SwapCall
  stage : SwapStage

def pendingKey (call : SwapCall) : String := call.pool ++ "_" ++ toString call.slot

/-! An opportunity collects, for each of its pools in turn, the swaps that wait there, and
credits them one by one. -/

structure Match where
  key : String
  delayMs : Nat
  sizeBucket : Nat
  id : Nat

inductive ArbStage where
  | collect
  | credit (pool : String) (matching : List Match)
  | count (pool : String) (current : Match) (matching : List Match)
  | remove (pool : String) (current : Match) (matching : List Match)

/-- `rest` holds the pools not yet come by, `collectedAt` the time of the last collection. -/
structure ArbTask where
  pools : List String
  profit : Int
  hour : Nat
  rest : List String
  collectedAt : Instant
  stage : ArbStage

/-- An opportunity credited to a swap. -/
structure Credit where
  id : Nat
  pool : String
  collectedAt : Instant

/-- `observed` lists the swaps that were put to wait, and `credits` what was credited, since
the process started; the program keeps neither list. -/
structure World (F : Type) where
  poolModels : HashMap String (PoolSwapModel F)
  pairModels : HashMap String (PairPersistenceModel F)
  pendingSwaps : HashMap String PendingSwap
  totalSwaps : Nat
  totalArbsCorrelated : Nat
  swaps : List SwapTask
  arb : Option ArbTask
  savedPools : HashMap String (PoolSwapModel F)
  savedPairs : HashMap String (PairPersistenceModel F)
  observed : List (String × Instant)
  credits : List Credit

inductive Event where
  | swap (call : SwapCall)
  | advanceSwap (place : Nat) (now : Instant)
  | detect (pools : List String) (profit : Int) (hour : Nat)
  | advanceArb (now : Instant)
  | execute (pools : List String) (landed : Bool) (delayMs : Nat)
  | savePool (key : String)
  | savePair (key : String)
  | loadPool (key : String)
  | loadPair (key : String)
  | restart

section Step

variable {F : Type} [FloatArith F]

def alpha : F := ofRat (15 / 100)

/-- The moving average after one more value. -/
def ema (value average : F) : F := add (mul alpha value) (mul (sub (ofNat 1) alpha) average)

def PoolSwapModel.new (pool dexType : String) : PoolSwapModel F where
  pool := pool
  dexType := dexType
  arbRate := ofNat 0
  avgArbProfit := ofNat 0
  avgDelayMs := ofNat 0
  sizeArbRates := List.replicate sizeBuckets (ofNat 0)
  hourlyRates := List.replicate hourBuckets (ofNat 0)
  nSwaps := 0
  nArbs := 0

def PoolSwapModel.observeSwap (model : PoolSwapModel F) : PoolSwapModel F :=
  { model with
    nSwaps := model.nSwaps + 1
    arbRate := mul (sub (ofNat 1) alpha) model.arbRate }

def PoolSwapModel.observeArbFollowed (model : PoolSwapModel F) (profit : Int)
    (delayMs sizeBucket hour : Nat) : PoolSwapModel F :=
  { model with
    nArbs := model.nArbs + 1
    arbRate := ema (ofNat 1) model.arbRate
    avgArbProfit := ema (ofInt profit) model.avgArbProfit
    avgDelayMs := ema (ofNat delayMs) model.avgDelayMs
    sizeArbRates := model.sizeArbRates.modify sizeBucket (ema (ofNat 1))
    hourlyRates := model.hourlyRates.modify hour (ema (ofNat 1)) }

def PairPersistenceModel.new (pairKey : String) : PairPersistenceModel F :=
  ⟨pairKey, ofRat (1 / 2), ofNat 500, ofNat 0, 0⟩

def PairPersistenceModel.observeExecution (model : PairPersistenceModel F) (landed : Bool)
    (delayMs : Nat) : PairPersistenceModel F :=
  { model with
    executionSuccessRate := ema (if landed then ofNat 1 else ofNat 0) model.executionSuccessRate
    avgWindowMs := ema (ofNat delayMs) model.avgWindowMs
    persistenceRate :=
      ema (if landed || decide (delayMs < turbineLatencyMs) then ofNat 1 else ofNat 0)
        model.persistenceRate }

/-- The key of the first two pools of a route, in order. -/
def pairKey (pools : List String) : Option String :=
  match pools with
  | first :: second :: _ =>
      some (if second < first then second ++ ":" ++ first else first ++ ":" ++ second)
  | _ => none

def observePair (pairs : HashMap String (PairPersistenceModel F)) (pools : List String) :
    HashMap String (PairPersistenceModel F) :=
  match pairKey pools with
  | some key =>
      let model := (HashMap.get pairs key).getD (.new key)
      pairs.insert key { model with nObservations := model.nObservations + 1 }
  | none => pairs

def start : World F where
  poolModels := HashMap.empty
  pairModels := HashMap.empty
  pendingSwaps := HashMap.empty
  totalSwaps := 0
  totalArbsCorrelated := 0
  swaps := []
  arb := none
  savedPools := HashMap.empty
  savedPairs := HashMap.empty
  observed := []
  credits := []

/-- A new process with the database the last one left. -/
def restarted (world : World F) : World F :=
  { start with savedPools := world.savedPools, savedPairs := world.savedPairs }

def advanceSwap (world : World F) (task : SwapTask) (now : Instant) : World F × SwapTask :=
  match task.stage with
  | .model =>
      let model := (HashMap.get world.poolModels task.call.pool).getD
        (.new task.call.pool task.call.dexType)
      ({ world with poolModels := world.poolModels.insert task.call.pool model.observeSwap },
        { task with stage := .pending })
  | .pending =>
      ({ world with
          pendingSwaps := world.pendingSwaps.insert (pendingKey task.call)
            ⟨task.call.pool, now, amountToBucket task.call.amount, world.observed.length⟩
          observed := world.observed ++ [(task.call.pool, now)] },
        { task with stage := .count })
  | .count => ({ world with totalSwaps := world.totalSwaps + 1 }, { task with stage := .expire })
  | .expire =>
      ({ world with
          pendingSwaps := HashMap.retain world.pendingSwaps (fun _ swap => swap.young now) },
        { task with stage := .done })
  | .done => (world, task)

/-- The swaps that wait on a pool. -/
def collect (pendingSwaps : HashMap String PendingSwap) (pool : String) (now : Instant) :
    List Match :=
  (pendingSwaps.entries.filter (fun entry =>
    decide (entry.2.pool = pool) && entry.2.young now)).map
      (fun entry => ⟨entry.1, (now - entry.2.detectedAt) / 10 ^ 6, entry.2.sizeBucket, entry.2.id⟩)

def advanceArb (world : World F) (task : ArbTask) (now : Instant) : World F :=
  match task.stage, task.rest with
  | .collect, pool :: rest =>
      { world with arb := some { task with
          rest := rest
          collectedAt := now
          stage := .credit pool (collect world.pendingSwaps pool now) } }
  | .collect, [] =>
      { world with pairModels := observePair world.pairModels task.pools, arb := none }
  | .credit _ [], _ => { world with arb := some { task with stage := .collect } }
  | .credit pool (current :: matching), _ =>
      { world with
        poolModels := HashMap.modify world.poolModels pool
          (fun model => model.observeArbFollowed task.profit current.delayMs current.sizeBucket
            task.hour)
        credits := world.credits ++ [⟨current.id, pool, task.collectedAt⟩]
        arb := some { task with stage := .count pool current matching } }
  | .count pool current matching, _ =>
      { world with
        totalArbsCorrelated := world.totalArbsCorrelated + 1
        arb := some { task with stage := .remove pool current matching } }
  | .remove pool current matching, _ =>
      { world with
        pendingSwaps := world.pendingSwaps.erase current.key
        arb := some { task with stage := .credit pool matching } }

def step (world : World F) : Event → World F
  | .swap call => { world with swaps := world.swaps ++ [⟨call, .model⟩] }
  | .advanceSwap place now =>
      match world.swaps[place]? with
      | none => world
      | some task =>
          let next := advanceSwap world task now
          { next.1 with swaps := world.swaps.set place next.2 }
  | .detect pools profit hour =>
      match world.arb with
      | none => { world with arb := some ⟨pools, profit, hour, pools, 0, .collect⟩ }
      | some _ => world
  | .advanceArb now =>
      match world.arb with
      | none => world
      | some task => advanceArb world task now
  | .execute pools landed delayMs =>
      match pairKey pools with
      | some key => { world with
          pairModels := HashMap.modify world.pairModels key
            (fun model => model.observeExecution landed delayMs) }
      | none => world
  | .savePool key =>
      match HashMap.get world.poolModels key with
      | some model => { world with savedPools := world.savedPools.insert key model }
      | none => world
  | .savePair key =>
      match HashMap.get world.pairModels key with
      | some model => { world with savedPairs := world.savedPairs.insert key model }
      | none => world
  | .loadPool key =>
      match HashMap.get world.savedPools key with
      | some model => { world with poolModels := world.poolModels.insert key model }
      | none => world
  | .loadPair key =>
      match HashMap.get world.savedPairs key with
      | some model => { world with pairModels := world.pairModels.insert key model }
      | none => world
  | .restart => restarted world

end Step


/-! Which swap is credited with what. -/

/-- The swap that is credited and has still to be taken out. -/
def ArbStage.inFlight : ArbStage → Option Match
  | .count _ current _ => some current
  | .remove _ current _ => some current
  | _ => none

/-- The swaps that are still to be credited. -/
def ArbStage.matching : ArbStage → List Match
  | .collect => []
  | .credit _ matching => matching
  | .count _ _ matching => matching
  | .remove _ _ matching => matching

def ArbStage.pool : ArbStage → String
  | .collect => ""
  | .credit pool _ => pool
  | .count pool _ _ => pool
  | .remove pool _ _ => pool

section Ledger

variable {F : Type}

def creditedIds (world : World F) : List Nat := world.credits.map Credit.id

/-- The swap of an id was put to wait on a pool, and was young when collected. -/
def Genuine (observed : List (String × Instant)) (id : Nat) (pool : String)
    (collectedAt : Instant) : Prop :=
  ∃ since, observed[id]? = some (pool, since) ∧ collectedAt - since < pendingTtl

theorem genuine_lt (observed : List (String × Instant)) (id : Nat) (pool : String)
    (collectedAt : Instant) (genuine : Genuine observed id pool collectedAt) :
    id < observed.length := by
  rcases genuine with ⟨since, found, -⟩
  exact (List.getElem?_eq_some_iff.mp found).1

theorem genuine_append (observed : List (String × Instant)) (added : String × Instant) (id : Nat)
    (pool : String) (collectedAt : Instant) (genuine : Genuine observed id pool collectedAt) :
    Genuine (observed ++ [added]) id pool collectedAt := by
  have below := genuine_lt observed id pool collectedAt genuine
  rcases genuine with ⟨since, found, young⟩
  exact ⟨since, by rw [List.getElem?_append_left below, found], young⟩

/-- What the thread of an opportunity holds. -/
structure Working (world : World F) (task : ArbTask) : Prop where
  fresh : ∀ one ∈ task.stage.matching, one.id ∉ creditedIds world
  distinct : (task.stage.matching.map Match.id).Nodup
  genuine : ∀ one ∈ task.stage.matching,
    Genuine world.observed one.id task.stage.pool task.collectedAt
  keys : ∀ one ∈ task.stage.matching, ∀ key swap,
    HashMap.get world.pendingSwaps key = some swap → swap.id = one.id → key = one.key
  inFlight : ∀ current, task.stage.inFlight = some current → current.id ∈ creditedIds world ∧
    ∀ key swap, HashMap.get world.pendingSwaps key = some swap → swap.id = current.id →
      key = current.key

structure Sound (world : World F) : Prop where
  recorded : ∀ key swap, HashMap.get world.pendingSwaps key = some swap →
    world.observed[swap.id]? = some (swap.pool, swap.detectedAt)
  apart : ∀ key other first second, HashMap.get world.pendingSwaps key = some first →
    HashMap.get world.pendingSwaps other = some second → first.id = second.id → key = other
  /-- A credited swap waits only until the thread that credited it takes it out. -/
  credited : ∀ key swap, HashMap.get world.pendingSwaps key = some swap →
    swap.id ∈ creditedIds world →
      ∃ task current, world.arb = some task ∧ task.stage.inFlight = some current ∧
        key = current.key
  once : (creditedIds world).Nodup
  genuine : ∀ credit ∈ world.credits,
    Genuine world.observed credit.id credit.pool credit.collectedAt
  working : ∀ task, world.arb = some task → Working world task

theorem sound_start : Sound (start : World F) where
  recorded := by simp [start]
  apart := by simp [start]
  credited := by simp [start]
  once := by simp [start, creditedIds]
  genuine := by simp [start]
  working := by simp [start]

theorem lt_of_credited (world : World F) (sound : Sound world) (id : Nat)
    (credited : id ∈ creditedIds world) : id < world.observed.length := by
  rcases List.mem_map.mp credited with ⟨credit, member, rfl⟩
  exact genuine_lt _ _ _ _ (sound.genuine credit member)

theorem lt_of_recorded (world : World F) (sound : Sound world) (key : String)
    (swap : PendingSwap) (found : HashMap.get world.pendingSwaps key = some swap) :
    swap.id < world.observed.length :=
  (List.getElem?_eq_some_iff.mp (sound.recorded key swap found)).1

/-- Only what waits, what was credited and the thread of the opportunity matter. -/
theorem sound_of_same (before after : World F) (sound : Sound before)
    (pendingSwaps : after.pendingSwaps = before.pendingSwaps)
    (observed : after.observed = before.observed) (credits : after.credits = before.credits)
    (arb : after.arb = before.arb) : Sound after := by
  have ids : creditedIds after = creditedIds before := by rw [creditedIds, credits, creditedIds]
  constructor
  · rw [pendingSwaps, observed]
    exact sound.recorded
  · rw [pendingSwaps]
    exact sound.apart
  · rw [pendingSwaps, ids, arb]
    exact sound.credited
  · rw [ids]
    exact sound.once
  · rw [credits, observed]
    exact sound.genuine
  · intro task held
    rw [arb] at held
    have working := sound.working task held
    constructor
    · rw [ids]
      exact working.fresh
    · exact working.distinct
    · rw [observed]
      exact working.genuine
    · rw [pendingSwaps]
      exact working.keys
    · rw [pendingSwaps, ids]
      exact working.inFlight

/-- A swap put to wait has an id of its own. -/
theorem sound_pending (world : World F) (sound : Sound world) (key pool : String)
    (now : Instant) (bucket : Nat) :
    Sound { world with
      pendingSwaps := world.pendingSwaps.insert key ⟨pool, now, bucket, world.observed.length⟩
      observed := world.observed ++ [(pool, now)] } := by
  have cases : ∀ other swap,
      HashMap.get (world.pendingSwaps.insert key ⟨pool, now, bucket, world.observed.length⟩)
        other = some swap →
      (other = key ∧ swap = ⟨pool, now, bucket, world.observed.length⟩) ∨
        HashMap.get world.pendingSwaps other = some swap := by
    intro other swap found
    by_cases own : other = key
    · rw [own, HashMap.get_insert] at found
      exact Or.inl ⟨own, (Option.some.inj found).symm⟩
    · rw [HashMap.get_insert_ne _ _ _ _ own] at found
      exact Or.inr found
  constructor
  · intro other swap found
    rcases cases other swap found with ⟨-, rfl⟩ | old
    · exact List.getElem?_concat_length
    · have below := lt_of_recorded world sound other swap old
      exact (List.getElem?_append_left below).trans (sound.recorded other swap old)
  · intro first second one two foundOne foundTwo same
    rcases cases first one foundOne with ⟨rfl, rfl⟩ | oldOne
    · rcases cases second two foundTwo with ⟨rfl, -⟩ | oldTwo
      · rfl
      · have below := lt_of_recorded world sound second two oldTwo
        exact absurd same (by simpa using (Nat.ne_of_lt below).symm)
    · rcases cases second two foundTwo with ⟨rfl, rfl⟩ | oldTwo
      · have below := lt_of_recorded world sound first one oldOne
        exact absurd same (Nat.ne_of_lt below)
      · exact sound.apart first second one two oldOne oldTwo same
  · intro other swap found credited
    rcases cases other swap found with ⟨-, rfl⟩ | old
    · exact absurd (lt_of_credited world sound _ credited) (Nat.lt_irrefl _)
    · exact sound.credited other swap old credited
  · exact sound.once
  · intro credit member
    exact genuine_append _ _ _ _ _ (sound.genuine credit member)
  · intro task held
    have working := sound.working task held
    constructor
    · exact working.fresh
    · exact working.distinct
    · intro one member
      exact genuine_append _ _ _ _ _ (working.genuine one member)
    · intro one member other swap found same
      rcases cases other swap found with ⟨-, rfl⟩ | old
      · have below := genuine_lt _ _ _ _ (working.genuine one member)
        exact absurd same (Nat.ne_of_gt below)
      · exact working.keys one member other swap old same
    · intro current flying
      rcases working.inFlight current flying with ⟨credited, keys⟩
      refine ⟨credited, ?_⟩
      intro other swap found same
      rcases cases other swap found with ⟨-, rfl⟩ | old
      · exact absurd same (Nat.ne_of_gt (lt_of_credited world sound _ credited))
      · exact keys other swap old same

/-- Swaps that are given up wait no more. -/
theorem sound_expire (world : World F) (sound : Sound world) (left : HashMap String PendingSwap)
    (fewer : ∀ key swap, HashMap.get left key = some swap →
      HashMap.get world.pendingSwaps key = some swap) :
    Sound { world with pendingSwaps := left } where
  recorded := fun key swap found => sound.recorded key swap (fewer key swap found)
  apart := fun key other first second one two same =>
    sound.apart key other first second (fewer key first one) (fewer other second two) same
  credited := fun key swap found credited =>
    sound.credited key swap (fewer key swap found) credited
  once := sound.once
  genuine := sound.genuine
  working := by
    intro task held
    have working := sound.working task held
    constructor
    · exact working.fresh
    · exact working.distinct
    · exact working.genuine
    · intro one member key swap found same
      exact working.keys one member key swap (fewer key swap found) same
    · intro current flying
      rcases working.inFlight current flying with ⟨credited, keys⟩
      exact ⟨credited, fun key swap found same => keys key swap (fewer key swap found) same⟩

theorem mem_collect (pendingSwaps : HashMap String PendingSwap) (pool : String) (now : Instant)
    (one : Match) (member : one ∈ collect pendingSwaps pool now) :
    ∃ swap, HashMap.get pendingSwaps one.key = some swap ∧ swap.pool = pool ∧
      now - swap.detectedAt < pendingTtl ∧ one.id = swap.id := by
  rcases List.mem_map.mp member with ⟨entry, kept, rfl⟩
  rcases List.mem_filter.mp kept with ⟨inside, passes⟩
  rw [Bool.and_eq_true, decide_eq_true_eq, PendingSwap.young, decide_eq_true_eq] at passes
  exact ⟨entry.2, AList.mem_lookup_iff.mpr inside, passes.1, passes.2, rfl⟩

theorem nodup_collect (world : World F) (sound : Sound world) (pool : String) (now : Instant) :
    ((collect world.pendingSwaps pool now).map Match.id).Nodup := by
  rw [collect, List.map_map]
  apply List.Nodup.map_on _ (world.pendingSwaps.nodupKeys.nodup.filter _)
  intro first firstIn second secondIn same
  have one := AList.mem_lookup_iff.mpr (List.mem_of_mem_filter firstIn)
  have two := AList.mem_lookup_iff.mpr (List.mem_of_mem_filter secondIn)
  exact world.pendingSwaps.nodupKeys.eq_of_fst_eq (List.mem_of_mem_filter firstIn)
    (List.mem_of_mem_filter secondIn) (sound.apart _ _ _ _ one two same)

/-- With no swap credited and not yet taken out, none that waits is credited. -/
theorem not_credited (world : World F) (sound : Sound world) (task : ArbTask)
    (held : world.arb = some task) (none_ : task.stage.inFlight = none) (key : String)
    (swap : PendingSwap) (found : HashMap.get world.pendingSwaps key = some swap) :
    swap.id ∉ creditedIds world := by
  intro credited
  rcases sound.credited key swap found credited with ⟨other, current, same, flying, -⟩
  rw [held] at same
  cases same
  rw [none_] at flying
  cases flying

theorem sound_advanceArb [FloatArith F] (world : World F) (sound : Sound world)
    (task : ArbTask) (now : Instant) (held : world.arb = some task) :
    Sound (advanceArb world task now) := by
  have working := sound.working task held
  rcases task with ⟨pools, profit, hour, rest, collectedAt, stage⟩
  cases stage with
  | collect =>
      have clear := not_credited world sound _ held rfl
      cases rest with
      | nil =>
          simp only [advanceArb]
          exact {
            recorded := sound.recorded
            apart := sound.apart
            credited := fun key swap found credited => absurd credited (clear key swap found)
            once := sound.once
            genuine := sound.genuine
            working := fun task same => by cases same }
      | cons pool rest =>
          simp only [advanceArb]
          refine {
            recorded := sound.recorded
            apart := sound.apart
            credited := fun key swap found credited => absurd credited (clear key swap found)
            once := sound.once
            genuine := sound.genuine
            working := ?_ }
          intro task same
          cases same
          constructor
          · intro one member
            rcases mem_collect _ _ _ one member with ⟨swap, found, -, -, same⟩
            rw [same]
            exact clear one.key swap found
          · exact nodup_collect world sound pool now
          · intro one member
            rcases mem_collect _ _ _ one member with ⟨swap, found, own, young, same⟩
            refine ⟨swap.detectedAt, ?_, young⟩
            rw [same]
            exact own ▸ sound.recorded one.key swap found
          · intro one member key swap found same
            rcases mem_collect _ _ _ one member with ⟨other, there, -, -, id⟩
            exact sound.apart key one.key swap other found there (same.trans id)
          · intro current flying
            cases flying
  | credit pool matching =>
      have clear := not_credited world sound _ held rfl
      cases matching with
      | nil =>
          simp only [advanceArb]
          refine {
            recorded := sound.recorded
            apart := sound.apart
            credited := fun key swap found credited => absurd credited (clear key swap found)
            once := sound.once
            genuine := sound.genuine
            working := ?_ }
          intro task same
          cases same
          exact ⟨by simp [ArbStage.matching], by simp [ArbStage.matching],
            by simp [ArbStage.matching], by simp [ArbStage.matching], by simp [ArbStage.inFlight]⟩
      | cons current matching =>
          simp only [advanceArb]
          have first := working.fresh current List.mem_cons_self
          rcases List.nodup_cons.mp working.distinct with ⟨alone, distinct⟩
          have ids : creditedIds { world with
              credits := world.credits ++ [⟨current.id, pool, collectedAt⟩] } =
                creditedIds world ++ [current.id] := by
            rw [creditedIds, List.map_append]
            rfl
          constructor
          · exact sound.recorded
          · exact sound.apart
          · intro key swap found credited
            refine ⟨_, current, rfl, rfl, ?_⟩
            rcases List.mem_append.mp (ids ▸ credited) with old | new
            · exact absurd old (clear key swap found)
            · exact working.keys current List.mem_cons_self key swap found
                (List.mem_singleton.mp new)
          · exact ids ▸ List.nodup_append_comm.mp (List.nodup_cons.mpr ⟨first, sound.once⟩)
          · intro credit member
            rcases List.mem_append.mp member with old | new
            · exact sound.genuine credit old
            · rw [List.mem_singleton.mp new]
              exact working.genuine current List.mem_cons_self
          · intro task same
            cases same
            constructor
            · intro one member credited
              rcases List.mem_append.mp (ids ▸ credited) with old | new
              · exact working.fresh one (List.mem_cons_of_mem _ member) old
              · apply alone
                rw [← List.mem_singleton.mp new]
                exact List.mem_map_of_mem member
            · exact distinct
            · intro one member
              exact working.genuine one (List.mem_cons_of_mem _ member)
            · intro one member
              exact working.keys one (List.mem_cons_of_mem _ member)
            · intro other flying
              cases flying
              refine ⟨ids ▸ List.mem_append_right _ List.mem_cons_self, ?_⟩
              exact working.keys current List.mem_cons_self
  | count pool current matching =>
      simp only [advanceArb]
      refine {
        recorded := sound.recorded
        apart := sound.apart
        credited := ?_
        once := sound.once
        genuine := sound.genuine
        working := ?_ }
      · intro key swap found credited
        rcases sound.credited key swap found credited with ⟨task, other, same, flying, own⟩
        rw [held] at same
        cases same
        cases flying
        exact ⟨_, current, rfl, rfl, own⟩
      · intro task same
        cases same
        exact ⟨working.fresh, working.distinct, working.genuine, working.keys, working.inFlight⟩
  | remove pool current matching =>
      simp only [advanceArb]
      have fewer : ∀ key swap,
          HashMap.get (world.pendingSwaps.erase current.key) key = some swap →
            key ≠ current.key ∧ HashMap.get world.pendingSwaps key = some swap := by
        intro key swap found
        rw [HashMap.get_erase] at found
        split at found
        · cases found
        · next other => exact ⟨other, found⟩
      constructor
      · intro key swap found
        exact sound.recorded key swap (fewer key swap found).2
      · intro key other first second one two same
        exact sound.apart key other first second (fewer key first one).2 (fewer other second two).2
          same
      · intro key swap found credited
        rcases fewer key swap found with ⟨other, there⟩
        rcases sound.credited key swap there credited with ⟨task, taken, same, flying, own⟩
        rw [held] at same
        cases same
        cases flying
        exact absurd own other
      · exact sound.once
      · exact sound.genuine
      · intro task same
        cases same
        constructor
        · exact working.fresh
        · exact working.distinct
        · exact working.genuine
        · intro one member key swap found
          exact working.keys one member key swap (fewer key swap found).2
        · intro other flying
          cases flying

end Ledger

section Runs

variable {F : Type} [FloatArith F]

theorem sound_step (world : World F) (event : Event) (sound : Sound world) :
    Sound (step world event) := by
  cases event with
  | swap call => exact sound_of_same world _ sound rfl rfl rfl rfl
  | advanceSwap place now =>
      rw [step]
      cases found : world.swaps[place]? with
      | none => exact sound
      | some task =>
          dsimp only
          cases stage : task.stage with
          | model =>
              simp only [advanceSwap, stage]
              exact sound_of_same world _ sound rfl rfl rfl rfl
          | pending =>
              simp only [advanceSwap, stage]
              have waiting := sound_pending world sound (pendingKey task.call) task.call.pool now
                (amountToBucket task.call.amount)
              exact sound_of_same _ _ waiting rfl rfl rfl rfl
          | count =>
              simp only [advanceSwap, stage]
              exact sound_of_same world _ sound rfl rfl rfl rfl
          | expire =>
              simp only [advanceSwap, stage]
              have fewer : ∀ key swap, HashMap.get (HashMap.retain world.pendingSwaps
                  (fun _ swap => swap.young now)) key = some swap →
                    HashMap.get world.pendingSwaps key = some swap := by
                intro key swap kept
                rw [HashMap.get_retain, Option.filter_eq_some_iff] at kept
                exact kept.1
              have left := sound_expire world sound _ fewer
              exact sound_of_same _ _ left rfl rfl rfl rfl
          | done =>
              simp only [advanceSwap, stage]
              exact sound_of_same world _ sound rfl rfl rfl rfl
  | detect pools profit hour =>
      rw [step]
      cases held : world.arb with
      | some task => exact sound
      | none =>
          have clear : ∀ key swap, HashMap.get world.pendingSwaps key = some swap →
              swap.id ∉ creditedIds world := by
            intro key swap found credited
            rcases sound.credited key swap found credited with ⟨task, -, same, -⟩
            rw [held] at same
            cases same
          refine {
            recorded := sound.recorded
            apart := sound.apart
            credited := fun key swap found credited => absurd credited (clear key swap found)
            once := sound.once
            genuine := sound.genuine
            working := ?_ }
          intro task same
          cases same
          exact ⟨by simp [ArbStage.matching], by simp [ArbStage.matching],
            by simp [ArbStage.matching], by simp [ArbStage.matching], by simp [ArbStage.inFlight]⟩
  | advanceArb now =>
      rw [step]
      cases held : world.arb with
      | none => exact sound
      | some task => exact sound_advanceArb world sound task now held
  | execute pools landed delayMs =>
      rw [step]
      split
      · exact sound_of_same world _ sound rfl rfl rfl rfl
      · exact sound
  | savePool key =>
      rw [step]
      split
      · exact sound_of_same world _ sound rfl rfl rfl rfl
      · exact sound
  | savePair key =>
      rw [step]
      split
      · exact sound_of_same world _ sound rfl rfl rfl rfl
      · exact sound
  | loadPool key =>
      rw [step]
      split
      · exact sound_of_same world _ sound rfl rfl rfl rfl
      · exact sound
  | loadPair key =>
      rw [step]
      split
      · exact sound_of_same world _ sound rfl rfl rfl rfl
      · exact sound
  | restart => exact sound_of_same start _ sound_start rfl rfl rfl rfl

theorem sound_run (events : List Event) : Sound (run step (start : World F) events) :=
  run_invariant step Sound start events sound_start
    (fun pair _ sound => sound_step pair.1 pair.2 sound)

/-- Distinct places of a list that hold a kind of item are no more than the items. -/
theorem length_le_countP {A : Type} (items : List A) (p : A → Bool) (places : List Nat)
    (distinct : places.Nodup)
    (hold : ∀ place ∈ places, ∃ item, items[place]? = some item ∧ p item) :
    places.length ≤ items.countP p := by
  have count : ((List.range items.length).filter (fun place => (items[place]?).any p)).length =
      items.countP p := by
    clear hold
    induction items using List.reverseRecOn with
    | nil => rfl
    | append_singleton before last ih =>
        rw [List.length_append, List.length_singleton, List.range_succ, List.filter_append,
          List.length_append, List.countP_append, ← ih]
        congr 1
        · congr 1
          apply List.filter_congr
          intro place member
          rw [List.getElem?_append_left (List.mem_range.mp member)]
        · rw [List.filter_singleton, List.getElem?_concat_length, Option.any_some,
            List.countP_singleton]
          cases p last <;> rfl
  rw [← count]
  apply List.Nodup.length_le_of_subset distinct
  intro place member
  rcases hold place member with ⟨item, found, passes⟩
  rw [List.mem_filter, List.mem_range, found]
  exact ⟨(List.getElem?_eq_some_iff.mp found).1, passes⟩

def creditsOf (world : World F) (pool : String) : Nat :=
  world.credits.countP (fun credit => decide (credit.pool = pool))

def observedOf (world : World F) (pool : String) : Nat :=
  world.observed.countP (fun swap => decide (swap.1 = pool))

omit [FloatArith F] in
theorem creditsOf_le (world : World F) (sound : Sound world) (pool : String) :
    creditsOf world pool ≤ observedOf world pool := by
  have kept : ((world.credits.filter (fun credit => decide (credit.pool = pool))).map
      Credit.id).Nodup := sound.once.sublist (List.filter_sublist.map Credit.id)
  have bound := length_le_countP world.observed (fun swap => decide (swap.1 = pool)) _ kept (by
    intro id member
    rcases List.mem_map.mp member with ⟨credit, inside, rfl⟩
    rcases List.mem_filter.mp inside with ⟨held, own⟩
    rcases sound.genuine credit held with ⟨since, found, -⟩
    exact ⟨_, found, own⟩)
  rw [List.length_map] at bound
  rw [creditsOf, List.countP_eq_length_filter]
  exact bound

end Runs

/-! How many. -/

section Counts

variable {F : Type}

def ArbStage.counting : ArbStage → Nat
  | .count _ _ _ => 1
  | _ => 0

/-- The totals lag behind what was put to wait and what was credited by what is being
counted. -/
structure Tallied (world : World F) : Prop where
  swaps : world.totalSwaps + world.swaps.countP (fun task => decide (task.stage = .count)) =
    world.observed.length
  arbs : world.totalArbsCorrelated + ((world.arb.map (·.stage.counting)).getD 0) =
    world.credits.length

/-- A task that goes on leaves the count of what it was and enters that of what it is. -/
theorem countP_advance (tasks : List SwapTask) (place : Nat) (task next : SwapTask)
    (p : SwapTask → Bool) (found : tasks[place]? = some task) :
    (tasks.set place next).countP p + (if p task then 1 else 0) =
      tasks.countP p + (if p next then 1 else 0) := by
  rcases List.getElem?_eq_some_iff.mp found with ⟨below, same⟩
  have held := List.boole_getElem_le_countP (p := p) below
  rw [List.countP_set below]
  rw [same] at held ⊢
  omega

variable [FloatArith F]

theorem tallied_step (world : World F) (event : Event) (tallied : Tallied world) :
    Tallied (step world event) := by
  have swaps := tallied.swaps
  cases event with
  | swap call =>
      refine { tallied with swaps := ?_ }
      simpa [step, List.countP_append] using swaps
  | advanceSwap place now =>
      rw [step]
      cases found : world.swaps[place]? with
      | none => exact tallied
      | some task =>
          dsimp only
          rcases task with ⟨call, stage⟩
          have moved := fun next => countP_advance world.swaps place ⟨call, stage⟩ ⟨call, next⟩
            (fun task => decide (task.stage = .count)) found
          refine ⟨?_, ?_⟩
          · cases stage with
            | model =>
                have next := moved .pending
                simp only [advanceSwap]
                simp at next
                omega
            | pending =>
                have next := moved .count
                simp only [advanceSwap, List.length_append, List.length_singleton]
                simp at next
                omega
            | count =>
                have next := moved .expire
                simp only [advanceSwap]
                simp at next
                omega
            | expire =>
                have next := moved .done
                simp only [advanceSwap]
                simp at next
                omega
            | done =>
                have next := moved .done
                simp only [advanceSwap]
                simp at next
                omega
          · cases stage <;> exact tallied.arbs
  | detect pools profit hour =>
      rw [step]
      cases held : world.arb with
      | some task => exact tallied
      | none =>
          refine ⟨swaps, ?_⟩
          have arbs := tallied.arbs
          rw [held] at arbs
          exact arbs
  | advanceArb now =>
      rw [step]
      cases held : world.arb with
      | none => exact tallied
      | some task =>
          have arbs := tallied.arbs
          rw [held] at arbs
          rcases task with ⟨pools, profit, hour, rest, collectedAt, stage⟩
          cases stage with
          | collect =>
              cases rest with
              | nil => exact ⟨swaps, arbs⟩
              | cons pool rest => exact ⟨swaps, arbs⟩
          | credit pool matching =>
              cases matching with
              | nil => exact ⟨swaps, arbs⟩
              | cons current matching =>
                  refine ⟨swaps, ?_⟩
                  simpa [advanceArb, ArbStage.counting] using arbs
          | count pool current matching => exact ⟨swaps, arbs⟩
          | remove pool current matching => exact ⟨swaps, arbs⟩
  | execute pools landed delayMs =>
      rw [step]
      split <;> exact ⟨swaps, tallied.arbs⟩
  | savePool key =>
      rw [step]
      split <;> exact ⟨swaps, tallied.arbs⟩
  | savePair key =>
      rw [step]
      split <;> exact ⟨swaps, tallied.arbs⟩
  | loadPool key =>
      rw [step]
      split <;> exact ⟨swaps, tallied.arbs⟩
  | loadPair key =>
      rw [step]
      split <;> exact ⟨swaps, tallied.arbs⟩
  | restart => exact ⟨rfl, rfl⟩

/-- A swap is credited with an opportunity at most once, and only one it came less than five
seconds before, however the threads take turns and whatever is loaded. -/
structure CreditedOnce (world : World F) : Prop where
  once : (creditedIds world).Nodup
  genuine : ∀ credit ∈ world.credits,
    Genuine world.observed credit.id credit.pool credit.collectedAt
  pools : ∀ pool, creditsOf world pool ≤ observedOf world pool
  totals : world.totalArbsCorrelated ≤
    world.totalSwaps + world.swaps.countP (fun task => decide (task.stage = .count))

theorem credited_once (events : List Event) : CreditedOnce (run step (start : World F) events) := by
  have sound := sound_run (F := F) events
  have tallied : Tallied (run step (start : World F) events) :=
    run_invariant step Tallied start events ⟨rfl, rfl⟩
      (fun pair _ held => tallied_step pair.1 pair.2 held)
  generalize run step (start : World F) events = world at sound tallied
  refine ⟨sound.once, sound.genuine, creditsOf_le world sound, ?_⟩
  have places : ∀ id ∈ creditedIds world, id ∈ List.range world.observed.length :=
    fun id member => List.mem_range.mpr (lt_of_credited world sound id member)
  have fewer := List.Nodup.length_le_of_subset sound.once places
  rw [creditedIds, List.length_map, List.length_range] at fewer
  have arbs := tallied.arbs
  have swaps := tallied.swaps
  omega

end Counts

/-! What holds of the models. -/

section Counted

variable {F : Type}

def arbsIn (models : HashMap String (PoolSwapModel F)) (pool : String) : Nat :=
  ((HashMap.get models pool).map PoolSwapModel.nArbs).getD 0

def swapsIn (models : HashMap String (PoolSwapModel F)) (pool : String) : Nat :=
  ((HashMap.get models pool).map PoolSwapModel.nSwaps).getD 0

/-- A swap that its pool's model counts and that is not yet put to wait. -/
def SwapTask.begun (task : SwapTask) (pool : String) : Bool :=
  decide (task.stage = .pending) && decide (task.call.pool = pool)

def begunOf (world : World F) (pool : String) : Nat :=
  world.swaps.countP (fun task => task.begun pool)

/-- A model counts every swap before it waits, and no opportunity before it is credited. -/
structure Counted (world : World F) : Prop where
  saved : ∀ key model, HashMap.get world.savedPools key = some model → model.nArbs ≤ model.nSwaps
  slack : ∀ pool, arbsIn world.poolModels pool + observedOf world pool + begunOf world pool ≤
    swapsIn world.poolModels pool + creditsOf world pool
  idle : world.swaps = [] → world.observed = []

theorem arbsIn_le (world : World F) (sound : Sound world) (counted : Counted world)
    (pool : String) : arbsIn world.poolModels pool ≤ swapsIn world.poolModels pool := by
  have slack := counted.slack pool
  have fewer := creditsOf_le world sound pool
  omega

theorem nArbs_le (world : World F) (sound : Sound world) (counted : Counted world) (key : String)
    (model : PoolSwapModel F) (found : HashMap.get world.poolModels key = some model) :
    model.nArbs ≤ model.nSwaps := by
  have le := arbsIn_le world sound counted key
  rw [arbsIn, swapsIn, found] at le
  exact le

variable [FloatArith F]

theorem observeSwap_counts (models : HashMap String (PoolSwapModel F))
    (pool dexType other : String) :
    arbsIn (models.insert pool
      ((HashMap.get models pool).getD (.new pool dexType)).observeSwap) other =
        arbsIn models other ∧
    swapsIn (models.insert pool
      ((HashMap.get models pool).getD (.new pool dexType)).observeSwap) other =
        swapsIn models other + (if pool = other then 1 else 0) := by
  by_cases own : other = pool
  · subst own
    rw [arbsIn, swapsIn, HashMap.get_insert, if_pos rfl, arbsIn, swapsIn]
    cases HashMap.get models other with
    | none => exact ⟨rfl, rfl⟩
    | some model => exact ⟨rfl, rfl⟩
  · rw [arbsIn, swapsIn, HashMap.get_insert_ne _ _ _ _ own, if_neg (Ne.symm own)]
    exact ⟨rfl, rfl⟩

theorem observeArb_counts (models : HashMap String (PoolSwapModel F)) (pool other : String)
    (profit : Int) (delayMs sizeBucket hour : Nat) :
    arbsIn (HashMap.modify models pool
      (fun model => model.observeArbFollowed profit delayMs sizeBucket hour)) other ≤
        arbsIn models other + (if pool = other then 1 else 0) ∧
    swapsIn (HashMap.modify models pool
      (fun model => model.observeArbFollowed profit delayMs sizeBucket hour)) other =
        swapsIn models other := by
  rw [arbsIn, swapsIn, HashMap.get_modify]
  by_cases own : other = pool
  · subst own
    rw [if_pos rfl, if_pos rfl, arbsIn, swapsIn]
    cases HashMap.get models other with
    | none => exact ⟨Nat.zero_le _, rfl⟩
    | some model => exact ⟨Nat.le_refl _, rfl⟩
  · rw [if_neg own, if_neg (Ne.symm own)]
    exact ⟨Nat.le_refl _, rfl⟩

def Event.loads : Event → Bool
  | .loadPool _ => true
  | .loadPair _ => true
  | _ => false

/-- Models are loaded before the first swap of a process. -/
def LoadsFirst (events : List Event) : Prop :=
  ∀ pair ∈ trace step (start : World F) events, pair.2.loads = true → pair.1.swaps = []

theorem counted_advanceSwap (world : World F) (place : Nat) (task : SwapTask) (now : Instant)
    (found : world.swaps[place]? = some task) (counted : Counted world) :
    Counted { (advanceSwap world task now).1 with
      swaps := world.swaps.set place (advanceSwap world task now).2 } := by
  have busy : ∀ next, world.swaps.set place next ≠ [] := by
    intro next none_
    have below := (List.getElem?_eq_some_iff.mp found).1
    rw [← List.length_set (a := next), none_] at below
    exact absurd below (Nat.not_lt_zero _)
  rcases task with ⟨call, stage⟩
  have moved := fun next pool => countP_advance world.swaps place ⟨call, stage⟩ ⟨call, next⟩
    (fun task => task.begun pool) found
  have unmoved : ∀ next, stage ≠ .pending → next ≠ .pending → ∀ pool,
      arbsIn world.poolModels pool + observedOf world pool +
        (world.swaps.set place ⟨call, next⟩).countP (fun task => task.begun pool) ≤
          swapsIn world.poolModels pool + creditsOf world pool := by
    intro next before after pool
    have same := moved next pool
    have slack := counted.slack pool
    simp only [SwapTask.begun, decide_eq_false before, decide_eq_false after, Bool.false_and,
      Bool.false_eq_true, if_false, Nat.add_zero] at same
    simp only [begunOf, SwapTask.begun] at slack ⊢
    omega
  cases stage with
  | model =>
      refine ⟨counted.saved, ?_, fun none_ => absurd none_ (busy _)⟩
      intro pool
      have slack := counted.slack pool
      have next := moved .pending pool
      rcases observeSwap_counts world.poolModels call.pool call.dexType pool with ⟨arbs, swaps⟩
      simp only [SwapTask.begun, reduceCtorEq, decide_false, Bool.false_and, decide_true,
        Bool.true_and, decide_eq_true_eq, if_false] at next
      simp only [advanceSwap, creditsOf, observedOf, begunOf, SwapTask.begun, arbs,
        swaps] at slack ⊢
      omega
  | pending =>
      refine ⟨counted.saved, ?_, fun none_ => absurd none_ (busy _)⟩
      intro pool
      have slack := counted.slack pool
      have next := moved .count pool
      have one : (world.observed ++ [(call.pool, now)]).countP
          (fun swap => decide (swap.1 = pool)) =
            observedOf world pool + (if call.pool = pool then 1 else 0) := by
        rw [List.countP_append, List.countP_singleton]
        simp [observedOf]
      simp only [SwapTask.begun, reduceCtorEq, decide_false, Bool.false_and, decide_true,
        Bool.true_and, decide_eq_true_eq, if_false] at next
      simp only [advanceSwap, creditsOf, observedOf, begunOf, SwapTask.begun] at slack one ⊢
      omega
  | count =>
      exact ⟨counted.saved, unmoved .expire (by simp) (by simp), fun none_ => absurd none_ (busy _)⟩
  | expire =>
      exact ⟨counted.saved, unmoved .done (by simp) (by simp), fun none_ => absurd none_ (busy _)⟩
  | done =>
      exact ⟨counted.saved, unmoved .done (by simp) (by simp), fun none_ => absurd none_ (busy _)⟩

theorem counted_advanceArb (world : World F) (task : ArbTask) (now : Instant)
    (counted : Counted world) : Counted (advanceArb world task now) := by
  rcases task with ⟨pools, profit, hour, rest, collectedAt, stage⟩
  cases stage with
  | collect =>
      cases rest with
      | nil => exact ⟨counted.saved, counted.slack, counted.idle⟩
      | cons pool rest => exact ⟨counted.saved, counted.slack, counted.idle⟩
  | credit pool matching =>
      cases matching with
      | nil => exact ⟨counted.saved, counted.slack, counted.idle⟩
      | cons current matching =>
          refine ⟨counted.saved, ?_, counted.idle⟩
          intro other
          have slack := counted.slack other
          have counts := observeArb_counts world.poolModels pool other profit current.delayMs
            current.sizeBucket hour
          have one : (world.credits ++ [Credit.mk current.id pool collectedAt]).countP
              (fun credit => decide (credit.pool = other)) =
                creditsOf world other + (if pool = other then 1 else 0) := by
            rw [List.countP_append, List.countP_singleton]
            simp [creditsOf]
          simp only [advanceArb, creditsOf, observedOf, begunOf] at slack counts one ⊢
          omega
  | count pool current matching => exact ⟨counted.saved, counted.slack, counted.idle⟩
  | remove pool current matching => exact ⟨counted.saved, counted.slack, counted.idle⟩

theorem counted_step (world : World F) (event : Event) (sound : Sound world)
    (counted : Counted world) (first : event.loads = true → world.swaps = []) :
    Counted (step world event) := by
  cases event with
  | swap call =>
      refine ⟨counted.saved, ?_, fun none_ => ?_⟩
      · intro pool
        have same : begunOf (step world (.swap call)) pool = begunOf world pool := by
          rw [begunOf, step, List.countP_append, List.countP_singleton]
          simp [begunOf, SwapTask.begun]
        rw [same]
        exact counted.slack pool
      · simp [step] at none_
  | advanceSwap place now =>
      rw [step]
      cases found : world.swaps[place]? with
      | none => exact counted
      | some task => exact counted_advanceSwap world place task now found counted
  | detect pools profit hour =>
      rw [step]
      split
      · exact ⟨counted.saved, counted.slack, counted.idle⟩
      · exact counted
  | advanceArb now =>
      rw [step]
      split
      · exact counted
      · exact counted_advanceArb world _ now counted
  | execute pools landed delayMs =>
      rw [step]
      split
      · exact ⟨counted.saved, counted.slack, counted.idle⟩
      · exact counted
  | savePool key =>
      rw [step]
      split
      · next model found =>
          refine ⟨?_, counted.slack, counted.idle⟩
          intro other saved held
          by_cases own : other = key
          · rw [own, HashMap.get_insert] at held
            cases held
            exact nArbs_le world sound counted key model found
          · rw [HashMap.get_insert_ne _ _ _ _ own] at held
            exact counted.saved other saved held
      · exact counted
  | savePair key =>
      rw [step]
      split
      · exact ⟨counted.saved, counted.slack, counted.idle⟩
      · exact counted
  | loadPool key =>
      rw [step]
      split
      · next model found =>
          refine ⟨counted.saved, ?_, counted.idle⟩
          intro pool
          have slack := counted.slack pool
          have none_ := first rfl
          by_cases own : pool = key
          · have row := counted.saved key model found
            have begun : begunOf world pool = 0 := by rw [begunOf, none_, List.countP_nil]
            have observed : observedOf world pool = 0 := by
              rw [observedOf, counted.idle none_, List.countP_nil]
            change arbsIn _ pool + observedOf world pool + begunOf world pool ≤
              swapsIn _ pool + creditsOf world pool
            rw [begun, observed, own, arbsIn, swapsIn, HashMap.get_insert]
            exact Nat.le_add_right_of_le row
          · change arbsIn _ pool + observedOf world pool + begunOf world pool ≤
              swapsIn _ pool + creditsOf world pool
            rw [arbsIn, swapsIn, HashMap.get_insert_ne _ _ _ _ own]
            exact slack
      · exact counted
  | loadPair key =>
      rw [step]
      split
      · exact ⟨counted.saved, counted.slack, counted.idle⟩
      · exact counted
  | restart => exact ⟨counted.saved, fun _ => Nat.le_refl 0, fun _ => rfl⟩

theorem counted_run (events : List Event) (loadsFirst : LoadsFirst (F := F) events) :
    Counted (run step (start : World F) events) := by
  have both : Sound (run step (start : World F) events) ∧
      Counted (run step (start : World F) events) := by
    apply run_invariant step (fun world => Sound world ∧ Counted world)
    · exact ⟨sound_start, by simp [start], fun _ => Nat.le_refl 0, fun _ => rfl⟩
    · intro pair member held
      exact ⟨sound_step pair.1 pair.2 held.1,
        counted_step pair.1 pair.2 held.1 held.2 (loadsFirst pair member)⟩
  exact both.2

end Counted

/-! In binary64 every rate is a share. -/

theorem unit_nought : Unit (ofNat 0) :=
  MlScorer.unit_round 0 (by norm_num) (by norm_num)

theorem unit_one : Unit (ofNat 1) :=
  MlScorer.unit_round 1 (by norm_num) (by norm_num)

theorem unit_ema (value average : Double) (share : Unit value) (held : Unit average) :
    Unit (ema value average) :=
  MlScorer.unit_mean alpha value average (by decide +kernel) (by decide +kernel)
    (by decide +kernel) share held

/-- A rate that decays stays a share. -/
theorem unit_decay (rate : Double) (held : Unit rate) :
    Unit (mul (sub (ofNat 1) alpha) rate) := by
  have factor : Unit (sub (ofNat 1) alpha) := ⟨by decide +kernel, by decide +kernel⟩
  exact MlScorer.unit_round _ (mul_nonneg factor.1 held.1)
    (mul_le_one₀ factor.2 held.1 held.2)

structure PoolSwapModel.Rated (model : PoolSwapModel Double) : Prop where
  arbRate : Unit model.arbRate
  sizes : model.sizeArbRates.length = sizeBuckets ∧ ∀ rate ∈ model.sizeArbRates, Unit rate
  hours : model.hourlyRates.length = hourBuckets ∧ ∀ rate ∈ model.hourlyRates, Unit rate

structure PairPersistenceModel.Rated (model : PairPersistenceModel Double) : Prop where
  persistence : Unit model.persistenceRate
  execution : Unit model.executionSuccessRate

theorem unit_modify (rates : List Double) (place : Nat) (held : ∀ rate ∈ rates, Unit rate) :
    ∀ rate ∈ rates.modify place (ema (ofNat 1)), Unit rate := by
  intro rate member
  rcases List.mem_iff_getElem?.mp member with ⟨index, found⟩
  simp only [List.getElem?_modify, Option.map_eq_map, Option.map_eq_some_iff] at found
  rcases found with ⟨old, there, same⟩
  have share := held old (List.mem_of_getElem? there)
  rw [← same]
  split
  · exact unit_ema _ _ unit_one share
  · exact share

theorem rated_new (pool dexType : String) :
    (PoolSwapModel.new pool dexType : PoolSwapModel Double).Rated where
  arbRate := unit_nought
  sizes := ⟨List.length_replicate, fun _ member => List.eq_of_mem_replicate member ▸ unit_nought⟩
  hours := ⟨List.length_replicate, fun _ member => List.eq_of_mem_replicate member ▸ unit_nought⟩

theorem rated_observeSwap (model : PoolSwapModel Double) (rated : model.Rated) :
    model.observeSwap.Rated :=
  { rated with arbRate := unit_decay _ rated.arbRate }

theorem rated_observeArbFollowed (model : PoolSwapModel Double) (profit : Int)
    (delayMs sizeBucket hour : Nat) (rated : model.Rated) :
    (model.observeArbFollowed profit delayMs sizeBucket hour).Rated where
  arbRate := unit_ema _ _ unit_one rated.arbRate
  sizes := ⟨by rw [PoolSwapModel.observeArbFollowed, List.length_modify, rated.sizes.1],
    unit_modify _ _ rated.sizes.2⟩
  hours := ⟨by rw [PoolSwapModel.observeArbFollowed, List.length_modify, rated.hours.1],
    unit_modify _ _ rated.hours.2⟩

theorem rated_newPair (pairKey : String) :
    (PairPersistenceModel.new pairKey : PairPersistenceModel Double).Rated :=
  ⟨MlScorer.unit_round (1 / 2) (by norm_num) (by norm_num), unit_nought⟩

theorem rated_observeExecution (model : PairPersistenceModel Double) (landed : Bool)
    (delayMs : Nat) (rated : model.Rated) : (model.observeExecution landed delayMs).Rated := by
  have outcome : ∀ result : Bool, Unit (if result then ofNat 1 else ofNat 0) := by
    intro result
    cases result with
    | true => exact unit_one
    | false => exact unit_nought
  exact ⟨unit_ema _ _ (outcome _) rated.persistence, unit_ema _ _ (outcome _) rated.execution⟩

/-- A property of every value of a map. -/
def All {V : Type} (p : V → Prop) (map : HashMap String V) : Prop :=
  ∀ key value, HashMap.get map key = some value → p value

theorem all_empty {V : Type} (p : V → Prop) : All p (HashMap.empty : HashMap String V) := by
  intro key value found
  rw [HashMap.get_empty] at found
  cases found

theorem all_insert {V : Type} (p : V → Prop) (map : HashMap String V) (key : String) (value : V)
    (held : All p map) (new : p value) : All p (map.insert key value) := by
  intro other old found
  by_cases own : other = key
  · rw [own, HashMap.get_insert] at found
    exact Option.some.inj found ▸ new
  · rw [HashMap.get_insert_ne _ _ _ _ own] at found
    exact held other old found

theorem all_modify {V : Type} (p : V → Prop) (map : HashMap String V) (key : String)
    (change : V → V) (held : All p map) (kept : ∀ value, p value → p (change value)) :
    All p (HashMap.modify map key change) := by
  intro other new found
  rw [HashMap.get_modify] at found
  split at found
  · rcases Option.map_eq_some_iff.mp found with ⟨old, there, same⟩
    exact same ▸ kept old (held key old there)
  · exact held other new found

/-- What is read from a map, or a value made for it. -/
theorem all_getD {V : Type} (p : V → Prop) (map : HashMap String V) (key : String) (default : V)
    (held : All p map) (new : p default) : p ((HashMap.get map key).getD default) := by
  cases found : HashMap.get map key with
  | none => exact new
  | some value => exact held key value found

structure Rated (world : World Double) : Prop where
  pools : All PoolSwapModel.Rated world.poolModels
  pairs : All PairPersistenceModel.Rated world.pairModels
  savedPools : All PoolSwapModel.Rated world.savedPools
  savedPairs : All PairPersistenceModel.Rated world.savedPairs

theorem rated_advanceArb (world : World Double) (task : ArbTask) (now : Instant)
    (rated : Rated world) : Rated (advanceArb world task now) := by
  rcases task with ⟨pools, profit, hour, rest, collectedAt, stage⟩
  cases stage with
  | collect =>
      cases rest with
      | nil =>
          refine { rated with pairs := ?_ }
          change All _ (observePair world.pairModels pools)
          rw [observePair]
          split
          · next key _ =>
              have before := all_getD _ world.pairModels key (.new key) rated.pairs
                (rated_newPair key)
              exact all_insert _ _ _ _ rated.pairs ⟨before.persistence, before.execution⟩
          · exact rated.pairs
      | cons pool rest => exact { rated with }
  | credit pool matching =>
      cases matching with
      | nil => exact { rated with }
      | cons current matching =>
          exact { rated with
            pools := all_modify _ _ _ _ rated.pools
              (fun model held => rated_observeArbFollowed model _ _ _ _ held) }
  | count pool current matching => exact { rated with }
  | remove pool current matching => exact { rated with }

theorem rated_step (world : World Double) (event : Event) (rated : Rated world) :
    Rated (step world event) := by
  cases event with
  | swap call => exact { rated with }
  | advanceSwap place now =>
      rw [step]
      cases world.swaps[place]? with
      | none => exact rated
      | some task =>
          rcases task with ⟨call, stage⟩
          cases stage with
          | model =>
              have before := all_getD _ world.poolModels call.pool (.new call.pool call.dexType)
                rated.pools (rated_new _ _)
              exact { rated with
                pools := all_insert _ _ _ _ rated.pools (rated_observeSwap _ before) }
          | pending => exact { rated with }
          | count => exact { rated with }
          | expire => exact { rated with }
          | done => exact { rated with }
  | detect pools profit hour =>
      rw [step]
      split <;> exact { rated with }
  | advanceArb now =>
      rw [step]
      split
      · exact rated
      · exact rated_advanceArb world _ now rated
  | execute pools landed delayMs =>
      rw [step]
      split
      · exact { rated with
          pairs := all_modify _ _ _ _ rated.pairs
            (fun model held => rated_observeExecution model _ _ held) }
      · exact rated
  | savePool key =>
      rw [step]
      split
      · next model found =>
          exact { rated with
            savedPools := all_insert _ _ _ _ rated.savedPools (rated.pools key model found) }
      · exact rated
  | savePair key =>
      rw [step]
      split
      · next model found =>
          exact { rated with
            savedPairs := all_insert _ _ _ _ rated.savedPairs (rated.pairs key model found) }
      · exact rated
  | loadPool key =>
      rw [step]
      split
      · next model found =>
          exact { rated with
            pools := all_insert _ _ _ _ rated.pools (rated.savedPools key model found) }
      · exact rated
  | loadPair key =>
      rw [step]
      split
      · next model found =>
          exact { rated with
            pairs := all_insert _ _ _ _ rated.pairs (rated.savedPairs key model found) }
      · exact rated
  | restart =>
      exact ⟨all_empty _, all_empty _, rated.savedPools, rated.savedPairs⟩

/-- Over any number of processes, what they keep and what they save: every rate of a model is
a share, and if each process loads its models before its first swap no model counts more
opportunities than swaps. -/
theorem models_wellFormed (events : List Event) :
    Rated (run step start events) ∧
      (LoadsFirst (F := Double) events →
        All (fun model => model.nArbs ≤ model.nSwaps)
          (run step (start : World Double) events).poolModels ∧
        All (fun model => model.nArbs ≤ model.nSwaps)
          (run step (start : World Double) events).savedPools) := by
  constructor
  · apply run_invariant step Rated
    · exact ⟨all_empty _, all_empty _, all_empty _, all_empty _⟩
    · intro pair _ rated
      exact rated_step pair.1 pair.2 rated
  · intro loadsFirst
    have counted := counted_run events loadsFirst
    exact ⟨nArbs_le _ (sound_run events) counted, counted.saved⟩

/-- A model that one process saved and the next one loaded. -/
def twoProcesses : List Event :=
  [.swap ⟨"pool", "Raydium", 5000000, 7⟩, .advanceSwap 0 1, .savePool "pool", .restart,
    .loadPool "pool", .swap ⟨"pool", "Raydium", 9000000, 8⟩, .advanceSwap 0 2, .advanceSwap 0 2,
    .detect ["pool", "other"] 60000 13, .advanceArb 3, .advanceArb 3]

theorem models_wellFormed_twoProcesses :
    All (fun model => model.nArbs ≤ model.nSwaps)
      (run step (start : World Double) twoProcesses).poolModels ∧
    (HashMap.get (run step (start : World Double) twoProcesses).poolModels "pool").map
      (fun model => (model.nSwaps, model.nArbs)) = some (2, 1) := by
  refine ⟨((models_wellFormed twoProcesses).2 ?_).1, by decide +kernel⟩
  have checked : (trace step (start : World Double) twoProcesses).all
      (fun pair => !pair.2.loads || pair.1.swaps.isEmpty) = true := by decide +kernel
  intro pair member loads
  have held := List.all_eq_true.mp checked pair member
  rw [loads, Bool.not_true, Bool.false_or, List.isEmpty_iff] at held
  exact held

end Helios.ShredPredictor
