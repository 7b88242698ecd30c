import Helios.FloatOrder
import Helios.StrategyLogger

/-! The scorer that learns from results: its models of pools and strategies, how they are
loaded from the table of results, and how observations change them. Observations come from
several threads, and the baseline over all of them is read and stored in two steps. -/

namespace Helios.MlScorer

open Machine Runs FloatArith StrategyLogger

def hourBuckets : Nat := 24
def minSamples : Nat := 5

section Models

variable (F : Type)

structure PoolModel where
  pool : String
  dexType : String
  successRate : F
  avgProfit : F
  nSamples : Nat
  nLanded : Nat
  competition : F
  /-- Successes and attempts of each hour. -/
  hourlyStats : List (Nat × Nat)
  lastSuccessEpoch : Option Int

structure StrategyModel where
  strategy : String
  successRate : F
  avgProfit : F
  nSamples : Nat
  nLanded : Nat

structure Scorer where
  pools : HashMap String (PoolModel F)
  strategies : HashMap String (StrategyModel F)
  globalSuccessRate : F
  totalObservations : Nat

end Models

section Step

variable {F : Type} [FloatArith F]

def emaAlpha : F := ofRat (1 / 10)

/-- The moving average after one more value. -/
def ema (value average : F) : F :=
  add (mul emaAlpha value) (mul (sub (ofNat 1) emaAlpha) average)

def outcome (landed : Bool) : F := if landed then ofNat 1 else ofNat 0

def PoolModel.new (pool dexType : String) : PoolModel F :=
  ⟨pool, dexType, ofRat (1 / 2), ofNat 0, 0, 0, ofNat 0, List.replicate hourBuckets (0, 0), none⟩

def countHour (landed : Bool) (stats : Nat × Nat) : Nat × Nat :=
  (if landed then stats.1 + 1 else stats.1, stats.2 + 1)

def PoolModel.observe (model : PoolModel F) (landed : Bool) (profit : Int) (hour : Nat)
    (now : Int) : PoolModel F :=
  { model with
    nSamples := model.nSamples + 1
    successRate := ema (outcome landed) model.successRate
    nLanded := if landed then model.nLanded + 1 else model.nLanded
    avgProfit := if landed then ema (ofInt profit) model.avgProfit else model.avgProfit
    lastSuccessEpoch := if landed then some now else model.lastSuccessEpoch
    competition := ema (outcome (!landed)) model.competition
    hourlyStats := model.hourlyStats.modify (hour % hourBuckets) (countHour landed) }

def StrategyModel.new (strategy : String) : StrategyModel F :=
  ⟨strategy, ofRat (1 / 2), ofNat 0, 0, 0⟩

def StrategyModel.observe (model : StrategyModel F) (landed : Bool) (profit : Int) :
    StrategyModel F :=
  { model with
    nSamples := model.nSamples + 1
    successRate := ema (outcome landed) model.successRate
    nLanded := if landed then model.nLanded + 1 else model.nLanded
    avgProfit := if landed then ema (ofInt profit) model.avgProfit else model.avgProfit }

def Scorer.new : Scorer F := ⟨HashMap.empty, HashMap.empty, ofRat (1 / 2), 0⟩

/-- The model made from one row of the table; the last success is a column of its own. -/
def modelOfRow (pool : String) (row : PoolPerformance) (lastSuccess : Option Int) :
    PoolModel F :=
  let successRate : F :=
    if 0 < row.totalOpps then div (ofInt row.totalLanded) (ofInt row.totalOpps)
    else ofRat (1 / 2)
  { pool := pool
    dexType := row.dexType
    successRate := successRate
    avgProfit :=
      if 0 < row.totalLanded then div (ofInt row.totalProfit) (ofInt row.totalLanded)
      else ofNat 0
    nSamples := (row.totalOpps % 2 ^ 64).toNat
    nLanded := (row.totalLanded % 2 ^ 64).toNat
    competition := sub (ofNat 1) successRate
    hourlyStats := List.replicate hourBuckets (0, 0)
    lastSuccessEpoch := lastSuccess }

/-- `load_from_pg`, over the rows of the table. -/
def Scorer.load (scorer : Scorer F) (database : Database) (lastSuccess : String → Option Int) :
    Scorer F :=
  let rows := database.entries.filter (fun entry => decide (1 ≤ entry.2.totalSent))
  { scorer with
    pools := rows.foldl (fun pools entry =>
      pools.insert entry.1 (modelOfRow entry.1 entry.2 (lastSuccess entry.1))) scorer.pools }

/-! One observation in five steps, each of which is done at once. -/

structure Observation where
  poolKey : String
  dexType : String
  strategy : String
  landed : Bool
  profit : Int
  hour : Nat

/-- What an observation has still to do first. -/
inductive Stage (F : Type) where
  | pool
  | strategy
  | count
  | load (first : Bool)
  | store (rate : F)
  | done

structure Task (F : Type) where
  observation : Observation
  stage : Stage F

structure World (F : Type) where
  scorer : Scorer F
  tasks : List (Task F)

inductive Event where
  | observe (observation : Observation)
  | advance (place : Nat) (now : Int)

def observePool (pools : HashMap String (PoolModel F)) (seen : Observation) (now : Int) :
    HashMap String (PoolModel F) :=
  let model := (HashMap.get pools seen.poolKey).getD (.new seen.poolKey seen.dexType)
  pools.insert seen.poolKey (model.observe seen.landed seen.profit seen.hour now)

def observeStrategy (strategies : HashMap String (StrategyModel F)) (seen : Observation) :
    HashMap String (StrategyModel F) :=
  let model := (HashMap.get strategies seen.strategy).getD (.new seen.strategy)
  strategies.insert seen.strategy (model.observe seen.landed seen.profit)

/-- The next step of one observation. -/
def advance (scorer : Scorer F) (task : Task F) (now : Int) : Scorer F × Task F :=
  match task.stage with
  | .pool =>
      ({ scorer with pools := observePool scorer.pools task.observation now },
        { task with stage := .strategy })
  | .strategy =>
      ({ scorer with strategies := observeStrategy scorer.strategies task.observation },
        { task with stage := .count })
  | .count =>
      ({ scorer with totalObservations := wrap 64 (scorer.totalObservations + 1) },
        { task with stage := .load (decide (scorer.totalObservations = 0)) })
  | .load first =>
      let rate :=
        if first then outcome task.observation.landed
        else ema (outcome task.observation.landed) scorer.globalSuccessRate
      (scorer, { task with stage := .store rate })
  | .store rate => ({ scorer with globalSuccessRate := rate }, { task with stage := .done })
  | .done => (scorer, task)

def step (world : World F) : Event → World F
  | .observe observation => { world with tasks := world.tasks ++ [⟨observation, .pool⟩] }
  | .advance place now =>
      match world.tasks[place]? with
      | none => world
      | some task =>
          let (scorer, next) := advance world.scorer task now
          ⟨scorer, world.tasks.set place next⟩

end Step

/-! What holds of every model, in binary64. -/

def Unit (x : Double) : Prop := 0 ≤ x.value ∧ x.value ≤ 1

theorem unit_round (q : ℚ) (nonneg : 0 ≤ q) (le : q ≤ 1) : Unit (Double.round q) :=
  ⟨Double.round_nonneg q nonneg, Double.round_le_one q nonneg le⟩

theorem unit_outcome (landed : Bool) : Unit (outcome landed) := by
  cases landed with
  | true => exact unit_round 1 (by norm_num) (by norm_num)
  | false => exact unit_round 0 (by norm_num) (by norm_num)

/-- A mean of shares is a share, if its weights come to no more than one when rounded. -/
theorem unit_mean (alpha value average : Double) (first : 0 ≤ alpha.value)
    (second : 0 ≤ (sub (ofNat 1) alpha : Double).value)
    (whole : (add (mul alpha (ofNat 1)) (mul (sub (ofNat 1) alpha) (ofNat 1)) : Double).value ≤ 1)
    (share : Unit value) (held : Unit average) :
    Unit (add (mul alpha value) (mul (sub (ofNat 1) alpha) average)) := by
  have one : (ofNat 1 : Double).value = 1 := Double.round_one
  have mean := Double.mean_within alpha (ofNat 1) value average first second
    (whole.trans_eq one.symm) share.1 (share.2.trans_eq one.symm) held.1
    (held.2.trans_eq one.symm)
  exact ⟨mean.1, mean.2.trans_eq one⟩

/-- A moving average of shares is a share. -/
theorem unit_ema (value average : Double) (share : Unit value) (held : Unit average) :
    Unit (ema value average) :=
  unit_mean emaAlpha value average (by decide +kernel) (by decide +kernel) (by decide +kernel)
    share held

/-- What can be relied on of a pool's model. -/
structure PoolModel.WellFormed (model : PoolModel Double) : Prop where
  rate : Unit model.successRate
  competition : Unit model.competition
  landed : model.nLanded ≤ model.nSamples
  hours : model.hourlyStats.length = hourBuckets
  successes : ∀ stats ∈ model.hourlyStats, stats.1 ≤ stats.2
  attempts : (model.hourlyStats.map Prod.snd).sum ≤ model.nSamples
  wins : (model.hourlyStats.map Prod.fst).sum ≤ model.nLanded

structure StrategyModel.WellFormed (model : StrategyModel Double) : Prop where
  rate : Unit model.successRate
  landed : model.nLanded ≤ model.nSamples

theorem wellFormed_new (pool dexType : String) :
    (PoolModel.new pool dexType : PoolModel Double).WellFormed where
  rate := unit_round (1 / 2) (by norm_num) (by norm_num)
  competition := unit_round 0 (by norm_num) (by norm_num)
  landed := le_refl 0
  hours := List.length_replicate
  successes := by simp [PoolModel.new]
  attempts := by simp [PoolModel.new]
  wins := by simp [PoolModel.new]

theorem strategy_wellFormed_new (strategy : String) :
    (StrategyModel.new strategy : StrategyModel Double).WellFormed where
  rate := unit_round (1 / 2) (by norm_num) (by norm_num)
  landed := le_refl 0

/-- Counting one hour adds to one place. -/
theorem sum_modify (stats : List (Nat × Nat)) (place : Nat) (landed : Bool) :
    ((stats.modify place (countHour landed)).map Prod.snd).sum ≤ (stats.map Prod.snd).sum + 1 ∧
      ((stats.modify place (countHour landed)).map Prod.fst).sum ≤
        (stats.map Prod.fst).sum + (if landed then 1 else 0) := by
  induction stats generalizing place with
  | nil => simp
  | cons first rest ih =>
      cases place with
      | zero => cases landed <;> simp [countHour] <;> omega
      | succ place =>
          have later := ih place
          simp only [List.modify_succ_cons, List.map_cons, List.sum_cons]
          omega

theorem wellFormed_observe (model : PoolModel Double) (landed : Bool) (profit : Int)
    (hour : Nat) (now : Int) (formed : model.WellFormed) :
    (model.observe landed profit hour now).WellFormed := by
  rcases sum_modify model.hourlyStats (hour % hourBuckets) landed with ⟨attempts, wins⟩
  have before := formed.attempts
  have beforeWins := formed.wins
  have fewer := formed.landed
  exact {
    rate := unit_ema _ _ (unit_outcome landed) formed.rate
    competition := unit_ema _ _ (unit_outcome (!landed)) formed.competition
    landed := by
      cases landed with
      | true => exact Nat.succ_le_succ fewer
      | false => exact Nat.le_succ_of_le fewer
    hours := by simp [PoolModel.observe, formed.hours]
    successes := by
      intro stats member
      rcases List.mem_iff_getElem?.mp member with ⟨place, found⟩
      simp only [PoolModel.observe, List.getElem?_modify, Option.map_eq_map,
        Option.map_eq_some_iff] at found
      rcases found with ⟨old, held, same⟩
      have ordered := formed.successes old (List.mem_of_getElem? held)
      rw [← same]
      split
      · cases landed with
        | true => exact Nat.succ_le_succ ordered
        | false => exact Nat.le_succ_of_le ordered
      · exact ordered
    attempts := attempts.trans (Nat.succ_le_succ before)
    wins := by
      cases landed with
      | true => exact wins.trans (Nat.succ_le_succ beforeWins)
      | false => exact wins.trans beforeWins }

theorem strategy_wellFormed_observe (model : StrategyModel Double) (landed : Bool)
    (profit : Int) (formed : model.WellFormed) : (model.observe landed profit).WellFormed where
  rate := unit_ema _ _ (unit_outcome landed) formed.rate
  landed := by
    cases landed with
    | true => exact Nat.succ_le_succ formed.landed
    | false => exact Nat.le_succ_of_le formed.landed

/-! Models loaded from the table. -/

/-- The share of two counts, each rounded, is a share. -/
theorem unit_div (part whole : Int) (nonneg : 0 ≤ part) (le : part ≤ whole)
    (positive : 0 < whole) : Unit (div (ofInt part) (ofInt whole) : Double) := by
  have casted : (0 : ℚ) ≤ (part : ℚ) := Int.cast_nonneg nonneg
  have below : (Double.round (part : ℚ)).value ≤ (Double.round (whole : ℚ)).value :=
    Double.round_mono _ _ casted (Int.cast_le.mpr le)
  have above : 0 < (Double.round (whole : ℚ)).value :=
    Double.round_pos _ (Int.cast_pos.mpr positive)
  exact unit_round _ (div_nonneg (Double.round_nonneg _ casted) above.le)
    ((div_le_one above).mpr below)

theorem wellFormed_modelOfRow (pool : String) (row : PoolPerformance)
    (lastSuccess : Option Int) (fits : row.inRange = true) (opps : 0 < row.totalOpps)
    (landed : 0 ≤ row.totalLanded) (fewer : row.totalLanded ≤ row.totalOpps) :
    (modelOfRow pool row lastSuccess : PoolModel Double).WellFormed := by
  have rate : Unit (modelOfRow pool row lastSuccess : PoolModel Double).successRate := by
    simp only [modelOfRow, if_pos opps]
    exact unit_div _ _ landed fewer opps
  have one : (ofNat 1 : Double).value = 1 := Double.round_one
  simp only [PoolPerformance.inRange, Bool.and_eq_true, isBigint, decide_eq_true_eq] at fits
  exact {
    rate := rate
    competition := by
      apply unit_round
      · rw [one]
        exact sub_nonneg.mpr rate.2
      · rw [one]
        exact sub_le_self 1 rate.1
    landed := by
      simp only [modelOfRow]
      omega
    hours := List.length_replicate
    successes := by simp [modelOfRow]
    attempts := by simp [modelOfRow]
    wins := by simp [modelOfRow] }

theorem rowOf_counts (updates : List LogPoolPerfUpdate) (row : PoolPerformance)
    (found : rowOf updates = some row) :
    0 < row.totalOpps ∧ 0 ≤ row.totalLanded ∧ row.totalLanded ≤ row.totalOpps := by
  cases updates with
  | nil => cases found
  | cons first rest =>
      simp only [rowOf, Option.some.injEq] at found
      have fewer := List.length_filter_le LogPoolPerfUpdate.landed (first :: rest)
      rw [← found]
      simp only [List.length_cons] at fewer ⊢
      omega

/-- What holds of the scorer and of the rates its observers are about to store. -/
structure WellFormed (world : World Double) : Prop where
  pools : ∀ key model, HashMap.get world.scorer.pools key = some model → model.WellFormed
  strategies : ∀ key model, HashMap.get world.scorer.strategies key = some model →
    model.WellFormed
  baseline : Unit world.scorer.globalSuccessRate
  stored : ∀ task ∈ world.tasks, ∀ rate, task.stage = .store rate → Unit rate

/-- What was put into a map one entry after the other comes from an entry or was there. -/
theorem get_load (entries : List (Sigma (fun _ : String => PoolPerformance)))
    (lastSuccess : String → Option Int) (pools : HashMap String (PoolModel Double))
    (key : String) (model : PoolModel Double)
    (found : HashMap.get (entries.foldl (fun pools entry =>
      pools.insert entry.1 (modelOfRow entry.1 entry.2 (lastSuccess entry.1))) pools) key =
        some model) :
    HashMap.get pools key = some model ∨
      ∃ entry ∈ entries, model = modelOfRow entry.1 entry.2 (lastSuccess entry.1) := by
  induction entries generalizing pools with
  | nil => exact Or.inl found
  | cons entry rest ih =>
      rcases ih _ found with before | ⟨other, member, same⟩
      · by_cases own : key = entry.1
        · rw [own, HashMap.get_insert] at before
          exact Or.inr ⟨entry, List.mem_cons_self, (Option.some.inj before).symm⟩
        · rw [HashMap.get_insert_ne _ _ _ _ own] at before
          exact Or.inl before
      · exact Or.inr ⟨other, List.mem_cons_of_mem _ member, same⟩

/-- A scorer loaded from a table that any logger run left. -/
theorem wellFormed_load (logged : List StrategyLogger.Event)
    (lastSuccess : String → Option Int) :
    WellFormed ⟨(Scorer.new : Scorer Double).load
      (run StrategyLogger.step (start HashMap.empty) logged).database lastSuccess, []⟩ := by
  have recorded := recorded_run logged
  refine ⟨?_, ?_, unit_round (1 / 2) (by norm_num) (by norm_num), by simp⟩
  · intro key model found
    rcases get_load _ lastSuccess _ key model found with empty | ⟨entry, member, rfl⟩
    · rw [Scorer.new, HashMap.get_empty] at empty
      cases empty
    · have held : HashMap.get (run StrategyLogger.step (start HashMap.empty) logged).database
          entry.1 = some entry.2 := AList.mem_lookup_iff.mpr (List.mem_of_mem_filter member)
      have row := held
      rw [recorded.rows entry.1] at row
      rcases rowOf_counts _ _ row with ⟨opps, landed, fewer⟩
      exact wellFormed_modelOfRow _ _ _ (recorded.fits _ _ held) opps landed fewer
  · intro key model found
    rw [Scorer.load, Scorer.new, HashMap.get_empty] at found
    cases found

theorem observePool_wellFormed (pools : HashMap String (PoolModel Double)) (seen : Observation)
    (now : Int) (formed : ∀ key model, HashMap.get pools key = some model → model.WellFormed)
    (key : String) (model : PoolModel Double)
    (found : HashMap.get (observePool pools seen now) key = some model) : model.WellFormed := by
  rw [observePool] at found
  by_cases own : key = seen.poolKey
  · rw [own, HashMap.get_insert] at found
    cases found
    apply wellFormed_observe
    cases held : HashMap.get pools seen.poolKey with
    | none => exact wellFormed_new _ _
    | some before => exact formed _ before held
  · rw [HashMap.get_insert_ne _ _ _ _ own] at found
    exact formed key model found

theorem observeStrategy_wellFormed (strategies : HashMap String (StrategyModel Double))
    (seen : Observation)
    (formed : ∀ key model, HashMap.get strategies key = some model → model.WellFormed)
    (key : String) (model : StrategyModel Double)
    (found : HashMap.get (observeStrategy strategies seen) key = some model) :
    model.WellFormed := by
  rw [observeStrategy] at found
  by_cases own : key = seen.strategy
  · rw [own, HashMap.get_insert] at found
    cases found
    apply strategy_wellFormed_observe
    cases held : HashMap.get strategies seen.strategy with
    | none => exact strategy_wellFormed_new _
    | some before => exact formed _ before held
  · rw [HashMap.get_insert_ne _ _ _ _ own] at found
    exact formed key model found

theorem wellFormed_step (world : World Double) (event : Event) (formed : WellFormed world) :
    WellFormed (step world event) := by
  cases event with
  | observe observation =>
      refine { formed with stored := ?_ }
      intro task member rate stage
      rcases List.mem_append.mp member with old | new
      · exact formed.stored task old rate stage
      · rw [List.mem_singleton.mp new] at stage
        cases stage
  | advance place now =>
      rw [step]
      cases found : world.tasks[place]? with
      | none => exact formed
      | some task =>
          have member := List.mem_of_getElem? found
          have others : ∀ next : Task Double,
              (∀ rate, next.stage = .store rate → Unit rate) →
                ∀ other ∈ world.tasks.set place next, ∀ rate, other.stage = .store rate →
                  Unit rate := by
            intro next fits other inside rate stage
            rcases List.mem_or_eq_of_mem_set inside with old | same
            · exact formed.stored other old rate stage
            · exact fits rate (same ▸ stage)
          dsimp only
          cases stage : task.stage with
          | pool =>
              simp only [advance, stage]
              exact {
                pools := observePool_wellFormed _ _ _ formed.pools
                strategies := formed.strategies
                baseline := formed.baseline
                stored := others _ (fun rate wrong => by cases wrong) }
          | strategy =>
              simp only [advance, stage]
              exact {
                pools := formed.pools
                strategies := observeStrategy_wellFormed _ _ formed.strategies
                baseline := formed.baseline
                stored := others _ (fun rate wrong => by cases wrong) }
          | count =>
              simp only [advance, stage]
              exact { formed with stored := others _ (fun rate wrong => by cases wrong) }
          | load first =>
              simp only [advance, stage]
              refine { formed with stored := others _ ?_ }
              intro rate same
              cases same
              cases first with
              | true => exact unit_outcome _
              | false => exact unit_ema _ _ (unit_outcome _) formed.baseline
          | store rate =>
              simp only [advance, stage]
              exact {
                pools := formed.pools
                strategies := formed.strategies
                baseline := formed.stored task member rate stage
                stored := others _ (fun other wrong => by cases wrong) }
          | done =>
              simp only [advance, stage]
              exact { formed with stored := others task (fun rate same => by
                rw [stage] at same
                cases same) }

/-- A scorer loaded from what any run of the logger wrote stays well formed under any
observations in any interleaving: in binary64 its rates are between nought and one, and its
counts agree. -/
theorem scorer_wellFormed (logged : List StrategyLogger.Event)
    (lastSuccess : String → Option Int) (events : List Event) :
    WellFormed (run step ⟨(Scorer.new : Scorer Double).load
      (run StrategyLogger.step (start HashMap.empty) logged).database lastSuccess, []⟩ events) := by
  apply run_invariant step WellFormed
  · exact wellFormed_load logged lastSuccess
  · intro pair _ formed
    exact wellFormed_step pair.1 pair.2 formed

end Helios.MlScorer
