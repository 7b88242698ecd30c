import Helios.FloatOrder
import Helios.HashMap
import Helios.Runs

/-! The engine that decides which routes are worth sending. Results are recorded by several
threads, each in steps of its own, and an evaluation reads the tables one after the other while
results come in. -/

namespace Helios.DecisionEngine

open Runs FloatArith

section Tables

variable (F : Type)

structure RouteCompetition where
  attempts : Nat
  landed : Nat
  requoteFails : Nat
  avgDetectionMs : F

/-- `observe_result`'s arguments. -/
structure Observation where
  routeKey : String
  dexCombo : String
  estimated : Int
  actual : Int
  landed : Bool
  detectionMs : F

/-- `evaluate`'s arguments. -/
structure Query where
  routeKey : String
  dexCombo : String
  estimatedProfit : Int
  detectionMs : F
  hour : Nat
  nHops : Nat
  reserveFresh : Bool
  jitoP75 : Nat

structure Decision where
  query : Query F
  realProfit : Int
  tip : Nat
  pLand : F

end Tables

inductive CompetitionLevel where
  | blacklist
  | high
  | normal
  | low
  deriving DecidableEq

/-- What is left to do of one result. -/
inductive ResultStage (F : Type) where
  | competition
  | route
  | dexCombo
  | loadGlobal
  | storeGlobal (ratio : F)
  | done

/-- What an evaluation reads next, with the multiplier of the route once it is known. -/
inductive EvaluateStage (F : Type) where
  | competition
  | route (comp : F)
  | dexCombo (comp : F)
  | global (comp : F)
  | done

structure ResultTask (F : Type) where
  observation : Observation F
  stage : ResultStage F

structure EvaluateTask (F : Type) where
  query : Query F
  stage : EvaluateStage F

/-- The last two fields are histories: the results in the table of routes, and the decisions
to send. -/
structure World (F : Type) where
  routes : HashMap String (RouteCompetition F)
  routeRatios : HashMap String F
  dexComboRatios : HashMap String (F × Nat)
  globalRatio : F
  results : List (ResultTask F)
  evaluations : List (EvaluateTask F)
  recorded : List (Observation F)
  sent : List (Decision F)

inductive Event (F : Type) where
  | observeResult (observation : Observation F)
  | evaluate (query : Query F)
  | advanceResult (place : Nat)
  | advanceEvaluation (place : Nat)

section Decide

variable {F : Type} [FloatArith F]

/-- `as i64`: truncates and saturates. -/
def toI64 (x : F) : Int :=
  if lt x (ofNat 0) then -((Nat.min (toNat (sub (ofNat 0) x)) (2 ^ 63) : Nat) : Int)
  else ((Nat.min (toNat x) (2 ^ 63 - 1) : Nat) : Int)

def RouteCompetition.new (detectionMs : F) : RouteCompetition F := ⟨0, 0, 0, detectionMs⟩

def RouteCompetition.observe (entry : RouteCompetition F) (landed requoteFailed : Bool)
    (detectionMs : F) : RouteCompetition F where
  attempts := entry.attempts + 1
  avgDetectionMs :=
    add (mul (ofRat (1 / 10)) detectionMs) (mul (ofRat (9 / 10)) entry.avgDetectionMs)
  landed := if landed then entry.landed + 1 else entry.landed
  requoteFails := if requoteFailed then entry.requoteFails + 1 else entry.requoteFails

def RouteCompetition.classify (entry : RouteCompetition F) : CompetitionLevel :=
  let rate : F :=
    if 0 < entry.attempts then div (ofNat entry.landed) (ofNat entry.attempts)
    else ofRat (1 / 2)
  if 20 < entry.attempts ∧ entry.landed = 0 then .blacklist
  else if 50 < entry.requoteFails ∧ entry.landed = 0 then .blacklist
  else if lt (ofNat 200) entry.avgDetectionMs ∧ 10 < entry.attempts ∧ entry.landed = 0 then
    .blacklist
  else if 10 < entry.attempts ∧ lt rate (ofRat (5 / 100)) then .high
  else if lt (ofRat (1 / 10)) rate ∧ 5 < entry.attempts then .low
  else .normal

def classify (routes : HashMap String (RouteCompetition F)) (routeKey : String) :
    CompetitionLevel :=
  match HashMap.get routes routeKey with
  | none => .normal
  | some entry => entry.classify

def scoreMultiplier : CompetitionLevel → F
  | .blacklist => ofNat 0
  | .high => ofRat (1 / 2)
  | .normal => ofNat 1
  | .low => ofRat (3 / 2)

def alpha : F := ofRat (15 / 100)

def ema (ratio old : F) : F := add (mul alpha ratio) (mul (sub (ofNat 1) alpha) old)

/-- The real profit as a share of the estimate, between nought and two. -/
def observedRatio (estimated actual : Int) : F :=
  min (max (div (ofInt actual) (ofInt estimated)) (ofNat 0)) (ofNat 2)

def recommendTip (profit : Int) (competition : F) (hour jitoP75 : Nat) : Nat :=
  let profit := profit.toNat
  let basePct : F :=
    if 5000000 < profit then ofNat 30 else if 500000 < profit then ofNat 20 else ofNat 15
  let compMult : F :=
    if lt (ofRat (8 / 10)) competition then ofRat (3 / 2)
    else if lt (ofRat (1 / 2)) competition then ofRat (12 / 10)
    else ofNat 1
  let hourMult : F :=
    if hour = 13 ∨ hour = 14 then ofRat (13 / 10)
    else if 12 ≤ hour ∧ hour ≤ 15 then ofRat (11 / 10)
    else ofNat 1
  let tip := toU64 (mul (mul (div (mul (ofNat profit) basePct) (ofNat 100)) compMult) hourMult)
  Nat.min (Nat.max tip jitoP75) 2000000

/-- `LandingModel::predict` with the weights it is made with, which are never changed. -/
def predictLanding (exp : F → F) (detectionMs profit competition : F) (hour nHops : Nat)
    (reserveFresh : Bool) : F :=
  let weights : List F := [ofInt (-1), ofRat (-5 / 1000), ofRat (1 / 10000), ofInt (-2),
    ofRat (1 / 2), ofRat (-3 / 10), ofRat (8 / 10)]
  let features : List F := [ofNat 1, detectionMs, div profit (ofNat 100000), competition,
    if hour = 13 ∨ hour = 14 then ofNat 1 else ofNat 0, ofNat nHops,
    if reserveFresh then ofNat 1 else ofNat 0]
  let z := (List.zipWith mul weights features).foldl add (ofNat 0)
  div (ofNat 1) (add (ofNat 1) (exp (sub (ofNat 0) z)))

/-- The rest of `evaluate` once the ratio has been read. -/
def decideSend (exp : F → F) (query : Query F) (comp ratio : F) : Option (Decision F) :=
  let realProfit := toI64 (mul (ofInt query.estimatedProfit) ratio)
  if realProfit < 10000 then none
  else
    let competitionScore := sub (ofNat 1) comp
    let tip := recommendTip realProfit competitionScore query.hour query.jitoP75
    let pLand := predictLanding exp query.detectionMs (ofInt realProfit) competitionScore
      query.hour query.nHops query.reserveFresh
    if lt (mul pLand (sub (ofInt realProfit) (ofNat tip))) (ofNat 5000) then none
    else some ⟨query, realProfit, tip, pLand⟩

def observeRoute (routes : HashMap String (RouteCompetition F)) (seen : Observation F) :
    HashMap String (RouteCompetition F) :=
  let entry := (HashMap.get routes seen.routeKey).getD (.new seen.detectionMs)
  routes.insert seen.routeKey
    (entry.observe seen.landed (decide (seen.actual ≤ 0)) seen.detectionMs)

def observeRatio (ratios : HashMap String F) (key : String) (ratio : F) : HashMap String F :=
  match HashMap.get ratios key with
  | some old => ratios.insert key (ema ratio old)
  | none => ratios.insert key ratio

def observeCombo (ratios : HashMap String (F × Nat)) (key : String) (ratio : F) :
    HashMap String (F × Nat) :=
  match HashMap.get ratios key with
  | some old => ratios.insert key (ema ratio old.1, old.2 + 1)
  | none => ratios.insert key (ratio, 1)

/-- The next step of a result. -/
def advanceResult (world : World F) (task : ResultTask F) : World F × ResultTask F :=
  let seen := task.observation
  let ratio : F := observedRatio seen.estimated seen.actual
  match task.stage with
  | .competition =>
      ({ world with
          routes := observeRoute world.routes seen
          recorded := world.recorded ++ [seen] },
        { task with stage := if seen.estimated ≤ 0 then .done else .route })
  | .route =>
      ({ world with routeRatios := observeRatio world.routeRatios seen.routeKey ratio },
        { task with stage := .dexCombo })
  | .dexCombo =>
      ({ world with dexComboRatios := observeCombo world.dexComboRatios seen.dexCombo ratio },
        { task with stage := .loadGlobal })
  | .loadGlobal => (world, { task with stage := .storeGlobal (ema ratio world.globalRatio) })
  | .storeGlobal ratio => ({ world with globalRatio := ratio }, { task with stage := .done })
  | .done => (world, task)

/-- The next step of an evaluation, with the decision if it ends with one. -/
def advanceEvaluation (exp : F → F) (world : World F) (task : EvaluateTask F) :
    EvaluateTask F × Option (Decision F) :=
  let query := task.query
  match task.stage with
  | .competition =>
      match classify world.routes query.routeKey with
      -- the only level whose multiplier is nought
      | .blacklist => ({ task with stage := .done }, none)
      | level => ({ task with stage := .route (scoreMultiplier level) }, none)
  | .route comp =>
      match HashMap.get world.routeRatios query.routeKey with
      | some ratio => ({ task with stage := .done }, decideSend exp query comp ratio)
      | none => ({ task with stage := .dexCombo comp }, none)
  | .dexCombo comp =>
      match HashMap.get world.dexComboRatios query.dexCombo with
      | some (ratio, n) =>
          if 5 ≤ n then ({ task with stage := .done }, decideSend exp query comp ratio)
          else ({ task with stage := .global comp }, none)
      | none => ({ task with stage := .global comp }, none)
  | .global comp => ({ task with stage := .done }, decideSend exp query comp world.globalRatio)
  | .done => (task, none)

def step (exp : F → F) (world : World F) : Event F → World F
  | .observeResult observation =>
      { world with results := world.results ++ [⟨observation, .competition⟩] }
  | .evaluate query => { world with evaluations := world.evaluations ++ [⟨query, .competition⟩] }
  | .advanceResult place =>
      match world.results[place]? with
      | none => world
      | some task =>
          let next := advanceResult world task
          { next.1 with results := world.results.set place next.2 }
  | .advanceEvaluation place =>
      match world.evaluations[place]? with
      | none => world
      | some task =>
          let next := advanceEvaluation exp world task
          { world with
            evaluations := world.evaluations.set place next.1
            sent := world.sent ++ next.2.toList }

def start : World F :=
  ⟨HashMap.empty, HashMap.empty, HashMap.empty, ofRat (3 / 10), [], [], [], []⟩

end Decide

/-! What holds of the ratios, in binary64. -/

def Within (x : Double) : Prop := 0 ≤ x.value ∧ x.value ≤ 2

theorem two_eq : (ofNat 2 : Double).value = 2 := by decide +kernel

theorem within_ema (ratio old : Double) (seen : Within ratio) (held : Within old) :
    Within (ema ratio old) := by
  have mean := Double.mean_within alpha (ofNat 2) ratio old (by decide +kernel)
    (by decide +kernel) (by decide +kernel) seen.1 (seen.2.trans_eq two_eq.symm) held.1
    (held.2.trans_eq two_eq.symm)
  exact ⟨mean.1, mean.2.trans_eq two_eq⟩

theorem within_observedRatio (estimated actual : Int) :
    Within (observedRatio estimated actual) := by
  have zero : (ofNat 0 : Double).value = 0 := rfl
  have two := two_eq
  simp only [observedRatio, Within, FloatArith.min, FloatArith.max]
  split <;> split <;> constructor <;> linarith

theorem get_observeRatio (ratios : HashMap String Double) (key other : String)
    (ratio rate : Double) (seen : Within ratio)
    (held : ∀ key rate, HashMap.get ratios key = some rate → Within rate)
    (found : HashMap.get (observeRatio ratios key ratio) other = some rate) : Within rate := by
  rw [observeRatio] at found
  by_cases own : other = key
  · rw [own] at found
    cases before : HashMap.get ratios key with
    | none =>
        simp only [before, HashMap.get_insert, Option.some.injEq] at found
        rwa [← found]
    | some old =>
        simp only [before, HashMap.get_insert, Option.some.injEq] at found
        rw [← found]
        exact within_ema ratio old seen (held key old before)
  · apply held other rate
    split at found
    · rwa [HashMap.get_insert_ne _ _ _ _ own] at found
    · rwa [HashMap.get_insert_ne _ _ _ _ own] at found

theorem get_observeCombo (ratios : HashMap String (Double × Nat)) (key other : String)
    (ratio : Double) (rate : Double × Nat) (seen : Within ratio)
    (held : ∀ key rate, HashMap.get ratios key = some rate → Within rate.1)
    (found : HashMap.get (observeCombo ratios key ratio) other = some rate) : Within rate.1 := by
  rw [observeCombo] at found
  by_cases own : other = key
  · rw [own] at found
    cases before : HashMap.get ratios key with
    | none =>
        simp only [before, HashMap.get_insert, Option.some.injEq] at found
        rwa [← found]
    | some old =>
        simp only [before, HashMap.get_insert, Option.some.injEq] at found
        rw [← found]
        exact within_ema ratio old.1 seen (held key old before)
  · apply held other rate
    split at found
    · rwa [HashMap.get_insert_ne _ _ _ _ own] at found
    · rwa [HashMap.get_insert_ne _ _ _ _ own] at found

structure Rated (world : World Double) : Prop where
  routes : ∀ key rate, HashMap.get world.routeRatios key = some rate → Within rate
  combos : ∀ key rate, HashMap.get world.dexComboRatios key = some rate → Within rate.1
  baseline : Within world.globalRatio
  stored : ∀ task ∈ world.results, ∀ rate, task.stage = .storeGlobal rate → Within rate

/-! What the table of routes has counted. -/

section Counts

variable {F : Type}

def OfRoute (routeKey : String) (seen : Observation F) : Bool := decide (seen.routeKey = routeKey)

/-- The counts of a route are those of the results recorded of it. -/
structure CountedBy (entry : RouteCompetition F) (seen : List (Observation F)) : Prop where
  attempts : entry.attempts = seen.length
  landed : entry.landed = seen.countP Observation.landed
  requoteFails : entry.requoteFails = seen.countP (fun result => decide (result.actual ≤ 0))

def Counted (routes : HashMap String (RouteCompetition F)) (recorded : List (Observation F)) :
    Prop :=
  ∀ key, match HashMap.get routes key with
    | none => recorded.filter (OfRoute key) = []
    | some entry => CountedBy entry (recorded.filter (OfRoute key))

/-- No more than twenty results of a route are recorded, or one landed; and no more than fifty
without a profit, or one landed. -/
def Promising (routeKey : String) (recorded : List (Observation F)) : Prop :=
  ((recorded.filter (OfRoute routeKey)).length ≤ 20 ∨
    ∃ seen ∈ recorded, seen.routeKey = routeKey ∧ seen.landed = true) ∧
  ((recorded.filter (OfRoute routeKey)).countP (fun result => decide (result.actual ≤ 0)) ≤ 50 ∨
    ∃ seen ∈ recorded, seen.routeKey = routeKey ∧ seen.landed = true)

variable [FloatArith F]

theorem countedBy_observe (entry : RouteCompetition F) (seen : List (Observation F))
    (last : Observation F) (counted : CountedBy entry seen) :
    CountedBy (entry.observe last.landed (decide (last.actual ≤ 0)) last.detectionMs)
      (seen ++ [last]) where
  attempts := by simp [RouteCompetition.observe, counted.attempts]
  landed := by
    simp only [RouteCompetition.observe, List.countP_append, List.countP_singleton,
      counted.landed]
    split <;> rfl
  requoteFails := by
    simp only [RouteCompetition.observe, List.countP_append, List.countP_singleton,
      counted.requoteFails]
    split <;> rfl

theorem counted_observe (routes : HashMap String (RouteCompetition F))
    (recorded : List (Observation F)) (last : Observation F)
    (counted : Counted routes recorded) :
    Counted (observeRoute routes last) (recorded ++ [last]) := by
  intro key
  have before := counted key
  rw [observeRoute, List.filter_append]
  by_cases own : key = last.routeKey
  · have alone : [last].filter (OfRoute key) = [last] := by simp [OfRoute, own]
    rw [own] at before alone ⊢
    rw [alone, HashMap.get_insert]
    apply countedBy_observe
    cases held : HashMap.get routes last.routeKey with
    | none =>
        simp only [held] at before
        rw [before]
        exact ⟨rfl, rfl, rfl⟩
    | some entry =>
        simp only [held] at before
        exact before
  · have alone : [last].filter (OfRoute key) = [] := by
      simp [OfRoute, Ne.symm own]
    rw [alone, HashMap.get_insert_ne _ _ _ _ own, List.append_nil]
    exact before

/-- A route that is not on the blacklist is promising by what was recorded of it. -/
theorem promising_of_classify (routes : HashMap String (RouteCompetition F))
    (recorded : List (Observation F)) (routeKey : String) (counted : Counted routes recorded)
    (passes : classify routes routeKey ≠ .blacklist) : Promising routeKey recorded := by
  have counts := counted routeKey
  rw [classify] at passes
  cases held : HashMap.get routes routeKey with
  | none =>
      simp only [held] at counts
      simp [Promising, counts]
  | some entry =>
      simp only [held] at counts passes
      have lands : entry.landed ≠ 0 → ∃ seen ∈ recorded, seen.routeKey = routeKey ∧
          seen.landed = true := by
        intro some_
        rw [counts.landed] at some_
        rcases List.countP_pos_iff.mp (Nat.pos_of_ne_zero some_) with ⟨seen, member, landed⟩
        rcases List.mem_filter.mp member with ⟨inside, own⟩
        exact ⟨seen, inside, of_decide_eq_true own, landed⟩
      by_cases none_ : entry.landed = 0
      · constructor
        · left
          rw [← counts.attempts]
          by_contra many
          exact passes (by rw [RouteCompetition.classify, if_pos ⟨by omega, none_⟩])
        · left
          rw [← counts.requoteFails]
          by_contra many
          apply passes
          rw [RouteCompetition.classify]
          split
          · rfl
          · rw [if_pos ⟨by omega, none_⟩]
      · exact ⟨Or.inr (lands none_), Or.inr (lands none_)⟩

end Counts

/-! What holds of a decision to send. -/

/-- What is sent pays for its tip, which never answers to the competition for the route. -/
structure Sound (decision : Decision Double) : Prop where
  pays : (decision.tip : Int) + 5000 ≤ decision.realProfit
  profit : (decision.realProfit : ℚ) ≤
    (mul (ofInt decision.query.estimatedProfit) (ofNat 2) : Double).value
  tip : decision.tip =
    recommendTip decision.realProfit (ofNat 0 : Double) decision.query.hour decision.query.jitoP75
  floor : Nat.min decision.query.jitoP75 2000000 ≤ decision.tip
  cap : decision.tip ≤ 2000000
  chance : 0 ≤ decision.pLand.value ∧ decision.pLand.value ≤ 1

theorem le_of_le_toI64 (x : Double) (n : Int) (positive : 0 < n) (le : n ≤ toI64 x) :
    (n : ℚ) ≤ x.value := by
  rw [toI64] at le
  split at le
  · omega
  · have truncated : n ≤ ((⌊x.value⌋.toNat : Nat) : Int) :=
      le.trans (Int.ofNat_le.mpr (Nat.min_le_left _ _))
    have floor : n ≤ ⌊x.value⌋ := by omega
    exact Int.le_floor.mp floor

/-- A route that is not on the blacklist has a score too low to raise its tip. -/
theorem recommendTip_score (level : CompetitionLevel) (passes : level ≠ .blacklist)
    (profit : Int) (hour jitoP75 : Nat) :
    recommendTip profit (sub (ofNat 1) (scoreMultiplier level) : Double) hour jitoP75 =
      recommendTip profit (ofNat 0 : Double) hour jitoP75 := by
  have low : lt (ofRat (8 / 10)) (sub (ofNat 1) (scoreMultiplier level) : Double) =
        lt (ofRat (8 / 10)) (ofNat 0 : Double) ∧
      lt (ofRat (1 / 2)) (sub (ofNat 1) (scoreMultiplier level) : Double) =
        lt (ofRat (1 / 2)) (ofNat 0 : Double) := by
    cases level with
    | blacklist => exact absurd rfl passes
    | high => decide +kernel
    | normal => decide +kernel
    | low => decide +kernel
  simp only [recommendTip, low.1, low.2]

theorem recommendTip_bounds (profit : Int) (competition : Double) (hour jitoP75 : Nat) :
    Nat.min jitoP75 2000000 ≤ recommendTip profit competition hour jitoP75 ∧
      recommendTip profit competition hour jitoP75 ≤ 2000000 := by
  rw [recommendTip]
  refine ⟨?_, Nat.min_le_right _ _⟩
  apply Nat.le_min.mpr
  exact ⟨(Nat.min_le_left _ _).trans (Nat.le_max_right _ _), Nat.min_le_right _ _⟩

/-- A difference that a share of it makes large enough is that large itself. -/
theorem le_of_share (share difference least : Double) (low : 0 ≤ share.value)
    (high : share.value ≤ 1) (rounded : Double.round difference.value = difference)
    (positive : 0 < least.value) (le : least.value ≤ (mul share difference : Double).value) :
    least.value ≤ difference.value := by
  by_cases gains : 0 ≤ difference.value
  · calc least.value
      _ ≤ (Double.round (share.value * difference.value)).value := le
      _ ≤ (Double.round difference.value).value :=
          Double.round_monotone _ _ (mul_le_of_le_one_left gains high)
      _ = difference.value := by rw [rounded]
  · have lost : (mul share difference : Double).value ≤ 0 :=
      Double.round_nonpos _ (mul_nonpos_of_nonneg_of_nonpos low (not_le.mp gains).le)
    linarith

/-- A rounded difference of at least 5000 is one of the numbers themselves. -/
theorem pays_of_sub (profit : Int) (tip : Nat) (positive : 0 ≤ profit) (cap : tip ≤ 2000000)
    (le : (ofNat 5000 : Double).value ≤ (sub (ofInt profit) (ofNat tip) : Double).value) :
    (tip : Int) + 5000 ≤ profit := by
  by_contra less
  have small : profit.toNat < 2 ^ 53 := by omega
  have casted : (profit : ℚ) = ((profit.toNat : Nat) : ℚ) := by
    rw [← Int.cast_natCast, Int.toNat_of_nonneg positive]
  have exactProfit : (ofInt profit : Double).value = profit := by
    rw [ofInt, casted]
    exact Double.round_natCast _ small
  have exactTip : (ofNat tip : Double).value = tip := Double.round_natCast tip (by omega)
  have bound : (profit : ℚ) - tip ≤ 4999 := by
    have whole : profit - tip ≤ 4999 := by omega
    exact_mod_cast whole
  have high : (sub (ofInt profit) (ofNat tip) : Double).value ≤ 4999 := by
    calc (sub (ofInt profit) (ofNat tip) : Double).value
      _ ≤ (Double.round ((4999 : Nat) : ℚ)).value := by
          apply Double.round_monotone
          rw [exactProfit, exactTip]
          exact_mod_cast bound
      _ = 4999 := Double.round_natCast 4999 (by norm_num)
  have least : (ofNat 5000 : Double).value = 5000 := Double.round_natCast 5000 (by norm_num)
  linarith

/-- A profit that is left of an estimate is no more than twice the estimate. -/
theorem share_le_twice (estimate ratio : Double) (within : Within ratio)
    (gains : 0 < (mul estimate ratio : Double).value) :
    (mul estimate ratio : Double).value ≤ (mul estimate (ofNat 2) : Double).value := by
  have two := two_eq
  have estimated : 0 ≤ estimate.value := by
    by_contra negative
    have lost : (mul estimate ratio : Double).value ≤ 0 :=
      Double.round_nonpos _ (mul_nonpos_of_nonpos_of_nonneg (not_le.mp negative).le within.1)
    exact absurd gains (not_lt.mpr lost)
  apply Double.round_monotone
  rw [two]
  exact mul_le_mul_of_nonneg_left within.2 estimated

section Send

variable (exp : Double → Double) (positive : ∀ x, 0 ≤ (exp x).value)

include positive in
theorem predictLanding_within (detectionMs profit competition : Double) (hour nHops : Nat)
    (reserveFresh : Bool) :
    0 ≤ (predictLanding exp detectionMs profit competition hour nHops reserveFresh).value ∧
      (predictLanding exp detectionMs profit competition hour nHops reserveFresh).value ≤ 1 :=
  Double.logistic_within _ (positive _)

include positive in
theorem decideSend_sound (query : Query Double) (level : CompetitionLevel) (ratio : Double)
    (decision : Decision Double) (passes : level ≠ .blacklist) (within : Within ratio)
    (sends : decideSend exp query (scoreMultiplier level) ratio = some decision) :
    decision.query = query ∧ Sound decision := by
  simp only [decideSend] at sends
  split at sends
  · cases sends
  · next worth =>
      split at sends
      · cases sends
      · next valued =>
          cases sends
          have bounds := recommendTip_bounds (toI64 (mul (ofInt query.estimatedProfit) ratio))
            (sub (ofNat 1) (scoreMultiplier level)) query.hour query.jitoP75
          have chance := predictLanding_within exp positive query.detectionMs
            (ofInt (toI64 (mul (ofInt query.estimatedProfit) ratio)))
            (sub (ofNat 1) (scoreMultiplier level)) query.hour query.nHops query.reserveFresh
          have value := le_of_not_gt (of_decide_eq_false (Bool.eq_false_iff.mpr valued))
          have large := le_of_share _ _ _ chance.1 chance.2 (Double.round_round _)
            (by decide +kernel) value
          have gains : 0 < toI64 (mul (ofInt query.estimatedProfit) ratio) := by omega
          have real := le_of_le_toI64 (mul (ofInt query.estimatedProfit) ratio) _ gains le_rfl
          exact ⟨rfl, pays_of_sub _ _ gains.le bounds.2 large,
            real.trans (share_le_twice _ ratio within ((Int.cast_pos.mpr gains).trans_le real)),
            recommendTip_score level passes _ _ _, bounds.1, bounds.2, chance⟩

/-- What an evaluation under way holds: the multiplier of a route that was promising by the
results recorded so far. -/
def Passed (recorded : List (Observation Double)) (query : Query Double) (comp : Double) : Prop :=
  ∃ level, level ≠ .blacklist ∧ comp = scoreMultiplier level ∧
    ∃ seen, seen <+: recorded ∧ Promising query.routeKey seen

/-- The multiplier an evaluation has read, as long as it is under way. -/
def EvaluateStage.comp {F : Type} : EvaluateStage F → Option F
  | .route comp => some comp
  | .dexCombo comp => some comp
  | .global comp => some comp
  | .competition => none
  | .done => none

def Evaluating (recorded : List (Observation Double)) (task : EvaluateTask Double) : Prop :=
  ∀ comp, task.stage.comp = some comp → Passed recorded task.query comp

/-- A decision to send, with the results that were recorded when its route was looked up. -/
def Justified (recorded : List (Observation Double)) (decision : Decision Double) : Prop :=
  Sound decision ∧ ∃ seen, seen <+: recorded ∧ Promising decision.query.routeKey seen

structure Holds (world : World Double) : Prop where
  rated : Rated world
  counted : Counted world.routes world.recorded
  evaluating : ∀ task ∈ world.evaluations, Evaluating world.recorded task
  justified : ∀ decision ∈ world.sent, Justified world.recorded decision

include positive in
theorem justified_decideSend (recorded : List (Observation Double)) (query : Query Double)
    (comp ratio : Double) (decision : Decision Double) (passed : Passed recorded query comp)
    (within : Within ratio) (sends : decideSend exp query comp ratio = some decision) :
    Justified recorded decision := by
  rcases passed with ⟨level, passes, rfl, seen, sooner, promising⟩
  rcases decideSend_sound exp positive query level ratio decision passes within sends with
    ⟨same, sound⟩
  exact ⟨sound, seen, sooner, same ▸ promising⟩

include positive in
/-- A step of an evaluation keeps what it holds, and what it sends is justified. -/
theorem advanceEvaluation_spec (world : World Double) (task : EvaluateTask Double)
    (rated : Rated world) (counted : Counted world.routes world.recorded)
    (evaluating : Evaluating world.recorded task) :
    Evaluating world.recorded (advanceEvaluation exp world task).1 ∧
      ∀ decision, (advanceEvaluation exp world task).2 = some decision →
        Justified world.recorded decision := by
  rcases task with ⟨query, stage⟩
  have done : Evaluating world.recorded ⟨query, .done⟩ := fun comp wrong => by cases wrong
  cases stage with
  | competition =>
      simp only [advanceEvaluation]
      split
      · exact ⟨done, fun decision wrong => by cases wrong⟩
      · next passes =>
          refine ⟨?_, fun decision wrong => by cases wrong⟩
          intro comp same
          cases same
          exact ⟨_, passes, rfl, world.recorded, List.prefix_refl _,
            promising_of_classify _ _ _ counted passes⟩
  | route comp =>
      simp only [advanceEvaluation]
      split
      · next ratio found =>
          exact ⟨done, fun decision sends => justified_decideSend exp positive _ _ comp ratio
            decision (evaluating comp rfl) (rated.routes _ _ found) sends⟩
      · exact ⟨evaluating, fun decision wrong => by cases wrong⟩
  | dexCombo comp =>
      simp only [advanceEvaluation]
      split
      · next ratio n found =>
          split
          · exact ⟨done, fun decision sends => justified_decideSend exp positive _ _ comp ratio
              decision (evaluating comp rfl) (rated.combos _ _ found) sends⟩
          · exact ⟨evaluating, fun decision wrong => by cases wrong⟩
      · exact ⟨evaluating, fun decision wrong => by cases wrong⟩
  | global comp =>
      exact ⟨done, fun decision sends => justified_decideSend exp positive _ _ comp _ decision
        (evaluating comp rfl) rated.baseline sends⟩
  | done => exact ⟨evaluating, fun decision wrong => by cases wrong⟩

/-- More recorded results leave what is held of evaluations and decisions as it is. -/
theorem evaluating_append (recorded : List (Observation Double)) (last : Observation Double)
    (task : EvaluateTask Double) (evaluating : Evaluating recorded task) :
    Evaluating (recorded ++ [last]) task := by
  intro comp stage
  rcases evaluating comp stage with ⟨level, passes, same, seen, sooner, promising⟩
  exact ⟨level, passes, same, seen, sooner.trans (List.prefix_append _ _), promising⟩

theorem justified_append (recorded : List (Observation Double)) (last : Observation Double)
    (decision : Decision Double) (justified : Justified recorded decision) :
    Justified (recorded ++ [last]) decision := by
  rcases justified with ⟨sound, seen, sooner, promising⟩
  exact ⟨sound, seen, sooner.trans (List.prefix_append _ _), promising⟩

/-- A step of a result, with the tasks of the world as they were. -/
theorem holds_advanceResult (world : World Double) (task : ResultTask Double)
    (member : task ∈ world.results) (holds : Holds world) :
    Holds (advanceResult world task).1 ∧
      ∀ rate, (advanceResult world task).2.stage = .storeGlobal rate → Within rate := by
  rcases task with ⟨seen, stage⟩
  have ratio := within_observedRatio seen.estimated seen.actual
  cases stage with
  | competition =>
      refine ⟨{
        rated := { holds.rated with }
        counted := counted_observe _ _ _ holds.counted
        evaluating := fun task inside => evaluating_append _ _ _ (holds.evaluating task inside)
        justified := fun decision inside =>
          justified_append _ _ _ (holds.justified decision inside) }, ?_⟩
      intro rate same
      simp only [advanceResult] at same
      split at same <;> cases same
  | route =>
      exact ⟨{ holds with
        rated := { holds.rated with
          routes := fun other rate found =>
            get_observeRatio _ _ other _ rate ratio holds.rated.routes found } },
        fun rate wrong => by cases wrong⟩
  | dexCombo =>
      exact ⟨{ holds with
        rated := { holds.rated with
          combos := fun other rate found =>
            get_observeCombo _ _ other _ rate ratio holds.rated.combos found } },
        fun rate wrong => by cases wrong⟩
  | loadGlobal =>
      refine ⟨holds, ?_⟩
      intro rate same
      cases same
      exact within_ema _ _ ratio holds.rated.baseline
  | storeGlobal rate =>
      exact ⟨{ holds with
        rated := { holds.rated with baseline := holds.rated.stored _ member rate rfl } },
        fun rate wrong => by cases wrong⟩
  | done => exact ⟨holds, fun rate wrong => by cases wrong⟩

include positive in
theorem holds_step (world : World Double) (event : Event Double) (holds : Holds world) :
    Holds (step exp world event) := by
  cases event with
  | observeResult observation =>
      refine { holds with rated := { holds.rated with stored := ?_ } }
      intro task member rate stage
      rcases List.mem_append.mp member with old | new
      · exact holds.rated.stored task old rate stage
      · rw [List.mem_singleton.mp new] at stage
        cases stage
  | evaluate query =>
      refine { holds with rated := { holds.rated with }, evaluating := ?_ }
      intro task member
      rcases List.mem_append.mp member with old | new
      · exact holds.evaluating task old
      · rw [List.mem_singleton.mp new]
        exact fun comp wrong => by cases wrong
  | advanceResult place =>
      rw [step]
      cases found : world.results[place]? with
      | none => exact holds
      | some task =>
          rcases holds_advanceResult world task (List.mem_of_getElem? found) holds with
            ⟨next, stored⟩
          refine { next with rated := { next.rated with stored := ?_ } }
          intro other member rate stage
          rcases List.mem_or_eq_of_mem_set member with old | new
          · exact holds.rated.stored other old rate stage
          · exact stored rate (new ▸ stage)
  | advanceEvaluation place =>
      rw [step]
      cases found : world.evaluations[place]? with
      | none => exact holds
      | some task =>
          rcases advanceEvaluation_spec exp positive world task holds.rated holds.counted
            (holds.evaluating task (List.mem_of_getElem? found)) with ⟨next, sends⟩
          refine { holds with rated := { holds.rated with }, evaluating := ?_, justified := ?_ }
          · intro other member
            rcases List.mem_or_eq_of_mem_set member with old | new
            · exact holds.evaluating other old
            · exact new ▸ next
          · intro decision member
            rcases List.mem_append.mp member with old | new
            · exact holds.justified decision old
            · exact sends decision (Option.mem_toList.mp new)

theorem holds_start : Holds start where
  rated := {
    routes := fun key rate found => by
      rw [start, HashMap.get_empty] at found
      cases found
    combos := fun key rate found => by
      rw [start, HashMap.get_empty] at found
      cases found
    baseline := by
      simp only [Within, start]
      decide +kernel
    stored := by simp [start] }
  counted := by
    intro key
    simp [start]
  evaluating := by simp [start]
  justified := by simp [start]

include positive in
/-- In every interleaving of results and evaluations, what is sent pays for its tip with 5000
lamports left by a profit of at most twice the estimate, and its route was promising by the
results recorded by the time it was looked up. -/
theorem decision_sound (events : List (Event Double)) :
    ∀ decision ∈ (run (step exp) start events).sent,
      Justified (run (step exp) start events).recorded decision := by
  have holds : Holds (run (step exp) start events) := by
    apply run_invariant (step exp) Holds
    · exact holds_start
    · intro pair _ held
      exact holds_step exp positive pair.1 pair.2 held
  exact holds.justified

end Send

/-- A route is looked up, its first result comes in, and the rest of the evaluation uses it. -/
def resultBetween : List (Event Double) :=
  [.evaluate ⟨"r", "c", 1000000, ofNat 10, 12, 3, true, 10000⟩, .advanceEvaluation 0,
    .observeResult ⟨"r", "c", 1000000, 500000, true, ofNat 10⟩, .advanceResult 0,
    .advanceResult 0, .advanceEvaluation 0]

theorem decision_sound_resultBetween :
    (∀ decision ∈ (run (step (fun _ => ofNat 0)) start resultBetween).sent,
      Justified (run (step (fun _ => ofNat 0)) start resultBetween).recorded decision) ∧
    (run (step (fun _ => (ofNat 0 : Double))) start resultBetween).sent.map
      (fun decision => (decision.realProfit, decision.tip)) = [(500000, 82500)] :=
  ⟨decision_sound (fun _ => ofNat 0) (fun _ => by decide +kernel) resultBetween,
    by decide +kernel⟩

end Helios.DecisionEngine
