import Helios.FloatOrder
import Helios.Runs
import Mathlib.Data.Fin.VecNotation

/-! The predictor of three-hop routes: a logistic regression that is loaded once and then
learns from what the engine reports. Reports gather a gradient, and another thread applies it
and saves the weights from time to time. -/

namespace Helios.ThreeHopPredictor

open Runs FloatArith

def nFeatures : Nat := 15

abbrev Features (F : Type) := Fin nFeatures → F

structure HopInfo (F : Type) where
  dexProgram : String
  amountOut : Nat
  priceImpact : F

structure ModelParams (F : Type) where
  weights : Features F
  bias : F

structure GradAccum (F : Type) where
  weightGrads : Features F
  biasGrad : F
  count : Nat

structure Observation (F : Type) where
  hops : List (HopInfo F)
  netProfit : Int
  hourUtc : Nat
  landed : Bool

section Predict

variable {F : Type} [FloatArith F] (exp ln sin cos : F → F) (means stds : Features F)

def feeBpsForDex (programId : String) : F :=
  match programId with
  | "675kPX9MHTjS2zt1qfr1NYHuzeLXfQM9H24wFSUt1Mp8" => ofNat 25
  | "CAMMCzo5YL8w4VFF8KVHrK22GGUsp5VTaW7grrKgrWqK" => ofNat 25
  | "CPMMoo8L3F4NbTegBCKVNunggL7H1ZpdTHKxQB5qKP1C" => ofNat 25
  | "whirLbMiicVdio4qvUfM5KAg6Ct8VwpYzGff3uctyCc" => ofNat 30
  | "LBUZKhRxPF3XUpBCjp4YzTKgLccjZhTSDM9YuVaPwxo" => ofNat 30
  | "pAMMBay6oceH9fJKBRHGP5D4bD4sWpmSwMn52FMfXEA" => ofNat 25
  | "SSwpkEEcbUqx4vtoEByFjSkhKdCT862DNVb52nZg1UZ" => ofNat 4
  | "FLUXubRmkEi2q6K3Y9kBPg9248ggaZVsoSFhtJHSR1X4" => ofNat 30
  | _ => ofNat 30

def pi : F := ofRat (3141592653589793 / 1000000000000000)

def sum (values : List F) : F := values.foldl add (ofNat 0)

def minAmountOut (hops : List (HopInfo F)) : Nat :=
  Max.max (((hops.map HopInfo.amountOut).min?).getD 1) 1

def buildFeatures (hops : List (HopInfo F)) (netProfit : Int) (hourUtc : Nat) : Features F :=
  let reserveDepthLog := ln (ofNat (minAmountOut hops))
  let dexDiversity := (hops.map HopInfo.dexProgram).dedup.length
  let avgPriceImpact :=
    if hops = [] then ofNat 0
    else div (sum (hops.map HopInfo.priceImpact)) (ofNat hops.length)
  let hourRad := div (mul (mul (ofNat hourUtc) (ofNat 2)) pi) (ofNat 24)
  ![reserveDepthLog,
    sum (hops.map (fun hop => feeBpsForDex hop.dexProgram)),
    ofNat dexDiversity,
    avgPriceImpact,
    ofRat (1 / 2),
    sin hourRad,
    cos hourRad,
    ofRat (1 / 2),
    reserveDepthLog,
    ofRat (34 / 100),
    ofRat (1 / 10),
    ofRat (8 / 100),
    ln (ofInt (Max.max netProfit 1)),
    if 1 < dexDiversity then ofNat 1 else ofNat 0,
    ofNat 0]

def normalized (features : Features F) (i : Fin nFeatures) : F :=
  div (sub (features i) (means i))
    (if lt (ofRat (1 / 10 ^ 10)) (stds i) then stds i else ofNat 1)

def dotSigmoid (model : ModelParams F) (features : Features F) : F :=
  let z := (List.finRange nFeatures).foldl
    (fun z i => add z (mul (model.weights i) (normalized means stds features i))) model.bias
  div (ofNat 1) (add (ofNat 1) (exp (sub (ofNat 0) z)))

def predict (loaded : Bool) (model : ModelParams F) (hops : List (HopInfo F)) (netProfit : Int)
    (hourUtc : Nat) : F :=
  if loaded = false ∨ hops.length < 3 then ofRat (1 / 2)
  else dotSigmoid exp means stds model (buildFeatures ln sin cos hops netProfit hourUtc)

end Predict

/-- What a report adds to the gradient: its error and its standardized features. -/
structure Sample (F : Type) where
  error : F
  features : Features F

/-- Samples applied together, with the number of reports counted by then. -/
structure Batch (F : Type) where
  observations : Nat
  samples : List (Sample F)

/-- What a report has still to do. -/
inductive Stage (F : Type) where
  | count
  | predict
  | accumulate (error : F)
  | done

structure Task (F : Type) where
  observation : Observation F
  stage : Stage F

/-- The fields from `pending` on are histories, which the program does not keep: the samples in
the gradient, the batches in the weights and in the saved weights, and all samples ever. -/
structure World (F : Type) where
  model : ModelParams F
  gradAccum : GradAccum F
  observations : Nat
  tasks : List (Task F)
  saved : ModelParams F
  pending : List (Sample F)
  learned : List (Batch F)
  savedLearned : List (Batch F)
  accumulated : List (Sample F)

inductive Event (F : Type) where
  | observe (observation : Observation F)
  | advance (place : Nat)
  | applyGradients
  | save
  | restart

section Step

variable {F : Type} [FloatArith F] (exp ln sin cos : F → F) (means stds : Features F)
  (loaded : Bool)

def noGradient : GradAccum F := ⟨fun _ => ofNat 0, ofNat 0, 0⟩

def accumulate (grad : GradAccum F) (sample : Sample F) : GradAccum F where
  weightGrads := fun i => add (grad.weightGrads i) (mul sample.error (sample.features i))
  biasGrad := add grad.biasGrad sample.error
  count := grad.count + 1

def learningRate (observations : Nat) : F :=
  div (ofRat (1 / 100)) (add (ofNat 1) (div (ofNat observations) (ofNat 100)))

/-- The weights after the gathered gradient. -/
def applied (model : ModelParams F) (grad : GradAccum F) (observations : Nat) : ModelParams F where
  weights := fun i => sub (model.weights i)
    (mul (learningRate observations) (div (grad.weightGrads i) (ofNat grad.count)))
  bias := sub model.bias (mul (learningRate observations) (div grad.biasGrad (ofNat grad.count)))

def features (seen : Observation F) : Features F :=
  buildFeatures ln sin cos seen.hops seen.netProfit seen.hourUtc

def label (landed : Bool) : F := if landed then ofNat 1 else ofNat 0

/-- The next step of a report. -/
def advance (world : World F) (task : Task F) : World F × Task F :=
  match task.stage with
  | .count =>
      if loaded = false ∨ task.observation.hops.length < 3 then
        (world, { task with stage := .done })
      else ({ world with observations := world.observations + 1 }, { task with stage := .predict })
  | .predict =>
      let pred := dotSigmoid exp means stds world.model (features ln sin cos task.observation)
      (world, { task with stage := .accumulate (sub pred (label task.observation.landed)) })
  | .accumulate error =>
      let sample : Sample F :=
        ⟨error, normalized means stds (features ln sin cos task.observation)⟩
      ({ world with
          gradAccum := accumulate world.gradAccum sample
          pending := world.pending ++ [sample]
          accumulated := world.accumulated ++ [sample] },
        { task with stage := .done })
  | .done => (world, task)

def step (world : World F) : Event F → World F
  | .observe observation => { world with tasks := world.tasks ++ [⟨observation, .count⟩] }
  | .advance place =>
      match world.tasks[place]? with
      | none => world
      | some task =>
          let next := advance exp ln sin cos means stds loaded world task
          { next.1 with tasks := world.tasks.set place next.2 }
  | .applyGradients =>
      if world.gradAccum.count = 0 then world
      else { world with
        model := applied world.model world.gradAccum world.observations
        gradAccum := noGradient
        learned := world.learned ++ [⟨world.observations, world.pending⟩]
        pending := [] }
  | .save =>
      if loaded then { world with saved := world.model, savedLearned := world.learned }
      else world
  | .restart => { world with
      model := world.saved
      gradAccum := noGradient
      observations := 0
      tasks := []
      pending := []
      learned := world.savedLearned }

/-- A process that loaded these weights. -/
def start (initial : ModelParams F) : World F where
  model := initial
  gradAccum := noGradient
  observations := 0
  tasks := []
  saved := initial
  pending := []
  learned := []
  savedLearned := []
  accumulated := []

end Step

/-! Gradient descent in batches. -/

section Descent

variable {F : Type} [FloatArith F]

/-- One step down the mean gradient of a batch. -/
def descend (model : ModelParams F) (batch : Batch F) : ModelParams F :=
  applied model (batch.samples.foldl accumulate noGradient) batch.observations

def samplesOf (batches : List (Batch F)) : List (Sample F) := batches.flatMap Batch.samples

/-- The weights are those of a descent by batches, no sample is in two of them, and no batch is
empty. -/
structure Descended (initial : ModelParams F) (world : World F) : Prop where
  model : world.model = world.learned.foldl descend initial
  saved : world.saved = world.savedLearned.foldl descend initial
  grad : world.gradAccum = world.pending.foldl accumulate noGradient
  once : (samplesOf world.learned ++ world.pending).Sublist world.accumulated
  savedOnce : (samplesOf world.savedLearned).Sublist world.accumulated
  full : ∀ batch ∈ world.learned ++ world.savedLearned, batch.samples ≠ []

theorem count_foldl (grad : GradAccum F) (samples : List (Sample F)) :
    (samples.foldl accumulate grad).count = grad.count + samples.length := by
  induction samples generalizing grad with
  | nil => rfl
  | cons sample rest ih =>
      rw [List.foldl_cons, ih, List.length_cons]
      simp only [accumulate]
      omega

theorem descended_start (initial : ModelParams F) : Descended initial (start initial) where
  model := rfl
  saved := rfl
  grad := rfl
  once := List.Sublist.refl _
  savedOnce := List.Sublist.refl _
  full := by simp [start]

variable (exp ln sin cos : F → F) (means stds : Features F) (loaded : Bool)

theorem descended_advance (initial : ModelParams F) (world : World F) (task : Task F)
    (descended : Descended initial world) :
    Descended initial (advance exp ln sin cos means stds loaded world task).1 := by
  rcases task with ⟨seen, stage⟩
  cases stage with
  | count =>
      simp only [advance]
      split
      · exact descended
      · exact { descended with }
  | predict => exact descended
  | accumulate error =>
      refine { descended with grad := ?_, once := ?_, savedOnce := ?_ }
      · simp only [advance, List.foldl_append, ← descended.grad]
        rfl
      · simp only [advance, ← List.append_assoc]
        exact descended.once.append (List.Sublist.refl _)
      · exact descended.savedOnce.trans (List.sublist_append_left _ _)
  | done => exact descended

theorem descended_step (initial : ModelParams F) (world : World F) (event : Event F)
    (descended : Descended initial world) :
    Descended initial (step exp ln sin cos means stds loaded world event) := by
  cases event with
  | observe observation => exact { descended with }
  | advance place =>
      rw [step]
      cases world.tasks[place]? with
      | none => exact descended
      | some task =>
          have next := descended_advance exp ln sin cos means stds loaded initial world task
            descended
          exact { next with }
  | applyGradients =>
      rw [step]
      split
      · exact descended
      · next some =>
          have count := count_foldl noGradient world.pending
          rw [← descended.grad] at count
          refine { descended with model := ?_, grad := rfl, once := ?_, full := ?_ }
          · simp only [List.foldl_append, List.foldl_cons, List.foldl_nil, ← descended.model]
            rw [descend, ← descended.grad]
          · simp only [samplesOf, List.flatMap_append, List.flatMap_cons, List.flatMap_nil,
              List.append_nil]
            exact descended.once
          · intro batch member
            simp only [List.mem_append, List.mem_singleton] at member
            rcases member with (old | new) | saved
            · exact descended.full batch (List.mem_append_left _ old)
            · rw [new]
              intro none_
              have none_ : world.pending = [] := none_
              rw [none_] at count
              exact some count
            · exact descended.full batch (List.mem_append_right _ saved)
  | save =>
      rw [step]
      split
      · refine { descended with saved := descended.model, savedOnce := ?_, full := ?_ }
        · exact (List.sublist_append_left _ _).trans descended.once
        · intro batch member
          have inside := (List.mem_append.mp member).elim id id
          exact descended.full batch (List.mem_append_left _ inside)
      · exact descended
  | restart =>
      refine { descended with model := descended.saved, grad := rfl, once := ?_, full := ?_ }
      · simp only [step, List.append_nil]
        exact descended.savedOnce
      · intro batch member
        have inside := (List.mem_append.mp member).elim id id
        exact descended.full batch (List.mem_append_right _ inside)

/-- As long as the process lives every sample is in a batch or in the next one. -/
theorem all_learned (initial : ModelParams F) (events : List (Event F))
    (lives : Event.restart ∉ events) :
    samplesOf (run (step exp ln sin cos means stds loaded) (start initial) events).learned ++
        (run (step exp ln sin cos means stds loaded) (start initial) events).pending =
      (run (step exp ln sin cos means stds loaded) (start initial) events).accumulated := by
  apply run_invariant (step exp ln sin cos means stds loaded)
    (fun world => samplesOf world.learned ++ world.pending = world.accumulated)
  · rfl
  · intro pair member whole
    have inside := trace_input _ _ events pair member
    rcases pair with ⟨world, event⟩
    cases event with
    | observe observation => exact whole
    | advance place =>
        rw [step]
        cases world.tasks[place]? with
        | none => exact whole
        | some task =>
            rcases task with ⟨seen, stage⟩
            cases stage with
            | count =>
                simp only [advance]
                split <;> exact whole
            | predict => exact whole
            | accumulate error =>
                simp only [advance, ← List.append_assoc]
                exact congrArg (· ++ _) whole
            | done => exact whole
    | applyGradients =>
        simp only [step]
        split
        · exact whole
        · simp only [samplesOf, List.flatMap_append, List.flatMap_cons, List.flatMap_nil,
            List.append_nil]
          exact whole
    | save =>
        rw [step]
        split <;> exact whole
    | restart => exact absurd inside lives

/-- The error of a report under the weights that some moment of the run had. -/
def ErrorOf (initial : ModelParams F) (events : List (Event F)) (seen : Observation F)
    (error : F) : Prop :=
  ∃ before, before <+: events ∧
    error = sub (dotSigmoid exp means stds
      (run (step exp ln sin cos means stds loaded) (start initial) before).model
      (features ln sin cos seen)) (label seen.landed)

theorem errorOf_append (initial : ModelParams F) (events later : List (Event F))
    (seen : Observation F) (error : F)
    (genuine : ErrorOf exp ln sin cos means stds loaded initial events seen error) :
    ErrorOf exp ln sin cos means stds loaded initial (events ++ later) seen error := by
  rcases genuine with ⟨before, sooner, same⟩
  exact ⟨before, sooner.trans (List.prefix_append _ _), same⟩

/-- A sample is the gradient at a reported route of three hops or more. -/
def GradientOf (initial : ModelParams F) (events : List (Event F)) (sample : Sample F) : Prop :=
  ∃ seen, Event.observe seen ∈ events ∧ loaded = true ∧ 3 ≤ seen.hops.length ∧
    ErrorOf exp ln sin cos means stds loaded initial events seen sample.error ∧
    sample.features = normalized means stds (features ln sin cos seen)

/-- What the reports under way hold, and what they have added. -/
structure Reported (initial : ModelParams F) (events : List (Event F)) (world : World F) :
    Prop where
  tasks : ∀ task ∈ world.tasks, Event.observe task.observation ∈ events ∧
    (task.stage = .predict → loaded = true ∧ 3 ≤ task.observation.hops.length) ∧
    ∀ error, task.stage = .accumulate error → loaded = true ∧ 3 ≤ task.observation.hops.length ∧
      ErrorOf exp ln sin cos means stds loaded initial events task.observation error
  samples : ∀ sample ∈ world.accumulated,
    GradientOf exp ln sin cos means stds loaded initial events sample

theorem reported_later (initial : ModelParams F) (events later : List (Event F))
    (world : World F) (reported : Reported exp ln sin cos means stds loaded initial events world) :
    Reported exp ln sin cos means stds loaded initial (events ++ later) world := by
  constructor
  · intro task member
    rcases reported.tasks task member with ⟨seen, ready, adds⟩
    refine ⟨List.mem_append_left _ seen, ready, ?_⟩
    intro error stage
    rcases adds error stage with ⟨loads, hops, genuine⟩
    exact ⟨loads, hops, errorOf_append exp ln sin cos means stds loaded _ _ _ _ _ genuine⟩
  · intro sample member
    rcases reported.samples sample member with ⟨seen, reports, loads, hops, genuine, same⟩
    exact ⟨seen, List.mem_append_left _ reports, loads, hops,
      errorOf_append exp ln sin cos means stds loaded _ _ _ _ _ genuine, same⟩

theorem reported_run (initial : ModelParams F) (events : List (Event F)) :
    Reported exp ln sin cos means stds loaded initial events
      (run (step exp ln sin cos means stds loaded) (start initial) events) := by
  induction events using List.reverseRecOn with
  | nil => exact ⟨by simp [start], by simp [start]⟩
  | append_singleton events event ih =>
      have later := reported_later exp ln sin cos means stds loaded initial events [event] _ ih
      rw [run_append, run_cons, run_nil]
      generalize reached : run (step exp ln sin cos means stds loaded) (start initial) events =
        world at later ⊢
      cases event with
      | observe observation =>
          refine ⟨?_, later.samples⟩
          intro task member
          rcases List.mem_append.mp member with old | new
          · exact later.tasks task old
          · rw [List.mem_singleton.mp new]
            exact ⟨List.mem_append_right _ List.mem_cons_self, (fun stage => by cases stage),
              (fun error stage => by cases stage)⟩
      | advance place =>
          rw [step]
          cases found : world.tasks[place]? with
          | none => exact later
          | some task =>
              rcases later.tasks task (List.mem_of_getElem? found) with ⟨seen, ready, adds⟩
              have tasks : ∀ next : Task F, next.observation = task.observation →
                  (next.stage = .predict → loaded = true ∧ 3 ≤ task.observation.hops.length) →
                  (∀ error, next.stage = .accumulate error →
                    loaded = true ∧ 3 ≤ task.observation.hops.length ∧
                    ErrorOf exp ln sin cos means stds loaded initial
                      (events ++ [.advance place]) task.observation error) →
                  ∀ other ∈ world.tasks.set place next,
                    Event.observe other.observation ∈ events ++ [.advance place] ∧
                    (other.stage = .predict →
                      loaded = true ∧ 3 ≤ other.observation.hops.length) ∧
                    ∀ error, other.stage = .accumulate error →
                      loaded = true ∧ 3 ≤ other.observation.hops.length ∧
                      ErrorOf exp ln sin cos means stds loaded initial
                        (events ++ [.advance place]) other.observation error := by
                intro next same first second other member
                rcases List.mem_or_eq_of_mem_set member with old | new
                · exact later.tasks other old
                · rw [new, same]
                  exact ⟨seen, first, second⟩
              rcases task with ⟨observation, stage⟩
              cases stage with
              | count =>
                  simp only [advance]
                  split
                  · exact ⟨tasks _ rfl (fun stage => by cases stage)
                      (fun error stage => by cases stage), later.samples⟩
                  · next passes =>
                      rw [not_or, Bool.not_eq_false, not_lt] at passes
                      exact ⟨tasks _ rfl (fun _ => passes) (fun error stage => by cases stage),
                        later.samples⟩
              | predict =>
                  simp only [advance]
                  refine ⟨tasks _ rfl (fun stage => by cases stage) ?_, later.samples⟩
                  intro error stage
                  cases stage
                  refine ⟨(ready rfl).1, (ready rfl).2, events, List.prefix_append _ _, ?_⟩
                  rw [reached]
              | accumulate error =>
                  simp only [advance]
                  refine ⟨tasks _ rfl (fun stage => by cases stage)
                    (fun error stage => by cases stage), ?_⟩
                  intro sample member
                  rcases List.mem_append.mp member with old | new
                  · exact later.samples sample old
                  · rcases adds error rfl with ⟨loads, hops, genuine⟩
                    rw [List.mem_singleton.mp new]
                    exact ⟨observation, seen, loads, hops, genuine, rfl⟩
              | done =>
                  simp only [advance]
                  exact ⟨tasks _ rfl (fun stage => by cases stage)
                    (fun error stage => by cases stage), later.samples⟩
      | applyGradients =>
          rw [step]
          split
          · exact later
          · exact ⟨later.tasks, later.samples⟩
      | save =>
          rw [step]
          split
          · exact ⟨later.tasks, later.samples⟩
          · exact later
      | restart => exact ⟨by simp [step], later.samples⟩

/-- In every interleaving of reports, updates, saves and restarts the weights are those of a
descent in batches from the weights first loaded. A sample is the gradient at a reported route
under weights the run had; it is in at most one batch, and while the process lives none is
left out. -/
theorem learns_each_once (initial : ModelParams F) (events : List (Event F)) :
    Descended initial (run (step exp ln sin cos means stds loaded) (start initial) events) ∧
    (∀ sample ∈ (run (step exp ln sin cos means stds loaded) (start initial) events).accumulated,
      GradientOf exp ln sin cos means stds loaded initial events sample) ∧
    (Event.restart ∉ events →
      samplesOf (run (step exp ln sin cos means stds loaded) (start initial) events).learned ++
          (run (step exp ln sin cos means stds loaded) (start initial) events).pending =
        (run (step exp ln sin cos means stds loaded) (start initial) events).accumulated) := by
  refine ⟨?_, (reported_run exp ln sin cos means stds loaded initial events).samples,
    all_learned exp ln sin cos means stds loaded initial events⟩
  exact run_invariant _ (Descended initial) _ events (descended_start initial)
    (fun pair _ descended => descended_step exp ln sin cos means stds loaded initial pair.1 pair.2
      descended)

end Descent

/-- A run from weights of nought, on routes of which every logarithm and every sine is nought. -/
def plainRun (events : List (Event Double)) : World Double :=
  run (step (fun _ => ofNat 1) (fun _ => ofNat 0) (fun _ => ofNat 0) (fun _ => ofNat 1)
    (fun _ => ofNat 0) (fun _ => ofNat 1) true) (start ⟨fun _ => ofNat 0, ofNat 0⟩) events

def plainRoute : Observation Double :=
  ⟨[⟨"a", 1, ofNat 0⟩, ⟨"b", 1, ofNat 0⟩, ⟨"c", 1, ofNat 0⟩], 1, 0, true⟩

def oneReport : List (Event Double) := [.observe plainRoute, .advance 0, .advance 0, .advance 0]

/-- Another report comes before the update and adds to the next one. -/
def updatedBetween : List (Event Double) :=
  oneReport ++ [.observe plainRoute, .advance 1, .applyGradients, .advance 1, .advance 1]

theorem learns_each_once_updatedBetween :
    samplesOf (plainRun updatedBetween).learned ++ (plainRun updatedBetween).pending =
      (plainRun updatedBetween).accumulated :=
  (learns_each_once (fun _ => ofNat 1) (fun _ => ofNat 0) (fun _ => ofNat 0) (fun _ => ofNat 1)
    (fun _ => ofNat 0) (fun _ => ofNat 1) true ⟨fun _ => ofNat 0, ofNat 0⟩ updatedBetween).2.2
    (by simp [updatedBetween, oneReport])

/-! The engine reports every route it emits as landed, so that the bias can only rise. -/

section Drift

variable (exp ln sin cos : Double → Double) (means stds : Features Double) (loaded : Bool)
  (positive : ∀ x, 0 ≤ (exp x).value)

include positive in
theorem dotSigmoid_le_one (model : ModelParams Double) (features : Features Double) :
    (dotSigmoid exp means stds model features).value ≤ 1 :=
  (Double.logistic_within _ (positive _)).2

theorem learningRate_nonneg (observations : Nat) :
    0 ≤ (learningRate observations : Double).value := by
  have counted : (0 : ℚ) ≤ (div (ofNat observations) (ofNat 100) : Double).value :=
    Double.round_nonneg _ (div_nonneg (Double.round_nonneg _ (Nat.cast_nonneg _))
      (Double.round_nonneg _ (by norm_num)))
  have one : (ofNat 1 : Double).value = 1 := Double.round_one
  apply Double.round_nonneg
  apply div_nonneg (Double.round_nonneg _ (by norm_num))
  exact Double.round_nonneg _ (by rw [one]; linarith)

/-- Errors that are not positive pull the bias up. -/
theorem bias_le_applied (model : ModelParams Double) (grad : GradAccum Double)
    (observations : Nat) (representable : Double.round model.bias.value = model.bias)
    (falls : grad.biasGrad.value ≤ 0) :
    model.bias.value ≤ (applied model grad observations).bias.value := by
  have mean : (div grad.biasGrad (ofNat grad.count) : Double).value ≤ 0 :=
    Double.round_nonpos _ (div_nonpos_of_nonpos_of_nonneg falls
      (Double.round_nonneg _ (Nat.cast_nonneg _)))
  have step : (mul (learningRate observations) (div grad.biasGrad (ofNat grad.count)) :
      Double).value ≤ 0 :=
    Double.round_nonpos _ (mul_nonpos_of_nonneg_of_nonpos (learningRate_nonneg observations) mean)
  exact Double.le_round_of_le _ _ representable (by linarith)

structure Falling (world : World Double) : Prop where
  tasks : ∀ task ∈ world.tasks, task.observation.landed = true ∧
    ∀ error, task.stage = .accumulate error → error.value ≤ 0
  grad : world.gradAccum.biasGrad.value ≤ 0
  bias : Double.round world.model.bias.value = world.model.bias
  savedBias : Double.round world.saved.bias.value = world.saved.bias

theorem noGradient_falls : (noGradient : GradAccum Double).biasGrad.value ≤ 0 := by
  decide +kernel

include positive in
theorem falling_step (world : World Double) (event : Event Double) (falling : Falling world)
    (lands : ∀ seen, event = .observe seen → seen.landed = true) :
    Falling (step exp ln sin cos means stds loaded world event) ∧
      (event ≠ .restart → world.model.bias.value ≤
        (step exp ln sin cos means stds loaded world event).model.bias.value) := by
  cases event with
  | observe observation =>
      refine ⟨{ falling with tasks := ?_ }, fun _ => le_rfl⟩
      intro task member
      rcases List.mem_append.mp member with old | new
      · exact falling.tasks task old
      · rw [List.mem_singleton.mp new]
        exact ⟨lands observation rfl, fun error stage => by cases stage⟩
  | advance place =>
      rw [step]
      cases found : world.tasks[place]? with
      | none => exact ⟨falling, fun _ => le_rfl⟩
      | some task =>
          rcases falling.tasks task (List.mem_of_getElem? found) with ⟨landed, low⟩
          have tasks : ∀ next : Task Double, next.observation = task.observation →
              (∀ error, next.stage = .accumulate error → error.value ≤ 0) →
              ∀ other ∈ world.tasks.set place next, other.observation.landed = true ∧
                ∀ error, other.stage = .accumulate error → error.value ≤ 0 := by
            intro next same falls other member
            rcases List.mem_or_eq_of_mem_set member with old | new
            · exact falling.tasks other old
            · rw [new, same]
              exact ⟨landed, falls⟩
          rcases task with ⟨observation, stage⟩
          cases stage with
          | count =>
              simp only [advance]
              split
              · exact ⟨{ falling with tasks := tasks _ rfl (fun error stage => by cases stage) },
                  fun _ => le_rfl⟩
              · exact ⟨{ falling with tasks := tasks _ rfl (fun error stage => by cases stage) },
                  fun _ => le_rfl⟩
          | predict =>
              simp only [advance]
              refine ⟨{ falling with tasks := tasks _ rfl ?_ }, fun _ => le_rfl⟩
              intro error stage
              cases stage
              have landed : observation.landed = true := landed
              have below := dotSigmoid_le_one exp means stds positive world.model
                (features ln sin cos observation)
              have one : (ofNat 1 : Double).value = 1 := Double.round_one
              apply Double.round_nonpos
              rw [label, if_pos landed, one]
              exact sub_nonpos.mpr below
          | accumulate error =>
              simp only [advance]
              refine ⟨{ falling with
                tasks := tasks _ rfl (fun error stage => by cases stage)
                grad := ?_ }, fun _ => le_rfl⟩
              exact Double.round_nonpos _ (add_nonpos falling.grad (low error rfl))
          | done =>
              simp only [advance]
              exact ⟨{ falling with tasks := tasks _ rfl (fun error stage => by cases stage) },
                fun _ => le_rfl⟩
  | applyGradients =>
      rw [step]
      split
      · exact ⟨falling, fun _ => le_rfl⟩
      · exact ⟨{ falling with grad := noGradient_falls, bias := Double.round_round _ },
          fun _ => bias_le_applied world.model world.gradAccum world.observations falling.bias
            falling.grad⟩
  | save =>
      rw [step]
      split
      · exact ⟨{ falling with savedBias := falling.bias }, fun _ => le_rfl⟩
      · exact ⟨falling, fun _ => le_rfl⟩
  | restart =>
      refine ⟨?_, fun impossible => absurd rfl impossible⟩
      exact ⟨by simp [step], noGradient_falls, falling.savedBias, falling.savedBias⟩

include positive in
theorem falling_run (initial : ModelParams Double)
    (representable : Double.round initial.bias.value = initial.bias)
    (events : List (Event Double))
    (lands : ∀ seen, Event.observe seen ∈ events → seen.landed = true) :
    Falling (run (step exp ln sin cos means stds loaded) (start initial) events) := by
  apply run_invariant (step exp ln sin cos means stds loaded) Falling
  · exact ⟨by simp [start], noGradient_falls, representable, representable⟩
  · intro pair member falling
    have inside := trace_input _ _ events pair member
    exact (falling_step exp ln sin cos means stds loaded positive pair.1 pair.2 falling
      (fun seen same => lands seen (same ▸ inside))).1

include positive in
/-- While a process lives and every report says that the route landed, the bias never falls. -/
theorem bias_never_falls (initial : ModelParams Double)
    (representable : Double.round initial.bias.value = initial.bias)
    (events more : List (Event Double))
    (lands : ∀ seen, Event.observe seen ∈ events ++ more → seen.landed = true)
    (lives : Event.restart ∉ more) :
    (run (step exp ln sin cos means stds loaded) (start initial) events).model.bias.value ≤
      (run (step exp ln sin cos means stds loaded) (start initial)
        (events ++ more)).model.bias.value := by
  rw [run_append]
  have falling := falling_run exp ln sin cos means stds loaded positive initial representable
    events (fun seen member => lands seen (List.mem_append_left _ member))
  generalize run (step exp ln sin cos means stds loaded) (start initial) events = world at falling ⊢
  have both : Falling (run (step exp ln sin cos means stds loaded) world more) ∧
      world.model.bias.value ≤
        (run (step exp ln sin cos means stds loaded) world more).model.bias.value := by
    apply run_invariant (step exp ln sin cos means stds loaded)
      (fun later => Falling later ∧ world.model.bias.value ≤ later.model.bias.value)
    · exact ⟨falling, le_rfl⟩
    · intro pair member held
      have inside := trace_input _ _ more pair member
      rcases falling_step exp ln sin cos means stds loaded positive pair.1 pair.2 held.1
        (fun seen same => lands seen (List.mem_append_right _ (same ▸ inside))) with ⟨next, rises⟩
      exact ⟨next, held.2.trans (rises (fun restarts => lives (restarts ▸ inside)))⟩
  exact both.2

end Drift

theorem bias_never_falls_oneReport :
    (plainRun oneReport).model.bias.value ≤
      (plainRun (oneReport ++ [.applyGradients])).model.bias.value ∧
    0 < (plainRun (oneReport ++ [.applyGradients])).model.bias.value :=
  ⟨bias_never_falls (fun _ => ofNat 1) (fun _ => ofNat 0) (fun _ => ofNat 0) (fun _ => ofNat 1)
      (fun _ => ofNat 0) (fun _ => ofNat 1) true (fun _ => by decide +kernel)
      ⟨fun _ => ofNat 0, ofNat 0⟩ (by decide +kernel) oneReport [.applyGradients]
      (by simp [oneReport, plainRoute]) (by simp),
    by decide +kernel⟩

end Helios.ThreeHopPredictor
