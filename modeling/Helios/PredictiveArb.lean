import Helios.FloatArith
import Helios.Runs
import Helios.SignalProcessor

/-! Activity windows of the predictive model. The times and the amounts are pruned once there are
more than 200 of them; the counters and the maximum never are. -/

namespace Helios.PredictiveArb

open Machine FloatArith Runs

def secs (count : Nat) : Nat := count * 10 ^ 9

/-- `PoolActivity`. -/
structure PoolActivity (F : Type) where
  swapTimes : List Instant
  swapAmounts : List Nat
  buys : Nat
  sells : Nat
  maxImpact : F
  lastUpdate : Instant

/-- A swap as it is observed. -/
structure Swap (F : Type) where
  amountIn : Nat
  aToB : Bool
  impactPct : F
  now : Instant

/-- `PredictiveArbModel`, without the pool cache, which it shares. -/
structure PredictiveArbModel (F : Type) where
  activity : HashMap Pubkey (PoolActivity F)
  weights : List F
  bias : F
  predictions : Nat
  alerts : Nat

structure ArbPrediction (F : Type) where
  pool : Pubkey
  score : F
  features : List F
  alert : Bool

section Windows

variable {F : Type} [FloatArith F]

namespace PoolActivity

def new (now : Instant) : PoolActivity F := ⟨[], [], 0, 0, ofNat 0, now⟩

/-- The vectors lose what is 30 seconds old. -/
def prune (entry : PoolActivity F) (now : Instant) : PoolActivity F :=
  let keepFrom := entry.swapTimes.findIdx (fun time => decide (now < time + secs 30))
  { entry with
    swapTimes := entry.swapTimes.drop keepFrom
    swapAmounts := entry.swapAmounts.drop (min keepFrom entry.swapAmounts.length) }

def velocity10s (entry : PoolActivity F) (now : Instant) : F :=
  div (ofNat (entry.swapTimes.filter (fun time => decide (now < time + secs 10))).length)
    (ofNat 10)

def directionalImbalance (entry : PoolActivity F) : F :=
  let total := wrap 32 (entry.buys + entry.sells)
  if total = 0 then ofNat 0
  else div (sub (ofNat entry.buys) (ofNat entry.sells)) (ofNat total)

def total30s (entry : PoolActivity F) : Nat := wrap 64 entry.swapAmounts.sum

def volumeSpike (entry : PoolActivity F) (now : Instant) : F :=
  if entry.swapAmounts.isEmpty then ofNat 0
  else
    let avgPer10s : F := div (ofNat entry.total30s) (ofNat 3)
    if le avgPer10s (ofNat 0) && le (ofNat 0) avgPer10s then ofNat 0
    else
      let recent := (entry.swapTimes.zip entry.swapAmounts).filter (fun pair =>
        decide (now < pair.1 + secs 10))
      div (ofNat (wrap 64 (recent.map Prod.snd).sum)) avgPer10s

end PoolActivity

/-- The loop of `burst_count_3s`: how many swaps come within 3 seconds of each. -/
def burstFrom : List Instant → Nat
  | [] => 0
  | time :: rest =>
      max (wrap 32 ((time :: rest).takeWhile (fun later => decide (later ≤ time + secs 3))).length)
        (burstFrom rest)

/-- Fewer than three swaps are not told apart. -/
def burstCount3s (swapTimes : List Instant) : Nat :=
  if swapTimes.length < 3 then wrap 32 swapTimes.length else burstFrom swapTimes

/-- The `if` of `observe_swap`. -/
def higherImpact (maxImpact : F) (swap : Swap F) : F :=
  if lt maxImpact swap.impactPct then swap.impactPct else maxImpact

def PoolActivity.observe (entry : PoolActivity F) (swap : Swap F) : PoolActivity F :=
  let entry :=
    { entry with
      swapTimes := entry.swapTimes ++ [swap.now]
      swapAmounts := entry.swapAmounts ++ [swap.amountIn]
      buys := if swap.aToB then wrap 32 (entry.buys + 1) else entry.buys
      sells := if swap.aToB then entry.sells else wrap 32 (entry.sells + 1)
      maxImpact := higherImpact entry.maxImpact swap
      lastUpdate := swap.now }
  if 200 < entry.swapTimes.length then entry.prune swap.now else entry

namespace PredictiveArbModel

def new : PredictiveArbModel F :=
  { activity := HashMap.empty
    weights := [ofNat 1, ofNat 2, ofRat (3 / 2), ofNat 1, ofRat (3 / 2), ofNat 2, ofNat 4,
      ofRat (-3 / 10)]
    bias := ofRat (-2)
    predictions := 0
    alerts := 0 }

def observeSwap (model : PredictiveArbModel F) (pool : Pubkey) (swap : Swap F) :
    PredictiveArbModel F :=
  let entry := (HashMap.get model.activity pool).getD (PoolActivity.new swap.now)
  { model with activity := model.activity.insert pool (entry.observe swap) }

/-- The pools that trade the token, less one. -/
def nCross (F : Type) [FloatArith F] (cache : PoolStateCache) (pool : Pubkey) : F :=
  match cache.get pool with
  | none => ofNat 0
  | some held =>
      let token := if held.tokenA = wsol then held.tokenB else held.tokenA
      sub (ofNat (cache.poolsForToken token).length) (ofNat 1)

variable (exp sin : F → F) (pi : F)

def negated (x : F) : F := sub (ofNat 0) x

/-- `elapsed().as_secs_f64()`. -/
def elapsedSecsF64 (F : Type) [FloatArith F] (since now : Instant) : F :=
  add (ofNat ((now - since) / 10 ^ 9)) (div (ofNat ((now - since) % 10 ^ 9)) (ofNat (10 ^ 9)))

def features (entry : PoolActivity F) (cache : PoolStateCache) (pool : Pubkey) (hour : Nat)
    (now : Instant) : List F :=
  let imbalance : F := entry.directionalImbalance
  [entry.velocity10s now,
    ofNat (burstCount3s entry.swapTimes),
    FloatArith.max imbalance (negated imbalance),
    entry.volumeSpike now,
    sin (div (mul (ofNat hour) pi) (ofNat 12)),
    div entry.maxImpact (ofNat 100),
    nCross F cache pool,
    negated (div (FloatArith.min (elapsedSecsF64 F entry.lastUpdate now) (ofNat 30)) (ofNat 30))]

/-- The prediction, and the model with its statistics. -/
def predict (model : PredictiveArbModel F) (cache : PoolStateCache) (pool : Pubkey) (hour : Nat)
    (now : Instant) : ArbPrediction F × PredictiveArbModel F :=
  let counted := { model with predictions := wrap 64 (model.predictions + 1) }
  match HashMap.get model.activity pool with
  | none => (⟨pool, ofNat 0, List.replicate 8 (ofNat 0), false⟩, counted)
  | some entry =>
      let features := features sin pi entry cache pool hour now
      let z := add model.bias
        ((features.zip model.weights).foldl (fun sum pair => add sum (mul pair.1 pair.2)) (ofNat 0))
      let score := div (ofNat 1) (add (ofNat 1) (exp (negated z)))
      let alert := lt (ofRat (6 / 10)) score &&
        (lt (ofNat 0) (nCross F cache pool) ||
          lt (ofNat 5 : F) (ofNat (burstCount3s entry.swapTimes)))
      (⟨pool, score, features, alert⟩,
        if alert then { counted with alerts := wrap 64 (counted.alerts + 1) } else counted)

end PredictiveArbModel

/-- A call of the model. -/
inductive Call (F : Type) where
  | observeSwap (pool : Pubkey) (swap : Swap F)
  | predict (pool : Pubkey) (cache : PoolStateCache) (hour : Nat) (now : Instant)

namespace Call

def now : Call F → Instant
  | .observeSwap _ swap => swap.now
  | .predict _ _ _ now => now

/-- The swap a call brings for a pool. -/
def swapOf (pool : Pubkey) : Call F → Option (Swap F)
  | .observeSwap address swap => if address = pool then some swap else none
  | .predict .. => none

end Call

section Calls

variable (exp sin : F → F) (pi : F)

def step (model : PredictiveArbModel F) : Call F → PredictiveArbModel F
  | .observeSwap pool swap => model.observeSwap pool swap
  | .predict pool cache hour now => (model.predict exp sin pi cache pool hour now).2

def afterCalls (calls : List (Call F)) : PredictiveArbModel F :=
  run (step exp sin pi) PredictiveArbModel.new calls

end Calls

/-- The swaps of a pool that calls bring. -/
def observed (pool : Pubkey) (calls : List (Call F)) : List (Swap F) :=
  calls.filterMap (Call.swapOf pool)

/-- The swaps of the last 30 seconds. -/
def window (now : Instant) (swaps : List (Swap F)) : List (Swap F) :=
  swaps.filter (fun swap => decide (now < swap.now + secs 30))

/-- What the features are computed from. -/
structure Inputs (F : Type) where
  burst : Nat
  buys : Nat
  sells : Nat
  maxImpact : F
  volume : Nat
  deriving DecidableEq

def PoolActivity.inputs (entry : PoolActivity F) : Inputs F :=
  ⟨burstCount3s entry.swapTimes, entry.buys, entry.sells, entry.maxImpact, entry.total30s⟩

/-- The same of swaps, over unbounded integers. -/
def inputsOf (swaps : List (Swap F)) : Inputs F where
  burst := burstCount3s (swaps.map Swap.now)
  buys := swaps.countP (fun swap => swap.aToB)
  sells := swaps.countP (fun swap => !swap.aToB)
  maxImpact := swaps.foldl higherImpact (ofNat 0)
  volume := (swaps.map Swap.amountIn).sum

/-- A prediction's inputs are those of the window, and the counters have not wrapped. -/
def HoldsWindow (swaps : List (Swap F)) (now : Instant) (entry : PoolActivity F) : Prop :=
  entry.inputs = inputsOf (window now swaps) ∧ swaps.length < 2 ^ 32

/-- Every swap seen is of the last 30 seconds, and there are not too many for the words. -/
def Recent (swaps : List (Swap F)) (now : Instant) : Prop :=
  (∀ swap ∈ swaps, now < swap.now + secs 30) ∧ swaps.length < 2 ^ 32 ∧
    (swaps.map Swap.amountIn).sum < 2 ^ 64

/-! What an entry keeps of the swaps it was told of. -/

structure Held (swaps : List (Swap F)) (entry : PoolActivity F) : Prop where
  buys : entry.buys = wrap 32 (swaps.countP (fun swap => swap.aToB))
  sells : entry.sells = wrap 32 (swaps.countP (fun swap => !swap.aToB))
  maxImpact : entry.maxImpact = swaps.foldl higherImpact (ofNat 0)
  lastUpdate : ∀ last ∈ swaps.getLast?, entry.lastUpdate = last.now
  vectors : ∃ dropped kept, swaps = dropped ++ kept ∧
    entry.swapTimes = kept.map Swap.now ∧ entry.swapAmounts = kept.map Swap.amountIn ∧
    ∀ swap ∈ dropped, swap.now + secs 30 ≤ entry.lastUpdate

theorem held_new (now : Instant) : Held ([] : List (Swap F)) (PoolActivity.new now) := by
  refine ⟨rfl, rfl, rfl, ?_, [], [], rfl, rfl, rfl, ?_⟩
  · rintro last ⟨⟩
  · intro swap member
    cases member

/-- Nothing before the first that passes does. -/
theorem not_of_mem_take_findIdx {α : Type} (passes : α → Bool) (entries : List α) (entry : α)
    (member : entry ∈ entries.take (entries.findIdx passes)) : passes entry = false := by
  induction entries with
  | nil => cases member
  | cons first rest ih =>
      rw [List.findIdx_cons] at member
      cases first_ : passes first with
      | true =>
          rw [first_] at member
          cases member
      | false =>
          rw [first_, cond_false, List.take_succ_cons] at member
          rcases List.mem_cons.mp member with same | later
          · rw [same]
            exact first_
          · exact ih later

/-- Pruning drops both vectors at one place, and only what is 30 seconds old. -/
theorem held_prune (swaps : List (Swap F)) (entry : PoolActivity F) (held : Held swaps entry) :
    Held swaps (entry.prune entry.lastUpdate) := by
  rcases held.vectors with ⟨dropped, kept, split, times, amounts, old⟩
  refine ⟨held.buys, held.sells, held.maxImpact, held.lastUpdate, ?_⟩
  have inside : entry.swapTimes.findIdx (fun time => decide (entry.lastUpdate < time + secs 30)) ≤
      entry.swapTimes.length := List.findIdx_le_length
  have expired := not_of_mem_take_findIdx
    (fun time => decide (entry.lastUpdate < time + secs 30)) entry.swapTimes
  rw [PoolActivity.prune]
  dsimp only
  generalize entry.swapTimes.findIdx (fun time => decide (entry.lastUpdate < time + secs 30)) =
    keepFrom at inside expired ⊢
  rw [times, List.length_map] at inside
  refine ⟨dropped ++ kept.take keepFrom, kept.drop keepFrom, ?_, ?_, ?_, ?_⟩
  · rw [List.append_assoc, List.take_append_drop]
    exact split
  · rw [times, List.map_drop]
  · rw [amounts, List.length_map, min_eq_left inside, List.map_drop]
  · intro swap member
    rcases List.mem_append.mp member with before | pruned
    · exact old swap before
    · have time : swap.now ∈ entry.swapTimes.take keepFrom := by
        rw [times, ← List.map_take]
        exact List.mem_map_of_mem pruned
      exact not_lt.mp (of_decide_eq_false (expired swap.now time))

theorem held_observe (swaps : List (Swap F)) (entry : PoolActivity F) (swap : Swap F)
    (held : Held swaps entry) (later : entry.lastUpdate ≤ swap.now) :
    Held (swaps ++ [swap]) (entry.observe swap) := by
  rcases held.vectors with ⟨dropped, kept, split, times, amounts, old⟩
  have pushed : Held (swaps ++ [swap])
      { entry with
        swapTimes := entry.swapTimes ++ [swap.now]
        swapAmounts := entry.swapAmounts ++ [swap.amountIn]
        buys := if swap.aToB then wrap 32 (entry.buys + 1) else entry.buys
        sells := if swap.aToB then entry.sells else wrap 32 (entry.sells + 1)
        maxImpact := higherImpact entry.maxImpact swap
        lastUpdate := swap.now } := by
    constructor
    · rw [List.countP_append, List.countP_singleton]
      dsimp only
      rw [held.buys]
      split
      · exact Nat.mod_add_mod _ _ _
      · rfl
    · rw [List.countP_append, List.countP_singleton]
      dsimp only
      rw [held.sells]
      cases swap.aToB with
      | true => rfl
      | false => exact Nat.mod_add_mod _ _ _
    · rw [List.foldl_append, ← held.maxImpact]
      rfl
    · intro last final
      rw [List.getLast?_concat] at final
      cases final
      rfl
    · refine ⟨dropped, kept ++ [swap], ?_, ?_, ?_, ?_⟩
      · rw [split, List.append_assoc]
      · rw [List.map_append, ← times]
        rfl
      · rw [List.map_append, ← amounts]
        rfl
      · intro earlier member
        exact (old earlier member).trans later
  rw [PoolActivity.observe]
  dsimp only
  split
  · exact held_prune _ _ pushed
  · exact pushed

omit [FloatArith F] in
/-- The counters tell swaps apart that the window does not hold. -/
theorem window_eq_of_counts (swaps : List (Swap F)) (now : Instant)
    (buys : swaps.countP (fun swap => swap.aToB) =
      (window now swaps).countP (fun swap => swap.aToB))
    (sells : swaps.countP (fun swap => !swap.aToB) =
      (window now swaps).countP (fun swap => !swap.aToB)) : window now swaps = swaps := by
  have split : ∀ swaps : List (Swap F), swaps.length =
      swaps.countP (fun swap => swap.aToB) + swaps.countP (fun swap => !swap.aToB) := by
    intro swaps
    simpa using List.length_eq_countP_add_countP (fun swap : Swap F => swap.aToB)
  apply List.filter_eq_self.mpr
  apply List.length_filter_eq_length_iff.mp
  rw [split swaps, buys, sells]
  exact split (window now swaps)

/-- What a prediction reads is the window exactly if all the swaps are recent. -/
theorem holdsWindow_iff (swaps : List (Swap F)) (entry : PoolActivity F) (now : Instant)
    (held : Held swaps entry) (later : entry.lastUpdate ≤ now) :
    HoldsWindow swaps now entry ↔ Recent swaps now := by
  rcases held.vectors with ⟨dropped, kept, split, times, amounts, old⟩
  have nothing : window now swaps = swaps → kept = swaps := by
    intro whole
    have none_ : dropped = [] := by
      rw [List.eq_nil_iff_forall_not_mem]
      intro swap member
      have inWindow : swap ∈ window now swaps := by
        rw [whole, split]
        exact List.mem_append_left kept member
      have expired := old swap member
      have recent := of_decide_eq_true (List.mem_filter.mp inWindow).2
      exact absurd recent (not_lt.mpr (expired.trans later))
    rw [split, none_, List.nil_append]
  constructor
  · rintro ⟨inputs, few⟩
    rw [PoolActivity.inputs, inputsOf, Inputs.mk.injEq] at inputs
    rcases inputs with ⟨-, buys, sells, -, volume⟩
    have counted : ∀ passes : Swap F → Bool, wrap 32 (swaps.countP passes) =
        swaps.countP passes := by
      intro passes
      exact wrap_of_lt 32 _ (lt_of_le_of_lt List.countP_le_length few)
    rw [held.buys, counted] at buys
    rw [held.sells, counted] at sells
    have whole := window_eq_of_counts swaps now buys sells
    refine ⟨?_, few, ?_⟩
    · intro swap member
      rw [← whole] at member
      exact of_decide_eq_true (List.mem_filter.mp member).2
    · rw [whole] at volume
      rw [← volume]
      exact Nat.mod_lt _ (by norm_num)
  · rintro ⟨recent, few, small⟩
    have whole : window now swaps = swaps :=
      List.filter_eq_self.mpr (fun swap member => decide_eq_true (recent swap member))
    have all := nothing whole
    refine ⟨?_, few⟩
    have counted : ∀ passes : Swap F → Bool, wrap 32 (swaps.countP passes) =
        swaps.countP passes := by
      intro passes
      exact wrap_of_lt 32 _ (lt_of_le_of_lt List.countP_le_length few)
    rw [whole, PoolActivity.inputs, PoolActivity.total30s, times, amounts, all, held.buys, held.sells,
      held.maxImpact, counted, counted, wrap_of_lt 64 _ small]
    rfl

/-- An entry and the swaps of its pool. -/
def Tracks (swaps : List (Swap F)) : Option (PoolActivity F) → Prop
  | none => swaps = []
  | some entry => swaps ≠ [] ∧ Held swaps entry

section Run

variable (exp sin : F → F) (pi : F)

theorem afterCalls_concat (calls : List (Call F)) (call : Call F) :
    afterCalls exp sin pi (calls ++ [call]) = step exp sin pi (afterCalls exp sin pi calls) call :=
  run_append _ _ _ _

omit [FloatArith F] in
theorem observed_concat (pool : Pubkey) (calls : List (Call F)) (call : Call F) :
    observed pool (calls ++ [call]) = observed pool calls ++ (call.swapOf pool).toList := by
  rw [observed, List.filterMap_append]
  cases swap_ : call.swapOf pool with
  | none => simp [observed, swap_]
  | some swap => simp [observed, swap_]

/-- The last update of an entry is the time of a call. -/
theorem lastUpdate_of_tracks (pool : Pubkey) (calls : List (Call F)) (entry : PoolActivity F)
    (tracks : Tracks (observed pool calls) (some entry)) :
    ∃ call ∈ calls, entry.lastUpdate = call.now := by
  rcases tracks with ⟨some_, held⟩
  have final := List.getLast?_eq_some_getLast some_
  rcases List.mem_filterMap.mp (List.getLast_mem some_) with ⟨call, member, swap⟩
  refine ⟨call, member, ?_⟩
  rw [held.lastUpdate _ final]
  cases call with
  | observeSwap address own =>
      rw [Call.swapOf] at swap
      split at swap
      · rw [← Option.some.inj swap]
        rfl
      · cases swap
  | predict address cache hour now => cases swap

/-- A prediction leaves the activity as it is. -/
theorem activity_predict (model : PredictiveArbModel F) (cache : PoolStateCache) (pool : Pubkey)
    (hour : Nat) (now : Instant) :
    (model.predict exp sin pi cache pool hour now).2.activity = model.activity := by
  rw [PredictiveArbModel.predict]
  dsimp only
  split
  · rfl
  · dsimp only
    split
    · rfl
    · rfl

theorem tracks_afterCalls (calls : List (Call F))
    (ordered : calls.Pairwise (fun earlier later => earlier.now ≤ later.now)) (pool : Pubkey) :
    Tracks (observed pool calls) (HashMap.get (afterCalls exp sin pi calls).activity pool) := by
  induction calls using List.reverseRecOn with
  | nil => exact HashMap.get_empty pool ▸ rfl
  | append_singleton calls call ih =>
      rw [List.pairwise_append] at ordered
      have before := ih ordered.1
      have last := fun earlier member => ordered.2.2 earlier member call (List.mem_singleton_self _)
      rw [afterCalls_concat, observed_concat]
      cases call with
      | predict address cache hour now =>
          rw [step, activity_predict]
          rw [Call.swapOf, Option.toList_none, List.append_nil]
          exact before
      | observeSwap address swap =>
          rw [step, PredictiveArbModel.observeSwap]
          dsimp only
          by_cases own : address = pool
          · rw [own, Call.swapOf, if_pos rfl, HashMap.get_insert]
            refine ⟨by simp, ?_⟩
            cases cached : HashMap.get (afterCalls exp sin pi calls).activity pool with
            | none =>
                rw [cached] at before
                have empty : observed pool calls = [] := before
                rw [empty]
                exact held_observe _ _ swap (held_new swap.now) (Nat.le_refl _)
            | some entry =>
                rw [cached] at before
                rcases lastUpdate_of_tracks pool calls entry before with ⟨earlier, member, same⟩
                apply held_observe _ _ swap before.2
                rw [same]
                exact last earlier member
          · rw [Call.swapOf, if_neg own, Option.toList_none, List.append_nil,
              HashMap.get_insert_ne _ _ _ _ (fun same => own same.symm)]
            exact before

/-- Predictions read the windows exactly if none comes when a swap of its pool is 30 seconds old
or the swaps are too many for the words. -/
theorem windows_hold_iff (calls : List (Call F))
    (ordered : calls.Pairwise (fun earlier later => earlier.now ≤ later.now)) :
    (∀ before pool cache hour now later,
        calls = before ++ .predict pool cache hour now :: later →
        ∀ entry, HashMap.get (afterCalls exp sin pi before).activity pool = some entry →
          HoldsWindow (observed pool before) now entry) ↔
      ∀ before pool cache hour now later,
        calls = before ++ .predict pool cache hour now :: later →
          Recent (observed pool before) now := by
  refine forall_congr' (fun before => forall_congr' (fun pool => forall_congr' (fun cache =>
    forall_congr' (fun hour => forall_congr' (fun now => forall_congr' (fun later =>
      imp_congr_right (fun split => ?_)))))))
  rw [split, List.pairwise_append] at ordered
  have tracks := tracks_afterCalls exp sin pi before ordered.1 pool
  cases cached : HashMap.get (afterCalls exp sin pi before).activity pool with
  | none =>
      rw [cached] at tracks
      have empty : observed pool before = [] := tracks
      rw [empty]
      refine iff_of_true ?_ ⟨?_, by norm_num, by norm_num⟩
      · rintro entry ⟨⟩
      · intro swap member
        cases member
  | some entry =>
      rw [cached] at tracks
      rcases lastUpdate_of_tracks pool before entry tracks with ⟨call, member, same⟩
      have reached : entry.lastUpdate ≤ now := by
        rw [same]
        exact ordered.2.2 call member _ List.mem_cons_self
      have iff_ := holdsWindow_iff (observed pool before) entry now tracks.2 reached
      constructor
      · intro holds
        exact iff_.mp (holds entry rfl)
      · rintro recent other ⟨⟩
        exact iff_.mpr recent

end Run

end Windows

/-! One swap, and a prediction 31 seconds after it. -/

def oneBuy : Swap Double := ⟨1000000000, true, ofNat 5, 0⟩

def oneSwap : Call Double := .observeSwap (.ofNat 1) oneBuy

def predictAt (now : Instant) : Call Double := .predict (.ofNat 1) PoolStateCache.new 14 now

/-- The window is empty, and the entry still says a burst of one, one buy, all of one side, an
impact of 5 and a volume of 1 SOL. -/
theorem expired_swap_counted :
    (¬ ∀ before pool cache hour now later,
      [oneSwap, predictAt (secs 31)] = before ++ .predict pool cache hour now :: later →
      ∀ entry, HashMap.get (afterCalls id id (ofNat 3) before).activity pool = some entry →
        HoldsWindow (observed pool before) now entry) ∧
      window (secs 31) (observed (.ofNat 1) [oneSwap]) = [] ∧
      ∃ entry, HashMap.get (afterCalls id id (ofNat 3) [oneSwap]).activity (.ofNat 1) =
          some entry ∧
        entry.inputs = ⟨1, 1, 0, ofNat 5, 1000000000⟩ ∧
        entry.directionalImbalance = (ofNat 1 : Double) := by
  have entry : HashMap.get (afterCalls id id (ofNat 3) [oneSwap]).activity (.ofNat 1) =
      some ((PoolActivity.new 0).observe oneBuy) := HashMap.get_insert _ _ _
  have expired : window (secs 31) (observed (.ofNat 1) [oneSwap]) = [] := by
    change window (secs 31) [oneBuy] = []
    simp [window, oneBuy, secs]
  refine ⟨?_, expired, _, entry, by decide +kernel, by decide +kernel⟩
  intro holds
  have read := holds [oneSwap] (.ofNat 1) PoolStateCache.new 14 (secs 31) [] rfl _ entry
  have buys := congrArg Inputs.buys read.1
  rw [expired] at buys
  exact absurd buys (by decide +kernel)

theorem windows_hold_iff_oneSwap :
    (∀ before pool cache hour now later,
        [oneSwap, predictAt (secs 10)] = before ++ .predict pool cache hour now :: later →
        ∀ entry, HashMap.get (afterCalls id id (ofNat 3) before).activity pool = some entry →
          HoldsWindow (observed pool before) now entry) ↔
      ∀ before pool cache hour now later,
        [oneSwap, predictAt (secs 10)] = before ++ .predict pool cache hour now :: later →
          Recent (observed pool before) now :=
  windows_hold_iff id id (ofNat 3) [oneSwap, predictAt (secs 10)]
    (List.pairwise_pair.mpr (Nat.zero_le _))

end Helios.PredictiveArb
