import Helios.NewPoolMonitor
import Helios.PairIndex

/-! The watch list between two threads. The signal processor adds graduated tokens and
looks up the tokens of each created pool; the route engine visits the list and drops what
has expired. Reading an entry, scanning and removing it are steps of their own. -/

namespace Helios.SecondPools

open NewPoolMonitor Runs

variable {F : Type}

/-- Another pool of the token than the watched one is cached. -/
def OtherPool (cache : PoolStateCache) (tokenMint : Pubkey) (watched : WatchedToken) : Prop :=
  ∃ pool ∈ cache.poolsForToken tokenMint, pool.poolAddress ≠ watched.pumpswapPool

instance (cache : PoolStateCache) (tokenMint : Pubkey) (watched : WatchedToken) :
    Decidable (OtherPool cache tokenMint watched) := by
  unfold OtherPool
  infer_instance

/-- The time of a token on the list, from its insertion to its removal. -/
structure Watch (F : Type) where
  /-- Another pool was cached while the entry was younger than 24 h. -/
  seen : Bool
  opportunities : List (SecondPoolArbOpportunity F)

def fresh : Watch F := ⟨false, []⟩

structure Ended (F : Type) where
  watch : Watch F
  /-- The entry was older than 24 h when it was removed. -/
  expired : Bool

/-- The signal processor between two steps. -/
inductive Processor where
  | idle
  | graduating (tokenMint : Pubkey) (entry : WatchedToken)
  | detected (now : Instant) (tokenMint : Pubkey) (watched : WatchedToken) (newPool : Pubkey)
      (dex : DexType)

/-- The route engine between two steps. -/
inductive Checker (F : Type) where
  | idle
  | visiting (due visited : List Pubkey) (checked : Checked F)
  | removing (left : List Pubkey) (opportunities : List (SecondPoolArbOpportunity F))

namespace Checker

/-- The opportunities found and not passed on yet. -/
def found : Checker F → List (SecondPoolArbOpportunity F)
  | .idle => []
  | .visiting _ _ checked => checked.opportunities
  | .removing _ opportunities => opportunities

/-- The tokens still to be removed. -/
def marked : Checker F → List Pubkey
  | .idle => []
  | .visiting _ _ checked => checked.toRemove
  | .removing left _ => left

end Checker

structure Watching (F : Type) where
  now : Instant
  cache : PoolStateCache
  monitor : NewPoolMonitor
  processor : Processor
  checker : Checker F
  watches : Pubkey → Watch F
  ended : List (Ended F)
  /-- The opportunities whose routes the route engine has. -/
  handed : List (SecondPoolArbOpportunity F)
  /-- The opportunities that were only logged. -/
  discarded : List (SecondPoolArbOpportunity F)
  /-- The tokens passed over though another pool was cached. -/
  missed : List Pubkey

inductive Event (F : Type) where
  | tick (now : Instant)
  /-- A pool is inserted or hydrated. -/
  | writeCache (cache : PoolStateCache)
  | graduate (tokenMint pumpswapPool : Pubkey) (slot : Nat)
  | insertGraduated
  | detect (tokenMint newPool : Pubkey) (dex : DexType)
  | finishDetect (routes : List (RouteParams F))
  | beginCheck
  | visit (tokenMint : Pubkey) (routes : List (RouteParams F))
  | endVisits
  | remove
  | handOn
  | cleanup

/-- Note the other pools that are cached. -/
def observe (state : Watching F) : Watching F :=
  { state with watches := fun tokenMint =>
      match HashMap.get state.monitor tokenMint with
      | none => state.watches tokenMint
      | some watched =>
          if ¬ Expired state.now watched ∧ OtherPool state.cache tokenMint watched then
            { state.watches tokenMint with seen := true }
          else state.watches tokenMint }

/-- A token leaves the list. -/
def drop (state : Watching F) (tokenMint : Pubkey) : Watching F :=
  match HashMap.get state.monitor tokenMint with
  | none => state
  | some watched =>
      { state with
        monitor := state.monitor.erase tokenMint
        watches := Function.update state.watches tokenMint fresh
        ended := state.ended ++
          [⟨state.watches tokenMint, decide (Expired state.now watched)⟩] }

def visitStep (state : Watching F) (due visited : List Pubkey) (checked : Checked F)
    (tokenMint : Pubkey) (watched : WatchedToken) (routes : List (RouteParams F)) : Watching F :=
  let added := foundFor state.now state.cache (fun _ _ => routes) tokenMint watched
  { state with
    checker := .visiting due (visited ++ [tokenMint])
      (checkToken state.now state.cache (fun _ _ => routes) tokenMint watched checked)
    watches := Function.update state.watches tokenMint
      { state.watches tokenMint with
        opportunities := (state.watches tokenMint).opportunities ++ added.toList }
    missed :=
      if ¬ Expired state.now watched ∧ OtherPool state.cache tokenMint watched ∧
          added.isNone = true then
        state.missed ++ [tokenMint]
      else state.missed }

/-- The tokens that have expired by now, in the order of the list. -/
def expiredTokens (state : Watching F) : List Pubkey :=
  state.monitor.keys.filter (fun tokenMint =>
    ((HashMap.get state.monitor tokenMint).map (fun watched =>
      decide (Expired state.now watched))).getD false)

def step (state : Watching F) : Event F → Except Unit (Watching F)
  | .tick now => if state.now ≤ now then .ok { state with now } else .error ()
  | .writeCache cache => .ok (observe { state with cache })
  | .graduate tokenMint pumpswapPool slot =>
      match state.processor with
      | .idle =>
          match graduationEntry state.now state.cache tokenMint pumpswapPool slot with
          | none => .ok state
          | some entry => .ok { state with processor := .graduating tokenMint entry }
      | _ => .error ()
  | .insertGraduated =>
      match state.processor with
      | .graduating tokenMint entry =>
          .ok (observe { state with
            monitor := state.monitor.insert tokenMint { entry with graduatedAt := state.now }
            processor := .idle })
      | _ => .error ()
  | .detect tokenMint newPool dex =>
      match state.processor with
      | .idle =>
          match HashMap.get state.monitor tokenMint with
          | none => .ok state
          | some watched =>
              .ok { state with processor := .detected state.now tokenMint watched newPool dex }
      | _ => .error ()
  | .finishDetect routes =>
      match state.processor with
      | .detected now tokenMint watched newPool dex =>
          .ok { drop state tokenMint with
            processor := .idle
            discarded := state.discarded ++
              [opportunityOf now tokenMint watched newPool dex routes] }
      | _ => .error ()
  | .beginCheck =>
      match state.checker with
      | .idle => .ok { state with checker := .visiting state.monitor.keys [] ⟨[], []⟩ }
      | _ => .error ()
  | .visit tokenMint routes =>
      match state.checker, HashMap.get state.monitor tokenMint with
      | .visiting due visited checked, some watched =>
          if tokenMint ∈ visited then .error ()
          else .ok (visitStep state due visited checked tokenMint watched routes)
      | _, _ => .error ()
  | .endVisits =>
      match state.checker with
      | .visiting due visited checked =>
          if ∀ tokenMint ∈ due, tokenMint ∈ visited ∨ HashMap.get state.monitor tokenMint = none then
            .ok { state with checker := .removing checked.toRemove checked.opportunities }
          else .error ()
      | _ => .error ()
  | .remove =>
      match state.checker with
      | .removing (tokenMint :: left) opportunities =>
          .ok { drop state tokenMint with checker := .removing left opportunities }
      | _ => .error ()
  | .handOn =>
      match state.checker with
      | .removing [] opportunities =>
          .ok { state with checker := .idle, handed := state.handed ++ opportunities }
      | _ => .error ()
  | .cleanup =>
      match state.checker with
      | .idle => .ok ((expiredTokens state).foldl drop state)
      | _ => .error ()

def start (now : Instant) (cache : PoolStateCache) : Watching F where
  now := now
  cache := cache
  monitor := HashMap.empty
  processor := .idle
  checker := .idle
  watches := fun _ => fresh
  ended := []
  handed := []
  discarded := []
  missed := []

/-! Without other steps between them, the steps are the source's operations. -/

theorem detect_run (state : Watching F) (tokenMint newPool : Pubkey) (dex : DexType)
    (scan : Pubkey → WatchedToken → List (RouteParams F)) (watched : WatchedToken)
    (idle : state.processor = .idle)
    (listed : HashMap.get state.monitor tokenMint = some watched) :
    ∃ next, [Event.detect tokenMint newPool dex, .finishDetect (scan tokenMint watched)].foldlM step
        state = .ok next ∧
      next.monitor =
        (onNewPoolDetected state.now scan state.monitor tokenMint newPool dex).1 ∧
      next.discarded = state.discarded ++
        (onNewPoolDetected state.now scan state.monitor tokenMint newPool dex).2.toList := by
  have whole : onNewPoolDetected state.now scan state.monitor tokenMint newPool dex =
      (state.monitor.erase tokenMint,
        some (opportunityOf state.now tokenMint watched newPool dex (scan tokenMint watched))) := by
    rw [onNewPoolDetected, listed]
  have first : step state (.detect tokenMint newPool dex) =
      .ok { state with processor := .detected state.now tokenMint watched newPool dex } := by
    rw [step, idle]
    dsimp only
    rw [listed]
  rw [List.foldlM_cons, first, whole]
  refine ⟨_, rfl, ?_, rfl⟩
  dsimp only
  rw [drop, listed]

theorem monitor_drop (state : Watching F) (tokenMint : Pubkey) :
    (drop state tokenMint).monitor = state.monitor.erase tokenMint := by
  cases listed : HashMap.get state.monitor tokenMint with
  | none =>
      rw [drop, listed]
      apply AList.ext
      exact (List.kerase_of_notMem_keys (AList.lookup_eq_none.mp listed)).symm
  | some watched => rw [drop, listed]

/-- The visits of a check, in the order of the list. -/
def visits (scan : Pubkey → WatchedToken → List (RouteParams F))
    (entries : List (Sigma (fun _ : Pubkey => WatchedToken))) : List (Event F) :=
  entries.map (fun entry => .visit entry.1 (scan entry.1 entry.2))

theorem visit_all (scan : Pubkey → WatchedToken → List (RouteParams F)) (due : List Pubkey)
    (rest : List (Sigma (fun _ : Pubkey => WatchedToken))) (state : Watching F)
    (visited : List Pubkey) (checked : Checked F)
    (checker : state.checker = .visiting due visited checked)
    (listed : ∀ entry ∈ rest, HashMap.get state.monitor entry.1 = some entry.2)
    (distinct : (visited ++ rest.map Sigma.fst).Nodup) :
    ∃ next, (visits scan rest).foldlM step state = .ok next ∧
      next.monitor = state.monitor ∧ next.handed = state.handed ∧
      next.checker = .visiting due (visited ++ rest.map Sigma.fst)
        (rest.foldl (fun checked entry =>
          checkToken state.now state.cache scan entry.1 entry.2 checked) checked) := by
  induction rest generalizing state visited checked with
  | nil =>
      refine ⟨state, rfl, rfl, rfl, ?_⟩
      rw [checker, List.map_nil, List.append_nil, List.foldl_nil]
  | cons entry rest ih =>
      have unvisited : entry.1 ∉ visited := by
        intro member
        exact (List.nodup_append.mp distinct).2.2 entry.1 member entry.1
          (List.mem_cons_self) rfl
      have first : step state (.visit entry.1 (scan entry.1 entry.2)) =
          .ok (visitStep state due visited checked entry.1 entry.2 (scan entry.1 entry.2)) := by
        rw [step, checker, listed entry List.mem_cons_self]
        exact if_neg unvisited
      rcases ih (visitStep state due visited checked entry.1 entry.2 (scan entry.1 entry.2))
        (visited ++ [entry.1])
        (checkToken state.now state.cache scan entry.1 entry.2 checked) rfl
        (fun other member => listed other (List.mem_cons_of_mem _ member))
        (by rw [List.append_assoc]; exact distinct) with ⟨next, ran, monitor, handed, after⟩
      refine ⟨next, ?_, monitor, handed, ?_⟩
      · rw [visits, List.map_cons, List.foldlM_cons, first]
        exact ran
      · rw [after, List.append_assoc]
        rfl

theorem remove_all (left : List Pubkey) (state : Watching F)
    (opportunities : List (SecondPoolArbOpportunity F))
    (checker : state.checker = .removing left opportunities) :
    ∃ next, (List.replicate left.length (Event.remove : Event F)).foldlM step state = .ok next ∧
      next.monitor = left.foldl (fun monitor mint => monitor.erase mint) state.monitor ∧
      next.handed = state.handed ∧ next.checker = .removing [] opportunities := by
  induction left generalizing state with
  | nil => exact ⟨state, rfl, rfl, rfl, checker⟩
  | cons tokenMint left ih =>
      rcases ih { drop state tokenMint with checker := .removing left opportunities } rfl with
        ⟨next, ran, monitor, handed, after⟩
      refine ⟨next, ?_, ?_, ?_, after⟩
      · rw [List.length_cons, List.replicate_succ, List.foldlM_cons, step, checker]
        exact ran
      · rw [monitor, List.foldl_cons]
        dsimp only
        rw [monitor_drop]
      · rw [handed, drop]
        split
        · rfl
        · rfl

/-- A check without other steps in between is `check_watched_tokens`. -/
theorem check_run (scan : Pubkey → WatchedToken → List (RouteParams F)) (state : Watching F)
    (idle : state.checker = .idle) :
    ∃ removals : Nat, ∃ next,
      (Event.beginCheck :: (visits scan state.monitor.entries ++
        Event.endVisits :: (List.replicate removals Event.remove ++ [Event.handOn]))).foldlM step
          state = .ok next ∧
      next.monitor = (checkWatchedTokens state.now state.cache scan state.monitor).1 ∧
      next.handed = state.handed ++
        (checkWatchedTokens state.now state.cache scan state.monitor).2 := by
  have begun : step state .beginCheck =
      .ok { state with checker := .visiting state.monitor.keys [] ⟨[], []⟩ } := by
    rw [step, idle]
  rcases visit_all scan state.monitor.keys state.monitor.entries
    { state with checker := .visiting state.monitor.keys [] ⟨[], []⟩ } [] ⟨[], []⟩ rfl
    (fun entry member => AList.mem_lookup_iff.mpr member) state.monitor.nodupKeys with
    ⟨visited, visiting, monitor, handed, checker⟩
  generalize found : state.monitor.entries.foldl (fun checked entry =>
    checkToken state.now state.cache scan entry.1 entry.2 checked) ⟨[], []⟩ = checked at checker
  have ended : step visited .endVisits =
      .ok { visited with checker := .removing checked.toRemove checked.opportunities } := by
    rw [step, checker]
    exact if_pos (fun tokenMint member => Or.inl member)
  rcases remove_all checked.toRemove
    { visited with checker := .removing checked.toRemove checked.opportunities }
    checked.opportunities rfl with ⟨removed, removes, erased, kept, last⟩
  have passed : step removed .handOn =
      .ok { removed with checker := .idle, handed := removed.handed ++ checked.opportunities } := by
    rw [step, last]
  refine ⟨checked.toRemove.length,
    { removed with checker := .idle, handed := removed.handed ++ checked.opportunities }, ?_, ?_, ?_⟩
  · rw [List.foldlM_cons, begun]
    change (visits scan _ ++ _).foldlM step _ = _
    rw [List.foldlM_append, visiting]
    change (Event.endVisits :: _).foldlM step visited = _
    rw [List.foldlM_cons, ended]
    change (List.replicate _ _ ++ _).foldlM step _ = _
    rw [List.foldlM_append, removes]
    change step removed .handOn >>= pure = _
    rw [passed]
    rfl
  · dsimp only
    rw [erased, checkWatchedTokens, found]
    dsimp only
    rw [monitor]
  · dsimp only
    rw [kept, checkWatchedTokens, found]
    dsimp only
    rw [handed]

/-! What every run should give, and when a step keeps it. -/

/-- One opportunity, of another pool, passed on; or no pool appeared in 24 h. -/
def Ended.Fulfilled (passed : List (SecondPoolArbOpportunity F)) (ended : Ended F) : Prop :=
  (∃ opportunity, ended.watch.opportunities = [opportunity] ∧
      opportunity.newPool ≠ opportunity.pumpswapPool ∧ opportunity ∈ passed) ∨
    ended.watch.opportunities = [] ∧ ended.watch.seen = false ∧ ended.expired = true

/-- Each watch that is over is fulfilled, each opportunity is passed on, and no token with
another pool is passed over. -/
structure Delivered (state : Watching F) : Prop where
  ended : ∀ ended ∈ state.ended, ended.Fulfilled (state.handed ++ state.checker.found)
  discarded : state.discarded = []
  missed : state.missed = []

def Keeps (state : Watching F) : Event F → Prop
  | .finishDetect _ =>
      ∀ now tokenMint watched newPool dex,
        state.processor ≠ .detected now tokenMint watched newPool dex
  | .visit tokenMint _ =>
      ∀ watched, HashMap.get state.monitor tokenMint = some watched →
        ¬ Expired state.now watched → OtherPool state.cache tokenMint watched →
          2 ≤ (state.cache.poolsForToken tokenMint).length
  | .remove =>
      ∀ tokenMint left opportunities, state.checker = .removing (tokenMint :: left) opportunities →
        ∀ watched, HashMap.get state.monitor tokenMint = some watched →
          (state.watches tokenMint).opportunities ≠ [] ∨
            (state.watches tokenMint).seen = false ∧ Expired state.now watched
  | .cleanup =>
      ∀ tokenMint watched, HashMap.get state.monitor tokenMint = some watched →
        Expired state.now watched → (state.watches tokenMint).seen = false
  | _ => True

/-- What the steps keep in any case: an opportunity of a listed token was found in the
check going on, and its token is about to be removed. -/
structure Tidy (state : Watching F) : Prop where
  unlisted : ∀ tokenMint, HashMap.get state.monitor tokenMint = none →
    state.watches tokenMint = fresh
  pending : ∀ tokenMint, (state.watches tokenMint).opportunities ≠ [] →
    (∃ opportunity ∈ state.checker.found, (state.watches tokenMint).opportunities = [opportunity] ∧
      opportunity.newPool ≠ opportunity.pumpswapPool) ∧ tokenMint ∈ state.checker.marked
  visited : ∀ due visited checked, state.checker = .visiting due visited checked →
    checked.toRemove ⊆ visited

theorem drop_unlisted (state : Watching F) (tokenMint : Pubkey)
    (unlisted : HashMap.get state.monitor tokenMint = none) : drop state tokenMint = state := by
  rw [drop, unlisted]

theorem drop_listed (state : Watching F) (tokenMint : Pubkey) (watched : WatchedToken)
    (listed : HashMap.get state.monitor tokenMint = some watched) :
    drop state tokenMint = { state with
      monitor := state.monitor.erase tokenMint
      watches := Function.update state.watches tokenMint fresh
      ended := state.ended ++
        [⟨state.watches tokenMint, decide (Expired state.now watched)⟩] } := by
  rw [drop, listed]

/-- Dropping a token touches the list and the watches alone. -/
structure OnlyList (before after : Watching F) : Prop where
  now : after.now = before.now
  cache : after.cache = before.cache
  checker : after.checker = before.checker
  handed : after.handed = before.handed
  discarded : after.discarded = before.discarded
  missed : after.missed = before.missed

theorem drop_only (state : Watching F) (tokenMint : Pubkey) : OnlyList state (drop state tokenMint) := by
  rw [drop]
  split
  · exact ⟨rfl, rfl, rfl, rfl, rfl, rfl⟩
  · exact ⟨rfl, rfl, rfl, rfl, rfl, rfl⟩

theorem get_drop (state : Watching F) (tokenMint other : Pubkey) :
    HashMap.get (drop state tokenMint).monitor other =
      if other = tokenMint then none else HashMap.get state.monitor other := by
  cases listed : HashMap.get state.monitor tokenMint with
  | none =>
      rw [drop_unlisted state tokenMint listed]
      split
      · next same => rw [same, listed]
      · rfl
  | some watched =>
      rw [drop_listed state tokenMint watched listed]
      exact HashMap.get_erase _ _ _

/-- The watch of a dropped token is fresh again; the others stay. -/
theorem watches_drop (state : Watching F) (tidy : Tidy state) (tokenMint other : Pubkey) :
    (drop state tokenMint).watches other =
      if other = tokenMint then fresh else state.watches other := by
  cases listed : HashMap.get state.monitor tokenMint with
  | none =>
      rw [drop_unlisted state tokenMint listed]
      split
      · next same => rw [same, tidy.unlisted tokenMint listed]
      · rfl
  | some watched =>
      rw [drop_listed state tokenMint watched listed]
      dsimp only
      rw [Function.update_apply]

theorem tidy_drop (state : Watching F) (tidy : Tidy state) (tokenMint : Pubkey) :
    Tidy (drop state tokenMint) where
  unlisted := by
    intro other unlisted
    rw [get_drop] at unlisted
    rw [watches_drop state tidy]
    split at unlisted
    · next same => rw [if_pos same]
    · next different =>
        rw [if_neg different]
        exact tidy.unlisted other unlisted
  pending := by
    intro other some
    rw [watches_drop state tidy] at some ⊢
    rw [(drop_only state tokenMint).checker]
    split at some
    · exact absurd rfl some
    · next different =>
        rw [if_neg different]
        exact tidy.pending other some
  visited := by
    rw [(drop_only state tokenMint).checker]
    exact tidy.visited

theorem opportunities_observe (state : Watching F) (tokenMint : Pubkey) :
    ((observe state).watches tokenMint).opportunities =
      (state.watches tokenMint).opportunities := by
  rw [observe]
  dsimp only
  split
  · rfl
  · split
    · rfl
    · rfl

theorem tidy_observe (state : Watching F) (tidy : Tidy state) : Tidy (observe state) where
  unlisted := by
    intro tokenMint unlisted
    have absent : HashMap.get state.monitor tokenMint = none := unlisted
    rw [observe]
    dsimp only
    rw [absent]
    exact tidy.unlisted tokenMint absent
  pending := by
    intro tokenMint some
    rw [opportunities_observe] at some ⊢
    exact tidy.pending tokenMint some
  visited := tidy.visited

/-- A token not visited in this check has no opportunity yet. -/
theorem none_before_visit (state : Watching F) (tidy : Tidy state) (due visited : List Pubkey)
    (checked : Checked F) (checker : state.checker = .visiting due visited checked)
    (tokenMint : Pubkey) (unvisited : tokenMint ∉ visited) :
    (state.watches tokenMint).opportunities = [] := by
  by_contra some
  rcases tidy.pending tokenMint some with ⟨-, marked⟩
  rw [checker] at marked
  exact unvisited (tidy.visited due visited checked checker marked)

theorem foundFor_some (now : Instant) (cache : PoolStateCache)
    (scan : Pubkey → WatchedToken → List (RouteParams F)) (tokenMint : Pubkey)
    (watched : WatchedToken) (opportunity : SecondPoolArbOpportunity F)
    (found : foundFor now cache scan tokenMint watched = some opportunity) :
    opportunity.newPool ≠ opportunity.pumpswapPool := by
  rw [foundFor] at found
  split at found
  · cases found
  · rcases Option.map_eq_some_iff.mp found with ⟨pool, second, same⟩
    rw [← same]
    exact (secondPool_other cache tokenMint watched pool second).2

theorem tidy_visit (state : Watching F) (tidy : Tidy state) (due visited : List Pubkey)
    (checked : Checked F) (checker : state.checker = .visiting due visited checked)
    (tokenMint : Pubkey) (watched : WatchedToken) (routes : List (RouteParams F))
    (listed : HashMap.get state.monitor tokenMint = some watched)
    (unvisited : tokenMint ∉ visited) :
    Tidy (visitStep state due visited checked tokenMint watched routes) := by
  have empty := none_before_visit state tidy due visited checked checker tokenMint unvisited
  have next := checkToken_eq state.now state.cache (fun _ _ => routes) tokenMint watched checked
  have found := foundFor_some state.now state.cache (fun _ _ => routes) tokenMint watched
  rw [visitStep, next, empty]
  generalize foundFor state.now state.cache (fun _ _ => routes) tokenMint watched = added at found ⊢
  exact {
    unlisted := by
      intro other unlisted
      have different : other ≠ tokenMint := by
        intro same
        rw [same] at unlisted
        exact absurd (listed.symm.trans unlisted) (Option.some_ne_none _)
      dsimp only
      rw [Function.update_of_ne different]
      exact tidy.unlisted other unlisted
    pending := by
      intro other some
      dsimp only at some ⊢
      rw [Function.update_apply] at some ⊢
      split at some
      · next same =>
          rw [if_pos same]
          cases added with
          | none => exact absurd rfl some
          | some opportunity =>
              refine ⟨⟨opportunity, List.mem_append_right _ (List.mem_singleton.mpr rfl), rfl,
                found opportunity rfl⟩, ?_⟩
              rw [same]
              exact List.mem_append_right _ (by simp)
      · next different =>
          rw [if_neg different]
          rcases tidy.pending other some with ⟨⟨opportunity, held, one, otherPool⟩, marked⟩
          rw [checker] at held marked
          exact ⟨⟨opportunity, List.mem_append_left _ held, one, otherPool⟩,
            List.mem_append_left _ marked⟩
    visited := by
      intro due' visited' checked' same
      cases same
      apply List.append_subset.mpr
      constructor
      · exact List.Subset.trans (tidy.visited due visited checked checker)
          (List.subset_append_left _ _)
      · split
        · exact List.subset_append_right _ _
        · exact List.nil_subset _ }

theorem tidy_insert (state : Watching F) (tidy : Tidy state) (tokenMint : Pubkey)
    (entry : WatchedToken) (processor : Processor) :
    Tidy { state with monitor := state.monitor.insert tokenMint entry, processor } where
  unlisted := by
    intro other unlisted
    apply tidy.unlisted other
    by_cases same : other = tokenMint
    · rw [same, HashMap.get_insert] at unlisted
      cases unlisted
    · rw [HashMap.get_insert_ne _ _ _ _ same] at unlisted
      exact unlisted
  pending := tidy.pending
  visited := tidy.visited

/-- With nothing to be removed no listed token has an opportunity. -/
theorem none_pending (state : Watching F) (tidy : Tidy state) (marked : state.checker.marked = [])
    (tokenMint : Pubkey) : (state.watches tokenMint).opportunities = [] := by
  by_contra some
  have member := (tidy.pending tokenMint some).2
  rw [marked] at member
  cases member

theorem tidy_checker (state : Watching F) (tidy : Tidy state) (checker : Checker F)
    (handed : List (SecondPoolArbOpportunity F)) (marked : state.checker.marked = [])
    (visited : ∀ due visited checked, checker = .visiting due visited checked →
      checked.toRemove ⊆ visited) :
    Tidy { state with checker, handed } where
  unlisted := tidy.unlisted
  pending := by
    intro tokenMint some
    exact absurd (none_pending state tidy marked tokenMint) some
  visited := visited

theorem tidy_remove (state : Watching F) (tidy : Tidy state) (tokenMint : Pubkey)
    (left : List Pubkey) (opportunities : List (SecondPoolArbOpportunity F))
    (checker : state.checker = .removing (tokenMint :: left) opportunities) :
    Tidy { drop state tokenMint with checker := .removing left opportunities } where
  unlisted := (tidy_drop state tidy tokenMint).unlisted
  pending := by
    intro other some
    rcases (tidy_drop state tidy tokenMint).pending other some with ⟨found, marked⟩
    rw [(drop_only state tokenMint).checker, checker] at found marked
    refine ⟨found, ?_⟩
    rcases List.mem_cons.mp marked with same | later
    · have dropped : (drop state tokenMint).watches other = fresh := by
        rw [watches_drop state tidy, if_pos same]
      exact absurd (congrArg Watch.opportunities dropped) some
    · exact later
  visited := by
    intro due visited checked same
    cases same

theorem foldl_drop_only (tokens : List Pubkey) (state : Watching F) :
    OnlyList state (tokens.foldl drop state) := by
  induction tokens generalizing state with
  | nil => exact ⟨rfl, rfl, rfl, rfl, rfl, rfl⟩
  | cons tokenMint rest ih =>
      have first := drop_only state tokenMint
      have later := ih (drop state tokenMint)
      exact ⟨later.now.trans first.now, later.cache.trans first.cache,
        later.checker.trans first.checker, later.handed.trans first.handed,
        later.discarded.trans first.discarded, later.missed.trans first.missed⟩

theorem foldl_drop_tidy (tokens : List Pubkey) (state : Watching F) (tidy : Tidy state) :
    Tidy (tokens.foldl drop state) := by
  induction tokens generalizing state with
  | nil => exact tidy
  | cons tokenMint rest ih => exact ih _ (tidy_drop state tidy tokenMint)

/-- The watches that end when listed tokens are dropped one after the other. -/
theorem ended_foldl_drop (tokens : List Pubkey) (distinct : tokens.Nodup) (state : Watching F)
    (tidy : Tidy state)
    (expired : ∀ tokenMint ∈ tokens, ∃ watched,
      HashMap.get state.monitor tokenMint = some watched ∧ Expired state.now watched) :
    (tokens.foldl drop state).ended =
      state.ended ++ tokens.map (fun tokenMint => ⟨state.watches tokenMint, true⟩) := by
  induction tokens generalizing state with
  | nil => rw [List.map_nil, List.append_nil, List.foldl_nil]
  | cons tokenMint rest ih =>
      rcases List.nodup_cons.mp distinct with ⟨outside, later⟩
      rcases expired tokenMint List.mem_cons_self with ⟨watched, listed, old⟩
      have others : ∀ other ∈ rest, other ≠ tokenMint := by
        intro other member same
        exact outside (same ▸ member)
      have step := ih later (drop state tokenMint) (tidy_drop state tidy tokenMint) (by
        intro other member
        rw [get_drop, if_neg (others other member), (drop_only state tokenMint).now]
        exact expired other (List.mem_cons_of_mem _ member))
      have same : rest.map (fun other => (⟨(drop state tokenMint).watches other, true⟩ : Ended F)) =
          rest.map (fun other => ⟨state.watches other, true⟩) := by
        apply List.map_congr_left
        intro other member
        rw [watches_drop state tidy, if_neg (others other member)]
      rw [List.foldl_cons, step, same, drop_listed state tokenMint watched listed]
      dsimp only
      rw [List.append_assoc, decide_eq_true old]
      rfl

/-- What a step has done that was taken, one case for each way through it. -/
inductive Moves (state : Watching F) : Event F → Watching F → Prop where
  | tick (now : Instant) (later : state.now ≤ now) : Moves state (.tick now) { state with now }
  | writeCache (cache : PoolStateCache) :
      Moves state (.writeCache cache) (observe { state with cache })
  | graduateKnown (tokenMint pumpswapPool : Pubkey) (slot : Nat) (idle : state.processor = .idle)
      (known : graduationEntry state.now state.cache tokenMint pumpswapPool slot = none) :
      Moves state (.graduate tokenMint pumpswapPool slot) state
  | graduate (tokenMint pumpswapPool : Pubkey) (slot : Nat) (entry : WatchedToken)
      (idle : state.processor = .idle)
      (new : graduationEntry state.now state.cache tokenMint pumpswapPool slot = some entry) :
      Moves state (.graduate tokenMint pumpswapPool slot)
        { state with processor := .graduating tokenMint entry }
  | insertGraduated (tokenMint : Pubkey) (entry : WatchedToken)
      (processor : state.processor = .graduating tokenMint entry) :
      Moves state .insertGraduated (observe { state with
        monitor := state.monitor.insert tokenMint { entry with graduatedAt := state.now }
        processor := .idle })
  | detectUnlisted (tokenMint newPool : Pubkey) (dex : DexType) (idle : state.processor = .idle)
      (unlisted : HashMap.get state.monitor tokenMint = none) :
      Moves state (.detect tokenMint newPool dex) state
  | detect (tokenMint newPool : Pubkey) (dex : DexType) (watched : WatchedToken)
      (idle : state.processor = .idle)
      (listed : HashMap.get state.monitor tokenMint = some watched) :
      Moves state (.detect tokenMint newPool dex)
        { state with processor := .detected state.now tokenMint watched newPool dex }
  | finishDetect (routes : List (RouteParams F)) (now : Instant) (tokenMint : Pubkey)
      (watched : WatchedToken) (newPool : Pubkey) (dex : DexType)
      (processor : state.processor = .detected now tokenMint watched newPool dex) :
      Moves state (.finishDetect routes) { drop state tokenMint with
        processor := .idle
        discarded := state.discarded ++ [opportunityOf now tokenMint watched newPool dex routes] }
  | beginCheck (idle : state.checker = .idle) :
      Moves state .beginCheck { state with checker := .visiting state.monitor.keys [] ⟨[], []⟩ }
  | visit (tokenMint : Pubkey) (routes : List (RouteParams F)) (due visited : List Pubkey)
      (checked : Checked F) (watched : WatchedToken)
      (checker : state.checker = .visiting due visited checked)
      (listed : HashMap.get state.monitor tokenMint = some watched)
      (unvisited : tokenMint ∉ visited) :
      Moves state (.visit tokenMint routes)
        (visitStep state due visited checked tokenMint watched routes)
  | endVisits (due visited : List Pubkey) (checked : Checked F)
      (checker : state.checker = .visiting due visited checked)
      (all : ∀ tokenMint ∈ due,
        tokenMint ∈ visited ∨ HashMap.get state.monitor tokenMint = none) :
      Moves state .endVisits
        { state with checker := .removing checked.toRemove checked.opportunities }
  | remove (tokenMint : Pubkey) (left : List Pubkey)
      (opportunities : List (SecondPoolArbOpportunity F))
      (checker : state.checker = .removing (tokenMint :: left) opportunities) :
      Moves state .remove { drop state tokenMint with checker := .removing left opportunities }
  | handOn (opportunities : List (SecondPoolArbOpportunity F))
      (checker : state.checker = .removing [] opportunities) :
      Moves state .handOn
        { state with checker := .idle, handed := state.handed ++ opportunities }
  | cleanup (idle : state.checker = .idle) :
      Moves state .cleanup ((expiredTokens state).foldl drop state)

theorem moves_of_step (state : Watching F) (event : Event F) (next : Watching F)
    (done : step state event = .ok next) : Moves state event next := by
  cases event with
  | tick now =>
      rw [step] at done
      split at done
      · next later =>
          cases done
          exact .tick now later
      · cases done
  | writeCache cache =>
      cases done
      exact .writeCache cache
  | graduate tokenMint pumpswapPool slot =>
      rw [step] at done
      split at done
      · next idle =>
          split at done
          · next known =>
              cases done
              exact .graduateKnown tokenMint pumpswapPool slot idle known
          · next entry new =>
              cases done
              exact .graduate tokenMint pumpswapPool slot entry idle new
      · cases done
  | insertGraduated =>
      rw [step] at done
      split at done
      · next tokenMint entry processor =>
          cases done
          exact .insertGraduated tokenMint entry processor
      · cases done
  | detect tokenMint newPool dex =>
      rw [step] at done
      split at done
      · next idle =>
          split at done
          · next unlisted =>
              cases done
              exact .detectUnlisted tokenMint newPool dex idle unlisted
          · next watched listed =>
              cases done
              exact .detect tokenMint newPool dex watched idle listed
      · cases done
  | finishDetect routes =>
      rw [step] at done
      split at done
      · next now tokenMint watched newPool dex processor =>
          cases done
          exact .finishDetect routes now tokenMint watched newPool dex processor
      · cases done
  | beginCheck =>
      rw [step] at done
      split at done
      · next idle =>
          cases done
          exact .beginCheck idle
      · cases done
  | visit tokenMint routes =>
      rw [step] at done
      split at done
      · next due visited checked watched checker listed =>
          split at done
          · cases done
          · next unvisited =>
              cases done
              exact .visit tokenMint routes due visited checked watched checker listed unvisited
      · cases done
  | endVisits =>
      rw [step] at done
      split at done
      · next due visited checked checker =>
          split at done
          · next all =>
              cases done
              exact .endVisits due visited checked checker all
          · cases done
      · cases done
  | remove =>
      rw [step] at done
      split at done
      · next tokenMint left opportunities checker =>
          cases done
          exact .remove tokenMint left opportunities checker
      · cases done
  | handOn =>
      rw [step] at done
      split at done
      · next opportunities checker =>
          cases done
          exact .handOn opportunities checker
      · cases done
  | cleanup =>
      rw [step] at done
      split at done
      · next idle =>
          cases done
          exact .cleanup idle
      · cases done

theorem tidy_step (state : Watching F) (event : Event F) (next : Watching F) (tidy : Tidy state)
    (done : step state event = .ok next) : Tidy next := by
  cases moves_of_step state event next done with
  | tick now later => exact ⟨tidy.unlisted, tidy.pending, tidy.visited⟩
  | writeCache cache => exact tidy_observe _ ⟨tidy.unlisted, tidy.pending, tidy.visited⟩
  | graduateKnown tokenMint pumpswapPool slot idle known => exact tidy
  | graduate tokenMint pumpswapPool slot entry idle new =>
      exact ⟨tidy.unlisted, tidy.pending, tidy.visited⟩
  | insertGraduated tokenMint entry processor =>
      exact tidy_observe _ (tidy_insert state tidy _ _ .idle)
  | detectUnlisted tokenMint newPool dex idle unlisted => exact tidy
  | detect tokenMint newPool dex watched idle listed =>
      exact ⟨tidy.unlisted, tidy.pending, tidy.visited⟩
  | finishDetect routes now tokenMint watched newPool dex processor =>
      have dropped := tidy_drop state tidy tokenMint
      exact ⟨dropped.unlisted, dropped.pending, dropped.visited⟩
  | beginCheck idle =>
      apply tidy_checker state tidy _ _ (by rw [idle]; rfl)
      intro due visited checked same
      cases same
      exact List.nil_subset _
  | visit tokenMint routes due visited checked watched checker listed unvisited =>
      exact tidy_visit state tidy due visited checked checker tokenMint watched routes listed
        unvisited
  | endVisits due visited checked checker all =>
      have pending := tidy.pending
      rw [checker] at pending
      exact ⟨tidy.unlisted, pending, nofun⟩
  | remove tokenMint left opportunities checker =>
      exact tidy_remove state tidy tokenMint left opportunities checker
  | handOn opportunities checker => exact tidy_checker state tidy _ _ (by rw [checker]; rfl) nofun
  | cleanup idle => exact foldl_drop_tidy _ state tidy

theorem Ended.fulfilled_mono (before after : List (SecondPoolArbOpportunity F)) (ended : Ended F)
    (passed : before ⊆ after) (fulfilled : ended.Fulfilled before) : ended.Fulfilled after := by
  rcases fulfilled with ⟨opportunity, one, other, member⟩ | none
  · exact Or.inl ⟨opportunity, one, other, passed member⟩
  · exact Or.inr none

/-- A step that ends no watch and passes over none. -/
theorem delivered_moved (state next : Watching F) (delivered : Delivered state)
    (ended : next.ended = state.ended)
    (passed : state.handed ++ state.checker.found ⊆ next.handed ++ next.checker.found)
    (discarded : next.discarded = state.discarded) (missed : next.missed = state.missed) :
    Delivered next where
  ended := by
    intro watch member
    rw [ended] at member
    exact watch.fulfilled_mono _ _ passed (delivered.ended watch member)
  discarded := by rw [discarded, delivered.discarded]
  missed := by rw [missed, delivered.missed]

theorem visit_delivered_iff (state : Watching F) (due visited : List Pubkey)
    (checked : Checked F) (tokenMint : Pubkey) (watched : WatchedToken)
    (routes : List (RouteParams F)) (delivered : Delivered state)
    (checker : state.checker = .visiting due visited checked)
    (listed : HashMap.get state.monitor tokenMint = some watched) :
    Delivered (visitStep state due visited checked tokenMint watched routes) ↔
      Keeps state (.visit tokenMint routes) := by
  have next := checkToken_eq state.now state.cache (fun _ _ => routes) tokenMint watched checked
  have passed : state.handed ++ state.checker.found ⊆ state.handed ++
      (visitStep state due visited checked tokenMint watched routes).checker.found := by
    apply List.append_subset.mpr
    constructor
    · exact List.subset_append_left _ _
    · rw [checker, visitStep, next]
      exact List.Subset.trans (List.subset_append_left _ _) (List.subset_append_right _ _)
  constructor
  · intro after other same live appeared
    rw [listed] at same
    cases same
    by_contra few
    have unfound : foundFor state.now state.cache (fun _ _ => routes) tokenMint watched = none := by
      rw [foundFor, if_neg live,
        (secondPool_none_iff state.cache tokenMint watched).mpr (Or.inl (by omega))]
      rfl
    have missed := after.missed
    rw [visitStep, unfound] at missed
    dsimp only at missed
    rw [if_pos ⟨live, appeared, rfl⟩] at missed
    exact List.append_ne_nil_of_right_ne_nil _ (List.cons_ne_nil _ _) missed
  · intro keeps
    have missed : (visitStep state due visited checked tokenMint watched routes).missed =
        state.missed := by
      apply if_neg
      rintro ⟨live, appeared, unfound⟩
      rw [foundFor, if_neg live, Option.isNone_map, Option.isNone_iff_eq_none,
        secondPool_none_iff] at unfound
      rcases unfound with few | same
      · have two := keeps watched listed live appeared
        omega
      · rcases appeared with ⟨pool, member, different⟩
        exact different (same pool member)
    exact delivered_moved state _ delivered rfl passed rfl missed

/-- The watch of a token about to be removed is fulfilled exactly if it has its opportunity
or no pool appeared in its 24 h. -/
theorem removed_fulfilled_iff (state : Watching F) (tidy : Tidy state) (tokenMint : Pubkey)
    (watched : WatchedToken) :
    Ended.Fulfilled (state.handed ++ state.checker.found)
        ⟨state.watches tokenMint, decide (Expired state.now watched)⟩ ↔
      (state.watches tokenMint).opportunities ≠ [] ∨
        (state.watches tokenMint).seen = false ∧ Expired state.now watched := by
  constructor
  · intro fulfilled
    rcases fulfilled with ⟨opportunity, one, -⟩ | ⟨-, unseen, old⟩
    · left
      intro none
      rw [one] at none
      cases none
    · exact Or.inr ⟨unseen, of_decide_eq_true old⟩
  · intro either
    by_cases none : (state.watches tokenMint).opportunities = []
    · rcases either with some | ⟨unseen, old⟩
      · exact absurd none some
      · exact Or.inr ⟨none, unseen, decide_eq_true old⟩
    · rcases tidy.pending tokenMint none with ⟨⟨opportunity, found, one, other⟩, -⟩
      exact Or.inl ⟨opportunity, one, other, List.mem_append_right _ found⟩

theorem remove_delivered_iff (state : Watching F) (tidy : Tidy state) (tokenMint : Pubkey)
    (left : List Pubkey) (opportunities : List (SecondPoolArbOpportunity F))
    (delivered : Delivered state)
    (checker : state.checker = .removing (tokenMint :: left) opportunities) :
    Delivered { drop state tokenMint with checker := .removing left opportunities } ↔
      Keeps state .remove := by
  have found : state.checker.found = opportunities := by rw [checker]; rfl
  cases listed : HashMap.get state.monitor tokenMint with
  | none =>
      apply iff_of_true
      · rw [drop_unlisted state tokenMint listed]
        exact delivered_moved state _ delivered rfl (by rw [found]; exact List.Subset.refl _) rfl rfl
      · intro other _ _ same watched held
        rw [checker] at same
        cases same
        rw [listed] at held
        cases held
  | some watched =>
      have fulfilled := removed_fulfilled_iff state tidy tokenMint watched
      rw [found] at fulfilled
      rw [drop_listed state tokenMint watched listed]
      constructor
      · intro after other _ _ same entry held
        rw [checker] at same
        cases same
        rw [listed] at held
        cases held
        exact fulfilled.mp (after.ended _ (List.mem_append_right _ (List.mem_singleton.mpr rfl)))
      · intro keeps
        exact {
          ended := by
            intro ended member
            rcases List.mem_append.mp member with before | last
            · have old := delivered.ended ended before
              rw [found] at old
              exact old
            · rw [List.mem_singleton.mp last]
              exact fulfilled.mpr (keeps tokenMint left opportunities checker watched listed)
          discarded := delivered.discarded
          missed := delivered.missed }

theorem mem_expiredTokens (state : Watching F) (tokenMint : Pubkey) :
    tokenMint ∈ expiredTokens state ↔
      ∃ watched, HashMap.get state.monitor tokenMint = some watched ∧
        Expired state.now watched := by
  rw [expiredTokens, List.mem_filter]
  constructor
  · intro ⟨_, old⟩
    cases listed : HashMap.get state.monitor tokenMint with
    | none =>
        rw [listed] at old
        cases old
    | some watched =>
        rw [listed] at old
        exact ⟨watched, rfl, of_decide_eq_true old⟩
  · intro ⟨watched, listed, old⟩
    constructor
    · exact AList.mem_keys.mp (AList.lookup_isSome.mp (by
        rw [show state.monitor.lookup tokenMint = some watched from listed]
        rfl))
    · rw [listed]
      exact decide_eq_true old

theorem cleanup_delivered_iff (state : Watching F) (tidy : Tidy state)
    (delivered : Delivered state) (idle : state.checker = .idle) :
    Delivered ((expiredTokens state).foldl drop state) ↔ Keeps state .cleanup := by
  have only := foldl_drop_only (expiredTokens state) state
  have distinct : (expiredTokens state).Nodup := state.monitor.keys_nodup.filter _
  have ended := ended_foldl_drop (expiredTokens state) distinct state tidy
    (fun tokenMint member => (mem_expiredTokens state tokenMint).mp member)
  have passed : ((expiredTokens state).foldl drop state).handed ++
      ((expiredTokens state).foldl drop state).checker.found =
        state.handed ++ state.checker.found := by
    rw [only.handed, only.checker]
  constructor
  · intro after tokenMint watched listed old
    have member := (mem_expiredTokens state tokenMint).mpr ⟨watched, listed, old⟩
    have last : (⟨state.watches tokenMint, true⟩ : Ended F) ∈
        ((expiredTokens state).foldl drop state).ended := by
      rw [ended]
      exact List.mem_append_right _ (List.mem_map.mpr ⟨tokenMint, member, rfl⟩)
    rcases after.ended _ last with ⟨opportunity, one, -⟩ | ⟨-, unseen, -⟩
    · have none := none_pending state tidy (by rw [idle]; rfl) tokenMint
      exact absurd (one.symm.trans none) (List.cons_ne_nil _ _)
    · exact unseen
  · intro keeps
    exact {
      ended := by
        intro watch member
        rw [passed]
        rw [ended] at member
        rcases List.mem_append.mp member with before | last
        · exact delivered.ended watch before
        · rcases List.mem_map.mp last with ⟨tokenMint, expired, same⟩
          rcases (mem_expiredTokens state tokenMint).mp expired with ⟨watched, listed, old⟩
          rw [← same]
          exact Or.inr ⟨none_pending state tidy (by rw [idle]; rfl) tokenMint,
            keeps tokenMint watched listed old, rfl⟩
      discarded := only.discarded.trans delivered.discarded
      missed := only.missed.trans delivered.missed }

/-- From a state where all is delivered, a step keeps it so exactly if it meets the condition. -/
theorem step_delivered_iff (state : Watching F) (event : Event F) (next : Watching F)
    (tidy : Tidy state) (delivered : Delivered state) (done : step state event = .ok next) :
    Delivered next ↔ Keeps state event := by
  cases moves_of_step state event next done with
  | tick now later =>
      apply iff_of_true _ trivial
      exact delivered_moved state _ delivered rfl (List.Subset.refl _) rfl rfl
  | writeCache cache =>
      apply iff_of_true _ trivial
      exact delivered_moved state _ delivered rfl (List.Subset.refl _) rfl rfl
  | graduateKnown tokenMint pumpswapPool slot idle known => exact iff_of_true delivered trivial
  | graduate tokenMint pumpswapPool slot entry idle new =>
      apply iff_of_true _ trivial
      exact delivered_moved state _ delivered rfl (List.Subset.refl _) rfl rfl
  | insertGraduated tokenMint entry processor =>
      apply iff_of_true _ trivial
      exact delivered_moved state _ delivered rfl (List.Subset.refl _) rfl rfl
  | detectUnlisted tokenMint newPool dex idle unlisted => exact iff_of_true delivered trivial
  | detect tokenMint newPool dex watched idle listed =>
      apply iff_of_true _ trivial
      exact delivered_moved state _ delivered rfl (List.Subset.refl _) rfl rfl
  | finishDetect routes now tokenMint watched newPool dex processor =>
      -- what is found is only logged
      apply iff_of_false
      · intro after
        exact List.append_ne_nil_of_right_ne_nil _ (List.cons_ne_nil _ _) after.discarded
      · intro keeps
        exact keeps now tokenMint watched newPool dex processor
  | beginCheck idle =>
      apply iff_of_true _ trivial
      exact delivered_moved state _ delivered rfl (by rw [idle]; exact List.Subset.refl _) rfl rfl
  | visit tokenMint routes due visited checked watched checker listed unvisited =>
      exact visit_delivered_iff state due visited checked tokenMint watched routes delivered checker
        listed
  | endVisits due visited checked checker all =>
      apply iff_of_true _ trivial
      exact delivered_moved state _ delivered rfl (by rw [checker]; exact List.Subset.refl _) rfl
        rfl
  | remove tokenMint left opportunities checker =>
      exact remove_delivered_iff state tidy tokenMint left opportunities delivered checker
  | handOn opportunities checker =>
      apply iff_of_true _ trivial
      exact delivered_moved state _ delivered rfl
        (by rw [checker]; exact List.subset_append_left _ _) rfl rfl
  | cleanup idle => exact cleanup_delivered_iff state tidy delivered idle

theorem tidy_start (now : Instant) (cache : PoolStateCache) : Tidy (start now cache : Watching F) where
  unlisted := fun _ _ => rfl
  pending := by
    intro tokenMint some
    exact absurd rfl some
  visited := nofun

/-- In every state of a run each second pool has been delivered once, exactly if every
step of the run meets the condition. -/
theorem delivered_once_iff (now : Instant) (cache : PoolStateCache) (events : List (Event F)) :
    Along step (fun _ _ next => Delivered next) (start now cache) events ↔
      Along step (fun state event _ => Keeps state event) (start now cache) events := by
  apply along_iff step (fun state => Tidy state ∧ Delivered state)
  · intro state event next kept done
    exact ⟨step_delivered_iff state event next kept.1 kept.2 done,
      fun delivered => ⟨tidy_step state event next kept.1 done, delivered⟩⟩
  · refine ⟨tidy_start now cache, ?_, rfl, rfl⟩
    intro ended member
    cases member

def pumpPool : DexPool :=
  { PairIndex.graduatedPool (.ofNat 4) (.ofNat 3) with poolAddress := .ofNat 1 }

def raydiumPool : DexPool :=
  { PairIndex.graduatedPool (.ofNat 4) (.ofNat 3) with
    poolAddress := .ofNat 2
    dexType := .raydiumAmmV4 }

/-- A graduated token gets a second pool, and the signal processor finds it. -/
def detectedRun : List (Event ℚ) :=
  [.writeCache (PoolStateCache.new.upsert pumpPool), .graduate (.ofNat 3) (.ofNat 1) 7,
    .insertGraduated,
    .writeCache ((PoolStateCache.new.upsert pumpPool).upsert raydiumPool),
    .detect (.ofNat 3) (.ofNat 2) .raydiumAmmV4]

/-- The opportunity is logged, the token removed, and the route engine has nothing. -/
theorem opportunity_only_logged :
    ¬ Along step (fun _ _ next => Delivered next) (start 0 PoolStateCache.new)
      (detectedRun ++ [.finishDetect []]) := by
  intro always
  have ran : ∃ state next, detectedRun.foldlM step (start 0 PoolStateCache.new) = .ok state ∧
      step state (.finishDetect []) = .ok next ∧ next.discarded ≠ [] :=
    ⟨_, _, rfl, rfl, List.cons_ne_nil _ _⟩
  rcases ran with ⟨state, next, detected, done, discarded⟩
  have last := along_append step _ _ state detectedRun [.finishDetect []] always detected
  exact discarded (last next done).1.discarded

end Helios.SecondPools
