import Helios.CycleRoute
import Helios.Recency

/-! The route engine's search as its loop calls it: the kept answer, the list of cycles
that failed their second quote, and the routes of one search. The detection of a negative
cycle is taken from outside. -/

namespace Helios.RouteSearch

open Machine FloatArith Runs RouteEngine

def minNetProfitLamports : Int := 1000

/-- How long a cycle that failed its second quote is left alone, in nanoseconds. -/
def rejectionWindow : Nat := 10 * 10 ^ 9

structure RouteCache (F : Type) where
  swapGen : Nat
  routes : List (RouteParams F)
  computedAt : Instant

/-- `RouteCache::empty`. -/
def RouteCache.new (F : Type) (now : Instant) : RouteCache F := ⟨u64Max, [], now⟩

/-- `journal` lists the writes to the rejected cycles; the program keeps no such list. -/
structure RouteEngine (F : Type) where
  routeCache : RouteCache F
  persistentGraph : Option PersistentGraph
  rejectedCycles : HashMap (List Pubkey) Instant
  journal : List (Recency.Op (List Pubkey))

def RouteEngine.new (F : Type) (now : Instant) : RouteEngine F :=
  ⟨.new F now, none, HashMap.empty, []⟩

/-- What the engine reads while it deals with one anchor's cycle: the pools it quotes on,
with the clock, and the clock when it rejects the cycle. -/
structure Visit where
  cache : PoolStateCache
  now : Instant
  rejectedAt : Instant

/-- A call of `find_opportunities_multi`, with what it reads on its way. -/
structure Call (F : Type) where
  borrowAmounts : List Nat
  swapGen : Nat
  askedAt : Instant
  scan : Scan F
  prunedAt : Instant
  visits : Pubkey → Visit
  computedAt : Instant

/-- `find_edge`: of parallel edges the latest. -/
def findEdge (tg : TokenGraph) (source target : Nat) : Option EdgeData :=
  (edgesConnecting tg source target).head?

/-- The pools of a cycle's edges, sorted. -/
def cycleKey (tg : TokenGraph) (cycleNodes : List Nat) : List Pubkey :=
  let windows := cycleNodes.zip cycleNodes.tail
  let closing :=
    match cycleNodes.head?, cycleNodes.getLast? with
    | some first, some last => if 2 ≤ cycleNodes.length then [(last, first)] else []
    | _, _ => []
  ((windows ++ closing).filterMap (fun step =>
    (findEdge tg step.1 step.2).map EdgeData.pool)).insertionSort (· ≤ ·)

/-- The routes searched so far, and the cycles rejected. -/
structure Found (F : Type) where
  rejectedCycles : HashMap (List Pubkey) Instant
  journal : List (Recency.Op (List Pubkey))
  routes : List (RouteParams F)

section Search

variable {F : Type} [FloatArith F] (env : Env F)
  (findNegativeCycle : TokenGraph → Nat → Option (List Nat))

/-- The cycle found from an anchor, if the anchor is in the graph. -/
def cycleFrom (tg : TokenGraph) (anchor : Pubkey) : Option (List Nat) :=
  (HashMap.get tg.nodeMap anchor).bind (findNegativeCycle tg)

/-- The routes that the cycle gives, one for each borrow amount that passes. -/
def attempts (tg : TokenGraph) (visit : Visit) (cycleNodes borrowAmounts : List Nat) :
    List (RouteParams F) :=
  borrowAmounts.filterMap (cycleToRoute env.powf visit.now tg visit.cache cycleNodes)

def keepBetter (best : Option (RouteParams F)) (route : RouteParams F) :
    Option (RouteParams F) :=
  if route.netProfit < minNetProfitLamports then best
  else
    match best with
    | none => some route
    | some held => if held.netProfit < route.netProfit then some route else best

/-- One anchor of the search. -/
def searchFrom (tg : TokenGraph) (call : Call F) (found : Found F) (anchor : Pubkey) : Found F :=
  match cycleFrom findNegativeCycle tg anchor with
  | none => found
  | some cycleNodes =>
      let key := cycleKey tg cycleNodes
      if key ≠ [] ∧ HashMap.containsKey found.rejectedCycles key = true then found
      else
        let visit := call.visits anchor
        let routes := attempts env tg visit cycleNodes call.borrowAmounts
        let kept := found.routes ++ (routes.foldl keepBetter none).toList
        if routes = [] ∧ key ≠ [] then
          ⟨found.rejectedCycles.insert key visit.rejectedAt,
            found.journal ++ [.record key visit.rejectedAt], kept⟩
        else { found with routes := kept }

def pruned (engine : RouteEngine F) (call : Call F) : Found F :=
  ⟨HashMap.retain engine.rejectedCycles
      (fun _ since => decide (since.elapsedSecs call.prunedAt < 10)),
    engine.journal ++ [.prune call.prunedAt], []⟩

/-- `find_opportunities_inner`. -/
def findOpportunitiesInner (engine : RouteEngine F) (call : Call F) :
    RouteEngine F × List (RouteParams F) :=
  let pg := scanGraph env engine.persistentGraph call.scan
  if pg.graph.graph.nodes.length < 2 then ({ engine with persistentGraph := some pg }, [])
  else
    let found := anchorTokens.foldl (searchFrom env findNegativeCycle pg.graph call)
      (pruned engine call)
    ({ engine with
        persistentGraph := some pg
        rejectedCycles := found.rejectedCycles
        journal := found.journal },
      found.routes.mergeSort (fun first second => decide (second.netProfit ≤ first.netProfit)))

/-- The kept answer is given for pools that have not changed, for half a second. -/
def cacheHit (engine : RouteEngine F) (call : Call F) : Bool :=
  decide (engine.routeCache.swapGen = call.swapGen) &&
    decide ((call.askedAt - engine.routeCache.computedAt) / 10 ^ 6 < 500)

def findOpportunitiesMulti (engine : RouteEngine F) (call : Call F) :
    RouteEngine F × List (RouteParams F) :=
  if cacheHit engine call then (engine, engine.routeCache.routes)
  else
    let (engine, routes) := findOpportunitiesInner env findNegativeCycle engine call
    ({ engine with routeCache := ⟨call.swapGen, routes, call.computedAt⟩ }, routes)

def searchStep (engine : RouteEngine F) (call : Call F) : RouteEngine F :=
  (findOpportunitiesMulti env findNegativeCycle engine call).1

def answer (engine : RouteEngine F) (call : Call F) : List (RouteParams F) :=
  (findOpportunitiesMulti env findNegativeCycle engine call).2

end Search

section Best

variable {F : Type}

/-! The best route of one cycle. -/

theorem foldl_keepBetter_some (routes : List (RouteParams F)) (held : RouteParams F) :
    ∃ best, routes.foldl keepBetter (some held) = some best ∧ held.netProfit ≤ best.netProfit ∧
      (best = held ∨ best ∈ routes) ∧
        ∀ route ∈ routes, minNetProfitLamports ≤ route.netProfit →
          route.netProfit ≤ best.netProfit := by
  induction routes generalizing held with
  | nil => exact ⟨held, rfl, le_refl _, Or.inl rfl, by simp⟩
  | cons route rest ih =>
      have stepped : keepBetter (some held) route = some held ∧
            (minNetProfitLamports ≤ route.netProfit → route.netProfit ≤ held.netProfit) ∨
          keepBetter (some held) route = some route ∧ held.netProfit < route.netProfit := by
        unfold keepBetter
        by_cases low : route.netProfit < minNetProfitLamports
        · rw [if_pos low]
          exact Or.inl ⟨rfl, fun high => absurd low (not_lt.mpr high)⟩
        · rw [if_neg low]
          by_cases better : held.netProfit < route.netProfit
          · exact Or.inr ⟨if_pos better, better⟩
          · exact Or.inl ⟨if_neg better, fun _ => not_lt.mp better⟩
      rw [List.foldl_cons]
      rcases stepped with ⟨same, low⟩ | ⟨taken, better⟩
      · rw [same]
        rcases ih held with ⟨best, found, above, origin, greatest⟩
        refine ⟨best, found, above, origin.imp_right (List.mem_cons_of_mem route), ?_⟩
        intro other member high
        rcases List.mem_cons.mp member with rfl | later
        · exact (low high).trans above
        · exact greatest other later high
      · rw [taken]
        rcases ih route with ⟨best, found, above, origin, greatest⟩
        refine ⟨best, found, better.le.trans above, Or.inr (List.mem_cons.mpr origin), ?_⟩
        intro other member high
        rcases List.mem_cons.mp member with rfl | later
        · exact above
        · exact greatest other later high

/-- The first route kept, or none when every route nets too little. -/
theorem foldl_keepBetter (routes : List (RouteParams F)) :
    (∀ best, routes.foldl keepBetter none = some best → best ∈ routes ∧
      minNetProfitLamports ≤ best.netProfit ∧
        ∀ route ∈ routes, route.netProfit ≤ best.netProfit) ∧
    ∀ route ∈ routes, minNetProfitLamports ≤ route.netProfit →
      ∃ best, routes.foldl keepBetter none = some best ∧ route.netProfit ≤ best.netProfit := by
  induction routes with
  | nil => simp
  | cons first rest ih =>
      rcases ih with ⟨sound, complete⟩
      rw [List.foldl_cons]
      by_cases low : first.netProfit < minNetProfitLamports
      · rw [show keepBetter none first = none from if_pos low]
        constructor
        · intro best found
          rcases sound best found with ⟨member, high, greatest⟩
          refine ⟨List.mem_cons_of_mem first member, high, ?_⟩
          intro route inside
          rcases List.mem_cons.mp inside with rfl | later
          · exact (low.trans_le high).le
          · exact greatest route later
        · intro route inside high
          rcases List.mem_cons.mp inside with rfl | later
          · exact absurd low (not_lt.mpr high)
          · exact complete route later high
      · rw [show keepBetter none first = some first from if_neg low]
        rcases foldl_keepBetter_some rest first with ⟨kept, found, above, origin, greatest⟩
        have high := (not_lt.mp low).trans above
        have bound : ∀ route ∈ first :: rest, route.netProfit ≤ kept.netProfit := by
          intro route inside
          rcases List.mem_cons.mp inside with rfl | later
          · exact above
          · rcases lt_or_ge route.netProfit minNetProfitLamports with less | enough
            · exact (less.trans_le high).le
            · exact greatest route later enough
        constructor
        · intro best same
          cases found.symm.trans same
          exact ⟨List.mem_cons.mpr origin, high, bound⟩
        · intro route inside _
          exact ⟨kept, found, bound route inside⟩

/-! The rejected cycles over a run. -/

/-- The map is what its journal makes of it. -/
def Journaled (rejectedCycles : HashMap (List Pubkey) Instant)
    (journal : List (Recency.Op (List Pubkey))) : Prop :=
  rejectedCycles = run (Recency.step rejectionWindow) HashMap.empty journal

theorem journaled_snoc (rejectedCycles : HashMap (List Pubkey) Instant)
    (journal : List (Recency.Op (List Pubkey))) (op : Recency.Op (List Pubkey))
    (journaled : Journaled rejectedCycles journal) :
    Journaled (Recency.step rejectionWindow rejectedCycles op) (journal ++ [op]) := by
  rw [Journaled, run_append, ← journaled]
  rfl

theorem journaled_pruned (engine : RouteEngine F) (call : Call F)
    (journaled : Journaled engine.rejectedCycles engine.journal) :
    Journaled (pruned engine call).rejectedCycles (pruned engine call).journal := by
  have same : (pruned engine call).rejectedCycles =
      Recency.step rejectionWindow engine.rejectedCycles (.prune call.prunedAt) := by
    simp only [pruned, Recency.step]
    congr 1
    funext _ since
    rw [decide_eq_decide, Instant.elapsedSecs, rejectionWindow]
    omega
  rw [same]
  exact journaled_snoc _ _ _ journaled

/-- The clock as one call reads it, in order. -/
def Call.readings (call : Call F) : List Instant :=
  call.askedAt :: call.prunedAt ::
    (anchorTokens.map (fun anchor => (call.visits anchor).rejectedAt) ++ [call.computedAt])

/-- The clock never goes back. -/
def Clocked (calls : List (Call F)) : Prop := (calls.flatMap Call.readings).Pairwise (· ≤ ·)

end Best

section Rejections

variable {F : Type} [FloatArith F] (env : Env F)
  (findNegativeCycle : TokenGraph → Nat → Option (List Nat))

/-- The engine rejects the cycle it finds from the anchor. -/
def Rejects (tg : TokenGraph) (call : Call F) (found : Found F) (anchor : Pubkey)
    (key : List Pubkey) : Prop :=
  ∃ cycleNodes, cycleFrom findNegativeCycle tg anchor = some cycleNodes ∧
    cycleKey tg cycleNodes = key ∧ key ≠ [] ∧
      HashMap.containsKey found.rejectedCycles key = false ∧
        attempts env tg (call.visits anchor) cycleNodes call.borrowAmounts = []

/-- One anchor adds at most one record, of the cycle it rejects. -/
theorem searchFrom_journal (tg : TokenGraph) (call : Call F) (found : Found F)
    (anchor : Pubkey) :
    let next := searchFrom env findNegativeCycle tg call found anchor
    next.rejectedCycles = found.rejectedCycles ∧ next.journal = found.journal ∨
      ∃ key, Rejects env findNegativeCycle tg call found anchor key ∧
        next.rejectedCycles = found.rejectedCycles.insert key (call.visits anchor).rejectedAt ∧
        next.journal = found.journal ++ [.record key (call.visits anchor).rejectedAt] := by
  intro next
  cases cycle : cycleFrom findNegativeCycle tg anchor with
  | none =>
      have same : next = found := by simp only [next, searchFrom, cycle]
      exact Or.inl (by rw [same]; exact ⟨rfl, rfl⟩)
  | some cycleNodes =>
      simp only [next, searchFrom, cycle]
      split
      · exact Or.inl ⟨rfl, rfl⟩
      · rename_i fresh
        split
        · rename_i failed
          refine Or.inr ⟨cycleKey tg cycleNodes, ⟨cycleNodes, cycle, rfl, failed.2, ?_, failed.1⟩,
            rfl, rfl⟩
          exact Bool.eq_false_of_not_eq_true fun held => fresh ⟨failed.2, held⟩
        · exact Or.inl ⟨rfl, rfl⟩

theorem journaled_searchFrom (tg : TokenGraph) (call : Call F) (anchors : List Pubkey)
    (found : Found F) (journaled : Journaled found.rejectedCycles found.journal) :
    let next := anchors.foldl (searchFrom env findNegativeCycle tg call) found
    Journaled next.rejectedCycles next.journal := by
  induction anchors generalizing found with
  | nil => exact journaled
  | cons anchor rest ih =>
      apply ih
      rcases searchFrom_journal env findNegativeCycle tg call found anchor with
        ⟨kept, same⟩ | ⟨key, -, inserted, added⟩
      · rw [kept, same]
        exact journaled
      · rw [inserted, added]
        exact journaled_snoc _ _ (.record key _) journaled

/-- The search adds records only, each when the clock is read for its anchor. -/
theorem journal_searchFrom (tg : TokenGraph) (call : Call F) (anchors : List Pubkey)
    (found : Found F) :
    ∃ records : List (Recency.Op (List Pubkey)),
      (anchors.foldl (searchFrom env findNegativeCycle tg call) found).journal =
        found.journal ++ records ∧
      (∀ op ∈ records, ∃ key since, op = .record key since) ∧
      (records.map Recency.Op.time).Sublist
        (anchors.map (fun anchor => (call.visits anchor).rejectedAt)) := by
  induction anchors generalizing found with
  | nil => exact ⟨[], by simp⟩
  | cons anchor rest ih =>
      rw [List.foldl_cons, List.map_cons]
      rcases ih (searchFrom env findNegativeCycle tg call found anchor) with
        ⟨records, journal, kinds, times⟩
      rw [journal]
      rcases searchFrom_journal env findNegativeCycle tg call found anchor with
        ⟨-, same⟩ | ⟨key, -, -, added⟩
      · rw [same]
        exact ⟨records, rfl, kinds, times.cons _⟩
      · rw [added]
        refine ⟨.record key (call.visits anchor).rejectedAt :: records, by simp, ?_,
          times.cons_cons _⟩
        intro op member
        rcases List.mem_cons.mp member with first | later
        · exact ⟨key, _, first⟩
        · exact kinds op later

/-- The blacklist as the search meets it at an anchor. -/
def blacklistAt (engine : RouteEngine F) (tg : TokenGraph) (call : Call F)
    (before : List Pubkey) : Found F :=
  before.foldl (searchFrom env findNegativeCycle tg call) (pruned engine call)

theorem times_blacklistAt (engine : RouteEngine F) (tg : TokenGraph) (call : Call F)
    (before : List Pubkey) (order : before <+: anchorTokens) :
    ((blacklistAt env findNegativeCycle engine tg call before).journal.map
      Recency.Op.time).Sublist (engine.journal.map Recency.Op.time ++ call.readings) := by
  rcases journal_searchFrom env findNegativeCycle tg call before (pruned engine call) with
    ⟨records, journal, -, times⟩
  rw [blacklistAt, journal, pruned, List.map_append, List.map_append, List.append_assoc]
  refine List.Sublist.append (List.Sublist.refl _) ((List.Sublist.cons_cons _ ?_).cons _)
  exact (times.trans ((order.map _).sublist)).trans (List.sublist_append_left _ _)

/-- The graph a call searches. -/
def searchedGraph (engine : RouteEngine F) (call : Call F) : TokenGraph :=
  (scanGraph env engine.persistentGraph call.scan).graph

/-- A call leaves the blacklist alone or does one whole search. -/
theorem searchStep_blacklist (engine : RouteEngine F) (call : Call F) :
    let next := searchStep env findNegativeCycle engine call
    let found := blacklistAt env findNegativeCycle engine (searchedGraph env engine call) call
      anchorTokens
    next.rejectedCycles = engine.rejectedCycles ∧ next.journal = engine.journal ∨
      next.rejectedCycles = found.rejectedCycles ∧ next.journal = found.journal := by
  intro next found
  simp only [next, searchStep, findOpportunitiesMulti, findOpportunitiesInner]
  split
  · exact Or.inl ⟨rfl, rfl⟩
  · split
    · exact Or.inl ⟨rfl, rfl⟩
    · exact Or.inr ⟨rfl, rfl⟩

theorem journaled_run (now : Instant) (calls : List (Call F)) :
    let engine := run (searchStep env findNegativeCycle) (.new F now) calls
    Journaled engine.rejectedCycles engine.journal := by
  apply run_invariant (searchStep env findNegativeCycle)
    (fun engine => Journaled engine.rejectedCycles engine.journal)
  · rfl
  · intro pair _ journaled
    rcases searchStep_blacklist env findNegativeCycle pair.1 pair.2 with
      ⟨kept, same⟩ | ⟨changed, journal⟩
    · rw [kept, same]
      exact journaled
    · rw [changed, journal]
      exact journaled_searchFrom env findNegativeCycle _ _ _ _ (journaled_pruned _ _ journaled)

theorem times_run (now : Instant) (calls : List (Call F)) :
    ((run (searchStep env findNegativeCycle) (.new F now) calls).journal.map
      Recency.Op.time).Sublist (calls.flatMap Call.readings) := by
  induction calls using List.reverseRecOn with
  | nil => exact List.Sublist.refl _
  | append_singleton calls call ih =>
      rw [run_append, run_cons, run_nil, List.flatMap_append, List.flatMap_singleton]
      rcases searchStep_blacklist env findNegativeCycle
        (run (searchStep env findNegativeCycle) (.new F now) calls) call with
        ⟨-, same⟩ | ⟨-, journal⟩
      · rw [same]
        exact ih.trans (List.sublist_append_left _ _)
      · rw [journal]
        exact (times_blacklistAt env findNegativeCycle _ _ _ _ (List.prefix_refl _)).trans
          (ih.append (List.Sublist.refl _))

section Searching

variable (now : Instant) (calls : List (Call F)) (call : Call F)

/-- The graph of a call that comes after the others. -/
def metGraph : TokenGraph :=
  searchedGraph env (run (searchStep env findNegativeCycle) (.new F now) calls) call

/-- What such a call has found when it comes to an anchor. -/
def metAt (before : List Pubkey) : Found F :=
  blacklistAt env findNegativeCycle (run (searchStep env findNegativeCycle) (.new F now) calls)
    (metGraph env findNegativeCycle now calls call) call before

theorem timed_metAt (before : List Pubkey) (order : before <+: anchorTokens)
    (clocked : Clocked (calls ++ [call])) :
    Recency.Timed (metAt env findNegativeCycle now calls call before).journal := by
  rw [Clocked, List.flatMap_append, List.flatMap_singleton] at clocked
  refine clocked.sublist ?_
  exact (times_blacklistAt env findNegativeCycle _ _ _ _ order).trans
    ((times_run env findNegativeCycle now calls).append (List.Sublist.refl _))

theorem journaled_metAt (before : List Pubkey) :
    Journaled (metAt env findNegativeCycle now calls call before).rejectedCycles
      (metAt env findNegativeCycle now calls call before).journal :=
  journaled_searchFrom env findNegativeCycle _ _ _ _
    (journaled_pruned _ _ (journaled_run env findNegativeCycle now calls))

/-- The pruning of the call is the last one. -/
theorem pruned_metAt (before : List Pubkey) (clocked : Clocked (calls ++ [call])) :
    .prune call.prunedAt ∈ (metAt env findNegativeCycle now calls call before).journal ∧
      ∀ time, .prune time ∈ (metAt env findNegativeCycle now calls call before).journal →
        time ≤ call.prunedAt := by
  have timed := timed_metAt env findNegativeCycle now calls call [] (List.nil_prefix) clocked
  rcases journal_searchFrom env findNegativeCycle
    (metGraph env findNegativeCycle now calls call) call before
    (pruned (run (searchStep env findNegativeCycle) (.new F now) calls) call) with
    ⟨records, journal, kinds, -⟩
  have whole : (metAt env findNegativeCycle now calls call before).journal =
      (run (searchStep env findNegativeCycle) (.new F now) calls).journal ++
        [.prune call.prunedAt] ++ records := journal
  rw [whole]
  refine ⟨by simp, ?_⟩
  intro time member
  rcases List.mem_append.mp member with old | late
  · rcases List.mem_append.mp old with earlier | same
    · exact (Recency.timed_append _ _ timed).2 _ earlier
    · cases List.mem_singleton.mp same
      exact Nat.le_refl _
  · rcases kinds _ late with ⟨key, since, other⟩
    cases other

/-- A cycle is on the blacklist exactly if it was rejected less than ten seconds before
the call's pruning. -/
theorem blacklisted_iff (before : List Pubkey) (order : before <+: anchorTokens)
    (clocked : Clocked (calls ++ [call])) (key : List Pubkey) :
    HashMap.containsKey (metAt env findNegativeCycle now calls call before).rejectedCycles key =
        true ↔
      ∃ since, .record key since ∈ (metAt env findNegativeCycle now calls call before).journal ∧
        call.prunedAt - since < rejectionWindow := by
  have timed := timed_metAt env findNegativeCycle now calls call before order clocked
  rcases pruned_metAt env findNegativeCycle now calls call before clocked with ⟨own, last⟩
  rw [journaled_metAt env findNegativeCycle now calls call before]
  refine (Recency.isSome_get_run rejectionWindow _ (by norm_num [rejectionWindow]) timed
    key).trans ?_
  constructor
  · rintro ⟨since, recorded, young⟩
    exact ⟨since, recorded, young _ own⟩
  · rintro ⟨since, recorded, young⟩
    refine ⟨since, recorded, ?_⟩
    intro time member
    exact (Nat.sub_le_sub_right (last time member) since).trans_lt young

/-- No anchor's cycle is rejected again within ten seconds of its last rejection. -/
theorem spaced_metAt (before : List Pubkey) (order : before <+: anchorTokens)
    (clocked : Clocked (calls ++ [call]))
    (spaced : Recency.Spaced rejectionWindow
      (run (searchStep env findNegativeCycle) (.new F now) calls).journal) :
    Recency.Spaced rejectionWindow
      (metAt env findNegativeCycle now calls call before).journal := by
  induction before using List.reverseRecOn with
  | nil => exact Recency.spaced_prune _ _ _ spaced
  | append_singleton before anchor ih =>
      have earlier : before <+: anchorTokens := (List.prefix_append _ _).trans order
      have timed := timed_metAt env findNegativeCycle now calls call _ order clocked
      have held := journaled_metAt env findNegativeCycle now calls call before
      have next : metAt env findNegativeCycle now calls call (before ++ [anchor]) =
          searchFrom env findNegativeCycle (metGraph env findNegativeCycle now calls call) call
            (metAt env findNegativeCycle now calls call before) anchor := by
        rw [metAt, blacklistAt, List.foldl_append]
        rfl
      rw [next] at timed ⊢
      rcases searchFrom_journal env findNegativeCycle
        (metGraph env findNegativeCycle now calls call) call
        (metAt env findNegativeCycle now calls call before) anchor with
        ⟨-, same⟩ | ⟨key, ⟨cycleNodes, -, -, -, absent, -⟩, -, added⟩
      · rw [same]
        exact ih earlier
      · rw [added] at timed ⊢
        rw [held] at absent
        exact Recency.spaced_record _ _ (by norm_num [rejectionWindow]) key _ timed (ih earlier)
          absent

theorem spaced_run (clocked : Clocked calls) :
    Recency.Spaced rejectionWindow
      (run (searchStep env findNegativeCycle) (.new F now) calls).journal := by
  induction calls using List.reverseRecOn with
  | nil => exact List.Pairwise.nil
  | append_singleton calls call ih =>
      have before : Clocked calls := by
        rw [Clocked, List.flatMap_append] at clocked
        exact clocked.sublist (List.sublist_append_left _ _)
      rw [run_append, run_cons, run_nil]
      rcases searchStep_blacklist env findNegativeCycle
        (run (searchStep env findNegativeCycle) (.new F now) calls) call with
        ⟨-, same⟩ | ⟨-, journal⟩
      · rw [same]
        exact ih before
      · rw [journal]
        exact spaced_metAt env findNegativeCycle now calls call anchorTokens
          (List.prefix_refl _) clocked (ih before)

end Searching

end Rejections

section Answers

variable {F : Type} [FloatArith F] (env : Env F)
  (findNegativeCycle : TokenGraph → Nat → Option (List Nat))

/-! What a search finds, and which search an answer is from. -/

/-- The best route of an anchor's cycle over the borrow amounts of a call. -/
def BestFrom (tg : TokenGraph) (call : Call F) (anchor : Pubkey) (route : RouteParams F) : Prop :=
  ∃ cycleNodes, cycleFrom findNegativeCycle tg anchor = some cycleNodes ∧
    route ∈ attempts env tg (call.visits anchor) cycleNodes call.borrowAmounts ∧
      minNetProfitLamports ≤ route.netProfit ∧
        ∀ other ∈ attempts env tg (call.visits anchor) cycleNodes call.borrowAmounts,
          other.netProfit ≤ route.netProfit

/-- One anchor adds the best route of its cycle or nothing, and never nothing when the
cycle is looked at and some amount nets enough. -/
theorem searchFrom_routes (tg : TokenGraph) (call : Call F) (found : Found F)
    (anchor : Pubkey) :
    ∃ best : Option (RouteParams F),
      (searchFrom env findNegativeCycle tg call found anchor).routes =
        found.routes ++ best.toList ∧
      (∀ route, best = some route → BestFrom env findNegativeCycle tg call anchor route) ∧
      ∀ cycleNodes, cycleFrom findNegativeCycle tg anchor = some cycleNodes →
        (cycleKey tg cycleNodes = [] ∨
          HashMap.containsKey found.rejectedCycles (cycleKey tg cycleNodes) = false) →
        ∀ other ∈ attempts env tg (call.visits anchor) cycleNodes call.borrowAmounts,
          minNetProfitLamports ≤ other.netProfit →
            ∃ route, best = some route ∧ other.netProfit ≤ route.netProfit := by
  cases cycle : cycleFrom findNegativeCycle tg anchor with
  | none => exact ⟨none, by simp [searchFrom, cycle], by simp, by simp⟩
  | some cycleNodes =>
      by_cases skipped : cycleKey tg cycleNodes ≠ [] ∧
          HashMap.containsKey found.rejectedCycles (cycleKey tg cycleNodes) = true
      · refine ⟨none, by simp [searchFrom, cycle, skipped], by simp, ?_⟩
        intro other same fresh
        cases same
        rcases fresh with empty | absent
        · exact absurd empty skipped.1
        · rw [skipped.2] at absent
          cases absent
      · rcases foldl_keepBetter
          (attempts env tg (call.visits anchor) cycleNodes call.borrowAmounts) with
          ⟨sound, complete⟩
        refine ⟨(attempts env tg (call.visits anchor) cycleNodes call.borrowAmounts).foldl
          keepBetter none, ?_, ?_, ?_⟩
        · simp only [searchFrom, cycle, if_neg skipped]
          split <;> rfl
        · intro route best
          rcases sound route best with ⟨member, high, greatest⟩
          exact ⟨cycleNodes, cycle, member, high, greatest⟩
        · intro other same _
          cases same
          exact complete

/-- What a call's search promises of its routes, in the state `engine` it starts from. -/
structure Searched (engine : RouteEngine F) (call : Call F) (routes : List (RouteParams F)) :
    Prop where
  sorted : routes.Pairwise (fun first second => second.netProfit ≤ first.netProfit)
  few : routes.length ≤ anchorTokens.length
  best : ∀ route ∈ routes, ∃ anchor ∈ anchorTokens,
    BestFrom env findNegativeCycle (searchedGraph env engine call) call anchor route
  /-- Every cycle that is not passed over is answered for. -/
  complete : 2 ≤ (searchedGraph env engine call).graph.nodes.length →
    ∀ before anchor after, anchorTokens = before ++ anchor :: after → ∀ cycleNodes,
      cycleFrom findNegativeCycle (searchedGraph env engine call) anchor = some cycleNodes →
      (cycleKey (searchedGraph env engine call) cycleNodes = [] ∨
        HashMap.containsKey (blacklistAt env findNegativeCycle engine
          (searchedGraph env engine call) call before).rejectedCycles
          (cycleKey (searchedGraph env engine call) cycleNodes) = false) →
      ∀ other ∈ attempts env (searchedGraph env engine call) (call.visits anchor) cycleNodes
          call.borrowAmounts, minNetProfitLamports ≤ other.netProfit →
        ∃ route ∈ routes, other.netProfit ≤ route.netProfit

/-- The routes of a search grow from anchor to anchor. -/
theorem foldl_searchFrom_routes (tg : TokenGraph) (call : Call F) (anchors : List Pubkey)
    (found : Found F) :
    ∃ added : List (RouteParams F),
      (anchors.foldl (searchFrom env findNegativeCycle tg call) found).routes =
        found.routes ++ added ∧ added.length ≤ anchors.length ∧
      ∀ route ∈ added, ∃ anchor ∈ anchors, BestFrom env findNegativeCycle tg call anchor route := by
  induction anchors generalizing found with
  | nil => exact ⟨[], by simp⟩
  | cons anchor rest ih =>
      rcases searchFrom_routes env findNegativeCycle tg call found anchor with
        ⟨best, first, sound, -⟩
      rcases ih (searchFrom env findNegativeCycle tg call found anchor) with
        ⟨added, later, few, others⟩
      refine ⟨best.toList ++ added, ?_, ?_, ?_⟩
      · rw [List.foldl_cons, later, first, List.append_assoc]
      · have one : best.toList.length ≤ 1 := Option.length_toList_le
        rw [List.length_append, List.length_cons]
        omega
      · intro route member
        rcases List.mem_append.mp member with here | there
        · exact ⟨anchor, List.mem_cons_self, sound route (Option.mem_toList.mp here)⟩
        · rcases others route there with ⟨other, among, ofOther⟩
          exact ⟨other, List.mem_cons_of_mem _ among, ofOther⟩

theorem searched_inner (engine : RouteEngine F) (call : Call F) :
    Searched env findNegativeCycle engine call
      (findOpportunitiesInner env findNegativeCycle engine call).2 := by
  have found := foldl_searchFrom_routes env findNegativeCycle (searchedGraph env engine call) call
    anchorTokens (pruned engine call)
  by_cases small : (searchedGraph env engine call).graph.nodes.length < 2
  · have empty : (findOpportunitiesInner env findNegativeCycle engine call).2 = [] := by
      unfold findOpportunitiesInner
      exact congrArg Prod.snd (if_pos small)
    rw [empty]
    exact {
      sorted := List.Pairwise.nil
      few := Nat.zero_le _
      best := by simp
      complete := fun large => absurd small (not_lt.mpr large) }
  · have routes : (findOpportunitiesInner env findNegativeCycle engine call).2 =
        (anchorTokens.foldl (searchFrom env findNegativeCycle (searchedGraph env engine call) call)
          (pruned engine call)).routes.mergeSort
            (fun first second => decide (second.netProfit ≤ first.netProfit)) := by
      unfold findOpportunitiesInner
      exact congrArg Prod.snd (if_neg small)
    rw [routes]
    exact {
      sorted := by
        refine (List.pairwise_mergeSort ?_ ?_ _).imp (fun ordered => of_decide_eq_true ordered)
        · intro first second third early late
          simp only [decide_eq_true_eq] at early late ⊢
          exact late.trans early
        · intro first second
          simp only [Bool.or_eq_true, decide_eq_true_eq]
          exact le_total _ _
      few := by
        rcases found with ⟨added, whole, few, -⟩
        rw [List.length_mergeSort, whole]
        exact few
      best := by
        rcases found with ⟨added, whole, -, sound⟩
        intro route member
        rw [List.mem_mergeSort, whole] at member
        exact sound route member
      complete := by
        intro _ before anchor after order cycleNodes cycle fresh other member high
        rcases searchFrom_routes env findNegativeCycle (searchedGraph env engine call) call
          (blacklistAt env findNegativeCycle engine (searchedGraph env engine call) call before)
          anchor with ⟨best, here, -, complete⟩
        rcases complete cycleNodes cycle fresh other member high with ⟨route, isBest, above⟩
        rcases foldl_searchFrom_routes env findNegativeCycle (searchedGraph env engine call) call
          after (searchFrom env findNegativeCycle (searchedGraph env engine call) call
            (blacklistAt env findNegativeCycle engine (searchedGraph env engine call) call before)
            anchor) with ⟨added, later, -, -⟩
        refine ⟨route, ?_, above⟩
        rw [List.mem_mergeSort, order, List.foldl_append, List.foldl_cons]
        rw [blacklistAt] at here later
        rw [later, here, isBest]
        simp }

/-- The kept answer is that of the last call which searched, or the empty one from the start. -/
def Keeps (now : Instant) (calls : List (Call F)) (kept : RouteCache F) : Prop :=
  kept.routes = [] ∨ ∃ before asked later, calls = before ++ asked :: later ∧
    cacheHit (run (searchStep env findNegativeCycle) (.new F now) before) asked = false ∧
    kept = ⟨asked.swapGen, (findOpportunitiesInner env findNegativeCycle
      (run (searchStep env findNegativeCycle) (.new F now) before) asked).2, asked.computedAt⟩ ∧
    run (searchStep env findNegativeCycle) (.new F now) calls =
      run (searchStep env findNegativeCycle) (.new F now) (before ++ [asked])

theorem searchStep_hit (engine : RouteEngine F) (call : Call F)
    (hit : cacheHit engine call = true) :
    searchStep env findNegativeCycle engine call = engine ∧
      answer env findNegativeCycle engine call = engine.routeCache.routes := by
  rw [searchStep, answer, findOpportunitiesMulti, if_pos hit]
  exact ⟨rfl, rfl⟩

theorem searchStep_miss (engine : RouteEngine F) (call : Call F)
    (missed : cacheHit engine call = false) :
    (searchStep env findNegativeCycle engine call).routeCache =
        ⟨call.swapGen, (findOpportunitiesInner env findNegativeCycle engine call).2,
          call.computedAt⟩ ∧
      answer env findNegativeCycle engine call =
        (findOpportunitiesInner env findNegativeCycle engine call).2 := by
  rw [searchStep, answer, findOpportunitiesMulti,
    if_neg (show ¬cacheHit engine call = true by rw [missed]; decide)]
  exact ⟨rfl, rfl⟩

theorem keeps_run (now : Instant) (calls : List (Call F)) :
    Keeps env findNegativeCycle now calls
      (run (searchStep env findNegativeCycle) (.new F now) calls).routeCache := by
  induction calls using List.reverseRecOn with
  | nil => exact Or.inl rfl
  | append_singleton calls call ih =>
      cases hit : cacheHit (run (searchStep env findNegativeCycle) (.new F now) calls) call with
      | true =>
          have same := (searchStep_hit env findNegativeCycle _ call hit).1
          rw [run_append, run_cons, run_nil, same]
          rcases ih with empty | ⟨before, asked, later, split, missed, kept, idle⟩
          · exact Or.inl empty
          · refine Or.inr ⟨before, asked, later ++ [call], by simp [split], missed, kept, ?_⟩
            rw [run_append, run_cons, run_nil, same, idle]
      | false =>
          have renewed := (searchStep_miss env findNegativeCycle _ call hit).1
          rw [run_append, run_cons, run_nil]
          exact Or.inr ⟨calls, call, [], rfl, hit, renewed, rfl⟩

end Answers

/-! Two calls a third of a second apart, over two pools with a profit between them. -/

/-- The first pool trades WSOL for a token at par, the second pays a tenth more back. -/
def profitPools : List DexPool :=
  [cyclePool 1 wsol (.ofNat 5) (10 ^ 9), cyclePool 2 (.ofNat 5) wsol (11 * 10 ^ 8)]

theorem profitPools_distinct : (profitPools.map DexPool.poolAddress).Nodup := by decide

def profitScan (now : Instant) : Scan Double := ⟨profitPools, profitPools_distinct, none, now⟩

def profitCall (borrowAmount : Nat) (now : Instant) : Call Double :=
  ⟨[borrowAmount], 2, now, profitScan now, now,
    fun _ => ⟨profitPools.foldl PoolStateCache.upsert PoolStateCache.new, now, now⟩, now⟩

/-- Stands for the detection on this graph: from WSOL there is the cycle through both pools. -/
def pairCycle (tg : TokenGraph) (start : Nat) : Option (List Nat) :=
  if start + 1 < tg.graph.nodes.length then some [start, start + 1] else none

end Helios.RouteSearch
