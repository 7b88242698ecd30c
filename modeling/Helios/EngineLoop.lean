import Helios.FlashLoans
import Helios.NewPoolMonitor
import Helios.Runs

/-! The loop of the route engine: it drains its channel to the newest signal, passes two
gates, collects routes, and hands on those that its filters leave. What the scans find and
the predictors say is given from outside. Each signal and each route is recorded with what
became of it. -/

namespace Helios

inductive LiquidityEventType where
  | added (amountA amountB : Nat)
  | removed (amountA amountB : Nat)
  | singleSided (tokenMint : Pubkey) (amount : Nat)

inductive SpySignal (F : Type) where
  | newTransaction (slot : Nat) (tx : SwapDecoder.TxMessage) (detectedAt : Instant)
  | whaleSwap (slot : Nat) (tx : SwapDecoder.TxMessage) (pool : Pubkey) (impactPct : F)
  | graduation (slot : Nat) (tokenMint pumpPool : Pubkey) (source : String)
      (creator poolBaseMint poolQuoteMint : Option Pubkey)
  | liquidityEvent (slot : Nat) (pool : Pubkey) (eventType : LiquidityEventType)

namespace SpySignal

variable {F : Type}

def isGraduation : SpySignal F → Bool
  | .graduation .. => true
  | _ => false

def isWhale : SpySignal F → Bool
  | .whaleSwap .. => true
  | _ => false

def isTransaction : SpySignal F → Bool
  | .newTransaction .. => true
  | _ => false

/-- Only a transaction brings the time it was detected; the others are stamped by the loop. -/
def detectedAt (now : Instant) : SpySignal F → Instant
  | .newTransaction _ _ detectedAt => detectedAt
  | _ => now

end SpySignal

namespace FlashProvider

def priority : FlashProvider → Nat
  | .marginFi => 0
  | .portFinance => 1
  | .solend => 2
  | .kamino => 3

end FlashProvider

structure FlashProviderInfo where
  provider : FlashProvider
  availableLamports : Nat
  healthy : Bool

namespace FlashSelector

/-- `FlashSelector::new`. -/
def providers : List FlashProviderInfo :=
  [⟨.marginFi, 10000000000000, true⟩, ⟨.portFinance, 5000000000000, false⟩,
    ⟨.solend, 8000000000000, true⟩, ⟨.kamino, 15000000000000, true⟩]

/-- The healthy lender of the lowest fee that has enough, then of the lowest priority number. -/
def select (borrowAmount : Nat) : Option FlashProvider :=
  let candidates := providers.filter (fun info =>
    info.healthy && decide (borrowAmount ≤ info.availableLamports))
  let sorted := candidates.insertionSort (fun first second =>
    first.provider.feeBps < second.provider.feeBps ∨
      first.provider.feeBps = second.provider.feeBps ∧
        first.provider.priority ≤ second.provider.priority)
  sorted.head?.map FlashProviderInfo.provider

end FlashSelector

namespace EngineLoop

open Machine Runs

def elapsedMillis (since now : Instant) : Nat := (now - since) / 10 ^ 6

/-- The environment variables the loop reads. -/
structure Settings where
  maxSignalAgeMs : Nat
  bfCooldownMs : Nat
  jitoOnly : Bool
  /-- The capacities of the two channels. -/
  signalCapacity : Nat
  routeCapacity : Nat

variable {F : Type}

/-- What the scans of one pass find, and how long they take. -/
structure Scans (F : Type) where
  graduationArb : List (RouteParams F)
  graduationPairs : List (RouteParams F)
  bellmanFord : List (RouteParams F)
  crossDex : List (RouteParams F)
  threeHop : List (RouteParams F)
  hotRoutes : List (RouteParams F)
  multihop : List (RouteParams F)
  eventPairs : List (RouteParams F)
  cyclic : List (RouteParams F)
  dlmmWhirlpool : List (RouteParams F)
  whaleBackrun : List (RouteParams F)
  stablecoin : List (RouteParams F)
  secondPools : List (SecondPoolArbOpportunity F)
  lst : List (RouteParams F)
  routeMs : Nat

/-- The routes of a pass behind those taken from the channel, in the loop's order. -/
def foundRoutes (signal : SpySignal F) (signalsTotal : Nat) (scans : Scans F) :
    List (RouteParams F) :=
  (if signal.isGraduation then scans.graduationArb ++ scans.graduationPairs else []) ++
  (if signalsTotal % 10 = 0 then scans.bellmanFord else []) ++
  scans.crossDex ++ scans.threeHop ++ scans.hotRoutes ++ scans.multihop ++
  (if signal.isWhale || signal.isTransaction then scans.eventPairs else []) ++
  (if signalsTotal % 10 = 0 then scans.cyclic else []) ++
  scans.dlmmWhirlpool ++
  (if signal.isWhale then scans.whaleBackrun else []) ++
  (if signalsTotal % 10 = 0 then scans.stablecoin else []) ++
  scans.secondPools.flatMap SecondPoolArbOpportunity.routes ++
  scans.lst

def isHighConviction (route : RouteParams F) : Bool :=
  decide (route.strategy ∈ ["pump_graduation_arb", "new_pool_arb", "graduation_pair_scan"])

def emissionRank (route : RouteParams F) : Nat :=
  if route.strategy = "pump_graduation_arb" then 0
  else if route.strategy ∈ ["hot-route", "whale-backrun"] then 1
  else 2

/-- The order of emission: by strategy, then by tier, then by profit. -/
def EmittedBefore (first second : RouteParams F) : Prop :=
  emissionRank first < emissionRank second ∨
    emissionRank first = emissionRank second ∧
      (first.tier < second.tier ∨
        first.tier = second.tier ∧ second.netProfit ≤ first.netProfit)

instance (first second : RouteParams F) : Decidable (EmittedBefore first second) := by
  unfold EmittedBefore
  infer_instance

/-- What the scorer and the predictors say of a route. -/
structure Verdict where
  viable : Bool
  /-- The decision engine takes the route. -/
  decided : Bool
  /-- The spread is likely to last. -/
  survives : Bool

/-- What became of a signal. -/
inductive SignalFate (F : Type) where
  | superseded (newer : SpySignal F)
  | stale (ageMs : Nat)
  | cooledDown (sinceZeroMs swapGenDelta : Nat)
  | scanned (graduationArb : List (RouteParams F))

/-- What became of a route. -/
inductive RouteFate where
  | blacklisted
  | threeHopFiltered
  | gated (swapGen : Nat)
  | noFlashProvider
  | scoreNotViable
  | undecided
  | spreadSurvival
  | emitted (id : Nat) (flashProvider : FlashProvider)
  deriving DecidableEq

/-- The filters of the emission loop, in its order. -/
def considered (settings : Settings) (id : Nat) (route : RouteParams F) (verdict : Verdict) :
    RouteFate :=
  let bypassed := isHighConviction route || settings.jitoOnly
  match FlashSelector.select route.borrowAmount with
  | none => .noFlashProvider
  | some provider =>
      if !verdict.viable && !isHighConviction route then .scoreNotViable
      else if !verdict.decided && !bypassed then .undecided
      else if !verdict.survives && !bypassed then .spreadSurvival
      else .emitted id provider

/-- Where the loop stands, with what it holds. -/
inductive Phase (F : Type) where
  | waiting
  | draining (latest : SpySignal F) (drained : Nat)
  | aging (signal : SpySignal F)
  | cooling (signal : SpySignal F)
  | collecting (signal : SpySignal F) (swapGen : Nat) (routes : List (RouteParams F))
  | scanning (signal : SpySignal F) (swapGen : Nat) (routes : List (RouteParams F))
  | choosing (swapGen : Nat) (routes : List (RouteParams F))
  | emitting (routes : List (RouteParams F))

namespace Phase

/-- The signal taken from the channel whose fate is open. -/
def signals : Phase F → List (SpySignal F)
  | .draining latest _ => [latest]
  | .aging signal => [signal]
  | .cooling signal => [signal]
  | .collecting signal _ _ => [signal]
  | .scanning signal _ _ => [signal]
  | _ => []

/-- The routes whose fate is open. -/
def routes : Phase F → List (RouteParams F)
  | .collecting _ _ routes => routes
  | .scanning _ _ routes => routes
  | .choosing _ routes => routes
  | .emitting routes => routes
  | _ => []

end Phase

/-- The record of the work taken on. -/
structure Record (F : Type) where
  received : List (SpySignal F)
  signalFates : List (SpySignal F × SignalFate F)
  taken : List (RouteParams F)
  routeFates : List (RouteParams F × RouteFate)
  /-- The generations at which routes were passed to the emission loop. -/
  emittedGens : List Nat

structure Engine (F : Type) where
  signals : List (SpySignal F)
  routes : List (RouteParams F)
  swapGeneration : Nat
  phase : Phase F
  signalsTotal : Nat
  lastLog : Instant
  lastEmittedSwapGen : Nat
  lastBfZeroTime : Instant
  lastBfZeroSwapGen : Nat
  nextId : Nat
  record : Record F

inductive Event (F : Type) where
  /-- Another thread's `try_send`. -/
  | arrive (signal : SpySignal F)
  | offer (route : RouteParams F)
  | bumpSwapGeneration
  | receive
  | tryNewer
  /-- The clock when the signal is stamped and when its age is looked at. -/
  | lookAtAge (stamped looked : Instant)
  | lookAtCooldown (now : Instant)
  | takeRoute
  | scan (now : Instant) (scans : Scans F)
  | choose (blacklisted unlikely : RouteParams F → Bool)
  | consider (verdict : Verdict)

def signalDone (engine : Engine F) (signal : SpySignal F) (fate : SignalFate F) : Engine F :=
  { engine with record := { engine.record with
      signalFates := engine.record.signalFates ++ [(signal, fate)] } }

def routesDone (engine : Engine F) (routes : List (RouteParams F)) (fate : RouteFate) : Engine F :=
  { engine with record := { engine.record with
      routeFates := engine.record.routeFates ++ routes.map (fun route => (route, fate)) } }

def received (engine : Engine F) (signal : SpySignal F) : Engine F :=
  { engine with record := { engine.record with received := engine.record.received ++ [signal] } }

def took (engine : Engine F) (routes : List (RouteParams F)) : Engine F :=
  { engine with record := { engine.record with taken := engine.record.taken ++ routes } }

def maxAge (settings : Settings) (signal : SpySignal F) : Nat :=
  if signal.isGraduation then 2000 else settings.maxSignalAgeMs

/-- The scans of a pass. Without any route, and with a real search, the cooldown begins. -/
def scanStep (engine : Engine F) (signal : SpySignal F) (swapGen : Nat)
    (routes : List (RouteParams F)) (now : Instant) (scans : Scans F) : Engine F :=
  let found := foundRoutes signal engine.signalsTotal scans
  let all := routes ++ found
  let idle := all = [] ∧ 1 ≤ scans.routeMs
  let logged := 30 ≤ (now - engine.lastLog) / 10 ^ 9
  signalDone
    { took engine found with
      phase := .choosing swapGen all
      lastBfZeroTime := if idle then now else engine.lastBfZeroTime
      lastBfZeroSwapGen := if idle then swapGen else engine.lastBfZeroSwapGen
      signalsTotal := if logged then 0 else engine.signalsTotal
      lastLog := if logged then now else engine.lastLog }
    signal (.scanned (if signal.isGraduation then scans.graduationArb else []))

/-- The two filters on the list, and the gate on the swap generation. -/
def chooseStep (engine : Engine F) (swapGen : Nat) (routes : List (RouteParams F))
    (blacklisted unlikely : RouteParams F → Bool) : Engine F :=
  let open_ := routes.filter (fun route => !blacklisted route)
  let filtered (route : RouteParams F) : Bool := decide (3 ≤ route.hops.length) && unlikely route
  let kept := open_.filter (fun route => !filtered route)
  let sifted := routesDone (routesDone engine (routes.filter blacklisted) .blacklisted)
    (open_.filter filtered) .threeHopFiltered
  if kept = [] ∨ swapGen = engine.lastEmittedSwapGen then
    { routesDone sifted kept (.gated swapGen) with phase := .waiting }
  else
    { sifted with
      phase := .emitting (kept.insertionSort EmittedBefore)
      lastEmittedSwapGen := swapGen
      record := { sifted.record with
        emittedGens := sifted.record.emittedGens ++ [swapGen] } }

def considerStep (settings : Settings) (engine : Engine F) (route : RouteParams F)
    (rest : List (RouteParams F)) (verdict : Verdict) : Engine F :=
  let fate := considered settings engine.nextId route verdict
  { routesDone engine [route] fate with
    phase := if rest = [] then .waiting else .emitting rest
    nextId := match fate with
      | .emitted _ _ => saturatingAdd64 engine.nextId 1
      | _ => engine.nextId }

/-- One event. A step of the loop out of its turn does nothing. -/
def step (settings : Settings) (engine : Engine F) : Event F → Engine F
  | .arrive signal =>
      if engine.signals.length < settings.signalCapacity then
        { engine with signals := engine.signals ++ [signal] }
      else engine
  | .offer route =>
      if engine.routes.length < settings.routeCapacity then
        { engine with routes := engine.routes ++ [route] }
      else engine
  | .bumpSwapGeneration =>
      { engine with swapGeneration := wrap 64 (engine.swapGeneration + 1) }
  | .receive =>
      match engine.phase, engine.signals with
      | .waiting, signal :: rest =>
          received { engine with signals := rest, phase := .draining signal 0 } signal
      | _, _ => engine
  | .tryNewer =>
      match engine.phase, engine.signals with
      | .draining latest drained, newer :: rest =>
          received
            (signalDone { engine with signals := rest, phase := .draining newer (drained + 1) }
              latest (.superseded newer))
            newer
      | .draining latest drained, [] =>
          { engine with
            phase := .aging latest
            signalsTotal := wrap 64 (engine.signalsTotal + 1 + drained) }
      | _, _ => engine
  | .lookAtAge stamped looked =>
      match engine.phase with
      | .aging signal =>
          let age := elapsedMillis (signal.detectedAt stamped) looked
          if maxAge settings signal < age then
            signalDone { engine with phase := .waiting } signal (.stale age)
          else { engine with phase := .cooling signal }
      | _ => engine
  | .lookAtCooldown now =>
      match engine.phase with
      | .cooling signal =>
          let sinceZero := elapsedMillis engine.lastBfZeroTime now
          let delta := engine.swapGeneration - engine.lastBfZeroSwapGen
          if sinceZero < settings.bfCooldownMs ∧ delta < 10 then
            signalDone { engine with phase := .waiting } signal (.cooledDown sinceZero delta)
          else { engine with phase := .collecting signal engine.swapGeneration [] }
      | _ => engine
  | .takeRoute =>
      match engine.phase, engine.routes with
      | .collecting signal swapGen routes, route :: rest =>
          took { engine with routes := rest, phase := .collecting signal swapGen (routes ++ [route]) }
            [route]
      | .collecting signal swapGen routes, [] =>
          { engine with phase := .scanning signal swapGen routes }
      | _, _ => engine
  | .scan now scans =>
      match engine.phase with
      | .scanning signal swapGen routes => scanStep engine signal swapGen routes now scans
      | _ => engine
  | .choose blacklisted unlikely =>
      match engine.phase with
      | .choosing swapGen routes => chooseStep engine swapGen routes blacklisted unlikely
      | _ => engine
  | .consider verdict =>
      match engine.phase with
      | .emitting (route :: rest) => considerStep settings engine route rest verdict
      | _ => engine

/-- The loop before its first signal. -/
def start (now : Instant) (swapGeneration : Nat) : Engine F where
  signals := []
  routes := []
  swapGeneration := swapGeneration
  phase := .waiting
  signalsTotal := 0
  lastLog := now
  lastEmittedSwapGen := u64Max
  lastBfZeroTime := now - 10 * 10 ^ 9
  lastBfZeroSwapGen := 0
  nextId := 1
  record := ⟨[], [], [], [], []⟩

/-! Every signal and every route taken on is accounted for. -/

namespace RouteFate

/-- Turned away by a filter on the route itself. -/
def ByFilter : RouteFate → Prop
  | .gated _ => False
  | .emitted _ _ => False
  | _ => True

def IsEmitted : RouteFate → Prop
  | .emitted _ _ => True
  | _ => False

end RouteFate

/-- Why a graduation was not scanned, or that its routes were taken on. -/
def SignalFate.Explains (settings : Settings) (record : Record F) (place : Nat) :
    SignalFate F → Prop
  | .superseded newer => record.received[place + 1]? = some newer
  | .stale ageMs => 2000 < ageMs
  | .cooledDown sinceZeroMs delta => sinceZeroMs < settings.bfCooldownMs ∧ delta < 10
  | .scanned graduationArb => graduationArb ⊆ record.taken

/-- Turned away by a filter, emitted, or held back since routes were emitted at this
generation before. -/
def RouteFate.Explains (record : Record F) (fate : RouteFate) : Prop :=
  fate.ByFilter ∨ fate.IsEmitted ∨
    ∃ gen, fate = .gated gen ∧ (gen = u64Max ∨ gen ∈ record.emittedGens)

/-- For every graduation dealt with. -/
def GraduationsExplained (settings : Settings) (record : Record F) : Prop :=
  ∀ (place : Nat) (signal : SpySignal F) (fate : SignalFate F),
    record.signalFates[place]? = some (signal, fate) → signal.isGraduation = true →
      fate.Explains settings record place

structure Accounted (settings : Settings) (engine : Engine F) : Prop where
  signals : engine.record.received =
    engine.record.signalFates.map Prod.fst ++ engine.phase.signals
  graduations : GraduationsExplained settings engine.record
  routes : engine.record.taken.Perm (engine.record.routeFates.map Prod.fst ++ engine.phase.routes)
  emissions : ∀ entry ∈ engine.record.routeFates, entry.2.Explains engine.record
  lastEmitted : engine.lastEmittedSwapGen = u64Max ∨
    engine.lastEmittedSwapGen ∈ engine.record.emittedGens

theorem RouteFate.explains_of_not_gated (record : Record F) (fate : RouteFate)
    (ungated : ∀ gen, fate ≠ .gated gen) : fate.Explains record := by
  cases fate with
  | gated gen => exact absurd rfl (ungated gen)
  | emitted id provider => exact Or.inr (Or.inl trivial)
  | blacklisted => exact Or.inl trivial
  | threeHopFiltered => exact Or.inl trivial
  | noFlashProvider => exact Or.inl trivial
  | scoreNotViable => exact Or.inl trivial
  | undecided => exact Or.inl trivial
  | spreadSurvival => exact Or.inl trivial

theorem considered_not_gated (settings : Settings) (id : Nat) (route : RouteParams F)
    (verdict : Verdict) (gen : Nat) : considered settings id route verdict ≠ .gated gen := by
  rw [considered]
  split
  · nofun
  · split
    · nofun
    · split
      · nofun
      · split
        · nofun
        · nofun

/-- A record that goes on. -/
structure Extends (before after : Record F) : Prop where
  received : before.received <+: after.received
  taken : before.taken ⊆ after.taken
  emittedGens : before.emittedGens ⊆ after.emittedGens

theorem SignalFate.explains_mono (settings : Settings) (before after : Record F) (place : Nat)
    (fate : SignalFate F) (extended : Extends before after)
    (explains : fate.Explains settings before place) : fate.Explains settings after place := by
  cases fate with
  | superseded newer =>
      rcases extended.received with ⟨later, same⟩
      rw [Explains] at explains ⊢
      rw [← same, List.getElem?_append_left (List.getElem?_eq_some_iff.mp explains).1]
      exact explains
  | stale ageMs => exact explains
  | cooledDown sinceZeroMs delta => exact explains
  | scanned graduationArb => exact List.Subset.trans explains extended.taken

theorem RouteFate.explains_mono (before after : Record F) (fate : RouteFate)
    (extended : Extends before after) (explains : fate.Explains before) : fate.Explains after := by
  rcases explains with filtered | emitted | ⟨gen, gated, known⟩
  · exact Or.inl filtered
  · exact Or.inr (Or.inl emitted)
  · exact Or.inr (Or.inr ⟨gen, gated, known.imp id (fun member => extended.emittedGens member)⟩)

theorem graduationsExplained_extends (settings : Settings) (before after : Record F)
    (extended : Extends before after) (fates : after.signalFates = before.signalFates)
    (explained : GraduationsExplained settings before) : GraduationsExplained settings after := by
  intro place signal fate found graduation
  rw [fates] at found
  exact fate.explains_mono settings before after place extended
    (explained place signal fate found graduation)

/-- One signal more is dealt with. -/
theorem graduationsExplained_done (settings : Settings) (before after : Record F)
    (signal : SpySignal F) (fate : SignalFate F) (extended : Extends before after)
    (fates : after.signalFates = before.signalFates ++ [(signal, fate)])
    (explained : GraduationsExplained settings before)
    (new : signal.isGraduation = true →
      fate.Explains settings after before.signalFates.length) :
    GraduationsExplained settings after := by
  intro place other otherFate found graduation
  rw [fates, List.getElem?_append] at found
  split at found
  · exact otherFate.explains_mono settings before after place extended
      (explained place other otherFate found graduation)
  · next past =>
      rcases List.getElem?_eq_some_iff.mp found with ⟨inside, same⟩
      have last : place = before.signalFates.length := by
        simp only [List.length_singleton] at inside
        omega
      subst last
      simp only [Nat.sub_self, List.getElem_cons_zero, Prod.mk.injEq] at same
      rw [← same.1] at graduation
      rw [← same.2]
      exact new graduation

/-- A step that deals with nothing. -/
theorem accounted_moved (settings : Settings) (before after : Engine F)
    (accounted : Accounted settings before) (record : after.record = before.record)
    (signals : after.phase.signals = before.phase.signals)
    (routes : after.phase.routes = before.phase.routes)
    (gen : after.lastEmittedSwapGen = before.lastEmittedSwapGen) : Accounted settings after where
  signals := by
    rw [record, signals]
    exact accounted.signals
  graduations := by
    rw [record]
    exact accounted.graduations
  routes := by
    rw [record, routes]
    exact accounted.routes
  emissions := by
    rw [record]
    exact accounted.emissions
  lastEmitted := by
    rw [record, gen]
    exact accounted.lastEmitted

/-- A step that deals with one signal and neither takes nor loses a route. -/
theorem accounted_signalDone (settings : Settings) (before after : Engine F)
    (signal : SpySignal F) (fate : SignalFate F) (accounted : Accounted settings before)
    (held : before.phase.signals = [signal]) (released : after.phase.signals = [])
    (routes : after.phase.routes = before.phase.routes)
    (record : after.record = (signalDone before signal fate).record)
    (gen : after.lastEmittedSwapGen = before.lastEmittedSwapGen)
    (explained : signal.isGraduation = true →
      fate.Explains settings before.record before.record.signalFates.length) :
    Accounted settings after where
  signals := by
    rw [record, released, List.append_nil]
    have signals := accounted.signals
    rw [held] at signals
    rw [signalDone]
    dsimp only
    rw [signals, List.map_append, List.map_singleton]
  graduations := by
    rw [record]
    exact graduationsExplained_done settings before.record _ signal fate
      ⟨List.prefix_rfl, List.Subset.refl _, List.Subset.refl _⟩ rfl accounted.graduations
      (fun graduation => fate.explains_mono settings before.record _ _
        ⟨List.prefix_rfl, List.Subset.refl _, List.Subset.refl _⟩ (explained graduation))
  routes := by
    rw [record, routes]
    exact accounted.routes
  emissions := by
    rw [record]
    exact accounted.emissions
  lastEmitted := by
    rw [record, gen]
    exact accounted.lastEmitted

theorem accounted_receive (settings : Settings) (engine : Engine F) (signal : SpySignal F)
    (rest : List (SpySignal F)) (accounted : Accounted settings engine)
    (phase : engine.phase = .waiting) :
    Accounted settings
      (received { engine with signals := rest, phase := .draining signal 0 } signal) where
  signals := by
    have signals := accounted.signals
    rw [phase] at signals
    have dealt : engine.record.received = engine.record.signalFates.map Prod.fst :=
      signals.trans (List.append_nil _)
    rw [received]
    dsimp only
    rw [dealt]
    rfl
  graduations := graduationsExplained_extends settings engine.record _
    ⟨List.prefix_append _ _, List.Subset.refl _, List.Subset.refl _⟩ rfl accounted.graduations
  routes := by
    have routes := accounted.routes
    rw [phase] at routes
    exact routes
  emissions := accounted.emissions
  lastEmitted := accounted.lastEmitted

/-- The signal held gives way to the one behind it. -/
theorem accounted_newer (settings : Settings) (engine : Engine F) (latest newer : SpySignal F)
    (rest : List (SpySignal F)) (drained : Nat) (accounted : Accounted settings engine)
    (phase : engine.phase = .draining latest drained) :
    Accounted settings
      (received
        (signalDone { engine with signals := rest, phase := .draining newer (drained + 1) }
          latest (.superseded newer))
        newer) := by
  have signals := accounted.signals
  rw [phase] at signals
  have held : engine.record.received =
      engine.record.signalFates.map Prod.fst ++ [latest] := signals
  exact {
    signals := by
      rw [received, signalDone]
      dsimp only
      rw [held, List.map_append]
      rfl
    graduations := by
      have length : engine.record.received.length = engine.record.signalFates.length + 1 := by
        rw [held, List.length_append, List.length_map, List.length_singleton]
      have followed : (engine.record.received ++ [newer])[engine.record.signalFates.length + 1]? =
          some newer := by
        rw [← length]
        exact List.getElem?_concat_length
      exact graduationsExplained_done settings engine.record _ latest (.superseded newer)
        ⟨List.prefix_append _ _, List.Subset.refl _, List.Subset.refl _⟩ rfl accounted.graduations
        (fun _ => followed)
    routes := by
      have routes := accounted.routes
      rw [phase] at routes
      exact routes
    emissions := accounted.emissions
    lastEmitted := accounted.lastEmitted }

/-- Routes are taken on. -/
theorem routes_took (fates taken held routes : List (RouteParams F))
    (accounted : taken.Perm (fates ++ held)) :
    (taken ++ routes).Perm (fates ++ (held ++ routes)) := by
  rw [← List.append_assoc]
  exact accounted.append_right routes

theorem accounted_takeRoute (settings : Settings) (engine : Engine F) (signal : SpySignal F)
    (swapGen : Nat) (routes : List (RouteParams F)) (route : RouteParams F)
    (rest : List (RouteParams F)) (accounted : Accounted settings engine)
    (phase : engine.phase = .collecting signal swapGen routes) :
    Accounted settings
      (took { engine with
        routes := rest, phase := .collecting signal swapGen (routes ++ [route]) } [route]) where
  signals := by
    have signals := accounted.signals
    rw [phase] at signals
    exact signals
  graduations := graduationsExplained_extends settings engine.record _
    ⟨List.prefix_rfl, List.subset_append_left _ _, List.Subset.refl _⟩ rfl accounted.graduations
  routes := by
    have held := accounted.routes
    rw [phase] at held
    exact routes_took _ _ _ _ held
  emissions := accounted.emissions
  lastEmitted := accounted.lastEmitted

theorem graduationArb_found (signal : SpySignal F) (signalsTotal : Nat) (scans : Scans F) :
    (if signal.isGraduation then scans.graduationArb else []) ⊆
      foundRoutes signal signalsTotal scans := by
  intro route member
  split at member
  · next graduation =>
      simp [foundRoutes, graduation, member]
  · cases member

theorem accounted_scan (settings : Settings) (engine : Engine F) (signal : SpySignal F)
    (swapGen : Nat) (routes : List (RouteParams F)) (now : Instant) (scans : Scans F)
    (accounted : Accounted settings engine)
    (phase : engine.phase = .scanning signal swapGen routes) :
    Accounted settings (scanStep engine signal swapGen routes now scans) where
  signals := by
    have signals := accounted.signals
    rw [phase] at signals
    rw [scanStep, signalDone, took]
    dsimp only
    rw [signals, List.map_append]
    exact (List.append_nil _).symm
  graduations := graduationsExplained_done settings engine.record _ signal _
    ⟨List.prefix_rfl, List.subset_append_left _ _, List.Subset.refl _⟩ rfl accounted.graduations
    (fun _ => List.Subset.trans (graduationArb_found signal engine.signalsTotal scans)
      (List.subset_append_right _ _))
  routes := by
    have held := accounted.routes
    rw [phase] at held
    exact routes_took _ _ _ _ held
  emissions := accounted.emissions
  lastEmitted := accounted.lastEmitted

theorem filtered_perm (routes : List (RouteParams F)) (first second : RouteParams F → Bool) :
    routes.Perm (routes.filter first ++
      ((routes.filter (fun route => !first route)).filter second ++
        (routes.filter (fun route => !first route)).filter (fun route => !second route))) := by
  have outer := List.filter_append_perm first routes
  have inner := List.filter_append_perm second (routes.filter (fun route => !first route))
  exact outer.symm.trans (inner.symm.append_left _)

theorem routesDone_fates (engine : Engine F) (routes : List (RouteParams F)) (fate : RouteFate) :
    (routesDone engine routes fate).record.routeFates.map Prod.fst =
      engine.record.routeFates.map Prod.fst ++ routes := by
  simp [routesDone, Function.comp_def]

/-- Routes turned away, with a reason that holds in the record. -/
theorem routesDone_explained (engine : Engine F) (routes : List (RouteParams F)) (fate : RouteFate)
    (old : ∀ entry ∈ engine.record.routeFates, entry.2.Explains engine.record)
    (new : routes ≠ [] → fate.Explains engine.record) :
    ∀ entry ∈ (routesDone engine routes fate).record.routeFates,
      entry.2.Explains (routesDone engine routes fate).record := by
  intro entry member
  rcases List.mem_append.mp member with before | added
  · exact old entry before
  · rcases List.mem_map.mp added with ⟨route, listed, same⟩
    rw [← same]
    exact new (List.ne_nil_of_mem listed)

theorem accounted_choose (settings : Settings) (engine : Engine F) (swapGen : Nat)
    (routes : List (RouteParams F)) (blacklisted unlikely : RouteParams F → Bool)
    (accounted : Accounted settings engine) (phase : engine.phase = .choosing swapGen routes) :
    Accounted settings (chooseStep engine swapGen routes blacklisted unlikely) := by
  have signals := accounted.signals
  have held := accounted.routes
  rw [phase] at signals held
  rw [chooseStep]
  have split := filtered_perm routes blacklisted
    (fun route => decide (3 ≤ route.hops.length) && unlikely route)
  generalize (routes.filter (fun route => !blacklisted route)).filter
    (fun route => !(decide (3 ≤ route.hops.length) && unlikely route)) = kept at split ⊢
  generalize (routes.filter (fun route => !blacklisted route)).filter
    (fun route => decide (3 ≤ route.hops.length) && unlikely route) = filtered at split ⊢
  have first := routesDone_explained engine (routes.filter blacklisted) .blacklisted
    accounted.emissions (fun _ => Or.inl trivial)
  have sifted := routesDone_explained _ filtered .threeHopFiltered first (fun _ => Or.inl trivial)
  have whole : engine.record.taken.Perm
      (engine.record.routeFates.map Prod.fst ++ routes.filter blacklisted ++ filtered ++ kept) := by
    rw [List.append_assoc, List.append_assoc]
    exact held.trans (split.append_left _)
  split
  · next shut =>
      exact {
        signals := signals
        graduations := accounted.graduations
        routes := by
          change engine.record.taken.Perm (List.map Prod.fst (routesDone (routesDone
            (routesDone engine _ _) _ _) kept _).record.routeFates ++ [])
          rw [List.append_nil, routesDone_fates, routesDone_fates, routesDone_fates]
          exact whole
        emissions := by
          apply routesDone_explained _ kept (.gated swapGen) sifted
          intro filled
          have same := shut.resolve_left filled
          exact Or.inr (Or.inr ⟨swapGen, rfl, same ▸ accounted.lastEmitted⟩)
        lastEmitted := accounted.lastEmitted }
  · exact {
      signals := signals
      graduations := graduationsExplained_extends settings engine.record _
        ⟨List.prefix_rfl, List.Subset.refl _, List.subset_append_left _ _⟩ rfl
        accounted.graduations
      routes := by
        change engine.record.taken.Perm (List.map Prod.fst (routesDone
          (routesDone engine _ _) _ _).record.routeFates ++ kept.insertionSort EmittedBefore)
        rw [routesDone_fates, routesDone_fates]
        exact whole.trans ((List.perm_insertionSort EmittedBefore kept).symm.append_left _)
      emissions := by
        intro entry member
        exact entry.2.explains_mono (routesDone (routesDone engine _ _) filtered _).record _
          ⟨List.prefix_rfl, List.Subset.refl _, List.subset_append_left _ _⟩ (sifted entry member)
      lastEmitted := Or.inr (List.mem_append_right _ (List.mem_singleton.mpr rfl)) }

theorem accounted_consider (settings : Settings) (engine : Engine F) (route : RouteParams F)
    (rest : List (RouteParams F)) (verdict : Verdict) (accounted : Accounted settings engine)
    (phase : engine.phase = .emitting (route :: rest)) :
    Accounted settings (considerStep settings engine route rest verdict) := by
  have signals := accounted.signals
  have held := accounted.routes
  rw [phase] at signals held
  have left : Phase.routes (if rest = [] then .waiting else .emitting rest) = rest := by
    split
    · next last => exact last.symm
    · rfl
  have none : Phase.signals (if rest = [] then .waiting else .emitting rest : Phase F) = [] := by
    split
    · rfl
    · rfl
  exact {
    signals := by
      rw [considerStep]
      dsimp only
      rw [none]
      exact signals
    graduations := accounted.graduations
    routes := by
      rw [considerStep]
      dsimp only
      rw [left, routesDone_fates, List.append_assoc]
      exact held
    emissions := routesDone_explained engine [route] _ accounted.emissions
      (fun _ => RouteFate.explains_of_not_gated _ _
        (considered_not_gated settings engine.nextId route verdict))
    lastEmitted := accounted.lastEmitted }

theorem accounted_step (settings : Settings) (engine : Engine F) (event : Event F)
    (accounted : Accounted settings engine) : Accounted settings (step settings engine event) := by
  cases event with
  | arrive signal =>
      rw [step]
      split
      · exact accounted_moved settings engine _ accounted rfl rfl rfl rfl
      · exact accounted
  | offer route =>
      rw [step]
      split
      · exact accounted_moved settings engine _ accounted rfl rfl rfl rfl
      · exact accounted
  | bumpSwapGeneration => exact accounted_moved settings engine _ accounted rfl rfl rfl rfl
  | receive =>
      rw [step]
      split
      · next signal rest phase _ =>
          exact accounted_receive settings engine signal rest accounted phase
      · exact accounted
  | tryNewer =>
      rw [step]
      split
      · next latest drained newer rest phase _ =>
          exact accounted_newer settings engine latest newer rest drained accounted phase
      · next latest drained phase _ =>
          exact accounted_moved settings engine _ accounted rfl (by rw [phase]; rfl)
            (by rw [phase]; rfl) rfl
      · exact accounted
  | lookAtAge stamped looked =>
      rw [step]
      split
      · next signal phase =>
          dsimp only
          split
          · next old =>
              have explained : signal.isGraduation = true →
                  2000 < elapsedMillis (signal.detectedAt stamped) looked := by
                intro graduation
                rw [maxAge, if_pos graduation] at old
                exact old
              exact accounted_signalDone settings engine _ signal _ accounted (by rw [phase]; rfl)
                rfl (by rw [phase]; rfl) rfl rfl explained
          · exact accounted_moved settings engine _ accounted rfl (by rw [phase]; rfl)
              (by rw [phase]; rfl) rfl
      · exact accounted
  | lookAtCooldown now =>
      rw [step]
      split
      · next signal phase =>
          dsimp only
          split
          · next cooling =>
              exact accounted_signalDone settings engine _ signal _ accounted (by rw [phase]; rfl)
                rfl (by rw [phase]; rfl) rfl rfl (fun _ => cooling)
          · exact accounted_moved settings engine _ accounted rfl (by rw [phase]; rfl)
              (by rw [phase]; rfl) rfl
      · exact accounted
  | takeRoute =>
      rw [step]
      split
      · next signal swapGen routes route rest phase _ =>
          exact accounted_takeRoute settings engine signal swapGen routes route rest accounted phase
      · next signal swapGen routes phase _ =>
          exact accounted_moved settings engine _ accounted rfl (by rw [phase]; rfl)
            (by rw [phase]; rfl) rfl
      · exact accounted
  | scan now scans =>
      rw [step]
      split
      · next signal swapGen routes phase =>
          exact accounted_scan settings engine signal swapGen routes now scans accounted phase
      · exact accounted
  | choose blacklisted unlikely =>
      rw [step]
      split
      · next swapGen routes phase =>
          exact accounted_choose settings engine swapGen routes blacklisted unlikely accounted phase
      · exact accounted
  | consider verdict =>
      rw [step]
      split
      · next route rest phase =>
          exact accounted_consider settings engine route rest verdict accounted phase
      · exact accounted

theorem accounted_start (settings : Settings) (now : Instant) (swapGeneration : Nat) :
    Accounted settings (start now swapGeneration : Engine F) where
  signals := rfl
  graduations := by
    intro place signal fate found
    cases found
  routes := List.Perm.refl _
  emissions := by
    intro entry member
    cases member
  lastEmitted := Or.inl rfl

/-- In every run each signal received and each route taken is in hand or dealt with. A
graduation is scanned but for a newer signal, its age or the cooldown; a route is turned
away by a filter or emitted but for the gate on the swap generation. -/
theorem work_accounted (settings : Settings) (now : Instant) (swapGeneration : Nat)
    (events : List (Event F)) :
    Accounted settings (run (step settings) (start now swapGeneration) events) := by
  apply run_invariant
  · exact accounted_start settings now swapGeneration
  · intro pair _ accounted
    exact accounted_step settings pair.1 pair.2 accounted

/-! Work that is lost. -/

/-- Graduations younger than 2000 ms are scanned, and routes filtered or emitted. -/
structure NothingLost (record : Record F) : Prop where
  graduations : ∀ entry ∈ record.signalFates, entry.1.isGraduation = true →
    (∃ ageMs, entry.2 = .stale ageMs ∧ 2000 < ageMs) ∨ ∃ routes, entry.2 = .scanned routes
  routes : ∀ entry ∈ record.routeFates, entry.2.ByFilter ∨ entry.2.IsEmitted

def defaults : Settings := ⟨200, 200, false, 1024, 256⟩

def graduated : SpySignal ℚ := .graduation 7 (.ofNat 1) (.ofNat 2) "PumpSwap" none none none

/-- The signal of the proxy's client, every 10 ms. -/
def proxySignal : SpySignal ℚ := .liquidityEvent 7 (.ofNat 0) (.added 1 0)

def noScans : Scans ℚ := ⟨[], [], [], [], [], [], [], [], [], [], [], [], [], [], 1⟩

def scannerRoute : RouteParams ℚ := ⟨[], 100000000, 0, 1000, 0, "cross-dex", 1⟩

/-- One pass of the loop over a signal, up to the scans. -/
def pass (now : Instant) (signal : SpySignal ℚ) : List (Event ℚ) :=
  [.arrive signal, .receive, .tryNewer, .lookAtAge now now, .lookAtCooldown now, .takeRoute]

def supersededRun : List (Event ℚ) := [.arrive graduated, .arrive proxySignal, .receive, .tryNewer]

def cooldownRun : List (Event ℚ) :=
  pass (10 ^ 10) proxySignal ++
    [.scan (10 ^ 10) noScans, .choose (fun _ => false) (fun _ => false)] ++
    pass (10 ^ 10 + 1) graduated

/-- The tracker offers a route before each of two passes at one generation. -/
def gatedRun : List (Event ℚ) :=
  [.offer scannerRoute] ++ pass (10 ^ 10) proxySignal ++
    [.takeRoute, .scan (10 ^ 10) noScans, .choose (fun _ => false) (fun _ => false),
      .consider ⟨true, true, true⟩, .offer scannerRoute] ++ pass (10 ^ 10 + 1) proxySignal ++
    [.takeRoute, .scan (10 ^ 10 + 1) noScans, .choose (fun _ => false) (fun _ => false)]

/-- A graduation lost to a newer signal, one lost to the cooldown, and a route lost to the
swap generation. -/
theorem lost_three_ways :
    ¬ NothingLost (run (step defaults) (start 0 5) supersededRun).record ∧
    ¬ NothingLost (run (step defaults) (start (10 ^ 10) 5) cooldownRun).record ∧
    ¬ NothingLost (run (step defaults) (start (10 ^ 10) 5) gatedRun).record := by
  have superseded : (run (step defaults) (start 0 5) supersededRun).record.signalFates =
      [(graduated, .superseded proxySignal)] := rfl
  have cooled : (run (step defaults) (start (10 ^ 10) 5) cooldownRun).record.signalFates =
      [(proxySignal, .scanned []), (graduated, .cooledDown 0 0)] := rfl
  have gated : (run (step defaults) (start (10 ^ 10) 5) gatedRun).record.routeFates.map Prod.snd =
      [.emitted 1 .marginFi, .gated 5] := by decide +kernel
  refine ⟨?_, ?_, ?_⟩
  · intro nothing
    rcases nothing.graduations _ (superseded ▸ List.mem_singleton.mpr rfl) rfl with
      ⟨age, same, -⟩ | ⟨routes, same⟩
    · cases same
    · cases same
  · intro nothing
    rcases nothing.graduations _ (cooled ▸ List.mem_cons_of_mem _ (List.mem_singleton.mpr rfl)) rfl
      with ⟨age, same, -⟩ | ⟨routes, same⟩
    · cases same
    · cases same
  · intro nothing
    have listed : RouteFate.gated 5 ∈
        (run (step defaults) (start (10 ^ 10) 5) gatedRun).record.routeFates.map Prod.snd := by
      rw [gated]
      exact List.mem_cons_of_mem _ (List.mem_singleton.mpr rfl)
    rcases List.mem_map.mp listed with ⟨entry, member, same⟩
    have fate := nothing.routes entry member
    rw [same] at fate
    exact fate.elim id id

end EngineLoop

end Helios
