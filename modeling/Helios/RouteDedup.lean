import Helios.HashMap
import Helios.Machine
import Helios.Runs
import Helios.Types

/-! The executor's map of routes it leaves alone for a while. One loop submits routes
and writes what became of them; the tasks that poll a sent transaction write to the
same map at any time. -/

namespace Helios.RouteDedup

open Machine

/-- Durations and instants in nanoseconds. -/
def seconds (count : Nat) : Nat := count * 1000000000

def routeDedupCooldown : Nat := seconds 2
def failureBackoffMax : Nat := seconds 5

/-- The tuple of the map: last processed, cooldown, consecutive failures. -/
structure DedupEntry where
  writtenAt : Nat
  cooldown : Nat
  failures : Nat
  deriving DecidableEq

/-- A route, as far as its key goes: the pools of its hops. -/
abbrev Route := List Pubkey

abbrev RouteKey := Pubkey × Pubkey

def routeKey (route : Route) : RouteKey :=
  (route.head?.getD default, route.getLast?.getD default)

/-- The variables `now` and `prev_failures` of a submission that passed. -/
structure Attempt where
  route : Route
  startedAt : Nat
  prevFailures : Nat

/-- Where the loop stands in a submission. -/
inductive Phase where
  | idle
  | passed (route : Route) (startedAt : Nat)
  | counted (attempt : Attempt)
  | inserted (attempt : Attempt)
  | processing (attempt : Attempt)

/-- The instant the submission in progress began. -/
def Phase.startedAt : Phase → Option Nat
  | .idle => none
  | .passed _ startedAt => some startedAt
  | .counted attempt => some attempt.startedAt
  | .inserted attempt => some attempt.startedAt
  | .processing attempt => some attempt.startedAt

/-- What the processing of a submission comes to. The two blacklists are for no valid
transaction and for no simulation that passes. -/
inductive Outcome where
  | dropped
  | requotedLow
  | buildFailed
  | oversized
  | sent
  | noCandidates
  | simulationsFailed
  deriving DecidableEq

/-- Cooldown and failure count the loop writes at the end of a submission. -/
def Outcome.verdict (outcome : Outcome) (prevFailures : Nat) : Option (Nat × Nat) :=
  match outcome with
  | dropped => none
  | requotedLow => some (seconds 1, wrap 32 (prevFailures + 1))
  | buildFailed => some (seconds 2, prevFailures)
  | oversized => some (seconds 2, wrap 32 (prevFailures + 1))
  | sent => none
  | noCandidates => some (seconds 300, wrap 32 (prevFailures + 1))
  | simulationsFailed => some (seconds 300, wrap 32 (prevFailures + 1))

/-- A write to the map, with the route it was made for. -/
structure Record where
  route : Route
  entry : DedupEntry
  deriving DecidableEq

/-- What a polling task writes when the transaction failed. -/
def pollRecord (now : Nat) (attempt : Attempt) : Record :=
  let failures := wrap 32 (attempt.prevFailures + 1)
  ⟨attempt.route, now, seconds (min (10 * 2 ^ min failures 5) 300), failures⟩

/-- `log` lists the writes made, latest first; the program keeps no such list. -/
structure Executor where
  clock : Nat
  routeDedup : HashMap RouteKey DedupEntry
  phase : Phase
  inFlight : List Attempt
  log : List Record

inductive Event where
  | wait (nanos : Nat)
  | submit (route : Route)
  | countFailures
  | insert
  | collect
  | finish (outcome : Outcome)
  | pollFailed (place : Nat)
  | pollEnded (place : Nat)

namespace Executor

def start : Executor := ⟨0, HashMap.empty, .idle, [], []⟩

/-- The test on the entry found; `duration_since` of a later instant is zero. -/
def suppresses (state : Executor) (route : Route) : Bool :=
  match HashMap.get state.routeDedup (routeKey route) with
  | some prev => decide (state.clock - prev.writtenAt < prev.cooldown)
  | none => false

def write (state : Executor) (record : Record) : Executor :=
  { state with
    routeDedup := state.routeDedup.insert (routeKey record.route) record.entry
    log := record :: state.log }

/-- An event the loop is not ready for changes nothing. -/
def step (state : Executor) : Event → Executor
  | .wait nanos => { state with clock := state.clock + nanos }
  | .submit route =>
      match state.phase with
      | .idle =>
          if state.suppresses route then state
          else { state with phase := .passed route state.clock }
      | _ => state
  | .countFailures =>
      match state.phase with
      | .passed route startedAt =>
          let prev := HashMap.get state.routeDedup (routeKey route)
          { state with
            phase := .counted ⟨route, startedAt, (prev.map DedupEntry.failures).getD 0⟩ }
      | _ => state
  | .insert =>
      match state.phase with
      | .counted attempt =>
          { state.write ⟨attempt.route, attempt.startedAt, routeDedupCooldown,
              attempt.prevFailures⟩ with
            phase := .inserted attempt }
      | _ => state
  | .collect =>
      match state.phase with
      | .inserted attempt =>
          { state with
            phase := .processing attempt
            routeDedup :=
              if state.routeDedup.entries.length > 1000 then
                HashMap.retain state.routeDedup (fun _ entry =>
                  decide (attempt.startedAt - entry.writtenAt < failureBackoffMax))
              else state.routeDedup }
      | _ => state
  | .finish outcome =>
      match state.phase with
      | .processing attempt =>
          match outcome.verdict attempt.prevFailures with
          | some (cooldown, failures) =>
              { state.write ⟨attempt.route, attempt.startedAt, cooldown, failures⟩ with
                phase := .idle }
          | none =>
              { state with
                phase := .idle
                inFlight :=
                  if outcome = .sent then state.inFlight ++ [attempt] else state.inFlight }
      | _ => state
  | .pollFailed place =>
      match state.inFlight[place]? with
      | some attempt =>
          { state.write (pollRecord state.clock attempt) with
            inFlight := state.inFlight.eraseIdx place }
      | none => state
  | .pollEnded place => { state with inFlight := state.inFlight.eraseIdx place }

/-! What a step does to the map: it writes one record, or it collects, or it leaves the
map as it was. -/

/-- The record an event writes. -/
def writes (state : Executor) : Event → Option Record
  | .insert =>
      match state.phase with
      | .counted attempt =>
          some ⟨attempt.route, attempt.startedAt, routeDedupCooldown, attempt.prevFailures⟩
      | _ => none
  | .finish outcome =>
      match state.phase with
      | .processing attempt => (outcome.verdict attempt.prevFailures).map (fun verdict =>
          ⟨attempt.route, attempt.startedAt, verdict.1, verdict.2⟩)
      | _ => none
  | .pollFailed place => state.inFlight[place]?.map (pollRecord state.clock)
  | _ => none

/-- The instant a collection compares with, if it has more than 1000 keys to look at. -/
def collects (state : Executor) : Event → Option Nat
  | .collect =>
      match state.phase with
      | .inserted attempt =>
          if state.routeDedup.entries.length > 1000 then some attempt.startedAt else none
      | _ => none
  | _ => none

theorem clock_step (state : Executor) (event : Event) : state.clock ≤ (state.step event).clock := by
  cases event with
  | wait nanos => exact Nat.le_add_right _ _
  | submit route =>
      rw [step]
      split
      · split
        · exact le_rfl
        · exact le_rfl
      · exact le_rfl
  | countFailures =>
      rw [step]
      split
      · exact le_rfl
      · exact le_rfl
  | insert =>
      rw [step]
      split
      · exact le_rfl
      · exact le_rfl
  | collect =>
      rw [step]
      split
      · exact le_rfl
      · exact le_rfl
  | finish outcome =>
      rw [step]
      split
      · split
        · exact le_rfl
        · exact le_rfl
      · exact le_rfl
  | pollFailed place =>
      rw [step]
      split
      · exact le_rfl
      · exact le_rfl
  | pollEnded place => exact le_rfl

theorem step_cases (state : Executor) (event : Event) :
    (∃ record, state.writes event = some record ∧
      (state.step event).routeDedup =
        state.routeDedup.insert (routeKey record.route) record.entry ∧
      (state.step event).log = record :: state.log) ∨
    (∃ now, state.collects event = some now ∧
      (state.step event).routeDedup = HashMap.retain state.routeDedup
        (fun _ entry => decide (now - entry.writtenAt < failureBackoffMax)) ∧
      (state.step event).log = state.log) ∨
    ((state.step event).routeDedup = state.routeDedup ∧
      (state.step event).log = state.log) := by
  cases event with
  | wait nanos => exact Or.inr (Or.inr ⟨rfl, rfl⟩)
  | submit route =>
      right; right
      rw [step]
      split
      · split
        · exact ⟨rfl, rfl⟩
        · exact ⟨rfl, rfl⟩
      · exact ⟨rfl, rfl⟩
  | countFailures =>
      right; right
      rw [step]
      split
      · exact ⟨rfl, rfl⟩
      · exact ⟨rfl, rfl⟩
  | insert =>
      simp only [step, writes]
      cases state.phase with
      | counted attempt => exact Or.inl ⟨_, rfl, rfl, rfl⟩
      | idle => exact Or.inr (Or.inr ⟨rfl, rfl⟩)
      | passed route startedAt => exact Or.inr (Or.inr ⟨rfl, rfl⟩)
      | inserted attempt => exact Or.inr (Or.inr ⟨rfl, rfl⟩)
      | processing attempt => exact Or.inr (Or.inr ⟨rfl, rfl⟩)
  | collect =>
      simp only [step, collects]
      cases state.phase with
      | inserted attempt =>
          dsimp only
          split
          · exact Or.inr (Or.inl ⟨_, rfl, rfl, rfl⟩)
          · exact Or.inr (Or.inr ⟨rfl, rfl⟩)
      | idle => exact Or.inr (Or.inr ⟨rfl, rfl⟩)
      | passed route startedAt => exact Or.inr (Or.inr ⟨rfl, rfl⟩)
      | counted attempt => exact Or.inr (Or.inr ⟨rfl, rfl⟩)
      | processing attempt => exact Or.inr (Or.inr ⟨rfl, rfl⟩)
  | finish outcome =>
      simp only [step, writes]
      cases state.phase with
      | processing attempt =>
          dsimp only
          cases outcome.verdict attempt.prevFailures with
          | some verdict => exact Or.inl ⟨_, rfl, rfl, rfl⟩
          | none => exact Or.inr (Or.inr ⟨rfl, rfl⟩)
      | idle => exact Or.inr (Or.inr ⟨rfl, rfl⟩)
      | passed route startedAt => exact Or.inr (Or.inr ⟨rfl, rfl⟩)
      | counted attempt => exact Or.inr (Or.inr ⟨rfl, rfl⟩)
      | inserted attempt => exact Or.inr (Or.inr ⟨rfl, rfl⟩)
  | pollFailed place =>
      simp only [step, writes]
      cases state.inFlight[place]? with
      | some attempt => exact Or.inl ⟨_, rfl, rfl, rfl⟩
      | none => exact Or.inr (Or.inr ⟨rfl, rfl⟩)
  | pollEnded place => exact Or.inr (Or.inr ⟨rfl, rfl⟩)

/-- The cooldown written has not run out. -/
def Running (state : Executor) (record : Record) : Prop :=
  state.clock < record.entry.writtenAt + record.entry.cooldown

instance (state : Executor) (record : Record) : Decidable (state.Running record) :=
  inferInstanceAs (Decidable (_ < _))

/-- A blacklist that has not run out. -/
def Blacklists (state : Executor) (record : Record) : Prop :=
  record.entry.cooldown = seconds 300 ∧ state.Running record

instance (state : Executor) (record : Record) : Decidable (state.Blacklists record) :=
  inferInstanceAs (Decidable (_ ∧ _))

/-- The route an idle loop is given. -/
def submitted (state : Executor) : Event → Option Route
  | .submit route =>
      match state.phase with
      | .idle => some route
      | _ => none
  | _ => none

/-- The last record written under a key. -/
def latest (state : Executor) (key : RouteKey) : Option Record :=
  state.log.find? (fun record => decide (routeKey record.route = key))

/-- A route under a blacklisted key is not attempted. -/
def Honoured (state : Executor) (event : Event) : Prop :=
  ∀ route ∈ state.submitted event, ∀ record ∈ state.log,
    routeKey record.route = routeKey route → state.Blacklists record →
      state.suppresses route = true

/-- A route is left alone only for an attempt of its own. -/
def OwnOnly (state : Executor) (event : Event) : Prop :=
  ∀ route ∈ state.submitted event, state.suppresses route = true →
    ∃ record, state.latest (routeKey route) = some record ∧ record.route = route

/-- What the map holds under the key of a submitted route has run out or is its own. -/
def OwnKey (state : Executor) (event : Event) : Prop :=
  ∀ route ∈ state.submitted event,
    HashMap.containsKey state.routeDedup (routeKey route) = true →
      ∀ record ∈ state.latest (routeKey route), record.route ≠ route → ¬ state.Running record

/-- No write ends before a blacklist under its key does. -/
def Outlasts (state : Executor) (event : Event) : Prop :=
  ∀ record ∈ state.writes event, ∀ listed ∈ state.log,
    routeKey listed.route = routeKey record.route → state.Blacklists listed →
      listed.entry.writtenAt + listed.entry.cooldown ≤
        record.entry.writtenAt + record.entry.cooldown

/-- A collection finds the key of every blacklist written to within five seconds. -/
def Fresh (state : Executor) (event : Event) : Prop :=
  ∀ now ∈ state.collects event, ∀ listed ∈ state.log, state.Blacklists listed →
    ∀ entry ∈ HashMap.get state.routeDedup (routeKey listed.route),
      now - entry.writtenAt < failureBackoffMax

instance (state : Executor) (event : Event) : Decidable (Outlasts state event) :=
  inferInstanceAs (Decidable (∀ record ∈ state.writes event, ∀ listed ∈ state.log, _ → _ → _))

instance (state : Executor) (event : Event) : Decidable (Fresh state event) :=
  inferInstanceAs (Decidable (∀ now ∈ state.collects event, ∀ listed ∈ state.log,
    _ → ∀ entry ∈ HashMap.get state.routeDedup (routeKey listed.route), _))

/-- What is in the map was written, and written in the past. -/
structure Consistent (state : Executor) : Prop where
  past : ∀ record ∈ state.log, record.entry.writtenAt ≤ state.clock
  started : ∀ startedAt ∈ state.phase.startedAt, startedAt ≤ state.clock
  logged : ∀ key entry, HashMap.get state.routeDedup key = some entry →
    ∃ record, state.latest key = some record ∧ record.entry = entry

/-- Every blacklist in force has an entry that lasts as long. -/
def Kept (state : Executor) : Prop :=
  ∀ record ∈ state.log, state.Blacklists record →
    ∃ entry, HashMap.get state.routeDedup (routeKey record.route) = some entry ∧
      record.entry.writtenAt + record.entry.cooldown ≤ entry.writtenAt + entry.cooldown

theorem latest_mem (state : Executor) (key : RouteKey) (record : Record)
    (found : state.latest key = some record) :
    record ∈ state.log ∧ routeKey record.route = key := by
  rw [latest] at found
  exact ⟨List.mem_of_find?_eq_some found, by simpa using List.find?_some found⟩

theorem suppresses_iff (state : Executor) (consistent : Consistent state) (route : Route) :
    state.suppresses route = true ↔
      ∃ entry, HashMap.get state.routeDedup (routeKey route) = some entry ∧
        state.clock < entry.writtenAt + entry.cooldown := by
  rw [suppresses]
  cases found : HashMap.get state.routeDedup (routeKey route) with
  | none => simp
  | some entry =>
      obtain ⟨record, last, same⟩ := consistent.logged _ _ found
      have past := consistent.past record (latest_mem state _ record last).1
      rw [same] at past
      simp only [Option.some.injEq, exists_eq_left', decide_eq_true_eq]
      omega

theorem honoured_of_kept (state : Executor) (event : Event) (consistent : Consistent state)
    (kept : Kept state) : Honoured state event := by
  intro route given record member sameKey listed
  obtain ⟨entry, found, later⟩ := kept record member listed
  rw [suppresses_iff state consistent]
  refine ⟨entry, sameKey ▸ found, ?_⟩
  have running : state.clock < record.entry.writtenAt + record.entry.cooldown := listed.2
  omega

theorem ownOnly_iff (state : Executor) (event : Event) (consistent : Consistent state) :
    OwnOnly state event ↔ OwnKey state event := by
  constructor
  · intro own route given held record last other running
    obtain ⟨entry, found⟩ := Option.isSome_iff_exists.mp held
    obtain ⟨written, here, same⟩ := consistent.logged _ _ found
    have equal : written = record := Option.some.inj (here.symm.trans last)
    subst equal
    have suppressed : state.suppresses route = true := by
      rw [suppresses_iff state consistent]
      exact ⟨entry, found, same ▸ running⟩
    obtain ⟨mine, mineHere, mineRoute⟩ := own route given suppressed
    rw [last] at mineHere
    cases mineHere
    exact other mineRoute
  · intro own route given suppressed
    obtain ⟨entry, found, running⟩ := (suppresses_iff state consistent route).mp suppressed
    obtain ⟨record, last, rfl⟩ := consistent.logged _ _ found
    refine ⟨record, last, ?_⟩
    by_contra other
    have held : HashMap.containsKey state.routeDedup (routeKey route) = true := by
      rw [HashMap.containsKey, Option.isSome_iff_exists]
      exact ⟨record.entry, found⟩
    exact own route given held record last other running

theorem writes_past (state : Executor) (event : Event) (consistent : Consistent state)
    (record : Record)
    (written : state.writes event = some record) : record.entry.writtenAt ≤ state.clock := by
  cases event with
  | insert =>
      simp only [writes] at written
      cases found : state.phase with
      | counted attempt =>
          rw [found] at written
          cases written
          exact consistent.started _ (by rw [found]; rfl)
      | idle => rw [found] at written; cases written
      | passed route startedAt => rw [found] at written; cases written
      | inserted attempt => rw [found] at written; cases written
      | processing attempt => rw [found] at written; cases written
  | finish outcome =>
      simp only [writes] at written
      cases found : state.phase with
      | processing attempt =>
          rw [found] at written
          obtain ⟨verdict, -, rfl⟩ := Option.map_eq_some_iff.mp written
          exact consistent.started _ (by rw [found]; rfl)
      | idle => rw [found] at written; cases written
      | passed route startedAt => rw [found] at written; cases written
      | counted attempt => rw [found] at written; cases written
      | inserted attempt => rw [found] at written; cases written
  | pollFailed place =>
      obtain ⟨attempt, -, rfl⟩ := Option.map_eq_some_iff.mp written
      exact le_rfl
  | wait nanos => cases written
  | submit route => cases written
  | countFailures => cases written
  | collect => cases written
  | pollEnded place => cases written

/-- A submission keeps the instant it began at, until it ends. -/
theorem startedAt_step (state : Executor) (event : Event) :
    (state.step event).phase.startedAt = state.phase.startedAt ∨
      (state.step event).phase.startedAt = none ∨
      (state.step event).phase.startedAt = some state.clock := by
  cases event with
  | wait nanos => exact Or.inl rfl
  | submit route =>
      simp only [step]
      cases found : state.phase with
      | idle =>
          dsimp only
          split
          · exact Or.inl (by rw [found])
          · exact Or.inr (Or.inr rfl)
      | passed other startedAt => exact Or.inl (by dsimp only; rw [found])
      | counted attempt => exact Or.inl (by dsimp only; rw [found])
      | inserted attempt => exact Or.inl (by dsimp only; rw [found])
      | processing attempt => exact Or.inl (by dsimp only; rw [found])
  | countFailures =>
      left
      simp only [step]
      cases found : state.phase with
      | passed route startedAt => rfl
      | idle => dsimp only; rw [found]
      | counted attempt => dsimp only; rw [found]
      | inserted attempt => dsimp only; rw [found]
      | processing attempt => dsimp only; rw [found]
  | insert =>
      left
      simp only [step]
      cases found : state.phase with
      | counted attempt => rfl
      | idle => dsimp only; rw [found]
      | passed route startedAt => dsimp only; rw [found]
      | inserted attempt => dsimp only; rw [found]
      | processing attempt => dsimp only; rw [found]
  | collect =>
      left
      simp only [step]
      cases found : state.phase with
      | inserted attempt => rfl
      | idle => dsimp only; rw [found]
      | passed route startedAt => dsimp only; rw [found]
      | counted attempt => dsimp only; rw [found]
      | processing attempt => dsimp only; rw [found]
  | finish outcome =>
      simp only [step]
      cases found : state.phase with
      | processing attempt =>
          right; left
          dsimp only
          split
          · rfl
          · rfl
      | idle => exact Or.inl (by dsimp only; rw [found])
      | passed route startedAt => exact Or.inl (by dsimp only; rw [found])
      | counted attempt => exact Or.inl (by dsimp only; rw [found])
      | inserted attempt => exact Or.inl (by dsimp only; rw [found])
  | pollFailed place =>
      left
      simp only [step]
      split
      · rfl
      · rfl
  | pollEnded place => exact Or.inl rfl

theorem blacklists_earlier (state : Executor) (event : Event) (record : Record)
    (listed : (state.step event).Blacklists record) : state.Blacklists record := by
  refine ⟨listed.1, ?_⟩
  have later : (state.step event).clock < record.entry.writtenAt + record.entry.cooldown :=
    listed.2
  exact lt_of_le_of_lt (clock_step state event) later

theorem consistent_start : Consistent start := by
  refine ⟨?_, ?_, ?_⟩
  · intro record member
    cases member
  · intro startedAt found
    cases found
  · intro key entry found
    rw [start, HashMap.get_empty] at found
    cases found

theorem consistent_step (state : Executor) (event : Event) (consistent : Consistent state) :
    Consistent (state.step event) := by
  have clock := clock_step state event
  have started : ∀ startedAt ∈ (state.step event).phase.startedAt,
      startedAt ≤ (state.step event).clock := by
    intro startedAt found
    rcases startedAt_step state event with same | ended | now
    · exact (consistent.started startedAt (same ▸ found)).trans clock
    · rw [ended] at found
      cases found
    · rw [now] at found
      cases found
      exact clock
  have before : ∀ record ∈ state.log, record.entry.writtenAt ≤ (state.step event).clock :=
    fun record member => (consistent.past record member).trans clock
  rcases step_cases state event with ⟨record, written, map, log⟩ | ⟨now, -, map, log⟩ |
    ⟨map, log⟩
  · refine ⟨?_, started, ?_⟩
    · intro other member
      rw [log] at member
      rcases List.mem_cons.mp member with rfl | earlier
      · exact (writes_past state event consistent other written).trans clock
      · exact before other earlier
    · intro key entry found
      rw [map] at found
      rw [latest, log]
      by_cases same : key = routeKey record.route
      · subst same
        rw [HashMap.get_insert] at found
        exact ⟨record, List.find?_cons_of_pos (by simp), Option.some.inj found⟩
      · rw [HashMap.get_insert_ne _ _ _ _ same] at found
        rw [List.find?_cons_of_neg (by simpa using Ne.symm same)]
        exact consistent.logged key entry found
  · refine ⟨fun other member => before other (log ▸ member), started, ?_⟩
    intro key entry found
    rw [map, HashMap.get_retain] at found
    rw [latest, log]
    exact consistent.logged key entry (Option.filter_eq_some_iff.mp found).1
  · refine ⟨fun other member => before other (log ▸ member), started, ?_⟩
    intro key entry found
    rw [latest, log]
    exact consistent.logged key entry (map ▸ found)

theorem kept_step (state : Executor) (event : Event) (kept : Kept state)
    (outlasts : Outlasts state event) (fresh : Fresh state event) : Kept (state.step event) := by
  intro other member listed
  have earlier := blacklists_earlier state event other listed
  rcases step_cases state event with ⟨record, written, map, log⟩ | ⟨now, collected, map, log⟩ |
    ⟨map, log⟩
  · rw [log] at member
    rw [map]
    rcases List.mem_cons.mp member with rfl | before
    · exact ⟨other.entry, HashMap.get_insert _ _ _, le_rfl⟩
    · by_cases same : routeKey other.route = routeKey record.route
      · rw [same]
        exact ⟨record.entry, HashMap.get_insert _ _ _,
          outlasts record written other before same earlier⟩
      · rw [HashMap.get_insert_ne _ _ _ _ same]
        exact kept other before earlier
  · rw [log] at member
    obtain ⟨entry, found, later⟩ := kept other member earlier
    refine ⟨entry, ?_, later⟩
    rw [map, HashMap.get_retain, Option.filter_eq_some_iff]
    exact ⟨found, decide_eq_true (fresh now collected other member earlier entry found)⟩
  · rw [map]
    exact kept other (log ▸ member) earlier

/-- At every step of every run a route is left alone for its own sake only if and only
if its key has no other route's entry in force; and in a run whose writes outlast the
blacklists and whose collections find them fresh, every blacklist is honoured to its
end. -/
theorem blacklists_honoured (events : List Event) :
    (∀ pair ∈ Runs.trace step start events, OwnOnly pair.1 pair.2 ↔ OwnKey pair.1 pair.2) ∧
      ((∀ pair ∈ Runs.trace step start events, Outlasts pair.1 pair.2 ∧ Fresh pair.1 pair.2) →
        ∀ pair ∈ Runs.trace step start events, Honoured pair.1 pair.2) := by
  have consistent := Runs.trace_invariant step Consistent start events consistent_start
    (fun pair _ held => consistent_step pair.1 pair.2 held)
  refine ⟨fun pair member => ownOnly_iff pair.1 pair.2 (consistent pair member), ?_⟩
  intro careful
  have nothing : Kept start := by
    intro record member
    cases member
  have kept := Runs.trace_invariant step Kept start events nothing
    (fun pair member held =>
      kept_step pair.1 pair.2 held (careful pair member).1 (careful pair member).2)
  intro pair member
  exact honoured_of_kept pair.1 pair.2 (consistent pair member) (kept pair member)

/-- A submission from first to last. -/
def attemptOf (route : Route) (outcome : Outcome) : List Event :=
  [.submit route, .countFailures, .insert, .collect, .finish outcome]

def throughX : Route := [.ofNat 1, .ofNat 7, .ofNat 2]
def throughY : Route := [.ofNat 1, .ofNat 8, .ofNat 2]

/-- A route is found impossible to build; four minutes later it is still left alone. -/
theorem throughX_honoured : Honoured (Runs.run step start
    (attemptOf throughX .noCandidates ++ [.wait (seconds 240)])) (.submit throughX) := by
  have careful : ∀ pair ∈ Runs.trace step start
      ((attemptOf throughX .noCandidates ++ [.wait (seconds 240)]) ++ [.submit throughX]),
      Outlasts pair.1 pair.2 ∧ Fresh pair.1 pair.2 := by decide +kernel
  exact (blacklists_honoured _).2 careful (_, .submit throughX)
    (by rw [Runs.trace_append]; exact List.mem_append_right _ List.mem_cons_self)

/-- Another route with the same ends is left alone. -/
theorem sameEnds_suppressed : ¬ ∀ pair ∈ Runs.trace step start
    (attemptOf throughX .dropped ++ [.submit throughY]), OwnOnly pair.1 pair.2 := by
  intro lawful
  have own := lawful (Runs.run step start (attemptOf throughX .dropped), .submit throughY)
    (by rw [Runs.trace_append]; exact List.mem_append_right _ List.mem_cons_self)
  obtain ⟨record, last, same⟩ := own throughY rfl (by decide +kernel)
  have held : (Runs.run step start (attemptOf throughX .dropped)).latest (routeKey throughY) =
      some ⟨throughX, 0, routeDedupCooldown, 0⟩ := by decide +kernel
  rw [held] at last
  cases last
  exact absurd same (by decide +kernel)

end Executor

end Helios.RouteDedup
