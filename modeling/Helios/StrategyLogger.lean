import Helios.HashMap
import Helios.Machine
import Helios.Runs
import Mathlib.Algebra.BigOperators.Group.List.Basic
import Mathlib.Tactic

/-! The log of what the bot did: any thread offers events to a bounded channel, and one
writer takes them off in batches and writes each to the database. Of the tables, the one
that sums up the results of each pool is modelled. -/

namespace Helios.StrategyLogger

open Machine Runs

def channelCap : Nat := 8192
def batchCap : Nat := 128

structure LogPoolPerfUpdate where
  poolAddress : String
  dexType : String
  landed : Bool
  profit : Int
  deriving DecidableEq

inductive LogEvent where
  | opportunity
  | execution
  | executionUpdate
  | sniper
  | sniperSellUpdate
  | poolSnapshots
  | poolPerfUpdate (update : LogPoolPerfUpdate)
  | routeCandidate
  | poolDiscovery
  | walletSwap
  | walletUpdate
  | patternUpdate
  deriving DecidableEq

/-! The table of results by pool. -/

structure PoolPerformance where
  dexType : String
  totalOpps : Int
  totalSent : Int
  totalLanded : Int
  totalProfit : Int
  deriving DecidableEq

abbrev Database := HashMap String PoolPerformance

/-- The range of `bigint`, out of which a statement fails. -/
def isBigint (n : Int) : Bool := decide (-2 ^ 63 ≤ n ∧ n < 2 ^ 63)

def landedCount (landed : Bool) : Int := if landed then 1 else 0

/-- The row after `ON CONFLICT`: the count of sent transactions is not among what is set. -/
def PoolPerformance.add (row : PoolPerformance) (update : LogPoolPerfUpdate) : PoolPerformance :=
  { row with
    totalOpps := row.totalOpps + 1
    totalLanded := row.totalLanded + landedCount update.landed
    totalProfit := row.totalProfit + update.profit }

def PoolPerformance.inRange (row : PoolPerformance) : Bool :=
  isBigint row.totalOpps && isBigint row.totalLanded && isBigint row.totalProfit

/-- The statement of `update_pool_perf`; none where it fails. -/
def upsertPoolPerf (database : Database) (update : LogPoolPerfUpdate) : Option Database :=
  let row :=
    match HashMap.get database update.poolAddress with
    | none => ⟨update.dexType, 1, 1, landedCount update.landed, update.profit⟩
    | some held => held.add update
  if row.inRange then some (database.insert update.poolAddress row) else none

/-- What a write does to the table. -/
def writeEvent (database : Database) : LogEvent → Option Database
  | .poolPerfUpdate update => upsertPoolPerf database update
  | _ => some database

/-! The channel and the writer. -/

/-- Where the writer stands; it crashes if its statements cannot be prepared. -/
inductive Phase where
  | connecting
  | waiting
  | filling
  | writing
  | stopped
  | crashed
  deriving DecidableEq

/-- Of the last five lists the program keeps none: the events handled, with what became of
their writes, those offered, those the channel took, those it had no room for, and those
offered after a crash, oldest first. -/
structure Logger where
  queue : List LogEvent
  sendersAlive : Bool
  dropped : Nat
  phase : Phase
  batch : List LogEvent
  database : Database
  totalWritten : Nat
  handled : List (LogEvent × Bool)
  offered : List LogEvent
  accepted : List LogEvent
  refused : List LogEvent
  lost : List LogEvent

def start (database : Database) : Logger :=
  ⟨[], true, 0, .connecting, [], database, 0, [], [], [], [], []⟩

inductive Event where
  | send (event : LogEvent)
  | closeSenders
  | connect (prepared : Bool)
  | receive
  | fill
  | write (reachable : Bool)

/-- `send`: a full channel is counted, a closed one is not. -/
def send (logger : Logger) (event : LogEvent) : Logger :=
  let logger := { logger with offered := logger.offered ++ [event] }
  if logger.phase = .stopped ∨ logger.phase = .crashed then
    { logger with lost := logger.lost ++ [event] }
  else if logger.queue.length < channelCap then
    { logger with queue := logger.queue ++ [event], accepted := logger.accepted ++ [event] }
  else
    { logger with
      dropped := wrap 64 (logger.dropped + 1)
      refused := logger.refused ++ [event] }

/-- One event of the batch; a failed write is only reported. -/
def write (logger : Logger) (reachable : Bool) : Logger :=
  match logger.batch with
  | [] => { logger with phase := .waiting }
  | event :: rest =>
      match (if reachable then writeEvent logger.database event else none) with
      | some database =>
          { logger with
            batch := rest
            database := database
            totalWritten := logger.totalWritten + 1
            handled := logger.handled ++ [(event, true)] }
      | none => { logger with batch := rest, handled := logger.handled ++ [(event, false)] }

def step (logger : Logger) : Event → Logger
  | .send event => if logger.sendersAlive then send logger event else logger
  | .closeSenders => { logger with sendersAlive := false }
  | .connect prepared =>
      if logger.phase = .connecting then
        { logger with phase := if prepared then .waiting else .crashed }
      else logger
  | .receive =>
      if logger.phase = .waiting then
        match logger.queue with
        | event :: rest => { logger with queue := rest, batch := [event], phase := .filling }
        | [] => if logger.sendersAlive then logger else { logger with phase := .stopped }
      else logger
  | .fill =>
      if logger.phase = .filling then
        match logger.queue with
        | event :: rest =>
            if logger.batch.length < batchCap then
              { logger with queue := rest, batch := logger.batch ++ [event] }
            else { logger with phase := .writing }
        | [] => { logger with phase := .writing }
      else logger
  | .write reachable => if logger.phase = .writing then write logger reachable else logger

/-! Where every event is, over any run. -/

structure Accounted (logger : Logger) : Prop where
  /-- What the channel took is written in that order. -/
  order : logger.handled.map Prod.fst ++ logger.batch ++ logger.queue = logger.accepted
  taken : logger.accepted.Sublist logger.offered
  kept : logger.offered.Perm (logger.accepted ++ logger.refused ++ logger.lost)
  counted : logger.dropped = wrap 64 logger.refused.length
  room : logger.queue.length ≤ channelCap
  small : logger.batch.length ≤ batchCap
  idle : logger.phase ≠ .filling → logger.phase ≠ .writing → logger.batch = []
  written : logger.totalWritten = (logger.handled.filter Prod.snd).length
  crashed : logger.lost ≠ [] → logger.phase = .crashed
  drained : logger.phase = .stopped → logger.sendersAlive = false ∧ logger.queue = []

theorem accounted_start (database : Database) : Accounted (start database) := by
  constructor
  case kept => exact List.Perm.refl _
  all_goals simp [start, wrap]

/-- An event offered is in exactly one of the three lists. -/
theorem offered_perm (offered accepted refused lost offered' accepted' refused' lost' : List LogEvent)
    (kept : offered.Perm (accepted ++ refused ++ lost))
    (more : ∀ event, offered'.count event + (accepted.count event + refused.count event +
      lost.count event) = offered.count event + (accepted'.count event + refused'.count event +
        lost'.count event)) :
    offered'.Perm (accepted' ++ refused' ++ lost') := by
  rw [List.perm_iff_count] at kept ⊢
  intro event
  have before := kept event
  have step := more event
  simp only [List.count_append] at before ⊢
  omega

theorem accounted_send (logger : Logger) (event : LogEvent) (alive : logger.sendersAlive = true)
    (accounted : Accounted logger) : Accounted (send logger event) := by
  have running : logger.phase ≠ .stopped := by
    intro stopped
    rw [(accounted.drained stopped).1] at alive
    cases alive
  rw [send]
  dsimp only
  split
  · rename_i closed
    have crashed := closed.resolve_left running
    exact { accounted with
      taken := accounted.taken.trans (List.sublist_append_left _ _)
      kept := by
        refine offered_perm _ _ _ _ _ _ _ _ accounted.kept ?_
        intro other
        simp only [List.count_append]
        omega
      crashed := fun _ => crashed }
  · rename_i working
    split
    · rename_i room
      exact { accounted with
        order := by
          dsimp only
          rw [← List.append_assoc, accounted.order]
        taken := accounted.taken.append (List.Sublist.refl _)
        kept := by
          refine offered_perm _ _ _ _ _ _ _ _ accounted.kept ?_
          intro other
          simp only [List.count_append]
          omega
        room := by
          dsimp only
          rw [List.length_append, List.length_singleton]
          exact room
        drained := fun stopped => absurd stopped running }
    · exact { accounted with
        taken := accounted.taken.trans (List.sublist_append_left _ _)
        kept := by
          refine offered_perm _ _ _ _ _ _ _ _ accounted.kept ?_
          intro other
          simp only [List.count_append]
          omega
        counted := by
          dsimp only
          rw [accounted.counted, List.length_append, List.length_singleton, wrap, wrap, wrap]
          omega }

theorem accounted_write (logger : Logger) (reachable : Bool) (writing : logger.phase = .writing)
    (accounted : Accounted logger) : Accounted (write logger reachable) := by
  have order := accounted.order
  have small := accounted.small
  rw [write]
  cases batch : logger.batch with
  | nil =>
      rw [batch] at order
      exact { accounted with
        order := order
        small := Nat.zero_le _
        idle := fun _ _ => rfl
        crashed := fun lost => by
          have crashed := accounted.crashed lost
          rw [writing] at crashed
          cases crashed
        drained := by simp }
  | cons event rest =>
      rw [batch] at order small
      dsimp only
      split
      · exact { accounted with
          order := by simpa using order
          small := (Nat.le_succ _).trans small
          idle := fun _ other => absurd writing other
          written := by simp [accounted.written] }
      · exact { accounted with
          order := by simpa using order
          small := (Nat.le_succ _).trans small
          idle := fun _ other => absurd writing other
          written := by simp [accounted.written] }

theorem accounted_step (logger : Logger) (event : Event) (accounted : Accounted logger) :
    Accounted (step logger event) := by
  cases event with
  | send event =>
      rw [step]
      split
      · rename_i alive
        exact accounted_send logger event alive accounted
      · exact accounted
  | closeSenders =>
      exact { accounted with drained := fun stopped => ⟨rfl, (accounted.drained stopped).2⟩ }
  | connect prepared =>
      rw [step]
      split
      · rename_i connecting
        have empty := accounted.idle (by rw [connecting]; decide) (by rw [connecting]; decide)
        have none_lost : logger.lost = [] := by
          by_contra lost
          rw [accounted.crashed lost] at connecting
          cases connecting
        exact { accounted with
          idle := fun _ _ => empty
          crashed := fun lost => absurd none_lost lost
          drained := by cases prepared <;> simp }
      · exact accounted
  | receive =>
      rw [step]
      split
      · rename_i waiting
        have empty := accounted.idle (by rw [waiting]; decide) (by rw [waiting]; decide)
        have none_lost : logger.lost = [] := by
          by_contra lost
          rw [accounted.crashed lost] at waiting
          cases waiting
        have order := accounted.order
        have room := accounted.room
        cases queue : logger.queue with
        | nil =>
            rw [queue] at order
            dsimp only
            split
            · exact accounted
            · rename_i closed
              exact { accounted with
                order := order
                room := Nat.zero_le _
                idle := fun _ _ => empty
                crashed := fun lost => absurd none_lost lost
                drained := fun _ => ⟨Bool.eq_false_of_not_eq_true closed, rfl⟩ }
        | cons first rest =>
            rw [queue, empty] at order
            rw [queue, List.length_cons] at room
            exact { accounted with
              order := by simpa using order
              room := (Nat.le_succ _).trans room
              small := by norm_num [batchCap]
              idle := fun other _ => absurd rfl other
              crashed := fun lost => absurd none_lost lost
              drained := by simp }
      · exact accounted
  | fill =>
      rw [step]
      split
      · rename_i filling
        have none_lost : logger.lost = [] := by
          by_contra lost
          rw [accounted.crashed lost] at filling
          cases filling
        have order := accounted.order
        have room := accounted.room
        cases queue : logger.queue with
        | nil =>
            rw [queue] at order
            exact { accounted with
              order := order
              room := Nat.zero_le _
              idle := fun _ other => absurd rfl other
              crashed := fun lost => absurd none_lost lost
              drained := by simp }
        | cons first rest =>
            rw [queue] at order
            rw [queue, List.length_cons] at room
            dsimp only
            split
            · rename_i more
              exact { accounted with
                order := by simpa using order
                room := (Nat.le_succ _).trans room
                small := by simpa using more
                idle := fun other _ => absurd filling other
                drained := by simp [filling] }
            · exact { accounted with
                order := order
                room := room
                idle := fun _ other => absurd rfl other
                crashed := fun lost => absurd none_lost lost
                drained := by simp }
      · exact accounted
  | write reachable =>
      rw [step]
      split
      · rename_i writing
        exact accounted_write logger reachable writing accounted
      · exact accounted

/-- Over any run every event offered is written or reported once and in order, still on its
way, or counted as dropped; none is lost uncounted unless the writer crashed, and a writer
that stops has written all it took. -/
theorem every_event_accounted (database : Database) (events : List Event) :
    Accounted (run step (start database) events) ∧
      ((run step (start database) events).phase = .stopped →
        (run step (start database) events).handled.map Prod.fst =
          (run step (start database) events).accepted) := by
  have accounted : Accounted (run step (start database) events) := by
    apply run_invariant step Accounted
    · exact accounted_start database
    · intro pair _ held
      exact accounted_step pair.1 pair.2 held
  refine ⟨accounted, ?_⟩
  intro stopped
  have empty := accounted.idle (by rw [stopped]; decide) (by rw [stopped]; decide)
  have order := accounted.order
  rw [empty, (accounted.drained stopped).2, List.append_nil, List.append_nil] at order
  exact order

/-! The table as a function of the writes that succeeded. -/

/-- The updates of a pool among the events, if their writes succeeded. -/
def writtenUpdate (pool : String) (handled : LogEvent × Bool) : Option LogPoolPerfUpdate :=
  match handled with
  | (.poolPerfUpdate update, true) => if update.poolAddress = pool then some update else none
  | _ => none

def history (logger : Logger) (pool : String) : List LogPoolPerfUpdate :=
  logger.handled.filterMap (writtenUpdate pool)

/-- The row that a history of updates comes to. -/
def rowOf : List LogPoolPerfUpdate → Option PoolPerformance
  | [] => none
  | first :: rest =>
      let updates := first :: rest
      some {
        dexType := first.dexType
        totalOpps := updates.length
        totalSent := 1
        totalLanded := (updates.filter LogPoolPerfUpdate.landed).length
        totalProfit := (updates.map LogPoolPerfUpdate.profit).sum }

theorem rowOf_snoc (updates : List LogPoolPerfUpdate) (update : LogPoolPerfUpdate) :
    rowOf (updates ++ [update]) =
      some (match rowOf updates with
        | none => ⟨update.dexType, 1, 1, landedCount update.landed, update.profit⟩
        | some held => held.add update) := by
  cases updates with
  | nil => cases landed : update.landed <;> simp [rowOf, landedCount, landed]
  | cons first rest =>
      simp only [rowOf, List.cons_append, PoolPerformance.add, Option.some.injEq,
        PoolPerformance.mk.injEq, true_and]
      refine ⟨by simp, ?_, by simp [add_assoc]⟩
      rw [← List.cons_append, List.filter_append, List.length_append]
      cases landed : update.landed <;> simp [landedCount, landed]

theorem get_upsertPoolPerf (database after : Database) (update : LogPoolPerfUpdate)
    (pool : String) (written : upsertPoolPerf database update = some after) :
    HashMap.get after pool =
      if pool = update.poolAddress then
        some (match HashMap.get database update.poolAddress with
          | none => ⟨update.dexType, 1, 1, landedCount update.landed, update.profit⟩
          | some held => held.add update)
      else HashMap.get database pool := by
  simp only [upsertPoolPerf, Option.ite_none_right_eq_some, Option.some.injEq] at written
  rcases written with ⟨-, rfl⟩
  by_cases same : pool = update.poolAddress
  · rw [if_pos same, same, HashMap.get_insert]
  · rw [if_neg same, HashMap.get_insert_ne _ _ _ _ same]

theorem inRange_upsertPoolPerf (database after : Database) (update : LogPoolPerfUpdate)
    (written : upsertPoolPerf database update = some after)
    (before : ∀ pool row, HashMap.get database pool = some row → row.inRange = true)
    (pool : String) (row : PoolPerformance) (found : HashMap.get after pool = some row) :
    row.inRange = true := by
  simp only [upsertPoolPerf, Option.ite_none_right_eq_some, Option.some.injEq] at written
  rcases written with ⟨fits, rfl⟩
  by_cases same : pool = update.poolAddress
  · rw [same, HashMap.get_insert] at found
    cases found
    exact fits
  · rw [HashMap.get_insert_ne _ _ _ _ same] at found
    exact before pool row found

/-- Each row is what its pool's history comes to, within the range of its columns. -/
structure Recorded (logger : Logger) : Prop where
  rows : ∀ pool, HashMap.get logger.database pool = rowOf (history logger pool)
  fits : ∀ pool row, HashMap.get logger.database pool = some row → row.inRange = true

theorem recorded_of_same (logger after : Logger) (database : after.database = logger.database)
    (handled : after.handled = logger.handled) (recorded : Recorded logger) :
    Recorded after := by
  constructor
  · intro pool
    rw [database, history, handled]
    exact recorded.rows pool
  · intro pool row
    rw [database]
    exact recorded.fits pool row

theorem recorded_write (logger : Logger) (reachable : Bool) (recorded : Recorded logger) :
    Recorded (write logger reachable) := by
  rw [write]
  cases logger.batch with
  | nil => exact recorded_of_same logger _ rfl rfl recorded
  | cons event rest =>
      dsimp only
      split
      · rename_i after wrote
        have done : writeEvent logger.database event = some after := by
          cases reachable with
          | true => exact wrote
          | false => cases wrote
        cases event with
        | poolPerfUpdate update =>
            refine ⟨?_, inRange_upsertPoolPerf logger.database after update done recorded.fits⟩
            intro pool
            simp only [history, List.filterMap_append]
            rw [get_upsertPoolPerf logger.database after update pool done]
            by_cases same : pool = update.poolAddress
            · subst same
              have own : [(LogEvent.poolPerfUpdate update, true)].filterMap
                  (writtenUpdate update.poolAddress) = [update] := by
                simp [writtenUpdate]
              rw [if_pos rfl, own, rowOf_snoc, recorded.rows update.poolAddress]
              rfl
            · have other : [(LogEvent.poolPerfUpdate update, true)].filterMap
                  (writtenUpdate pool) = [] := by
                simp [writtenUpdate, Ne.symm same]
              rw [if_neg same, other, List.append_nil]
              exact recorded.rows pool
        | _ =>
            cases done
            refine ⟨?_, recorded.fits⟩
            intro pool
            simp only [history, List.filterMap_append]
            change _ = rowOf (history logger pool ++ [])
            rw [List.append_nil]
            exact recorded.rows pool
      · refine ⟨?_, recorded.fits⟩
        intro pool
        have failed : [(event, false)].filterMap (writtenUpdate pool) = [] := by
          cases event <;> rfl
        simp only [history, List.filterMap_append, failed, List.append_nil]
        exact recorded.rows pool

theorem recorded_step (logger : Logger) (event : Event) (recorded : Recorded logger) :
    Recorded (step logger event) := by
  cases event with
  | send event =>
      rw [step]
      split
      · rw [send]
        dsimp only
        split
        · exact recorded_of_same logger _ rfl rfl recorded
        · split <;> exact recorded_of_same logger _ rfl rfl recorded
      · exact recorded
  | closeSenders => exact recorded_of_same logger _ rfl rfl recorded
  | connect prepared =>
      rw [step]
      split
      · exact recorded_of_same logger _ rfl rfl recorded
      · exact recorded
  | receive =>
      rw [step]
      split
      · cases logger.queue with
        | nil =>
            dsimp only
            split <;> exact recorded_of_same logger _ rfl rfl recorded
        | cons first rest => exact recorded_of_same logger _ rfl rfl recorded
      · exact recorded
  | fill =>
      rw [step]
      split
      · cases logger.queue with
        | nil => exact recorded_of_same logger _ rfl rfl recorded
        | cons first rest =>
            dsimp only
            split <;> exact recorded_of_same logger _ rfl rfl recorded
      · exact recorded
  | write reachable =>
      rw [step]
      split
      · exact recorded_write logger reachable recorded
      · exact recorded

theorem recorded_run (events : List Event) :
    Recorded (run step (start HashMap.empty) events) := by
  apply run_invariant step Recorded
  · constructor
    · intro pool
      exact HashMap.get_empty pool
    · intro pool row found
      rw [start, HashMap.get_empty] at found
      cases found
  · intro pair _ held
    exact recorded_step pair.1 pair.2 held

end Helios.StrategyLogger
