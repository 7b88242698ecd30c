import Helios.HashMap
import Helios.LruCache
import Helios.Runs
import Helios.Shred
import Helios.Types

/-! The event bus between the sources and the strategy engine, with its calls interleaved: a
call checks, records what it has seen, sends and counts, each a step of its own. -/

namespace Helios.EventBus

inductive Source where
  | yellowstoneGrpc
  | richat
  | shredstream
  deriving DecidableEq

abbrev Signature := { bytes : Bytes // bytes.length = 64 }

inductive EventData where
  | transaction (signature : Signature)
  | accountUpdate (pubkey : Pubkey) (writeVersion : Nat)
  | slot
  deriving DecidableEq

structure IngestEvent where
  source : Source
  receivedAt : Nat
  data : EventData
  deriving DecidableEq

namespace IngestEvent

def signature (event : IngestEvent) : Option Signature :=
  match event.data with
  | .transaction signature => some signature
  | _ => none

/-- The account of an update and its version. -/
def update (event : IngestEvent) : Option (Pubkey × Nat) :=
  match event.data with
  | .accountUpdate pubkey writeVersion => some (pubkey, writeVersion)
  | _ => none

def account (event : IngestEvent) : Option Pubkey := event.update.map Prod.fst

end IngestEvent

structure BusMetrics where
  eventsTotal : Nat
  eventsDeduped : Nat
  eventsForwarded : Nat
  firstWins : HashMap Source Nat
  sourceTotal : HashMap Source Nat

def increment (counts : HashMap Source Nat) (source : Source) : HashMap Source Nat :=
  counts.insert source ((HashMap.get counts source).getD 0 + 1)

namespace BusMetrics

def new : BusMetrics := ⟨0, 0, 0, HashMap.empty, HashMap.empty⟩

def recordFirst (metrics : BusMetrics) (source : Source) : BusMetrics :=
  { metrics with firstWins := increment metrics.firstWins source }

def recordSource (metrics : BusMetrics) (source : Source) : BusMetrics :=
  { metrics with sourceTotal := increment metrics.sourceTotal source }

end BusMetrics

structure Channel where
  capacity : Nat
  queue : List IngestEvent
  connected : Bool

/-- `try_send` takes the event. -/
def Channel.HasRoom (channel : Channel) : Prop :=
  channel.connected = true ∧ channel.queue.length < channel.capacity

instance (channel : Channel) : Decidable channel.HasRoom :=
  inferInstanceAs (Decidable (_ ∧ _))

structure Seen where
  sigs : LruCache Signature (Source × Nat)
  accounts : HashMap Pubkey Nat

namespace Seen

/-- A known signature, or a version no newer than the one recorded. -/
def duplicate (seen : Seen) (event : IngestEvent) : Bool :=
  match event.data with
  | .transaction signature => seen.sigs.contains signature
  | .accountUpdate pubkey writeVersion =>
      match HashMap.get seen.accounts pubkey with
      | some existing => decide (writeVersion ≤ existing)
      | none => false
  | .slot => false

def record (seen : Seen) (event : IngestEvent) : Seen :=
  match event.data with
  | .transaction signature =>
      { seen with sigs := seen.sigs.put signature (event.source, event.receivedAt) }
  | .accountUpdate pubkey writeVersion =>
      { seen with accounts := seen.accounts.insert pubkey writeVersion }
  | .slot => seen

end Seen

/-- How far a call of `process` has come; a ticket numbers the calls in the order in which
they recorded their events. -/
inductive Phase where
  | entered
  | newer
  | recorded (ticket : Nat)
  | sent (queued : Bool)
  deriving DecidableEq

structure Call where
  event : IngestEvent
  phase : Phase
  deriving DecidableEq

/-- What the program keeps no record of: the events recorded and those enqueued, with their
tickets, and the signatures enqueued that have not left the cache since. -/
structure History where
  passed : List (Nat × IngestEvent)
  enqueued : List (Nat × IngestEvent)
  windowed : List Signature

structure State where
  seen : Seen
  channel : Channel
  metrics : BusMetrics
  calls : Nat → Option Call
  history : History

/-- `NonZeroUsize` of the capacity. -/
def start (dedupCapacity channelCapacity : Nat) (positive : 0 < dedupCapacity) : State where
  seen := ⟨LruCache.new dedupCapacity positive, HashMap.empty⟩
  channel := ⟨channelCapacity, [], true⟩
  metrics := BusMetrics.new
  calls := fun _ => none
  history := ⟨[], [], []⟩

inductive Input where
  | enter (thread : Nat) (event : IngestEvent)
  | advance (thread : Nat)
  | receive
  | disconnect

namespace State

def setCall (state : State) (thread : Nat) (call : Option Call) : State :=
  { state with calls := Function.update state.calls thread call }

/-- The lock on the signatures is held from the check to the record; the account's version is
read and written apart. -/
def pass (state : State) (thread : Nat) (event : IngestEvent) : State :=
  { state with
    seen := state.seen.record event
    metrics := state.metrics.recordFirst event.source
    calls := Function.update state.calls thread
      (some ⟨event, .recorded state.history.passed.length⟩)
    history := { state.history with
      passed := state.history.passed ++ [(state.history.passed.length, event)]
      windowed := state.history.windowed.filter (state.seen.record event).sigs.contains } }

/-- The signature enters the window if it is still in the cache. -/
def windowedAfter (state : State) (event : IngestEvent) : List Signature :=
  match event.signature with
  | some signature =>
      if state.seen.sigs.contains signature then signature :: state.history.windowed
      else state.history.windowed
  | none => state.history.windowed

/-- The result of `try_send` is dropped. -/
def send (state : State) (thread : Nat) (event : IngestEvent) (ticket : Nat) : State :=
  if state.channel.HasRoom then
    { state with
      channel := { state.channel with queue := state.channel.queue ++ [event] }
      calls := Function.update state.calls thread (some ⟨event, .sent true⟩)
      history := { state.history with
        enqueued := state.history.enqueued ++ [(ticket, event)]
        windowed := state.windowedAfter event } }
  else state.setCall thread (some ⟨event, .sent false⟩)

/-- The next step of a call. -/
def advance (state : State) (thread : Nat) (call : Call) : State :=
  match call.phase with
  | .entered =>
      if state.seen.duplicate call.event then
        { state.setCall thread none with
          metrics := { state.metrics with eventsDeduped := state.metrics.eventsDeduped + 1 } }
      else if call.event.update.isSome then state.setCall thread (some ⟨call.event, .newer⟩)
      else state.pass thread call.event
  | .newer => state.pass thread call.event
  | .recorded ticket => state.send thread call.event ticket
  | .sent _ =>
      { state.setCall thread none with
        metrics := { state.metrics with eventsForwarded := state.metrics.eventsForwarded + 1 } }

/-- A thread that is in a call does not enter another. -/
def step (state : State) : Input → State
  | .enter thread event =>
      match state.calls thread with
      | some _ => state
      | none =>
          { state.setCall thread (some ⟨event, .entered⟩) with
            metrics :=
              { state.metrics with eventsTotal := state.metrics.eventsTotal + 1 }.recordSource
                event.source }
  | .advance thread =>
      match state.calls thread with
      | some call => state.advance thread call
      | none => state
  | .receive => { state with channel := { state.channel with queue := state.channel.queue.tail } }
  | .disconnect => { state with channel := { state.channel with connected := false } }

end State

end Helios.EventBus
