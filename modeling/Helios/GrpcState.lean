import Helios.AccountDecoders
import Helios.BlockhashDeriver
import Helios.LatestWins

/-! The state that the threads of `mini-agave` share: the blockhash poller, the epoch poller,
the account poller and the push feed, each taking one load, comparison or store at a time.
The counters and the other answers kept there, which no step below reads, are left out. -/

namespace Helios.GrpcFeed

open LatestWins

/-- An account as an RPC node or a push feed gives it. -/
structure AccountInfo where
  lamports : Nat
  data : List UInt8
  owner : Pubkey
  executable : Bool
  rentEpoch : Nat
  deriving DecidableEq

structure CachedAccount extends AccountInfo where
  slot : Nat

structure GrpcState where
  blockhash : Hash
  blockhashSlot : Nat
  currentSlot : Nat
  blockHeight : Nat
  accounts : HashMap Pubkey CachedAccount

def GrpcState.new : GrpcState := ⟨Hash.default, 0, 0, 0, HashMap.empty⟩

/-- One access to the shared state. -/
inductive Action where
  /-- A load, or a comparison of what was loaded. -/
  | read
  | storeCurrentSlot (slot : Nat)
  | writeBlockhash (bh : Hash)
  | storeBlockhashSlot (slot : Nat)
  | storeBlockHeight (height : Nat)
  /-- `accounts.insert`, of an account seen at a slot that may not be its stamp. -/
  | insertAccount (key : Pubkey) (acc : CachedAccount) (observedAt : Nat)
  /-- A polled account that does not exist is passed over. -/
  | passAccount (key : Pubkey) (observedAt : Nat)

def perform (state : GrpcState) : Action → GrpcState
  | .storeCurrentSlot slot => { state with currentSlot := slot }
  | .writeBlockhash bh => { state with blockhash := bh }
  | .storeBlockhashSlot slot => { state with blockhashSlot := slot }
  | .storeBlockHeight height => { state with blockHeight := height }
  | .insertAccount key acc _ => { state with accounts := state.accounts.insert key acc }
  | _ => state

/-- What is left of `if slot > cur { current_slot.store(slot) }`, the same in four places. -/
inductive Advance where
  | load (slot : Nat)
  | compare (slot cur : Nat)
  | store (slot : Nat)

/-- `spawn_blockhash_poller`, in one turn of its loop. -/
inductive BhPoller where
  | asleep
  | answered (bh : Hash) (slot : Nat)
  | loaded (bh : Hash) (slot oldSlot : Nat)
  | newer (bh : Hash) (slot : Nat)
  | hashWritten (slot : Nat)
  | advancing (rest : Advance)

/-- `spawn_metadata_poller`, with an epoch info. -/
inductive MetaPoller where
  | asleep
  | answered (blockHeight absoluteSlot : Nat)
  | advancing (rest : Advance)

/-- `spawn_account_poller`, in one chunk. The code does not see the slot of the answer. -/
inductive AccPoller where
  | asleep
  | inserting (rest : List (Pubkey × Option AccountInfo)) (observedAt : Nat)
  | stamped (pk : Pubkey) (acc : CachedAccount) (rest : List (Pubkey × Option AccountInfo))
      (observedAt : Nat)

structure BlockMeta where
  slot : Nat
  blockHeight : Option Nat

/-- `run_grpc_once`, in one message. -/
inductive PushFeed where
  | receiving
  | parsed (bh : Hash) (bm : BlockMeta)
  | hashWritten (bm : BlockMeta)
  | slotStored (bm : BlockMeta)
  | account (key : Pubkey) (acc : AccountInfo) (slot : Nat)
  | advancing (rest : Advance)

def advanceStep (state : GrpcState) : Advance → Action × Option Advance
  | .load slot => (.read, some (.compare slot state.currentSlot))
  | .compare slot cur => (.read, if cur < slot then some (.store slot) else none)
  | .store slot => (.storeCurrentSlot slot, none)

def bhPollerStep (state : GrpcState) : BhPoller → Option (Action × BhPoller)
  | .asleep => none
  | .answered bh slot => some (.read, .loaded bh slot state.blockhashSlot)
  | .loaded bh slot oldSlot => some (.read, if oldSlot < slot then .newer bh slot else .asleep)
  | .newer bh slot => some (.writeBlockhash bh, .hashWritten slot)
  | .hashWritten slot => some (.storeBlockhashSlot slot, .advancing (.load slot))
  | .advancing rest =>
      let (action, rest) := advanceStep state rest
      some (action, (rest.map BhPoller.advancing).getD .asleep)

def metaPollerStep (state : GrpcState) : MetaPoller → Option (Action × MetaPoller)
  | .asleep => none
  | .answered blockHeight absoluteSlot =>
      some (.storeBlockHeight blockHeight, .advancing (.load absoluteSlot))
  | .advancing rest =>
      let (action, rest) := advanceStep state rest
      some (action, (rest.map MetaPoller.advancing).getD .asleep)

def accPollerStep (state : GrpcState) : AccPoller → Option (Action × AccPoller)
  | .asleep => none
  | .inserting [] _ => some (.read, .asleep)
  | .inserting ((pk, none) :: rest) observedAt =>
      some (.passAccount pk observedAt, .inserting rest observedAt)
  | .inserting ((pk, some acc) :: rest) observedAt =>
      some (.read, .stamped pk { acc with slot := state.blockhashSlot } rest observedAt)
  | .stamped pk acc rest observedAt =>
      some (.insertAccount pk acc observedAt, .inserting rest observedAt)

def pushFeedStep (state : GrpcState) : PushFeed → Option (Action × PushFeed)
  | .receiving => none
  | .parsed bh bm => some (.writeBlockhash bh, .hashWritten bm)
  | .hashWritten bm => some (.storeBlockhashSlot bm.slot, .slotStored bm)
  | .slotStored bm =>
      some (match bm.blockHeight with
        | some height => .storeBlockHeight height
        | none => .read, .advancing (.load bm.slot))
  | .account key acc slot => some (.insertAccount key { acc with slot } slot, .receiving)
  | .advancing rest =>
      let (action, rest) := advanceStep state rest
      some (action, (rest.map PushFeed.advancing).getD .receiving)

structure Threads where
  bhPoller : BhPoller
  metaPoller : MetaPoller
  accPoller : AccPoller
  pushFeed : PushFeed

inductive Thread where
  | bhPoller
  | metaPoller
  | accPoller
  | pushFeed

/-- The next access of a thread that has work. -/
def threadStep (state : GrpcState) (threads : Threads) : Thread → Option (Action × Threads)
  | .bhPoller => (bhPollerStep state threads.bhPoller).map
      (fun (action, bhPoller) => (action, { threads with bhPoller }))
  | .metaPoller => (metaPollerStep state threads.metaPoller).map
      (fun (action, metaPoller) => (action, { threads with metaPoller }))
  | .accPoller => (accPollerStep state threads.accPoller).map
      (fun (action, accPoller) => (action, { threads with accPoller }))
  | .pushFeed => (pushFeedStep state threads.pushFeed).map
      (fun (action, pushFeed) => (action, { threads with pushFeed }))

/-- What a node answers or a feed pushes. -/
inductive Input where
  | latestBlockhash (bh : Hash) (slot : Nat)
  | epochInfo (blockHeight absoluteSlot : Nat)
  | multipleAccounts (chunk : List Pubkey) (accounts : List (Option AccountInfo))
      (observedAt : Nat)
  | slotUpdate (slot : Nat)
  /-- With the hash its text parses to. -/
  | blockMeta (blockhash : Option Hash) (bm : BlockMeta)
  | accountUpdate (pubkey owner : List UInt8) (acc : AccountInfo) (slot : Nat)

/-- A thread takes an input when it waits for one. -/
def receive (threads : Threads) : Input → Option Threads
  | .latestBlockhash bh slot =>
      match threads.bhPoller with
      | .asleep => some { threads with bhPoller := .answered bh slot }
      | _ => none
  | .epochInfo blockHeight absoluteSlot =>
      match threads.metaPoller with
      | .asleep => some { threads with metaPoller := .answered blockHeight absoluteSlot }
      | _ => none
  | .multipleAccounts chunk accounts observedAt =>
      match threads.accPoller with
      | .asleep => some { threads with accPoller := .inserting (chunk.zip accounts) observedAt }
      | _ => none
  | .slotUpdate slot =>
      match threads.pushFeed with
      | .receiving => some { threads with pushFeed := .advancing (.load slot) }
      | _ => none
  | .blockMeta blockhash bm =>
      match threads.pushFeed with
      | .receiving =>
          some { threads with pushFeed := (blockhash.map (PushFeed.parsed · bm)).getD .receiving }
      | _ => none
  | .accountUpdate pubkey owner acc slot =>
      match threads.pushFeed with
      | .receiving =>
          some { threads with
            pushFeed := match pubkeyFromBytes pubkey with
              | some key =>
                  .account key { acc with owner := (pubkeyFromBytes owner).getD default } slot
              | none => .receiving }
      | _ => none

/-- The blockhash an input reports, with its slot. -/
def report : Input → List (Hash × Nat)
  | .latestBlockhash bh slot => [(bh, slot)]
  | .blockMeta (some bh) bm => [(bh, bm.slot)]
  | _ => []

abbrev Seen := Observation Nat (Option AccountInfo)

/-- The account an access hands to the cache, with the slot it was seen at. -/
def delivery : Action → List (Pubkey × Seen)
  | .insertAccount key acc observedAt => [(key, ⟨observedAt, some acc.toAccountInfo⟩)]
  | .passAccount key observedAt => [(key, ⟨observedAt, none⟩)]
  | _ => []

/-- The shared state and the threads, with all that was reported and delivered so far. -/
structure World where
  state : GrpcState
  threads : Threads
  reported : List (Hash × Nat)
  delivered : List (Pubkey × Seen)

inductive Event where
  | input (input : Input)
  | turn (thread : Thread)

def step (world : World) : Event → Except Unit World
  | .input input =>
      match receive world.threads input with
      | none => .error ()
      | some threads => .ok { world with threads, reported := report input ++ world.reported }
  | .turn thread =>
      match threadStep world.state world.threads thread with
      | none => .error ()
      | some (action, threads) => .ok { world with
          state := perform world.state action
          threads
          delivered := delivery action ++ world.delivered }

def start : World :=
  ⟨.new, ⟨.asleep, .asleep, .asleep, .receiving⟩, [(Hash.default, 0)], []⟩

end Helios.GrpcFeed
