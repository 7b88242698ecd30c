import Helios.AccountCache
import Helios.GrpcFreshness

/-! The two state caches: the interleavings that take them back in time. -/

namespace Helios.StateCaches

open Runs

/-- Both caches go only forward exactly if every access of the run may be made. -/
theorem never_back_iff (everyState : Bool) (events : List GrpcFeed.Event)
    (liteEvents : List AgaveLite.Event) :
    (Along GrpcFeed.step (fun world _ next => GrpcFeed.Forward everyState world next)
        GrpcFeed.start events ↔
      Along GrpcFeed.step (fun world event _ => GrpcFeed.Meets everyState world event)
        GrpcFeed.start events) ∧
    (Along AgaveLite.step (fun _ _ next => AgaveLite.Fresh next) AgaveLite.start liteEvents ↔
      Along AgaveLite.step (fun world event _ => AgaveLite.Meets world event) AgaveLite.start
        liteEvents) :=
  ⟨GrpcFeed.forward_run_iff everyState events, AgaveLite.fresh_run_iff liteEvents⟩

section Races

open GrpcFeed

def turns (thread : Thread) (count : Nat) : List Event := List.replicate count (.turn thread)

/-- The epoch poller has compared slot 5 with slot 0 when the feed stores slot 9. -/
def staleCompare : List Event :=
  .input (.epochInfo 1 5) :: turns .metaPoller 3 ++
    .input (.slotUpdate 9) :: turns .pushFeed 3

/-- A block of slot 8 is pushed after the blockhash of slot 10 was polled. -/
def olderBlock : List Event :=
  .input (.latestBlockhash (Hash.replicate 1) 10) :: turns .bhPoller 7 ++
    .input (.blockMeta (some (Hash.replicate 2)) ⟨8, none⟩) :: turns .pushFeed 1

/-- Both write their hash, then the feed stores slot 9 and the poller slot 10. -/
def crossedWrites : List Event :=
  .input (.latestBlockhash (Hash.replicate 1) 10) :: turns .bhPoller 3 ++
    .input (.blockMeta (some (Hash.replicate 2)) ⟨9, none⟩) :: turns .pushFeed 2

def vaultInfo (lamports : Nat) : AccountInfo := ⟨lamports, [], default, false, 0⟩

/-- An answer of slot 15 arrives after the push of slot 20. -/
def olderPoll : List Event :=
  .input (.accountUpdate (Pubkey.ofNat 1).toBytes (Pubkey.ofNat 2).toBytes (vaultInfo 2) 20) ::
    turns .pushFeed 1 ++
    .input (.multipleAccounts [.ofNat 1] [some (vaultInfo 1)] 15) :: turns .accPoller 1

/-- The same in the other cache: the answer gets the stamp 20. -/
def olderLitePoll : List AgaveLite.Event :=
  [.accountUpdate (.ofNat 1) ⟨2, [], default⟩ 20, .pushFeedTurn, .pushFeedTurn,
    .multipleAccounts [.ofNat 1] [some ⟨1, [], default⟩] 15, .pollerTurn]

theorem goes_back_five_ways :
    ¬ Along step (fun world _ next => Forward false world next) start
        (staleCompare ++ [.turn .metaPoller]) ∧
      ¬ Along step (fun world _ next => Forward false world next) start
        (olderBlock ++ [.turn .pushFeed]) ∧
      ¬ Along step (fun world _ next => Forward false world next) start
        (crossedWrites ++ [.turn .bhPoller]) ∧
      ¬ Along step (fun world _ next => Forward false world next) start
        (olderPoll ++ [.turn .accPoller]) ∧
      ¬ Along AgaveLite.step (fun _ _ next => AgaveLite.Fresh next) AgaveLite.start
        (olderLitePoll ++ [.pollerTurn]) := by
  refine ⟨?_, ?_, ?_, ?_, ?_⟩
  · apply not_along step _ start _ _ staleCompare (.turn .metaPoller) rfl rfl
    exact fun forward => absurd forward.currentSlot (by decide)
  · apply not_along step _ start _ _ olderBlock (.turn .pushFeed) rfl rfl
    exact fun forward => absurd forward.blockhashSlot (by decide)
  · apply not_along step _ start _ _ crossedWrites (.turn .bhPoller) rfl rfl
    intro forward
    have pair : (Hash.replicate 2, 10) ∈
        [(Hash.replicate 2, 9), (Hash.replicate 1, 10), (Hash.default, 0)] :=
      forward.paired (Or.inr ⟨id, id⟩)
    exact absurd pair (by decide)
  · apply not_along step _ start _ _ olderPoll (.turn .accPoller) rfl rfl
    exact fun forward => absurd (forward.newest (.ofNat 1)) (by decide +kernel)
  · apply not_along AgaveLite.step _ AgaveLite.start _ _ olderLitePoll .pollerTurn rfl rfl
    exact fun fresh => absurd (fresh (.ofNat 1)) (by decide +kernel)

end Races

end Helios.StateCaches
