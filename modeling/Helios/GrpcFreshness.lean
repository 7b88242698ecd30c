import Helios.GrpcState

/-! When the shared state of `mini-agave` only moves forward, over every interleaving. -/

namespace Helios.GrpcFeed

open LatestWins Runs

def BhPoller.HashPending : BhPoller → Prop
  | .hashWritten _ => True
  | _ => False

def PushFeed.HashPending : PushFeed → Prop
  | .hashWritten _ => True
  | _ => False

/-- Another thread has written its hash and not yet its slot. -/
def OtherPending (threads : Threads) : Thread → Prop
  | .bhPoller => threads.pushFeed.HashPending
  | .pushFeed => threads.bhPoller.HashPending
  | _ => False

/-- No thread is between the two. -/
def Settled (threads : Threads) : Prop :=
  ¬ threads.bhPoller.HashPending ∧ ¬ threads.pushFeed.HashPending

/-- What the cache answers for an account. -/
def stored (state : GrpcState) (key : Pubkey) : Option AccountInfo :=
  (state.accounts.get key).map CachedAccount.toAccountInfo

/-- The stored blockhash is the one reported with the stored slot. -/
def Paired (world : World) : Prop :=
  (world.state.blockhash, world.state.blockhashSlot) ∈ world.reported

section Freshness

-- Whether the pair is looked at in every state, or only when no thread is about to complete it.
variable (everyState : Bool)

/-- One step does not go back. -/
structure Forward (before after : World) : Prop where
  currentSlot : before.state.currentSlot ≤ after.state.currentSlot
  blockhashSlot : before.state.blockhashSlot ≤ after.state.blockhashSlot
  paired : everyState = true ∨ Settled after.threads → Paired after
  newest : AllNewest none after.delivered (stored after.state)

/-- When an access keeps the state from going back. -/
def Allowed (world : World) (thread : Thread) : Action → Prop
  | .storeCurrentSlot slot => world.state.currentSlot ≤ slot
  | .writeBlockhash bh => everyState = true → (bh, world.state.blockhashSlot) ∈ world.reported
  | .storeBlockhashSlot slot => world.state.blockhashSlot ≤ slot ∧
      (everyState = true ∨ ¬ OtherPending world.threads thread →
        (world.state.blockhash, slot) ∈ world.reported)
  | .insertAccount key acc observedAt =>
      NotOlder (seenOf world.delivered key) observedAt ∨
        Newest none (seenOf world.delivered key) (some acc.toAccountInfo)
  | .passAccount key observedAt =>
      (∃ other ∈ seenOf world.delivered key, observedAt ≤ other.slot) ∨
        stored world.state key = none
  | _ => True

def Meets (world : World) : Event → Prop
  | .input _ => True
  | .turn thread =>
      match threadStep world.state world.threads thread with
      | none => True
      | some (action, _) => Allowed everyState world thread action

/-- What holds between the steps. -/
structure Fresh (world : World) : Prop where
  paired : everyState = true ∨ Settled world.threads → Paired world
  newest : AllNewest none world.delivered (stored world.state)

/-! What an access does to the pending writes. -/

theorem settled_receive (threads next : Threads) (input : Input)
    (taken : receive threads input = some next) : Settled next ↔ Settled threads := by
  cases input with
  | latestBlockhash bh slot =>
      rw [receive] at taken
      split at taken
      · next asleep =>
          cases taken
          rw [Settled, Settled, asleep]
          exact Iff.rfl
      · cases taken
  | epochInfo blockHeight absoluteSlot =>
      rw [receive] at taken
      split at taken
      · cases taken
        exact Iff.rfl
      · cases taken
  | multipleAccounts chunk accounts observedAt =>
      rw [receive] at taken
      split at taken
      · cases taken
        exact Iff.rfl
      · cases taken
  | slotUpdate slot =>
      rw [receive] at taken
      split at taken
      · next waiting =>
          cases taken
          rw [Settled, Settled, waiting]
          exact Iff.rfl
      · cases taken
  | blockMeta blockhash bm =>
      rw [receive] at taken
      split at taken
      · next waiting =>
          cases taken
          rw [Settled, Settled, waiting]
          cases blockhash with
          | none => exact Iff.rfl
          | some bh => exact Iff.rfl
      · cases taken
  | accountUpdate pubkey owner acc slot =>
      rw [receive] at taken
      split at taken
      · next waiting =>
          cases taken
          rw [Settled, Settled, waiting]
          cases pubkeyFromBytes pubkey with
          | none => exact Iff.rfl
          | some key => exact Iff.rfl
      · cases taken

/-- The accesses that open or close a pending write. -/
def Moves (threads next : Threads) (thread : Thread) : Action → Prop
  | .writeBlockhash _ => ¬ Settled next
  | .storeBlockhashSlot _ => Settled next ↔ ¬ OtherPending threads thread
  | _ => Settled next ↔ Settled threads

theorem bhPoller_advancing (rest : Option Advance) :
    ¬ ((rest.map BhPoller.advancing).getD .asleep).HashPending := by
  cases rest with
  | none => exact id
  | some later => exact id

theorem pushFeed_advancing (rest : Option Advance) :
    ¬ ((rest.map PushFeed.advancing).getD .receiving).HashPending := by
  cases rest with
  | none => exact id
  | some later => exact id

theorem moves_advance (state : GrpcState) (rest : Advance) (threads next : Threads)
    (thread : Thread) (same : Settled next ↔ Settled threads) :
    Moves threads next thread (advanceStep state rest).1 := by
  cases rest with
  | load slot => exact same
  | compare slot cur => exact same
  | store slot => exact same

theorem moves_threadStep (state : GrpcState) (threads next : Threads) (thread : Thread)
    (action : Action) (moved : threadStep state threads thread = some (action, next)) :
    Moves threads next thread action := by
  cases thread with
  | bhPoller =>
      obtain ⟨bhPoller, metaPoller, accPoller, pushFeed⟩ := threads
      cases bhPoller with
      | asleep => cases moved
      | answered bh slot =>
          cases moved
          exact Iff.rfl
      | loaded bh slot oldSlot =>
          cases moved
          by_cases newer : oldSlot < slot
          · simp [Moves, newer, Settled, BhPoller.HashPending]
          · simp [Moves, newer, Settled, BhPoller.HashPending]
      | newer bh slot =>
          cases moved
          exact fun settled => settled.1 trivial
      | hashWritten slot =>
          cases moved
          simp [Moves, Settled, BhPoller.HashPending, OtherPending]
      | advancing rest =>
          cases moved
          apply moves_advance
          exact and_congr_left' (iff_of_true (bhPoller_advancing _) id)
  | metaPoller =>
      obtain ⟨bhPoller, metaPoller, accPoller, pushFeed⟩ := threads
      cases metaPoller with
      | asleep => cases moved
      | answered blockHeight absoluteSlot =>
          cases moved
          exact Iff.rfl
      | advancing rest =>
          cases moved
          apply moves_advance
          exact Iff.rfl
  | accPoller =>
      obtain ⟨bhPoller, metaPoller, accPoller, pushFeed⟩ := threads
      cases accPoller with
      | asleep => cases moved
      | inserting rest observedAt =>
          cases rest with
          | nil =>
              cases moved
              exact Iff.rfl
          | cons first later =>
              obtain ⟨pk, found⟩ := first
              cases found with
              | none =>
                  cases moved
                  exact Iff.rfl
              | some acc =>
                  cases moved
                  exact Iff.rfl
      | stamped pk acc rest observedAt =>
          cases moved
          exact Iff.rfl
  | pushFeed =>
      obtain ⟨bhPoller, metaPoller, accPoller, pushFeed⟩ := threads
      cases pushFeed with
      | receiving => cases moved
      | parsed bh bm =>
          cases moved
          exact fun settled => settled.2 trivial
      | hashWritten bm =>
          cases moved
          simp [Moves, Settled, PushFeed.HashPending, OtherPending]
      | slotStored bm =>
          cases moved
          cases bm.blockHeight with
          | none => exact Iff.rfl
          | some height => exact Iff.rfl
      | account key acc slot =>
          cases moved
          exact Iff.rfl
      | advancing rest =>
          cases moved
          apply moves_advance
          exact and_congr_right' (iff_of_true (pushFeed_advancing _) id)

/-! One step, then runs. -/

theorem stored_insert (state : GrpcState) (key : Pubkey) (acc : CachedAccount) (observedAt : Nat) :
    stored (perform state (.insertAccount key acc observedAt)) key = some acc.toAccountInfo := by
  rw [stored, perform, HashMap.get_insert, Option.map_some]

theorem stored_insert_ne (state : GrpcState) (key other : Pubkey) (different : other ≠ key)
    (acc : CachedAccount) (observedAt : Nat) :
    stored (perform state (.insertAccount key acc observedAt)) other = stored state other := by
  rw [stored, perform, HashMap.get_insert_ne _ _ _ _ different, stored]

/-- A step that leaves the slots, the hash and the accounts alone. -/
theorem forward_of_same (before after : World) (fresh : Fresh everyState before)
    (state : after.state.currentSlot = before.state.currentSlot ∧
      after.state.blockhashSlot = before.state.blockhashSlot ∧
      after.state.blockhash = before.state.blockhash ∧
      after.state.accounts = before.state.accounts)
    (settled : Settled after.threads ↔ Settled before.threads)
    (reported : before.reported ⊆ after.reported)
    (delivered : after.delivered = before.delivered) :
    Forward everyState before after := by
  obtain ⟨currentSlot, blockhashSlot, blockhash, accounts⟩ := state
  refine ⟨currentSlot.ge, blockhashSlot.ge, ?_, ?_⟩
  · intro watched
    rw [settled] at watched
    rw [Paired, blockhash, blockhashSlot]
    exact reported (fresh.paired watched)
  · intro key
    rw [delivered, stored, accounts]
    exact fresh.newest key

theorem turn_forward_iff (world : World) (fresh : Fresh everyState world) (thread : Thread)
    (action : Action) (threads : Threads)
    (moved : threadStep world.state world.threads thread = some (action, threads)) :
    Forward everyState world { world with
      state := perform world.state action
      threads
      delivered := delivery action ++ world.delivered } ↔
      Allowed everyState world thread action := by
  have moves := moves_threadStep world.state world.threads threads thread action moved
  cases action with
  | read =>
      apply iff_of_true _ trivial
      exact forward_of_same everyState world _ fresh ⟨rfl, rfl, rfl, rfl⟩ moves
        (fun _ member => member) rfl
  | storeBlockHeight height =>
      apply iff_of_true _ trivial
      exact forward_of_same everyState world _ fresh ⟨rfl, rfl, rfl, rfl⟩ moves
        (fun _ member => member) rfl
  | storeCurrentSlot slot =>
      constructor
      · exact fun forward => forward.currentSlot
      · intro allowed
        exact ⟨allowed, le_rfl, fun watched => fresh.paired (watched.imp id moves.mp),
          fresh.newest⟩
  | writeBlockhash bh =>
      constructor
      · exact fun forward every => forward.paired (Or.inl every)
      · intro allowed
        exact ⟨le_rfl, le_rfl, fun watched => allowed (watched.resolve_right moves),
          fresh.newest⟩
  | storeBlockhashSlot slot =>
      constructor
      · intro forward
        exact ⟨forward.blockhashSlot, fun watched => forward.paired (watched.imp id moves.mpr)⟩
      · intro allowed
        exact ⟨le_rfl, allowed.1, fun watched => allowed.2 (watched.imp id moves.mp),
          fresh.newest⟩
  | insertAccount key acc observedAt =>
      have newest := allNewest_taken_iff fresh.newest key
        ⟨observedAt, some acc.toAccountInfo⟩
        (stored_insert world.state key acc observedAt)
        (fun other different => stored_insert_ne world.state key other different acc observedAt)
      constructor
      · exact fun forward => newest.mp forward.newest
      · intro allowed
        exact ⟨le_rfl, le_rfl, fun watched => fresh.paired (watched.imp id moves.mp),
          newest.mpr allowed⟩
  | passAccount key observedAt =>
      have newest := allNewest_left_iff fresh.newest key ⟨observedAt, none⟩
      constructor
      · exact fun forward => (newest.mp forward.newest).imp id Eq.symm
      · intro allowed
        exact ⟨le_rfl, le_rfl, fun watched => fresh.paired (watched.imp id moves.mp),
          newest.mpr (allowed.imp id Eq.symm)⟩

theorem step_forward_iff (world : World) (fresh : Fresh everyState world) (event : Event)
    (next : World) (done : step world event = .ok next) :
    Forward everyState world next ↔ Meets everyState world event := by
  cases event with
  | input input =>
      apply iff_of_true _ trivial
      rw [step] at done
      split at done
      · cases done
      · next threads taken =>
          rw [← Except.ok.inj done]
          exact forward_of_same everyState world _ fresh ⟨rfl, rfl, rfl, rfl⟩
            (settled_receive world.threads threads input taken)
            (fun _ member => List.mem_append_right _ member) rfl
  | turn thread =>
      rw [step] at done
      cases moved : threadStep world.state world.threads thread with
      | none =>
          rw [moved] at done
          cases done
      | some turned =>
          rcases turned with ⟨action, threads⟩
          rw [moved] at done
          rw [Meets, moved, ← Except.ok.inj done]
          exact turn_forward_iff everyState world fresh thread action threads moved

theorem fresh_start : Fresh everyState start :=
  ⟨fun _ => List.mem_singleton_self _, fun _ => Or.inl ⟨rfl, rfl⟩⟩

/-- Over every interleaving the state moves forward exactly if every access may. -/
theorem forward_run_iff (events : List Event) :
    Along step (fun world _ next => Forward everyState world next) start events ↔
      Along step (fun world event _ => Meets everyState world event) start events := by
  apply along_iff step (Fresh everyState)
  · intro world event next fresh done
    exact ⟨step_forward_iff everyState world fresh event next done,
      fun forward => ⟨forward.paired, forward.newest⟩⟩
  · exact fresh_start everyState

end Freshness

end Helios.GrpcFeed
