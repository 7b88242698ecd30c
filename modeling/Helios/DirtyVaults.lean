import Helios.PoolHydrator
import Helios.SwapObservers

/-! The loop that fetches the balances of marked vaults, beside two trackers that write to
one cache. Only the Turbine pipeline's tracker is drained. -/

namespace Helios.DirtyVaults

open Deliveries Machine PoolHydrator Runs SwapDecoder SwapObservers Tracked

/-- `drain_dirty_vaults`, the marks visited in the given order. -/
def drainDirtyVaults (tracker : ShredDeltaTracker) (order : List Pubkey) (max : Nat) :
    List Pubkey × ShredDeltaTracker :=
  let vaults := order.take max
  (vaults, { tracker with
    dirtyVaults := vaults.foldl (fun marks key => marks.erase key) tracker.dirtyVaults })

/-- The balance in a token account, if it is long enough to hold one. -/
def balanceOf (vault : Pubkey) (account : Account) : Option (Pubkey × Nat) :=
  if 72 ≤ account.length then some (vault, u64At 64 account) else none

/-- The balances a round of requests brings in. A request that fails brings none. -/
def fetchBalances (rpc : List Pubkey → Option Reply) (vaults : List Pubkey) :
    List (Pubkey × Nat) :=
  (chunks 100 vaults.length vaults).flatMap (fun chunk =>
    match rpc chunk with
    | none => []
    | some accounts =>
        (chunk.zip accounts).filterMap (fun (vault, found) => found.bind (balanceOf vault)))

inductive Feed where
  | turbine
  | proxy
  deriving DecidableEq

def tracked (feeds : Feeds) : Feed → Tracked
  | .turbine => ⟨feeds.turbine, feeds.cache⟩
  | .proxy => ⟨feeds.proxy, feeds.cache⟩

def written (feeds : Feeds) (after : Tracked) : Feed → Feeds
  | .turbine => { feeds with cache := after.cache, turbine := after.tracker }
  | .proxy => { feeds with cache := after.cache, proxy := after.tracker }

@[simp] theorem turbine_written (feeds : Feeds) (after : Tracked) :
    (written feeds after .turbine).turbine = after.tracker := rfl

@[simp] theorem turbine_written_proxy (feeds : Feeds) (after : Tracked) :
    (written feeds after .proxy).turbine = feeds.turbine := rfl

/-- Where the loop stands. -/
inductive Phase where
  | sleeping
  /-- The batch, in the part already unmarked and the rest. The request comes when all
  are unmarked. -/
  | draining (removed left : List Pubkey)
  /-- The balances still to be applied. -/
  | applying (balances : List (Pubkey × Nat))

def Phase.batch : Phase → List Pubkey
  | .sleeping => []
  | .draining removed left => removed ++ left
  | .applying balances => balances.map Prod.fst

structure Refresh where
  feeds : Feeds
  phase : Phase
  /-- For each pool and each of its vaults: a swap of the pool was simulated after the
  vault's balance was last applied to it. -/
  due : Pubkey → Bool → Bool

/-- What one thread does between two points where another may come in. -/
inductive Event where
  | swap (feed : Feed) (now : Instant) (keys : List Pubkey) (ix : CompiledInstruction)
  | transfer (feed : Feed) (keys : List Pubkey) (ix : CompiledInstruction)
  /-- `register_vault`, and each entry `reindex` writes. -/
  | register (feed : Feed) (vault pool : Pubkey) (isVaultA : Bool)
  /-- Another thread writes to the cache. -/
  | otherWrite (cache : PoolStateCache)
  | drain (order : List Pubkey)
  | unmark
  | fetched (rpc : List Pubkey → Option Reply)
  | apply (now : Instant)
  | finish

def afterTransfer (keys : List Pubkey) (state : Tracked) (ix : CompiledInstruction) : Tracked :=
  match onTransfer keys state ix with
  | .value after => after
  | _ => state

/-- The balance of a vault reaches the pool. -/
def Lands (feeds : Feeds) (vault pool : Pubkey) : Prop :=
  (feeds.turbine.vaultToPool.get vault).map Prod.fst = some pool ∧
    (feeds.cache.get pool).isSome = true

instance (feeds : Feeds) (vault pool : Pubkey) : Decidable (Lands feeds vault pool) := by
  unfold Lands
  infer_instance

def swapStep (state : Refresh) (feed : Feed) (now : Instant) (keys : List Pubkey)
    (ix : CompiledInstruction) : Refresh :=
  let before := tracked state.feeds feed
  { state with
    feeds := written state.feeds (afterSwap now keys before ix) feed
    due := match simulated now keys before ix with
      | none => state.due
      | some (_, pool, _) => Function.update state.due pool (fun _ => true) }

def registerStep (feeds : Feeds) (vault pool : Pubkey) (isVaultA : Bool) : Feed → Feeds
  | .turbine => { feeds with turbine := feeds.turbine.registerVault vault pool isVaultA }
  | .proxy => { feeds with proxy := feeds.proxy.registerVault vault pool isVaultA }

section Loop

-- The two vaults of each pool.
variable (vaultOf : Pubkey → Bool → Pubkey)

def applyStep (state : Refresh) (now : Instant) (vault : Pubkey) (balance : Nat)
    (rest : List (Pubkey × Nat)) : Refresh where
  feeds := { state.feeds with
    cache := state.feeds.turbine.applyVaultBalanceTo now state.feeds.cache (vault, balance) }
  phase := .applying rest
  due := fun pool side =>
    if vaultOf pool side = vault ∧ Lands state.feeds vault pool then false
    else state.due pool side

/-- A step of a tracker, of another thread or of the loop. The loop's steps come in its
own order. -/
def step (state : Refresh) : Event → Except Unit Refresh
  | .swap feed now keys ix => .ok (swapStep state feed now keys ix)
  | .transfer feed keys ix =>
      .ok { state with
        feeds := written state.feeds (afterTransfer keys (tracked state.feeds feed) ix) feed }
  | .register feed vault pool isVaultA =>
      .ok { state with feeds := registerStep state.feeds vault pool isVaultA feed }
  | .otherWrite cache => .ok { state with feeds := { state.feeds with cache } }
  | .drain order =>
      match state.phase with
      | .sleeping =>
          if order.Perm state.feeds.turbine.dirtyVaults.keys then
            let vaults := order.take 50
            .ok { state with phase := if vaults = [] then .sleeping else .draining [] vaults }
          else .error ()
      | _ => .error ()
  | .unmark =>
      match state.phase with
      | .draining removed (key :: left) =>
          .ok { state with
            feeds := { state.feeds with
              turbine := { state.feeds.turbine with
                dirtyVaults := state.feeds.turbine.dirtyVaults.erase key } }
            phase := .draining (removed ++ [key]) left }
      | _ => .error ()
  | .fetched rpc =>
      match state.phase with
      | .draining vaults [] =>
          let balances := fetchBalances rpc vaults
          .ok { state with phase := if balances = [] then .sleeping else .applying balances }
      | _ => .error ()
  | .apply now =>
      match state.phase with
      | .applying ((vault, balance) :: rest) => .ok (applyStep vaultOf state now vault balance rest)
      | _ => .error ()
  | .finish =>
      match state.phase with
      | .applying [] =>
          .ok { state with
            feeds := { state.feeds with cache := state.feeds.cache.bumpSwapGeneration }
            phase := .sleeping }
      | _ => .error ()

/-- No swap was simulated yet, and the loop has not begun. -/
def start (feeds : Feeds) : Refresh := ⟨feeds, .sleeping, fun _ _ => false⟩

/-! The loop's own steps are the source's two operations taken apart. -/

theorem unmark_all (state : Refresh) (removed left : List Pubkey)
    (phase : state.phase = .draining removed left) :
    (List.replicate left.length Event.unmark).foldlM (step vaultOf) state =
      .ok { state with
        feeds := { state.feeds with
          turbine := { state.feeds.turbine with
            dirtyVaults := left.foldl (fun marks key => marks.erase key)
              state.feeds.turbine.dirtyVaults } }
        phase := .draining (removed ++ left) [] } := by
  induction left generalizing state removed with
  | nil =>
      rw [List.append_nil, List.foldl_nil, ← phase]
      rfl
  | cons key left ih =>
      rw [List.length_cons, List.replicate_succ, List.foldlM_cons, step, phase]
      have later := ih { state with
        feeds := { state.feeds with
          turbine := { state.feeds.turbine with
            dirtyVaults := state.feeds.turbine.dirtyVaults.erase key } }
        phase := .draining (removed ++ [key]) left } (removed ++ [key]) rfl
      rw [List.append_assoc, List.singleton_append] at later
      exact later

/-- A drain with its removals is `drain_dirty_vaults(50)`. -/
theorem drain_run (state : Refresh) (order : List Pubkey) (asleep : state.phase = .sleeping)
    (visits : order.Perm state.feeds.turbine.dirtyVaults.keys) (some : order ≠ []) :
    (Event.drain order :: List.replicate (order.take 50).length .unmark).foldlM (step vaultOf)
        state =
      .ok { state with
        feeds := { state.feeds with turbine := (drainDirtyVaults state.feeds.turbine order 50).2 }
        phase := .draining (drainDirtyVaults state.feeds.turbine order 50).1 [] } := by
  have filled : order.take 50 ≠ [] := by simp [some]
  have chosen : step vaultOf state (.drain order) =
      .ok { state with phase := .draining [] (order.take 50) } := by
    rw [step, asleep]
    dsimp only
    rw [if_pos visits, if_neg filled]
  rw [List.foldlM_cons, chosen]
  exact unmark_all vaultOf { state with phase := .draining [] (order.take 50) } [] _ rfl

theorem apply_all (now : Instant) (balances : List (Pubkey × Nat)) (state : Refresh)
    (phase : state.phase = .applying balances) :
    ∃ due, (List.replicate balances.length (Event.apply now)).foldlM (step vaultOf) state =
      .ok ⟨{ state.feeds with
        cache := balances.foldl (state.feeds.turbine.applyVaultBalanceTo now) state.feeds.cache },
        .applying [], due⟩ := by
  induction balances generalizing state with
  | nil =>
      refine ⟨state.due, ?_⟩
      rw [List.foldl_nil, ← phase]
      rfl
  | cons fetched rest ih =>
      rcases fetched with ⟨vault, balance⟩
      rcases ih (applyStep vaultOf state now vault balance rest) rfl with ⟨due, ran⟩
      refine ⟨due, ?_⟩
      rw [List.length_cons, List.replicate_succ, List.foldlM_cons, step, phase]
      exact ran

/-- The steps on fetched balances together are `apply_vault_balances`. -/
theorem apply_run (now : Instant) (balances : List (Pubkey × Nat)) (state : Refresh)
    (phase : state.phase = .applying balances) (some : balances ≠ []) :
    ∃ due, (List.replicate balances.length (Event.apply now) ++ [Event.finish]).foldlM (step vaultOf)
        state =
      .ok ⟨{ state.feeds with
        cache := state.feeds.turbine.applyVaultBalances now state.feeds.cache balances },
        .sleeping, due⟩ := by
  rcases apply_all vaultOf now balances state phase with ⟨due, ran⟩
  refine ⟨due, ?_⟩
  rw [List.foldlM_append, ran, ShredDeltaTracker.applyVaultBalances, if_neg some]
  rfl

/-! The invariant, and when a step keeps it. -/

def Marked (state : Refresh) (vault : Pubkey) : Prop :=
  (HashMap.get state.feeds.turbine.dirtyVaults vault).isSome = true

/-- The vault is marked in the tracker that is drained, or in the batch. -/
def Pending (state : Refresh) (vault : Pubkey) : Prop :=
  Marked state vault ∨ vault ∈ state.phase.batch

/-- No vault that still has to be refreshed is lost. -/
def Corrected (state : Refresh) : Prop :=
  ∀ pool side, state.due pool side = true → Pending state (vaultOf pool side)

/-- The RPC answers the vault's request, with an account that holds a balance. -/
def Answered (rpc : List Pubkey → Option Reply) (vaults : List Pubkey) (vault : Pubkey) : Prop :=
  ∃ chunk ∈ chunks 100 vaults.length vaults, ∃ accounts, rpc chunk = some accounts ∧
    ∃ account, (vault, some account) ∈ chunk.zip accounts ∧ 72 ≤ account.length

/-- The vault's balance reaches its pool, or the vault comes again. -/
def StillDue (state : Refresh) (vault pool : Pubkey) (rest : List (Pubkey × Nat)) : Prop :=
  Lands state.feeds vault pool ∨ Marked state vault ∨ vault ∈ rest.map Prod.fst

/-- What a step must not do: simulate a swap of a pool with a vault that is neither pending
nor marked by it, and give up a vault that still has to be refreshed. -/
def Keeps (state : Refresh) : Event → Prop
  | .swap feed now keys ix =>
      ∀ vault pool swap, simulated now keys (tracked state.feeds feed) ix = some (vault, pool, swap) →
        ∀ side, Pending state (vaultOf pool side) ∨ feed = .turbine ∧ vaultOf pool side = vault
  | .fetched rpc =>
      ∀ vaults, state.phase = .draining vaults [] → ∀ pool side, state.due pool side = true →
        Marked state (vaultOf pool side) ∨ Answered rpc vaults (vaultOf pool side)
  | .apply _ =>
      ∀ vault balance rest, state.phase = .applying ((vault, balance) :: rest) →
        ∀ pool side, state.due pool side = true → vaultOf pool side = vault →
          StillDue state vault pool rest
  | _ => True

theorem dirty_applyEnd (keys : List Pubkey) (accounts : List UInt8) (place amount : Nat)
    (credit : Bool) (state : Tracked) :
    (applyEnd keys accounts place amount credit state).tracker.dirtyVaults =
      state.tracker.dirtyVaults := by
  rw [applyEnd]
  split
  · rfl
  · rw [applyDelta]
    split
    · rfl
    · rfl

/-- A token transfer marks nothing. -/
theorem dirty_afterTransfer (keys : List Pubkey) (state : Tracked) (ix : CompiledInstruction) :
    (afterTransfer keys state ix).tracker.dirtyVaults = state.tracker.dirtyVaults := by
  rw [afterTransfer, onTransfer]
  split
  · next after ran =>
      revert ran
      split
      · intro ran
        rw [← Decoded.value.inj ran]
      · split
        · intro ran
          rw [← Decoded.value.inj ran]
        · rcases returns_transferOf ix with ⟨found, same⟩
          rw [same, Decoded.value_bind]
          cases found with
          | none =>
              intro ran
              rw [← Decoded.value.inj ran]
          | some transfer =>
              dsimp only
              split
              · intro ran
                rw [← Decoded.value.inj ran]
              · intro ran
                rw [← Decoded.value.inj ran, dirty_applyEnd, dirty_applyEnd]
  · rfl

/-- The balances fetched are of the vaults answered. -/
theorem mem_fetchBalances (rpc : List Pubkey → Option Reply) (vaults : List Pubkey)
    (vault : Pubkey) :
    vault ∈ (fetchBalances rpc vaults).map Prod.fst ↔ Answered rpc vaults vault := by
  constructor
  · intro member
    rcases List.mem_map.mp member with ⟨entry, inside, same⟩
    rcases List.mem_flatMap.mp inside with ⟨chunk, asked, here⟩
    cases replied : rpc chunk with
    | none =>
        rw [replied] at here
        cases here
    | some accounts =>
        rw [replied] at here
        rcases List.mem_filterMap.mp here with ⟨⟨key, found⟩, paired, read⟩
        rcases Option.bind_eq_some_iff.mp read with ⟨account, held, long⟩
        rw [balanceOf] at long
        split at long
        · next enough =>
            rw [← Option.some.inj long] at same
            rw [held] at paired
            exact ⟨chunk, asked, accounts, replied, account, same ▸ paired, enough⟩
        · cases long
  · intro ⟨chunk, asked, accounts, replied, account, paired, enough⟩
    apply List.mem_map.mpr
    refine ⟨(vault, u64At 64 account), List.mem_flatMap.mpr ⟨chunk, asked, ?_⟩, rfl⟩
    rw [replied]
    refine List.mem_filterMap.mpr ⟨(vault, some account), paired, ?_⟩
    exact if_pos enough

theorem pending_swapStep (state : Refresh) (feed : Feed) (now : Instant) (keys : List Pubkey)
    (ix : CompiledInstruction) (key : Pubkey) :
    Pending (swapStep state feed now keys ix) key ↔ Pending state key ∨
      ∃ pool swap, simulated now keys (tracked state.feeds feed) ix = some (key, pool, swap) ∧
        feed = .turbine := by
  have spec := afterSwap_spec now keys (tracked state.feeds feed) ix
  rw [Pending, Pending, Marked, Marked, swapStep]
  cases feed with
  | proxy => simp
  | turbine =>
      rw [turbine_written]
      cases hit : simulated now keys (tracked state.feeds .turbine) ix with
      | none =>
          rw [hit] at spec
          rw [spec.dirty]
          simp [tracked]
      | some swap =>
          rcases swap with ⟨vault, pool, isVaultA, amountIn⟩
          rw [hit] at spec
          rw [spec, swapped]
          by_cases same : key = vault
          · simp [same]
          · rw [HashMap.get_insert_ne _ _ _ _ same]
            simp [tracked, Ne.symm same]

theorem due_swapStep (state : Refresh) (feed : Feed) (now : Instant) (keys : List Pubkey)
    (ix : CompiledInstruction) :
    (swapStep state feed now keys ix).due =
      match simulated now keys (tracked state.feeds feed) ix with
      | none => state.due
      | some (_, pool, _) => Function.update state.due pool (fun _ => true) := rfl

theorem due_applyStep (state : Refresh) (now : Instant) (vault : Pubkey) (balance : Nat)
    (rest : List (Pubkey × Nat)) (pool : Pubkey) (side : Bool) :
    (applyStep vaultOf state now vault balance rest).due pool side =
      if vaultOf pool side = vault ∧ Lands state.feeds vault pool then false
      else state.due pool side := rfl

theorem swapStep_corrected_iff (state : Refresh) (feed : Feed) (now : Instant)
    (keys : List Pubkey) (ix : CompiledInstruction) (corrected : Corrected vaultOf state) :
    Corrected vaultOf (swapStep state feed now keys ix) ↔
      Keeps vaultOf state (.swap feed now keys ix) := by
  constructor
  · intro after vault pool swap hit side
    have raised : (swapStep state feed now keys ix).due pool side = true := by
      rw [due_swapStep, hit]
      simp
    rcases (pending_swapStep state feed now keys ix (vaultOf pool side)).mp
      (after pool side raised) with before | marked
    · exact Or.inl before
    · rcases marked with ⟨other, rest, again, drained⟩
      rw [hit] at again
      exact Or.inr ⟨drained, (Prod.mk.inj (Option.some.inj again)).1.symm⟩
  · intro keeps pool side raised
    rw [pending_swapStep]
    rw [due_swapStep] at raised
    cases hit : simulated now keys (tracked state.feeds feed) ix with
    | none =>
        rw [hit] at raised
        exact Or.inl (corrected pool side raised)
    | some swap =>
        rcases swap with ⟨vault, moved, rest⟩
        rw [hit] at raised
        by_cases same : pool = moved
        · rw [same]
          rcases keeps vault moved rest hit side with before | ⟨drained, own⟩
          · exact Or.inl before
          · exact Or.inr ⟨moved, rest, by rw [own], drained⟩
        · dsimp only at raised
          rw [Function.update_of_ne same] at raised
          exact Or.inl (corrected pool side raised)

/-- With nothing marked and no batch, every simulated swap of a pool with two vaults
breaks the invariant. -/
theorem swap_from_rest (state : Refresh) (feed : Feed) (now : Instant) (keys : List Pubkey)
    (ix : CompiledInstruction) (vault pool : Pubkey) (swap : Bool × Nat)
    (idle : ∀ key, ¬ Pending state key)
    (hit : simulated now keys (tracked state.feeds feed) ix = some (vault, pool, swap))
    (differ : vaultOf pool true ≠ vaultOf pool false) :
    ¬ Keeps vaultOf state (.swap feed now keys ix) := by
  intro keeps
  have own : ∀ side, vaultOf pool side = vault := by
    intro side
    rcases keeps vault pool swap hit side with pending | ⟨-, same⟩
    · exact absurd pending (idle _)
    · exact same
  exact differ ((own true).trans (own false).symm)

/-- A step that moves no pool and gives up no vault. -/
theorem corrected_of_pending (state : Refresh) (feeds : Feeds) (phase : Phase)
    (corrected : Corrected vaultOf state)
    (keeps : ∀ vault, Pending state vault → Pending ⟨feeds, phase, state.due⟩ vault) :
    Corrected vaultOf ⟨feeds, phase, state.due⟩ := by
  intro pool side raised
  exact keeps _ (corrected pool side raised)

theorem fetched_corrected_iff (state : Refresh) (rpc : List Pubkey → Option Reply)
    (vaults : List Pubkey) (phase : state.phase = .draining vaults []) :
    Corrected vaultOf { state with
        phase := if fetchBalances rpc vaults = [] then .sleeping
          else .applying (fetchBalances rpc vaults) } ↔
      Keeps vaultOf state (.fetched rpc) := by
  have batch : ∀ vault, vault ∈ Phase.batch (if fetchBalances rpc vaults = [] then .sleeping
      else .applying (fetchBalances rpc vaults)) ↔ Answered rpc vaults vault := by
    intro vault
    rw [← mem_fetchBalances]
    split
    · next none => rw [none, Phase.batch, List.map_nil]
    · rfl
  constructor
  · intro after other same pool side raised
    rw [phase] at same
    cases same
    exact (after pool side raised).imp id (batch _).mp
  · intro keeps pool side raised
    exact (keeps vaults phase pool side raised).imp id (batch _).mpr

theorem applyStep_corrected_iff (state : Refresh) (now : Instant) (vault : Pubkey) (balance : Nat)
    (rest : List (Pubkey × Nat)) (corrected : Corrected vaultOf state)
    (phase : state.phase = .applying ((vault, balance) :: rest)) :
    Corrected vaultOf (applyStep vaultOf state now vault balance rest) ↔
      Keeps vaultOf state (.apply now) := by
  constructor
  · intro after key amount later same pool side raised own
    rw [phase] at same
    cases same
    by_cases lands : Lands state.feeds vault pool
    · exact Or.inl lands
    · have still : (applyStep vaultOf state now vault balance rest).due pool side = true := by
        rw [due_applyStep, if_neg (fun both => lands both.2)]
        exact raised
      have pending := after pool side still
      rw [own] at pending
      exact Or.inr pending
  · intro keeps pool side raised
    rw [due_applyStep] at raised
    split at raised
    · cases raised
    · next other =>
        rcases corrected pool side raised with marked | batched
        · exact Or.inl marked
        · rw [phase, Phase.batch, List.map_cons, List.mem_cons] at batched
          rcases batched with own | later
          · rcases keeps vault balance rest phase pool side raised own with lands | marked | later
            · exact absurd ⟨own, lands⟩ other
            · exact Or.inl (own ▸ marked)
            · exact Or.inr (own ▸ later)
          · exact Or.inr later

/-- A vault is in the batch before and after its mark is taken off. -/
theorem pending_unmark (state : Refresh) (removed left : List Pubkey) (key : Pubkey)
    (phase : state.phase = .draining removed (key :: left)) (vault : Pubkey)
    (pending : Pending state vault) :
    Pending ⟨{ state.feeds with
        turbine := { state.feeds.turbine with
          dirtyVaults := state.feeds.turbine.dirtyVaults.erase key } },
      .draining (removed ++ [key]) left, state.due⟩ vault := by
  rw [Pending, Marked, phase] at pending
  rw [Pending, Marked, HashMap.get_erase]
  have same : Phase.batch (.draining (removed ++ [key]) left) =
      Phase.batch (.draining removed (key :: left)) := by
    rw [Phase.batch, Phase.batch, List.append_assoc, List.singleton_append]
  rw [same]
  by_cases own : vault = key
  · right
    rw [own, Phase.batch]
    exact List.mem_append_right removed List.mem_cons_self
  · rw [if_neg own]
    exact pending

/-- From a state with the invariant, a step keeps it exactly if it meets the condition. -/
theorem step_corrected_iff (state : Refresh) (event : Event) (next : Refresh)
    (corrected : Corrected vaultOf state) (done : step vaultOf state event = .ok next) :
    Corrected vaultOf next ↔ Keeps vaultOf state event := by
  cases event with
  | swap feed now keys ix =>
      rw [← Except.ok.inj done]
      exact swapStep_corrected_iff vaultOf state feed now keys ix corrected
  | transfer feed keys ix =>
      apply iff_of_true _ trivial
      rw [← Except.ok.inj done]
      apply corrected_of_pending vaultOf state _ _ corrected
      intro vault pending
      cases feed with
      | proxy => exact pending
      | turbine =>
          rw [Pending, Marked] at pending ⊢
          rw [turbine_written, dirty_afterTransfer]
          exact pending
  | register feed vault pool isVaultA =>
      apply iff_of_true _ trivial
      rw [← Except.ok.inj done]
      apply corrected_of_pending vaultOf state _ _ corrected
      intro key pending
      cases feed with
      | proxy => exact pending
      | turbine => exact pending
  | otherWrite cache =>
      apply iff_of_true _ trivial
      rw [← Except.ok.inj done]
      exact corrected_of_pending vaultOf state _ _ corrected (fun vault pending => pending)
  | drain order =>
      apply iff_of_true _ trivial
      rw [step] at done
      split at done
      · next asleep =>
          split at done
          · rw [← Except.ok.inj done]
            apply corrected_of_pending vaultOf state _ _ corrected
            intro vault pending
            rw [Pending, asleep] at pending
            exact Or.inl (pending.resolve_right List.not_mem_nil)
          · cases done
      · cases done
  | unmark =>
      apply iff_of_true _ trivial
      rw [step] at done
      split at done
      · next removed key left phase =>
          rw [← Except.ok.inj done]
          exact corrected_of_pending vaultOf state _ _ corrected
            (pending_unmark state removed left key phase)
      · cases done
  | fetched rpc =>
      rw [step] at done
      split at done
      · next vaults phase =>
          rw [← Except.ok.inj done]
          exact fetched_corrected_iff vaultOf state rpc vaults phase
      · cases done
  | apply now =>
      rw [step] at done
      split at done
      · next vault balance rest phase =>
          rw [← Except.ok.inj done]
          exact applyStep_corrected_iff vaultOf state now vault balance rest corrected phase
      · cases done
  | finish =>
      apply iff_of_true _ trivial
      rw [step] at done
      split at done
      · next phase =>
          rw [← Except.ok.inj done]
          apply corrected_of_pending vaultOf state _ _ corrected
          intro vault pending
          rw [Pending, phase] at pending
          exact Or.inl (pending.resolve_right List.not_mem_nil)
      · cases done

/-- In every state of a run the vaults to be refreshed are pending, exactly if every step
of the run meets the condition. -/
theorem always_corrected_iff (feeds : Feeds) (events : List Event) :
    Along (step vaultOf) (fun _ _ next => Corrected vaultOf next) (start feeds) events ↔
      Along (step vaultOf) (fun state event _ => Keeps vaultOf state event) (start feeds)
        events := by
  apply along_iff (step vaultOf) (Corrected vaultOf)
  · intro state event next corrected done
    exact ⟨step_corrected_iff vaultOf state event next corrected done, id⟩
  · intro pool side raised
    cases raised

end Loop

/-- A pool with both vaults known to the drained tracker. -/
def knownVaults (_ : Pubkey) (side : Bool) : Pubkey := if side then .ofNat 2 else .ofNat 3

def knownFeeds : Feeds where
  cache := PoolStateCache.new.upsert
    { PairIndex.graduatedPool wsol usdc with poolAddress := .ofNat 1 }
  turbine := ((ShredDeltaTracker.new HashMap.empty).registerVault (.ofNat 2) (.ofNat 1)
    true).registerVault (.ofNat 3) (.ofNat 1) false
  proxy := .new HashMap.empty

/-- A sale into the pool, with its vaults behind it among the accounts. -/
def sale : Event :=
  .swap .turbine 0 [.ofNat 1, .ofNat 2, .ofNat 3, DexPrograms.pumpswap]
    ⟨3, [0, 1, 2], pumpSwapSellDisc ++ leBytes 8 1000⟩

/-- One sale marks one vault, and its pool's other vault is never fetched for it. -/
theorem other_vault_unmarked :
    ¬ Along (step knownVaults) (fun _ _ next => Corrected knownVaults next) (start knownFeeds)
      [sale] := by
  intro always
  have done : ∃ next, step knownVaults (start knownFeeds) sale = .ok next := ⟨_, rfl⟩
  rcases done with ⟨next, done⟩
  have keeps := (step_corrected_iff knownVaults (start knownFeeds) sale next
    (fun _ _ raised => nomatch raised) done).mp (always next done).1
  have hit : simulated 0 [.ofNat 1, .ofNat 2, .ofNat 3, DexPrograms.pumpswap]
      (tracked knownFeeds .turbine) ⟨3, [0, 1, 2], pumpSwapSellDisc ++ leBytes 8 1000⟩ =
      some (.ofNat 2, .ofNat 1, true, 1000) := by
    decide +kernel
  apply swap_from_rest knownVaults (start knownFeeds) .turbine 0 _ _ _ _ _ _ hit _ keeps
  · intro key pending
    rcases pending with marked | batched
    · cases marked
    · cases batched
  · decide +kernel

end Helios.DirtyVaults
