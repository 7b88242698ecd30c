import Helios.HashMap
import Helios.LatestWins
import Helios.Runs
import Helios.Types

/-! The account cache of `agave-lite-core`, filled by `account_poller` and by a push feed, and
when it holds the data seen last. -/

namespace Helios.AgaveLite

open LatestWins Runs

/-- What is kept of an account; `executable` and `rent_epoch` are not. -/
structure AccountInfo where
  lamports : Nat
  data : List UInt8
  owner : Pubkey
  deriving DecidableEq

structure CachedAccount extends AccountInfo where
  slot : Nat

structure AccountCache where
  accounts : HashMap Pubkey CachedAccount
  slot : Nat

def AccountCache.new : AccountCache := ⟨HashMap.empty, 0⟩

/-- The `entry` call of `upsert`: latest slot wins. -/
def upsertEntry (cache : AccountCache) (pubkey : Pubkey) (account : CachedAccount) :
    AccountCache :=
  match cache.accounts.get pubkey with
  | some existing =>
      if existing.slot ≤ account.slot then
        { cache with accounts := cache.accounts.insert pubkey account }
      else cache
  | none => { cache with accounts := cache.accounts.insert pubkey account }

/-- The `fetch_max` at the end of `upsert`, and for a slot update. -/
def fetchMax (cache : AccountCache) (slot : Nat) : AccountCache :=
  { cache with slot := max cache.slot slot }

/-- `account_poller`, in one chunk. The code does not see the slot of the answer. -/
inductive Poller where
  | asleep
  | answered (rest : List (Pubkey × Option AccountInfo)) (observedAt : Nat)
  | upserting (slot : Nat) (rest : List (Pubkey × Option AccountInfo)) (observedAt : Nat)
  | entered (slot : Nat) (rest : List (Pubkey × Option AccountInfo)) (observedAt : Nat)

/-- `run_subscription`, in one message. -/
inductive PushFeed where
  | receiving
  | account (pubkey : Pubkey) (acc : AccountInfo) (slot : Nat)
  | raising (slot : Nat)

abbrev Seen := Observation Nat (Option AccountInfo)

structure World where
  cache : AccountCache
  poller : Poller
  pushFeed : PushFeed
  delivered : List (Pubkey × Seen)

inductive Event where
  | multipleAccounts (chunk : List Pubkey) (accounts : List (Option AccountInfo))
      (observedAt : Nat)
  | accountUpdate (pubkey : Pubkey) (acc : AccountInfo) (slot : Nat)
  | slotUpdate (slot : Nat)
  | pollerTurn
  | pushFeedTurn

/-- Hands an account to the cache, with a stamp and the slot it was seen at. -/
def upsertStep (world : World) (pubkey : Pubkey) (acc : AccountInfo) (slot observedAt : Nat) :
    World :=
  { world with
    cache := upsertEntry world.cache pubkey { acc with slot }
    delivered := (pubkey, ⟨observedAt, some acc⟩) :: world.delivered }

def step (world : World) : Event → Except Unit World
  | .multipleAccounts chunk accounts observedAt =>
      match world.poller with
      | .asleep => .ok { world with poller := .answered (chunk.zip accounts) observedAt }
      | _ => .error ()
  | .accountUpdate pubkey acc slot =>
      match world.pushFeed with
      | .receiving => .ok { world with pushFeed := .account pubkey acc slot }
      | _ => .error ()
  | .slotUpdate slot =>
      match world.pushFeed with
      | .receiving => .ok { world with pushFeed := .raising slot }
      | _ => .error ()
  | .pollerTurn =>
      match world.poller with
      | .asleep => .error ()
      | .answered rest observedAt =>
          -- the whole chunk gets the cache's slot, as it stands now
          .ok { world with poller := .upserting world.cache.slot rest observedAt }
      | .upserting _ [] _ => .ok { world with poller := .asleep }
      | .upserting slot ((pk, none) :: rest) observedAt =>
          .ok { world with
            poller := .upserting slot rest observedAt
            delivered := (pk, ⟨observedAt, none⟩) :: world.delivered }
      | .upserting slot ((pk, some acc) :: rest) observedAt =>
          .ok { upsertStep world pk acc slot observedAt with
            poller := .entered slot rest observedAt }
      | .entered slot rest observedAt =>
          .ok { world with
            cache := fetchMax world.cache slot
            poller := .upserting slot rest observedAt }
  | .pushFeedTurn =>
      match world.pushFeed with
      | .receiving => .error ()
      | .account pubkey acc slot =>
          .ok { upsertStep world pubkey acc slot slot with pushFeed := .raising slot }
      | .raising slot =>
          .ok { world with cache := fetchMax world.cache slot, pushFeed := .receiving }

def start : World := ⟨.new, .asleep, .receiving, []⟩

def stored (cache : AccountCache) (pubkey : Pubkey) : Option AccountInfo :=
  (cache.accounts.get pubkey).map CachedAccount.toAccountInfo

/-- The cache holds, for every account, the data seen at the highest slot. -/
def Fresh (world : World) : Prop := AllNewest none world.delivered (stored world.cache)

/-- The stamps say who is newer as the slots at which the accounts were seen do. -/
def StampTells (world : World) (pubkey : Pubkey) (acc : AccountInfo) (slot observedAt : Nat) :
    Prop :=
  if (world.cache.accounts.get pubkey).all (fun existing => existing.slot ≤ slot) then
    NotOlder (seenOf world.delivered pubkey) observedAt ∨
      Newest none (seenOf world.delivered pubkey) (some acc)
  else
    (∃ other ∈ seenOf world.delivered pubkey, observedAt ≤ other.slot) ∨
      stored world.cache pubkey = some acc

def Meets (world : World) : Event → Prop
  | .pollerTurn =>
      match world.poller with
      | .upserting _ ((pk, none) :: _) observedAt =>
          (∃ other ∈ seenOf world.delivered pk, observedAt ≤ other.slot) ∨
            stored world.cache pk = none
      | .upserting slot ((pk, some acc) :: _) observedAt => StampTells world pk acc slot observedAt
      | _ => True
  | .pushFeedTurn =>
      match world.pushFeed with
      | .account pubkey acc slot => StampTells world pubkey acc slot slot
      | _ => True
  | _ => True

theorem upsert_fresh_iff (world : World) (fresh : Fresh world) (pubkey : Pubkey)
    (acc : AccountInfo) (slot observedAt : Nat) :
    Fresh (upsertStep world pubkey acc slot observedAt) ↔
      StampTells world pubkey acc slot observedAt := by
  have taken : AllNewest none ((pubkey, ⟨observedAt, some acc⟩) :: world.delivered)
      (stored { world.cache with
        accounts := world.cache.accounts.insert pubkey { acc with slot } }) ↔
        NotOlder (seenOf world.delivered pubkey) observedAt ∨
          Newest none (seenOf world.delivered pubkey) (some acc) := by
    apply allNewest_taken_iff fresh pubkey ⟨observedAt, some acc⟩
    · rw [stored, HashMap.get_insert, Option.map_some]
    · intro other different
      rw [stored, HashMap.get_insert_ne _ _ _ _ different, stored]
  have left := allNewest_left_iff fresh pubkey ⟨observedAt, some acc⟩
  rw [Fresh, upsertStep, upsertEntry, StampTells]
  cases known : world.cache.accounts.get pubkey with
  | none =>
      rw [Option.all_none, if_pos rfl]
      exact taken
  | some existing =>
      by_cases latest : existing.slot ≤ slot
      · simp only [Option.all_some, latest, decide_true, if_true]
        exact taken
      · simp only [Option.all_some, latest, decide_false, if_false, Bool.false_eq_true]
        rw [left, eq_comm]

theorem step_fresh_iff (world : World) (fresh : Fresh world) (event : Event) (next : World)
    (done : step world event = .ok next) : Fresh next ↔ Meets world event := by
  cases event with
  | multipleAccounts chunk accounts observedAt =>
      apply iff_of_true _ trivial
      rw [step] at done
      split at done
      · rw [← Except.ok.inj done]
        exact fresh
      · cases done
  | accountUpdate pubkey acc slot =>
      apply iff_of_true _ trivial
      rw [step] at done
      split at done
      · rw [← Except.ok.inj done]
        exact fresh
      · cases done
  | slotUpdate slot =>
      apply iff_of_true _ trivial
      rw [step] at done
      split at done
      · rw [← Except.ok.inj done]
        exact fresh
      · cases done
  | pollerTurn =>
      rw [step] at done
      cases phase : world.poller with
      | asleep =>
          rw [phase] at done
          cases done
      | answered rest observedAt =>
          rw [phase] at done
          rw [Meets, phase, ← Except.ok.inj done]
          exact iff_of_true fresh trivial
      | entered slot rest observedAt =>
          rw [phase] at done
          rw [Meets, phase, ← Except.ok.inj done]
          exact iff_of_true fresh trivial
      | upserting slot rest observedAt =>
          rw [phase] at done
          rw [Meets, phase]
          cases rest with
          | nil =>
              rw [← Except.ok.inj done]
              exact iff_of_true fresh trivial
          | cons first later =>
              obtain ⟨pk, found⟩ := first
              cases found with
              | none =>
                  have left := allNewest_left_iff fresh pk ⟨observedAt, none⟩
                  rw [← Except.ok.inj done]
                  simp only
                  rw [eq_comm (b := none)]
                  exact left
              | some acc =>
                  rw [← Except.ok.inj done]
                  exact upsert_fresh_iff world fresh pk acc slot observedAt
  | pushFeedTurn =>
      rw [step] at done
      cases phase : world.pushFeed with
      | receiving =>
          rw [phase] at done
          cases done
      | account pubkey acc slot =>
          rw [phase] at done
          rw [Meets, phase, ← Except.ok.inj done]
          exact upsert_fresh_iff world fresh pubkey acc slot slot
      | raising slot =>
          rw [phase] at done
          rw [Meets, phase, ← Except.ok.inj done]
          exact iff_of_true fresh trivial

theorem fresh_run_iff (events : List Event) :
    Along step (fun _ _ next => Fresh next) start events ↔
      Along step (fun world event _ => Meets world event) start events := by
  apply along_iff step Fresh
  · intro world event next fresh done
    exact ⟨step_fresh_iff world fresh event next done, id⟩
  · exact fun _ => Or.inl ⟨rfl, rfl⟩

end Helios.AgaveLite
