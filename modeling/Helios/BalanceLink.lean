import Helios.GeyserPlugin
import Helios.ReserveParts
import Helios.VaultWatcher

/-! The plugin's balance updates on their way to the pool cache: one datagram for each
account write of a watched vault, an unreliable wire, and the receiver with its vault
index. Other threads write to the cache at any time. -/

namespace Helios.BalanceLink

open Machine Runs

def tokenAmountOffset : Nat := 64
def minTokenAccountLen : Nat := 165
def packetSize : Nat := 41

/-- The receiver's buffer, which cuts a longer datagram off. -/
def bufferSize : Nat := packetSize + 64

structure AccountInfo where
  pubkey : List UInt8
  data : List UInt8

structure BalanceUpdate where
  vault : Pubkey
  amount : Nat
  deriving DecidableEq

/-- The amount field of a token account. -/
def tokenAmount (data : List UInt8) : Nat := ofLeBytes ((data.drop tokenAmountOffset).take 8)

def AccountInfo.update (account : AccountInfo) : BalanceUpdate :=
  ⟨Pubkey.ofBytes account.pubkey, tokenAmount account.data⟩

/-- The account writes that `update_account` passes on. -/
def passedOn (vaults : Finset (List UInt8)) (account : AccountInfo) (isStartup : Bool) : Bool :=
  !isStartup && decide (account.pubkey.length = 32) && decide (account.pubkey ∈ vaults) &&
    decide (minTokenAccountLen ≤ account.data.length)

/-- Key, amount and the side, which the receiver is left to find. -/
def packet (account : AccountInfo) : List UInt8 :=
  account.pubkey ++ leBytes 8 (tokenAmount account.data) ++ [255]

def updateAccount (vaults : Finset (List UInt8)) (account : AccountInfo) (isStartup : Bool) :
    Option (List UInt8) :=
  if passedOn vaults account isStartup then some (packet account) else none

def readPacket (datagram : List UInt8) : Option BalanceUpdate :=
  let received := datagram.take bufferSize
  if packetSize ≤ received.length then
    some ⟨Pubkey.ofBytes (received.take 32), ofLeBytes ((received.drop 32).take 8)⟩
  else none

/-! The wire format. -/

theorem ofLeBytes_lt (bytes : List UInt8) : ofLeBytes bytes < 256 ^ bytes.length := by
  induction bytes with
  | nil => simp [ofLeBytes]
  | cons byte rest ih =>
      have small : byte.toNat < 256 := byte.toNat_lt
      rw [ofLeBytes, List.length_cons, pow_succ]
      omega

theorem tokenAmount_lt (data : List UInt8) : tokenAmount data < 2 ^ 64 := by
  have few : ((data.drop tokenAmountOffset).take 8).length ≤ 8 := List.length_take_le 8 _
  calc tokenAmount data
    _ < 256 ^ ((data.drop tokenAmountOffset).take 8).length := ofLeBytes_lt _
    _ ≤ 256 ^ 8 := Nat.pow_le_pow_right (by norm_num) few
    _ = 2 ^ 64 := by norm_num

/-- What the plugin writes the receiver reads back. -/
theorem readPacket_packet (account : AccountInfo) (key : account.pubkey.length = 32) :
    readPacket (packet account) = some account.update := by
  have size : (packet account).length = packetSize := by
    simp [packet, key, packetSize]
  have whole : (packet account).take bufferSize = packet account := by
    rw [List.take_of_length_le]
    rw [size, bufferSize]
    omega
  have front : (packet account).take 32 = account.pubkey := by
    rw [packet, List.append_assoc, List.take_left' key]
  have back : (packet account).drop 32 =
      leBytes 8 (tokenAmount account.data) ++ [255] := by
    rw [packet, List.append_assoc, List.drop_left' key]
  have amount : ofLeBytes (((packet account).drop 32).take 8) = tokenAmount account.data := by
    rw [back, List.take_left' (leBytes_length 8 _)]
    exact ofLeBytes_leBytes 8 _ (lt_of_lt_of_eq (tokenAmount_lt _) (by norm_num))
  simp only [readPacket, whole, size, le_refl, if_true, front, amount, AccountInfo.update]

theorem readPacket_short (datagram : List UInt8) (short : datagram.length < packetSize) :
    readPacket datagram = none := by
  have less : (datagram.take bufferSize).length ≤ datagram.length := List.length_take_le' _ _
  simp only [readPacket]
  rw [if_neg]
  omega

/-! The two ends and what is between them. -/

/-- A call of `update_reserve_by_vault` by the receiver, with the age of the index used. -/
structure Write where
  update : BalanceUpdate
  pool : Pubkey
  isVaultA : Bool
  indexedAt : Instant
  checkedAt : Instant
  deriving DecidableEq

/-- `ready` tells that the receiver is past its index check, which was at `checkedAt`. `sent`
and `writes` list what went into the wire and what was made of it, oldest first; the
programs keep no such lists. -/
structure Link where
  cache : PoolStateCache
  vaultIndex : HashMap Pubkey (Pubkey × Bool)
  lastIndexRefresh : Instant
  ready : Bool
  checkedAt : Instant
  wire : List (List UInt8)
  sent : List BalanceUpdate
  writes : List Write

/-- A datagram may be lost, doubled or overtaken on the way; any local program can send
one; another thread may write to the cache between any two steps. -/
inductive Event where
  | account (account : AccountInfo) (isStartup : Bool)
  | lose (place : Nat)
  | double (place : Nat)
  | stray (datagram : List UInt8)
  | check (now : Instant)
  | receive (now : Instant) (place : Option Nat)
  | other (op : PairIndex.CacheOp)

def start (cache : PoolStateCache) (now : Instant) : Link :=
  ⟨cache, HashMap.empty, now, false, now, [], [], []⟩

section Step

variable {F : Type} [FloatArith F] (powf : F → F → F) (vaults : Finset (List UInt8))

/-- The top of the receiver's loop. -/
def check (link : Link) (now : Instant) : Link :=
  if 60 * 10 ^ 9 < now - link.lastIndexRefresh ∨ link.vaultIndex.entries = [] then
    let vaultIndex := VaultWatcher.buildVaultIndex link.cache
    { link with
      vaultIndex := vaultIndex
      lastIndexRefresh := now
      ready := decide (vaultIndex.entries ≠ [])
      checkedAt := now }
  else { link with ready := true, checkedAt := now }

def onDatagram (link : Link) (now : Instant) (datagram : List UInt8) : Link :=
  match readPacket datagram with
  | none => link
  | some update =>
      match HashMap.get link.vaultIndex update.vault with
      | none => link
      | some (pool, isVaultA) =>
          { link with
            cache := (link.cache.updateReserveByVault now pool isVaultA update.amount).1
            writes := link.writes ++
              [⟨update, pool, isVaultA, link.lastIndexRefresh, link.checkedAt⟩] }

/-- A receive that times out or fails takes nothing. -/
def receive (link : Link) (now : Instant) (place : Option Nat) : Link :=
  match place.bind (fun place => (link.wire[place]?).map (fun datagram => (place, datagram))) with
  | none => link
  | some (place, datagram) =>
      onDatagram { link with wire := link.wire.eraseIdx place } now datagram

def step (link : Link) : Event → Link
  | .account account isStartup =>
      match updateAccount vaults account isStartup with
      | none => link
      | some datagram =>
          { link with wire := link.wire ++ [datagram], sent := link.sent ++ [account.update] }
  | .lose place => { link with wire := link.wire.eraseIdx place }
  | .double place => { link with wire := link.wire ++ (link.wire[place]?).toList }
  | .stray datagram => { link with wire := link.wire ++ [datagram] }
  | .check now => if link.ready then link else check link now
  | .receive now place =>
      if link.ready then { receive link now place with ready := false } else link
  | .other op => { link with cache := PairIndex.applyOp powf link.cache op }

/-! Nothing is made up: over any run. -/

/-- The pool has the vault on that side. -/
def Owns (cache : PoolStateCache) (vault pool : Pubkey) (isVaultA : Bool) : Prop :=
  ∃ held ∈ HashMap.values cache.inner, held.poolAddress = pool ∧
    ∃ pair ∈ VaultWatcher.vaultPairs held, (if isVaultA then pair.1 else pair.2) = vault

/-- Entries of an index come from pools. -/
def Indexes (pools : List DexPool) (index : HashMap Pubkey (Pubkey × Bool)) : Prop :=
  ∀ vault pool isVaultA, HashMap.get index vault = some (pool, isVaultA) →
    ∃ held ∈ pools, held.poolAddress = pool ∧
      ∃ pair ∈ VaultWatcher.vaultPairs held, (if isVaultA then pair.1 else pair.2) = vault

theorem indexes_insertVault (pools : List DexPool) (index : HashMap Pubkey (Pubkey × Bool))
    (held : DexPool) (member : held ∈ pools) (pair : Pubkey × Pubkey)
    (own : pair ∈ VaultWatcher.vaultPairs held) (isVaultA : Bool) (inserted : Pubkey)
    (side : (if isVaultA then pair.1 else pair.2) = inserted) (indexes : Indexes pools index) :
    Indexes pools (VaultWatcher.insertVault index inserted held.poolAddress isVaultA) := by
  intro vault pool other found
  rw [VaultWatcher.insertVault] at found
  split at found
  · exact indexes vault pool other found
  · by_cases same : vault = inserted
    · rw [same, HashMap.get_insert] at found
      cases found
      exact ⟨held, member, rfl, pair, own, side.trans same.symm⟩
    · rw [HashMap.get_insert_ne _ _ _ _ same] at found
      exact indexes vault pool other found

theorem indexes_insertPool (pools : List DexPool) (index : HashMap Pubkey (Pubkey × Bool))
    (held : DexPool) (member : held ∈ pools) (indexes : Indexes pools index) :
    Indexes pools (VaultWatcher.insertPool index held) := by
  rw [VaultWatcher.insertPool]
  refine List.foldlRecOn (motive := Indexes pools) (VaultWatcher.vaultPairs held) _ indexes ?_
  intro index indexes pair own
  have first := indexes_insertVault pools index held member pair own true pair.1 rfl indexes
  exact indexes_insertVault pools _ held member pair own false pair.2 rfl first

theorem owns_of_indexed (cache : PoolStateCache) (vault pool : Pubkey) (isVaultA : Bool)
    (found : HashMap.get (VaultWatcher.buildVaultIndex cache) vault = some (pool, isVaultA)) :
    Owns cache vault pool isVaultA := by
  have all : Indexes (HashMap.values cache.inner) (VaultWatcher.buildVaultIndex cache) := by
    rw [VaultWatcher.buildVaultIndex]
    refine List.foldlRecOn (motive := Indexes (HashMap.values cache.inner)) _ _ ?_ ?_
    · intro vault pool isVaultA absurd
      rw [HashMap.get_empty] at absurd
      cases absurd
    · intro index indexes held member
      exact indexes_insertPool _ index held (List.mem_mergeSort.mp member) indexes
  exact all vault pool isVaultA found

/-- A write is of a balance that was sent, to a pool that had the vault when the index was
made, and the index was no more than a minute old at the check before. -/
structure Genuine (cache : PoolStateCache) (now : Instant) (events : List Event)
    (sent : List BalanceUpdate) (write : Write) : Prop where
  sent : write.update ∈ sent
  owned : ∃ before, before ++ [.check write.indexedAt] <+: events ∧
    Owns (run (step powf vaults) (start cache now) before).cache write.update.vault write.pool
      write.isVaultA
  recent : write.checkedAt - write.indexedAt ≤ 60 * 10 ^ 9

/-- What holds of the link after any events. -/
structure Sound (cache : PoolStateCache) (now : Instant) (events : List Event) (link : Link) :
    Prop where
  carried : ∀ datagram ∈ link.wire, ∀ update, readPacket datagram = some update →
    update ∈ link.sent
  indexed : ∀ vault pool isVaultA,
    HashMap.get link.vaultIndex vault = some (pool, isVaultA) →
      ∃ before, before ++ [.check link.lastIndexRefresh] <+: events ∧
        Owns (run (step powf vaults) (start cache now) before).cache vault pool isVaultA
  recent : link.ready = true → link.checkedAt - link.lastIndexRefresh ≤ 60 * 10 ^ 9
  written : ∀ write ∈ link.writes, Genuine powf vaults cache now events link.sent write

theorem genuine_mono (cache : PoolStateCache) (now : Instant) (events more : List Event)
    (sent further : List BalanceUpdate) (write : Write)
    (genuine : Genuine powf vaults cache now events sent write) :
    Genuine powf vaults cache now (events ++ more) (sent ++ further) write := by
  rcases genuine.owned with ⟨before, early, owned⟩
  exact {
    sent := List.mem_append_left _ genuine.sent
    owned := ⟨before, early.trans (List.prefix_append _ _), owned⟩
    recent := genuine.recent }

/-- Steps that only change the wire, the list of what was sent or the cache. -/
theorem sound_of_same (cache : PoolStateCache) (now : Instant) (events : List Event)
    (event : Event) (link next : Link) (further : List BalanceUpdate)
    (sound : Sound powf vaults cache now events link)
    (carried : ∀ datagram ∈ next.wire, ∀ update, readPacket datagram = some update →
      update ∈ next.sent)
    (index : next.vaultIndex = link.vaultIndex)
    (refresh : next.lastIndexRefresh = link.lastIndexRefresh)
    (ready : next.ready = true → link.ready = true) (checked : next.checkedAt = link.checkedAt)
    (sent : next.sent = link.sent ++ further) (writes : next.writes = link.writes) :
    Sound powf vaults cache now (events ++ [event]) next := by
  refine ⟨carried, ?_, ?_, ?_⟩
  · intro vault pool isVaultA found
    rw [index] at found
    rcases sound.indexed vault pool isVaultA found with ⟨before, early, owned⟩
    rw [refresh]
    exact ⟨before, early.trans (List.prefix_append _ _), owned⟩
  · intro past
    rw [checked, refresh]
    exact sound.recent (ready past)
  · intro write member
    rw [writes] at member
    rw [sent]
    exact genuine_mono powf vaults cache now events [event] link.sent further write
      (sound.written write member)

theorem sound_check (cache : PoolStateCache) (now : Instant) (events : List Event)
    (time : Instant)
    (sound : Sound powf vaults cache now events
      (run (step powf vaults) (start cache now) events)) :
    Sound powf vaults cache now (events ++ [.check time])
      (check (run (step powf vaults) (start cache now) events) time) := by
  have kept : ∀ write ∈ (run (step powf vaults) (start cache now) events).writes,
      Genuine powf vaults cache now (events ++ [.check time])
        (run (step powf vaults) (start cache now) events).sent write := by
    intro write member
    have before := genuine_mono powf vaults cache now events [.check time] _ [] write
      (sound.written write member)
    rwa [List.append_nil] at before
  rw [check]
  split
  · refine ⟨sound.carried, ?_, fun _ => ?_, kept⟩
    · intro vault pool isVaultA found
      exact ⟨events, List.prefix_refl _, owns_of_indexed _ vault pool isVaultA found⟩
    · exact (Nat.sub_self time).trans_le (Nat.zero_le _)
  · rename_i fresh
    refine ⟨sound.carried, ?_, fun _ => ?_, kept⟩
    · intro vault pool isVaultA found
      rcases sound.indexed vault pool isVaultA found with ⟨before, early, owned⟩
      exact ⟨before, early.trans (List.prefix_append _ _), owned⟩
    · exact not_lt.mp fun old => fresh (Or.inl old)

theorem sound_onDatagram (cache : PoolStateCache) (now : Instant) (events : List Event)
    (event : Event) (link : Link) (time : Instant) (datagram : List UInt8)
    (sound : Sound powf vaults cache now events link) (ready : link.ready = true)
    (read : ∀ update, readPacket datagram = some update → update ∈ link.sent) :
    Sound powf vaults cache now (events ++ [event]) (onDatagram link time datagram) := by
  have unread := sound_of_same powf vaults cache now events event link link [] sound
    sound.carried rfl rfl id rfl (by simp) rfl
  rw [onDatagram]
  cases decoded : readPacket datagram with
  | none => exact unread
  | some update =>
      simp only
      cases found : HashMap.get link.vaultIndex update.vault with
      | none => exact unread
      | some place =>
          rcases place with ⟨pool, isVaultA⟩
          simp only
          refine ⟨unread.carried, unread.indexed, unread.recent, ?_⟩
          intro write member
          rcases List.mem_append.mp member with old | new
          · exact unread.written write old
          · rw [List.mem_singleton.mp new]
            exact {
              sent := read update decoded
              owned := by
                rcases sound.indexed update.vault pool isVaultA found with
                  ⟨before, early, owned⟩
                exact ⟨before, early.trans (List.prefix_append _ _), owned⟩
              recent := sound.recent ready }

theorem mem_of_mem_eraseIdx (wire : List (List UInt8)) (place : Nat) (datagram : List UInt8)
    (member : datagram ∈ wire.eraseIdx place) : datagram ∈ wire :=
  (List.eraseIdx_sublist wire place).subset member

/-- Whatever is lost, doubled or overtaken, and whatever short datagrams others send, every
write of the receiver is genuine. -/
theorem link_writes_genuine (cache : PoolStateCache) (now : Instant) (events : List Event)
    (strays : ∀ datagram, .stray datagram ∈ events → datagram.length < packetSize) :
    Sound powf vaults cache now events (run (step powf vaults) (start cache now) events) := by
  induction events using List.reverseRecOn with
  | nil =>
      refine ⟨by simp [start], ?_, by simp [start], by simp [start]⟩
      intro vault pool isVaultA absurd
      simp [start] at absurd
  | append_singleton events event ih =>
      have sound := ih (fun datagram member => strays datagram (List.mem_append_left _ member))
      rw [run_append, run_cons, run_nil]
      cases event with
      | account account isStartup =>
          rw [step, updateAccount]
          by_cases passed : passedOn vaults account isStartup = true
          · rw [if_pos passed]
            have key : account.pubkey.length = 32 := by
              simp only [passedOn, Bool.and_eq_true, decide_eq_true_eq] at passed
              exact passed.1.1.2
            refine sound_of_same powf vaults cache now events _ _ _ [account.update] sound ?_ rfl
              rfl id rfl rfl rfl
            intro datagram member update read
            rcases List.mem_append.mp member with old | new
            · exact List.mem_append_left _ (sound.carried datagram old update read)
            · rw [List.mem_singleton.mp new, readPacket_packet account key] at read
              cases read
              exact List.mem_append_right _ (List.mem_singleton_self _)
          · rw [if_neg passed]
            exact sound_of_same powf vaults cache now events _ _ _ [] sound sound.carried rfl rfl
              id rfl (by simp) rfl
      | lose place =>
          refine sound_of_same powf vaults cache now events _ _ _ [] sound ?_ rfl rfl id rfl
            (by simp [step]) rfl
          intro datagram member
          exact sound.carried datagram (mem_of_mem_eraseIdx _ place datagram member)
      | double place =>
          refine sound_of_same powf vaults cache now events _ _ _ [] sound ?_ rfl rfl id rfl
            (by simp [step]) rfl
          intro datagram member
          rcases List.mem_append.mp member with old | copy
          · exact sound.carried datagram old
          · exact sound.carried datagram (List.mem_of_getElem? (Option.mem_toList.mp copy))
      | stray datagram =>
          refine sound_of_same powf vaults cache now events _ _ _ [] sound ?_ rfl rfl id rfl
            (by simp [step]) rfl
          intro other member update read
          rcases List.mem_append.mp member with old | new
          · exact sound.carried other old update read
          · have short := strays datagram (by simp)
            rw [List.mem_singleton.mp new, readPacket_short datagram short] at read
            cases read
      | check time =>
          rw [step]
          split
          · exact sound_of_same powf vaults cache now events _ _ _ [] sound sound.carried rfl rfl
              id rfl (by simp) rfl
          · exact sound_check powf vaults cache now events time sound
      | receive time place =>
          rw [step]
          split
          · rename_i ready
            rw [receive]
            split
            · exact sound_of_same powf vaults cache now events _ _ _ [] sound sound.carried rfl
                rfl (by simp) rfl (by simp) rfl
            · rename_i index datagram found
              rcases Option.bind_eq_some_iff.mp found with ⟨_, -, there⟩
              rcases Option.map_eq_some_iff.mp there with ⟨_, inWire, same⟩
              cases same
              have after := sound_onDatagram powf vaults cache now events (.receive time place)
                { run (step powf vaults) (start cache now) events with
                  wire := (run (step powf vaults) (start cache now) events).wire.eraseIdx index }
                time datagram
                ⟨fun other member => sound.carried other (mem_of_mem_eraseIdx _ index other member),
                  sound.indexed, sound.recent, sound.written⟩
                ready (sound.carried datagram (List.mem_of_getElem? inWire))
              exact ⟨after.carried, after.indexed, by simp, after.written⟩
          · exact sound_of_same powf vaults cache now events _ _ _ [] sound sound.carried rfl rfl
              id rfl (by simp) rfl
      | other op =>
          exact sound_of_same powf vaults cache now events _ _ _ [] sound sound.carried rfl rfl
            id rfl (by simp [step]) rfl

/-! A wire that loses but keeps the order, and no other writer. -/

/-- Only losses: nothing is doubled, overtaken or sent by others, and the receiver is the
only one to write to the cache. -/
def Event.Lossy : Event → Prop
  | .account _ _ => True
  | .lose _ => True
  | .double _ => False
  | .stray _ => False
  | .check _ => True
  | .receive _ place => place = none ∨ place = some 0
  | .other _ => False

/-- What was written and what is still on its way, in the order it was sent. -/
def Ordered (link : Link) : Prop :=
  (link.writes.map Write.update ++ link.wire.filterMap readPacket).Sublist link.sent

theorem ordered_onDatagram (link : Link) (time : Instant) (datagram : List UInt8)
    (rest : List (List UInt8)) (wire : link.wire = datagram :: rest) (ordered : Ordered link) :
    Ordered (onDatagram { link with wire := rest } time datagram) := by
  rw [Ordered, wire, List.filterMap_cons] at ordered
  rw [onDatagram]
  cases decoded : readPacket datagram with
  | none =>
      rw [decoded] at ordered
      exact ordered
  | some update =>
      rw [decoded] at ordered
      simp only
      cases HashMap.get link.vaultIndex update.vault with
      | none =>
          refine List.Sublist.trans ?_ ordered
          exact (List.Sublist.refl _).append (List.sublist_cons_self _ _)
      | some place =>
          simp only [Ordered, List.map_append, List.map_cons, List.map_nil, List.append_assoc,
            List.singleton_append]
          exact ordered

theorem ordered_step (link : Link) (event : Event) (lossy : event.Lossy)
    (ordered : Ordered link) : Ordered (step powf vaults link event) := by
  cases event with
  | account account isStartup =>
      rw [step, updateAccount]
      by_cases passed : passedOn vaults account isStartup = true
      · have key : account.pubkey.length = 32 := by
          simp only [passedOn, Bool.and_eq_true, decide_eq_true_eq] at passed
          exact passed.1.1.2
        rw [if_pos passed]
        simp only [Ordered, List.filterMap_append, List.filterMap_cons, List.filterMap_nil,
          readPacket_packet account key]
        rw [← List.append_assoc]
        exact ordered.append (List.Sublist.refl _)
      · rw [if_neg passed]
        exact ordered
  | lose place =>
      refine List.Sublist.trans ?_ ordered
      exact (List.Sublist.refl _).append ((List.eraseIdx_sublist _ _).filterMap _)
  | double place => exact lossy.elim
  | stray datagram => exact lossy.elim
  | check time =>
      rw [step, check]
      split
      · exact ordered
      · split
        · exact ordered
        · exact ordered
  | receive time place =>
      rw [step]
      split
      · rcases lossy with rfl | rfl
        · exact ordered
        · cases wire : link.wire with
          | nil =>
              rw [receive]
              simp only [wire, List.getElem?_nil, Option.bind_some, Option.map_none]
              rw [Ordered, wire] at ordered
              exact ordered
          | cons datagram rest =>
              have taken := ordered_onDatagram link time datagram rest wire ordered
              rw [receive]
              simp only [wire, List.getElem?_cons_zero, Option.bind_some, Option.map_some,
                List.eraseIdx_cons_zero]
              exact taken
      · exact ordered
  | other op => exact lossy.elim

/-- The polled reserve of one side. -/
def side (held : DexPool) (isVaultA : Bool) : Nat :=
  if isVaultA then held.reserveA else held.reserveB

theorem side_updateReserveByVault (held : DexPool) (time : Instant) (isVaultA other : Bool)
    (amount : Nat) :
    side (held.updateReserveByVault time isVaultA amount) other =
      if isVaultA = other then amount else side held other := by
  by_cases same : (if isVaultA then held.reserveA else held.reserveB) = amount
  · have idle : held.updateReserveByVault time isVaultA amount = held := if_pos same
    rw [idle]
    split
    · next own => rw [← own, ← same, side]
    · rfl
  · have written : held.updateReserveByVault time isVaultA amount =
        if isVaultA then held.updateReserveA time amount else held.updateReserveB time amount :=
      if_neg same
    rw [written]
    cases isVaultA with
    | true => cases other <;> rfl
    | false => cases other <;> rfl

/-- The polled reserve of one side of a pool, if it is cached. -/
def reserveOf (cache : PoolStateCache) (pool : Pubkey) (isVaultA : Bool) : Option Nat :=
  (cache.get pool).map (fun held => side held isVaultA)

/-- The amounts written to one side of a pool, oldest first. -/
def amountsTo (writes : List Write) (pool : Pubkey) (isVaultA : Bool) : List Nat :=
  (writes.filter (fun write => decide (write.pool = pool ∧ write.isVaultA = isVaultA))).map
    (fun write => write.update.amount)

theorem reserveOf_updateReserveByVault (cache : PoolStateCache) (time : Instant)
    (address pool : Pubkey) (isVaultA other : Bool) (amount : Nat) :
    reserveOf (cache.updateReserveByVault time address isVaultA amount).1 pool other =
      (reserveOf cache pool other).map
        (fun before => if address = pool ∧ isVaultA = other then amount else before) := by
  rw [reserveOf, PoolStateCache.get_updateReserveByVault, PoolStateCache.get_getMut, reserveOf,
    Option.map_map]
  by_cases same : pool = address
  · rw [if_pos same, Option.map_map, same]
    congr 1
    funext held
    simp only [Function.comp_apply, side_updateReserveByVault, true_and]
  · rw [if_neg same]
    congr 1
    funext held
    simp only [Function.comp_apply]
    rw [if_neg (fun both => same both.1.symm)]

/-- The cache holds the last amount written, or what it held at the start. -/
def Latest (cache : PoolStateCache) (link : Link) : Prop :=
  ∀ pool isVaultA, reserveOf link.cache pool isVaultA =
    (reserveOf cache pool isVaultA).map
      (fun before => (amountsTo link.writes pool isVaultA).getLast?.getD before)

theorem latest_onDatagram (cache : PoolStateCache) (link : Link) (time : Instant)
    (datagram : List UInt8) (latest : Latest cache link) :
    Latest cache (onDatagram link time datagram) := by
  rw [onDatagram]
  cases readPacket datagram with
  | none => exact latest
  | some update =>
      simp only
      cases HashMap.get link.vaultIndex update.vault with
      | none => exact latest
      | some place =>
          rcases place with ⟨address, isVaultA⟩
          intro pool other
          simp only [reserveOf_updateReserveByVault, latest pool other, Option.map_map]
          congr 1
          funext before
          simp only [Function.comp_apply, amountsTo, List.filter_append, List.map_append]
          by_cases own : address = pool ∧ isVaultA = other
          · simp [own]
          · simp [own]

theorem latest_step (cache : PoolStateCache) (link : Link) (event : Event) (lossy : event.Lossy)
    (latest : Latest cache link) : Latest cache (step powf vaults link event) := by
  cases event with
  | account account isStartup =>
      rw [step]
      split
      · exact latest
      · exact latest
  | lose place => exact latest
  | double place => exact lossy.elim
  | stray datagram => exact lossy.elim
  | check time =>
      rw [step, check]
      split
      · exact latest
      · split
        · exact latest
        · exact latest
  | receive time place =>
      rw [step]
      split
      · rw [receive]
        split
        · exact latest
        · exact latest_onDatagram cache _ time _ latest
      · exact latest
  | other op => exact lossy.elim

/-- On a wire that only loses, and with no other writer, the balances written are among
those sent, in the order they were sent, and each reserve is the last one written to it. -/
theorem newest_received_held (cache : PoolStateCache) (now : Instant) (events : List Event)
    (lossy : ∀ event ∈ events, event.Lossy) :
    let link := run (step powf vaults) (start cache now) events
    (link.writes.map Write.update).Sublist link.sent ∧
      ∀ pool isVaultA, reserveOf link.cache pool isVaultA =
        (reserveOf cache pool isVaultA).map
          (fun before => (amountsTo link.writes pool isVaultA).getLast?.getD before) := by
  have both : Ordered (run (step powf vaults) (start cache now) events) ∧
      Latest cache (run (step powf vaults) (start cache now) events) := by
    apply run_invariant (step powf vaults) (fun link => Ordered link ∧ Latest cache link)
    · refine ⟨List.Sublist.refl _, ?_⟩
      intro pool isVaultA
      simp [start, amountsTo]
    · intro pair member held
      have kind := lossy pair.2 (trace_input _ _ _ pair member)
      exact ⟨ordered_step powf vaults pair.1 pair.2 kind held.1,
        latest_step powf vaults cache pair.1 pair.2 kind held.2⟩
  exact ⟨(List.sublist_append_left _ _).trans both.1, both.2⟩

end Step

/-! One pool, one account write of its first vault, and a short datagram of another program. -/

def plainPow : ℚ → ℚ → ℚ := fun base _ => base

def oneAccount : AccountInfo :=
  ⟨(Pubkey.ofNat 23).toBytes, List.replicate 64 0 ++ leBytes 8 1000 ++ List.replicate 93 0⟩

def oneRun : List Event :=
  [.account oneAccount false, .check 1, .receive 2 (some 0)]

def linkAfter (events : List Event) : Link :=
  run (step plainPow {oneAccount.pubkey}) (start VaultWatcher.oneCache 0) events

theorem oneRun_writes : (linkAfter oneRun).writes =
    [⟨⟨.ofNat 23, 1000⟩, .ofNat 1, true, 1, 1⟩] := by
  decide +kernel

theorem link_writes_genuine_oneRun :
    (linkAfter (oneRun ++ [.stray [1, 2, 3]])).writes ≠ [] ∧
      Sound plainPow {oneAccount.pubkey} VaultWatcher.oneCache 0 (oneRun ++ [.stray [1, 2, 3]])
        (linkAfter (oneRun ++ [.stray [1, 2, 3]])) := by
  refine ⟨by decide +kernel, link_writes_genuine plainPow {oneAccount.pubkey} VaultWatcher.oneCache 0 _ ?_⟩
  intro datagram member
  simp only [oneRun, List.cons_append, List.nil_append, List.mem_cons, reduceCtorEq, false_or,
    List.not_mem_nil, or_false, Event.stray.injEq] at member
  rw [member]
  decide

theorem newest_received_held_oneRun :
    ((linkAfter oneRun).writes.map Write.update).Sublist (linkAfter oneRun).sent ∧
      ∀ pool isVaultA, reserveOf (linkAfter oneRun).cache pool isVaultA =
        (reserveOf VaultWatcher.oneCache pool isVaultA).map
          (fun before => (amountsTo (linkAfter oneRun).writes pool isVaultA).getLast?.getD
            before) := by
  refine newest_received_held plainPow {oneAccount.pubkey} VaultWatcher.oneCache 0 oneRun ?_
  intro event member
  simp only [oneRun, List.mem_cons, List.not_mem_nil, or_false] at member
  rcases member with rfl | rfl | rfl
  · trivial
  · trivial
  · exact Or.inr rfl

end Helios.BalanceLink
