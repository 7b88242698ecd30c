import Helios.Executability
import Helios.KeyText

/-! The vault watcher: which vaults it subscribes to, what a node sends back for them, and what
the session makes of it. A notification names its subscription and not its account; the two are
tied by the confirmation of the request. -/

namespace Helios.VaultWatcher

open Machine Runs

/-! JSON values. -/

inductive Value where
  | null
  | bool (value : Bool)
  | number (value : Int)
  | string (text : String)
  | array (items : List Value)
  | object (fields : List (String × Value))

namespace Value

/-- The value of a field, the last one of its name. -/
def get (value : Value) (name : String) : Option Value :=
  match value with
  | object fields => (fields.reverse.find? (fun field => field.1 == name)).map Prod.snd
  | _ => none

def asArray : Value → Option (List Value)
  | array items => some items
  | _ => none

def asStr : Value → Option String
  | string text => some text
  | _ => none

end Value

/-! The vaults. -/

structure Watch where
  vault : Pubkey
  pool : Pubkey
  isVaultA : Bool
  deriving DecidableEq

def maxSubsPerConn : Nat := 35

def insertVault (map : HashMap Pubkey (Pubkey × Bool)) (vault pool : Pubkey) (isVaultA : Bool) :
    HashMap Pubkey (Pubkey × Bool) :=
  if vault = default then map else map.insert vault (pool, isVaultA)

/-- Both vaults of each metadata a pool has. -/
def vaultPairs (pool : DexPool) : List (Pubkey × Pubkey) :=
  (pool.raydiumMeta.map (fun raydium => (raydium.vaultA, raydium.vaultB))).toList ++
    (pool.orcaMeta.map (fun orca => (orca.tokenVaultA, orca.tokenVaultB))).toList ++
    (pool.meteoraMeta.map (fun meteora => (meteora.tokenVaultA, meteora.tokenVaultB))).toList

def insertPool (map : HashMap Pubkey (Pubkey × Bool)) (pool : DexPool) :
    HashMap Pubkey (Pubkey × Bool) :=
  (vaultPairs pool).foldl (fun map vaults =>
    insertVault (insertVault map vaults.1 pool.poolAddress true) vaults.2 pool.poolAddress false)
    map

/-- Pools with more reserves come first, so a vault of several pools is the last one's. -/
def buildVaultIndex (cache : PoolStateCache) : HashMap Pubkey (Pubkey × Bool) :=
  let liquidity := fun pool : DexPool => saturatingAdd64 pool.reserveA pool.reserveB
  ((HashMap.values cache.inner).mergeSort (fun a b => decide (liquidity b ≤ liquidity a))).foldl
    insertPool HashMap.empty

/-- The token that a pool trades against WSOL. -/
def tradedToken (pool : DexPool) : Option Pubkey :=
  if pool.tokenA = wsol then some pool.tokenB
  else if pool.tokenB = wsol then some pool.tokenA
  else none

def isCrossToken (cache : PoolStateCache) (token : Pubkey) : Bool :=
  let dexes := ((HashMap.values cache.inner).filter (fun pool =>
    decide (tradedToken pool = some token))).map DexPool.dexType
  decide (2 ≤ dexes.dedup.length)

/-- The vaults to watch: those of the priority file, or else of tokens that several DEXes trade. -/
def crossVaults (cache : PoolStateCache) (mlVaults : Option (List String)) : List Watch :=
  ((buildVaultIndex cache).entries.filter (fun entry =>
    match mlVaults with
    | some texts => decide (entry.1 ∈ texts.filterMap Pubkey.fromStr)
    | none =>
        match cache.get entry.2.1 with
        | some pool => isCrossToken cache pool.tokenA || isCrossToken cache pool.tokenB
        | none => false)).map (fun entry => ⟨entry.1, entry.2.1, entry.2.2⟩)

def vaultMap (watches : List Watch) : HashMap Pubkey (Pubkey × Bool) :=
  watches.foldl (fun map watch => map.insert watch.vault (watch.pool, watch.isVaultA))
    HashMap.empty

/-- The vaults of one connection. -/
def chunk (watches : List Watch) (conn : Nat) : List Watch :=
  (watches.drop (maxSubsPerConn * conn)).take maxSubsPerConn

/-! What goes over the connection. -/

def subMsg (id : Nat) (vault : Pubkey) : Value :=
  .object [
    ("jsonrpc", .string "2.0"),
    ("id", .number id),
    ("method", .string "accountSubscribe"),
    ("params", .array [
      .string vault.display,
      .object [
        ("encoding", .string "base64"),
        ("commitment", .string "processed"),
        ("dataSlice", .object [("offset", .number 64), ("length", .number 8)])]])]

def requests (watches : List Watch) : List Value :=
  watches.zipIdx.map (fun (watch, place) => subMsg (place + 1) watch.vault)

/-- The account of a notification, its data as text. -/
structure UiAccount where
  data : String
  executable : Bool
  lamports : Nat
  owner : Pubkey
  rentEpoch : Nat
  space : Nat

inductive RpcMessage where
  | confirmation (id subscription : Nat)
  | notification (subscription slot : Nat) (account : UiAccount)

def RpcMessage.toValue : RpcMessage → Value
  | .confirmation id subscription =>
      .object [
        ("jsonrpc", .string "2.0"),
        ("result", .number subscription),
        ("id", .number id)]
  | .notification subscription slot account =>
      .object [
        ("jsonrpc", .string "2.0"),
        ("method", .string "accountNotification"),
        ("params", .object [
          ("result", .object [
            ("context", .object [("slot", .number slot)]),
            ("value", .object [
              ("lamports", .number account.lamports),
              ("data", .array [.string account.data, .string "base64"]),
              ("owner", .string account.owner.display),
              ("executable", .bool account.executable),
              ("rentEpoch", .number account.rentEpoch),
              ("space", .number account.space)])]),
          ("subscription", .number subscription)])]

/-- A frame of the socket, with what its text parses to. -/
inductive Frame where
  | text (parsed : Option Value)
  | other

/-! The session. -/

structure Update where
  pool : Pubkey
  isVaultA : Bool
  amount : Nat
  deriving DecidableEq

structure Session where
  cache : PoolStateCache
  updates : Nat
  /-- The calls of `update_reserve_by_vault` so far. -/
  calls : List Update

section Session

variable (base64Decode : String → Option (List UInt8)) (map : HashMap Pubkey (Pubkey × Bool))

/-- The first eight bytes of the data. -/
def amountOf (b64 : String) : Option Nat := do
  let bytes ← base64Decode b64
  if 8 ≤ bytes.length then some (ofLeBytes (bytes.take 8)) else none

def valueOf (notif : Value) : Option Value := do
  let params ← notif.get "params"
  let result ← params.get "result"
  result.get "value"

/-- What a message leads to, if it gets that far. -/
def updateOf (notif : Value) : Option Update := do
  let data ← (← valueOf notif).get "data"
  let dataArr ← data.asArray
  let first ← dataArr.head?
  let b64 ← first.asStr
  let amount ← amountOf base64Decode b64
  let pubkey ← (← valueOf notif).get "pubkey"
  let pubkeyStr ← pubkey.asStr
  let vault ← Pubkey.fromStr pubkeyStr
  let (pool, isVaultA) ← HashMap.get map vault
  return ⟨pool, isVaultA, amount⟩

def onNotif (now : Instant) (session : Session) (notif : Value) : Session :=
  match updateOf base64Decode map notif with
  | none => session
  | some update =>
      let (cache, changed) :=
        session.cache.updateReserveByVault now update.pool update.isVaultA update.amount
      { cache := cache
        updates := if changed then session.updates + 1 else session.updates
        calls := session.calls ++ [update] }

def onFrame (session : Session) (arrived : Instant × Frame) : Session :=
  match arrived.2 with
  | .text (some notif) => onNotif base64Decode map arrived.1 session notif
  | _ => session

/-- The messages up to the end of the connection. -/
def wsSession (cache : PoolStateCache) (frames : List (Instant × Frame)) : Session :=
  run (onFrame base64Decode map) ⟨cache, 0, []⟩ frames

end Session

/-! The vaults of a session are known to it, each with its pool and side. -/

theorem crossVaults_indexed (cache : PoolStateCache) (mlVaults : Option (List String))
    (watch : Watch) (watched : watch ∈ crossVaults cache mlVaults) :
    HashMap.get (buildVaultIndex cache) watch.vault = some (watch.pool, watch.isVaultA) := by
  rcases List.mem_map.mp watched with ⟨entry, selected, rfl⟩
  exact AList.mem_lookup_iff.mpr (List.mem_of_mem_filter selected)

theorem vaultMap_get (cache : PoolStateCache) (mlVaults : Option (List String))
    (watch : Watch) (watched : watch ∈ crossVaults cache mlVaults) :
    HashMap.get (vaultMap (crossVaults cache mlVaults)) watch.vault =
      some (watch.pool, watch.isVaultA) := by
  have written : (HashMap.get (vaultMap (crossVaults cache mlVaults)) watch.vault).isSome := by
    rw [vaultMap, HashMap.get_foldl_insert, Option.isSome_or, Bool.or_eq_true,
      List.getLast?_isSome]
    left
    exact List.ne_nil_of_mem (List.mem_filterMap.mpr ⟨watch, watched, if_pos rfl⟩)
  rcases Option.isSome_iff_exists.mp written with ⟨held, found⟩
  rcases HashMap.mem_of_get_foldl_insert Watch.vault (fun watch => (watch.pool, watch.isVaultA)) _ _
    _ found with ⟨other, otherWatched, sameVault, sameValue⟩
  have here := crossVaults_indexed cache mlVaults watch watched
  have there := crossVaults_indexed cache mlVaults other otherWatched
  rw [sameVault, here] at there
  rw [found, ← sameValue, ← Option.some.inj there]

section Session

variable (base64Decode : String → Option (List UInt8)) (map : HashMap Pubkey (Pubkey × Bool))

/-- The handler waits for the account's own key inside the value: a message with it would lead to
the update of the vault's pool and side. -/
theorem keyed_notif_applied (cache : PoolStateCache) (mlVaults : Option (List String))
    (watch : Watch) (watched : watch ∈ crossVaults cache mlVaults) (now : Instant)
    (session : Session) (notif value : Value) (b64 : String) (rest : List Value) (amount : Nat)
    (held : valueOf notif = some value)
    (data : value.get "data" = some (.array (.string b64 :: rest)))
    (balance : amountOf base64Decode b64 = some amount)
    (pubkey : value.get "pubkey" = some (.string watch.vault.display)) :
    (onNotif base64Decode (vaultMap (crossVaults cache mlVaults)) now session notif).calls =
      session.calls ++ [⟨watch.pool, watch.isVaultA, amount⟩] := by
  have mapped := vaultMap_get cache mlVaults watch watched
  have update : updateOf base64Decode (vaultMap (crossVaults cache mlVaults)) notif =
      some ⟨watch.pool, watch.isVaultA, amount⟩ := by
    simp [updateOf, held, data, pubkey, balance, mapped, Value.asArray, Value.asStr,
      Pubkey.fromStr_display]
  rw [onNotif, update]

/-! What the node sends. -/

/-- A message that leads to an update names the account in its value. -/
theorem keyed_of_updateOf (notif : Value) (update : Update)
    (leads : updateOf base64Decode map notif = some update) :
    ∃ value pubkey, valueOf notif = some value ∧ value.get "pubkey" = some pubkey := by
  simp only [updateOf, Option.bind_eq_bind, Option.bind_eq_some_iff] at leads
  rcases leads with ⟨_, _, _, _, _, _, _, _, _, _, _, _, value, held, pubkey, named, _⟩
  exact ⟨value, pubkey, held, named⟩

/-- A notification has no such field, and a confirmation no value. -/
theorem updateOf_rpc (message : RpcMessage) :
    updateOf base64Decode map message.toValue = none := by
  apply Option.eq_none_iff_forall_ne_some.mpr
  intro update leads
  rcases keyed_of_updateOf base64Decode map message.toValue update leads with
    ⟨value, pubkey, held, named⟩
  cases message with
  | confirmation id subscription => cases held
  | notification subscription slot account =>
      cases held
      cases named

/-- Whatever the node sends, the session leaves everything as it was. -/
theorem wsSession_idle (cache : PoolStateCache) (messages : List (Instant × RpcMessage)) :
    wsSession base64Decode map cache
        (messages.map (fun arrived => (arrived.1, .text (some arrived.2.toValue)))) =
      ⟨cache, 0, []⟩ := by
  induction messages with
  | nil => rfl
  | cons arrived rest ih =>
      have first : onFrame base64Decode map ⟨cache, 0, []⟩
          (arrived.1, .text (some arrived.2.toValue)) = ⟨cache, 0, []⟩ := by
        simp only [onFrame, onNotif, updateOf_rpc]
      rw [wsSession, List.map_cons, run_cons, first]
      exact ih

end Session

/-! What the session owes. -/

/-- The vault that was asked for under an id. -/
def watchOf (watches : List Watch) : Nat → Option Watch
  | 0 => none
  | place + 1 => watches[place]?

/-- It is the vault of the request with this id. -/
theorem requests_watchOf (watches : List Watch) (place : Nat) :
    (requests watches)[place]? =
      (watchOf watches (place + 1)).map (fun watch => subMsg (place + 1) watch.vault) := by
  rw [requests, List.getElem?_map, List.getElem?_zipIdx, watchOf, Option.map_map, Nat.zero_add]
  rfl

def confirmations (messages : List RpcMessage) : List (Nat × Nat) :=
  messages.filterMap (fun message =>
    match message with
    | .confirmation id subscription => some (id, subscription)
    | .notification .. => none)

/-- Each confirmation answers a request of its own, under a subscription of its own, and a
notification is for one of these; the order is free. -/
structure Conforms (watches : List Watch) (messages : List RpcMessage) : Prop where
  requested : ∀ confirmed ∈ confirmations messages, (watchOf watches confirmed.1).isSome = true
  once : ((confirmations messages).map Prod.fst).Nodup
  own : ((confirmations messages).map Prod.snd).Nodup
  known : ∀ subscription slot account,
    RpcMessage.notification subscription slot account ∈ messages →
      ∃ id, (id, subscription) ∈ confirmations messages

/-- The vault subscribed under a subscription. -/
def subscribed (watches : List Watch) (messages : List RpcMessage) (subscription : Nat) :
    Option Watch :=
  ((confirmations messages).find? (fun confirmed => decide (confirmed.2 = subscription))).bind
    (fun confirmed => watchOf watches confirmed.1)

section Owed

variable (base64Decode : String → Option (List UInt8)) (watches : List Watch)

/-- The update that a message stands for. -/
def owed (messages : List RpcMessage) : RpcMessage → Option Update
  | .confirmation .. => none
  | .notification subscription _ account => do
      let amount ← amountOf base64Decode account.data
      let watch ← subscribed watches messages subscription
      return ⟨watch.pool, watch.isVaultA, amount⟩

def HasBalance : RpcMessage → Prop
  | .confirmation .. => False
  | .notification _ _ account => (amountOf base64Decode account.data).isSome = true

/-- Each notification with a balance has led to its update, and to no other. -/
def Delivered (messages : List RpcMessage) (calls : List Update) : Prop :=
  calls.Perm (messages.filterMap (owed base64Decode watches messages))

theorem subscribed_isSome (messages : List RpcMessage) (conforms : Conforms watches messages)
    (id subscription : Nat) (confirmed : (id, subscription) ∈ confirmations messages) :
    (subscribed watches messages subscription).isSome = true := by
  have found : ((confirmations messages).find? (fun confirmed =>
      decide (confirmed.2 = subscription))).isSome = true :=
    List.find?_isSome.mpr ⟨_, confirmed, decide_eq_true rfl⟩
  rcases Option.isSome_iff_exists.mp found with ⟨first, here⟩
  rw [subscribed, here]
  exact conforms.requested first (List.mem_of_find?_eq_some here)

/-- On a conforming connection every balance is owed an update. -/
theorem owed_isSome_iff (messages : List RpcMessage) (conforms : Conforms watches messages)
    (message : RpcMessage) (member : message ∈ messages) :
    (owed base64Decode watches messages message).isSome = true ↔
      HasBalance base64Decode message := by
  cases message with
  | confirmation id subscription => exact Bool.false_eq_true.to_iff
  | notification subscription slot account =>
      rcases conforms.known subscription slot account member with ⟨id, confirmed⟩
      have known := subscribed_isSome watches messages conforms id subscription confirmed
      rcases Option.isSome_iff_exists.mp known with ⟨watch, here⟩
      cases balance : amountOf base64Decode account.data with
      | none => simp [owed, HasBalance, balance]
      | some amount => simp [owed, HasBalance, balance, here]

/-- A session changes nothing, so it meets what it owes exactly if it owes nothing: no notification
with a balance comes. -/
theorem delivered_iff (map : HashMap Pubkey (Pubkey × Bool)) (cache : PoolStateCache)
    (messages : List (Instant × RpcMessage))
    (conforms : Conforms watches (messages.map Prod.snd)) :
    let session := wsSession base64Decode map cache
      (messages.map (fun arrived => (arrived.1, .text (some arrived.2.toValue))))
    session.cache = cache ∧
    (Delivered base64Decode watches (messages.map Prod.snd) session.calls ↔
      ∀ message ∈ messages.map Prod.snd, ¬ HasBalance base64Decode message) := by
  dsimp only
  rw [wsSession_idle, Delivered, List.nil_perm, List.filterMap_eq_nil_iff]
  refine ⟨rfl, ?_⟩
  apply forall₂_congr
  intro message member
  rw [← owed_isSome_iff base64Decode watches _ conforms message member,
    Option.not_isSome_iff_eq_none]

end Owed

/-! One vault, confirmed and then notified. -/

section Sample

open Executability

def oneWatch : List Watch := [⟨.ofNat 23, .ofNat 1, true⟩]

def oneMap : HashMap Pubkey (Pubkey × Bool) := vaultMap oneWatch

def oneCache : PoolStateCache := PoolStateCache.new.upsert (wsolPool 1 (10 ^ 13) (.ofNat 30))

/-- Decodes one text, eight bytes for 1000. -/
def decodeOne (text : String) : Option (List UInt8) :=
  if text = "6AMAAAAAAAA=" then some [232, 3, 0, 0, 0, 0, 0, 0] else none

def oneNotification : RpcMessage :=
  .notification 7 100 ⟨"6AMAAAAAAAA=", false, 2039280, tokenProgramId, 0, 165⟩

def oneTrace : List (Instant × RpcMessage) := [(0, .confirmation 1 7), (1, oneNotification)]

def oneSession : Session :=
  wsSession decodeOne oneMap oneCache
    (oneTrace.map (fun arrived => (arrived.1, .text (some arrived.2.toValue))))

theorem oneTrace_conforms : Conforms oneWatch (oneTrace.map Prod.snd) where
  requested := by
    intro confirmed member
    cases List.mem_singleton.mp member
    rfl
  once := List.nodup_singleton 1
  own := List.nodup_singleton 7
  known := by
    intro subscription slot account member
    rcases List.mem_pair.mp member with same | same
    · cases same
    · cases same
      exact ⟨1, List.mem_singleton.mpr rfl⟩

theorem oneNotification_owed :
    owed decodeOne oneWatch (oneTrace.map Prod.snd) oneNotification =
      some ⟨.ofNat 1, true, 1000⟩ := by
  decide +kernel

/-- The balance of the subscribed vault does not reach its pool. -/
theorem notification_lost :
    HashMap.get (buildVaultIndex oneCache) (.ofNat 23) = some (.ofNat 1, true) ∧
    Conforms oneWatch (oneTrace.map Prod.snd) ∧
    owed decodeOne oneWatch (oneTrace.map Prod.snd) oneNotification =
      some ⟨.ofNat 1, true, 1000⟩ ∧
    oneSession.calls = [] ∧
    ¬ Delivered decodeOne oneWatch (oneTrace.map Prod.snd) oneSession.calls := by
  have idle : oneSession.calls = [] := by
    rw [oneSession, wsSession_idle]
  refine ⟨by decide +kernel, oneTrace_conforms, oneNotification_owed, idle, ?_⟩
  rw [idle]
  intro delivered
  have inside : (⟨.ofNat 1, true, 1000⟩ : Update) ∈
      (oneTrace.map Prod.snd).filterMap (owed decodeOne oneWatch (oneTrace.map Prod.snd)) :=
    List.mem_filterMap.mpr ⟨oneNotification, List.mem_pair.mpr (Or.inr rfl), oneNotification_owed⟩
  rw [List.nil_perm.mp delivered] at inside
  cases inside

theorem oneTrace_delivered_iff :
    oneSession.cache = oneCache ∧
    (Delivered decodeOne oneWatch (oneTrace.map Prod.snd) oneSession.calls ↔
      ∀ message ∈ oneTrace.map Prod.snd, ¬ HasBalance decodeOne message) :=
  delivered_iff decodeOne oneWatch oneMap oneCache oneTrace oneTrace_conforms

end Sample

end Helios.VaultWatcher
