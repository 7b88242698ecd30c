import Helios.GrpcState
import Helios.KeyText
import Helios.Runs

/-! The account requests that `sim-server` and `mini-agave` answer from RAM: the map that a stream
(and in `mini-agave` a poller) fills, the flag that says whether it may be used, and the handlers,
which look up one key at a time. The answer of the upstream node is given beside them. -/

namespace Helios.RpcCache

open GrpcFeed (AccountInfo CachedAccount)

/-! Requests and answers. -/

inductive UiAccountEncoding where
  | binary
  | base58
  | base64
  | base64Zstd
  | jsonParsed
  deriving DecidableEq

structure UiDataSliceConfig where
  offset : Nat
  length : Nat

structure RpcAccountInfoConfig where
  encoding : Option UiAccountEncoding
  dataSlice : Option UiDataSliceConfig

/-- A parameter, as far as the handlers look into it. -/
inductive Value where
  | string (text : String)
  | array (items : List Value)
  | other

def Value.asArray : Value → Option (List Value)
  | .array items => some items
  | _ => none

def Value.asStr : Value → Option String
  | .string text => some text
  | _ => none

/-- `kv.as_str()` and then `ks.parse::<Pubkey>()`. -/
def keyOf (kv : Value) : Option Pubkey := kv.asStr.bind Pubkey.fromStr

inductive Method where
  | getAccountInfo
  | getMultipleAccounts
  deriving DecidableEq

structure Request where
  method : Method
  /-- `params.get(0)`. -/
  first : Value
  /-- `params[1]`. -/
  config : RpcAccountInfoConfig

/-- The accounts a request asks for. -/
def Request.keys (request : Request) : Option (List Value) :=
  match request.method with
  | .getAccountInfo => some [request.first]
  | .getMultipleAccounts => request.first.asArray

inductive UiAccountData where
  | legacyBinary (text : String)
  | binary (text : String) (encoding : UiAccountEncoding)
  | json (parsed : String)
  deriving DecidableEq

structure UiAccount where
  lamports : Nat
  data : UiAccountData
  owner : String
  executable : Bool
  rentEpoch : Nat
  deriving DecidableEq

/-! The upstream node. -/

structure Upstream where
  base58 : List UInt8 → String
  base64 : List UInt8 → String
  base64Zstd : List UInt8 → String
  /-- What the node's parsers make of an account, if one knows it. -/
  parse : AccountInfo → Option String
  maxMultipleAccounts : Nat

/-- The state of all accounts. -/
abbrev Accounts := Pubkey → Option AccountInfo

namespace Upstream

variable (upstream : Upstream)

def sliceData (data : List UInt8) : Option UiDataSliceConfig → List UInt8
  | none => data
  | some slice => (data.drop slice.offset).take slice.length

def encoding (method : Method) (config : RpcAccountInfoConfig) : UiAccountEncoding :=
  config.encoding.getD (match method with
    | .getAccountInfo => .binary
    | .getMultipleAccounts => .base64)

def encodeData (method : Method) (config : RpcAccountInfoConfig) (acc : AccountInfo) :
    UiAccountData :=
  let data := sliceData acc.data config.dataSlice
  match encoding method config with
  | .binary => .legacyBinary (upstream.base58 data)
  | .base58 => .binary (upstream.base58 data) .base58
  | .base64 => .binary (upstream.base64 data) .base64
  | .base64Zstd => .binary (upstream.base64Zstd data) .base64Zstd
  | .jsonParsed =>
      match upstream.parse acc with
      | some parsed => .json parsed
      | none => .binary (upstream.base64 acc.data) .base64

def encode (method : Method) (config : RpcAccountInfoConfig) (acc : AccountInfo) : UiAccount where
  lamports := acc.lamports
  data := upstream.encodeData method config acc
  owner := acc.owner.display
  executable := acc.executable
  rentEpoch := acc.rentEpoch

/-- The `value` for a request on a state, or `none` for an error. -/
def value (accounts : Accounts) (request : Request) : Option (List (Option UiAccount)) :=
  request.keys.bind (fun keys =>
    if request.method = .getMultipleAccounts ∧ upstream.maxMultipleAccounts < keys.length then none
    else keys.mapM (fun kv => (keyOf kv).map (fun key =>
      (accounts key).map (upstream.encode request.method request.config))))

end Upstream

/-! The servers. -/

inductive Server where
  | simServer
  | miniAgave
  deriving DecidableEq

/-- How an account came into the map: after how many disconnects, and from which of the stream's
sessions, if not from a poll. -/
structure Origin where
  disconnects : Nat
  session : Option Nat
  moment : Nat

structure Served where
  key : Pubkey
  account : CachedAccount
  origin : Origin

/-- What a handler found for one of the keys. -/
structure Lookup where
  key : Option Pubkey
  hit : Option Served

inductive Response where
  | error (code : Int) (message : String)
  | proxied
  | ram (contextSlot : Nat) (found : List Lookup)

inductive Handler where
  | idle
  | reading (request : Request) (contextSlot : Nat) (left : List Value) (found : List Lookup)
  | answered (request : Request) (response : Response)

structure World where
  accounts : HashMap Pubkey CachedAccount
  connected : Bool
  blockhashSlot : Nat
  handler : Handler
  streaming : Bool
  origin : Pubkey → Origin
  disconnects : Nat
  session : Nat
  /-- The moment the latest session started. -/
  since : Nat

inductive Event where
  /-- `sim-server` has a connection and not yet a subscription. -/
  | connected
  | subscribed (moment : Nat)
  | disconnected
  /-- `sim-server` is back at the top of `run_loop`, the backoff slept. -/
  | retrying
  | blockhashPolled (slot : Nat)
  | blockMeta (slot : Nat)
  | push (key : Pubkey) (acc : AccountInfo) (slot moment : Nat)
  | poll (key : Pubkey) (acc : AccountInfo) (moment : Nat)
  | request (request : Request)
  | lookUp
  | finish

/-- An account without lamports does not exist. -/
def live (acc : AccountInfo) : Option AccountInfo := if acc.lamports = 0 then none else some acc

section Steps

-- The states the node passes through, one after the other.
variable (server : Server) (chain : Nat → Accounts)

/-- How a handler begins. -/
def beginRequest (world : World) (request : Request) : Handler :=
  match request.keys with
  | none => .answered request (.error (-32602) "missing pubkeys array")
  | some keys =>
      match server, request.method with
      | .simServer, _ =>
          if world.connected then .reading request 0 keys [] else .answered request .proxied
      | .miniAgave, .getMultipleAccounts =>
          if world.connected = false ∨ world.accounts.entries = [] then
            .answered request .proxied
          else .reading request world.blockhashSlot keys []
      | .miniAgave, .getAccountInfo => .reading request 0 keys []

def getAccount (world : World) (key : Pubkey) : Option Served :=
  (world.accounts.get key).map (fun account => ⟨key, account, world.origin key⟩)

/-- Only the `context.slot` of one handler is that of the account. -/
def contextSlot (request : Request) (slot : Nat) (served : Served) : Nat :=
  match server, request.method with
  | .miniAgave, .getAccountInfo => served.account.slot
  | _, _ => slot

/-- One turn of the loop over the keys. A miss is a null in one handler and the end in the
others. -/
def lookUp (world : World) (request : Request) (slot : Nat) (kv : Value) (left : List Value)
    (found : List Lookup) : Handler :=
  match (keyOf kv).bind (getAccount world) with
  | some served =>
      .reading request (contextSlot server request slot served) left
        (found ++ [⟨keyOf kv, some served⟩])
  | none =>
      match server, request.method with
      | .miniAgave, .getMultipleAccounts => .reading request slot left (found ++ [⟨keyOf kv, none⟩])
      | _, _ => .answered request .proxied

def insert (world : World) (key : Pubkey) (acc : CachedAccount) (session : Option Nat)
    (moment : Nat) : World :=
  { world with
    accounts := world.accounts.insert key acc
    origin := Function.update world.origin key ⟨world.disconnects, session, moment⟩ }

/-- What arrives is what the chain had at that moment, and a session sends what is written after
its start. -/
def step (world : World) : Event → Except Unit World
  | .connected => .ok { world with connected := true }
  | .subscribed moment =>
      if world.streaming then .error ()
      else .ok { world with
        connected := true
        streaming := true
        session := world.session + 1
        since := moment }
  | .disconnected =>
      if world.streaming then
        .ok { world with streaming := false, disconnects := world.disconnects + 1 }
      else .error ()
  | .retrying =>
      if server = .simServer ∧ world.streaming = false then .ok { world with connected := false }
      else .error ()
  | .blockhashPolled slot =>
      if server = .miniAgave then
        .ok (if world.blockhashSlot < slot then
          { world with blockhashSlot := slot, connected := true } else world)
      else .error ()
  | .blockMeta slot => .ok { world with blockhashSlot := slot }
  | .push key acc slot moment =>
      if world.streaming ∧ world.since ≤ moment ∧ chain moment key = live acc then
        .ok (insert world key { acc with slot } (some world.session) moment)
      else .error ()
  | .poll key acc moment =>
      if server = .miniAgave ∧ chain moment key = some acc then
        .ok (insert world key { acc with slot := world.blockhashSlot } none moment)
      else .error ()
  | .request request => .ok { world with handler := beginRequest server world request }
  | .lookUp =>
      match world.handler with
      | .reading request slot (kv :: left) found =>
          .ok { world with handler := lookUp server world request slot kv left found }
      | _ => .error ()
  | .finish =>
      match world.handler with
      | .reading request slot [] found =>
          .ok { world with handler := .answered request (.ram slot found) }
      | _ => .error ()

def start : World where
  accounts := HashMap.empty
  connected := false
  blockhashSlot := 0
  handler := .idle
  streaming := false
  origin := fun _ => ⟨0, none, 0⟩
  disconnects := 0
  session := 0
  since := 0

end Steps

end Helios.RpcCache
