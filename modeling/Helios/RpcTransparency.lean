import Helios.Fallible
import Helios.RpcCache

/-! When an answer from RAM is one the upstream node would give, over every run of the feeds and
of the handlers. -/

namespace Helios.RpcCache

open GrpcFeed (AccountInfo CachedAccount)
open Runs

section Answers

variable (upstream : Upstream) (server : Server) (chain : Nat → Accounts)

/-- The JSON that all four handlers make of an account, whatever the options. -/
def toUi (account : CachedAccount) : UiAccount where
  lamports := account.lamports
  data := .binary (upstream.base64 account.data) .base64
  owner := account.owner.display
  executable := account.executable
  rentEpoch := account.rentEpoch

def ramValue (found : List Lookup) : List (Option UiAccount) :=
  found.map (fun lookup => lookup.hit.map (fun served => toUi upstream served.account))

/-- The node would have given the answer at a moment of the session, and none of the accounts in
it was kept from before a disconnect. -/
structure Transparent (world : World) (request : Request) (found : List Lookup) : Prop where
  upstream : ∃ moment, world.since ≤ moment ∧
    upstream.value (chain moment) request = some (ramValue upstream found)
  kept : ∀ lookup ∈ found, ∀ served, lookup.hit = some served →
    served.origin.disconnects = world.disconnects

/-- A step that answers from RAM answers so. -/
def Answers (world : World) (event : Event) (_ : World) : Prop :=
  match event, world.handler with
  | .finish, .reading request _ [] found => Transparent upstream chain world request found
  | _, _ => True

/-- The options ask for what the servers always give: all the data, in base64. -/
def Plain (request : Request) (acc : AccountInfo) : Prop :=
  match Upstream.encoding request.method request.config with
  | .base64 => Upstream.sliceData acc.data request.config.dataSlice = acc.data
  | .jsonParsed => upstream.parse acc = none
  | _ => False

/-- One account pushed in the session, and not as a closed one; or the chain had all of them, and
none of the missing ones, at one moment of it. -/
def AtOnce (world : World) (found : List Lookup) : Prop :=
  (∃ served, found.map Lookup.hit = [some served] ∧
    served.origin.session = some world.session ∧ served.account.lamports ≠ 0) ∨
  ∃ moment, world.since ≤ moment ∧ ∀ lookup ∈ found, ∀ key, lookup.key = some key →
    chain moment key = lookup.hit.map (fun served => served.account.toAccountInfo)

/-- When a request may be answered from RAM. -/
structure Allowed (world : World) (request : Request) (found : List Lookup) : Prop where
  few : request.method = .getMultipleAccounts → found.length ≤ upstream.maxMultipleAccounts
  valid : ∀ lookup ∈ found, lookup.key ≠ none
  plain : ∀ lookup ∈ found, ∀ served, lookup.hit = some served →
    Plain upstream request served.account.toAccountInfo
  kept : ∀ lookup ∈ found, ∀ served, lookup.hit = some served →
    served.origin.disconnects = world.disconnects
  atOnce : AtOnce chain world found

def Meets (world : World) (event : Event) (_ : World) : Prop :=
  match event, world.handler with
  | .finish, .reading request _ [] found => Allowed upstream chain world request found
  | _, _ => True

/-! What holds of the map and of a handler that is reading. -/

/-- An account pushed in the session is the one the chain had at that moment. -/
def FromChain (world : World) (served : Served) : Prop :=
  (∀ session, served.origin.session = some session → session ≤ world.session) ∧
    (served.origin.session = some world.session → world.since ≤ served.origin.moment ∧
      chain served.origin.moment served.key = live served.account.toAccountInfo)

def Reads (world : World) : Handler → Prop
  | .reading request _ left found =>
      request.keys.map (List.map keyOf) = some (found.map Lookup.key ++ left.map keyOf) ∧
        ∀ lookup ∈ found, ∀ served, lookup.hit = some served →
          lookup.key = some served.key ∧ FromChain chain world served
  | _ => True

structure Sound (world : World) : Prop where
  entries : ∀ key served, getAccount world key = some served → FromChain chain world served
  reads : Reads chain world world.handler

theorem getAccount_key (world : World) (key : Pubkey) (served : Served)
    (found : getAccount world key = some served) : served.key = key := by
  obtain ⟨account, _, same⟩ := Option.map_eq_some_iff.mp found
  rw [← same]

theorem reads_begin (world : World) (request : Request) :
    Reads chain world (beginRequest server world request) := by
  have first : ∀ slot keys, request.keys = some keys →
      Reads chain world (.reading request slot keys []) := by
    intro slot keys known
    refine ⟨?_, fun lookup absurd => nomatch absurd⟩
    rw [known]
    rfl
  rw [beginRequest]
  split
  · trivial
  · next keys known =>
      split
      · split
        · exact first _ keys known
        · trivial
      · split
        · trivial
        · exact first _ keys known
      · exact first _ keys known

theorem reads_lookUp (world : World) (sound : Sound chain world) (request : Request) (slot : Nat)
    (kv : Value) (left : List Value) (found : List Lookup)
    (reading : world.handler = .reading request slot (kv :: left) found) :
    Reads chain world (lookUp server world request slot kv left found) := by
  have reads := sound.reads
  rw [reading] at reads
  obtain ⟨keys, hits⟩ := reads
  have shifted : ∀ hit : Option Served, request.keys.map (List.map keyOf) =
      some ((found ++ [Lookup.mk (keyOf kv) hit]).map Lookup.key ++ left.map keyOf) := by
    intro hit
    rw [keys, List.map_append, List.append_assoc]
    rfl
  unfold lookUp
  split
  · next served hit =>
      refine ⟨shifted _, ?_⟩
      intro lookup member other same
      rcases List.mem_append.mp member with before | last
      · exact hits lookup before other same
      · rw [List.mem_singleton.mp last] at same ⊢
        cases same
        obtain ⟨key, parsed, got⟩ := Option.bind_eq_some_iff.mp hit
        rw [parsed]
        exact ⟨congrArg some (getAccount_key world key served got).symm,
          sound.entries key served got⟩
  · split
    · refine ⟨shifted _, ?_⟩
      intro lookup member other same
      rcases List.mem_append.mp member with before | last
      · exact hits lookup before other same
      · rw [List.mem_singleton.mp last] at same
        cases same
    · trivial

/-- A step that leaves the map, the session and what the handler read alone. -/
theorem sound_of_same (before after : World) (sound : Sound chain before)
    (accounts : after.accounts = before.accounts) (origin : after.origin = before.origin)
    (session : after.session = before.session) (since : after.since = before.since)
    (reads : Reads chain before after.handler) : Sound chain after := by
  have same : ∀ served, FromChain chain before served → FromChain chain after served := by
    intro served fromChain
    rw [FromChain, session, since]
    exact fromChain
  constructor
  · intro key served found
    rw [getAccount, accounts, origin] at found
    exact same served (sound.entries key served found)
  · cases phase : after.handler with
    | idle => trivial
    | answered request response => trivial
    | reading request slot left found =>
        rw [phase] at reads
        refine ⟨reads.1, fun lookup member served hit => ?_⟩
        obtain ⟨own, fromChain⟩ := reads.2 lookup member served hit
        exact ⟨own, same served fromChain⟩

theorem sound_insert (world : World) (sound : Sound chain world) (key : Pubkey)
    (acc : CachedAccount) (session : Option Nat) (moment : Nat)
    (fromChain : FromChain chain world ⟨key, acc, ⟨world.disconnects, session, moment⟩⟩) :
    Sound chain (insert world key acc session moment) := by
  constructor
  · intro other served found
    obtain ⟨account, known, same⟩ := Option.map_eq_some_iff.mp found
    by_cases own : other = key
    · have here : (insert world key acc session moment).origin key =
          ⟨world.disconnects, session, moment⟩ := Function.update_self key _ world.origin
      rw [own, insert, HashMap.get_insert] at known
      rw [← same, ← Option.some.inj known, own, here]
      exact fromChain
    · have there : (insert world key acc session moment).origin other = world.origin other :=
        Function.update_of_ne own _ world.origin
      rw [insert, HashMap.get_insert_ne _ _ _ _ own] at known
      apply sound.entries other served
      rw [getAccount, known, ← same, there]
      rfl
  · exact sound.reads

/-- A new session: nothing in the map or in a handler's hands is from it. -/
theorem sound_subscribed (world : World) (sound : Sound chain world) (moment : Nat) :
    Sound chain { world with
      connected := true, streaming := true, session := world.session + 1, since := moment } := by
  have older : ∀ served, FromChain chain world served → FromChain chain { world with
      connected := true, streaming := true, session := world.session + 1, since := moment }
      served := by
    intro served fromChain
    constructor
    · intro session own
      exact (fromChain.1 session own).trans (Nat.le_succ _)
    · intro own
      exact absurd (fromChain.1 _ own) (Nat.not_succ_le_self _)
  constructor
  · intro key served found
    exact older served (sound.entries key served found)
  · have reads := sound.reads
    cases phase : world.handler with
    | idle => trivial
    | answered request response => trivial
    | reading request slot left found =>
        rw [phase] at reads
        refine ⟨reads.1, fun lookup member served hit => ?_⟩
        obtain ⟨own, fromChain⟩ := reads.2 lookup member served hit
        exact ⟨own, older served fromChain⟩

theorem sound_step (world : World) (event : Event) (next : World) (sound : Sound chain world)
    (done : step server chain world event = .ok next) : Sound chain next := by
  cases event with
  | connected =>
      rw [← Except.ok.inj done]
      exact sound_of_same chain world _ sound rfl rfl rfl rfl sound.reads
  | subscribed moment =>
      rw [step] at done
      split at done
      · cases done
      · rw [← Except.ok.inj done]
        exact sound_subscribed chain world sound moment
  | disconnected =>
      rw [step] at done
      split at done
      · rw [← Except.ok.inj done]
        exact sound_of_same chain world _ sound rfl rfl rfl rfl sound.reads
      · cases done
  | retrying =>
      rw [step] at done
      split at done
      · rw [← Except.ok.inj done]
        exact sound_of_same chain world _ sound rfl rfl rfl rfl sound.reads
      · cases done
  | blockhashPolled slot =>
      rw [step] at done
      split at done
      · rw [← Except.ok.inj done]
        split
        · exact sound_of_same chain world _ sound rfl rfl rfl rfl sound.reads
        · exact sound
      · cases done
  | blockMeta slot =>
      rw [← Except.ok.inj done]
      exact sound_of_same chain world _ sound rfl rfl rfl rfl sound.reads
  | push key acc slot moment =>
      rw [step] at done
      split at done
      · next arrives =>
          rw [← Except.ok.inj done]
          apply sound_insert chain world sound
          refine ⟨fun session own => ?_, fun _ => ⟨arrives.2.1, arrives.2.2⟩⟩
          rw [← Option.some.inj own]
      · cases done
  | poll key acc moment =>
      rw [step] at done
      split at done
      · rw [← Except.ok.inj done]
        apply sound_insert chain world sound
        exact ⟨(fun _ absurd => nomatch absurd), (fun absurd => nomatch absurd)⟩
      · cases done
  | request request =>
      rw [← Except.ok.inj done]
      exact sound_of_same chain world _ sound rfl rfl rfl rfl
        (reads_begin server chain world request)
  | lookUp =>
      rw [step] at done
      split at done
      · next request slot kv left found phase =>
          rw [← Except.ok.inj done]
          exact sound_of_same chain world _ sound rfl rfl rfl rfl
            (reads_lookUp server chain world sound request slot kv left found phase)
      · cases done
  | finish =>
      rw [step] at done
      split at done
      · rw [← Except.ok.inj done]
        exact sound_of_same chain world _ sound rfl rfl rfl rfl trivial
      · cases done

/-! Answers. -/

theorem encode_plain (request : Request) (account : CachedAccount)
    (plain : Plain upstream request account.toAccountInfo) :
    upstream.encode request.method request.config account.toAccountInfo =
      toUi upstream account := by
  have data : upstream.encodeData request.method request.config account.toAccountInfo =
      .binary (upstream.base64 account.data) .base64 := by
    rw [Plain] at plain
    rw [Upstream.encodeData]
    cases asked : Upstream.encoding request.method request.config with
    | base64 =>
        rw [asked] at plain
        simp only
        rw [plain]
    | jsonParsed =>
        rw [asked] at plain
        simp only
        rw [plain]
    | binary =>
        rw [asked] at plain
        cases plain
    | base58 =>
        rw [asked] at plain
        cases plain
    | base64Zstd =>
        rw [asked] at plain
        cases plain
  rw [Upstream.encode, data, toUi]

theorem mapM_eq_some {α β : Type} (f : α → Option β) (image : α → β) (inputs : List α)
    (each : ∀ input ∈ inputs, f input = some (image input)) :
    inputs.mapM f = some (inputs.map image) := by
  induction inputs with
  | nil => rfl
  | cons input rest ih =>
      rw [List.mapM_cons, each input List.mem_cons_self,
        ih (fun later member => each later (List.mem_cons_of_mem _ member))]
      rfl

/-- What was found was there at one moment of the session. -/
theorem atOnce_moment (world : World) (request : Request) (slot : Nat) (left : List Value)
    (found : List Lookup) (reads : Reads chain world (.reading request slot left found))
    (atOnce : AtOnce chain world found) :
    ∃ moment, world.since ≤ moment ∧ ∀ lookup ∈ found, ∀ key, lookup.key = some key →
      chain moment key = lookup.hit.map (fun served => served.account.toAccountInfo) := by
  rcases atOnce with ⟨served, only, own, lamports⟩ | together
  · obtain ⟨lookup, alone, hit⟩ := List.map_eq_singleton_iff.mp only
    have member : lookup ∈ found := by
      rw [alone]
      exact List.mem_singleton_self lookup
    obtain ⟨known, -, fromChain⟩ := reads.2 lookup member served hit
    obtain ⟨inSession, written⟩ := fromChain own
    refine ⟨served.origin.moment, inSession, ?_⟩
    intro other inside key asked
    rw [alone, List.mem_singleton] at inside
    rw [inside, known] at asked
    rw [inside, hit, ← Option.some.inj asked, written, live, if_neg lamports]
    rfl
  · exact together

theorem value_eq (world : World) (request : Request) (slot : Nat) (found : List Lookup)
    (reads : Reads chain world (.reading request slot [] found))
    (allowed : Allowed upstream chain world request found) (moment : Nat)
    (there : ∀ lookup ∈ found, ∀ key, lookup.key = some key →
      chain moment key = lookup.hit.map (fun served => served.account.toAccountInfo)) :
    upstream.value (chain moment) request = some (ramValue upstream found) := by
  obtain ⟨keys, known, same⟩ := Option.map_eq_some_iff.mp reads.1
  rw [List.map_nil, List.append_nil] at same
  have few : ¬ (request.method = .getMultipleAccounts ∧
      upstream.maxMultipleAccounts < keys.length) := by
    intro many
    have count : keys.length = found.length := by
      have lengths := congrArg List.length same
      rwa [List.length_map, List.length_map] at lengths
    have bound := allowed.few many.1
    omega
  rw [Upstream.value, known, Option.bind_some, if_neg few]
  have answer : (keys.map keyOf).mapM (Option.map (fun key => (chain moment key).map
      (upstream.encode request.method request.config))) = some (ramValue upstream found) := by
    rw [same, List.mapM_map]
    apply mapM_eq_some
    intro lookup member
    obtain ⟨key, asked⟩ := Option.ne_none_iff_exists'.mp (allowed.valid lookup member)
    rw [Function.comp_apply, asked, Option.map_some, there lookup member key asked, Option.map_map]
    cases hit : lookup.hit with
    | none => rfl
    | some served =>
        have encoded := encode_plain upstream request served.account
          (allowed.plain lookup member served hit)
        rw [Option.map_some, Option.map_some, Function.comp_apply, encoded]
  rw [List.mapM_map] at answer
  exact answer

theorem transparent_of_allowed (world : World) (sound : Sound chain world) (request : Request)
    (slot : Nat) (found : List Lookup) (reading : world.handler = .reading request slot [] found)
    (allowed : Allowed upstream chain world request found) :
    Transparent upstream chain world request found := by
  have reads := sound.reads
  rw [reading] at reads
  obtain ⟨moment, inSession, there⟩ :=
    atOnce_moment chain world request slot [] found reads allowed.atOnce
  exact ⟨⟨moment, inSession, value_eq upstream chain world request slot found reads allowed moment
    there⟩, allowed.kept⟩

theorem sound_start : Sound chain start :=
  ⟨(fun _ _ absurd => nomatch absurd), trivial⟩

theorem keyOf_display (key : Pubkey) : keyOf (.string key.display) = some key := by
  rw [keyOf, Value.asStr, Option.bind_some, Pubkey.fromStr_display]

def accountRequest (key : Pubkey) (encoding : UiAccountEncoding) : Request :=
  ⟨.getAccountInfo, .string key.display, ⟨some encoding, none⟩⟩

/-- What the node answers for one account. -/
theorem value_account (accounts : Accounts) (key : Pubkey) (encoding : UiAccountEncoding) :
    upstream.value accounts (accountRequest key encoding) =
      some [(accounts key).map (upstream.encode .getAccountInfo ⟨some encoding, none⟩)] := by
  rw [Upstream.value, accountRequest]
  simp only [Request.keys, Option.bind_some, List.mapM_cons, List.mapM_nil, keyOf_display]
  rfl

/-- The handler of a request for one account that is there. -/
def readOne (request : Request) (served : Served) : Handler :=
  .reading request (contextSlot server request 0 served) [] [⟨some served.key, some served⟩]

theorem read_account (world : World) (key : Pubkey) (served : Served)
    (got : getAccount world key = some served) (encoding : UiAccountEncoding)
    (usable : server = .miniAgave ∨ world.connected = true) :
    [Event.request (accountRequest key encoding), .lookUp].foldlM (step server chain) world =
      .ok { world with handler := readOne server (accountRequest key encoding) served } := by
  have began : beginRequest server world (accountRequest key encoding) =
      .reading (accountRequest key encoding) 0 [.string key.display] [] := by
    cases server with
    | miniAgave => rfl
    | simServer =>
        have connected : world.connected = true := usable.resolve_left (fun absurd => nomatch absurd)
        simp [beginRequest, accountRequest, Request.keys, connected]
  have looked : ∀ between : World, getAccount between key = some served →
      lookUp server between (accountRequest key encoding) 0 (.string key.display) [] [] =
        readOne server (accountRequest key encoding) served := by
    intro between same
    unfold lookUp
    rw [keyOf_display, Option.bind_some, same, readOne, getAccount_key between key served same]
    rfl
  rw [List.foldlM_cons, step, began, Fallible.ok_bind, List.foldlM_cons, step]
  simp only
  rw [looked { world with
    handler := .reading (accountRequest key encoding) 0 [.string key.display] [] } got]
  rfl

theorem not_along_of_account (before : List Event) (world : World)
    (ran : before.foldlM (step server chain) start = .ok world) (key : Pubkey) (served : Served)
    (got : getAccount world key = some served) (encoding : UiAccountEncoding)
    (usable : server = .miniAgave ∨ world.connected = true)
    (wrong : ¬ Transparent upstream chain world (accountRequest key encoding)
      [⟨some served.key, some served⟩]) :
    ¬ Along (step server chain) (Answers upstream chain) start
      (before ++ [.request (accountRequest key encoding), .lookUp] ++ [.finish]) := by
  apply not_along (step server chain) _ start { world with
    handler := readOne server (accountRequest key encoding) served } _ _ .finish _ rfl
  · exact fun transparent => wrong ⟨transparent.upstream, transparent.kept⟩
  · rw [List.foldlM_append, ran]
    exact read_account server chain world key served got encoding usable

end Answers

/-! Runs with a wrong answer. -/

def base64Digit (n : Nat) : Char :=
  "ABCDEFGHIJKLMNOPQRSTUVWXYZabcdefghijklmnopqrstuvwxyz0123456789+/".toList.getD n 'A'

def base64Text : List UInt8 → List Char
  | [] => []
  | [a] => [base64Digit (a.toNat / 4), base64Digit (a.toNat % 4 * 16), '=', '=']
  | [a, b] => [base64Digit (a.toNat / 4), base64Digit (a.toNat % 4 * 16 + b.toNat / 16),
      base64Digit (b.toNat % 16 * 4), '=']
  | a :: b :: c :: rest => [base64Digit (a.toNat / 4),
      base64Digit (a.toNat % 4 * 16 + b.toNat / 16),
      base64Digit (b.toNat % 16 * 4 + c.toNat / 64), base64Digit (c.toNat % 64)] ++ base64Text rest

/-- A node that can parse token accounts. It is asked for no other encoding than base64. -/
def tokenNode : Upstream where
  base58 := fun _ => ""
  base64 := fun data => String.ofList (base64Text data)
  base64Zstd := fun _ => ""
  parse := fun acc => if acc.data.length = 165 then some "spl-token account" else none
  maxMultipleAccounts := 100

theorem parse_token (acc : AccountInfo) (long : acc.data.length = 165) :
    tokenNode.parse acc = some "spl-token account" := if_pos long

def vault : AccountInfo := ⟨2039280, List.replicate 165 0, tokenProgramId, false, 0⟩

def closed : AccountInfo := ⟨0, [], default, false, 0⟩

/-- One vault is closed at the moment 5, the other one stays. -/
def vaultChain (moment : Nat) (key : Pubkey) : Option AccountInfo :=
  if key = .ofNat 1 ∧ moment < 5 ∨ key = .ofNat 2 then some vault else none

def subscribed : World :=
  { start with connected := true, streaming := true, session := 1, since := 1 }

/-- The vault was pushed in the first session. -/
def pushedWorld : World := insert subscribed (.ofNat 1) { vault with slot := 7 } (some 1) 2

def closedWorld : World := insert pushedWorld (.ofNat 1) { closed with slot := 8 } (some 1) 5

/-- A second session, in which nothing was pushed. -/
def keptWorld : World :=
  { pushedWorld with
    connected := true, streaming := true, disconnects := 1, session := 2, since := 9 }

def pushed : List Event := [.connected, .subscribed 1] ++ [.push (.ofNat 1) vault 7 2]

def pushedClosed : List Event := pushed ++ [.push (.ofNat 1) closed 8 5]

def keptOver : List Event := pushed ++ [.disconnected, .retrying, .connected, .subscribed 9]

theorem step_push (server : Server) (chain : Nat → Accounts) (world : World) (key : Pubkey)
    (acc : AccountInfo) (slot moment : Nat) (streaming : world.streaming = true)
    (inSession : world.since ≤ moment) (written : chain moment key = live acc) :
    [Event.push key acc slot moment].foldlM (step server chain) world =
      .ok (insert world key { acc with slot } (some world.session) moment) := by
  rw [List.foldlM_cons, step, if_pos ⟨streaming, inSession, written⟩]
  rfl

theorem pushed_run (server : Server) :
    pushed.foldlM (step server vaultChain) start = .ok pushedWorld := by
  have first : [Event.connected, .subscribed 1].foldlM (step server vaultChain) start =
      .ok subscribed := rfl
  rw [pushed, List.foldlM_append, first, Fallible.ok_bind]
  exact step_push server vaultChain subscribed (.ofNat 1) vault 7 2 rfl (by decide)
    (by decide +kernel)

theorem pushedClosed_run (server : Server) :
    pushedClosed.foldlM (step server vaultChain) start = .ok closedWorld := by
  rw [pushedClosed, List.foldlM_append, pushed_run, Fallible.ok_bind]
  exact step_push server vaultChain pushedWorld (.ofNat 1) closed 8 5 rfl (by decide)
    (by decide +kernel)

theorem reconnect_run (chain : Nat → Accounts) (world : World) (moment : Nat)
    (streaming : world.streaming = true) :
    [Event.disconnected, .retrying, .connected, .subscribed moment].foldlM
        (step .simServer chain) world =
      .ok { world with
        connected := true, streaming := true, disconnects := world.disconnects + 1
        session := world.session + 1, since := moment } := by
  rw [List.foldlM_cons, step, if_pos streaming]
  rfl

theorem keptOver_run :
    keptOver.foldlM (step .simServer vaultChain) start = .ok keptWorld := by
  rw [keptOver, List.foldlM_append, pushed_run, Fallible.ok_bind]
  exact reconnect_run vaultChain pushedWorld 9 rfl

theorem vaultChain_some (moment : Nat) (key : Pubkey) (acc : AccountInfo)
    (there : vaultChain moment key = some acc) : vault = acc := by
  rw [vaultChain] at there
  split at there
  · exact Option.some.inj there
  · cases there

def oneOf (slot : Nat) (acc : AccountInfo) (moment : Nat) : Served :=
  ⟨.ofNat 1, { acc with slot }, ⟨0, some 1, moment⟩⟩

/-! The failing answers: a sniper's request, a closed account, one kept from before a disconnect,
and one that is not in the map. -/

theorem sniper_request_wrong :
    ¬ Along (step .simServer vaultChain) (Answers tokenNode vaultChain) start
      (pushed ++ [.request (accountRequest (.ofNat 1) .jsonParsed), .lookUp] ++ [.finish]) := by
  apply not_along_of_account tokenNode .simServer vaultChain pushed _ (pushed_run .simServer)
    (.ofNat 1) (oneOf 7 vault 2) rfl .jsonParsed (Or.inr rfl)
  intro transparent
  obtain ⟨moment, _, same⟩ := transparent.upstream
  rw [value_account] at same
  have answer := (List.cons.inj (Option.some.inj same)).1
  obtain ⟨acc, there, shown⟩ := Option.map_eq_some_iff.mp answer
  rw [← vaultChain_some moment (.ofNat 1) acc there] at shown
  have parsed : tokenNode.encodeData .getAccountInfo ⟨some .jsonParsed, none⟩ vault =
      .json "spl-token account" := by
    have known := parse_token vault List.length_replicate
    rw [Upstream.encodeData]
    simp only [Upstream.encoding, Option.getD_some, known]
  have data := congrArg UiAccount.data shown
  rw [Upstream.encode, parsed] at data
  cases data

theorem closed_account_shown :
    ¬ Along (step .miniAgave vaultChain) (Answers tokenNode vaultChain) start
      (pushedClosed ++ [.request (accountRequest (.ofNat 1) .base64), .lookUp] ++ [.finish]) := by
  apply not_along_of_account tokenNode .miniAgave vaultChain pushedClosed _
    (pushedClosed_run .miniAgave) (.ofNat 1) (oneOf 8 closed 5) rfl .base64 (Or.inl rfl)
  intro transparent
  obtain ⟨moment, _, same⟩ := transparent.upstream
  rw [value_account] at same
  have answer := (List.cons.inj (Option.some.inj same)).1
  obtain ⟨acc, there, shown⟩ := Option.map_eq_some_iff.mp answer
  rw [← vaultChain_some moment (.ofNat 1) acc there] at shown
  exact absurd (congrArg UiAccount.lamports shown) (by decide)

theorem kept_account_shown :
    ¬ Along (step .simServer vaultChain) (Answers tokenNode vaultChain) start
      (keptOver ++ [.request (accountRequest (.ofNat 1) .base64), .lookUp] ++ [.finish]) := by
  apply not_along_of_account tokenNode .simServer vaultChain keptOver _ keptOver_run
    (.ofNat 1) (oneOf 7 vault 2) rfl .base64 (Or.inr rfl)
  intro transparent
  exact absurd (transparent.kept _ List.mem_cons_self _ rfl) (by decide)

def missingRequest : Request :=
  ⟨.getMultipleAccounts, .array [.string (Pubkey.ofNat 2).display], ⟨none, none⟩⟩

/-- A key that is not held is looked up without an account. -/
theorem lookUp_absent (world : World) (key : Pubkey) (absent : getAccount world key = none)
    (request : Request) (many : request.method = .getMultipleAccounts) (slot : Nat) :
    lookUp .miniAgave world request slot (.string key.display) [] [] =
      .reading request slot [] [⟨some key, none⟩] := by
  simp only [lookUp, keyOf_display, Option.bind_some, absent, many, List.nil_append]

theorem missing_run :
    (pushed ++ [Event.request missingRequest, .lookUp]).foldlM (step .miniAgave vaultChain)
        start =
      .ok { pushedWorld with
        handler := .reading missingRequest 0 [] [⟨some (.ofNat 2), none⟩] } := by
  have began : beginRequest .miniAgave pushedWorld missingRequest =
      .reading missingRequest 0 [.string (Pubkey.ofNat 2).display] [] := rfl
  rw [List.foldlM_append, pushed_run, Fallible.ok_bind, List.foldlM_cons, step, began,
    Fallible.ok_bind, List.foldlM_cons, step.eq_def]
  simp only
  rw [lookUp_absent { pushedWorld with
    handler := .reading missingRequest 0 [.string (Pubkey.ofNat 2).display] [] } (.ofNat 2) rfl
    missingRequest rfl]
  rfl

/-- What the node answers for a list of one account. -/
theorem value_accounts (accounts : Accounts) (key : Pubkey) :
    tokenNode.value accounts ⟨.getMultipleAccounts, .array [.string key.display], ⟨none, none⟩⟩ =
      some [(accounts key).map (tokenNode.encode .getMultipleAccounts ⟨none, none⟩)] := by
  rw [Upstream.value]
  simp only [Request.keys, Value.asArray, Option.bind_some, List.mapM_cons, List.mapM_nil,
    keyOf_display]
  rfl

theorem missing_account_null :
    ¬ Along (step .miniAgave vaultChain) (Answers tokenNode vaultChain) start
      (pushed ++ [.request missingRequest, .lookUp] ++ [.finish]) := by
  apply not_along (step .miniAgave vaultChain) _ start _ _ _ .finish missing_run rfl
  intro transparent
  obtain ⟨moment, _, same⟩ := Transparent.upstream transparent
  have there : vaultChain moment (.ofNat 2) = some vault := if_pos (Or.inr rfl)
  rw [missingRequest, value_accounts, there, Option.map_some] at same
  cases (List.cons.inj (Option.some.inj same)).1

def vaultRead : List Event := [.request (accountRequest (.ofNat 1) .base64), .lookUp]

theorem vault_allowed : Allowed tokenNode vaultChain
    { pushedWorld with
      handler := readOne .simServer (accountRequest (.ofNat 1) .base64) (oneOf 7 vault 2) }
    (accountRequest (.ofNat 1) .base64) [⟨some (.ofNat 1), some (oneOf 7 vault 2)⟩] where
  few := fun absurd => nomatch absurd
  valid := by
    intro lookup member
    rw [List.mem_singleton.mp member]
    exact Option.some_ne_none _
  plain := by
    intro lookup member served hit
    rw [List.mem_singleton.mp member] at hit
    rw [← Option.some.inj hit]
    rfl
  kept := by
    intro lookup member served hit
    rw [List.mem_singleton.mp member] at hit
    rw [← Option.some.inj hit]
    rfl
  atOnce := Or.inl ⟨oneOf 7 vault 2, rfl, rfl, by decide⟩

theorem vault_meets : Along (step .simServer vaultChain) (Meets tokenNode vaultChain) start
    (pushed ++ vaultRead ++ [.finish]) := by
  apply along_append_of
  · intro first done
    refine ⟨trivial, fun second done => ⟨trivial, fun third done => ⟨trivial, ?_⟩⟩⟩
    exact fun fourth done => ⟨trivial, fun fifth done => ⟨trivial, trivial⟩⟩
  · intro middle ran
    have read := read_account .simServer vaultChain pushedWorld (.ofNat 1) (oneOf 7 vault 2) rfl
      .base64 (Or.inr rfl)
    rw [List.foldlM_append, pushed_run, Fallible.ok_bind, vaultRead, read] at ran
    rw [← Except.ok.inj ran]
    exact fun next done => ⟨vault_allowed, trivial⟩

end Helios.RpcCache
