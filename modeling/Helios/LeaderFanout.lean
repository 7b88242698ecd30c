import Helios.KeyText
import Helios.RouteDedup

/-! The two senders that hand a transaction to the leaders of the coming slots. Both keep a
schedule of leaders and the leaders' addresses, which they fetch with several calls while the
chain goes on and other threads send. -/

namespace Helios.LeaderFanout

open Runs

structure SocketAddr where
  ip : Nat
  port : Nat
  deriving DecidableEq

/-- Who leads each slot, and what a node answers of it. A schedule is asked for by any slot of
its epoch and counts slots from the first of the epoch. -/
structure Chain where
  leader : Nat → Pubkey
  epochStart : Nat → Nat
  schedule : Nat → List (String × List Nat)
  epochStart_le : ∀ slot, epochStart slot ≤ slot
  listed : ∀ slot, ∀ entry ∈ schedule slot, ∀ key, Pubkey.fromStr entry.1 = some key →
    ∀ index ∈ entry.2, leader (epochStart slot + index) = key

/-! Looking for leaders slot by slot. -/

section Lookahead

variable {A : Type}

/-- Whom a sender found. The slot is a history. -/
structure Target (A : Type) where
  slot : Nat
  leader : Pubkey
  address : A

/-- What one more slot adds: its leader, if it is known and new. -/
def collect (schedule : HashMap Nat Pubkey) (addresses : HashMap Pubkey A)
    (found : List (Target A)) (slot : Nat) : List (Target A) :=
  match HashMap.get schedule slot with
  | none => found
  | some leader =>
      match HashMap.get addresses leader with
      | none => found
      | some address =>
          if leader ∈ found.map Target.leader then found else found ++ [⟨slot, leader, address⟩]

/-- A few leaders, each once, in the order of their slots. -/
structure Collected (found : List (Target A)) (slot window limit : Nat) : Prop where
  within : ∀ target ∈ found, slot ≤ target.slot ∧ target.slot < slot + window
  order : found.Pairwise (fun earlier later => earlier.slot < later.slot)
  distinct : (found.map Target.leader).Nodup
  few : found.length ≤ limit

theorem collected_nil (slot limit : Nat) : Collected ([] : List (Target A)) slot 0 limit where
  within := by simp
  order := List.Pairwise.nil
  distinct := List.nodup_nil
  few := Nat.zero_le _

/-- What was there, or a new leader of the slot. -/
theorem collect_cases (schedule : HashMap Nat Pubkey) (addresses : HashMap Pubkey A)
    (found : List (Target A)) (slot : Nat) :
    collect schedule addresses found slot = found ∨
      ∃ leader address, HashMap.get schedule slot = some leader ∧
        HashMap.get addresses leader = some address ∧ leader ∉ found.map Target.leader ∧
        collect schedule addresses found slot = found ++ [⟨slot, leader, address⟩] := by
  rw [collect]
  split
  · exact Or.inl rfl
  · next leader led =>
      split
      · exact Or.inl rfl
      · next address known =>
          by_cases old : leader ∈ found.map Target.leader
          · exact Or.inl (if_pos old)
          · exact Or.inr ⟨leader, address, led, known, old, if_neg old⟩

theorem collected_collect (schedule : HashMap Nat Pubkey) (addresses : HashMap Pubkey A)
    (found : List (Target A)) (slot window limit : Nat) (room : found.length < limit)
    (collected : Collected found slot window limit) :
    Collected (collect schedule addresses found (slot + window)) slot (window + 1) limit := by
  rcases collect_cases schedule addresses found (slot + window) with same | ⟨leader, address, _,
    _, new, same⟩
  · rw [same]
    refine { collected with within := ?_ }
    intro target member
    have inside := collected.within target member
    omega
  · rw [same]
    constructor
    · intro target member
      rcases List.mem_append.mp member with old | last
      · have inside := collected.within target old
        omega
      · rw [List.mem_singleton.mp last]
        dsimp only
        omega
    · rw [List.pairwise_append]
      refine ⟨collected.order, List.pairwise_singleton _ _, ?_⟩
      intro earlier member later last
      rw [List.mem_singleton.mp last]
      exact (collected.within earlier member).2
    · rw [List.map_append, List.nodup_append]
      refine ⟨collected.distinct, List.nodup_singleton _, ?_⟩
      intro earlier member last single same
      rw [List.map_singleton, List.mem_singleton] at single
      rw [same, single] at member
      exact new member
    · rw [List.length_append]
      exact room

/-- Every leader of these slots whose address is known is among the targets. -/
def Complete (schedule : HashMap Nat Pubkey) (addresses : HashMap Pubkey A)
    (found : List (Target A)) (slot window : Nat) : Prop :=
  ∀ offset, offset < window → ∀ leader, HashMap.get schedule (slot + offset) = some leader →
    HashMap.get addresses leader ≠ none → leader ∈ found.map Target.leader

theorem complete_collect (schedule : HashMap Nat Pubkey) (addresses : HashMap Pubkey A)
    (found : List (Target A)) (slot window : Nat)
    (complete : Complete schedule addresses found slot window) :
    Complete schedule addresses (collect schedule addresses found (slot + window)) slot
      (window + 1) := by
  intro offset inside leader led known
  rcases Nat.lt_succ_iff_lt_or_eq.mp inside with before | last
  · have member := complete offset before leader led known
    rcases collect_cases schedule addresses found (slot + window) with same | ⟨_, _, _, _, _, same⟩
    · rwa [same]
    · rw [same, List.map_append]
      exact List.mem_append_left _ member
  · rw [last] at led
    cases held : HashMap.get addresses leader with
    | none => exact absurd held known
    | some address =>
        simp only [collect, led, held]
        split
        · next old => exact old
        · simp

/-- A target is a leader of the schedule with its address. -/
def Listed (schedule : HashMap Nat Pubkey) (addresses : HashMap Pubkey A)
    (target : Target A) : Prop :=
  HashMap.get schedule target.slot = some target.leader ∧
    HashMap.get addresses target.leader = some target.address

theorem listed_collect (schedule : HashMap Nat Pubkey) (addresses : HashMap Pubkey A)
    (found : List (Target A)) (slot : Nat) (target : Target A)
    (member : target ∈ collect schedule addresses found slot) :
    target ∈ found ∨ Listed schedule addresses target := by
  rcases collect_cases schedule addresses found slot with same | ⟨leader, address, led, known, _,
    same⟩
  · exact Or.inl (same ▸ member)
  · rw [same] at member
    rcases List.mem_append.mp member with old | last
    · exact Or.inl old
    · rw [List.mem_singleton.mp last]
      exact Or.inr ⟨led, known⟩

end Lookahead

/-- A schedule in slots of the chain, counted from the first slot of an epoch. -/
def absolute (raw : List (String × List Nat)) (epochStart : Nat) : List (Nat × Pubkey) :=
  raw.flatMap (fun entry =>
    match Pubkey.fromStr entry.1 with
    | none => []
    | some key => entry.2.map (fun index => (epochStart + index, key)))

theorem mem_absolute (raw : List (String × List Nat)) (epochStart : Nat)
    (entry : Nat × Pubkey) (member : entry ∈ absolute raw epochStart) :
    ∃ listed ∈ raw, Pubkey.fromStr listed.1 = some entry.2 ∧
      ∃ index ∈ listed.2, entry.1 = epochStart + index := by
  rcases List.mem_flatMap.mp member with ⟨listed, inside, made⟩
  cases parsed : Pubkey.fromStr listed.1 with
  | none => simp [parsed] at made
  | some key =>
      simp only [parsed, List.mem_map] at made
      rcases made with ⟨index, counted, rfl⟩
      exact ⟨listed, inside, parsed, index, counted, rfl⟩

/-- A chain whose slots are all led by one node. -/
def oneLeader (text : String) (named : Pubkey.fromStr text = some default) : Chain where
  leader := fun _ => default
  epochStart := fun _ => 0
  schedule := fun _ => [(text, [5])]
  epochStart_le := fun slot => Nat.zero_le slot
  listed := by
    intro slot entry member key parsed index _
    rw [List.mem_singleton.mp member, named] at parsed
    exact Option.some.inj parsed

/-! The sender that fetches everything before it replaces what it holds. -/

namespace TpuSender

def cacheTtl : Nat := RouteDedup.seconds 30
def lookahead : Nat := 200

abbrev Nodes := List (String × Option SocketAddr)

structure Cache where
  nodeTpu : HashMap Pubkey SocketAddr
  leaderSchedule : HashMap Nat Pubkey
  refreshedAt : Option Instant

def Cache.stale (cache : Cache) (now : Instant) : Bool :=
  match cache.refreshedAt with
  | none => true
  | some since => decide (cacheTtl < now - since)

/-- What a node answers to the call that is made; nothing is an error. -/
structure Reply where
  nodes : Option Nodes
  fallbackNodes : Option Nodes
  slot : Option Nat
  /-- No schedule, or the one asked for. -/
  schedule : Option Bool

/-- Where a thread stands in `maybe_refresh`, and after it. -/
inductive Stage where
  | check
  | clusterNodes
  | epochInfo (nodeTpu : HashMap Pubkey SocketAddr)
  | leaderSchedule (nodeTpu : HashMap Pubkey SocketAddr) (absoluteSlot slotIndex : Nat)
  | write (nodeTpu : HashMap Pubkey SocketAddr) (schedule : HashMap Nat Pubkey)
  | refreshed
  | done

/-- A thread that refreshes, and sends afterwards if it has a slot to send at. -/
structure Task where
  sendAt : Option Nat
  stage : Stage

/-- What was sent, and the cache it was looked up in. -/
structure Fanout where
  slot : Nat
  cache : Cache
  targets : List (Target SocketAddr)

/-- The last two fields are histories: the addresses that nodes answered, and what was sent. -/
structure World where
  cache : Cache
  tasks : List Task
  published : List (Pubkey × SocketAddr)
  fanouts : List Fanout

inductive Event where
  | send (currentSlot : Nat)
  | refresh
  | advance (place : Nat) (now : Instant) (reply : Reply)

/-- The nodes whose key and address can be read. -/
def tpuAddrs (nodes : Nodes) : List (Pubkey × SocketAddr) :=
  nodes.filterMap (fun node => do
    let key ← Pubkey.fromStr node.1
    let address ← node.2
    return (key, address))

def insertAll {K V : Type} [DecidableEq K] (map : HashMap K V) (entries : List (K × V)) :
    HashMap K V :=
  entries.foldl (fun map entry => map.insert entry.1 entry.2) map

/-- The loop of `next_tpu_addrs` over the slots that are left. -/
def nextTpuAddrs (cache : Cache) (fanout : Nat) :
    Nat → Nat → List (Target SocketAddr) → List (Target SocketAddr)
  | 0, _, found => found
  | left + 1, slot, found =>
      if found.length < fanout then
        nextTpuAddrs cache fanout left (slot + 1)
          (collect cache.leaderSchedule cache.nodeTpu found slot)
      else found

/-- The next step of a thread. A refresh that fails leaves the cache as it is. -/
def advance (chain : Chain) (fanout : Nat) (world : World) (task : Task) (now : Instant)
    (reply : Reply) : World × Task :=
  match task.stage with
  | .check =>
      (world, { task with
        stage := if world.cache.stale now then .clusterNodes else .refreshed })
  | .clusterNodes =>
      match reply.nodes.orElse (fun _ => reply.fallbackNodes) with
      | none => (world, { task with stage := .refreshed })
      | some nodes =>
          ({ world with published := world.published ++ tpuAddrs nodes },
            { task with stage := .epochInfo (insertAll HashMap.empty (tpuAddrs nodes)) })
  | .epochInfo nodeTpu =>
      match reply.slot with
      | none => (world, { task with stage := .refreshed })
      | some slot =>
          (world, { task with
            stage := .leaderSchedule nodeTpu slot (slot - chain.epochStart slot) })
  | .leaderSchedule nodeTpu absoluteSlot slotIndex =>
      match reply.schedule with
      | none => (world, { task with stage := .refreshed })
      | some known =>
          let raw := if known then chain.schedule absoluteSlot else []
          let schedule := insertAll HashMap.empty (absolute raw (absoluteSlot - slotIndex))
          (world, { task with stage := .write nodeTpu schedule })
  | .write nodeTpu schedule =>
      ({ world with cache := ⟨nodeTpu, schedule, some now⟩ }, { task with stage := .refreshed })
  | .refreshed =>
      match task.sendAt with
      | none => (world, { task with stage := .done })
      | some slot =>
          ({ world with fanouts := world.fanouts ++
              [⟨slot, world.cache, nextTpuAddrs world.cache fanout lookahead slot []⟩] },
            { task with stage := .done })
  | .done => (world, task)

def step (chain : Chain) (fanout : Nat) (world : World) : Event → World
  | .send currentSlot => { world with tasks := world.tasks ++ [⟨some currentSlot, .check⟩] }
  | .refresh => { world with tasks := world.tasks ++ [⟨none, .check⟩] }
  | .advance place now reply =>
      match world.tasks[place]? with
      | none => world
      | some task =>
          let next := advance chain fanout world task now reply
          { next.1 with tasks := world.tasks.set place next.2 }

def start : World := ⟨⟨HashMap.empty, HashMap.empty, none⟩, [], [], []⟩

/-- The loop stops after a number of slots: the last one, or one that made up the number of
targets. -/
theorem nextTpuAddrs_spec (cache : Cache) (fanout slot left window : Nat)
    (found : List (Target SocketAddr)) (collected : Collected found slot window fanout)
    (complete : Complete cache.leaderSchedule cache.nodeTpu found slot window)
    (listed : ∀ target ∈ found, Listed cache.leaderSchedule cache.nodeTpu target) :
    ∃ reached, reached ≤ window + left ∧
      Collected (nextTpuAddrs cache fanout left (slot + window) found) slot reached fanout ∧
      Complete cache.leaderSchedule cache.nodeTpu
        (nextTpuAddrs cache fanout left (slot + window) found) slot reached ∧
      (∀ target ∈ nextTpuAddrs cache fanout left (slot + window) found,
        Listed cache.leaderSchedule cache.nodeTpu target) ∧
      (reached = window + left ∨
        (nextTpuAddrs cache fanout left (slot + window) found).length = fanout) := by
  induction left generalizing window found with
  | zero => exact ⟨window, le_rfl, collected, complete, listed, Or.inl rfl⟩
  | succ left ih =>
      rw [nextTpuAddrs]
      split
      · next room =>
          rcases ih (window + 1) _
            (collected_collect cache.leaderSchedule cache.nodeTpu found slot window fanout room
              collected)
            (complete_collect _ _ found slot window complete)
            (fun target member => (listed_collect _ _ found _ target member).elim
              (listed target) id) with ⟨reached, bound, all⟩
          have shift : window + 1 + left = window + (left + 1) := by omega
          rw [shift] at bound all
          exact ⟨reached, bound, all⟩
      · next full =>
          have few := collected.few
          exact ⟨window, by omega, collected, complete, listed, Or.inr (by omega)⟩

/-! Schedules and addresses are what the chain and the cluster say. -/

section Run

variable (chain : Chain)

def Truthful (schedule : HashMap Nat Pubkey) : Prop :=
  ∀ slot leader, HashMap.get schedule slot = some leader → chain.leader slot = leader

def Known (published : List (Pubkey × SocketAddr)) (nodeTpu : HashMap Pubkey SocketAddr) : Prop :=
  ∀ leader address, HashMap.get nodeTpu leader = some address → (leader, address) ∈ published

theorem get_insertAll {K V : Type} [DecidableEq K] (map : HashMap K V) (entries : List (K × V))
    (key : K) (value : V) (found : HashMap.get (insertAll map entries) key = some value) :
    HashMap.get map key = some value ∨ (key, value) ∈ entries := by
  induction entries generalizing map with
  | nil => exact Or.inl found
  | cons entry rest ih =>
      rcases ih (map.insert entry.1 entry.2) found with before | later
      · by_cases own : key = entry.1
        · rw [own, HashMap.get_insert] at before
          cases before
          exact Or.inr (own ▸ List.mem_cons_self)
        · rw [HashMap.get_insert_ne _ _ _ _ own] at before
          exact Or.inl before
      · exact Or.inr (List.mem_cons_of_mem _ later)

/-- A schedule asked for by a slot, counted from the start of that slot's epoch. -/
theorem truthful_absolute (slot : Nat) (known : Bool) :
    Truthful chain (insertAll HashMap.empty
      (absolute (if known then chain.schedule slot else [])
        (slot - (slot - chain.epochStart slot)))) := by
  have first : slot - (slot - chain.epochStart slot) = chain.epochStart slot :=
    Nat.sub_sub_self (chain.epochStart_le slot)
  intro led leader found
  rcases get_insertAll _ _ _ _ found with empty | member
  · rw [HashMap.get_empty] at empty
    cases empty
  · rcases mem_absolute _ _ _ member with ⟨entry, inside, parsed, index, counted, same⟩
    cases known with
    | false => cases inside
    | true =>
        rw [show led = chain.epochStart slot + index from same.trans (by rw [first])]
        exact chain.listed slot entry inside leader parsed index counted

def Staged (published : List (Pubkey × SocketAddr)) : Stage → Prop
  | .epochInfo nodeTpu => Known published nodeTpu
  | .leaderSchedule nodeTpu absoluteSlot slotIndex =>
      Known published nodeTpu ∧ slotIndex = absoluteSlot - chain.epochStart absoluteSlot
  | .write nodeTpu schedule => Known published nodeTpu ∧ Truthful chain schedule
  | _ => True

/-- The targets are the leaders of the next slots whose addresses the cache holds, as many as
are asked for or all of the window; each leads the slot it was found for. -/
structure Right (fanout : Nat) (published : List (Pubkey × SocketAddr)) (sent : Fanout) :
    Prop where
  targets : ∃ reached, reached ≤ lookahead ∧ Collected sent.targets sent.slot reached fanout ∧
    Complete sent.cache.leaderSchedule sent.cache.nodeTpu sent.targets sent.slot reached ∧
    (reached = lookahead ∨ sent.targets.length = fanout)
  leads : ∀ target ∈ sent.targets, chain.leader target.slot = target.leader
  addressed : ∀ target ∈ sent.targets, (target.leader, target.address) ∈ published

structure Holds (fanout : Nat) (world : World) : Prop where
  schedule : Truthful chain world.cache.leaderSchedule
  nodes : Known world.published world.cache.nodeTpu
  tasks : ∀ task ∈ world.tasks, Staged chain world.published task.stage
  fanouts : ∀ sent ∈ world.fanouts, Right chain fanout world.published sent

theorem staged_append (published more : List (Pubkey × SocketAddr)) (stage : Stage)
    (staged : Staged chain published stage) : Staged chain (published ++ more) stage := by
  have later : ∀ nodeTpu, Known published nodeTpu → Known (published ++ more) nodeTpu :=
    fun nodeTpu known leader address found => List.mem_append_left _ (known leader address found)
  cases stage with
  | epochInfo nodeTpu => exact later nodeTpu staged
  | leaderSchedule nodeTpu absoluteSlot slotIndex => exact ⟨later nodeTpu staged.1, staged.2⟩
  | write nodeTpu schedule => exact ⟨later nodeTpu staged.1, staged.2⟩
  | check => trivial
  | clusterNodes => trivial
  | refreshed => trivial
  | done => trivial

theorem right_append (fanout : Nat) (published more : List (Pubkey × SocketAddr)) (sent : Fanout)
    (right : Right chain fanout published sent) :
    Right chain fanout (published ++ more) sent :=
  { right with
    addressed := fun target member => List.mem_append_left _ (right.addressed target member) }

theorem right_nextTpuAddrs (fanout slot : Nat) (world : World)
    (holds : Holds chain fanout world) :
    Right chain fanout world.published
      ⟨slot, world.cache, nextTpuAddrs world.cache fanout lookahead slot []⟩ := by
  have spec := nextTpuAddrs_spec world.cache fanout slot lookahead 0 [] (collected_nil slot fanout)
    (fun offset none_ => absurd none_ (Nat.not_lt_zero offset)) (fun target none_ => by cases none_)
  rw [Nat.add_zero, Nat.zero_add] at spec
  rcases spec with ⟨reached, bound, collected, complete, listed, ends⟩
  constructor
  · exact ⟨reached, bound, collected, complete, ends⟩
  · intro target member
    exact holds.schedule _ _ (listed target member).1
  · intro target member
    exact holds.nodes _ _ (listed target member).2

theorem holds_advance (fanout : Nat) (world : World) (task : Task) (now : Instant)
    (reply : Reply) (holds : Holds chain fanout world)
    (staged : Staged chain world.published task.stage) :
    Holds chain fanout (advance chain fanout world task now reply).1 ∧
      Staged chain (advance chain fanout world task now reply).1.published
        (advance chain fanout world task now reply).2.stage := by
  rcases task with ⟨sendAt, stage⟩
  cases stage with
  | check =>
      refine ⟨holds, ?_⟩
      simp only [advance]
      split <;> trivial
  | clusterNodes =>
      simp only [advance]
      split
      · exact ⟨holds, trivial⟩
      · next nodes answered =>
          constructor
          · exact {
              schedule := holds.schedule
              nodes := fun leader address found =>
                List.mem_append_left _ (holds.nodes leader address found)
              tasks := fun task member => staged_append chain _ _ _ (holds.tasks task member)
              fanouts := fun sent member =>
                right_append chain fanout _ _ sent (holds.fanouts sent member) }
          · intro leader address found
            rcases get_insertAll _ _ _ _ found with empty | member
            · rw [HashMap.get_empty] at empty
              cases empty
            · exact List.mem_append_right _ member
  | epochInfo nodeTpu =>
      simp only [advance]
      split
      · exact ⟨holds, trivial⟩
      · exact ⟨holds, staged, rfl⟩
  | leaderSchedule nodeTpu absoluteSlot slotIndex =>
      simp only [advance]
      split
      · exact ⟨holds, trivial⟩
      · next known answered =>
          rcases staged with ⟨nodes, rfl⟩
          exact ⟨holds, nodes, truthful_absolute chain absoluteSlot known⟩
  | write nodeTpu schedule =>
      exact ⟨{ holds with schedule := staged.2, nodes := staged.1 }, trivial⟩
  | refreshed =>
      cases sendAt with
      | none => exact ⟨holds, trivial⟩
      | some slot =>
          refine ⟨{ holds with fanouts := ?_ }, trivial⟩
          intro sent member
          rcases List.mem_append.mp member with old | new
          · exact holds.fanouts sent old
          · rw [List.mem_singleton.mp new]
            exact right_nextTpuAddrs chain fanout slot world holds
  | done => exact ⟨holds, trivial⟩

theorem advance_tasks (fanout : Nat) (world : World) (task : Task) (now : Instant)
    (reply : Reply) : (advance chain fanout world task now reply).1.tasks = world.tasks := by
  rcases task with ⟨sendAt, stage⟩
  cases stage <;> simp only [advance] <;> try split
  all_goals rfl

theorem holds_step (fanout : Nat) (world : World) (event : Event)
    (holds : Holds chain fanout world) : Holds chain fanout (step chain fanout world event) := by
  have added : ∀ sendAt, Holds chain fanout
      { world with tasks := world.tasks ++ [⟨sendAt, .check⟩] } := by
    intro sendAt
    refine { holds with tasks := ?_ }
    intro task member
    rcases List.mem_append.mp member with old | new
    · exact holds.tasks task old
    · rw [List.mem_singleton.mp new]
      trivial
  cases event with
  | send currentSlot => exact added (some currentSlot)
  | refresh => exact added none
  | advance place now reply =>
      rw [step]
      cases found : world.tasks[place]? with
      | none => exact holds
      | some task =>
          rcases holds_advance chain fanout world task now reply holds
            (holds.tasks task (List.mem_of_getElem? found)) with ⟨next, staged⟩
          refine { next with tasks := ?_ }
          intro other member
          rcases List.mem_or_eq_of_mem_set member with old | new
          · exact next.tasks other (advance_tasks chain fanout world task now reply ▸ old)
          · exact new ▸ staged

end Run

/-- A send that refreshes the cache first. -/
def oneSend (text : String) : List Event :=
  let reply : Reply := ⟨some [(text, some ⟨1, 2⟩)], none, some 5, some true⟩
  .send 5 :: List.replicate 6 (.advance 0 0 reply)

theorem targets_oneSend (text : String) (named : Pubkey.fromStr text = some default) :
    (run (step (oneLeader text named) 1) start (oneSend text)).fanouts.map
      (fun sent => sent.targets.length) = [1] := by
  simp [oneSend, start, step, advance, Cache.stale, tpuAddrs, named, absolute, oneLeader,
    insertAll, nextTpuAddrs, lookahead, collect]

end TpuSender

/-! The sender that follows the slots of a stream and changes what it holds entry by entry. It
asks for the schedule of the current epoch before it asks which epoch that is. -/

namespace JetSender

def leaderLookahead : Nat := 4
def maxPacket : Nat := 1232

/-- The address for datagrams and the one for QUIC. -/
abbrev Addresses := SocketAddr × SocketAddr

/-- A node's key and its two addresses, as far as their texts can be read. -/
abbrev Node := String × Option SocketAddr × Option SocketAddr

/-- What a node answers to the call that is made. The outer option is an error, the inner one an
answer without a result. The schedule is that of the epoch of the node's slot. -/
structure Reply where
  nodes : Option (Option (List Node))
  scheduleAt : Option (Option Nat)
  slot : Option (Option Nat)

/-- Where the thread that refreshes stands, with the entries it has still to put in. -/
inductive Stage where
  | clusterNodes
  | nodes (rest : List (Pubkey × Addresses))
  | epochInfo (scheduleAt : Option Nat)
  | schedule (rest : List (Nat × Pubkey)) (absSlot : Nat)
  | done

/-- A send that has looked at some slots. -/
structure Send where
  slot : Nat
  offset : Nat
  found : List (Target Addresses)

/-- The last two fields are histories: the addresses put in, and the slots at which schedule
and epoch were read. -/
structure World where
  currentSlot : Nat
  leaderSchedule : HashMap Nat Pubkey
  leaderAddrs : HashMap Pubkey Addresses
  refresh : Stage
  sends : List Send
  registered : List (Pubkey × Addresses)
  readings : List (Nat × Nat)

inductive Event where
  | refresh
  | advance (reply : Reply)
  | slot (slot : Nat)
  | send (size : Nat)
  | lookUp (place : Nat)

def nodeAddresses (node : Node) : Option (Pubkey × Addresses) :=
  match Pubkey.fromStr node.1 with
  | none => none
  | some key =>
      let tpu := node.2.1.getD ⟨0, 0⟩
      let quic := node.2.2.getD { tpu with port := Nat.min (tpu.port + 6) 65535 }
      if 0 < tpu.port then some (key, tpu, quic) else none

/-- Where a transaction goes for one leader. -/
def datagrams (addresses : Addresses) : List SocketAddr :=
  if 0 < addresses.2.port ∧ addresses.2 ≠ addresses.1 then [addresses.1, addresses.2]
  else [addresses.1]

def advance (chain : Chain) (world : World) (reply : Reply) : World :=
  match world.refresh with
  | .clusterNodes =>
      match reply.nodes with
      | none => { world with refresh := .done }
      | some nodes =>
          { world with refresh := .nodes ((nodes.getD []).filterMap nodeAddresses) }
  | .nodes (node :: rest) =>
      { world with
        leaderAddrs := world.leaderAddrs.insert node.1 node.2
        registered := world.registered ++ [node]
        refresh := .nodes rest }
  | .nodes [] =>
      match reply.scheduleAt with
      | none => { world with refresh := .done }
      | some scheduleAt => { world with refresh := .epochInfo scheduleAt }
  | .epochInfo scheduleAt =>
      match reply.slot with
      | none => { world with refresh := .done }
      | some slot =>
          -- an answer without a result counts as slot 0
          let absSlot := slot.getD 0
          let slotIndex := absSlot - chain.epochStart absSlot
          match scheduleAt with
          | none => { world with refresh := .schedule [] absSlot }
          | some readAt =>
              { world with
                readings := world.readings ++ [(readAt, absSlot)]
                refresh := .schedule (absolute (chain.schedule readAt) (absSlot - slotIndex))
                  absSlot }
  | .schedule (entry :: rest) absSlot =>
      { world with
        leaderSchedule := world.leaderSchedule.insert entry.1 entry.2
        refresh := .schedule rest absSlot }
  | .schedule [] absSlot => { world with currentSlot := absSlot, refresh := .done }
  | .done => world

/-- One more slot of a send, unless it has enough. -/
def Send.lookUp (send : Send) (world : World) : Send :=
  if send.offset < leaderLookahead * 4 ∧ send.found.length < leaderLookahead then
    { send with
      offset := send.offset + 1
      found := collect world.leaderSchedule world.leaderAddrs send.found
        (send.slot + send.offset) }
  else send

def step (chain : Chain) (world : World) : Event → World
  | .refresh =>
      match world.refresh with
      | .done => { world with refresh := .clusterNodes }
      | _ => world
  | .advance reply => advance chain world reply
  | .slot slot => { world with currentSlot := Nat.max world.currentSlot slot }
  | .send size =>
      if maxPacket < size ∨ world.currentSlot = 0 then world
      else { world with sends := world.sends ++ [⟨world.currentSlot, 0, []⟩] }
  | .lookUp place => { world with sends := world.sends.modify place (Send.lookUp · world) }

def start : World := ⟨0, HashMap.empty, HashMap.empty, .done, [], [], []⟩

section Run

variable (chain : Chain)

/-- The leader of the slot, or that of the same place in another epoch, if schedule and epoch
were once read on two sides of an epoch's end. -/
def LedOrStraddled (readings : List (Nat × Nat)) (slot : Nat) (leader : Pubkey) : Prop :=
  chain.leader slot = leader ∨
    ∃ reading ∈ readings, chain.epochStart reading.1 ≠ chain.epochStart reading.2 ∧
      ∃ index, slot = chain.epochStart reading.2 + index ∧
        chain.leader (chain.epochStart reading.1 + index) = leader

theorem ledOrStraddled_append (readings more : List (Nat × Nat)) (slot : Nat) (leader : Pubkey)
    (led : LedOrStraddled chain readings slot leader) :
    LedOrStraddled chain (readings ++ more) slot leader := by
  rcases led with led | ⟨reading, member, straddled⟩
  · exact Or.inl led
  · exact Or.inr ⟨reading, List.mem_append_left _ member, straddled⟩

/-- What one reading adds to the schedule. -/
theorem ledOrStraddled_absolute (readAt absSlot : Nat) (readings : List (Nat × Nat))
    (entry : Nat × Pubkey)
    (member : entry ∈ absolute (chain.schedule readAt)
      (absSlot - (absSlot - chain.epochStart absSlot))) :
    LedOrStraddled chain (readings ++ [(readAt, absSlot)]) entry.1 entry.2 := by
  rw [Nat.sub_sub_self (chain.epochStart_le absSlot)] at member
  rcases mem_absolute _ _ _ member with ⟨listed, inside, parsed, index, counted, same⟩
  have led := chain.listed readAt listed inside entry.2 parsed index counted
  by_cases epoch : chain.epochStart readAt = chain.epochStart absSlot
  · left
    rw [same, ← epoch]
    exact led
  · exact Or.inr ⟨(readAt, absSlot), by simp, epoch, index, same, led⟩

/-- A send that goes to a few leaders of the next slots, each at an address it gave. -/
structure Aimed (readings : List (Nat × Nat)) (registered : List (Pubkey × Addresses))
    (send : Send) : Prop where
  started : send.slot ≠ 0
  window : send.offset ≤ leaderLookahead * 4
  collected : Collected send.found send.slot send.offset leaderLookahead
  leads : ∀ target ∈ send.found, LedOrStraddled chain readings target.slot target.leader
  addressed : ∀ target ∈ send.found, (target.leader, target.address) ∈ registered

structure Holds (world : World) : Prop where
  schedule : ∀ slot leader, HashMap.get world.leaderSchedule slot = some leader →
    LedOrStraddled chain world.readings slot leader
  addrs : ∀ leader addresses, HashMap.get world.leaderAddrs leader = some addresses →
    (leader, addresses) ∈ world.registered
  rest : ∀ rest absSlot, world.refresh = .schedule rest absSlot → ∀ entry ∈ rest,
    LedOrStraddled chain world.readings entry.1 entry.2
  sends : ∀ send ∈ world.sends, Aimed chain world.readings world.registered send

theorem holds_advance (world : World) (reply : Reply) (holds : Holds chain world) :
    Holds chain (advance chain world reply) := by
  have quiet : ∀ stage : Stage, (∀ rest absSlot, stage = .schedule rest absSlot → rest = []) →
      Holds chain { world with refresh := stage } := by
    intro stage none_
    refine { holds with rest := ?_ }
    intro rest absSlot same entry member
    rw [none_ rest absSlot same] at member
    cases member
  rw [advance]
  split
  · split
    · exact quiet _ (fun rest absSlot wrong => by cases wrong)
    · exact quiet _ (fun rest absSlot wrong => by cases wrong)
  · next node rest _ =>
      refine ⟨holds.schedule, ?_, (fun rest absSlot wrong => by cases wrong), ?_⟩
      · intro leader addresses found
        by_cases own : leader = node.1
        · rw [own, HashMap.get_insert] at found
          cases found
          rw [own]
          exact List.mem_append_right _ (List.mem_singleton_self _)
        · rw [HashMap.get_insert_ne _ _ _ _ own] at found
          exact List.mem_append_left _ (holds.addrs leader addresses found)
      · intro send member
        have aimed := holds.sends send member
        exact { aimed with
          addressed := fun target inside =>
            List.mem_append_left _ (aimed.addressed target inside) }
  · split
    · exact quiet _ (fun rest absSlot wrong => by cases wrong)
    · exact quiet _ (fun rest absSlot wrong => by cases wrong)
  · next scheduleAt _ =>
      split
      · exact quiet _ (fun rest absSlot wrong => by cases wrong)
      · next slot _ =>
          cases scheduleAt with
          | none => exact quiet _ (fun rest absSlot same => by cases same; rfl)
          | some readAt =>
              refine ⟨?_, holds.addrs, ?_, ?_⟩
              · intro slot leader found
                exact ledOrStraddled_append chain _ _ _ _ (holds.schedule slot leader found)
              · intro rest absSlot same entry member
                cases same
                exact ledOrStraddled_absolute chain readAt _ _ entry member
              · intro send member
                have aimed := holds.sends send member
                exact { aimed with
                  leads := fun target inside =>
                    ledOrStraddled_append chain _ _ _ _ (aimed.leads target inside) }
  · next entry rest absSlot stage =>
      have led := holds.rest _ _ stage
      refine { holds with schedule := ?_, rest := ?_ }
      · intro slot leader found
        by_cases own : slot = entry.1
        · rw [own, HashMap.get_insert] at found
          cases found
          rw [own]
          exact led entry List.mem_cons_self
        · rw [HashMap.get_insert_ne _ _ _ _ own] at found
          exact holds.schedule slot leader found
      · intro later slot same other member
        cases same
        exact led other (List.mem_cons_of_mem _ member)
  · exact { holds with rest := fun rest absSlot wrong => by cases wrong }
  · exact holds

theorem aimed_lookUp (world : World) (send : Send) (holds : Holds chain world)
    (aimed : Aimed chain world.readings world.registered send) :
    Aimed chain world.readings world.registered (send.lookUp world) := by
  rw [Send.lookUp]
  split
  · next room =>
      have listed := listed_collect world.leaderSchedule world.leaderAddrs send.found
        (send.slot + send.offset)
      constructor
      · exact aimed.started
      · exact room.1
      · exact collected_collect _ _ _ _ _ _ room.2 aimed.collected
      · intro target member
        exact (listed target member).elim (aimed.leads target)
          (fun known => holds.schedule _ _ known.1)
      · intro target member
        exact (listed target member).elim (aimed.addressed target)
          (fun known => holds.addrs _ _ known.2)
  · exact aimed

theorem holds_step (world : World) (event : Event) (holds : Holds chain world) :
    Holds chain (step chain world event) := by
  cases event with
  | refresh =>
      rw [step]
      split
      · exact { holds with rest := fun rest absSlot wrong => by cases wrong }
      · exact holds
  | advance reply => exact holds_advance chain world reply holds
  | slot slot => exact { holds with }
  | send size =>
      rw [step]
      split
      · exact holds
      · next passes =>
          refine { holds with sends := ?_ }
          intro send member
          rcases List.mem_append.mp member with old | new
          · exact holds.sends send old
          · rw [List.mem_singleton.mp new]
            exact ⟨fun zero => passes (Or.inr zero), Nat.zero_le _,
              collected_nil _ _, by simp, by simp⟩
  | lookUp place =>
      refine { holds with sends := ?_ }
      intro send member
      rcases List.mem_iff_getElem?.mp member with ⟨other, found⟩
      simp only [step, List.getElem?_modify, Option.map_eq_map, Option.map_eq_some_iff] at found
      rcases found with ⟨before, held, same⟩
      have aimed := holds.sends before (List.mem_of_getElem? held)
      rw [← same]
      split
      · exact aimed_lookUp chain world before holds aimed
      · exact aimed

/-- Each leader is sent to at one address or at two. -/
theorem length_datagrams (found : List (Target Addresses)) :
    (found.flatMap (fun target => datagrams target.address)).length ≤ 2 * found.length := by
  induction found with
  | nil => simp
  | cons target rest ih =>
      have two : (datagrams target.address).length ≤ 2 := by
        rw [datagrams]
        split <;> simp
      rw [List.flatMap_cons, List.length_append, List.length_cons]
      omega

/-- In every interleaving of refreshes, slots and sends a send goes to at most four leaders of
the next sixteen slots, each once and at an address it gave, in no more than eight datagrams.
Each leads its slot on chain, unless some refresh read schedule and epoch on two sides of an
epoch's end. -/
theorem wrong_only_across_epochs (events : List Event) :
    ∀ send ∈ (run (step chain) start events).sends,
      Aimed chain (run (step chain) start events).readings
        (run (step chain) start events).registered send ∧
      (send.found.flatMap (fun target => datagrams target.address)).length ≤ 8 := by
  have holds : Holds chain (run (step chain) start events) := by
    apply run_invariant (step chain) (Holds chain)
    · exact ⟨fun slot leader found => by simp [start] at found,
        fun leader addresses found => by simp [start] at found,
        (fun rest absSlot wrong => by cases wrong), by simp [start]⟩
    · intro pair _ held
      exact holds_step chain pair.1 pair.2 held
  intro send member
  have aimed := holds.sends send member
  exact ⟨aimed, (length_datagrams send.found).trans (Nat.mul_le_mul_left 2 aimed.collected.few)⟩

end Run

/-- A refresh in its six steps, and a send that looks at one slot. -/
def oneSend (text : String) : List Event :=
  let reply : Reply := ⟨some (some [(text, some ⟨1, 2⟩, none)]), some (some 5), some (some 5)⟩
  .refresh :: List.replicate 6 (.advance reply) ++ [.send 100, .lookUp 0]

theorem found_oneSend (text : String) (named : Pubkey.fromStr text = some default) :
    (run (step (oneLeader text named)) start (oneSend text)).sends.map
      (fun send => send.found.length) = [1] := by
  simp [oneSend, start, step, advance, nodeAddresses, named, absolute, oneLeader, Send.lookUp,
    collect, maxPacket, leaderLookahead]

theorem wrong_only_across_epochs_oneSend :
    ∃ text named send, send.found.length = 1 ∧
      Aimed (oneLeader text named)
        (run (step (oneLeader text named)) start (oneSend text)).readings
        (run (step (oneLeader text named)) start (oneSend text)).registered send := by
  have named := Pubkey.fromStr_display default
  rcases List.map_eq_cons_iff.mp (found_oneSend _ named) with ⟨send, rest, all, found, -⟩
  refine ⟨_, named, send, found,
    (wrong_only_across_epochs (oneLeader _ named) (oneSend _) send ?_).1⟩
  rw [all]
  exact List.mem_cons_self

end JetSender

end Helios.LeaderFanout
