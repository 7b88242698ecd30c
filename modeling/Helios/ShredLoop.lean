import Helios.BlockEmission
import Helios.BlockhashDeriver
import Helios.Borsh
import Helios.LruCache

/-! The loop of the signal processor from a verified shred to the blockhash: every decoded
block sets it, whether or not it ends its slot. -/

namespace Helios

namespace Arrival

variable {α β κ : Type} [LinearOrder κ] (key : β → κ)

theorem greatest_map (place : α → β) (members : List α) :
    greatest key (members.map place) =
      (greatest (fun member => key (place member)) members).map place := by
  rw [greatest, greatest, List.filter_map]
  congr 1
  apply List.filter_congr
  intro member _
  rw [Function.comp_apply, decide_eq_decide, List.forall_mem_map]

end Arrival

namespace SlotBuffer

/-- The shred at the first boundary from an index on. -/
def lastShred (buffer : SlotBuffer) (start : Nat) : Option Shred :=
  ((buffer.completedDataIndexes.sort (· ≤ ·)).find? (fun index => decide (start ≤ index))).bind
    buffer.shredAt

/-- The block from an index on ends its slot. -/
def closesSlot (buffer : SlotBuffer) (start : Nat) : Bool :=
  (buffer.lastShred start).any Shred.lastInSlot

theorem lastShred_of_ready (buffer : SlotBuffer) (start finish : Nat)
    (ready : buffer.Ready start finish) : buffer.lastShred start = buffer.shredAt finish := by
  have ends := endsFrom_sort buffer
  have closes : finish ∈ buffer.completedDataIndexes.sort (· ≤ ·) :=
    (ends.exactly finish).mpr ⟨ready.closes, Nat.zero_le _⟩
  rw [lastShred]
  cases found : (buffer.completedDataIndexes.sort (· ≤ ·)).find?
      (fun index => decide (start ≤ index)) with
  | none =>
      have below := List.find?_eq_none.mp found finish closes
      exact absurd (decide_eq_true ready.ordered) below
  | some first =>
      have passes := List.find?_some found
      have reaches : start ≤ first := by simpa using passes
      have ended := ((ends.exactly first).mp (List.mem_of_find?_eq_some found)).1
      have same : first = finish := by
        rcases lt_trichotomy first finish with less | equal | more
        · exact absurd ended (ready.inner first reaches less)
        · exact equal
        · -- the sorted boundaries put `finish` before `first`, where the search has passed
          rcases List.find?_eq_some_iff_append.mp found with ⟨-, before, after, split, passed⟩
          rw [split] at closes
          have sorted := ends.sorted
          rw [split, List.pairwise_append] at sorted
          rcases List.mem_append.mp closes with early | late
          · have skipped := passed finish early
            rw [decide_eq_true ready.ordered] at skipped
            cases skipped
          · rcases List.mem_cons.mp late with equal | later
            · exact equal.symm
            · have above := (List.pairwise_cons.mp sorted.2.1).1 finish later
              omega
      rw [same]
      rfl

/-- A block that is handed on ends its slot if the last of its shreds says so. -/
theorem closesSlot_iff (buffer : SlotBuffer) (start finish : Nat)
    (ready : buffer.Ready start finish) :
    buffer.closesSlot start = true ↔
      ∃ shred, buffer.shredAt finish = some shred ∧ shred.lastInSlot = true := by
  rw [closesSlot, lastShred_of_ready buffer start finish ready]
  cases buffer.shredAt finish with
  | none => simp
  | some shred => simp

end SlotBuffer

namespace FecAssembler

def pruneOldSlots (assembler : FecAssembler) (minSlot : Nat) : FecAssembler :=
  { assembler with
    sets := HashMap.retain assembler.sets (fun key _ => decide (minSlot ≤ key.slot))
    slots := HashMap.retain assembler.slots (fun slot _ => decide (minSlot ≤ slot)) }

end FecAssembler

namespace ShredLoop

open BlockhashDeriver

/-- The loop's state, with the calls of the deriver so far and whether the block of each ended
its slot. -/
structure Processor where
  seen : LruCache Nat Unit
  fec : FecAssembler
  current : BlockhashEntry
  decoded : List (Call × Bool)

def start (now capacity : Nat) : Processor where
  seen := LruCache.new (max capacity 1) (LruCache.room capacity)
  fec := FecAssembler.new
  current := BlockhashDeriver.new now
  decoded := []

section

variable (fingerprint : DedupKey → Nat) (ledger : Ledger)
  (decodeEntries : Bytes → Option (List Entry))

/-- The entries of the payloads that can be read. -/
def decodeBatch (payloads : List Bytes) : List Entry :=
  payloads.flatMap (fun payload => (decodeEntries payload).getD [])

/-- The deriver is told whether the shred at hand is the last of its slot, and ignores it. -/
def receiveBlock (now : Nat) (filled : SlotBuffer) (processor : Processor)
    (block : Nat × Nat × List Bytes) : Processor :=
  let entries := decodeBatch decodeEntries block.2.2
  if entries = [] then processor
  else
    { processor with
      current := onEntriesDecoded processor.current now block.1 entries
      decoded := processor.decoded ++
        [((now, ⟨block.1, block.2.1, entries⟩), filled.closesSlot block.2.1)] }

def ingestNew (processor : Processor) (now : Nat) (parsed : ParsedShred) : Processor :=
  let filled := processor.fec.filledBuffer (FecSet.recoverShreds ledger) parsed
  let ingested := processor.fec.ingest (FecSet.recoverShreds ledger) ledger.deshred parsed
  let drained := if ingested.2 then ingested.1.drainComplete else (ingested.1, [])
  drained.2.foldl (receiveBlock decodeEntries now filled) { processor with fec := drained.1 }

def step (processor : Processor) (input : Nat × ParsedShred) : Processor :=
  let key := fingerprint (DedupKey.fromShred input.2)
  if processor.seen.contains key then processor
  else
    let handled := ingestNew ledger decodeEntries
      { processor with seen := processor.seen.put key () } input.1 input.2
    if input.2.shred.slot % 1000 = 0 then
      { handled with fec := handled.fec.pruneOldSlots (input.2.shred.slot - 100) }
    else handled

/-- The blocks of the greatest slot decoded so far, in the order they came. -/
def newest (decoded : List (Call × Bool)) : List (Call × Bool) :=
  Arrival.greatest (fun pair => pair.1.2.slot) decoded

/-- The hash that a decoded block ends its slot with. -/
def SlotHash (decoded : List (Call × Bool)) (slot : Nat) (hash : Hash) : Prop :=
  ∃ pair ∈ decoded, pair.2 = true ∧ pair.1.2.slot = slot ∧ pair.1.2.endHash = some hash

/-- The hash and the slot are what the executor gets. -/
def Returns (current : BlockhashEntry) (hash : Hash) (slot : Nat) : Prop :=
  getLatest current = some (hash, slot) ∨
    ∃ currentSlot maxAgeSlots, getBlockhash current currentSlot maxAgeSlots = some (hash, slot)

/-- Only the hashes of completed slots are returned. -/
def OnlySlotHashes (processor : Processor) : Prop :=
  ∀ hash slot, Returns processor.current hash slot → SlotHash processor.decoded slot hash

/-- What is returned is the last hash of the block decoded last in the newest slot, which is a
completed slot's if that block ends it. -/
def ReturnsNewest (processor : Processor) : Prop :=
  ∀ hash slot, Returns processor.current hash slot →
    ∃ last, (newest processor.decoded).getLast? = some last ∧ last.1.2.slot = slot ∧
      last.1.2.endHash = some hash ∧
      (last.2 = true → SlotHash processor.decoded slot hash)

/-- The deriver holds what the calls so far have left, none of them with an empty block. -/
structure Derived (now : Nat) (processor : Processor) : Prop where
  current : processor.current =
    decodeAll (BlockhashDeriver.new now) (processor.decoded.map Prod.fst)
  filled : ∀ pair ∈ processor.decoded, pair.1.2.entries ≠ []

theorem derived_receiveBlock (begun now : Nat) (filled : SlotBuffer) (processor : Processor)
    (block : Nat × Nat × List Bytes) (derived : Derived begun processor) :
    Derived begun (receiveBlock decodeEntries now filled processor block) := by
  rw [receiveBlock]
  split
  · exact derived
  · next entries =>
      constructor
      · rw [List.map_append, decodeAll, Runs.run_append]
        change onEntriesDecoded processor.current now _ _ = onEntriesDecoded _ now _ _
        rw [derived.current]
        rfl
      · intro pair member
        rcases List.mem_append.mp member with earlier | here
        · exact derived.filled pair earlier
        · rw [List.mem_singleton.mp here]
          exact entries

theorem derived_foldl (begun now : Nat) (filled : SlotBuffer)
    (blocks : List (Nat × Nat × List Bytes)) (processor : Processor)
    (derived : Derived begun processor) :
    Derived begun (blocks.foldl (receiveBlock decodeEntries now filled) processor) := by
  induction blocks generalizing processor with
  | nil => exact derived
  | cons block rest ih =>
      exact ih _ (derived_receiveBlock decodeEntries begun now filled processor block derived)

theorem derived_step (begun : Nat) (processor : Processor) (input : Nat × ParsedShred)
    (derived : Derived begun processor) :
    Derived begun (step fingerprint ledger decodeEntries processor input) := by
  rw [step]
  dsimp only
  split
  · exact derived
  · have handled : Derived begun (ingestNew ledger decodeEntries
        { processor with
          seen := processor.seen.put (fingerprint (DedupKey.fromShred input.2)) () }
        input.1 input.2) := by
      rw [ingestNew]
      apply derived_foldl
      exact ⟨derived.current, derived.filled⟩
    split
    · exact ⟨handled.current, handled.filled⟩
    · exact handled

theorem derived_run (now capacity : Nat) (shreds : List (Nat × ParsedShred)) :
    Derived now (Runs.run (step fingerprint ledger decodeEntries) (start now capacity)
      shreds) := by
  apply Runs.run_invariant
  · exact ⟨rfl, fun pair member => absurd member List.not_mem_nil⟩
  · intro pair _ derived
    exact derived_step fingerprint ledger decodeEntries now pair.1 pair.2 derived

theorem newestSlot_eq (processor : Processor)
    (filled : ∀ pair ∈ processor.decoded, pair.1.2.entries ≠ []) :
    newestSlot (processor.decoded.map Prod.fst) =
      (newest processor.decoded).map (fun pair => pair.1.2) := by
  have all : BlockhashDeriver.decoded (processor.decoded.map Prod.fst) =
      processor.decoded.map (fun pair => pair.1.2) := by
    rw [BlockhashDeriver.decoded, List.map_map]
    apply List.filter_eq_self.mpr
    intro block member
    rcases List.mem_map.mp member with ⟨pair, inside, rfl⟩
    exact decide_eq_true (filled pair inside)
  rw [newestSlot, all, newest, Arrival.greatest_map]

theorem returns_held (current : BlockhashEntry) (hash : Hash) (slot : Nat)
    (returns : Returns current hash slot) :
    current.blockhash = hash ∧ current.slot = slot ∧ current.blockhash ≠ Hash.default := by
  rcases returns with latest | ⟨currentSlot, maxAgeSlots, fresh⟩
  · rw [getLatest, Option.ite_none_left_eq_some] at latest
    rcases latest with ⟨known, held⟩
    cases held
    exact ⟨rfl, rfl, known⟩
  · rw [getBlockhash, Option.ite_none_left_eq_some, Option.ite_none_left_eq_some] at fresh
    rcases fresh with ⟨known, _, held⟩
    cases held
    exact ⟨rfl, rfl, known⟩

end

/-- A tick as bincode writes it: the hashes counted, the hash, no transactions. -/
def readTick : Borsh.Reader Entry := fun bytes =>
  (Borsh.readNat 8 bytes).bind (fun hashes =>
    if length : 40 ≤ hashes.2.length then
      (Borsh.readNat 8 (hashes.2.drop 32)).bind (fun transactions =>
        if transactions.1 = 0 then
          some (⟨⟨hashes.2.take 32, by rw [List.length_take]; omega⟩⟩, transactions.2)
        else none)
    else none)

/-- What the entry decoder makes of payloads that hold ticks alone. -/
def decodeTicks (payload : Bytes) : Option (List Entry) :=
  (Borsh.readNat 8 payload).bind (fun count =>
    (Borsh.readList readTick count.1 count.2).map Prod.fst)

/-- A data shred that completes a block of one tick in the middle of slot 0. -/
def midSlotPayload : Bytes :=
  List.replicate 64 0 ++ [0xa5] ++ List.replicate 20 0 ++ [0x40, 144, 0] ++
    [1, 0, 0, 0, 0, 0, 0, 0] ++ [1, 0, 0, 0, 0, 0, 0, 0] ++ List.replicate 32 5 ++
    List.replicate 8 0 ++ List.replicate 1084 0

def midSlotShred : ParsedShred where
  raw := midSlotPayload
  shred :=
    { payload := midSlotPayload, slot := 0, index := 0, fecSetIndex := 0, isData := true
      dataComplete := true, lastInSlot := false
      indexInSlot := maxDataShredsPerSlot_pos
      sized := by
        intro variant read
        have legacy : RecoveryVariant.fromPayload midSlotPayload = some .legacyData := by
          decide +kernel
        rw [legacy] at read
        cases read
        decide +kernel }

end ShredLoop

end Helios
