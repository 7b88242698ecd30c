import Helios.FecSet
import Mathlib.Data.Finset.Sort

/-! The assembler: shreds in, complete data blocks out. -/

namespace Helios

open Machine

structure SlotBuffer where
  dataShreds : HashMap Nat Shred
  completedDataIndexes : Finset Nat

namespace SlotBuffer

def empty : SlotBuffer := ⟨HashMap.empty, ∅⟩

/-- `insert_data_shred` on the buffer of the shred's slot. -/
def insertDataShred (buffer : SlotBuffer) (shred : Shred) : SlotBuffer :=
  { completedDataIndexes :=
      if shred.dataComplete || shred.lastInSlot then
        insert shred.index buffer.completedDataIndexes
      else buffer.completedDataIndexes
    dataShreds :=
      if HashMap.containsKey buffer.dataShreds shred.index then buffer.dataShreds
      else buffer.dataShreds.insert shred.index shred }

/-- The scan of `find_complete_data_block` over the boundaries still ahead. -/
def scanBoundaries (dataShreds : HashMap Nat Shred) (firstAvailable : Nat) :
    Nat → List Nat → Option (List Nat × List Shred)
  | _, [] => none
  | startIndex, endIndex :: rest =>
      if startIndex < firstAvailable then
        scanBoundaries dataShreds firstAvailable (saturatingAdd32 endIndex 1) rest
      else
        let block := HashMap.range dataShreds startIndex endIndex
        let count := wrap 32 block.length
        let expected := saturatingAdd32 (endIndex - startIndex) 1
        if count = expected then some (block.map Prod.fst, block.map Prod.snd)
        else scanBoundaries dataShreds firstAvailable (saturatingAdd32 endIndex 1) rest

def findCompleteDataBlock (buffer : SlotBuffer) : Option (List Nat × List Shred) :=
  match HashMap.firstKey buffer.dataShreds with
  | none => none
  | some firstAvailable =>
      scanBoundaries buffer.dataShreds firstAvailable 0
        (buffer.completedDataIndexes.sort (· ≤ ·))

def removeIndices (buffer : SlotBuffer) (indices : List Nat) : SlotBuffer :=
  { buffer with
    dataShreds := indices.foldl (fun dataShreds index => dataShreds.erase index)
      buffer.dataShreds }

section

variable (deshred : List Shred → Except String Bytes)

/-- The loop of `emit_ready_blocks`, with the blocks it pushes. Every pass that
finds a block removes its shreds, so the number of shreds bounds the passes. -/
def emitLoop : Nat → SlotBuffer → SlotBuffer × List (Nat × Bytes)
  | 0, buffer => (buffer, [])
  | passes + 1, buffer =>
      match buffer.findCompleteDataBlock with
      | none => (buffer, [])
      | some (indices, shreds) =>
          let rest := emitLoop passes (buffer.removeIndices indices)
          match deshred shreds with
          | .ok payload => (rest.1, (indices.headD 0, payload) :: rest.2)
          | .error _ => rest

def emitReadyBlocks (buffer : SlotBuffer) : SlotBuffer × List (Nat × Bytes) :=
  emitLoop deshred buffer.dataShreds.entries.length buffer

end

end SlotBuffer

structure FecKey where
  slot : Nat
  fecSetIndex : Nat
  deriving DecidableEq

/-- `complete` lists slot, start index and payloads of the blocks handed on. -/
structure FecAssembler where
  sets : HashMap FecKey FecSet
  slots : HashMap Nat SlotBuffer
  complete : List (Nat × Nat × List Bytes)

namespace FecAssembler

def new : FecAssembler := ⟨HashMap.empty, HashMap.empty, []⟩

def slotBuffer (assembler : FecAssembler) (slot : Nat) : SlotBuffer :=
  (HashMap.get assembler.slots slot).getD SlotBuffer.empty

/-- The FEC set of a shred once the shred and its coding header are in it. -/
def receivingSet (assembler : FecAssembler) (parsed : ParsedShred) : FecSet :=
  let set := (HashMap.get assembler.sets
    ⟨parsed.shred.slot, parsed.shred.fecSetIndex⟩).getD FecSet.new
  let observed :=
    match parsed.codingMeta with
    | some codingMeta => (set.observeCodingMeta parsed.shred.index codingMeta).1
    | none => set
  observed.addShred parsed.shred

section

variable (recover : FecSet → Except String (List Shred))

/-- The set after a possible recovery, and what the recovery added. -/
def recoveredSet (assembler : FecAssembler) (parsed : ParsedShred) : FecSet × List Shred :=
  let set := assembler.receivingSet parsed
  if set.canAttemptRecovery then
    match set.maybeRecover recover with
    | (held, .ok added) => (held, added)
    | (held, .error _) => (held, [])
  else (set, [])

/-- The data shreds one call puts in the slot buffer. -/
def arrivals (assembler : FecAssembler) (parsed : ParsedShred) : List Shred :=
  (if parsed.shred.isData then [parsed.shred] else []) ++ (assembler.recoveredSet recover parsed).2

variable (deshred : List Shred → Except String Bytes)

/-- `ingest` and whether it emitted a block. -/
def ingest (assembler : FecAssembler) (parsed : ParsedShred) : FecAssembler × Bool :=
  let slot := parsed.shred.slot
  let sets := assembler.sets.insert ⟨slot, parsed.shred.fecSetIndex⟩
    (assembler.recoveredSet recover parsed).1
  let arrived := assembler.arrivals recover parsed
  if arrived.isEmpty && !HashMap.containsKey assembler.slots slot then
    ({ assembler with sets := sets }, false)
  else
    let filled := arrived.foldl SlotBuffer.insertDataShred (assembler.slotBuffer slot)
    let emitted := filled.emitReadyBlocks deshred
    ({ sets := sets
       slots := assembler.slots.insert slot emitted.1
       complete := assembler.complete ++
        emitted.2.map (fun block => (slot, block.1, [block.2])) },
      !emitted.2.isEmpty)

end

/-- The assembler as it runs, its recovery the one of the source. -/
def ingestShred (ledger : Ledger) (assembler : FecAssembler) (parsed : ParsedShred) :
    FecAssembler :=
  (assembler.ingest (FecSet.recoverShreds ledger) ledger.deshred parsed).1

def drainComplete (assembler : FecAssembler) :
    FecAssembler × List (Nat × Nat × List Bytes) :=
  ({ assembler with complete := [] }, assembler.complete)

end FecAssembler

end Helios
