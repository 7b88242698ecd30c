import Helios.HashMap
import Helios.Machine

/-! Shreds: their wire layout and what the parser hands to the assembler. -/

namespace Helios

open Machine

abbrev Bytes := List UInt8

abbrev Hash := { bytes : Bytes // bytes.length = 32 }

/-- `bytes.get(start..stop)`. -/
def slice (bytes : Bytes) (start stop : Nat) : Option Bytes :=
  if start ≤ stop ∧ stop ≤ bytes.length then some ((bytes.take stop).drop start) else none

/-- `bytes[start..][..new.len()].copy_from_slice(new)`. -/
def overwrite (bytes : Bytes) (start : Nat) (new : Bytes) : Bytes :=
  bytes.take start ++ new ++ bytes.drop (start + new.length)

theorem slice_of_le (bytes : Bytes) (start stop : Nat) (ordered : start ≤ stop)
    (inside : stop ≤ bytes.length) :
    slice bytes start stop = some ((bytes.take stop).drop start) :=
  if_pos ⟨ordered, inside⟩

theorem slice_eq_some (bytes part : Bytes) (start stop : Nat)
    (found : slice bytes start stop = some part) :
    start ≤ stop ∧ stop ≤ bytes.length ∧ part = (bytes.take stop).drop start := by
  rw [slice] at found
  split at found
  · rename_i inside
    exact ⟨inside.1, inside.2, (Option.some.inj found).symm⟩
  · cases found

theorem slice_congr (first second : Bytes) (start stop stop' : Nat)
    (same : first.take stop' = second.take stop') (before : stop ≤ stop')
    (long : stop' ≤ first.length) (long' : stop' ≤ second.length) :
    slice first start stop = slice second start stop := by
  have front : first.take stop = second.take stop := by
    calc first.take stop = (first.take stop').take stop := by
          rw [List.take_take, Nat.min_eq_left before]
      _ = (second.take stop').take stop := by rw [same]
      _ = second.take stop := by rw [List.take_take, Nat.min_eq_left before]
  unfold slice
  by_cases ordered : start ≤ stop
  · rw [if_pos ⟨ordered, by omega⟩, if_pos ⟨ordered, by omega⟩, front]
  · rw [if_neg (fun both => ordered both.1), if_neg (fun both => ordered both.1)]

theorem getElem_congr (first second : Bytes) (index stop : Nat)
    (same : first.take stop = second.take stop) (before : index < stop) :
    first[index]? = second[index]? := by
  rw [← List.getElem?_take_of_lt before, same, List.getElem?_take_of_lt before]

theorem length_overwrite (bytes new : Bytes) (start : Nat)
    (fits : start + new.length ≤ bytes.length) :
    (overwrite bytes start new).length = bytes.length := by
  rw [overwrite, List.length_append, List.length_append, List.length_take, List.length_drop]
  omega

theorem take_overwrite (bytes new : Bytes) (start stop : Nat) (before : stop ≤ start)
    (inside : start ≤ bytes.length) :
    (overwrite bytes start new).take stop = bytes.take stop := by
  rw [overwrite, List.append_assoc, List.take_append_of_le_length
    (by rw [List.length_take]; omega), List.take_take, Nat.min_eq_left before]

theorem slice_overwrite (bytes new : Bytes) (start : Nat)
    (fits : start + new.length ≤ bytes.length) :
    slice (overwrite bytes start new) start (start + new.length) = some new := by
  have here : (bytes.take start).length = start := by
    rw [List.length_take]
    omega
  rw [slice_of_le _ _ _ (Nat.le_add_right _ _) (by rw [length_overwrite bytes new start fits]; omega),
    overwrite, List.take_append_of_le_length (by rw [List.length_append]; omega),
    List.take_of_length_le (by rw [List.length_append]; omega), List.drop_append_of_le_length
    (by omega), List.drop_of_length_le (by omega), List.nil_append]

def signatureSize : Nat := 64
def shredVariantOffset : Nat := 64
def slotOffset : Nat := 65
def indexOffset : Nat := 73
def versionOffset : Nat := 77
def fecSetIndexOffset : Nat := 79
def codingNumDataOffset : Nat := 83
def codingNumCodingOffset : Nat := 85
def codingPositionOffset : Nat := 87
def codingHeaderEndOffset : Nat := 89

def legacyPayloadSize : Nat := 1228
def legacyDataHeadersSize : Nat := 88
def legacyCodingHeadersSize : Nat := 89
def legacyErasureShardSize : Nat := 1139
def merkleDataPayloadSize : Nat := 1203
def merkleProofEntrySize : Nat := 20
def merkleRootSize : Nat := 32

def parseU16 (payload : Bytes) (offset : Nat) : Except String Nat :=
  match slice payload offset (offset + 2) with
  | none => .error s!"missing u16 at offset {offset}"
  | some bytes => .ok (ofLeBytes bytes)

def parseU32 (payload : Bytes) (offset : Nat) : Except String Nat :=
  match slice payload offset (offset + 4) with
  | none => .error s!"missing u32 at offset {offset}"
  | some bytes => .ok (ofLeBytes bytes)

def parseU64 (payload : Bytes) (offset : Nat) : Except String Nat :=
  match slice payload offset (offset + 8) with
  | none => .error s!"missing u64 at offset {offset}"
  | some bytes => .ok (ofLeBytes bytes)

inductive RecoveryVariant where
  | legacyData
  | legacyCode
  | merkleData (proofSize : Nat) (chained resigned : Bool)
  | merkleCode (proofSize : Nat) (chained resigned : Bool)
  deriving DecidableEq

namespace RecoveryVariant

def fromByte (byte : UInt8) : Option RecoveryVariant :=
  if byte = 0x5a then some .legacyCode
  else if byte = 0xa5 then some .legacyData
  else
    let proofSize := byte.toNat % 16
    match byte.toNat / 16 with
    | 4 => some (.merkleCode proofSize false false)
    | 6 => some (.merkleCode proofSize true false)
    | 7 => some (.merkleCode proofSize true true)
    | 8 => some (.merkleData proofSize false false)
    | 9 => some (.merkleData proofSize true false)
    | 11 => some (.merkleData proofSize true true)
    | _ => none

def fromPayload (payload : Bytes) : Option RecoveryVariant :=
  payload[shredVariantOffset]?.bind fromByte

def isMerkle : RecoveryVariant → Bool
  | .merkleData _ _ _ | .merkleCode _ _ _ => true
  | _ => false

def isData : RecoveryVariant → Bool
  | .legacyData | .merkleData _ _ _ => true
  | _ => false

def proofSize : RecoveryVariant → Nat
  | .merkleData proofSize _ _ | .merkleCode proofSize _ _ => proofSize
  | _ => 0

def chained : RecoveryVariant → Bool
  | .merkleData _ chained _ | .merkleCode _ chained _ => chained
  | _ => false

def resigned : RecoveryVariant → Bool
  | .merkleData _ _ resigned | .merkleCode _ _ resigned => resigned
  | _ => false

/-- `none` stands for the source's `unreachable!`. -/
def variantByte : RecoveryVariant → Option UInt8
  | .legacyData => some 0xa5
  | .legacyCode => some 0x5a
  | .merkleCode proofSize false false => some (0x40 ||| UInt8.ofNat proofSize)
  | .merkleCode proofSize true false => some (0x60 ||| UInt8.ofNat proofSize)
  | .merkleCode proofSize true true => some (0x70 ||| UInt8.ofNat proofSize)
  | .merkleData proofSize false false => some (0x80 ||| UInt8.ofNat proofSize)
  | .merkleData proofSize true false => some (0x90 ||| UInt8.ofNat proofSize)
  | .merkleData proofSize true true => some (0xb0 ||| UInt8.ofNat proofSize)
  | .merkleData _ false true | .merkleCode _ false true => none

/-- The length the ledger's parser gives the payload of each kind of shred. -/
def payloadSize : RecoveryVariant → Nat
  | .merkleData _ _ _ => merkleDataPayloadSize
  | _ => legacyPayloadSize

/-- A variant read from a byte writes that byte, so `unreachable!` is not reached. -/
theorem variantByte_fromByte (byte : UInt8) (variant : RecoveryVariant)
    (read : fromByte byte = some variant) : variant.variantByte = some byte := by
  have every : ∀ n : Fin 256, ∀ found, fromByte (UInt8.ofNat n) = some found →
      found.variantByte = some (UInt8.ofNat n) := by decide +kernel
  have same : UInt8.ofNat (⟨byte.toNat, UInt8.toNat_lt byte⟩ : Fin 256) = byte := by simp
  have written := every ⟨byte.toNat, UInt8.toNat_lt byte⟩ variant
  rw [same] at written
  exact written read

end RecoveryVariant

/-- Data and coding shreds of a slot are numbered below this. -/
def maxDataShredsPerSlot : Nat := 32768

theorem maxDataShredsPerSlot_pos : 0 < maxDataShredsPerSlot := by decide

theorem one_lt_maxDataShredsPerSlot : 1 < maxDataShredsPerSlot := by decide

/-- A shred the ledger's parser has accepted: its bytes, the header fields read
from them, and what its sanitizing guarantees. -/
structure Shred where
  payload : Bytes
  slot : Nat
  index : Nat
  fecSetIndex : Nat
  isData : Bool
  dataComplete : Bool
  lastInSlot : Bool
  indexInSlot : index < maxDataShredsPerSlot
  sized : ∀ variant, RecoveryVariant.fromPayload payload = some variant →
    payload.length = variant.payloadSize
  deriving DecidableEq

structure CodingMeta where
  numDataShreds : Nat
  numCodingShreds : Nat
  position : Nat
  deriving DecidableEq

def CodingMeta.firstCodingIndex (codingMeta : CodingMeta) (index : Nat) : Option Nat :=
  if codingMeta.position ≤ index then some (index - codingMeta.position) else none

/-- The source's record copies slot, index, FEC set and kind out of `shred`; here
they are read there. -/
structure ParsedShred where
  raw : Bytes
  shred : Shred
  deriving DecidableEq

namespace ParsedShred

def codingMeta (parsed : ParsedShred) : Option CodingMeta :=
  if !parsed.shred.isData && decide (codingHeaderEndOffset ≤ parsed.raw.length) then
    some
      { numDataShreds := ofLeBytes ((parsed.raw.drop codingNumDataOffset).take 2)
        numCodingShreds := ofLeBytes ((parsed.raw.drop codingNumCodingOffset).take 2)
        position := ofLeBytes ((parsed.raw.drop codingPositionOffset).take 2) }
  else none

theorem codingMeta_of_isData (parsed : ParsedShred) (data : parsed.shred.isData = true) :
    parsed.codingMeta = none := by
  simp [codingMeta, data]

end ParsedShred

/-- What the deduplication in front of the assembler compares. -/
structure DedupKey where
  slot : Nat
  index : Nat
  fecSet : Nat
  isData : Bool
  deriving DecidableEq

def DedupKey.fromShred (parsed : ParsedShred) : DedupKey :=
  { slot := parsed.shred.slot, index := parsed.shred.index
    fecSet := parsed.shred.fecSetIndex, isData := parsed.shred.isData }

end Helios
