import Helios.Machine

/-! Borsh byte strings: little-endian numbers and length-prefixed vectors. A
reader takes its value off the front and hands back the rest. -/

namespace Helios.Borsh

open Machine

abbrev Reader (α : Type) := List UInt8 → Option (α × List UInt8)

/-- Whatever follows the written bytes, the reader finds the value. -/
def RoundTrips {α : Type} (write : α → List UInt8) (read : Reader α) (value : α) : Prop :=
  ∀ rest, read (write value ++ rest) = some (value, rest)

def readNat (width : Nat) : Reader Nat := fun bytes =>
  if bytes.length < width then none
  else some (ofLeBytes (bytes.take width), bytes.drop width)

def readByte : Reader UInt8
  | [] => none
  | byte :: rest => some (byte, rest)

section Vectors

variable {α : Type}

def readList (read : Reader α) : Nat → Reader (List α)
  | 0, bytes => some ([], bytes)
  | count + 1, bytes =>
      (read bytes).bind (fun head =>
        (readList read count head.2).map (fun tail => (head.1 :: tail.1, tail.2)))

def writeVec (write : α → List UInt8) (values : List α) : List UInt8 :=
  leBytes 4 values.length ++ values.flatMap write

def readVec (read : Reader α) : Reader (List α) := fun bytes =>
  (readNat 4 bytes).bind (fun count => readList read count.1 count.2)

theorem readNat_roundTrips (width n : Nat) (bound : n < 256 ^ width) :
    RoundTrips (leBytes width) (readNat width) n := by
  intro rest
  have long : ¬ (leBytes width n ++ rest).length < width := by
    simp
  rw [readNat, if_neg long, List.take_left' (leBytes_length width n),
    List.drop_left' (leBytes_length width n), ofLeBytes_leBytes width n bound]

theorem readByte_roundTrips (byte : UInt8) : RoundTrips (fun b => [b]) readByte byte :=
  fun _ => rfl

theorem readList_roundTrips (write : α → List UInt8) (read : Reader α) (values : List α)
    (each : ∀ value ∈ values, RoundTrips write read value) :
    RoundTrips (fun list => list.flatMap write) (readList read values.length) values := by
  induction values with
  | nil => exact fun _ => rfl
  | cons head tail ih =>
      intro rest
      have found := each head List.mem_cons_self (tail.flatMap write ++ rest)
      have others := ih (fun value member => each value (List.mem_cons_of_mem _ member)) rest
      simp only [List.length_cons, readList, List.flatMap_cons, List.append_assoc, found,
        Option.bind_some, others, Option.map_some]

theorem readVec_roundTrips (write : α → List UInt8) (read : Reader α) (values : List α)
    (short : values.length < 2 ^ 32) (each : ∀ value ∈ values, RoundTrips write read value) :
    RoundTrips (writeVec write) (readVec read) values := by
  intro rest
  have count := readNat_roundTrips 4 values.length (lt_of_lt_of_eq short (by norm_num))
    (values.flatMap write ++ rest)
  rw [writeVec, List.append_assoc, readVec, count, Option.bind_some]
  exact readList_roundTrips write read values each rest

end Vectors

end Helios.Borsh
