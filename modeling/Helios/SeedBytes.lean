import Helios.TxBuilder
import Mathlib

/-! Seeds of program addresses: different texts, numbers and keys have different bytes. -/

namespace Helios.TxBuilder

open Machine

theorem toList_loop (bytes : ByteArray) (left : Nat) :
    ∀ (place : Nat) (taken : List UInt8), bytes.size - place = left →
      ByteArray.toList.loop bytes place taken =
        taken.reverse ++ bytes.data.toList.drop place := by
  have count : bytes.data.toList.length = bytes.size := rfl
  induction left with
  | zero =>
      intro place taken rest
      rw [ByteArray.toList.loop.eq_def, if_neg (by omega), List.drop_eq_nil_of_le (by omega),
        List.append_nil]
  | succ left ih =>
      intro place taken rest
      have inside : place < bytes.data.toList.length := by omega
      have here : bytes.get! place = bytes.data.toList[place] :=
        getElem!_pos bytes.data place inside
      rw [ByteArray.toList.loop.eq_def, if_pos (by omega), ih (place + 1) _ (by omega),
        List.drop_eq_getElem_cons inside, List.reverse_cons, List.append_assoc, here]
      rfl

theorem seedText_injective (text other : String) (same : seedText text = seedText other) :
    text = other := by
  rw [seedText, seedText, ByteArray.toList, ByteArray.toList, toList_loop _ _ 0 [] rfl,
    toList_loop _ _ 0 [] rfl] at same
  have data : text.toUTF8.data = other.toUTF8.data := Array.toList_inj.mp same
  exact String.toByteArray_inj.mp (ByteArray.ext data)

theorem startText_injective (start other : Int)
    (same : seedText (toString start) = seedText (toString other)) : start = other :=
  Int.repr_inj.mp (seedText_injective _ _ same)

/-- The number an eight-byte seed holds. -/
def seedIndex (index : Int) : Nat := (index % 2 ^ 64).toNat

theorem seedIndex_lt (index : Int) : seedIndex index < 2 ^ 64 := by
  rw [seedIndex]
  omega

theorem indexBytes_injective (index other : Int)
    (same : leBytes 8 (index % 2 ^ 64).toNat = leBytes 8 (other % 2 ^ 64).toNat) :
    seedIndex index = seedIndex other := by
  have bound := seedIndex_lt index
  have otherBound := seedIndex_lt other
  calc seedIndex index
    _ = ofLeBytes (leBytes 8 (seedIndex index)) := by
        rw [ofLeBytes_leBytes 8 _ (by omega)]
    _ = ofLeBytes (leBytes 8 (seedIndex other)) := congrArg ofLeBytes same
    _ = seedIndex other := ofLeBytes_leBytes 8 _ (by omega)

theorem ofBytes_toBytes (key : Pubkey) : Pubkey.ofBytes key.toBytes = key := by
  rw [Pubkey.ofBytes, Pubkey.toBytes, List.reverse_reverse,
    ofLeBytes_leBytes 32 key.toNat (lt_of_lt_of_eq key.isLt (by norm_num))]
  apply Pubkey.ext
  exact Nat.mod_eq_of_lt key.isLt

theorem toBytes_injective (key other : Pubkey) (same : key.toBytes = other.toBytes) : key = other := by
  rw [← ofBytes_toBytes key, same, ofBytes_toBytes]

end Helios.TxBuilder
