import Mathlib
import Helios.TxBuilder

/-! Keys as Base58 text: reading what was written gives the key back. -/

namespace Helios.Pubkey

open Machine

/-- `Pubkey::from_str`: at most 44 characters, all of the alphabet, that stand for 32 bytes. A
leading `1` is a byte of zero, the rest is one number. -/
def fromStr (text : String) : Option Pubkey :=
  let chars := text.toList
  let zeros := (chars.takeWhile (fun char => char = '1')).length
  let number := chars.foldl (fun value char => value * 58 + base58Alphabet.idxOf char) 0
  if 44 < chars.length then none
  else if ∀ char ∈ chars, char ∈ base58Alphabet then
    if zeros + (Nat.digits 256 number).length = 32 then some (ofNat number) else none
  else none

/-! The digits of the alphabet. -/

theorem mem_alphabet (digit : Nat) (below : digit < 58) :
    base58Alphabet.getD digit '1' ∈ base58Alphabet := by
  have each : ∀ place : Fin 58, base58Alphabet.getD place '1' ∈ base58Alphabet := by decide
  exact each ⟨digit, below⟩

theorem idxOf_alphabet (digit : Nat) (below : digit < 58) :
    base58Alphabet.idxOf (base58Alphabet.getD digit '1') = digit := by
  have each : ∀ place : Fin 58, base58Alphabet.idxOf (base58Alphabet.getD place '1') = place := by
    decide
  exact each ⟨digit, below⟩

theorem alphabet_zero (digit : Nat) (below : digit < 58)
    (one : base58Alphabet.getD digit '1' = '1') : digit = 0 := by
  have index := idxOf_alphabet digit below
  rw [one] at index
  exact index.symm

/-! A number written in a base, its highest digit first. -/

section Digits

variable {α : Type} (base : Nat) (mark : Nat → α) (isZero : α → Bool)

theorem foldl_digits (value : α → Nat) (digits : List Nat)
    (reads : ∀ digit ∈ digits, value (mark digit) = digit) :
    (digits.reverse.map mark).foldl (fun total char => total * base + value char) 0 =
      Nat.ofDigits base digits := by
  induction digits with
  | nil => rfl
  | cons digit rest ih =>
      rw [List.reverse_cons, List.map_append, List.foldl_append,
        ih (fun other member => reads other (List.mem_cons_of_mem _ member))]
      rw [List.map_singleton, List.foldl_cons, List.foldl_nil, reads digit List.mem_cons_self,
        Nat.ofDigits_cons]
      ring

/-- The highest digit is not zero, so the zeros in front of it can be told. -/
theorem takeWhile_digits (n count : Nat) (zero : α) (isZeroOf : isZero zero = true)
    (tells : ∀ digit ∈ Nat.digits base n, isZero (mark digit) = true → digit = 0) :
    (List.replicate count zero ++ (Nat.digits base n).reverse.map mark).takeWhile isZero =
      List.replicate count zero := by
  have rest : ((Nat.digits base n).reverse.map mark).takeWhile isZero = [] := by
    rcases Nat.eq_zero_or_pos n with none_ | positive
    · rw [none_, Nat.digits_zero]
      rfl
    · have filled : Nat.digits base n ≠ [] := Nat.digits_ne_nil_iff_ne_zero.mpr positive.ne'
      have highest := Nat.getLast_digit_ne_zero base positive.ne'
      rw [← List.dropLast_append_getLast filled, List.reverse_append, List.reverse_singleton,
        List.singleton_append, List.map_cons, List.takeWhile_cons_of_neg]
      intro marked
      exact highest (tells _ (List.getLast_mem filled) marked)
  rw [List.takeWhile_append_of_pos, rest, List.append_nil]
  intro char member
  rw [List.eq_of_mem_replicate member]
  exact isZeroOf

end Digits

/-- The bytes of a number are its digits, filled up with zeros. -/
theorem leBytes_digits (width n : Nat) (fits : n < 256 ^ width) :
    leBytes width n = (Nat.digits 256 n).map UInt8.ofNat ++
      List.replicate (width - (Nat.digits 256 n).length) 0 := by
  induction width generalizing n with
  | zero =>
      have none_ : n = 0 := by simpa using fits
      rw [none_, Nat.digits_zero]
      rfl
  | succ width ih =>
      have rest : n / 256 < 256 ^ width := by
        rw [Nat.div_lt_iff_lt_mul (by norm_num)]
        exact lt_of_lt_of_eq fits (pow_succ 256 width)
      rw [leBytes, ih (n / 256) rest]
      rcases Nat.eq_zero_or_pos n with none_ | positive
      · rw [none_, Nat.zero_div, Nat.digits_zero]
        rfl
      · rw [Nat.digits_def' (by norm_num) positive, List.map_cons, List.length_cons,
          Nat.succ_sub_succ]
        rfl

theorem digits_length_le (key : Pubkey) : (Nat.digits 256 key.toNat).length ≤ 32 := by
  rw [Nat.digits_length_le_iff (by norm_num)]
  exact lt_of_lt_of_eq key.isLt (by norm_num)

/-- The zeros in front of a key's bytes fill up its digits. -/
theorem leading_zeros (key : Pubkey) :
    (key.toBytes.takeWhile (fun byte => byte = 0)).length =
      32 - (Nat.digits 256 key.toNat).length := by
  have fits : key.toNat < 256 ^ 32 := lt_of_lt_of_eq key.isLt (by norm_num)
  have zeros := takeWhile_digits 256 UInt8.ofNat (fun byte => decide (byte = 0)) key.toNat
    (32 - (Nat.digits 256 key.toNat).length) 0 (by decide) (by
      intro digit member marked
      have below : digit < 256 := Nat.digits_lt_base (by norm_num) member
      have value := congrArg UInt8.toNat (of_decide_eq_true marked)
      rw [UInt8.toNat_ofNat_of_lt' below] at value
      exact value)
  rw [toBytes, leBytes_digits 32 key.toNat fits, List.reverse_append, List.reverse_replicate,
    ← List.map_reverse, zeros, List.length_replicate]

/-- The text is no longer than 44 characters. -/
theorem text_length_le (key : Pubkey) :
    32 - (Nat.digits 256 key.toNat).length + (Nat.digits 58 key.toNat).length ≤ 44 := by
  have wide : ∀ count : Fin 33, 256 ^ (count : Nat) ≤ 58 ^ (12 + (count : Nat)) := by
    decide +kernel
  have few := digits_length_le key
  have below : key.toNat < 256 ^ (Nat.digits 256 key.toNat).length :=
    Nat.lt_base_pow_length_digits (by norm_num)
  have enough := wide ⟨(Nat.digits 256 key.toNat).length, by omega⟩
  have short : (Nat.digits 58 key.toNat).length ≤ 12 + (Nat.digits 256 key.toNat).length := by
    rw [Nat.digits_length_le_iff (by norm_num)]
    exact lt_of_lt_of_le below enough
  omega

/-- The characters of a key's text. -/
theorem display_chars (key : Pubkey) :
    key.display.toList =
      List.replicate (32 - (Nat.digits 256 key.toNat).length) '1' ++
        (Nat.digits 58 key.toNat).reverse.map (fun digit => base58Alphabet.getD digit '1') := by
  rw [display, String.toList_ofList, leading_zeros]

theorem display_number (key : Pubkey) :
    key.display.toList.foldl (fun value char => value * 58 + base58Alphabet.idxOf char) 0 =
      key.toNat := by
  have none_ : ∀ count : Nat, (List.replicate count '1').foldl
      (fun value char => value * 58 + base58Alphabet.idxOf char) 0 = 0 := by
    intro count
    induction count with
    | zero => rfl
    | succ count ih => rw [List.replicate_succ, List.foldl_cons]; exact ih
  rw [display_chars, List.foldl_append, none_,
    foldl_digits 58 (fun digit => base58Alphabet.getD digit '1') (base58Alphabet.idxOf ·)]
  · exact Nat.ofDigits_digits 58 key.toNat
  · intro digit member
    exact idxOf_alphabet digit (Nat.digits_lt_base (by norm_num) member)

theorem display_zeros (key : Pubkey) :
    (key.display.toList.takeWhile (fun char => char = '1')).length =
      32 - (Nat.digits 256 key.toNat).length := by
  rw [display_chars, takeWhile_digits 58 _ (fun char => decide (char = '1')) key.toNat _ '1'
    (by decide), List.length_replicate]
  intro digit member marked
  exact alphabet_zero digit (Nat.digits_lt_base (by norm_num) member) (of_decide_eq_true marked)

/-- Reading the text of a key gives the key. -/
theorem fromStr_display (key : Pubkey) : fromStr key.display = some key := by
  have known : ∀ char ∈ key.display.toList, char ∈ base58Alphabet := by
    intro char member
    rw [display_chars] at member
    rcases List.mem_append.mp member with zero | digit
    · rw [List.eq_of_mem_replicate zero]
      decide
    · rcases List.mem_map.mp digit with ⟨value, inDigits, rfl⟩
      exact mem_alphabet value (Nat.digits_lt_base (by norm_num) (List.mem_reverse.mp inDigits))
  have short : ¬ 44 < key.display.toList.length := by
    rw [display_chars, List.length_append, List.length_replicate, List.length_map,
      List.length_reverse]
    exact not_lt.mpr (text_length_le key)
  have few := digits_length_le key
  rw [fromStr]
  rw [if_neg short, if_pos known, display_zeros, display_number, if_pos (by omega)]
  congr 1
  apply Pubkey.ext
  exact Nat.mod_eq_of_lt key.isLt

end Helios.Pubkey
