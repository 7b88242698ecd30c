import Mathlib.Data.Int.Basic
import Mathlib.Tactic

/-! Fixed-width integers as naturals and integers with the wrap written out. -/

instance decidableEqExcept {ε α : Type*} [DecidableEq ε] [DecidableEq α] :
    DecidableEq (Except ε α)
  | .error first, .error second => decidable_of_iff (first = second) ⟨congrArg _, Except.error.inj⟩
  | .ok first, .ok second => decidable_of_iff (first = second) ⟨congrArg _, Except.ok.inj⟩
  | .error _, .ok _ => isFalse nofun
  | .ok _, .error _ => isFalse nofun

/-- Tags are compared byte by byte. -/
instance lawfulBEqTag : LawfulBEq (List UInt8) := inferInstance

namespace Helios.Machine

def u32Max : Nat := 2 ^ 32 - 1
def u64Max : Nat := 2 ^ 64 - 1

/-- Keep the low `bits` bits, as an `as` cast or an unchecked operator does. -/
def wrap (bits n : Nat) : Nat := n % 2 ^ bits

def wrappingSub (bits a b : Nat) : Nat := (a + (2 ^ bits - b % 2 ^ bits)) % 2 ^ bits

def saturatingAdd32 (a b : Nat) : Nat := min (a + b) u32Max
def saturatingAdd64 (a b : Nat) : Nat := min (a + b) u64Max
def saturatingMul64 (a b : Nat) : Nat := min (a * b) u64Max

/-- Two's complement reading of the low 64 bits. -/
def wrapI64 (n : Int) : Int := n.bmod (2 ^ 64)

/-- Two's complement reading of the low 32 bits. -/
def wrapI32 (n : Int) : Int := n.bmod (2 ^ 32)

def leBytes : Nat → Nat → List UInt8
  | 0, _ => []
  | width + 1, n => UInt8.ofNat (n % 256) :: leBytes width (n / 256)

def ofLeBytes : List UInt8 → Nat
  | [] => 0
  | byte :: bytes => byte.toNat + 256 * ofLeBytes bytes

theorem wrap_of_lt (bits n : Nat) (bound : n < 2 ^ bits) : wrap bits n = n :=
  Nat.mod_eq_of_lt bound

theorem wrappingSub_of_le (bits a b : Nat) (le : b ≤ a) (bound : a < 2 ^ bits) :
    wrappingSub bits a b = a - b := by
  have small : b < 2 ^ bits := lt_of_le_of_lt le bound
  have shifted : a + (2 ^ bits - b % 2 ^ bits) = (a - b) + 2 ^ bits := by
    rw [Nat.mod_eq_of_lt small]
    omega
  rw [wrappingSub, shifted, Nat.add_mod_right, Nat.mod_eq_of_lt (by omega)]

theorem wrapI64_of_bounds (n : Int) (low : -2 ^ 63 ≤ n) (high : n < 2 ^ 63) : wrapI64 n = n := by
  rw [wrapI64]
  exact Int.bmod_eq_of_le (by norm_num; omega) (by norm_num; omega)

theorem wrapI64_of_overflow (n : Int) (low : 2 ^ 63 ≤ n) (high : n < 2 ^ 64) :
    wrapI64 n = n - 2 ^ 64 := by
  rw [wrapI64, Int.bmod_def, Int.emod_eq_of_lt (by omega) (by norm_num; omega), if_neg]
  · norm_num
  · norm_num
    omega

theorem wrapI64_lt (n : Int) : wrapI64 n < 2 ^ 63 := by
  have bound := Int.bmod_lt (x := n) (m := 2 ^ 64) (by norm_num)
  rw [wrapI64]
  norm_num at bound ⊢
  exact bound

@[simp] theorem leBytes_length (width n : Nat) : (leBytes width n).length = width := by
  induction width generalizing n with
  | zero => rfl
  | succ width ih => simp [leBytes, ih]

theorem ofLeBytes_leBytes (width n : Nat) (bound : n < 256 ^ width) :
    ofLeBytes (leBytes width n) = n := by
  induction width generalizing n with
  | zero => simp at bound; simp [leBytes, ofLeBytes, bound]
  | succ width ih =>
      have rest : n / 256 < 256 ^ width := by
        rw [Nat.div_lt_iff_lt_mul (by decide)]
        simpa [pow_succ] using bound
      have low : (UInt8.ofNat (n % 256)).toNat = n % 256 := by
        simp
      simp only [leBytes, ofLeBytes, ih _ rest, low]
      omega

/-- A 64-bit number read from the place its bytes were written to. -/
theorem ofLeBytes_at (front rest : List UInt8) (n : Nat) (bound : n < 2 ^ 64) :
    ofLeBytes (((front ++ (leBytes 8 n ++ rest)).drop front.length).take 8) = n := by
  rw [List.drop_left, List.take_left' (leBytes_length 8 n)]
  exact ofLeBytes_leBytes 8 n (lt_of_lt_of_eq bound (by norm_num))

end Helios.Machine
