import Mathlib.Data.Rat.Floor
import Mathlib.Tactic

/-! Floating-point arithmetic as an interface, with two instances: exact
rationals and binary64 rounding of rationals (round to nearest, ties to even).
Code that only compares floats is stated over every instance. -/

namespace Helios

class FloatArith (F : Type) where
  ofRat : ℚ → F
  add : F → F → F
  sub : F → F → F
  mul : F → F → F
  div : F → F → F
  lt : F → F → Bool
  le : F → F → Bool
  max : F → F → F
  min : F → F → F
  isFinite : F → Bool
  /-- Truncating cast; negative values go to 0. -/
  toNat : F → Nat

namespace FloatArith

variable {F : Type} [FloatArith F]

def ofNat (n : Nat) : F := ofRat (n : ℚ)

def ofInt (n : Int) : F := ofRat (n : ℚ)

/-- `as u64`: truncates and saturates. -/
def toU64 (x : F) : Nat := Nat.min (toNat x) (2 ^ 64 - 1)

end FloatArith

instance : FloatArith ℚ where
  ofRat q := q
  add := (· + ·)
  sub := (· - ·)
  mul := (· * ·)
  div := (· / ·)
  lt x y := decide (x < y)
  le x y := decide (x ≤ y)
  max := Max.max
  min := Min.min
  isFinite _ := true
  toNat x := ⌊x⌋.toNat

/-- A binary64 value, held as the rational it stands for. -/
structure Double where
  value : ℚ
  deriving DecidableEq

namespace Double

def pow2 (exponent : Int) : ℚ :=
  if 0 ≤ exponent then ((2 ^ exponent.toNat : Nat) : ℚ) else 1 / ((2 ^ (-exponent).toNat : Nat) : ℚ)

/-- The `e` with `2 ^ e ≤ q < 2 ^ (e + 1)`, for positive `q`. -/
def exponentOf (q : ℚ) : Int :=
  let guess : Int := (Nat.log2 q.num.natAbs : Int) - (Nat.log2 q.den : Int)
  if q < pow2 guess then guess - 1 else guess

def roundEven (q : ℚ) : Int :=
  let floor := ⌊q⌋
  let rest := q - floor
  if rest < 1 / 2 then floor
  else if 1 / 2 < rest then floor + 1
  else if floor % 2 = 0 then floor else floor + 1

/-- Nearest value with a 53-bit significand. Overflow and subnormals are left
out: the source's operands are ratios of 64-bit integers. -/
def round (q : ℚ) : Double :=
  if q = 0 then ⟨0⟩
  else
    let ulp := pow2 (exponentOf |q| - 52)
    ⟨roundEven (q / ulp) * ulp⟩

end Double

instance : FloatArith Double where
  ofRat q := Double.round q
  add x y := Double.round (x.value + y.value)
  sub x y := Double.round (x.value - y.value)
  mul x y := Double.round (x.value * y.value)
  div x y := Double.round (x.value / y.value)
  lt x y := decide (x.value < y.value)
  le x y := decide (x.value ≤ y.value)
  max x y := if x.value < y.value then y else x
  min x y := if y.value < x.value then y else x
  isFinite _ := true
  toNat x := ⌊x.value⌋.toNat

example : (FloatArith.ofRat (21 / 20) : Double).value = 4728779608739021 / 4503599627370496 := by
  decide +kernel

end Helios
