import Helios.Machine

/-! Checked operators. `checked_sub(..).unwrap_or(0)` is the difference of naturals. -/

namespace Helios.Machine

def checkedAdd (bits a b : Nat) : Option Nat := if a + b < 2 ^ bits then some (a + b) else none

def checkedMul (bits a b : Nat) : Option Nat := if a * b < 2 ^ bits then some (a * b) else none

def checkedDiv (a b : Nat) : Option Nat := if b = 0 then none else some (a / b)

@[simp] theorem checkedAdd_of_lt (bits a b : Nat) (fits : a + b < 2 ^ bits) :
    checkedAdd bits a b = some (a + b) := if_pos fits

@[simp] theorem checkedAdd_of_le (bits a b : Nat) (exceeds : 2 ^ bits ≤ a + b) :
    checkedAdd bits a b = none := if_neg (not_lt.mpr exceeds)

@[simp] theorem checkedMul_of_lt (bits a b : Nat) (fits : a * b < 2 ^ bits) :
    checkedMul bits a b = some (a * b) := if_pos fits

@[simp] theorem checkedMul_of_le (bits a b : Nat) (exceeds : 2 ^ bits ≤ a * b) :
    checkedMul bits a b = none := if_neg (not_lt.mpr exceeds)

@[simp] theorem checkedDiv_of_pos (a b : Nat) (positive : 0 < b) :
    checkedDiv a b = some (a / b) := if_neg (Nat.ne_of_gt positive)

end Helios.Machine
