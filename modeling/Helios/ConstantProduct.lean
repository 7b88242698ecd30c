import Mathlib.Algebra.BigOperators.Group.List.Basic
import Mathlib.Tactic

/-! A constant-product market with the outputs rounded down: paying in parts never buys
more than paying at once. -/

namespace Helios.ConstantProduct

/-- What a payment takes out of the other reserve. -/
def output (reserveIn reserveOut paid : Nat) : Nat := paid * reserveOut / (reserveIn + paid)

/-- A payment: the part that counts towards the price, and what enters the reserve. -/
structure Payment where
  counted : Nat
  added : Nat
  kept : counted ≤ added

/-- The outputs of payments made one after the other. -/
def outputs : Nat → Nat → List Payment → List Nat
  | _, _, [] => []
  | reserveIn, reserveOut, payment :: rest =>
      let out := output reserveIn reserveOut payment.counted
      out :: outputs (reserveIn + payment.added) (reserveOut - out) rest

theorem output_mul_le (reserveIn reserveOut paid : Nat) :
    output reserveIn reserveOut paid * (reserveIn + paid) ≤ paid * reserveOut :=
  Nat.div_mul_le_self _ _

theorem output_le (reserveIn reserveOut paid : Nat) : output reserveIn reserveOut paid ≤ reserveOut := by
  apply Nat.div_le_of_le_mul
  exact Nat.mul_le_mul_right reserveOut (Nat.le_add_left paid reserveIn)

theorem output_lt (reserveIn reserveOut paid : Nat) (filled : 0 < reserveIn)
    (stocked : 0 < reserveOut) : output reserveIn reserveOut paid < reserveOut := by
  apply Nat.div_lt_of_lt_mul
  exact Nat.mul_lt_mul_of_pos_right (by omega) stocked

/-- The product of the reserves does not fall exactly if no more is taken out than paid for. -/
theorem product_le_iff (reserveIn reserveOut paid taken : Nat) (filled : 0 < reserveIn)
    (stocked : 0 < reserveOut) :
    reserveIn * reserveOut ≤ (reserveIn + paid) * (reserveOut - taken) ↔
      taken ≤ output reserveIn reserveOut paid := by
  have positive : 0 < reserveIn * reserveOut := Nat.mul_pos filled stocked
  rw [output, Nat.le_div_iff_mul_le (by omega)]
  rcases Nat.lt_or_ge reserveOut taken with more | within
  · have product : paid * reserveOut < taken * (reserveIn + paid) := by
      calc paid * reserveOut < reserveIn * reserveOut + paid * reserveOut := by omega
        _ = reserveOut * (reserveIn + paid) := by ring
        _ ≤ taken * (reserveIn + paid) := Nat.mul_le_mul_right _ more.le
    rw [Nat.sub_eq_zero_of_le more.le, Nat.mul_zero]
    omega
  · obtain ⟨left, split⟩ := Nat.exists_eq_add_of_le within
    rw [split, Nat.add_sub_cancel_left]
    constructor
    · intro grows
      nlinarith
    · intro covered
      nlinarith

/-- What a whole number of units costs. -/
theorem le_output_iff (reserveIn reserveOut paid units : Nat) (filled : 0 < reserveIn)
    (within : units ≤ reserveOut) :
    units ≤ output reserveIn reserveOut paid ↔
      units * reserveIn ≤ paid * (reserveOut - units) := by
  obtain ⟨left, split⟩ := Nat.exists_eq_add_of_le within
  rw [output, Nat.le_div_iff_mul_le (by omega), split, Nat.add_sub_cancel_left, Nat.mul_add,
    Nat.mul_add, Nat.mul_comm paid units, Nat.add_comm (units * paid)]
  exact Nat.add_le_add_iff_right

/-- A deeper reserve gives less. -/
theorem output_anti (reserveIn deeper reserveOut paid : Nat) (less : reserveIn ≤ deeper) :
    output deeper reserveOut paid ≤ output reserveIn reserveOut paid := by
  rcases Nat.eq_zero_or_pos (reserveIn + paid) with empty | filled
  · have nothing : paid = 0 := by omega
    simp [output, nothing]
  · exact Nat.div_le_div_left (by omega) filled

/-- A larger payment buys more. -/
theorem output_mono (reserveIn reserveOut paid more : Nat) (less : paid ≤ more) :
    output reserveIn reserveOut paid ≤ output reserveIn reserveOut more := by
  rcases Nat.eq_zero_or_pos (reserveIn + paid) with empty | filled
  · have nothing : paid = 0 := by omega
    simp [output, nothing]
  · have out := output_mul_le reserveIn reserveOut paid
    have within := output_le reserveIn reserveOut paid
    generalize output reserveIn reserveOut paid = taken at out within ⊢
    obtain ⟨extra, split⟩ := Nat.exists_eq_add_of_le less
    rw [output, Nat.le_div_iff_mul_le (by omega), split]
    calc taken * (reserveIn + (paid + extra))
        = taken * (reserveIn + paid) + taken * extra := by ring
      _ ≤ paid * reserveOut + reserveOut * extra :=
          Nat.add_le_add out (Nat.mul_le_mul_right extra within)
      _ = (paid + extra) * reserveOut := by ring

/-- Only the ratio of payment and reserve counts. -/
theorem output_scale (reserveIn reserveOut paid scale : Nat) (positive : 0 < scale) :
    output (reserveIn * scale) reserveOut (paid * scale) = output reserveIn reserveOut paid := by
  have dividend : paid * scale * reserveOut = scale * (paid * reserveOut) := by ring
  have divisor : reserveIn * scale + paid * scale = scale * (reserveIn + paid) := by ring
  rw [output, output, dividend, divisor, Nat.mul_div_mul_left _ _ positive]

/-- Bought at a rate no better than the one it is sold at, nothing comes back with a gain. -/
theorem output_between_le (reserveA reserveB otherA otherB paid : Nat) (filled : 0 < reserveA)
    (rate : reserveB * otherA ≤ otherB * reserveA) :
    output otherB otherA (output reserveA reserveB paid) ≤ paid := by
  have out := output_mul_le reserveA reserveB paid
  generalize output reserveA reserveB paid = bought at out ⊢
  apply Nat.div_le_of_le_mul
  apply Nat.le_of_mul_le_mul_right _ filled
  have bound : bought * reserveA ≤ paid * reserveB := by
    calc bought * reserveA ≤ bought * (reserveA + paid) :=
          Nat.mul_le_mul_left bought (Nat.le_add_right _ _)
      _ ≤ paid * reserveB := out
  calc bought * otherA * reserveA = bought * reserveA * otherA := by ring
    _ ≤ paid * reserveB * otherA := Nat.mul_le_mul_right otherA bound
    _ = paid * (reserveB * otherA) := by ring
    _ ≤ paid * (otherB * reserveA) := Nat.mul_le_mul_left paid rate
    _ ≤ (otherB + bought) * paid * reserveA := by nlinarith [Nat.zero_le (bought * paid * reserveA)]

/-- What is bought is never worth more than was paid, sold to the reserves as they stood. -/
theorem output_back_le (reserveIn reserveOut paid : Nat) :
    output reserveOut reserveIn (output reserveIn reserveOut paid) ≤ paid := by
  rcases Nat.eq_zero_or_pos reserveIn with empty | filled
  · rw [empty, output, Nat.mul_zero, Nat.zero_div]
    exact Nat.zero_le paid
  · exact output_between_le reserveIn reserveOut reserveIn reserveOut paid filled le_rfl

/-- Two payments in a row against both at once. -/
theorem output_add_le (reserveIn reserveOut first added second : Nat) (kept : first ≤ added) :
    output reserveIn reserveOut first +
        output (reserveIn + added) (reserveOut - output reserveIn reserveOut first) second ≤
      output reserveIn reserveOut (first + second) := by
  rcases Nat.eq_zero_or_pos (reserveIn + (first + second)) with empty | filled
  · have nothing : first = 0 ∧ second = 0 := by omega
    simp [output, nothing.1, nothing.2]
  have out := output_mul_le reserveIn reserveOut first
  have within := output_le reserveIn reserveOut first
  generalize output reserveIn reserveOut first = taken at out within ⊢
  -- the second payment would give more, had the first not raised the reserve by the fee too
  have shallower := output_anti (reserveIn + first) (reserveIn + added) (reserveOut - taken) second
    (by omega)
  have later := output_mul_le (reserveIn + first) (reserveOut - taken) second
  have rest := output_le (reserveIn + first) (reserveOut - taken) second
  generalize output (reserveIn + first) (reserveOut - taken) second = more at shallower later rest
  have both : taken + more ≤ output reserveIn reserveOut (first + second) := by
    rw [output, Nat.le_div_iff_mul_le filled]
    obtain ⟨left, split⟩ := Nat.exists_eq_add_of_le within
    rw [split, Nat.add_sub_cancel_left] at later
    rw [split] at out ⊢
    calc (taken + more) * (reserveIn + (first + second))
        = taken * (reserveIn + first) + taken * second +
            more * (reserveIn + first + second) := by ring
      _ ≤ first * (taken + left) + taken * second + second * left := by omega
      _ = (first + second) * (taken + left) := by ring
  omega

/-- Any number of payments against their sum. -/
theorem outputs_sum_le (reserveIn reserveOut : Nat) (payments : List Payment) :
    (outputs reserveIn reserveOut payments).sum ≤
      output reserveIn reserveOut (payments.map Payment.counted).sum := by
  induction payments generalizing reserveIn reserveOut with
  | nil => exact Nat.zero_le _
  | cons payment rest ih =>
      rw [outputs, List.sum_cons, List.map_cons, List.sum_cons]
      calc output reserveIn reserveOut payment.counted +
            (outputs (reserveIn + payment.added)
              (reserveOut - output reserveIn reserveOut payment.counted) rest).sum
          ≤ output reserveIn reserveOut payment.counted +
              output (reserveIn + payment.added)
                (reserveOut - output reserveIn reserveOut payment.counted)
                (rest.map Payment.counted).sum := Nat.add_le_add_left (ih _ _) _
        _ ≤ output reserveIn reserveOut (payment.counted + (rest.map Payment.counted).sum) :=
          output_add_le reserveIn reserveOut payment.counted payment.added _ payment.kept

end Helios.ConstantProduct
