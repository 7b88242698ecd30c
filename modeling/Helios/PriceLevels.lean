import Mathlib.Algebra.BigOperators.Group.List.Basic
import Mathlib.Tactic

/-! Buying down a row of prices and selling back up the row. Each level keeps what was spent
and bought on it the first time, and what was paid and returned the second time. -/

namespace Helios.PriceLevels

/-- A level, with the price in parts of a unit. -/
structure Level where
  price : Nat
  spent : Nat
  bought : Nat
  paid : Nat
  returned : Nat

/-- No payment gets more than the price gives. -/
structure Fair (unit : Nat) (level : Level) : Prop where
  bought : level.bought * unit ≤ level.spent * level.price
  returned : level.returned * level.price ≤ level.paid * unit
  priced : level.price = 0 → level.returned = 0

/-- A level returns no more than was spent on it, or nothing was bought above it. -/
def Covers (lower upper : Level) : Prop := lower.returned ≤ lower.spent ∨ upper.bought = 0

theorem bought_zero (levels : List Level) (none_ : ∀ level ∈ levels, level.bought = 0) :
    (levels.map Level.bought).sum = 0 := by
  rw [List.sum_eq_zero_iff]
  intro amount member
  rcases List.mem_map.mp member with ⟨level, inLevels, same⟩
  rw [← same]
  exact none_ level inLevels

/-- The invariant, from the lowest price up: what was bought so far and not paid back is worth
no more, at the last price, than what was spent so far and not returned. -/
theorem kept_nonneg (unit : Nat) (levels : List Level) (kept owed : Int) (price : Nat)
    (nonneg : 0 ≤ kept) (worth : owed * unit ≤ kept * price)
    (above : ∀ level ∈ levels, price ≤ level.price)
    (rising : levels.Pairwise (fun lower upper => lower.price ≤ upper.price))
    (fair : ∀ level ∈ levels, Fair unit level) (covered : levels.Pairwise Covers)
    (enough : 0 ≤ owed + (levels.map Level.bought).sum - (levels.map Level.paid).sum) :
    0 ≤ kept + (levels.map Level.spent).sum - (levels.map Level.returned).sum := by
  induction levels generalizing kept owed price with
  | nil => simpa using nonneg
  | cons level rest ih =>
      rcases List.pairwise_cons.mp rising with ⟨first, risingRest⟩
      rcases List.pairwise_cons.mp covered with ⟨cover, coveredRest⟩
      have here := fair level List.mem_cons_self
      have climbs : (price : Int) ≤ level.price := by
        exact_mod_cast above level List.mem_cons_self
      have gets : (level.bought : Int) * unit ≤ level.spent * level.price := by
        exact_mod_cast here.bought
      have gives : (level.returned : Int) * level.price ≤ level.paid * unit := by
        exact_mod_cast here.returned
      simp only [List.map_cons, List.sum_cons, Nat.cast_add] at enough ⊢
      have worthHere : (owed + level.bought - level.paid) * unit ≤
          (kept + level.spent - level.returned) * level.price :=
        calc (owed + level.bought - level.paid) * unit
            = owed * unit + level.bought * unit - level.paid * unit := by ring
          _ ≤ kept * price + level.spent * level.price - level.returned * level.price := by
              linarith
          _ ≤ kept * level.price + level.spent * level.price - level.returned * level.price := by
              have scaled := mul_le_mul_of_nonneg_left climbs nonneg
              linarith
          _ = (kept + level.spent - level.returned) * level.price := by ring
      have nonnegHere : 0 ≤ kept + level.spent - level.returned := by
        by_cases within : level.returned ≤ level.spent
        · omega
        · -- Nothing is bought further up, so what is owed here already covers the rest.
          have nothing : (rest.map Level.bought).sum = 0 := by
            apply bought_zero
            intro other member
            exact (cover other member).resolve_left within
          have owes : 0 ≤ owed + level.bought - level.paid := by
            rw [nothing] at enough
            omega
          have positive : 0 < level.price := by
            by_contra free
            have zero := here.priced (by omega)
            omega
          have scaled : 0 ≤ (kept + level.spent - level.returned) * level.price :=
            (mul_nonneg owes (Int.natCast_nonneg unit)).trans worthHere
          exact nonneg_of_mul_nonneg_left scaled (by exact_mod_cast positive)
      have later := ih (kept + level.spent - level.returned) (owed + level.bought - level.paid)
        level.price nonnegHere worthHere first risingRest
        (fun other member => fair other (List.mem_cons_of_mem _ member)) coveredRest (by omega)
      omega

/-- Paying back no more than was bought returns no more than was spent. -/
theorem returned_le_spent (unit : Nat) (levels : List Level)
    (rising : levels.Pairwise (fun lower upper => lower.price ≤ upper.price))
    (fair : ∀ level ∈ levels, Fair unit level) (covered : levels.Pairwise Covers)
    (enough : (levels.map Level.paid).sum ≤ (levels.map Level.bought).sum) :
    (levels.map Level.returned).sum ≤ (levels.map Level.spent).sum := by
  have kept := kept_nonneg unit levels 0 0 0 (le_refl 0) (by simp)
    (fun level _ => Nat.zero_le level.price) rising fair covered (by omega)
  omega

end Helios.PriceLevels
