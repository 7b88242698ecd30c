import Mathlib.Algebra.Order.Floor.Div
import Mathlib.Algebra.BigOperators.Group.List.Basic
import Mathlib.Tactic

/-! Buying from offers one after the other, each at a price of its own and with a fee on what
is paid. Everything is rounded against the buyer. -/

namespace Helios.PriceLadder

/-! The fee: a part `rate / base` of what is paid, rounded up. -/

/-- What is left of a payment after the fee. -/
def net (rate base paid : Nat) : Nat := paid - (paid * rate) ⌈/⌉ base

/-- What has to be paid for an amount that is meant to be left. -/
def gross (rate base wanted : Nat) : Nat := wanted + (wanted * rate) ⌈/⌉ (base - rate)

theorem le_ceilDiv_mul (a b : Nat) (positive : 0 < b) : a ≤ a ⌈/⌉ b * b := by
  rw [Nat.mul_comm]
  exact (ceilDiv_le_iff_le_smul positive).mp (le_refl _)

theorem ceilDiv_mul_lt (a b : Nat) (positive : 0 < b) : a ⌈/⌉ b * b < a + b := by
  rw [Nat.ceilDiv_eq_add_pred_div]
  have below := Nat.div_mul_le_self (a + b - 1) b
  omega

section Fee

variable (rate base : Nat) (proper : rate < base)

include proper

/-- The fee leaves the other part of the payment, rounded down. -/
theorem net_eq (paid : Nat) : net rate base paid = paid * (base - rate) / base := by
  have positive : 0 < base := by omega
  have above := le_ceilDiv_mul (paid * rate) base positive
  have below := ceilDiv_mul_lt (paid * rate) base positive
  have parts : paid * (base - rate) + paid * rate = paid * base := by
    rw [← Nat.mul_add, Nat.sub_add_cancel proper.le]
  have fee : (paid * rate) ⌈/⌉ base ≤ paid := by
    rw [ceilDiv_le_iff_le_smul positive, smul_eq_mul, Nat.mul_comm base]
    exact Nat.mul_le_mul_left _ proper.le
  have whole : (paid - (paid * rate) ⌈/⌉ base) * base + (paid * rate) ⌈/⌉ base * base =
      paid * base := by
    rw [← Nat.add_mul, Nat.sub_add_cancel fee]
  rw [net]
  symm
  apply Nat.div_eq_of_lt_le
  · omega
  · rw [Nat.add_mul]
    omega

theorem net_mono (paid more : Nat) (less : paid ≤ more) :
    net rate base paid ≤ net rate base more := by
  rw [net_eq rate base proper, net_eq rate base proper]
  exact Nat.div_le_div_right (Nat.mul_le_mul_right _ less)

/-- Whoever pays the gross amount has the wanted amount left. -/
theorem le_net_of_gross_le (wanted paid : Nat) (enough : gross rate base wanted ≤ paid) :
    wanted ≤ net rate base paid := by
  have above := le_ceilDiv_mul (wanted * rate) (base - rate) (by omega)
  have scaled := Nat.mul_le_mul_right (base - rate) enough
  have parts : wanted * (base - rate) + wanted * rate = wanted * base := by
    rw [← Nat.mul_add, Nat.sub_add_cancel proper.le]
  rw [gross, Nat.add_mul] at scaled
  rw [net_eq rate base proper, Nat.le_div_iff_mul_le (by omega)]
  omega

end Fee

theorem net_le (rate base paid : Nat) : net rate base paid ≤ paid := Nat.sub_le _ _

theorem le_gross (rate base wanted : Nat) : wanted ≤ gross rate base wanted := Nat.le_add_right _ _

/-! The offers. -/

/-- So much given for so much taken, as long as the stock lasts. -/
structure Offer where
  gives : Nat
  takes : Nat
  stock : Nat
  deriving DecidableEq

structure Fill where
  spent : Nat
  bought : Nat
  deriving DecidableEq

def none_ : Fill := ⟨0, 0⟩

def Offer.cost (offer : Offer) : Nat := (offer.stock * offer.takes) ⌈/⌉ offer.gives

def Offer.buys (offer : Offer) (paid : Nat) : Nat := paid * offer.gives / offer.takes

section Ladder

variable (rate base limit : Nat)

/-- What a buyer with so much left takes of an offer: all of it, or as much as the rest buys.
An amount that exceeds the limit is not bought at all. -/
def fillOf (offer : Offer) (left : Nat) : Fill :=
  if offer.stock = 0 ∨ offer.gives = 0 then none_
  else if gross rate base offer.cost < left then ⟨gross rate base offer.cost, offer.stock⟩
  else if offer.takes = 0 ∨ limit < offer.buys (net rate base left) then none_
  else ⟨left, min (offer.buys (net rate base left)) offer.stock⟩

/-- Nothing is taken when nothing is left, paid or bought. -/
def taken (offer : Offer) (left : Nat) : Fill :=
  let fill := fillOf rate base limit offer left
  if left = 0 ∨ fill.spent = 0 ∨ fill.bought = 0 then none_ else fill

def fills : List Offer → Nat → List Fill
  | [], _ => []
  | offer :: rest, left =>
      let fill := taken rate base limit offer left
      fill :: fills rest (left - fill.spent)

def total (offers : List Offer) (left : Nat) : Nat :=
  ((fills rate base limit offers left).map Fill.bought).sum

theorem total_cons (offer : Offer) (rest : List Offer) (left : Nat) :
    total rate base limit (offer :: rest) left =
      (taken rate base limit offer left).bought +
        total rate base limit rest (left - (taken rate base limit offer left).spent) := by
  rw [total, fills, List.map_cons, List.sum_cons, total]

/-- The cases of a fill: nothing, all of the stock, or all of the money. -/
theorem taken_cases (offer : Offer) (left : Nat) :
    taken rate base limit offer left = none_ ∨
      (0 < offer.gives ∧ gross rate base offer.cost < left ∧ 0 < offer.stock ∧
        taken rate base limit offer left = ⟨gross rate base offer.cost, offer.stock⟩) ∨
      (0 < offer.takes ∧ left ≤ gross rate base offer.cost ∧
        offer.buys (net rate base left) ≤ limit ∧ 0 < left ∧
        0 < min (offer.buys (net rate base left)) offer.stock ∧
        taken rate base limit offer left =
          ⟨left, min (offer.buys (net rate base left)) offer.stock⟩) := by
  rw [taken]
  split
  · exact Or.inl rfl
  · next filled =>
      right
      rcases not_or.mp filled with ⟨more, bought⟩
      rw [fillOf] at bought ⊢
      split
      · next idle =>
          rw [if_pos idle] at bought
          exact absurd (Or.inl rfl) bought
      · next busy =>
          rw [if_neg busy] at bought
          split
          · next whole =>
              rcases not_or.mp busy with ⟨stocked, giving⟩
              exact Or.inl ⟨Nat.pos_of_ne_zero giving, whole, Nat.pos_of_ne_zero stocked, rfl⟩
          · next part =>
              rw [if_neg part] at bought
              split
              · next refused =>
                  rw [if_pos refused] at bought
                  exact absurd (Or.inl rfl) bought
              · next allowed =>
                  rw [if_neg allowed] at bought
                  rcases not_or.mp allowed with ⟨priced, within⟩
                  exact Or.inr ⟨Nat.pos_of_ne_zero priced, not_lt.mp part, not_lt.mp within,
                    Nat.pos_of_ne_zero more, Nat.pos_of_ne_zero (not_or.mp bought).2, rfl⟩

theorem taken_bought_le (offer : Offer) (left : Nat) :
    (taken rate base limit offer left).bought ≤ offer.stock := by
  rcases taken_cases rate base limit offer left with same | ⟨-, -, -, same⟩ | ⟨-, -, -, -, -, same⟩
  · rw [same]
    exact Nat.zero_le _
  · rw [same]
  · rw [same]
    exact Nat.min_le_right _ _

theorem taken_spent_le (offer : Offer) (left : Nat) :
    (taken rate base limit offer left).spent ≤ left := by
  rcases taken_cases rate base limit offer left with same | ⟨-, less, -, same⟩ | ⟨-, -, -, -, -, same⟩
  · rw [same]
    exact Nat.zero_le _
  · rw [same]
    exact less.le
  · rw [same]

/-- Never more than the price allows. -/
theorem taken_fair (offer : Offer) (left : Nat) :
    (taken rate base limit offer left).bought * offer.takes ≤
      (taken rate base limit offer left).spent * offer.gives := by
  rcases taken_cases rate base limit offer left with same | ⟨gives, -, -, same⟩ | ⟨-, -, -, -, -, same⟩
  · rw [same]
    simp [none_]
  · rw [same]
    exact (le_ceilDiv_mul _ _ gives).trans (Nat.mul_le_mul_right _ (le_gross _ _ _))
  · rw [same]
    calc min (offer.buys (net rate base left)) offer.stock * offer.takes
        ≤ offer.buys (net rate base left) * offer.takes :=
          Nat.mul_le_mul_right _ (Nat.min_le_left _ _)
      _ ≤ net rate base left * offer.gives := Nat.div_mul_le_self _ _
      _ ≤ left * offer.gives := Nat.mul_le_mul_right _ (net_le _ _ _)

/-- No purchase pays more than the stocks hold. -/
theorem total_le (offers : List Offer) (left : Nat) :
    total rate base limit offers left ≤ (offers.map Offer.stock).sum := by
  induction offers generalizing left with
  | nil => exact Nat.le_refl _
  | cons offer rest ih =>
      rw [total_cons, List.map_cons, List.sum_cons]
      exact Nat.add_le_add (taken_bought_le _ _ _ offer left) (ih _)

/-- Nor spends more than there is. -/
theorem spent_le (offers : List Offer) (left : Nat) :
    ((fills rate base limit offers left).map Fill.spent).sum ≤ left := by
  induction offers generalizing left with
  | nil => exact Nat.zero_le _
  | cons offer rest ih =>
      have here := taken_spent_le rate base limit offer left
      have later := ih (left - (taken rate base limit offer left).spent)
      rw [fills, List.map_cons, List.sum_cons]
      omega

theorem taken_zero (offer : Offer) : taken rate base limit offer 0 = none_ := by
  rw [taken, if_pos (Or.inl rfl)]

theorem total_zero (offers : List Offer) : total rate base limit offers 0 = 0 := by
  induction offers with
  | nil => rfl
  | cons offer rest ih =>
      rw [total_cons, taken_zero]
      simpa [none_] using ih

theorem taken_idle (offer : Offer) (idle : offer.stock = 0 ∨ offer.gives = 0) (left : Nat) :
    taken rate base limit offer left = none_ := by
  rw [taken, fillOf, if_pos idle]
  exact if_pos (Or.inr (Or.inl rfl))

theorem taken_whole (offer : Offer) (stocked : offer.stock ≠ 0) (giving : offer.gives ≠ 0)
    (left : Nat) (whole : gross rate base offer.cost < left)
    (costs : gross rate base offer.cost ≠ 0) :
    taken rate base limit offer left = ⟨gross rate base offer.cost, offer.stock⟩ := by
  rw [taken, fillOf, if_neg (not_or.mpr ⟨stocked, giving⟩), if_pos whole]
  exact if_neg (not_or.mpr ⟨by omega, not_or.mpr ⟨costs, stocked⟩⟩)

theorem taken_free (offer : Offer) (stocked : offer.stock ≠ 0) (giving : offer.gives ≠ 0)
    (left : Nat) (whole : gross rate base offer.cost < left)
    (free : gross rate base offer.cost = 0) : taken rate base limit offer left = none_ := by
  rw [taken, fillOf, if_neg (not_or.mpr ⟨stocked, giving⟩), if_pos whole]
  exact if_pos (Or.inr (Or.inl free))

theorem taken_unpriced (offer : Offer) (free : offer.takes = 0) (left : Nat) :
    taken rate base limit offer left = none_ := by
  by_cases idle : offer.stock = 0 ∨ offer.gives = 0
  · exact taken_idle rate base limit offer idle left
  · rcases not_or.mp idle with ⟨stocked, giving⟩
    have nothing : gross rate base offer.cost = 0 := by
      rw [Offer.cost, free]
      simp [gross]
    rcases Nat.eq_zero_or_pos left with zero | more
    · rw [zero, taken_zero]
    · exact taken_free rate base limit offer stocked giving left (by omega) nothing

theorem taken_part (offer : Offer) (stocked : offer.stock ≠ 0) (giving : offer.gives ≠ 0)
    (left : Nat) (part : left ≤ gross rate base offer.cost) (priced : offer.takes ≠ 0)
    (within : offer.buys (net rate base left) ≤ limit) (more : left ≠ 0)
    (buys : offer.buys (net rate base left) ≠ 0) :
    taken rate base limit offer left =
      ⟨left, min (offer.buys (net rate base left)) offer.stock⟩ := by
  rw [taken, fillOf, if_neg (not_or.mpr ⟨stocked, giving⟩), if_neg (not_lt.mpr part),
    if_neg (not_or.mpr ⟨priced, not_lt.mpr within⟩)]
  apply if_neg
  rw [not_or, not_or]
  refine ⟨more, more, ?_⟩
  dsimp only
  omega

end Ladder

/-! More money buys more, from offers that get no better. -/

/-- The later offer gives no more for what it takes. -/
def NoBetter (earlier later : Offer) : Prop :=
  later.gives * earlier.takes ≤ earlier.gives * later.takes

section Mono

variable (rate base limit : Nat) (proper : rate < base)

/-- Nothing at all for what is left, at this price. -/
def Starved (left : Nat) (offer : Offer) : Prop :=
  offer.gives = 0 ∨ net rate base left * offer.gives < offer.takes

theorem Starved.next {left : Nat} {earlier later : Offer} (worse : NoBetter earlier later)
    (starved : net rate base left * earlier.gives < earlier.takes) :
    Starved rate base left later := by
  rcases Nat.eq_zero_or_pos later.gives with none_ | gives
  · exact Or.inl none_
  · right
    have takes : 0 < later.takes := by
      by_contra free
      have positive : 0 < later.gives * earlier.takes := Nat.mul_pos gives (by omega)
      rw [NoBetter, show later.takes = 0 by omega, Nat.mul_zero] at worse
      omega
    have scaled : net rate base left * later.gives * earlier.takes <
        later.takes * earlier.takes :=
      calc net rate base left * later.gives * earlier.takes
          = net rate base left * (later.gives * earlier.takes) := Nat.mul_assoc _ _ _
        _ ≤ net rate base left * (earlier.gives * later.takes) := Nat.mul_le_mul_left _ worse
        _ = net rate base left * earlier.gives * later.takes := (Nat.mul_assoc _ _ _).symm
        _ < earlier.takes * later.takes := Nat.mul_lt_mul_of_pos_right starved takes
        _ = later.takes * earlier.takes := Nat.mul_comm _ _
    exact Nat.lt_of_mul_lt_mul_right scaled

include proper

theorem Starved.taken {left : Nat} {offer : Offer} (starved : Starved rate base left offer) :
    PriceLadder.taken rate base limit offer left = none_ := by
  rcases taken_cases rate base limit offer left with
    same | ⟨gives, less, stocked, -⟩ | ⟨takes, -, -, -, bought, -⟩
  · exact same
  · exfalso
    rcases starved with none_ | few
    · omega
    · have paid := le_net_of_gross_le rate base proper offer.cost left less.le
      have whole : offer.stock * offer.takes ≤ net rate base left * offer.gives :=
        (le_ceilDiv_mul _ _ gives).trans (Nat.mul_le_mul_right _ paid)
      have one : offer.takes ≤ offer.stock * offer.takes := Nat.le_mul_of_pos_left _ stocked
      omega
  · exfalso
    have some_ : 0 < offer.buys (net rate base left) := lt_of_lt_of_le bought (Nat.min_le_left _ _)
    rw [Offer.buys, Nat.div_pos_iff] at some_
    rcases starved with none_ | few
    · rw [none_, Nat.mul_zero] at some_
      omega
    · omega

theorem total_starved (offers : List Offer) (left : Nat)
    (starved : ∀ offer ∈ offers, Starved rate base left offer) :
    total rate base limit offers left = 0 := by
  induction offers with
  | nil => rfl
  | cons offer rest ih =>
      rw [total_cons, (starved offer List.mem_cons_self).taken rate base limit proper]
      simpa [none_] using ih (fun other member => starved other (List.mem_cons_of_mem _ member))

/-- No payment up to the top buys a part of this offer that exceeds the limit. -/
def Within (top : Nat) (offer : Offer) : Prop :=
  ∀ paid, 0 < paid → paid ≤ top → paid ≤ gross rate base offer.cost →
    offer.buys (net rate base paid) ≤ limit

theorem total_mono (top : Nat) (offers : List Offer) (worse : offers.Pairwise NoBetter)
    (within : ∀ offer ∈ offers, Within rate base limit top offer) (left more : Nat)
    (less : left ≤ more) (bounded : more ≤ top) :
    total rate base limit offers left ≤ total rate base limit offers more := by
  induction offers generalizing left more with
  | nil => exact Nat.le_refl _
  | cons offer rest ih =>
      rcases List.pairwise_cons.mp worse with ⟨first, others⟩
      have later := ih others (fun other member => within other (List.mem_cons_of_mem _ member))
      have here := within offer List.mem_cons_self
      by_cases zero : left = 0
      · rw [zero, total_zero]
        exact Nat.zero_le _
      rw [total_cons, total_cons]
      by_cases idle : offer.stock = 0 ∨ offer.gives = 0
      · rw [taken_idle _ _ _ offer idle, taken_idle _ _ _ offer idle]
        exact Nat.add_le_add_left (later _ _ less bounded) _
      rcases not_or.mp idle with ⟨stocked, giving⟩
      by_cases whole : gross rate base offer.cost < left
      · -- Both take the whole of it, or both find it free.
        have same : taken rate base limit offer left = taken rate base limit offer more := by
          by_cases free : gross rate base offer.cost = 0
          · rw [taken_free _ _ _ offer stocked giving left whole free,
              taken_free _ _ _ offer stocked giving more (by omega) free]
          · rw [taken_whole _ _ _ offer stocked giving left whole free,
              taken_whole _ _ _ offer stocked giving more (by omega) free]
        rw [same]
        exact Nat.add_le_add_left (later _ _ (by omega) (by omega)) _
      · have part : left ≤ gross rate base offer.cost := not_lt.mp whole
        have priced : offer.takes ≠ 0 := by
          intro free
          apply zero
          have nothing : gross rate base offer.cost = 0 := by
            rw [Offer.cost, free]
            simp [gross]
          omega
        by_cases few : offer.buys (net rate base left) = 0
        · -- Too little for one unit here is too little further on.
          have short : net rate base left * offer.gives < offer.takes := by
            rw [Offer.buys, Nat.div_eq_zero_iff] at few
            omega
          have none_here : Starved rate base left offer := Or.inr short
          rw [none_here.taken rate base limit proper]
          have rest_ := total_starved rate base limit proper rest left
            (fun other member => Starved.next rate base (first other member) short)
          simp [none_, rest_]
        · rw [taken_part _ _ _ offer stocked giving left part priced
              (here left (by omega) (by omega) part) zero few, Nat.sub_self, total_zero,
            Nat.add_zero]
          by_cases wholeMore : gross rate base offer.cost < more
          · rw [taken_whole _ _ _ offer stocked giving more wholeMore (by omega)]
            exact (Nat.min_le_right _ _).trans (Nat.le_add_right _ _)
          · have grows : offer.buys (net rate base left) ≤ offer.buys (net rate base more) :=
              Nat.div_le_div_right
                (Nat.mul_le_mul_right _ (net_mono rate base proper left more less))
            rw [taken_part _ _ _ offer stocked giving more (not_lt.mp wholeMore) priced
              (here more (by omega) bounded (not_lt.mp wholeMore)) (by omega) (by omega)]
            exact (min_le_min_right _ grows).trans (Nat.le_add_right _ _)

end Mono

/-! Who sold what: the fills, each under the key of its offer. -/

section Keyed

variable {K : Type} [DecidableEq K] (rate base limit : Nat)

def amountAt (amount : Fill → Nat) (trace : List (K × Fill)) (key : K) : Nat :=
  ((trace.filter (fun entry => decide (entry.1 = key))).map (fun entry => amount entry.2)).sum

theorem amountAt_cons (amount : Fill → Nat) (entry : K × Fill) (rest : List (K × Fill))
    (key : K) :
    amountAt amount (entry :: rest) key =
      (if entry.1 = key then amount entry.2 else 0) + amountAt amount rest key := by
  rw [amountAt, List.filter_cons]
  by_cases same : entry.1 = key
  · simp [same, amountAt]
  · simp [same, amountAt]

/-- The amounts of all keys are the amounts of all fills. -/
theorem sum_amountAt (amount : Fill → Nat) (trace : List (K × Fill)) (keys : Finset K)
    (known : ∀ entry ∈ trace, entry.1 ∈ keys) :
    ∑ key ∈ keys, amountAt amount trace key = (trace.map (fun entry => amount entry.2)).sum := by
  induction trace with
  | nil => simp [amountAt]
  | cons entry rest ih =>
      have member := known entry List.mem_cons_self
      have later := ih (fun other inRest => known other (List.mem_cons_of_mem _ inRest))
      simp only [amountAt_cons]
      rw [Finset.sum_add_distrib, Finset.sum_ite_eq, if_pos member, later, List.map_cons,
        List.sum_cons]

theorem amountAt_eq_zero (amount : Fill → Nat) (trace : List (K × Fill)) (key : K)
    (other : ∀ entry ∈ trace, entry.1 = key → amount entry.2 = 0) :
    amountAt amount trace key = 0 := by
  induction trace with
  | nil => rfl
  | cons entry rest ih =>
      rw [amountAt_cons, ih (fun later member => other later (List.mem_cons_of_mem _ member)),
        Nat.add_zero]
      split
      · next same => exact other entry List.mem_cons_self same
      · rfl

/-- A bound of each fill is a bound of the amount, when no key comes twice. -/
theorem amountAt_le (amount : Fill → Nat) (trace : List (K × Fill)) (key : K) (bound : Nat)
    (once : (trace.map Prod.fst).Nodup)
    (each : ∀ entry ∈ trace, entry.1 = key → amount entry.2 ≤ bound) :
    amountAt amount trace key ≤ bound := by
  induction trace with
  | nil => exact Nat.zero_le _
  | cons entry rest ih =>
      rw [List.map_cons, List.nodup_cons] at once
      rw [amountAt_cons]
      split
      · next same =>
          have elsewhere : amountAt amount rest key = 0 := by
            apply amountAt_eq_zero
            intro later member again
            exfalso
            apply once.1
            rw [same, ← again]
            exact List.mem_map_of_mem member
          rw [elsewhere]
          exact each entry List.mem_cons_self same
      · rw [Nat.zero_add]
        exact ih once.2 (fun later member => each later (List.mem_cons_of_mem _ member))

/-- An inequality between two amounts of each fill holds of their sums. -/
theorem amountAt_mul_le (small large : Fill → Nat) (trace : List (K × Fill)) (key : K)
    (a b : Nat) (each : ∀ entry ∈ trace, entry.1 = key → small entry.2 * a ≤ large entry.2 * b) :
    amountAt small trace key * a ≤ amountAt large trace key * b := by
  induction trace with
  | nil => simp [amountAt]
  | cons entry rest ih =>
      have later := ih (fun other member => each other (List.mem_cons_of_mem _ member))
      rw [amountAt_cons, amountAt_cons, Nat.add_mul, Nat.add_mul]
      split
      · next same =>
          exact Nat.add_le_add (each entry List.mem_cons_self same) later
      · simpa using later

theorem fills_length (offers : List Offer) (left : Nat) :
    (fills rate base limit offers left).length = offers.length := by
  induction offers generalizing left with
  | nil => rfl
  | cons offer rest ih => rw [fills, List.length_cons, List.length_cons, ih]

def trace (keys : List K) (offers : List Offer) (left : Nat) : List (K × Fill) :=
  keys.zip (fills rate base limit offers left)

omit [DecidableEq K] in
theorem mem_trace (keys : List K) (offers : List Offer) (left : Nat) (key : K) (fill : Fill)
    (member : (key, fill) ∈ trace rate base limit keys offers left) :
    ∃ offer before, (key, offer) ∈ keys.zip offers ∧
      fill = taken rate base limit offer before := by
  induction offers generalizing keys left with
  | nil =>
      rw [trace, fills, List.zip_nil_right] at member
      cases member
  | cons offer rest ih =>
      cases keys with
      | nil => cases member
      | cons first others =>
          rw [trace, fills, List.zip_cons_cons] at member
          rcases List.mem_cons.mp member with same | later
          · cases same
            exact ⟨offer, left, List.mem_cons_self, rfl⟩
          · rcases ih others _ later with ⟨found, before, inRest, same⟩
            exact ⟨found, before, List.mem_cons_of_mem _ inRest, same⟩

theorem fills_zero (offers : List Offer) :
    ∀ fill ∈ fills rate base limit offers 0, fill = none_ := by
  induction offers with
  | nil => exact fun _ member => nomatch member
  | cons offer rest ih =>
      rw [fills, taken_zero]
      intro fill member
      rcases List.mem_cons.mp member with same | later
      · exact same
      · exact ih fill later

omit [DecidableEq K] in
/-- A purchase with nothing to spend. -/
theorem trace_zero (keys : List K) (offers : List Offer) (entry : K × Fill)
    (member : entry ∈ trace rate base limit keys offers 0) : entry.2 = none_ :=
  fills_zero rate base limit offers entry.2 (List.of_mem_zip member).2

omit [DecidableEq K] in
theorem trace_keys (keys : List K) (offers : List Offer) (left : Nat)
    (size : keys.length = offers.length) :
    (trace rate base limit keys offers left).map Prod.fst = keys := by
  rw [trace, List.map_fst_zip]
  rw [fills_length, size]

omit [DecidableEq K] in
theorem trace_sum (amount : Fill → Nat) (keys : List K) (offers : List Offer) (left : Nat)
    (size : keys.length = offers.length) :
    ((trace rate base limit keys offers left).map (fun entry => amount entry.2)).sum =
      ((fills rate base limit offers left).map amount).sum := by
  have values : (trace rate base limit keys offers left).map Prod.snd =
      fills rate base limit offers left := by
    rw [trace, List.map_snd_zip]
    rw [fills_length, size]
  rw [← values, List.map_map]
  rfl

end Keyed

end Helios.PriceLadder
