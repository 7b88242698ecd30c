import Helios.TickArrays

/-! Which initialized ticks the traversal of a Whirlpool quote crosses: upwards each one on the
way, downwards all but those one spacing below an event. -/

namespace Helios.TickCrossings

open Orca TickSequence TickArrays Machine

/-- The initialized ticks of the cached arrays with their net liquidity, as the search for the
next one meets them. -/
def initializedTicks (tickSpacing : Nat) (tickArrays : HashMap Int OrcaTickArray) :
    List (Int × Int) :=
  (HashMap.values tickArrays).flatMap (fun tickArray =>
    (tickArray.ticks.zipIdx.filter (fun entry => entry.1.initialized)).map (fun entry =>
      (wrapI32 (tickArray.startTickIndex + (entry.2 : Int) * tickSpacing),
        entry.1.liquidityNet)))

theorem nextInitializedTick_eq (tickCurrent : Int) (tickSpacing : Nat) (aToB : Bool)
    (tickArrays : HashMap Int OrcaTickArray) :
    nextInitializedTick tickCurrent tickSpacing aToB tickArrays =
      (initializedTicks tickSpacing tickArrays).foldl (betterTick tickCurrent aToB) none := rfl

/-! The search. -/

/-- No candidate ahead lies nearer than this one. -/
def Nearest (tickCurrent : Int) (aToB : Bool) (candidates : List (Int × Int))
    (best : Int × Int) : Prop :=
  best ∈ candidates ∧ Ahead aToB tickCurrent best.1 ∧
    ∀ other ∈ candidates, Ahead aToB tickCurrent other.1 → ¬ Ahead aToB other.1 best.1

/-- What the scan has found so far. -/
def Found (tickCurrent : Int) (aToB : Bool) (candidates : List (Int × Int)) :
    Option (Int × Int) → Prop
  | none => ∀ other ∈ candidates, ¬ Ahead aToB tickCurrent other.1
  | some best => Nearest tickCurrent aToB candidates best

theorem ahead_irrefl (aToB : Bool) (tick : Int) : ¬ Ahead aToB tick tick := by
  cases aToB with
  | false => exact lt_irrefl tick
  | true => exact lt_irrefl tick

theorem ahead_trans (aToB : Bool) (first second third : Int) (here : Ahead aToB first second)
    (later : Ahead aToB second third) : Ahead aToB first third := by
  cases aToB with
  | false => exact lt_trans here later
  | true => exact lt_trans later here

section Scan

variable (tickCurrent : Int) (aToB : Bool) (candidate : Int × Int)

theorem betterTick_behind (best : Option (Int × Int))
    (behind : ¬ Ahead aToB tickCurrent candidate.1) :
    betterTick tickCurrent aToB best candidate = best := by
  cases aToB with
  | false => simp_all [betterTick, Ahead]
  | true => simp_all [betterTick, Ahead]

theorem betterTick_first (ahead : Ahead aToB tickCurrent candidate.1) :
    betterTick tickCurrent aToB none candidate = some candidate := by
  cases aToB with
  | false => simp_all [betterTick, Ahead]
  | true => simp_all [betterTick, Ahead]

theorem betterTick_nearer (best : Int × Int) (ahead : Ahead aToB tickCurrent candidate.1)
    (nearer : Ahead aToB candidate.1 best.1) :
    betterTick tickCurrent aToB (some best) candidate = some candidate := by
  cases aToB with
  | false => simp_all [betterTick, Ahead]
  | true => simp_all [betterTick, Ahead]

theorem betterTick_further (best : Int × Int) (further : ¬ Ahead aToB candidate.1 best.1) :
    betterTick tickCurrent aToB (some best) candidate = some best := by
  cases aToB with
  | false => simp_all [betterTick, Ahead]
  | true => simp_all [betterTick, Ahead]

theorem found_step (seen : List (Int × Int)) (best : Option (Int × Int))
    (held : Found tickCurrent aToB seen best) :
    Found tickCurrent aToB (seen ++ [candidate])
      (betterTick tickCurrent aToB best candidate) := by
  by_cases ahead : Ahead aToB tickCurrent candidate.1
  · cases best with
    | none =>
        rw [betterTick_first tickCurrent aToB candidate ahead]
        refine ⟨List.mem_append_right _ List.mem_cons_self, ahead, ?_⟩
        intro other member otherAhead
        rcases List.mem_append.mp member with earlier | last
        · exact absurd otherAhead (held other earlier)
        · rw [List.mem_singleton.mp last]
          exact ahead_irrefl aToB candidate.1
    | some best =>
        rcases held with ⟨inSeen, bestAhead, nearest⟩
        by_cases nearer : Ahead aToB candidate.1 best.1
        · rw [betterTick_nearer tickCurrent aToB candidate best ahead nearer]
          refine ⟨List.mem_append_right _ List.mem_cons_self, ahead, ?_⟩
          intro other member otherAhead before
          rcases List.mem_append.mp member with earlier | last
          · exact nearest other earlier otherAhead (ahead_trans aToB _ _ _ before nearer)
          · rw [List.mem_singleton.mp last] at before
            exact ahead_irrefl aToB candidate.1 before
        · rw [betterTick_further tickCurrent aToB candidate best nearer]
          refine ⟨List.mem_append_left _ inSeen, bestAhead, ?_⟩
          intro other member otherAhead
          rcases List.mem_append.mp member with earlier | last
          · exact nearest other earlier otherAhead
          · rw [List.mem_singleton.mp last]
            exact nearer
  · rw [betterTick_behind tickCurrent aToB candidate best ahead]
    cases best with
    | none =>
        intro other member
        rcases List.mem_append.mp member with earlier | last
        · exact held other earlier
        · rw [List.mem_singleton.mp last]
          exact ahead
    | some best =>
        rcases held with ⟨inSeen, bestAhead, nearest⟩
        refine ⟨List.mem_append_left _ inSeen, bestAhead, ?_⟩
        intro other member otherAhead
        rcases List.mem_append.mp member with earlier | last
        · exact nearest other earlier otherAhead
        · rw [List.mem_singleton.mp last] at otherAhead
          exact absurd otherAhead ahead

theorem found_foldl (seen candidates : List (Int × Int)) (best : Option (Int × Int))
    (held : Found tickCurrent aToB seen best) :
    Found tickCurrent aToB (seen ++ candidates)
      (candidates.foldl (betterTick tickCurrent aToB) best) := by
  induction candidates generalizing seen best with
  | nil => simpa using held
  | cons candidate rest ih =>
      have later := ih (seen ++ [candidate]) _ (found_step tickCurrent aToB candidate seen best held)
      rwa [List.append_assoc, List.singleton_append] at later

theorem nextInitializedTick_found (tickSpacing : Nat) (tickArrays : HashMap Int OrcaTickArray) :
    Found tickCurrent aToB (initializedTicks tickSpacing tickArrays)
      (nextInitializedTick tickCurrent tickSpacing aToB tickArrays) := by
  rw [nextInitializedTick_eq]
  exact found_foldl tickCurrent aToB [] _ none (fun _ member => nomatch member)

end Scan

/-! The ticks of well-formed arrays. -/

/-- The arrays of a Whirlpool: each under its own start index, which is one of the pool's, with
its 88 ticks within `i32`. -/
structure WhirlpoolArrays (tickSpacing : Nat) (tickArrays : HashMap Int OrcaTickArray) : Prop where
  own : ∀ start tickArray, HashMap.get tickArrays start = some tickArray →
    tickArray.startTickIndex = start
  aligned : ∀ start tickArray, HashMap.get tickArrays start = some tickArray →
    tickArrayOffset tickSpacing ∣ start
  size : ∀ start tickArray, HashMap.get tickArrays start = some tickArray →
    tickArray.ticks.length = 88
  fits : ∀ start tickArray, HashMap.get tickArrays start = some tickArray →
    -2 ^ 31 ≤ start ∧ start + tickArrayOffset tickSpacing ≤ 2 ^ 31

section Ticks

variable {tickSpacing : Nat} {tickArrays : HashMap Int OrcaTickArray}
  (arrays : WhirlpoolArrays tickSpacing tickArrays) (spaced : 0 < tickSpacing)

include arrays spaced

/-- An initialized tick is a place in the array that starts at its start index. -/
theorem tick_place (entry : Int × Int)
    (member : entry ∈ initializedTicks tickSpacing tickArrays) :
    ∃ (tickArray : OrcaTickArray) (place : Nat),
      HashMap.get tickArrays (tickArrayStartIndex entry.1 tickSpacing) = some tickArray ∧
      tickArray.ticks[place]? = some ⟨true, entry.2⟩ ∧
      entry.1 = tickArrayStartIndex entry.1 tickSpacing + place * tickSpacing := by
  rcases List.mem_flatMap.mp member with ⟨tickArray, inValues, inArray⟩
  rcases (HashMap.mem_values tickArrays tickArray).mp inValues with ⟨start, held⟩
  rcases List.mem_map.mp inArray with ⟨⟨tick, place⟩, kept, same⟩
  rcases List.mem_filter.mp kept with ⟨placed, initialized⟩
  have found := List.mem_zipIdx_iff_getElem?.mp placed
  have inside : place < 88 := by
    rw [← arrays.size start tickArray held]
    exact (List.getElem?_eq_some_iff.mp found).1
  have bounds := arrays.fits start tickArray held
  have step : (place : Int) * tickSpacing ≤ 87 * tickSpacing :=
    mul_le_mul_of_nonneg_right (by omega) (by omega)
  have nonneg : (0 : Int) ≤ place * tickSpacing := by positivity
  have index : wrapI32 (tickArray.startTickIndex + (place : Int) * tickSpacing) =
      start + place * tickSpacing := by
    rw [arrays.own start tickArray held, wrapI32]
    rw [tickArrayOffset, orcaTickArraySize] at bounds
    exact Int.bmod_eq_of_le (by norm_num; omega) (by norm_num; omega)
  rw [index] at same
  have own : tickArrayStartIndex entry.1 tickSpacing = start := by
    rw [← same]
    apply tickArrayStartIndex_unique _ _ _ spaced (arrays.aligned start tickArray held)
    · dsimp only
      omega
    · dsimp only
      rw [tickArrayOffset, orcaTickArraySize]
      omega
  have net : entry.2 = tick.liquidityNet := by rw [← same]
  have value : entry.1 = start + place * tickSpacing := by rw [← same]
  rw [own, net]
  refine ⟨tickArray, place, held, ?_, value⟩
  rw [found]
  dsimp only at initialized
  rw [← initialized]

theorem tick_dvd (entry : Int × Int) (member : entry ∈ initializedTicks tickSpacing tickArrays) :
    (tickSpacing : Int) ∣ entry.1 := by
  rcases tick_place arrays spaced entry member with ⟨tickArray, place, -, -, index⟩
  have aligned := tickArrayOffset_dvd entry.1 tickSpacing
  rw [index]
  apply dvd_add
  · exact (Dvd.intro _ rfl : (tickSpacing : Int) ∣ tickArrayOffset tickSpacing).trans aligned
  · exact Dvd.intro_left _ rfl

/-- No tick comes twice. -/
theorem tick_unique (first second : Int × Int)
    (firstIn : first ∈ initializedTicks tickSpacing tickArrays)
    (secondIn : second ∈ initializedTicks tickSpacing tickArrays) (same : first.1 = second.1) :
    first = second := by
  rcases tick_place arrays spaced first firstIn with ⟨tickArray, place, held, found, index⟩
  rcases tick_place arrays spaced second secondIn with ⟨other, otherPlace, otherHeld, otherFound,
    otherIndex⟩
  rw [← same] at otherHeld otherIndex
  rw [held] at otherHeld
  cases otherHeld
  have places : place = otherPlace := by
    have scaled : (place : Int) * tickSpacing = otherPlace * tickSpacing := by omega
    have cancelled := mul_right_cancel₀ (by omega) scaled
    omega
  rw [← places, found] at otherFound
  have nets : first.2 = second.2 := by
    have ticks := Option.some.inj otherFound
    exact congrArg OrcaTick.liquidityNet ticks
  exact Prod.ext same nets

end Ticks

/-! One turn. -/

section Turn

variable (tickSpacing : Nat) (aToB : Bool) (tickArrays : HashMap Int OrcaTickArray)
  (tickCurrent : Int)

/-- The boundary ahead. -/
def boundaryAhead : Int :=
  if aToB then tickArrayStartIndex tickCurrent tickSpacing
  else tickArrayStartIndex tickCurrent tickSpacing + tickArrayOffset tickSpacing

/-- Where a turn ends, if its price is reached. -/
def targetTick : Int := eventTick (turnEvent tickCurrent tickSpacing aToB tickArrays)

/-- The initialized tick a turn crosses, if its event is one. -/
def crossedBy : List (Int × Int) :=
  match turnEvent tickCurrent tickSpacing aToB tickArrays with
  | .initializedTick tick net => [(tick, net)]
  | .arrayBoundary _ => []

theorem turnEvent_cases :
    (∃ tick net, nextInitializedTick tickCurrent tickSpacing aToB tickArrays = some (tick, net) ∧
      ¬ Ahead aToB (boundaryAhead tickSpacing aToB tickCurrent) tick ∧
      turnEvent tickCurrent tickSpacing aToB tickArrays = .initializedTick tick net) ∨
    (turnEvent tickCurrent tickSpacing aToB tickArrays =
        .arrayBoundary (boundaryAhead tickSpacing aToB tickCurrent) ∧
      ∀ tick net, nextInitializedTick tickCurrent tickSpacing aToB tickArrays = some (tick, net) →
        Ahead aToB (boundaryAhead tickSpacing aToB tickCurrent) tick) := by
  unfold turnEvent nextEvent boundaryAhead
  cases nextInitializedTick tickCurrent tickSpacing aToB tickArrays with
  | none => exact Or.inr ⟨rfl, fun _ _ absurd => nomatch absurd⟩
  | some next =>
      cases aToB with
      | true =>
          simp only [if_true]
          split
          · next inside => exact Or.inl ⟨next.1, next.2, rfl, not_lt.mpr inside, rfl⟩
          · next outside =>
              refine Or.inr ⟨rfl, ?_⟩
              intro tick net same
              cases same
              exact not_le.mp outside
      | false =>
          simp only [Bool.false_eq_true, if_false]
          split
          · next inside => exact Or.inl ⟨next.1, next.2, rfl, not_lt.mpr inside, rfl⟩
          · next outside =>
              refine Or.inr ⟨rfl, ?_⟩
              intro tick net same
              cases same
              exact not_le.mp outside

theorem ahead_antisymm (first second : Int) (here : ¬ Ahead aToB first second)
    (there : ¬ Ahead aToB second first) : first = second := by
  cases aToB with
  | true => exact le_antisymm (not_lt.mp here) (not_lt.mp there)
  | false => exact le_antisymm (not_lt.mp there) (not_lt.mp here)

theorem crossedBy_target (entry : Int × Int)
    (member : entry ∈ crossedBy tickSpacing aToB tickArrays tickCurrent) :
    entry.1 = targetTick tickSpacing aToB tickArrays tickCurrent := by
  rw [crossedBy] at member
  rw [targetTick]
  split at member
  · next tick net event =>
      rw [event, List.mem_singleton.mp member]
      rfl
  · cases member

variable {tickSpacing} {tickArrays}

/-- A turn crosses the initialized ticks ahead of it that lie no further than its target. -/
theorem mem_crossedBy (arrays : WhirlpoolArrays tickSpacing tickArrays) (spaced : 0 < tickSpacing)
    (entry : Int × Int) :
    entry ∈ crossedBy tickSpacing aToB tickArrays tickCurrent ↔
      entry ∈ initializedTicks tickSpacing tickArrays ∧ Ahead aToB tickCurrent entry.1 ∧
        ¬ Ahead aToB (targetTick tickSpacing aToB tickArrays tickCurrent) entry.1 := by
  have found := nextInitializedTick_found tickCurrent aToB tickSpacing tickArrays
  rw [crossedBy, targetTick]
  rcases turnEvent_cases tickSpacing aToB tickArrays tickCurrent with
    ⟨tick, net, next, -, event⟩ | ⟨event, beyond⟩
  · rw [next] at found
    rcases found with ⟨known, ahead, nearest⟩
    rw [event, List.mem_singleton]
    constructor
    · intro same
      rw [same]
      exact ⟨known, ahead, ahead_irrefl aToB tick⟩
    · intro ⟨member, entryAhead, within⟩
      have same := ahead_antisymm aToB _ _ within (nearest entry member entryAhead)
      exact tick_unique arrays spaced entry (tick, net) member known same.symm
  · rw [event]
    constructor
    · intro member
      cases member
    · intro ⟨member, entryAhead, within⟩
      exfalso
      cases next : nextInitializedTick tickCurrent tickSpacing aToB tickArrays with
      | none =>
          rw [next] at found
          exact found entry member entryAhead
      | some best =>
          rw [next] at found
          have further := beyond best.1 best.2 next
          apply found.2.2 entry member entryAhead
          by_contra before
          apply within
          by_cases same : entry.1 = best.1
          · rw [same]
            exact further
          · have after : Ahead aToB best.1 entry.1 := by
              by_contra behind
              exact same (ahead_antisymm aToB _ _ before behind)
            exact ahead_trans aToB _ _ _ further after

end Turn

/-! A number of turns. -/

section Turns

variable (tickSpacing : Nat) (aToB : Bool) (tickArrays : HashMap Int OrcaTickArray)

/-- The tick the traversal stands at after so many turns. -/
def tickAfter : Nat → Int → Int
  | 0, tickCurrent => tickCurrent
  | turns + 1, tickCurrent =>
      tickAfter turns (turnTick tickCurrent tickSpacing aToB tickArrays)

/-- The initialized ticks crossed in so many turns, in order. -/
def crossedAlong : Nat → Int → List (Int × Int)
  | 0, _ => []
  | turns + 1, tickCurrent =>
      crossedBy tickSpacing aToB tickArrays tickCurrent ++
        crossedAlong turns (turnTick tickCurrent tickSpacing aToB tickArrays)

/-- The targets of so many turns. -/
def targetsAlong : Nat → Int → List Int
  | 0, _ => []
  | turns + 1, tickCurrent =>
      targetTick tickSpacing aToB tickArrays tickCurrent ::
        targetsAlong turns (turnTick tickCurrent tickSpacing aToB tickArrays)

end Turns

/-! Upwards. -/

section Up

variable {tickSpacing : Nat} {tickArrays : HashMap Int OrcaTickArray}
  (arrays : WhirlpoolArrays tickSpacing tickArrays) (spaced : 0 < tickSpacing)

theorem up_target (tickCurrent : Int) :
    turnTick tickCurrent tickSpacing false tickArrays =
      targetTick tickSpacing false tickArrays tickCurrent := rfl

include spaced

variable (tickArrays) in
theorem up_climbs (tickCurrent : Int) :
    tickCurrent < targetTick tickSpacing false tickArrays tickCurrent :=
  (turnEvent_within tickCurrent tickSpacing spaced false tickArrays).1

variable (tickArrays) in
theorem up_le_tickAfter (turns : Nat) (tickCurrent : Int) :
    tickCurrent ≤ tickAfter tickSpacing false tickArrays turns tickCurrent := by
  induction turns generalizing tickCurrent with
  | zero => exact le_refl _
  | succ turns ih =>
      rw [tickAfter, up_target]
      exact (up_climbs tickArrays spaced tickCurrent).le.trans (ih _)

include arrays

/-- Upwards every initialized tick up to the last target is crossed. -/
theorem up_crossed (turns : Nat) (tickCurrent : Int) (entry : Int × Int) :
    entry ∈ crossedAlong tickSpacing false tickArrays turns tickCurrent ↔
      entry ∈ initializedTicks tickSpacing tickArrays ∧ tickCurrent < entry.1 ∧
        entry.1 ≤ tickAfter tickSpacing false tickArrays turns tickCurrent := by
  induction turns generalizing tickCurrent with
  | zero =>
      rw [crossedAlong, tickAfter]
      constructor
      · intro member
        cases member
      · intro ⟨_, above, below⟩
        omega
  | succ turns ih =>
      have here := mem_crossedBy false tickCurrent arrays spaced entry
      have climbs := up_climbs tickArrays spaced tickCurrent
      have reaches := up_le_tickAfter tickArrays spaced turns
        (targetTick tickSpacing false tickArrays tickCurrent)
      simp only [Ahead, Bool.false_eq_true, if_false, not_lt] at here
      rw [crossedAlong, tickAfter, up_target, List.mem_append, here, ih]
      constructor
      · rintro (⟨member, above, below⟩ | ⟨member, above, below⟩)
        · exact ⟨member, above, below.trans reaches⟩
        · exact ⟨member, climbs.trans above, below⟩
      · intro ⟨member, above, below⟩
        rcases le_or_gt entry.1 (targetTick tickSpacing false tickArrays tickCurrent) with
          near | far
        · exact Or.inl ⟨member, above, near⟩
        · exact Or.inr ⟨member, far, below⟩

end Up

/-! Downwards. -/

section Down

variable {tickSpacing : Nat} {tickArrays : HashMap Int OrcaTickArray}

theorem down_step (tickCurrent : Int) :
    turnTick tickCurrent tickSpacing true tickArrays =
      targetTick tickSpacing true tickArrays tickCurrent - tickSpacing := rfl

/-- The target of a turn is an initialized tick or the start of the current array. -/
theorem down_target_kind (tickCurrent : Int) :
    (∃ net, (targetTick tickSpacing true tickArrays tickCurrent, net) ∈
      initializedTicks tickSpacing tickArrays) ∨
    targetTick tickSpacing true tickArrays tickCurrent =
      tickArrayStartIndex tickCurrent tickSpacing := by
  have found := nextInitializedTick_found tickCurrent true tickSpacing tickArrays
  rcases turnEvent_cases tickSpacing true tickArrays tickCurrent with
    ⟨tick, net, next, -, event⟩ | ⟨event, -⟩
  · rw [next] at found
    left
    rw [targetTick, event]
    exact ⟨net, found.1⟩
  · right
    rw [targetTick, event]
    rfl

/-- Multiples of the spacing do not lie closer than it. -/
theorem dvd_le_sub (low high : Int) (lowDvd : (tickSpacing : Int) ∣ low)
    (highDvd : (tickSpacing : Int) ∣ high) (less : low < high) : low ≤ high - tickSpacing := by
  have apart := Int.le_of_dvd (by omega) (dvd_sub highDvd lowDvd)
  omega

theorem crossed_target (turns : Nat) (tickCurrent : Int) (entry : Int × Int)
    (member : entry ∈ crossedAlong tickSpacing true tickArrays turns tickCurrent) :
    entry.1 ∈ targetsAlong tickSpacing true tickArrays turns tickCurrent := by
  induction turns generalizing tickCurrent with
  | zero => cases member
  | succ turns ih =>
      rw [targetsAlong]
      rcases List.mem_append.mp member with here | later
      · rw [crossedBy_target tickSpacing true tickArrays tickCurrent entry here]
        exact List.mem_cons_self
      · exact List.mem_cons_of_mem _ (ih _ later)

theorem targetsAlong_kind (turns : Nat) (tickCurrent : Int) (target : Int)
    (member : target ∈ targetsAlong tickSpacing true tickArrays turns tickCurrent) :
    (∃ net, (target, net) ∈ initializedTicks tickSpacing tickArrays) ∨
      tickArrayOffset tickSpacing ∣ target := by
  induction turns generalizing tickCurrent with
  | zero => cases member
  | succ turns ih =>
      rcases List.mem_cons.mp member with rfl | later
      · rcases down_target_kind tickCurrent with initialized | boundary
        · exact Or.inl initialized
        · right
          rw [boundary]
          exact tickArrayOffset_dvd tickCurrent tickSpacing
      · exact ih _ later

variable (arrays : WhirlpoolArrays tickSpacing tickArrays) (spaced : 0 < tickSpacing)

include spaced

variable (tickArrays) in
theorem down_target_le (tickCurrent : Int) :
    targetTick tickSpacing true tickArrays tickCurrent ≤ tickCurrent :=
  (turnEvent_within tickCurrent tickSpacing spaced true tickArrays).2

variable (tickArrays) in
theorem start_le_down_target (tickCurrent : Int) :
    tickArrayStartIndex tickCurrent tickSpacing ≤
      targetTick tickSpacing true tickArrays tickCurrent :=
  (turnEvent_within tickCurrent tickSpacing spaced true tickArrays).1

variable (tickArrays) in
/-- The price never ends above the first tick. -/
theorem tickAfter_le (turns : Nat) (tickCurrent : Int) :
    tickAfter tickSpacing true tickArrays turns tickCurrent ≤ tickCurrent := by
  induction turns generalizing tickCurrent with
  | zero => exact le_refl _
  | succ turns ih =>
      have falls := down_target_le tickArrays spaced tickCurrent
      have later := ih (turnTick tickCurrent tickSpacing true tickArrays)
      rw [down_step] at later
      rw [tickAfter, down_step]
      omega

variable (tickArrays) in
theorem targetsAlong_le (turns : Nat) (tickCurrent : Int) (target : Int)
    (member : target ∈ targetsAlong tickSpacing true tickArrays turns tickCurrent) :
    target ≤ tickCurrent := by
  induction turns generalizing tickCurrent with
  | zero => cases member
  | succ turns ih =>
      have falls := down_target_le tickArrays spaced tickCurrent
      rcases List.mem_cons.mp member with rfl | later
      · exact falls
      · have below := ih _ later
        rw [down_step] at below
        omega

/-- The start index of the array of a lower multiple is no lower. -/
theorem le_tickArrayStartIndex (tick boundary : Int) (aligned : tickArrayOffset tickSpacing ∣ boundary)
    (below : boundary ≤ tick) : boundary ≤ tickArrayStartIndex tick tickSpacing := by
  have wide := tickArrayOffset_pos tickSpacing spaced
  have high := lt_tickArrayStartIndex_add tick tickSpacing spaced
  rcases aligned with ⟨place, same⟩
  rcases tickArrayOffset_dvd tick tickSpacing with ⟨here, start⟩
  rw [start] at high ⊢
  rw [same] at below ⊢
  have order : place < here + 1 := lt_of_mul_lt_mul_left (by linarith) wide.le
  exact mul_le_mul_of_nonneg_left (by omega) wide.le

include arrays

theorem down_target_dvd (tickCurrent : Int) :
    (tickSpacing : Int) ∣ targetTick tickSpacing true tickArrays tickCurrent := by
  have whole : (tickSpacing : Int) ∣ tickArrayOffset tickSpacing := Dvd.intro _ rfl
  rcases down_target_kind tickCurrent with ⟨net, member⟩ | boundary
  · exact tick_dvd arrays spaced _ member
  · rw [boundary]
    exact whole.trans (tickArrayOffset_dvd tickCurrent tickSpacing)

/-- Every start of an array on the way down is a target. -/
theorem boundary_mem_targets (turns : Nat) (tickCurrent boundary : Int)
    (aligned : tickArrayOffset tickSpacing ∣ boundary)
    (below : boundary ≤ tickArrayStartIndex tickCurrent tickSpacing)
    (passed : tickAfter tickSpacing true tickArrays turns tickCurrent + tickSpacing ≤ boundary) :
    boundary ∈ targetsAlong tickSpacing true tickArrays turns tickCurrent := by
  have whole : (tickSpacing : Int) ∣ tickArrayOffset tickSpacing := Dvd.intro _ rfl
  induction turns generalizing tickCurrent with
  | zero =>
      have low := tickArrayStartIndex_le tickCurrent tickSpacing spaced
      rw [tickAfter] at passed
      omega
  | succ turns ih =>
      have above := start_le_down_target tickArrays spaced tickCurrent
      rw [targetsAlong]
      by_cases same : boundary = targetTick tickSpacing true tickArrays tickCurrent
      · rw [same]
        exact List.mem_cons_self
      · apply List.mem_cons_of_mem
        rw [tickAfter] at passed
        apply ih _ _ passed
        apply le_tickArrayStartIndex spaced _ _ aligned
        rw [down_step]
        exact dvd_le_sub _ _ (whole.trans aligned)
          (down_target_dvd arrays spaced tickCurrent) (by omega)

/-- Downwards the initialized ticks below the first one are crossed, but for those one spacing
below a target. -/
theorem down_crossed (turns : Nat) (tickCurrent : Int) (entry : Int × Int) :
    entry ∈ crossedAlong tickSpacing true tickArrays turns tickCurrent ↔
      entry ∈ initializedTicks tickSpacing tickArrays ∧
        tickAfter tickSpacing true tickArrays turns tickCurrent + tickSpacing ≤ entry.1 ∧
        entry.1 < tickCurrent ∧
        entry.1 + tickSpacing ∉ targetsAlong tickSpacing true tickArrays turns tickCurrent := by
  induction turns generalizing tickCurrent with
  | zero =>
      rw [crossedAlong, tickAfter]
      constructor
      · intro member
        cases member
      · intro ⟨_, above, below, _⟩
        omega
  | succ turns ih =>
      have here := mem_crossedBy true tickCurrent arrays spaced entry
      have falls := down_target_le tickArrays spaced tickCurrent
      have ends := tickAfter_le tickArrays spaced turns
        (turnTick tickCurrent tickSpacing true tickArrays)
      have earlier : ∀ target ∈ targetsAlong tickSpacing true tickArrays turns
          (turnTick tickCurrent tickSpacing true tickArrays), target ≤
            turnTick tickCurrent tickSpacing true tickArrays :=
        targetsAlong_le tickArrays spaced turns _
      simp only [Ahead, if_true, not_lt] at here
      rw [down_step] at ends earlier
      rw [crossedAlong, tickAfter, targetsAlong, List.mem_append, here, ih, List.mem_cons, not_or,
        down_step]
      constructor
      · rintro (⟨member, below, above⟩ | ⟨member, above, below, apart⟩)
        · refine ⟨member, by omega, below, by omega, ?_⟩
          intro again
          have lower := earlier _ again
          omega
        · exact ⟨member, above, by omega, by omega, apart⟩
      · intro ⟨member, above, below, notHere, apart⟩
        rcases le_or_gt (targetTick tickSpacing true tickArrays tickCurrent) entry.1 with
          near | far
        · exact Or.inl ⟨member, below, near⟩
        · have lower := dvd_le_sub _ _ (tick_dvd arrays spaced entry member)
            (down_target_dvd arrays spaced tickCurrent) far
          exact Or.inr ⟨member, above, by omega, apart⟩

end Down

end Helios.TickCrossings
