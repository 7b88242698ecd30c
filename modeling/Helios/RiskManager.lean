import Helios.FloatRounding
import Helios.Locks
import Helios.PoolState
import Helios.Runs

/-! The executor's risk controls. Counters are atomics; three fields sit behind
non-reentrant mutexes. Every look at the clock is an argument. -/

namespace Helios

open FloatArith Locks Machine

def maxDailyLossOf (workingCapital : Nat) : Nat :=
  toU64 (mul (ofNat workingCapital) (ofRat (1 / 20)) : Double)

theorem maxDailyLossOf_lt (workingCapital : Nat) (bound : workingCapital < 2 ^ 64) :
    maxDailyLossOf workingCapital < 2 ^ 63 := by
  have capital : (workingCapital : ℚ) ≤ 2 ^ 64 := by exact_mod_cast le_of_lt bound
  have nonneg : (0 : ℚ) ≤ workingCapital := Nat.cast_nonneg _
  have first := Double.round_le (workingCapital : ℚ) nonneg
  have second := Double.round_le (1 / 20) (by norm_num)
  have firstNonneg := Double.round_nonneg (workingCapital : ℚ) nonneg
  have secondNonneg := Double.round_nonneg (1 / 20) (by norm_num)
  have product : (Double.round (workingCapital : ℚ)).value * (Double.round (1 / 20)).value ≤
      2 ^ 62 := by
    calc
      (Double.round (workingCapital : ℚ)).value * (Double.round (1 / 20)).value
        ≤ (workingCapital * (1 + 1 / 2 ^ 53)) * (1 / 20 * (1 + 1 / 2 ^ 53)) := by gcongr
      _ ≤ (2 ^ 64 * (1 + 1 / 2 ^ 53)) * (1 / 20 * (1 + 1 / 2 ^ 53)) := by gcongr
      _ ≤ 2 ^ 62 := by norm_num
  have third := Double.round_le _ (mul_nonneg firstNonneg secondNonneg)
  have value : (Double.round ((Double.round (workingCapital : ℚ)).value *
      (Double.round (1 / 20)).value)).value < 2 ^ 63 := by
    calc
      _ ≤ (Double.round (workingCapital : ℚ)).value * (Double.round (1 / 20)).value *
          (1 + 1 / 2 ^ 53) := third
      _ ≤ 2 ^ 62 * (1 + 1 / 2 ^ 53) := by gcongr
      _ < 2 ^ 63 := by norm_num
  have floor : ⌊(Double.round ((Double.round (workingCapital : ℚ)).value *
      (Double.round (1 / 20)).value)).value⌋ < 2 ^ 63 := by
    rw [Int.floor_lt]
    exact_mod_cast value
  have least : maxDailyLossOf workingCapital ≤ ⌊(Double.round
      ((Double.round (workingCapital : ℚ)).value * (Double.round (1 / 20)).value)).value⌋.toNat :=
    Nat.min_le_left _ _
  omega

def minWinRate : Double := ofRat (1 / 5)
def winRateWindow : Nat := 50
def dayLength : Nat := 24 * 3600 * 10 ^ 9
def dailyLossPause : Nat := 24 * 3600 * 10 ^ 9
def winRatePause : Nat := 3600 * 10 ^ 9

structure RiskManager where
  workingCapital : Nat
  maxDailyLoss : Nat
  dailyPnl : Int
  dayStart : Instant
  wins : Nat
  losses : Nat
  outcomeWindow : List Nat
  tipsPaid : Nat
  profitRealised : Nat
  pausedUntil : Option Instant
  lossBound : maxDailyLoss < 2 ^ 63
  deriving DecidableEq

namespace RiskManager

/-- The fields behind a mutex. -/
inductive Field where
  | dayStart
  | outcomeWindow
  | pausedUntil
  deriving DecidableEq

abbrev RiskCall := Call Field RiskManager

def new (workingCapital : UInt64) (now : Instant) : RiskManager where
  workingCapital := workingCapital.toNat
  maxDailyLoss := maxDailyLossOf workingCapital.toNat
  dailyPnl := 0
  dayStart := now
  wins := 0
  losses := 0
  outcomeWindow := []
  tipsPaid := 0
  profitRealised := 0
  pausedUntil := none
  lossBound := maxDailyLossOf_lt _ workingCapital.toNat_lt

/-- The clock each time `is_allowed` looks at it. -/
structure Readings where
  pauseCheck : Instant
  dayCheck : Instant
  dayReset : Instant
  pauseFrom : Instant

open Call

def pushOutcome (outcome : Nat) : RiskCall Unit :=
  withGuard .outcomeWindow (modify (fun manager =>
    let window := manager.outcomeWindow
    { manager with
      outcomeWindow := (if winRateWindow ≤ window.length then window.drop 1 else window) ++
        [outcome] }))

def winRate : RiskCall Double :=
  withGuard .outcomeWindow do
    let manager ← read
    if manager.outcomeWindow = [] then pure (ofNat 1)
    else pure (div (ofNat manager.outcomeWindow.sum) (ofNat manager.outcomeWindow.length))

def maybeResetDay (clock : Readings) : RiskCall Unit :=
  withGuard .dayStart do
    let manager ← read
    if dayLength ≤ clock.dayCheck - manager.dayStart then do
      modify (fun manager => { manager with dailyPnl := 0 })
      modify (fun manager => { manager with dayStart := clock.dayReset })
    else pure ()

/-- `-(max_daily_loss as i64)` -/
def lossCap (manager : RiskManager) : Int := wrapI64 (-(wrapI64 manager.maxDailyLoss))

/-- What `is_allowed` does once no pause is in force. -/
def checkLossCap (clock : Readings) : RiskCall Bool := do
  maybeResetDay clock
  let manager ← read
  if manager.dailyPnl < manager.lossCap then do
    withGuard .pausedUntil (modify (fun manager =>
      { manager with pausedUntil := some (clock.pauseFrom + dailyLossPause) }))
    pure false
  else pure true

/-- The guard on `paused_until` is a binding: it lives to the end of the call. -/
def isAllowed (clock : Readings) : RiskCall Bool :=
  withGuard .pausedUntil do
    let manager ← read
    match manager.pausedUntil with
    | some expiry =>
        if clock.pauseCheck < expiry then pure false
        else do
          modify (fun manager => { manager with pausedUntil := none })
          checkLossCap clock
    | none => checkLossCap clock

def recordWin (profitLamports tipLamports : Nat) : RiskCall Unit := do
  modify (fun manager => { manager with wins := wrap 64 (manager.wins + 1) })
  modify (fun manager =>
    { manager with profitRealised := wrap 64 (manager.profitRealised + profitLamports) })
  modify (fun manager => { manager with tipsPaid := wrap 64 (manager.tipsPaid + tipLamports) })
  let net := wrapI64 (wrapI64 profitLamports - wrapI64 tipLamports)
  modify (fun manager => { manager with dailyPnl := wrapI64 (manager.dailyPnl + net) })
  pushOutcome 1

def recordLoss (tipLamports : Nat) (pauseFrom : Instant) : RiskCall Unit := do
  modify (fun manager => { manager with losses := wrap 64 (manager.losses + 1) })
  modify (fun manager => { manager with tipsPaid := wrap 64 (manager.tipsPaid + tipLamports) })
  modify (fun manager =>
    { manager with dailyPnl := wrapI64 (manager.dailyPnl + wrapI64 (-(wrapI64 tipLamports))) })
  pushOutcome 0
  let rate ← winRate
  let manager ← read
  if winRateWindow ≤ wrap 64 (manager.wins + manager.losses) ∧ lt rate minWinRate = true then
    withGuard .pausedUntil (modify (fun manager =>
      { manager with pausedUntil := some (pauseFrom + winRatePause) }))
  else pure ()

/-- A pause that has not run out. -/
def Paused (manager : RiskManager) (clock : Readings) : Prop :=
  ∃ expiry, manager.pausedUntil = some expiry ∧ clock.pauseCheck < expiry

def DayOver (manager : RiskManager) (clock : Readings) : Prop :=
  dayLength ≤ clock.dayCheck - manager.dayStart

instance (manager : RiskManager) (clock : Readings) : Decidable (manager.DayOver clock) :=
  inferInstanceAs (Decidable (dayLength ≤ clock.dayCheck - manager.dayStart))

theorem lossCap_eq (manager : RiskManager) : manager.lossCap = -(manager.maxDailyLoss : Int) := by
  have bound := manager.lossBound
  rw [lossCap, wrapI64_of_bounds (manager.maxDailyLoss : Int) (by omega) (by exact_mod_cast bound),
    wrapI64_of_bounds _ (by omega) (by omega)]

/-- Under the guard of `paused_until` the cap check goes one of three ways; in the
last it asks for that lock again. -/
theorem checkLossCap_guarded (manager : RiskManager) (clock : Readings) :
    checkLossCap clock [.pausedUntil] manager =
      if manager.DayOver clock then
        some (true, { manager with dailyPnl := 0, dayStart := clock.dayReset })
      else if manager.dailyPnl < -(manager.maxDailyLoss : Int) then none
      else some (true, manager) := by
  have free : Field.dayStart ∉ [Field.pausedUntil] := by decide
  have held : Field.pausedUntil ∈ [Field.pausedUntil] := List.mem_singleton.mpr rfl
  rw [checkLossCap, bind_apply, maybeResetDay, withGuard_of_free _ _ _ _ free, bind_apply,
    read_apply, Option.bind_some]
  by_cases finished : dayLength ≤ clock.dayCheck - manager.dayStart
  · have above : ¬ (0 : Int) < -(manager.maxDailyLoss : Int) := by omega
    rw [if_pos finished, if_pos (show manager.DayOver clock from finished), bind_apply,
      modify_apply, Option.bind_some, modify_apply, Option.bind_some, bind_apply, read_apply,
      Option.bind_some, lossCap_eq, if_neg above, pure_apply]
  · rw [if_neg finished, if_neg (show ¬ manager.DayOver clock from finished), pure_apply,
      Option.bind_some, bind_apply, read_apply, Option.bind_some, lossCap_eq]
    by_cases tripped : manager.dailyPnl < -(manager.maxDailyLoss : Int)
    · rw [if_pos tripped, if_pos tripped, bind_apply, withGuard_of_held _ _ _ _ held]
      rw [Option.bind_none]
    · rw [if_neg tripped, if_neg tripped, pure_apply]

theorem isAllowed_of_paused (manager : RiskManager) (clock : Readings)
    (paused : manager.Paused clock) : isAllowed clock [] manager = some (false, manager) := by
  rcases paused with ⟨expiry, found, early⟩
  rw [isAllowed, withGuard_of_free _ _ _ _ List.not_mem_nil]
  simp only [bind_apply, read_apply, Option.bind_some, found, if_pos early, pure_apply]

theorem isAllowed_of_resumed (manager : RiskManager) (clock : Readings)
    (resumed : ¬ manager.Paused clock) :
    isAllowed clock [] manager =
      checkLossCap clock [.pausedUntil] { manager with pausedUntil := none } := by
  rw [isAllowed, withGuard_of_free _ _ _ _ List.not_mem_nil, bind_apply, read_apply,
    Option.bind_some]
  cases found : manager.pausedUntil with
  | none =>
      have same : { manager with pausedUntil := none } = manager := by
        rw [← found]
      rw [same]
  | some expiry =>
      have late : ¬ clock.pauseCheck < expiry := fun early => resumed ⟨expiry, found, early⟩
      simp only [if_neg late]
      rw [bind_apply, modify_apply, Option.bind_some]

theorem isAllowed_blocks_iff (manager : RiskManager) (clock : Readings) :
    isAllowed clock [] manager = none ↔ ¬ manager.Paused clock ∧ ¬ manager.DayOver clock ∧
      manager.dailyPnl < -(manager.maxDailyLoss : Int) := by
  by_cases paused : manager.Paused clock
  · rw [isAllowed_of_paused manager clock paused]
    simp [paused]
  · rw [isAllowed_of_resumed manager clock paused, checkLossCap_guarded]
    by_cases finished : manager.DayOver clock
    · have same : DayOver { manager with pausedUntil := none } clock := finished
      simp [same, finished]
    · have same : ¬ DayOver { manager with pausedUntil := none } clock := finished
      simp [same, finished, paused]

theorem returns_pushOutcome (outcome : Nat) : Returns [] (pushOutcome outcome) := by
  apply returns_withGuard
  · exact List.not_mem_nil
  · exact returns_modify _ _

theorem returns_winRate : Returns [] winRate := by
  apply returns_withGuard
  · exact List.not_mem_nil
  · apply returns_bind
    · exact returns_read _
    · intro manager
      exact returns_ite _ _ _ _ (returns_pure _ _) (returns_pure _ _)

theorem returns_recordWin (profitLamports tipLamports : Nat) :
    Returns [] (recordWin profitLamports tipLamports) := by
  apply returns_modify_bind
  apply returns_modify_bind
  apply returns_modify_bind
  apply returns_modify_bind
  exact returns_pushOutcome 1

theorem returns_recordLoss (tipLamports : Nat) (pauseFrom : Instant) :
    Returns [] (recordLoss tipLamports pauseFrom) := by
  apply returns_modify_bind
  apply returns_modify_bind
  apply returns_modify_bind
  apply returns_bind
  · exact returns_pushOutcome 0
  · intro _
    apply returns_bind
    · exact returns_winRate
    · intro rate
      apply returns_bind
      · exact returns_read _
      · intro manager
        apply returns_ite
        · exact returns_withGuard _ _ _ List.not_mem_nil (returns_modify _ _)
        · exact returns_pure _ _

/-- The calls on a manager. -/
inductive RiskOp where
  | isAllowed (clock : Readings)
  | recordWin (profitLamports tipLamports : Nat)
  | recordLoss (tipLamports : Nat) (pauseFrom : Instant)
  | winRate

def perform : RiskOp → RiskCall Unit
  | .isAllowed clock => do let _ ← RiskManager.isAllowed clock
  | .recordWin profitLamports tipLamports => RiskManager.recordWin profitLamports tipLamports
  | .recordLoss tipLamports pauseFrom => RiskManager.recordLoss tipLamports pauseFrom
  | .winRate => do let _ ← RiskManager.winRate

/-- A call that never returns leaves no manager to call. -/
def step (manager : Option RiskManager) (op : RiskOp) : Option RiskManager :=
  manager.bind (fun manager => (perform op [] manager).map Prod.snd)

open Runs

/-- The call never waits for a lock it holds. -/
def NeverBlocks : Option RiskManager × RiskOp → Prop
  | (none, _) => True
  | (some manager, op) => (perform op [] manager).isSome

instance : DecidablePred NeverBlocks
  | (none, _) => isTrue trivial
  | (some manager, op) => inferInstanceAs (Decidable ((perform op [] manager).isSome = true))

/-- With the daily result below the negative cap, `is_allowed` returns false and
leaves a pause of 24 h. -/
def LossCapKept : Option RiskManager × RiskOp → Prop
  | (some manager, .isAllowed clock) =>
      manager.dailyPnl < -(manager.maxDailyLoss : Int) →
        ∃ after, isAllowed clock [] manager = some (false, after) ∧
          after.pausedUntil = some (clock.pauseFrom + dailyLossPause)
  | _ => True

/-- The daily result is not below the cap, or a pause to 24 h from now is in force. -/
def CapNotPassed : Option RiskManager × RiskOp → Prop
  | (some manager, .isAllowed clock) =>
      -(manager.maxDailyLoss : Int) ≤ manager.dailyPnl ∨
        (manager.Paused clock ∧
          manager.pausedUntil = some (clock.pauseFrom + dailyLossPause))
  | _ => True

/-- A pause is in force, or the day is over, or the cap is not passed. -/
def CapNotReached : Option RiskManager × RiskOp → Prop
  | (some manager, .isAllowed clock) =>
      manager.Paused clock ∨ manager.DayOver clock ∨
        -(manager.maxDailyLoss : Int) ≤ manager.dailyPnl
  | _ => True

theorem perform_isAllowed (clock : Readings) (manager : RiskManager) :
    (perform (.isAllowed clock) [] manager).isSome =
      (isAllowed clock [] manager).isSome := by
  rw [perform, bind_apply]
  cases isAllowed clock [] manager with
  | none => rfl
  | some result => rfl

theorem neverBlocks_iff (pair : Option RiskManager × RiskOp) :
    NeverBlocks pair ↔ CapNotReached pair := by
  rcases pair with ⟨_ | manager, op⟩
  · exact Iff.rfl
  · cases op with
    | isAllowed clock =>
        have blocks := isAllowed_blocks_iff manager clock
        rw [NeverBlocks, perform_isAllowed, Option.isSome_iff_ne_none, Ne, blocks]
        simp only [CapNotReached, not_and_or, not_not, not_lt]
    | recordWin profitLamports tipLamports =>
        exact iff_of_true (returns_recordWin profitLamports tipLamports manager) trivial
    | recordLoss tipLamports pauseFrom =>
        exact iff_of_true (returns_recordLoss tipLamports pauseFrom manager) trivial
    | winRate =>
        have returned : Returns [] (perform .winRate) :=
          returns_bind _ _ _ returns_winRate (fun _ => returns_pure _ _)
        exact iff_of_true (returned manager) trivial

/-- One call keeps both halves exactly when the daily result is not below the cap,
or the pause in force is already the daily one. -/
theorem callLawful_iff (pair : Option RiskManager × RiskOp) :
    (NeverBlocks pair ∧ LossCapKept pair) ↔ CapNotPassed pair := by
  rw [neverBlocks_iff]
  rcases pair with ⟨_ | manager, op⟩
  · exact iff_of_true ⟨trivial, trivial⟩ trivial
  · cases op with
    | recordWin profitLamports tipLamports => exact iff_of_true ⟨trivial, trivial⟩ trivial
    | recordLoss tipLamports pauseFrom => exact iff_of_true ⟨trivial, trivial⟩ trivial
    | winRate => exact iff_of_true ⟨trivial, trivial⟩ trivial
    | isAllowed clock =>
        simp only [CapNotReached, LossCapKept, CapNotPassed]
        by_cases low : manager.dailyPnl < -(manager.maxDailyLoss : Int)
        · simp only [low, not_le.mpr low, true_implies, or_false, false_or]
          by_cases paused : manager.Paused clock
          · rw [isAllowed_of_paused manager clock paused]
            simp only [paused, true_or, true_and, Option.some.injEq, Prod.mk.injEq]
            constructor
            · intro ⟨after, same, daily⟩
              rw [same]
              exact daily
            · intro daily
              exact ⟨manager, rfl, daily⟩
          · -- past the pause check the day is over or the call blocks
            rw [isAllowed_of_resumed manager clock paused, checkLossCap_guarded]
            constructor
            · intro ⟨passed, after, done, _⟩
              rcases passed with absurd | finished
              · exact absurd.elim (fun expiry found => (paused ⟨expiry, found⟩).elim)
              · rw [if_pos (show DayOver { manager with pausedUntil := none } clock
                  from finished)] at done
                cases done
            · intro ⟨absurd, _⟩
              exact (paused absurd).elim
        · simp only [low, not_lt.mp low, false_implies, or_true, true_or, and_self]

/-- Over every run: both halves hold of all calls exactly when each `is_allowed`
finds the daily result not below the cap (or the daily pause already set), and no
call blocks exactly when each finds a pause, a finished day, or such a result. -/
theorem calls_lawful_iff (workingCapital : UInt64) (start : Instant) (ops : List RiskOp) :
    ((∀ pair ∈ trace step (some (new workingCapital start)) ops,
        NeverBlocks pair ∧ LossCapKept pair) ↔
      ∀ pair ∈ trace step (some (new workingCapital start)) ops, CapNotPassed pair) ∧
    ((∀ pair ∈ trace step (some (new workingCapital start)) ops, NeverBlocks pair) ↔
      ∀ pair ∈ trace step (some (new workingCapital start)) ops, CapNotReached pair) := by
  constructor
  · exact forall₂_congr (fun pair _ => callLawful_iff pair)
  · exact forall₂_congr (fun pair _ => neverBlocks_iff pair)

/-- A capital of 100 allows a loss of 5; a tip of 6 passes it, and the next gate
check never returns. -/
theorem loss_cap_blocks :
    ¬ ∀ pair ∈ trace step (some (new 100 0)) [.recordLoss 6 0, .isAllowed ⟨1, 1, 1, 1⟩],
      NeverBlocks pair ∧ LossCapKept pair := by
  intro lawful
  have met := (lawful (step (some (new 100 0)) (.recordLoss 6 0), .isAllowed ⟨1, 1, 1, 1⟩)
    (by simp [trace])).1
  revert met
  decide +kernel

/-- The pause stays, or becomes the one given. -/
def PauseMoves (pause : Option Instant) (before after : RiskManager) : Prop :=
  after.pausedUntil = before.pausedUntil ∨ after.pausedUntil = pause

section Pauses

variable (pause : Option Instant) (held : List Field)

theorem pauseMoves_refl (manager : RiskManager) : PauseMoves pause manager manager := Or.inl rfl

theorem pauseMoves_trans (first middle last : RiskManager) (early : PauseMoves pause first middle)
    (late : PauseMoves pause middle last) : PauseMoves pause first last := by
  rcases late with same | set
  · rw [PauseMoves, same]
    exact early
  · exact Or.inr set

theorem moves_modify_bind {Value : Type} (change : RiskManager → RiskManager)
    (next : Unit → RiskCall Value) (later : Moves (PauseMoves pause) held (next ()))
    (keeps : ∀ manager, (change manager).pausedUntil = manager.pausedUntil) :
    Moves (PauseMoves pause) held (modify change >>= next) :=
  moves_bind _ _ (pauseMoves_trans pause) _ _
    (moves_modify _ _ change (fun manager => Or.inl (keeps manager))) (fun _ => later)

theorem moves_pushOutcome (outcome : Nat) :
    Moves (PauseMoves pause) held (pushOutcome outcome) :=
  moves_withGuard _ _ _ _ (fun _ => moves_modify _ _ _ (fun _ => Or.inl rfl))

theorem moves_winRate : Moves (PauseMoves pause) held winRate := by
  apply moves_withGuard
  intro _
  apply moves_bind _ _ (pauseMoves_trans pause)
  · exact moves_read _ _ (pauseMoves_refl pause)
  · intro manager
    apply moves_ite
    · exact moves_pure _ _ (pauseMoves_refl pause) _
    · exact moves_pure _ _ (pauseMoves_refl pause) _

theorem moves_maybeResetDay (clock : Readings) :
    Moves (PauseMoves pause) held (maybeResetDay clock) := by
  apply moves_withGuard
  intro _
  apply moves_bind _ _ (pauseMoves_trans pause)
  · exact moves_read _ _ (pauseMoves_refl pause)
  · intro manager
    apply moves_ite
    · apply moves_modify_bind
      · exact moves_modify _ _ _ (fun _ => Or.inl rfl)
      · exact fun _ => rfl
    · exact moves_pure _ _ (pauseMoves_refl pause) _

end Pauses

/-- The daily pause is written only where its lock is already held, so no call that
returns has written it. -/
theorem moves_checkLossCap (clock : Readings) :
    Moves (PauseMoves none) [.pausedUntil] (checkLossCap clock) := by
  apply moves_bind _ _ (pauseMoves_trans none)
  · exact moves_maybeResetDay none _ clock
  · intro _
    apply moves_bind _ _ (pauseMoves_trans none)
    · exact moves_read _ _ (pauseMoves_refl none)
    · intro manager
      apply moves_ite
      · apply moves_bind _ _ (pauseMoves_trans none)
        · apply moves_withGuard
          intro free
          exact absurd (List.mem_singleton.mpr rfl) free
        · intro _
          exact moves_pure _ _ (pauseMoves_refl none) _
      · exact moves_pure _ _ (pauseMoves_refl none) _

theorem moves_isAllowed (clock : Readings) :
    Moves (PauseMoves none) [] (isAllowed clock) := by
  apply moves_withGuard
  intro _
  apply moves_bind _ _ (pauseMoves_trans none)
  · exact moves_read _ _ (pauseMoves_refl none)
  · intro manager
    cases manager.pausedUntil with
    | none => exact moves_checkLossCap clock
    | some expiry =>
        apply moves_ite
        · exact moves_pure _ _ (pauseMoves_refl none) _
        · apply moves_bind _ _ (pauseMoves_trans none)
          · exact moves_modify _ _ _ (fun _ => Or.inr rfl)
          · exact fun _ => moves_checkLossCap clock

theorem moves_recordWin (profitLamports tipLamports : Nat) :
    Moves (PauseMoves none) [] (recordWin profitLamports tipLamports) := by
  refine moves_modify_bind _ _ _ _ ?_ (fun _ => rfl)
  refine moves_modify_bind _ _ _ _ ?_ (fun _ => rfl)
  refine moves_modify_bind _ _ _ _ ?_ (fun _ => rfl)
  refine moves_modify_bind _ _ _ _ ?_ (fun _ => rfl)
  exact moves_pushOutcome none [] 1

theorem moves_recordLoss (tipLamports : Nat) (pauseFrom : Instant) :
    Moves (PauseMoves (some (pauseFrom + winRatePause))) [] (recordLoss tipLamports pauseFrom) := by
  have refl := pauseMoves_refl (some (pauseFrom + winRatePause))
  have trans := pauseMoves_trans (some (pauseFrom + winRatePause))
  refine moves_modify_bind _ _ _ _ ?_ (fun _ => rfl)
  refine moves_modify_bind _ _ _ _ ?_ (fun _ => rfl)
  refine moves_modify_bind _ _ _ _ ?_ (fun _ => rfl)
  apply moves_bind _ _ trans
  · exact moves_pushOutcome _ _ 0
  · intro _
    apply moves_bind _ _ trans
    · exact moves_winRate _ _
    · intro rate
      apply moves_bind _ _ trans
      · exact moves_read _ _ refl
      · intro manager
        apply moves_ite
        · apply moves_withGuard
          intro _
          exact moves_modify _ _ _ (fun _ => Or.inr rfl)
        · exact moves_pure _ _ refl _

/-- No pause, or one of 1 h from a loss of the run. -/
def PauseFromLoss (ops : List RiskOp) (manager : RiskManager) : Prop :=
  manager.pausedUntil = none ∨ ∃ tipLamports pauseFrom,
    RiskOp.recordLoss tipLamports pauseFrom ∈ ops ∧
      manager.pausedUntil = some (pauseFrom + winRatePause)

theorem pauseFromLoss_of_moves (ops : List RiskOp) (before after : RiskManager)
    (held : PauseFromLoss ops before) (moved : PauseMoves none before after) :
    PauseFromLoss ops after := by
  rcases moved with same | cleared
  · rw [PauseFromLoss, same]
    exact held
  · exact Or.inl cleared

theorem perform_pauseFromLoss (ops : List RiskOp) (op : RiskOp) (member : op ∈ ops)
    (before after : RiskManager) (value : Unit)
    (done : perform op [] before = some (value, after)) (held : PauseFromLoss ops before) :
    PauseFromLoss ops after := by
  have trans := pauseMoves_trans none
  have finish : ∀ _ : Bool, Moves (PauseMoves none) [] (pure () : RiskCall Unit) :=
    fun _ => moves_pure _ _ (pauseMoves_refl none) ()
  cases op with
  | isAllowed clock =>
      have moved : Moves (PauseMoves none) [] (perform (.isAllowed clock)) :=
        moves_bind _ _ trans _ _ (moves_isAllowed clock) finish
      exact pauseFromLoss_of_moves ops before after held (moved before value after done)
  | recordWin profitLamports tipLamports =>
      exact pauseFromLoss_of_moves ops before after held
        (moves_recordWin profitLamports tipLamports before value after done)
  | recordLoss tipLamports pauseFrom =>
      rcases moves_recordLoss tipLamports pauseFrom before value after done with same | set
      · rw [PauseFromLoss, same]
        exact held
      · exact Or.inr ⟨tipLamports, pauseFrom, member, set⟩
  | winRate =>
      have moved : Moves (PauseMoves none) [] (perform .winRate) :=
        moves_bind _ _ trans _ _ (moves_winRate none [])
          (fun _ => moves_pure _ _ (pauseMoves_refl none) ())
      exact pauseFromLoss_of_moves ops before after held (moved before value after done)

/-- In no run is the daily pause ever in force: every pause comes from the win-rate
guard. -/
theorem pause_from_loss (workingCapital : UInt64) (start : Instant) (ops : List RiskOp) :
    ∀ manager, run step (some (new workingCapital start)) ops = some manager →
      PauseFromLoss ops manager := by
  apply run_invariant step (fun state => ∀ manager, state = some manager →
    PauseFromLoss ops manager)
  · intro manager same
    cases same
    exact Or.inl rfl
  · intro pair member held after done
    have op := trace_input step _ ops pair member
    rcases Option.bind_eq_some_iff.mp done with ⟨before, found, performed⟩
    rcases Option.map_eq_some_iff.mp performed with ⟨⟨value, reached⟩, finished, same⟩
    cases same
    exact perform_pauseFromLoss ops pair.2 op before reached value finished (held before found)

end RiskManager

end Helios
