import Helios.ReserveParts

/-! The refresh of the reserves from the account cache against the one over RPC, on the
same balances. Each walks a hash map of vaults in an order of its own. -/

namespace Helios.CacheRefresh

open Machine PoolHydrator ReserveParts ReserveSides

/-! What the writes for one side leave there. -/

def poolRole (a : Bool) (key : Pubkey) : VaultType := if a then .poolA key else .poolB key
def marketRole (a : Bool) (key : Pubkey) : VaultType := if a then .marketA key else .marketB key

/-- A balance read for the role of a vault. -/
abbrev Reading := VaultType × Nat

/-- The amount that a role is left with. -/
def lastFor (role : VaultType) (readings : List Reading) : Option Nat :=
  (readings.filter (fun reading => decide (reading.1 = role))).getLast?.map Prod.snd

theorem lastFor_concat (role : VaultType) (readings : List Reading) (reading : Reading) :
    lastFor role (readings ++ [reading]) =
      if reading.1 = role then some reading.2 else lastFor role readings := by
  rw [lastFor, List.filter_append]
  by_cases own : reading.1 = role
  · have kept : [reading].filter (fun reading => decide (reading.1 = role)) = [reading] := by
      simp [own]
    rw [if_pos own, kept, List.getLast?_concat]
    rfl
  · have dropped : [reading].filter (fun reading => decide (reading.1 = role)) = [] := by
      simp [own]
    rw [if_neg own, dropped, List.append_nil]
    rfl

theorem lastFor_eq_none_iff (role : VaultType) (readings : List Reading) :
    lastFor role readings = none ↔ ∀ amount, (role, amount) ∉ readings := by
  rw [lastFor, Option.map_eq_none_iff, List.getLast?_eq_none_iff, List.filter_eq_nil_iff]
  constructor
  · intro others amount member
    exact others (role, amount) member (decide_eq_true rfl)
  · intro absent reading member own
    rw [← of_decide_eq_true own] at absent
    exact absent reading.2 member

theorem mem_of_lastFor (role : VaultType) (readings : List Reading) (amount : Nat)
    (last : lastFor role readings = some amount) : (role, amount) ∈ readings := by
  rcases Option.map_eq_some_iff.mp last with ⟨⟨held, value⟩, final, same⟩
  rcases List.mem_filter.mp (List.mem_of_getLast? final) with ⟨member, own⟩
  cases same
  cases of_decide_eq_true own
  exact member

/-- A side after some readings. -/
def settle (key : Pubkey) (a : Bool) (readings : List Reading) (side : Side) : Side :=
  let poolVault := (lastFor (poolRole a key) readings).getD side.poolVault
  let marketVault := (lastFor (marketRole a key) readings).getD side.marketVault
  ⟨poolVault, marketVault,
    if lastFor (poolRole a key) readings = none ∧ lastFor (marketRole a key) readings = none then
      side.reserve
    else wrap 64 (poolVault + marketVault)⟩

theorem own_iff (role : VaultType) (key : Pubkey) (a : Bool) :
    poolOf role = key ∧ isA role = a ↔ role = poolRole a key ∨ role = marketRole a key := by
  cases role with
  | poolA pool => cases a <;> simp [poolOf, isA, poolRole, marketRole]
  | poolB pool => cases a <;> simp [poolOf, isA, poolRole, marketRole]
  | marketA pool => cases a <;> simp [poolOf, isA, poolRole, marketRole]
  | marketB pool => cases a <;> simp [poolOf, isA, poolRole, marketRole]

theorem roles_differ (a : Bool) (key : Pubkey) : poolRole a key ≠ marketRole a key := by
  cases a <;> simp [poolRole, marketRole]

theorem apply_poolRole (side : Side) (key vault mint : Pubkey) (a : Bool) (amount : Nat) :
    side.apply ⟨vault, poolRole a key, mint, amount⟩ =
      ⟨amount, side.marketVault, wrap 64 (amount + side.marketVault)⟩ := by
  cases a <;> rfl

theorem apply_marketRole (side : Side) (key vault mint : Pubkey) (a : Bool) (amount : Nat) :
    side.apply ⟨vault, marketRole a key, mint, amount⟩ =
      ⟨side.poolVault, amount, wrap 64 (side.poolVault + amount)⟩ := by
  cases a <;> rfl

def readingOf (credit : Credit) : Reading := (credit.role, credit.amount)

/-- The balances set for a side, whatever stands between them. -/
theorem foldl_ownCredits (key : Pubkey) (a : Bool) (credits : List Credit) (side : Side) :
    (ownCredits key a credits).foldl Side.apply side = settle key a (credits.map readingOf) side := by
  induction credits using List.reverseRecOn with
  | nil => rfl
  | append_singleton before credit ih =>
      rcases credit with ⟨vault, role, mint, amount⟩
      have differ := roles_differ a key
      rw [ownCredits] at ih ⊢
      rw [List.filter_append, List.map_append, List.map_singleton, readingOf, List.foldl_append, ih]
      by_cases own : poolOf role = key ∧ isA role = a
      · rw [List.filter_cons_of_pos (by exact decide_eq_true own), List.filter_nil, List.foldl_cons,
          List.foldl_nil]
        rcases (own_iff role key a).mp own with ofPool | ofMarket
        · subst ofPool
          rw [apply_poolRole]
          simp [settle, lastFor_concat, differ]
        · subst ofMarket
          rw [apply_marketRole]
          simp [settle, lastFor_concat, Ne.symm differ]
      · have others : role ≠ poolRole a key ∧ role ≠ marketRole a key :=
          not_or.mp (fun either => own ((own_iff role key a).mpr either))
        rw [List.filter_cons_of_neg (by rw [decide_eq_true_iff]; exact own), List.filter_nil,
          List.foldl_nil]
        simp [settle, lastFor_concat, others.1, others.2]

/-! The readings of the two refreshes. -/

section Readings

variable (accounts : HashMap Pubkey Account)

/-- A balance of an account that is there and long enough. -/
def rpcReading (vaults : HashMap Pubkey VaultType) (vault : Pubkey) : Option Reading := do
  let acc ← HashMap.get accounts vault
  let amount ← tokenAmount acc
  let role ← HashMap.get vaults vault
  return (role, amount)

/-- A balance of zero is passed over. -/
def cachedReading (vault : Pubkey × VaultType) : Option Reading :=
  if vaultBalance accounts vault.1 = 0 then none else some (vault.2, vaultBalance accounts vault.1)

/-- The balances that `refresh_all` may set. -/
def rpcReadings (mapped : List MappedPool) (cache : PoolStateCache) : List Reading :=
  (allVaults mapped cache).keys.filterMap (rpcReading accounts (allVaults mapped cache))

/-- The balances that `refresh_vaults_from_cache` may set. -/
def cachedReadings (mapped : List MappedPool) (cache : PoolStateCache) : List Reading :=
  (walked (cachedVaults mapped cache)).filterMap (cachedReading accounts)

/-- Every request of the last round is answered with these accounts. -/
def Answers (network : Network) : Prop :=
  ∀ place keys, getMultipleAccountsRetry (network .vaults place) keys =
    some (keys.map (HashMap.get accounts))

theorem accountsOf_answers (network : Network) (answers : Answers accounts network) (place : Nat)
    (keys : List Pubkey) :
    accountsOf (network .vaults place) keys =
      keys.filterMap (fun key => (HashMap.get accounts key).map (fun acc => (key, acc))) := by
  rw [accountsOf, answers]
  dsimp only
  induction keys with
  | nil => rfl
  | cons key rest ih =>
      rw [List.map_cons, List.zip_cons_cons, List.filterMap_cons, List.filterMap_cons, ih]

theorem flatten_chunks (size fuel : Nat) (keys : List Pubkey) (positive : 0 < size)
    (enough : keys.length ≤ fuel) : (chunks size fuel keys).flatten = keys := by
  induction fuel generalizing keys with
  | zero =>
      rw [List.eq_nil_of_length_eq_zero (Nat.le_zero.mp enough)]
      rfl
  | succ fuel ih =>
      cases keys with
      | nil => rfl
      | cons key rest =>
          have shorter : ((key :: rest).drop size).length ≤ fuel := by
            rw [List.length_drop, List.length_cons] at *
            omega
          rw [chunks, List.flatten_cons, ih _ shorter, List.take_append_drop]
          exact List.cons_ne_nil key rest

/-- All the accounts there are, in the order the keys are asked for. -/
theorem fetch_eq (network : Network) (stage : Stage) (keys : List Pubkey) :
    fetch network stage keys = (chunks 100 keys.length keys).zipIdx.flatMap
      (fun piece => accountsOf (network stage piece.2) piece.1) := rfl

theorem fetch_answers (network : Network) (answers : Answers accounts network)
    (keys : List Pubkey) :
    fetch network .vaults keys =
      keys.filterMap (fun key => (HashMap.get accounts key).map (fun acc => (key, acc))) := by
  have whole := flatten_chunks 100 keys.length keys (by decide) (Nat.le_refl _)
  have parts : ∀ (pieces : List (List Pubkey)) (place : Nat),
      (pieces.zipIdx place).flatMap (fun piece =>
          accountsOf (network .vaults piece.2) piece.1) =
        pieces.flatten.filterMap (fun key =>
          (HashMap.get accounts key).map (fun acc => (key, acc))) := by
    intro pieces
    induction pieces with
    | nil => intro place; rfl
    | cons chunk rest ih =>
        intro place
        rw [List.zipIdx_cons, List.flatMap_cons, ih, List.flatten_cons, List.filterMap_append]
        dsimp only
        rw [accountsOf_answers accounts network answers]
  rw [fetch_eq, parts, whole]

/-- The balance step of `refresh_all`, with the vaults in the order the map is walked in. -/
def refreshListed (network : Network) (now : Instant) (vaults : HashMap Pubkey VaultType)
    (order : List Pubkey) (cache : PoolStateCache) : PoolStateCache :=
  (fetch network .vaults order).foldl (refreshBalance now vaults) cache

theorem refreshBalances_eq_refreshListed (network : Network) (now : Instant)
    (mapped : List MappedPool) (cache : PoolStateCache) :
    refreshBalances network now mapped cache =
      refreshListed network now (allVaults mapped cache) (allVaults mapped cache).keys cache := rfl

theorem side_refreshListed (network : Network) (answers : Answers accounts network) (now : Instant)
    (vaults : HashMap Pubkey VaultType) (order : List Pubkey) (cache : PoolStateCache)
    (key : Pubkey) (a : Bool) :
    ((refreshListed network now vaults order cache).get key).map (sideOf a) =
      (cache.get key).map (fun pool =>
        settle key a (order.filterMap (rpcReading accounts vaults)) (sideOf a pool)) := by
  have readings : ((fetch network .vaults order).filterMap (creditOf vaults)).map readingOf =
      order.filterMap (rpcReading accounts vaults) := by
    rw [fetch_answers accounts network answers, List.filterMap_filterMap, List.map_filterMap]
    apply List.filterMap_congr
    intro vault _
    rw [rpcReading]
    cases HashMap.get accounts vault with
    | none => rfl
    | some acc =>
        simp only [Option.map_some, Option.bind_some, Option.bind_eq_bind, creditOf]
        cases tokenAmount acc with
        | none => rfl
        | some amount =>
            cases HashMap.get vaults vault with
            | none => rfl
            | some role => rfl
  rw [refreshListed, side_foldl_refreshBalance]
  apply Option.map_congr
  intro pool _
  rw [foldl_ownCredits, readings]

theorem settle_append (key : Pubkey) (a : Bool) (before after : List Reading) (side : Side) :
    settle key a (before ++ after) side = settle key a after (settle key a before side) := by
  have credited : ∀ readings : List Reading, (readings.map (fun reading =>
      (⟨default, reading.1, default, reading.2⟩ : Credit))).map readingOf = readings := by
    intro readings
    rw [List.map_map]
    exact List.map_id' readings
  rw [← credited before, ← credited after, ← List.map_append, ← foldl_ownCredits,
    ← foldl_ownCredits, ← foldl_ownCredits, ownCredits, List.filter_append, List.foldl_append]
  rfl

/-- One vault of the cache's refresh, on one side. -/
theorem side_refreshFromCache (now : Instant) (state : PoolStateCache × Nat)
    (vault : Pubkey × VaultType) (key : Pubkey) (a : Bool) :
    ((refreshFromCache accounts now state vault).1.get key).map (sideOf a) =
      (state.1.get key).map (fun pool =>
        settle key a (cachedReading accounts vault).toList (sideOf a pool)) := by
  rw [refreshFromCache, cachedReading]
  by_cases zero : vaultBalance accounts vault.1 = 0
  · rw [if_pos zero, if_pos zero]
    rfl
  · rw [if_neg zero, if_neg zero]
    have side := side_setVaultBalance now state.1
      ⟨vault.1, vault.2, default, vaultBalance accounts vault.1⟩ key a
    refine side.trans (Option.map_congr ?_)
    intro pool _
    have folded := foldl_ownCredits key a
      [⟨vault.1, vault.2, default, vaultBalance accounts vault.1⟩] (sideOf a pool)
    refine Eq.trans ?_ folded
    by_cases own : poolOf vault.2 = key ∧ isA vault.2 = a
    · simp [ownCredits, own]
    · simp [ownCredits, own]

theorem side_refreshVaults (now : Instant) (order : List (Pubkey × VaultType))
    (cache : PoolStateCache) (key : Pubkey) (a : Bool) :
    ((refreshVaults accounts now order cache).1.get key).map (sideOf a) =
      (cache.get key).map (fun pool =>
        settle key a (order.filterMap (cachedReading accounts)) (sideOf a pool)) := by
  have folded : ∀ (order : List (Pubkey × VaultType)) (state : PoolStateCache × Nat),
      ((order.foldl (refreshFromCache accounts now) state).1.get key).map (sideOf a) =
        (state.1.get key).map (fun pool =>
          settle key a (order.filterMap (cachedReading accounts)) (sideOf a pool)) := by
    intro order
    induction order with
    | nil => intro state; rfl
    | cons vault rest ih =>
        intro state
        have split : (vault :: rest).filterMap (cachedReading accounts) =
            (cachedReading accounts vault).toList ++ rest.filterMap (cachedReading accounts) := by
          rw [List.filterMap_cons]
          cases cachedReading accounts vault with
          | none => rfl
          | some reading => rfl
        have step := congrArg (Option.map
          (settle key a (rest.filterMap (cachedReading accounts))))
          (side_refreshFromCache accounts now state vault key a)
        rw [Option.map_map, Option.map_map] at step
        rw [List.foldl_cons, ih, split]
        refine step.trans (Option.map_congr ?_)
        intro pool _
        exact (settle_append key a _ _ _).symm
  rw [← folded order (cache, 0), refreshVaults]
  dsimp only
  split
  · rfl
  · rfl

end Readings

/-! The orders are open, so the two agree only where no order matters. -/

section Orders

/-- An amount that some order of the readings leaves in a field. -/
def MayLeave (readings : List Reading) (role : VaultType) (held amount : Nat) : Prop :=
  (role, amount) ∈ readings ∨ (amount = held ∧ ∀ other, (role, other) ∉ readings)

theorem mayLeave_lastFor (readings order : List Reading) (perm : order.Perm readings)
    (role : VaultType) (held : Nat) :
    MayLeave readings role held ((lastFor role order).getD held) := by
  cases last : lastFor role order with
  | some amount => exact Or.inl (perm.mem_iff.mp (mem_of_lastFor role order amount last))
  | none =>
      refine Or.inr ⟨rfl, ?_⟩
      intro other member
      exact (lastFor_eq_none_iff role order).mp last other (perm.mem_iff.mpr member)

variable {A : Type} (reading : A → Option Reading)

/-- An order that leaves the amount: its vault comes last. -/
theorem lastFor_of_mayLeave (items : List A) (role : VaultType) (held amount : Nat)
    (may : MayLeave (items.filterMap reading) role held amount) :
    ∃ order : List A, order.Perm items ∧
      (lastFor role (order.filterMap reading)).getD held = amount := by
  rcases may with read | ⟨same, absent⟩
  · rcases List.mem_filterMap.mp read with ⟨item, member, gives⟩
    rcases List.append_of_mem member with ⟨front, back, split⟩
    refine ⟨front ++ back ++ [item], ?_, ?_⟩
    · rw [split, List.append_assoc]
      exact (List.perm_append_singleton item back).append_left front
    · have last : (front ++ back ++ [item]).filterMap reading =
          (front ++ back).filterMap reading ++ [(role, amount)] := by
        rw [List.filterMap_append, List.filterMap_cons_some gives, List.filterMap_nil]
      rw [last, lastFor_concat, if_pos rfl]
      rfl
  · refine ⟨items, List.Perm.refl _, ?_⟩
    rw [(lastFor_eq_none_iff role _).mpr absent, same]
    rfl

/-- Some balance of a side is read. -/
def Touches (readings : List Reading) (key : Pubkey) (a : Bool) : Prop :=
  ∃ amount, (poolRole a key, amount) ∈ readings ∨ (marketRole a key, amount) ∈ readings

/-- On one side: both refreshes can only leave one amount in each of the two fields, the
same one; and where only one of them writes the side, the reserve is their sum already. -/
structure SideAgrees (rpc cached : List Reading) (key : Pubkey) (a : Bool) (side : Side) :
    Prop where
  poolVault : ∀ first second, MayLeave rpc (poolRole a key) side.poolVault first →
    MayLeave cached (poolRole a key) side.poolVault second → first = second
  marketVault : ∀ first second, MayLeave rpc (marketRole a key) side.marketVault first →
    MayLeave cached (marketRole a key) side.marketVault second → first = second
  reserve : (Touches rpc key a ↔ Touches cached key a) ∨
    ∀ pool market, MayLeave rpc (poolRole a key) side.poolVault pool →
      MayLeave rpc (marketRole a key) side.marketVault market →
        side.reserve = wrap 64 (pool + market)

theorem touches_iff (readings : List Reading) (key : Pubkey) (a : Bool) :
    Touches readings key a ↔
      ¬(lastFor (poolRole a key) readings = none ∧ lastFor (marketRole a key) readings = none) := by
  rw [lastFor_eq_none_iff, lastFor_eq_none_iff]
  constructor
  · intro ⟨amount, either⟩ ⟨noPool, noMarket⟩
    rcases either with ofPool | ofMarket
    · exact noPool amount ofPool
    · exact noMarket amount ofMarket
  · intro some_
    by_contra untouched
    apply some_
    constructor
    · intro amount member
      exact untouched ⟨amount, Or.inl member⟩
    · intro amount member
      exact untouched ⟨amount, Or.inr member⟩

theorem touches_perm (readings order : List Reading) (perm : order.Perm readings) (key : Pubkey)
    (a : Bool) : Touches order key a ↔ Touches readings key a := by
  simp only [Touches, perm.mem_iff]

theorem reserve_settle (key : Pubkey) (a : Bool) (readings : List Reading) (side : Side) :
    (Touches readings key a → (settle key a readings side).reserve =
      wrap 64 ((settle key a readings side).poolVault + (settle key a readings side).marketVault)) ∧
    (¬Touches readings key a → (settle key a readings side).reserve = side.reserve) := by
  rw [touches_iff]
  constructor
  · intro touched
    exact if_neg touched
  · intro untouched
    exact if_pos (not_not.mp untouched)

theorem side_eq_iff (left right : Side) :
    left = right ↔ left.poolVault = right.poolVault ∧ left.marketVault = right.marketVault ∧
      left.reserve = right.reserve := by
  cases left
  cases right
  simp

/-- Two orders leave the same side. -/
theorem settle_eq_iff (key : Pubkey) (a : Bool) (left right : List Reading) (side : Side) :
    settle key a left side = settle key a right side ↔
      (settle key a left side).poolVault = (settle key a right side).poolVault ∧
      (settle key a left side).marketVault = (settle key a right side).marketVault ∧
      ((Touches right key a ↔ Touches left key a) ∨
        side.reserve = wrap 64 ((settle key a right side).poolVault +
          (settle key a right side).marketVault)) := by
  rcases reserve_settle key a left side with ⟨summed, kept⟩
  rcases reserve_settle key a right side with ⟨otherSummed, otherKept⟩
  rw [side_eq_iff]
  refine and_congr_right (fun pools => and_congr_right (fun markets => ?_))
  by_cases here : Touches left key a
  · by_cases there : Touches right key a
    · rw [summed here, otherSummed there, pools, markets]
      simp [here, there]
    · rw [summed here, otherKept there, pools, markets]
      simp [here, there, eq_comm]
  · by_cases there : Touches right key a
    · rw [kept here, otherSummed there]
      simp [here, there]
    · rw [kept here, otherKept there]
      simp [here, there]

variable {B : Type} (other : B → Option Reading)

/-- For one side: every two orders leave the same exactly if no order matters. -/
theorem settle_agrees_iff (items : List A) (others : List B) (key : Pubkey) (a : Bool)
    (side : Side) :
    (∀ (order : List A) (otherOrder : List B), order.Perm items → otherOrder.Perm others →
      settle key a (otherOrder.filterMap other) side = settle key a (order.filterMap reading) side) ↔
    SideAgrees (items.filterMap reading) (others.filterMap other) key a side := by
  constructor
  · intro agree
    have poolVault : ∀ first second,
        MayLeave (items.filterMap reading) (poolRole a key) side.poolVault first →
        MayLeave (others.filterMap other) (poolRole a key) side.poolVault second →
        first = second := by
      intro first second may otherMay
      rcases lastFor_of_mayLeave reading items _ _ _ may with ⟨order, perm, leaves⟩
      rcases lastFor_of_mayLeave other others _ _ _ otherMay with ⟨otherOrder, otherPerm, left⟩
      rw [← leaves, ← left]
      exact (congrArg Side.poolVault (agree order otherOrder perm otherPerm)).symm
    have marketVault : ∀ first second,
        MayLeave (items.filterMap reading) (marketRole a key) side.marketVault first →
        MayLeave (others.filterMap other) (marketRole a key) side.marketVault second →
        first = second := by
      intro first second may otherMay
      rcases lastFor_of_mayLeave reading items _ _ _ may with ⟨order, perm, leaves⟩
      rcases lastFor_of_mayLeave other others _ _ _ otherMay with ⟨otherOrder, otherPerm, left⟩
      rw [← leaves, ← left]
      exact (congrArg Side.marketVault (agree order otherOrder perm otherPerm)).symm
    have plain := agree items others (List.Perm.refl _) (List.Perm.refl _)
    have settled := (settle_eq_iff key a _ _ side).mp plain
    refine ⟨poolVault, marketVault, settled.2.2.imp_right ?_⟩
    intro sums pool market mayPool mayMarket
    have poolIs : pool = (settle key a (items.filterMap reading) side).poolVault :=
      (poolVault pool _ mayPool (mayLeave_lastFor _ _ (List.Perm.refl _) _ _)).trans settled.1
    have marketIs : market = (settle key a (items.filterMap reading) side).marketVault :=
      (marketVault market _ mayMarket (mayLeave_lastFor _ _ (List.Perm.refl _) _ _)).trans
        settled.2.1
    rw [poolIs, marketIs]
    exact sums
  · intro agrees order otherOrder perm otherPerm
    have readingsPerm := perm.filterMap reading
    have othersPerm := otherPerm.filterMap other
    have mayPool := mayLeave_lastFor _ _ readingsPerm (poolRole a key) side.poolVault
    have mayMarket := mayLeave_lastFor _ _ readingsPerm (marketRole a key) side.marketVault
    apply (settle_eq_iff key a _ _ side).mpr
    refine ⟨?_, ?_, ?_⟩
    · exact (agrees.poolVault _ _ mayPool
        (mayLeave_lastFor _ _ othersPerm (poolRole a key) side.poolVault)).symm
    · exact (agrees.marketVault _ _ mayMarket
        (mayLeave_lastFor _ _ othersPerm (marketRole a key) side.marketVault)).symm
    · rw [touches_perm _ _ readingsPerm, touches_perm _ _ othersPerm]
      exact agrees.reserve.imp_right (fun sums => sums _ _ mayPool mayMarket)

end Orders

/-- Over all orders of the two walks, the refresh from the account cache leaves every pool
as the one over RPC does exactly if every side of every pool agrees. -/
theorem refreshes_agree_iff (accounts : HashMap Pubkey Account) (network : Network)
    (answers : Answers accounts network) (now later : Instant) (mapped : List MappedPool)
    (cache : PoolStateCache) :
    (∀ (rpcOrder : List Pubkey) (cachedOrder : List (Pubkey × VaultType)),
      rpcOrder.Perm (allVaults mapped cache).keys →
      cachedOrder.Perm (walked (cachedVaults mapped cache)) → ∀ key a,
        ((refreshVaults accounts now cachedOrder cache).1.get key).map (sideOf a) =
          ((refreshListed network later (allVaults mapped cache) rpcOrder cache).get key).map
            (sideOf a)) ↔
      ∀ key pool, cache.get key = some pool → ∀ a,
        SideAgrees (rpcReadings accounts mapped cache) (cachedReadings accounts mapped cache) key a
          (sideOf a pool) := by
  constructor
  · intro agree key pool cached a
    apply (settle_agrees_iff _ _ _ _ key a (sideOf a pool)).mp
    intro order otherOrder perm otherPerm
    have same := agree order otherOrder perm otherPerm key a
    rw [side_refreshVaults, side_refreshListed accounts network answers, cached] at same
    exact Option.some.inj same
  · intro agrees rpcOrder cachedOrder rpcPerm cachedPerm key a
    rw [side_refreshVaults, side_refreshListed accounts network answers]
    apply Option.map_congr
    intro pool cached
    exact (settle_agrees_iff _ _ _ _ key a (sideOf a pool)).mpr (agrees key pool cached a) rpcOrder
      cachedOrder rpcPerm cachedPerm

/-- The pool's vault A is empty, its vault B is as it was. -/
def drainedAccounts : HashMap Pubkey Account :=
  (HashMap.empty.insert (.ofNat 13) (tokenAccount (.ofNat 2) 0)).insert (.ofNat 14)
    (tokenAccount (.ofNat 3) 1000)

def drainedNetwork : Network := fun _ _ =>
  ⟨fun _ keys => .ok (keys.map (HashMap.get drainedAccounts)), none⟩

def drainedFile : List MappedPool := [⟨some (.ofNat 1), some (.ofNat 13), some (.ofNat 14)⟩]

/-- RPC sets the empty vault to zero; from the cache the old balance stands. -/
theorem empty_vault_kept :
    ((refreshBalances drainedNetwork 0 drainedFile hydratedCache).get (.ofNat 1)).map
        (sideOf true) = some ⟨0, 500, 500⟩ ∧
      ((refreshVaultsFromCache drainedAccounts 0 drainedFile hydratedCache).1.get
        (.ofNat 1)).map (sideOf true) = some ⟨1000, 500, 1500⟩ := by
  constructor
  · decide +kernel
  · decide +kernel

theorem refreshes_agree_iff_drained :
    (∀ (rpcOrder : List Pubkey) (cachedOrder : List (Pubkey × VaultType)),
      rpcOrder.Perm (allVaults drainedFile hydratedCache).keys →
      cachedOrder.Perm (walked (cachedVaults drainedFile hydratedCache)) → ∀ key a,
        ((refreshVaults drainedAccounts 0 cachedOrder hydratedCache).1.get key).map (sideOf a) =
          ((refreshListed drainedNetwork 0 (allVaults drainedFile hydratedCache) rpcOrder
            hydratedCache).get key).map (sideOf a)) ↔
      ∀ key pool, hydratedCache.get key = some pool → ∀ a,
        SideAgrees (rpcReadings drainedAccounts drainedFile hydratedCache)
          (cachedReadings drainedAccounts drainedFile hydratedCache) key a (sideOf a pool) :=
  refreshes_agree_iff drainedAccounts drainedNetwork (fun _ _ => rfl) 0 0 drainedFile hydratedCache

end Helios.CacheRefresh
