import Helios.RaydiumMetas

/-! Which token accounts the two reserves of a pool are summed from. The coin vault
of a Raydium pool counts for the first side, whichever token it holds. -/

namespace Helios.ReserveSides

open Fallible Machine PoolHydrator

def poolOf : VaultType → Pubkey
  | .poolA pool => pool
  | .poolB pool => pool
  | .marketA pool => pool
  | .marketB pool => pool

def isA : VaultType → Bool
  | .poolA _ => true
  | .marketA _ => true
  | .poolB _ => false
  | .marketB _ => false

/-- The mint a token account is of. -/
def mintOf (acc : Account) : Pubkey := Pubkey.ofBytes (acc.take 32)

/-- A balance that is read from a token account and set for a pool. -/
structure Credit where
  vault : Pubkey
  role : VaultType
  mint : Pubkey
  amount : Nat

def creditOf (vaults : HashMap Pubkey VaultType) (received : Pubkey × Account) : Option Credit := do
  let amount ← tokenAmount received.2
  let role ← HashMap.get vaults received.1
  return ⟨received.1, role, mintOf received.2, amount⟩

/-- The accounts the last round brings in. -/
def vaultAccounts (network : Network) (mapped : List MappedPool) (cache : PoolStateCache) :
    List (Pubkey × Account) :=
  fetch network .vaults (allVaults mapped cache).keys

/-- The balances the last round sets, in their order. -/
def credits (network : Network) (mapped : List MappedPool) (cache : PoolStateCache) :
    List Credit :=
  (vaultAccounts network mapped cache).filterMap (creditOf (allVaults mapped cache))

/-! A side of a pool is a function of the balances set for it. -/

/-- The balances of one side and their sum. -/
structure Side where
  poolVault : Nat
  marketVault : Nat
  reserve : Nat
  deriving DecidableEq

def sideOf (a : Bool) (pool : DexPool) : Side :=
  if a then ⟨pool.poolVaultABalance, pool.marketVaultABalance, pool.reserveA⟩
  else ⟨pool.poolVaultBBalance, pool.marketVaultBBalance, pool.reserveB⟩

def Side.apply (side : Side) (credit : Credit) : Side :=
  match credit.role with
  | .poolA _ => ⟨credit.amount, side.marketVault, wrap 64 (credit.amount + side.marketVault)⟩
  | .poolB _ => ⟨credit.amount, side.marketVault, wrap 64 (credit.amount + side.marketVault)⟩
  | .marketA _ => ⟨side.poolVault, credit.amount, wrap 64 (side.poolVault + credit.amount)⟩
  | .marketB _ => ⟨side.poolVault, credit.amount, wrap 64 (side.poolVault + credit.amount)⟩

/-- The balances set for a side of a pool. -/
def ownCredits (key : Pubkey) (a : Bool) (all : List Credit) : List Credit :=
  all.filter (fun credit => decide (poolOf credit.role = key ∧ isA credit.role = a))

theorem side_setVaultBalance (now : Instant) (cache : PoolStateCache) (credit : Credit)
    (key : Pubkey) (a : Bool) :
    ((setVaultBalance now cache credit.amount credit.role).get key).map (sideOf a) =
      (cache.get key).map (fun pool =>
        if poolOf credit.role = key ∧ isA credit.role = a then (sideOf a pool).apply credit
        else sideOf a pool) := by
  have moved : ∀ (pool : Pubkey) (change : DexPool → DexPool),
      (∀ held, sideOf a (change held) =
        if isA credit.role = a then (sideOf a held).apply credit else sideOf a held) →
      ((cache.getMut pool change).get key).map (sideOf a) =
        (cache.get key).map (fun held =>
          if pool = key ∧ isA credit.role = a then (sideOf a held).apply credit
          else sideOf a held) := by
    intro pool change effect
    rw [PoolStateCache.get_getMut]
    by_cases own : key = pool
    · rw [if_pos own, Option.map_map, ← own]
      refine Option.map_congr ?_
      intro held _
      simp only [Function.comp_apply, effect held, true_and]
    · rw [if_neg own]
      refine Option.map_congr ?_
      intro held _
      rw [if_neg (fun both => own both.1.symm)]
  cases kind : credit.role with
  | poolA pool =>
      rw [kind] at moved
      refine moved pool _ ?_
      intro held
      cases a <;> simp [sideOf, sumA, isA, Side.apply, kind]
  | poolB pool =>
      rw [kind] at moved
      refine moved pool _ ?_
      intro held
      cases a <;> simp [sideOf, sumB, isA, Side.apply, kind]
  | marketA pool =>
      rw [kind] at moved
      refine moved pool _ ?_
      intro held
      cases a <;> simp [sideOf, sumA, isA, Side.apply, kind]
  | marketB pool =>
      rw [kind] at moved
      refine moved pool _ ?_
      intro held
      cases a <;> simp [sideOf, sumB, isA, Side.apply, kind]

/-- A side after any accounts is computed from what it was and the balances set for it. -/
theorem side_foldl_refreshBalance (now : Instant) (vaults : HashMap Pubkey VaultType)
    (received : List (Pubkey × Account)) (cache : PoolStateCache) (key : Pubkey) (a : Bool) :
    ((received.foldl (refreshBalance now vaults) cache).get key).map (sideOf a) =
      (cache.get key).map (fun pool =>
        (ownCredits key a (received.filterMap (creditOf vaults))).foldl Side.apply
          (sideOf a pool)) := by
  induction received generalizing cache with
  | nil => rfl
  | cons received rest ih =>
      rw [List.foldl_cons, ih]
      cases credited : creditOf vaults received with
      | none =>
          have idle : refreshBalance now vaults cache received = cache := by
            rw [refreshBalance]
            split
            · next amount role read found =>
                rw [creditOf, read, found] at credited
                cases credited
            · rfl
          rw [idle, List.filterMap_cons_none credited]
      | some credit =>
          have sets : refreshBalance now vaults cache received =
              setVaultBalance now cache credit.amount credit.role := by
            simp only [creditOf, Option.bind_eq_bind, Option.bind_eq_some_iff] at credited
            rcases credited with ⟨amount, read, role, found, same⟩
            cases same
            rw [refreshBalance, read, found]
          have side := side_setVaultBalance now cache credit key a
          rw [sets, List.filterMap_cons_some credited]
          have first : ∀ pool, (ownCredits key a (credit :: rest.filterMap (creditOf vaults))).foldl
              Side.apply (sideOf a pool) =
              (ownCredits key a (rest.filterMap (creditOf vaults))).foldl Side.apply
                (if poolOf credit.role = key ∧ isA credit.role = a then
                  (sideOf a pool).apply credit else sideOf a pool) := by
            intro pool
            rw [ownCredits, List.filter_cons]
            by_cases own : poolOf credit.role = key ∧ isA credit.role = a
            · rw [if_pos (decide_eq_true own), if_pos own, List.foldl_cons]
              rfl
            · rw [if_neg (by rw [decide_eq_true_iff]; exact own), if_neg own]
              rfl
          have whole := congrArg (Option.map (fun side : Side =>
            (ownCredits key a (rest.filterMap (creditOf vaults))).foldl Side.apply side)) side
          rw [Option.map_map, Option.map_map] at whole
          refine whole.trans (Option.map_congr ?_)
          intro pool _
          exact (first pool).symm

/-- The same for the last round of a refresh. -/
theorem side_refreshBalances (network : Network) (now : Instant) (mapped : List MappedPool)
    (cache : PoolStateCache) (key : Pubkey) (a : Bool) :
    ((refreshBalances network now mapped cache).get key).map (sideOf a) =
      (cache.get key).map (fun pool =>
        (ownCredits key a (credits network mapped cache)).foldl Side.apply (sideOf a pool)) :=
  side_foldl_refreshBalance now (allVaults mapped cache) (vaultAccounts network mapped cache) cache
    key a

/-! Whose claim a vault is. -/

/-- Every pool is cached under its own address. -/
def Keyed (cache : PoolStateCache) : Prop :=
  ∀ key pool, cache.get key = some pool → pool.poolAddress = key

theorem mem_claim (key other : Pubkey) (vault role : VaultType) :
    (other, role) ∈ claim key vault ↔ key ≠ default ∧ other = key ∧ role = vault := by
  rw [claim]
  split
  · next real => simp [real]
  · next placeholder => simp [not_not.mp placeholder]

theorem mem_raydiumClaims (address key : Pubkey) (role : VaultType) (entry : RaydiumMetadata) :
    (key, role) ∈ raydiumClaims address entry ↔ key ≠ default ∧
      ((key = entry.vaultA ∧ role = .poolA address) ∨ (key = entry.vaultB ∧ role = .poolB address) ∨
        (key = entry.marketBaseVault ∧ role = .marketA address) ∨
        (key = entry.marketQuoteVault ∧ role = .marketB address)) := by
  simp only [raydiumClaims, List.mem_append, mem_claim]
  constructor
  · intro either
    rcases either with ((⟨real, rfl, rfl⟩ | ⟨real, rfl, rfl⟩) | ⟨real, rfl, rfl⟩) | ⟨real, rfl, rfl⟩
    · exact ⟨real, Or.inl ⟨rfl, rfl⟩⟩
    · exact ⟨real, Or.inr (Or.inl ⟨rfl, rfl⟩)⟩
    · exact ⟨real, Or.inr (Or.inr (Or.inl ⟨rfl, rfl⟩))⟩
    · exact ⟨real, Or.inr (Or.inr (Or.inr ⟨rfl, rfl⟩))⟩
  · intro ⟨real, either⟩
    rcases either with ⟨rfl, rfl⟩ | ⟨rfl, rfl⟩ | ⟨rfl, rfl⟩ | ⟨rfl, rfl⟩
    · exact Or.inl (Or.inl (Or.inl ⟨real, rfl, rfl⟩))
    · exact Or.inl (Or.inl (Or.inr ⟨real, rfl, rfl⟩))
    · exact Or.inl (Or.inr ⟨real, rfl, rfl⟩)
    · exact Or.inr ⟨real, rfl, rfl⟩

theorem poolClaims_spec (pool : DexPool) (key : Pubkey) (role : VaultType)
    (claimed : (key, role) ∈ poolClaims pool) :
    key ≠ default ∧ poolOf role = pool.poolAddress := by
  simp only [poolClaims, List.mem_append, List.mem_flatMap, mem_raydiumClaims, mem_claim]
    at claimed
  rcases claimed with (⟨entry, _, real, named⟩ | ⟨entry, _, named⟩) | ⟨entry, _, named⟩
  · rcases named with ⟨_, rfl⟩ | ⟨_, rfl⟩ | ⟨_, rfl⟩ | ⟨_, rfl⟩
    · exact ⟨real, rfl⟩
    · exact ⟨real, rfl⟩
    · exact ⟨real, rfl⟩
    · exact ⟨real, rfl⟩
  · rcases named with ⟨real, same, rfl⟩ | ⟨real, same, rfl⟩
    · exact ⟨same ▸ real, rfl⟩
    · exact ⟨same ▸ real, rfl⟩
  · rcases named with ⟨real, same, rfl⟩ | ⟨real, same, rfl⟩
    · exact ⟨same ▸ real, rfl⟩
    · exact ⟨same ▸ real, rfl⟩

theorem mappedClaims_real (mapped : List MappedPool) (key : Pubkey) (role : VaultType)
    (claimed : (key, role) ∈ mappedClaims mapped) : key ≠ default := by
  rcases List.mem_flatMap.mp claimed with ⟨entry, _, named⟩
  rcases List.mem_append.mp named with first | second
  · rcases (mem_claim _ _ _ _).mp first with ⟨real, same, _⟩
    exact same ▸ real
  · rcases (mem_claim _ _ _ _).mp second with ⟨real, same, _⟩
    exact same ▸ real

/-- The claims on a vault, in the order they are made. -/
def roleOn (key : Pubkey) (claimed : Pubkey × VaultType) : Option VaultType :=
  if claimed.1 = key then some claimed.2 else none

theorem mem_rolesOn (key : Pubkey) (role : VaultType) (claims : List (Pubkey × VaultType)) :
    role ∈ claims.filterMap (roleOn key) ↔ (key, role) ∈ claims := by
  rw [List.mem_filterMap]
  constructor
  · intro ⟨⟨other, held⟩, member, same⟩
    rw [roleOn] at same
    split at same
    · next equal =>
        cases same
        exact equal ▸ member
    · cases same
  · intro member
    exact ⟨(key, role), member, if_pos rfl⟩

theorem get_allVaults (mapped : List MappedPool) (cache : PoolStateCache) (key : Pubkey) :
    HashMap.get (allVaults mapped cache) key =
      ((mappedClaims mapped ++ (HashMap.values cache.inner).flatMap poolClaims).filterMap
        (roleOn key)).getLast? := by
  have last := HashMap.get_foldl_insert Prod.fst Prod.snd
    (mappedClaims mapped ++ (HashMap.values cache.inner).flatMap poolClaims)
    (HashMap.empty : HashMap Pubkey VaultType) key
  rw [HashMap.get_empty, Option.or_none] at last
  exact last

/-- A claim that comes behind another on the same key wins over it. -/
theorem last_in_back (front back : List (Pubkey × VaultType)) (key : Pubkey)
    (role other : VaultType)
    (last : ((front ++ back).filterMap (roleOn key)).getLast? = some role)
    (claimed : (key, other) ∈ back) : (key, role) ∈ back := by
  have some : back.filterMap (roleOn key) ≠ [] :=
    List.ne_nil_of_mem ((mem_rolesOn key other back).mpr claimed)
  rw [List.filterMap_append, List.getLast?_append_of_ne_nil _ some] at last
  exact (mem_rolesOn key role back).mp (List.mem_of_getLast? last)

section Claims

variable (mapped : List MappedPool) (cache : PoolStateCache) (keyed : Keyed cache)
include keyed

/-- A vault that counts for a pool is claimed by its metadata, if that names it at
all, and by the pools file otherwise. -/
theorem claimed_by (key vault : Pubkey) (pool : DexPool) (cached : cache.get key = some pool)
    (role : VaultType) (counts : HashMap.get (allVaults mapped cache) vault = some role)
    (own : poolOf role = key) :
    (vault, role) ∈ poolClaims pool ∨
      ((vault, role) ∈ mappedClaims mapped ∧ ∀ other, (vault, other) ∉ poolClaims pool) := by
  rw [get_allVaults] at counts
  have mine : ∀ held ∈ HashMap.values cache.inner, (vault, role) ∈ poolClaims held →
      held = pool := by
    intro held member claimed
    rcases (HashMap.mem_values cache.inner held).mp member with ⟨address, found⟩
    have addressIs := keyed address held found
    have roleIs := (poolClaims_spec held vault role claimed).2
    have same : address = key := addressIs.symm.trans (roleIs.symm.trans own)
    rw [same] at found
    exact Option.some.inj (found.symm.trans cached)
  by_cases named : ∃ other, (vault, other) ∈ poolClaims pool
  · rcases named with ⟨other, claimed⟩
    have member : pool ∈ HashMap.values cache.inner :=
      (HashMap.mem_values cache.inner pool).mpr ⟨key, cached⟩
    rcases List.append_of_mem member with ⟨front, back, split⟩
    have claims : mappedClaims mapped ++ (HashMap.values cache.inner).flatMap poolClaims =
        (mappedClaims mapped ++ front.flatMap poolClaims) ++
          (poolClaims pool ++ back.flatMap poolClaims) := by
      rw [split, List.flatMap_append, List.flatMap_cons, List.append_assoc]
    rw [claims] at counts
    have late := last_in_back _ _ vault role other counts (List.mem_append_left _ claimed)
    rcases List.mem_append.mp late with here | later
    · exact Or.inl here
    · rcases List.mem_flatMap.mp later with ⟨held, inBack, claimedLater⟩
      have inValues : held ∈ HashMap.values cache.inner := by
        rw [split]
        exact List.mem_append_right _ (List.mem_cons_of_mem _ inBack)
      exact Or.inl (mine held inValues claimedLater ▸ claimedLater)
  · have unnamed : ∀ other, (vault, other) ∉ poolClaims pool :=
      fun other claimed => named ⟨other, claimed⟩
    have member := (mem_rolesOn vault role _).mp (List.mem_of_getLast? counts)
    rcases List.mem_append.mp member with fromFile | fromCache
    · exact Or.inr ⟨fromFile, unnamed⟩
    · rcases List.mem_flatMap.mp fromCache with ⟨held, inValues, claimed⟩
      exact Or.inl (mine held inValues claimed ▸ claimed)

end Claims

/-! The two orders of a Raydium pool. -/

/-- A cached Raydium AMM pool, which has the metadata of no other venue. -/
structure IsRaydium (pool : DexPool) : Prop where
  kind : pool.dexType = .raydiumAmmV4
  noOrca : pool.orcaMeta = none
  noMeteora : pool.meteoraMeta = none

def sideToken (pool : DexPool) (a : Bool) : Pubkey := if a then pool.tokenA else pool.tokenB

/-- Both reserves of a pool are summed from token accounts of their own token. -/
def Oriented (pool : DexPool) (key : Pubkey) (all : List Credit) : Prop :=
  ∀ a, ∀ credit ∈ ownCredits key a all, credit.mint = sideToken pool a

/-- The vaults of a pool and of its market. -/
def entryVaults (entry : RaydiumMetadata) : List Pubkey :=
  [entry.vaultA, entry.vaultB, entry.marketBaseVault, entry.marketQuoteVault]

/-- What the programs behind a pool guarantee: the coin vaults of the pool and of its
market hold the coin mint, the pc vaults the pc mint, and the two are the pool's
tokens in one order or the other. -/
structure MintOrder (pool : DexPool) (received : List (Pubkey × Account))
    (entry : RaydiumMetadata) (coin pc : Pubkey) : Prop where
  coinSide : ∀ account ∈ received,
    account.1 = entry.vaultA ∨ account.1 = entry.marketBaseVault → mintOf account.2 = coin
  pcSide : ∀ account ∈ received,
    account.1 = entry.vaultB ∨ account.1 = entry.marketQuoteVault → mintOf account.2 = pc
  pair : (coin = pool.tokenA ∧ pc = pool.tokenB) ∨ (coin = pool.tokenB ∧ pc = pool.tokenA)

theorem MintOrder.coin_first_iff {pool : DexPool} {received : List (Pubkey × Account)}
    {entry : RaydiumMetadata} {coin pc : Pubkey} (mints : MintOrder pool received entry coin pc) :
    coin = pool.tokenA ↔ pc = pool.tokenB := by
  rcases mints.pair with ⟨first, second⟩ | ⟨first, second⟩
  · exact iff_of_true first second
  · constructor
    · intro same
      exact second.trans (same.symm.trans first)
    · intro same
      exact first.trans (same.symm.trans second)

theorem mem_ownCredits (key : Pubkey) (a : Bool) (all : List Credit) (credit : Credit) :
    credit ∈ ownCredits key a all ↔
      credit ∈ all ∧ poolOf credit.role = key ∧ isA credit.role = a := by
  rw [ownCredits, List.mem_filter, decide_eq_true_iff]

theorem mem_credits (network : Network) (mapped : List MappedPool) (cache : PoolStateCache)
    (credit : Credit) (member : credit ∈ credits network mapped cache) :
    HashMap.get (allVaults mapped cache) credit.vault = some credit.role ∧
      ∃ account ∈ vaultAccounts network mapped cache,
        account.1 = credit.vault ∧ mintOf account.2 = credit.mint := by
  rcases List.mem_filterMap.mp member with ⟨account, received, credited⟩
  simp only [creditOf, Option.bind_eq_bind, Option.bind_eq_some_iff] at credited
  rcases credited with ⟨amount, _, role, found, same⟩
  cases same
  exact ⟨found, account, received, rfl, rfl⟩

section Raydium

variable (network : Network) (mapped : List MappedPool) (flushed : PoolStateCache)
  (keyed : Keyed flushed) (key : Pubkey) (pool : DexPool) (cached : flushed.get key = some pool)
  (raydium : IsRaydium pool) (entry : RaydiumMetadata) (held : pool.raydiumMeta = some entry)
include keyed cached raydium held

theorem poolClaims_raydium : poolClaims pool = raydiumClaims key entry := by
  have address := keyed key pool cached
  simp [poolClaims, held, raydium.noOrca, raydium.noMeteora, address]

/-- A credit from one of the entry's vaults goes to the side of that vault. -/
theorem mint_of_own (coin pc : Pubkey)
    (mints : MintOrder pool (vaultAccounts network mapped flushed) entry coin pc) (credit : Credit)
    (member : credit ∈ credits network mapped flushed) (own : poolOf credit.role = key)
    (named : credit.vault ∈ entryVaults entry) :
    credit.mint = if isA credit.role then coin else pc := by
  rcases mem_credits network mapped flushed credit member with ⟨counts, account, received, vault, mint⟩
  have claims := poolClaims_raydium flushed keyed key pool cached raydium entry held
  have role : (credit.vault, credit.role) ∈ raydiumClaims key entry := by
    rcases claimed_by mapped flushed keyed key credit.vault pool cached credit.role counts own with
      here | ⟨fromFile, unnamed⟩
    · exact claims ▸ here
    · have real := mappedClaims_real mapped credit.vault credit.role fromFile
      rw [claims] at unnamed
      simp only [entryVaults, List.mem_cons, List.not_mem_nil, or_false] at named
      rcases named with same | same | same | same
      · exact absurd ((mem_raydiumClaims _ _ _ _).mpr ⟨real, Or.inl ⟨same, rfl⟩⟩)
          (unnamed (.poolA key))
      · exact absurd ((mem_raydiumClaims _ _ _ _).mpr ⟨real, Or.inr (Or.inl ⟨same, rfl⟩)⟩)
          (unnamed (.poolB key))
      · exact absurd ((mem_raydiumClaims _ _ _ _).mpr
          ⟨real, Or.inr (Or.inr (Or.inl ⟨same, rfl⟩))⟩) (unnamed (.marketA key))
      · exact absurd ((mem_raydiumClaims _ _ _ _).mpr
          ⟨real, Or.inr (Or.inr (Or.inr ⟨same, rfl⟩))⟩) (unnamed (.marketB key))
  rcases (mem_raydiumClaims _ _ _ _).mp role with
    ⟨_, ⟨same, kind⟩ | ⟨same, kind⟩ | ⟨same, kind⟩ | ⟨same, kind⟩⟩
  · rw [← mint, kind]
    exact mints.coinSide account received (Or.inl (vault.trans same))
  · rw [← mint, kind]
    exact mints.pcSide account received (Or.inl (vault.trans same))
  · rw [← mint, kind]
    exact mints.coinSide account received (Or.inr (vault.trans same))
  · rw [← mint, kind]
    exact mints.pcSide account received (Or.inr (vault.trans same))

/-- The reserves are right if and only if the coin mint is the first token, or none of
the pool's own vaults counts, and so is any further account the file names. -/
theorem oriented_iff (coin pc : Pubkey)
    (mints : MintOrder pool (vaultAccounts network mapped flushed) entry coin pc) :
    Oriented pool key (credits network mapped flushed) ↔
      ((∃ credit ∈ credits network mapped flushed, poolOf credit.role = key ∧
        credit.vault ∈ entryVaults entry) → coin = pool.tokenA) ∧
      ∀ credit ∈ credits network mapped flushed, poolOf credit.role = key →
        credit.vault ∉ entryVaults entry → credit.mint = sideToken pool (isA credit.role) := by
  have ownMint := mint_of_own network mapped flushed keyed key pool cached raydium entry held coin pc
    mints
  constructor
  · intro oriented
    have right : ∀ credit ∈ credits network mapped flushed, poolOf credit.role = key →
        credit.mint = sideToken pool (isA credit.role) :=
      fun credit member own => oriented _ credit ((mem_ownCredits _ _ _ _).mpr ⟨member, own, rfl⟩)
    refine ⟨?_, fun credit member own _ => right credit member own⟩
    intro ⟨credit, member, own, named⟩
    have mint := (ownMint credit member own named).symm.trans (right credit member own)
    cases side : isA credit.role with
    | true =>
        rw [side] at mint
        exact mint
    | false =>
        rw [side] at mint
        exact mints.coin_first_iff.mpr mint
  · intro ⟨ordered, others⟩ a credit member
    rcases (mem_ownCredits _ _ _ _).mp member with ⟨inside, own, side⟩
    by_cases named : credit.vault ∈ entryVaults entry
    · have first := ordered ⟨credit, inside, own, named⟩
      rw [ownMint credit inside own named, side]
      cases a with
      | true => exact first
      | false => exact mints.coin_first_iff.mp first
    · rw [← side]
      exact others credit inside own named

end Raydium

section Refresh

variable (pda : Pda) (network : Network) (now : Instant) (mapped : List MappedPool)
  (cache flushed : PoolStateCache)
  (filled : refreshMetadata pda network mapped cache = .ok flushed)

/-- The entry the metadata rounds leave for a decoded pool. -/
def entryOf (metadata : RaydiumMetadata) : RaydiumMetadata :=
  resolved pda (marketAccounts pda network mapped cache) metadata

include filled

theorem flushed_fixed (key : Pubkey) (held : DexPool) (found : flushed.get key = some held) :
    ∃ pool, cache.get key = some pool ∧ fixedPart held = fixedPart { pool with
      raydiumMeta := ((stagedMeta pda mapped network cache key).map
        (entryOf pda network mapped cache)).or pool.raydiumMeta } := by
  have entry := refreshMetadata_ok pda network mapped cache flushed filled key
  rw [found, Option.map_some] at entry
  rcases Option.map_eq_some_iff.mp entry.symm with ⟨pool, cached, same⟩
  exact ⟨pool, cached, same.symm⟩

theorem flushed_keyed (keyed : Keyed cache) : Keyed flushed := by
  intro key held found
  rcases flushed_fixed pda network mapped cache flushed filled key held found with
    ⟨pool, cached, same⟩
  exact (congrArg FixedPart.poolAddress same).trans (keyed key pool cached)

/-- A decoded Raydium pool behind the metadata rounds. -/
theorem flushed_raydium (key : Pubkey) (pool : DexPool) (cached : cache.get key = some pool)
    (raydium : IsRaydium pool) (metadata : RaydiumMetadata)
    (decoded : stagedMeta pda mapped network cache key = some metadata) :
    ∃ held, flushed.get key = some held ∧ IsRaydium held ∧
      held.raydiumMeta = some (entryOf pda network mapped cache metadata) ∧
      held.tokenA = pool.tokenA ∧ held.tokenB = pool.tokenB := by
  have entry := refreshMetadata_ok pda network mapped cache flushed filled key
  rw [cached, Option.map_some, decoded] at entry
  rcases Option.map_eq_some_iff.mp entry with ⟨held, found, same⟩
  have kind : held.dexType = .raydiumAmmV4 :=
    (congrArg FixedPart.dexType same).trans raydium.kind
  have plain : (fixedPart held).plain = true := by
    rw [same]
    exact decide_eq_true (fun _ => ⟨raydium.noOrca, raydium.noMeteora⟩)
  rcases of_decide_eq_true plain kind with ⟨noOrca, noMeteora⟩
  exact ⟨held, found, ⟨kind, noOrca, noMeteora⟩, congrArg FixedPart.raydiumMeta same,
    congrArg FixedPart.tokenA same, congrArg FixedPart.tokenB same⟩

/-- A refresh computes the two sides of a decoded Raydium pool from the balances it
sets for them. These come from accounts of the side's own token if and only if the
coin mint is the cached first token, unless none of the pool's own vaults counts, and
any other account the pools file names for the pool holds the token of its side. -/
theorem reserve_sides_iff (keyed : Keyed cache) (key : Pubkey) (pool : DexPool)
    (cached : cache.get key = some pool) (raydium : IsRaydium pool) (metadata : RaydiumMetadata)
    (decoded : stagedMeta pda mapped network cache key = some metadata) (coin pc : Pubkey)
    (mints : MintOrder pool (vaultAccounts network mapped flushed)
      (entryOf pda network mapped cache metadata) coin pc) :
    (∃ after, refreshAll pda network now mapped cache = .ok after ∧ ∀ a,
      (after.get key).map (sideOf a) = (flushed.get key).map (fun held =>
        (ownCredits key a (credits network mapped flushed)).foldl Side.apply (sideOf a held))) ∧
    (Oriented pool key (credits network mapped flushed) ↔
      ((∃ credit ∈ credits network mapped flushed, poolOf credit.role = key ∧
        credit.vault ∈ entryVaults (entryOf pda network mapped cache metadata)) →
          coin = pool.tokenA) ∧
      ∀ credit ∈ credits network mapped flushed, poolOf credit.role = key →
        credit.vault ∉ entryVaults (entryOf pda network mapped cache metadata) →
          credit.mint = sideToken pool (isA credit.role)) := by
  constructor
  · refine ⟨refreshBalances network now mapped flushed, ?_, ?_⟩
    · rw [refreshAll, filled]
      rfl
    · intro a
      exact side_refreshBalances network now mapped flushed key a
  · rcases flushed_raydium pda network mapped cache flushed filled key pool cached raydium metadata
      decoded with ⟨held, found, raydiumHeld, entry, tokenA, tokenB⟩
    have tokens : ∀ a, sideToken held a = sideToken pool a := by
      intro a
      rw [sideToken, sideToken, tokenA, tokenB]
    have mintsHeld : MintOrder held (vaultAccounts network mapped flushed)
        (entryOf pda network mapped cache metadata) coin pc :=
      ⟨mints.coinSide, mints.pcSide, by rw [tokenA, tokenB]; exact mints.pair⟩
    have both := oriented_iff network mapped flushed
      (flushed_keyed pda network mapped cache flushed filled keyed) key held found raydiumHeld _ entry
      coin pc mintsHeld
    simp only [Oriented, tokens, tokenA] at both
    exact both

omit filled in
/-- The vaults of an entry are those its account was decoded to. -/
theorem entryOf_vaults (metadata : RaydiumMetadata) :
    (entryOf pda network mapped cache metadata).vaultA = metadata.vaultA ∧
      (entryOf pda network mapped cache metadata).vaultB = metadata.vaultB := by
  rw [entryOf, resolved]
  cases marketOf pda (marketAccounts pda network mapped cache) metadata with
  | none => exact ⟨rfl, rfl⟩
  | some market => exact ⟨rfl, rfl⟩

/-- A pool that the file lists once, with both vaults or with two placeholders. -/
structure ListedOnce (key vaultA vaultB : Pubkey) : Prop where
  expected : HashMap.get (expectedVaults mapped) key = some (vaultA, vaultB)
  once : ∀ listed ∈ mapped.filterMap MappedPool.keys, listed.1 = key → listed.2 = (vaultA, vaultB)
  both : vaultA = default ↔ vaultB = default

omit filled in
/-- The file names no vault for such a pool but the two of its account, in whichever
order: the decoder has compared the two pairs as sets. -/
theorem file_names_own (key vaultA vaultB : Pubkey) (listed : ListedOnce mapped key vaultA vaultB)
    (metadata : RaydiumMetadata)
    (decoded : stagedMeta pda mapped network cache key = some metadata) (vault : Pubkey)
    (role : VaultType) (named : (vault, role) ∈ mappedClaims mapped) (own : poolOf role = key) :
    vault = metadata.vaultA ∨ vault = metadata.vaultB := by
  have inFile : vault ≠ default ∧ (vault = vaultA ∨ vault = vaultB) := by
    have real := mappedClaims_real mapped vault role named
    rcases List.mem_flatMap.mp named with ⟨⟨pool, first, second⟩, member, claimed⟩
    have pair : pool = key → (first, second) = (vaultA, vaultB) := listed.once _ member
    refine ⟨real, ?_⟩
    rcases List.mem_append.mp claimed with inFirst | inSecond
    · rcases (mem_claim _ _ _ _).mp inFirst with ⟨_, same, kind⟩
      rw [kind] at own
      exact Or.inl (same.trans (congrArg Prod.fst (pair own)))
    · rcases (mem_claim _ _ _ _).mp inSecond with ⟨_, same, kind⟩
      rw [kind] at own
      exact Or.inr (same.trans (congrArg Prod.snd (pair own)))
  have set : vaultA = default ∨ vaultB = default ∨
      samePubkeySet (metadata.vaultA, metadata.vaultB) (vaultA, vaultB) = true := by
    rcases List.mem_filterMap.mp (List.mem_of_getLast? decoded) with ⟨received, _, staged⟩
    rw [stagedBy] at staged
    split at staged
    · rw [listed.expected, Option.bind_some] at staged
      rcases decodeRaydiumAmm_value pda received.2 _ _ _ metadata
        ((Decoded.toOption_eq_some_iff _ _).mp staged) with ⟨layout, _, fromLayout⟩
      exact fromLayout.expected
    · cases staged
  have realA : vaultA ≠ default := by
    intro placeholder
    rcases inFile.2 with same | same
    · exact inFile.1 (same.trans placeholder)
    · exact inFile.1 (same.trans (listed.both.mp placeholder))
  have realB : vaultB ≠ default := fun placeholder => realA (listed.both.mpr placeholder)
  have equal := (set.resolve_left realA).resolve_left realB
  simp only [samePubkeySet, Bool.or_eq_true, decide_eq_true_iff] at equal
  rcases equal with ⟨first, second⟩ | ⟨first, second⟩
  · rw [first, second]
    exact inFile.2
  · rw [first, second]
    exact inFile.2.symm

/-- With a file that lists the pool once, the order of the two mints decides alone. -/
theorem oriented_iff_coin_first (keyed : Keyed cache) (key : Pubkey) (pool : DexPool)
    (cached : cache.get key = some pool) (raydium : IsRaydium pool) (metadata : RaydiumMetadata)
    (decoded : stagedMeta pda mapped network cache key = some metadata)
    (vaultA vaultB : Pubkey) (listed : ListedOnce mapped key vaultA vaultB) (coin pc : Pubkey)
    (mints : MintOrder pool (vaultAccounts network mapped flushed)
      (entryOf pda network mapped cache metadata) coin pc) :
    Oriented pool key (credits network mapped flushed) ↔
      ((∃ credit ∈ credits network mapped flushed, poolOf credit.role = key) →
        coin = pool.tokenA) := by
  rcases flushed_raydium pda network mapped cache flushed filled key pool cached raydium metadata
    decoded with ⟨held, found, raydiumHeld, entry, tokenA, tokenB⟩
  have keyedFlushed := flushed_keyed pda network mapped cache flushed filled keyed
  have vaults := entryOf_vaults pda network mapped cache metadata
  have allOwn : ∀ credit ∈ credits network mapped flushed, poolOf credit.role = key →
      credit.vault ∈ entryVaults (entryOf pda network mapped cache metadata) := by
    intro credit member own
    have counts := (mem_credits network mapped flushed credit member).1
    rcases claimed_by mapped flushed keyedFlushed key credit.vault held found credit.role counts own
      with here | ⟨fromFile, _⟩
    · rw [poolClaims_raydium flushed keyedFlushed key held found raydiumHeld _ entry] at here
      rcases (mem_raydiumClaims _ _ _ _).mp here with
        ⟨_, ⟨same, _⟩ | ⟨same, _⟩ | ⟨same, _⟩ | ⟨same, _⟩⟩
      · simp [entryVaults, same]
      · simp [entryVaults, same]
      · simp [entryVaults, same]
      · simp [entryVaults, same]
    · rcases file_names_own pda network mapped cache key vaultA vaultB listed metadata decoded
        credit.vault credit.role fromFile own with same | same
      · simp [entryVaults, same, vaults.1]
      · simp [entryVaults, same, vaults.2]
  have tokens : ∀ a, sideToken held a = sideToken pool a := by
    intro a
    rw [sideToken, sideToken, tokenA, tokenB]
  have both := oriented_iff network mapped flushed keyedFlushed key held found raydiumHeld _ entry
    coin pc ⟨mints.coinSide, mints.pcSide, by rw [tokenA, tokenB]; exact mints.pair⟩
  simp only [Oriented, tokens, tokenA] at both
  refine both.trans ?_
  constructor
  · intro ⟨ordered, _⟩ ⟨credit, member, own⟩
    exact ordered ⟨credit, member, own, allOwn credit member own⟩
  · intro ordered
    refine ⟨fun ⟨credit, member, own, _⟩ => ordered ⟨credit, member, own⟩, ?_⟩
    intro credit member own unnamed
    exact absurd (allOwn credit member own) unnamed

end Refresh

/-! A pool whose account has the mints in the other order. -/

section Sample

open RaydiumMetas

/-- The coin vault is 13, the pc vault 14. -/
def reversedAccount : Account :=
  List.replicate 336 1 ++ (Pubkey.ofNat 13).toBytes ++ (Pubkey.ofNat 14).toBytes ++
    List.replicate 352 1

/-- A token account of the mint with some balance. -/
def tokenAccount (mint : Pubkey) (amount : Nat) : Account :=
  mint.toBytes ++ List.replicate 32 1 ++ leBytes 8 amount

/-- The coin vault holds the second token of the cached pool, the pc vault the first. -/
def reversedVault (key : Pubkey) : Option Account :=
  if key = .ofNat 13 then some (tokenAccount (.ofNat 3) 500)
  else if key = .ofNat 14 then some (tokenAccount (.ofNat 2) 700)
  else none

def reversedNetwork : Network := fun stage _ =>
  ⟨fun _ keys =>
    if stage = .pools then .ok [some reversedAccount]
    else if stage = .vaults then .ok (keys.map reversedVault)
    else .error .other, none⟩

/-- The file has the vaults in the order of the cached tokens. -/
def reversedFile : List MappedPool := [⟨some (.ofNat 1), some (.ofNat 14), some (.ofNat 13)⟩]

def reversedFlushed : PoolStateCache :=
  (refreshMetadata samplePda reversedNetwork reversedFile completeCache).toOption.getD
    PoolStateCache.new

def reversedMeta : RaydiumMetadata :=
  (stagedMeta samplePda reversedFile reversedNetwork completeCache (.ofNat 1)).getD completeMeta

theorem reversed_filled :
    refreshMetadata samplePda reversedNetwork reversedFile completeCache = .ok reversedFlushed :=
  eq_ok_of_isSome _ _ (by decide +kernel)

theorem reversed_decoded :
    stagedMeta samplePda reversedFile reversedNetwork completeCache (.ofNat 1) =
      some reversedMeta := by
  decide +kernel

theorem completeCache_get : completeCache.get (.ofNat 1) = some completePool :=
  HashMap.get_insert _ _ _

theorem completeCache_keyed : Keyed completeCache := by
  intro key pool cached
  by_cases own : key = .ofNat 1
  · rw [own, completeCache_get] at cached
    rw [← Option.some.inj cached, own]
    rfl
  · have absent : completeCache.get key = none :=
      (HashMap.get_insert_ne _ _ _ completePool own).trans (HashMap.get_empty key)
    rw [absent] at cached
    cases cached

theorem completePool_raydium : IsRaydium completePool := ⟨rfl, rfl, rfl⟩

theorem reversed_not_oriented :
    ¬ ∀ pda network mapped cache flushed,
      refreshMetadata pda network mapped cache = .ok flushed → Keyed cache →
      ∀ key pool metadata, cache.get key = some pool → IsRaydium pool →
        stagedMeta pda mapped network cache key = some metadata →
        Oriented pool key (credits network mapped flushed) := by
  intro law
  have oriented := law samplePda reversedNetwork reversedFile completeCache reversedFlushed
    reversed_filled completeCache_keyed (.ofNat 1) completePool reversedMeta completeCache_get
    completePool_raydium reversed_decoded
  have wrong : (ownCredits (.ofNat 1) true (credits reversedNetwork reversedFile
      reversedFlushed)).any (fun credit =>
        decide (credit.mint ≠ sideToken completePool true)) = true := by
    decide +kernel
  rcases List.any_eq_true.mp wrong with ⟨credit, member, differs⟩
  exact of_decide_eq_true differs (oriented true credit member)

theorem reversed_mints : MintOrder completePool
    (vaultAccounts reversedNetwork reversedFile reversedFlushed)
    (entryOf samplePda reversedNetwork reversedFile completeCache reversedMeta) (.ofNat 3)
    (.ofNat 2) where
  coinSide := by decide +kernel
  pcSide := by decide +kernel
  pair := Or.inr ⟨rfl, rfl⟩

theorem reversed_sides_iff :
    (∃ after, refreshAll samplePda reversedNetwork 0 reversedFile completeCache = .ok after ∧ ∀ a,
      (after.get (.ofNat 1)).map (sideOf a) = (reversedFlushed.get (.ofNat 1)).map (fun held =>
        (ownCredits (.ofNat 1) a (credits reversedNetwork reversedFile reversedFlushed)).foldl
          Side.apply (sideOf a held))) ∧
    (Oriented completePool (.ofNat 1) (credits reversedNetwork reversedFile reversedFlushed) ↔
      ((∃ credit ∈ credits reversedNetwork reversedFile reversedFlushed,
        poolOf credit.role = .ofNat 1 ∧ credit.vault ∈ entryVaults (entryOf samplePda
          reversedNetwork reversedFile completeCache reversedMeta)) →
          Pubkey.ofNat 3 = completePool.tokenA) ∧
      ∀ credit ∈ credits reversedNetwork reversedFile reversedFlushed,
        poolOf credit.role = .ofNat 1 →
        credit.vault ∉ entryVaults (entryOf samplePda reversedNetwork reversedFile completeCache
          reversedMeta) → credit.mint = sideToken completePool (isA credit.role)) :=
  reserve_sides_iff samplePda reversedNetwork 0 reversedFile completeCache reversedFlushed
    reversed_filled completeCache_keyed (.ofNat 1) completePool completeCache_get
    completePool_raydium reversedMeta reversed_decoded (.ofNat 3) (.ofNat 2) reversed_mints

end Sample

end Helios.ReserveSides
