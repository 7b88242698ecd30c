import Helios.FlashSequence
import Helios.RouteExecution
import Helios.SeedBytes

/-! The user's token accounts in the swaps of a transaction, and the accounts that the
setup instructions of the same transaction create. -/

namespace Helios.SetupAccounts

open Fallible FlashLoans FlashSequence TxBuilder

section Layouts

variable {F : Type}

/-- The user's token accounts in a hop of the on-chain program: mint and place. -/
def heliosUserAccounts (hop : Hop F) (pool : DexPool) : List (Pubkey × Nat) :=
  match DexType.fromProgramId hop.dexProgram with
  | .raydiumAmmV4 => [(hop.tokenIn, 15), (hop.tokenOut, 16)]
  | .orcaWhirlpool => [(pool.tokenA, 8), (pool.tokenB, 10)]
  | .meteoraDlmm => [(hop.tokenIn, 4), (hop.tokenOut, 5)]
  | .pumpSwap =>
      if pool.tokenA = wsol then [(pool.tokenB, 11), (pool.tokenA, 12)]
      else [(pool.tokenA, 11), (pool.tokenB, 12)]
  | _ => []

/-- The same in a direct swap, which does not begin with the program. -/
def directUserAccounts (hop : Hop F) (pool : DexPool) : List (Pubkey × Nat) :=
  match DexType.fromProgramId hop.dexProgram with
  | .raydiumAmmV4 => [(hop.tokenIn, 15), (hop.tokenOut, 16)]
  | .orcaWhirlpool => [(pool.tokenA, 7), (pool.tokenB, 9)]
  | .meteoraDlmm => [(hop.tokenIn, 5), (hop.tokenOut, 6)]
  | .pumpSwap => [(hop.tokenIn, 5), (hop.tokenOut, 6)]
  | _ => []

/-- The setup instructions stand behind the two of the compute budget. -/
def setupIxs (route : RouteParams F) (tx : List Instruction) : List Instruction :=
  (tx.drop 2).take (routeMints route).length

end Layouts

section SetUp

variable (builder : TxBuilder) (tokenPrograms : HashMap Pubkey Pubkey) (setup : List Instruction)

/-- The account is the mint's own under the mint's program, and the one created for it. -/
def IsSetUp (mint account : Pubkey) : Prop :=
  builder.associatedTokenAddressWithProgram builder.payer mint
      (tokenProgramOf tokenPrograms mint) = .ok account ∧
    ∃ ix ∈ setup, ix.programId = associatedTokenProgramId ∧ accountAt 3 ix = some mint ∧
      accountAt 1 ix = some account

def HopSetUp (users : List (Pubkey × Nat)) (accounts : List AccountMeta) : Prop :=
  ∀ user ∈ users, ∃ account, accounts[user.2]?.map AccountMeta.pubkey = some account ∧
    IsSetUp builder tokenPrograms setup user.1 account

def HopsSetUp {F : Type} (users : Hop F → DexPool → List (Pubkey × Nat)) (cache : PoolStateCache)
    (hops : List (Hop F)) (built : List (List AccountMeta)) : Prop :=
  List.Forall₂ (fun hop accounts => ∃ pool, cache.get hop.pool = some pool ∧
    HopSetUp builder tokenPrograms setup (users hop pool) accounts) hops built

/-! One account, derived under some program. -/

/-- The setup instructions of the mints, in their order. -/
def Creates (mints : List Pubkey) : Prop :=
  List.Forall₂ (fun mint ix => ∃ ata, builder.associatedTokenAddress builder.payer mint = .ok ata ∧
    ix.programId = associatedTokenProgramId ∧ accountAt 3 ix = some mint ∧
      accountAt 1 ix = some ata) mints setup

/-- The accounts of a mint under two token programs are different. -/
def SeparatesPrograms : Prop :=
  ∀ mint program other key,
    builder.findProgramAddress [builder.payer.toBytes, Pubkey.toBytes program, Pubkey.toBytes mint]
        associatedTokenProgramId = some key →
      builder.findProgramAddress [builder.payer.toBytes, Pubkey.toBytes other, Pubkey.toBytes mint]
        associatedTokenProgramId = some key → program = other

theorem associatedTokenAddress_ok (owner mint program key : Pubkey) :
    builder.associatedTokenAddressWithProgram owner mint program = .ok key ↔
      builder.findProgramAddress [owner.toBytes, program.toBytes, mint.toBytes]
        associatedTokenProgramId = some key := by
  rw [associatedTokenAddressWithProgram, address]
  cases builder.findProgramAddress [owner.toBytes, program.toBytes, mint.toBytes]
      associatedTokenProgramId with
  | none => simp
  | some found => simp

theorem program_unique (separates : SeparatesPrograms builder) (mint program other key : Pubkey)
    (derived : builder.associatedTokenAddressWithProgram builder.payer mint program = .ok key)
    (again : builder.associatedTokenAddressWithProgram builder.payer mint other = .ok key) :
    program = other := by
  rw [associatedTokenAddress_ok] at derived again
  exact separates mint program other key derived again

theorem isSetUp_of_spl (mints : List Pubkey) (creates : Creates builder setup mints)
    (mint account : Pubkey) (member : mint ∈ mints)
    (spl : tokenProgramOf tokenPrograms mint = tokenProgramId)
    (derived : builder.associatedTokenAddressWithProgram builder.payer mint tokenProgramId =
      .ok account) :
    IsSetUp builder tokenPrograms setup mint account := by
  constructor
  · rw [spl]
    exact derived
  · rcases exists_of_forall₂ _ _ _ creates.flip mint member with
      ⟨ix, inSetup, ata, created, program, named, placed⟩
    have same : ata = account := Except.ok.inj (created.symm.trans derived)
    exact ⟨ix, inSetup, program, named, same ▸ placed⟩

/-- The setup knows one program only. -/
theorem spl_of_isSetUp (separates : SeparatesPrograms builder) (mints : List Pubkey)
    (creates : Creates builder setup mints) (mint account used : Pubkey)
    (derived : builder.associatedTokenAddressWithProgram builder.payer mint used = .ok account)
    (ready : IsSetUp builder tokenPrograms setup mint account) :
    mint ∈ mints ∧ tokenProgramOf tokenPrograms mint = tokenProgramId ∧ used = tokenProgramId := by
  rcases ready with ⟨own, ix, inSetup, _, named, placed⟩
  rcases exists_of_forall₂ _ _ _ creates ix inSetup with
    ⟨other, member, ata, created, _, otherNamed, otherPlaced⟩
  have sameMint : other = mint := Option.some.inj (otherNamed.symm.trans named)
  have sameAccount : ata = account := Option.some.inj (otherPlaced.symm.trans placed)
  subst sameMint sameAccount
  exact ⟨member, program_unique builder separates other _ _ ata own created,
    program_unique builder separates other _ _ ata derived created⟩

/-! The two accounts of a hop. -/

/-- A hop has two accounts of the user, each derived under the program beside its mint. -/
def PairDerived (users : List (Pubkey × Nat)) (accounts : List AccountMeta)
    (first firstUsed second secondUsed : Pubkey) : Prop :=
  ∃ place other account otherAccount, users = [(first, place), (second, other)] ∧
    accounts[place]?.map AccountMeta.pubkey = some account ∧
    accounts[other]?.map AccountMeta.pubkey = some otherAccount ∧
    builder.associatedTokenAddressWithProgram builder.payer first firstUsed = .ok account ∧
    builder.associatedTokenAddressWithProgram builder.payer second secondUsed = .ok otherAccount

variable (mints : List Pubkey) (users : List (Pubkey × Nat)) (accounts : List AccountMeta)
  (first firstUsed second secondUsed : Pubkey)

theorem hopSetUp_of_pair (creates : Creates builder setup mints)
    (pair : PairDerived builder users accounts first firstUsed second secondUsed)
    (firstListed : first ∈ mints) (secondListed : second ∈ mints)
    (spl : ∀ mint ∈ mints, tokenProgramOf tokenPrograms mint = tokenProgramId)
    (firstSpl : firstUsed = tokenProgramId) (secondSpl : secondUsed = tokenProgramId) :
    HopSetUp builder tokenPrograms setup users accounts := by
  rcases pair with ⟨place, other, account, otherAccount, two, here, there, derived, otherDerived⟩
  subst two firstSpl secondSpl
  intro user member
  rcases List.mem_pair.mp member with same | same
  · subst same
    exact ⟨account, here, isSetUp_of_spl builder tokenPrograms setup mints creates first account
      firstListed (spl first firstListed) derived⟩
  · subst same
    exact ⟨otherAccount, there, isSetUp_of_spl builder tokenPrograms setup mints creates second
      otherAccount secondListed (spl second secondListed) otherDerived⟩

theorem spl_of_pair (separates : SeparatesPrograms builder) (creates : Creates builder setup mints)
    (pair : PairDerived builder users accounts first firstUsed second secondUsed)
    (ready : HopSetUp builder tokenPrograms setup users accounts) :
    (first ∈ mints ∧ tokenProgramOf tokenPrograms first = tokenProgramId ∧
        firstUsed = tokenProgramId) ∧
      second ∈ mints ∧ tokenProgramOf tokenPrograms second = tokenProgramId ∧
        secondUsed = tokenProgramId := by
  rcases pair with ⟨place, other, account, otherAccount, two, here, there, derived, otherDerived⟩
  subst two
  rcases ready _ List.mem_cons_self with ⟨found, foundHere, setUp⟩
  rcases ready _ (List.mem_cons_of_mem _ List.mem_cons_self) with
    ⟨otherFound, foundThere, otherSetUp⟩
  have same : found = account := Option.some.inj (foundHere.symm.trans here)
  have otherSame : otherFound = otherAccount := Option.some.inj (foundThere.symm.trans there)
  subst same otherSame
  exact ⟨spl_of_isSetUp builder tokenPrograms setup separates mints creates first found firstUsed
      derived setUp,
    spl_of_isSetUp builder tokenPrograms setup separates mints creates second otherFound secondUsed
      otherDerived otherSetUp⟩

end SetUp

/-! The layouts. -/

section Hops

variable {F : Type} (builder : TxBuilder) (ctx : HopContext F) (accounts : List AccountMeta)

/-- What each hop's list is made from: the accounts of its two tokens. -/
def TokensDerived : Prop :=
  builder.associatedTokenAddressWithProgram builder.payer ctx.hop.tokenIn ctx.progIn =
      .ok ctx.userSource ∧
    builder.associatedTokenAddressWithProgram builder.payer ctx.hop.tokenOut ctx.progOut =
      .ok ctx.userDestination

theorem raydiumAccounts_pair (derived : TokensDerived builder ctx)
    (listed : builder.raydiumAccounts ctx = .ok accounts) :
    PairDerived builder [(ctx.hop.tokenIn, 15), (ctx.hop.tokenOut, 16)] accounts
      ctx.hop.tokenIn ctx.progIn ctx.hop.tokenOut ctx.progOut := by
  unfold raydiumAccounts at listed
  split at listed
  · cases listed
  · split at listed
    · cases listed
      exact ⟨15, 16, _, _, rfl, rfl, rfl, derived⟩
    · cases listed

theorem meteoraAccounts_pair (derived : TokensDerived builder ctx)
    (listed : builder.meteoraAccounts ctx = .ok accounts) :
    PairDerived builder [(ctx.hop.tokenIn, 4), (ctx.hop.tokenOut, 5)] accounts
      ctx.hop.tokenIn ctx.progIn ctx.hop.tokenOut ctx.progOut := by
  unfold meteoraAccounts at listed
  split at listed
  · cases listed
  · simp only [bind_eq_ok_iff] at listed
    rcases listed with ⟨binArrays, _, oracle, _, same⟩
    cases same
    exact ⟨4, 5, _, _, rfl, rfl, rfl, derived⟩

theorem orcaAccounts_pair [FloatArith F] (powf : F → F → F)
    (listed : builder.orcaAccounts powf ctx = .ok accounts) :
    PairDerived builder [(ctx.pool.tokenA, 8), (ctx.pool.tokenB, 10)] accounts
      ctx.pool.tokenA tokenProgramId ctx.pool.tokenB tokenProgramId := by
  unfold orcaAccounts at listed
  split at listed
  · cases listed
  · split at listed
    · cases listed
    · simp only [bind_eq_ok_iff] at listed
      rcases listed with ⟨ownerA, ownerADone, ownerB, ownerBDone, tickArrays, _, authority, _,
        oracle, _, same⟩
      cases same
      exact ⟨8, 10, ownerA, ownerB, rfl, rfl, rfl, ownerADone, ownerBDone⟩

/-- The base is under the lesser of the two programs, whichever it belongs to. -/
theorem pumpSwapAccounts_pair (listed : builder.pumpSwapAccounts ctx = .ok accounts) :
    ∃ base quote, PairDerived builder
        (if ctx.pool.tokenA = wsol then [(ctx.pool.tokenB, 11), (ctx.pool.tokenA, 12)]
          else [(ctx.pool.tokenA, 11), (ctx.pool.tokenB, 12)]) accounts
        base (min ctx.progIn ctx.progOut) quote (max ctx.progIn ctx.progOut) ∧
      ((base = ctx.pool.tokenA ∧ quote = ctx.pool.tokenB) ∨
        (base = ctx.pool.tokenB ∧ quote = ctx.pool.tokenA)) := by
  by_cases wrapped : ctx.pool.tokenA = wsol
  · simp only [pumpSwapAccounts, if_pos wrapped, bind_eq_ok_iff] at listed
    rcases listed with ⟨_, _, _, _, _, _, _, _, _, _, _, _, base, baseDone, quote, quoteDone, same⟩
    cases same
    rw [if_pos wrapped]
    exact ⟨_, _, ⟨11, 12, base, quote, rfl, rfl, rfl, baseDone, quoteDone⟩, Or.inr ⟨rfl, rfl⟩⟩
  · simp only [pumpSwapAccounts, if_neg wrapped, bind_eq_ok_iff] at listed
    rcases listed with ⟨_, _, _, _, _, _, _, _, _, _, _, _, base, baseDone, quote, quoteDone, same⟩
    cases same
    rw [if_neg wrapped]
    exact ⟨_, _, ⟨11, 12, base, quote, rfl, rfl, rfl, baseDone, quoteDone⟩, Or.inl ⟨rfl, rfl⟩⟩

/-- In the on-chain program's hop the accounts are those of the pool's tokens or of the
hop's, and no program but the hop's own and SPL Token is used. -/
theorem hopAccounts_pair [FloatArith F] (powf : F → F → F) (derived : TokensDerived builder ctx)
    (listed : builder.hopAccounts powf (DexType.fromProgramId ctx.hop.dexProgram) ctx =
      .ok accounts) :
    ∃ first firstUsed second secondUsed,
      PairDerived builder (heliosUserAccounts ctx.hop ctx.pool) accounts first firstUsed second
        secondUsed ∧
      ((first = ctx.hop.tokenIn ∧ second = ctx.hop.tokenOut) ∨
        (first = ctx.pool.tokenA ∧ second = ctx.pool.tokenB) ∨
        (first = ctx.pool.tokenB ∧ second = ctx.pool.tokenA)) ∧
      (ctx.progIn = tokenProgramId → ctx.progOut = tokenProgramId →
        firstUsed = tokenProgramId ∧ secondUsed = tokenProgramId) := by
  rw [heliosUserAccounts]
  cases dex : DexType.fromProgramId ctx.hop.dexProgram with
  | raydiumAmmV4 =>
      rw [dex] at listed
      exact ⟨_, _, _, _, raydiumAccounts_pair builder ctx accounts derived listed,
        Or.inl ⟨rfl, rfl⟩, fun spl other => ⟨spl, other⟩⟩
  | orcaWhirlpool =>
      rw [dex] at listed
      exact ⟨_, _, _, _, orcaAccounts_pair builder ctx accounts powf listed,
        Or.inr (Or.inl ⟨rfl, rfl⟩), fun _ _ => ⟨rfl, rfl⟩⟩
  | meteoraDlmm =>
      rw [dex] at listed
      exact ⟨_, _, _, _, meteoraAccounts_pair builder ctx accounts derived listed,
        Or.inl ⟨rfl, rfl⟩, fun spl other => ⟨spl, other⟩⟩
  | pumpSwap =>
      rw [dex] at listed
      rcases pumpSwapAccounts_pair builder ctx accounts listed with ⟨base, quote, pair, tokens⟩
      refine ⟨_, _, _, _, pair, Or.inr tokens, ?_⟩
      intro spl other
      rw [spl, other, min_self, max_self]
      exact ⟨rfl, rfl⟩
  | raydiumClmm => rw [dex] at listed; cases listed
  | fluxbeam => rw [dex] at listed; cases listed
  | saber => rw [dex] at listed; cases listed
  | raydiumCpmm => rw [dex] at listed; cases listed
  | unknown => rw [dex] at listed; cases listed

/-- A direct swap uses the programs of the hop's tokens, in the hop's order, for the
pool's tokens on Orca and for the hop's elsewhere. -/
theorem directIx_pair (swapIx : Instruction) (derived : TokensDerived builder ctx)
    (listed : builder.directIx (DexType.fromProgramId ctx.hop.dexProgram) ctx = .ok swapIx) :
    ∃ first second,
      PairDerived builder (directUserAccounts ctx.hop ctx.pool) swapIx.accounts first ctx.progIn
        second ctx.progOut ∧
      if DexType.fromProgramId ctx.hop.dexProgram = .orcaWhirlpool then
        first = ctx.pool.tokenA ∧ second = ctx.pool.tokenB
      else first = ctx.hop.tokenIn ∧ second = ctx.hop.tokenOut := by
  rw [directUserAccounts]
  cases dex : DexType.fromProgramId ctx.hop.dexProgram with
  | raydiumAmmV4 =>
      rw [dex, directIx, raydiumDirectIx] at listed
      split at listed
      · cases listed
      · cases listed
        exact ⟨_, _, ⟨15, 16, _, _, rfl, rfl, rfl, derived⟩, rfl, rfl⟩
  | orcaWhirlpool =>
      rw [dex, directIx, orcaDirectIx] at listed
      split at listed
      · cases listed
      · split at listed
        · cases listed
        · simp only [liftBuild, bind_eq_ok_iff, mapError_eq_ok_iff] at listed
          rcases listed with ⟨ownerA, ownerADone, ownerB, ownerBDone, oracle, _, tickArrays, _,
            data, _, same⟩
          cases same
          exact ⟨_, _, ⟨7, 9, ownerA, ownerB, rfl, rfl, rfl, ownerADone, ownerBDone⟩, rfl, rfl⟩
  | meteoraDlmm =>
      rw [dex, directIx, meteoraDirectIx] at listed
      split at listed
      · cases listed
      · simp only [bind_eq_ok_iff] at listed
        rcases listed with ⟨binArrays, _, same⟩
        cases same
        exact ⟨_, _, ⟨5, 6, _, _, rfl, rfl, rfl, derived⟩, rfl, rfl⟩
  | pumpSwap =>
      rw [dex, directIx, pumpSwapDirectIx] at listed
      simp only [bind_eq_ok_iff] at listed
      rcases listed with ⟨vaultA, _, vaultB, _, protocolFee, _, same⟩
      cases same
      exact ⟨_, _, ⟨5, 6, _, _, rfl, rfl, rfl, derived⟩, rfl, rfl⟩
  | raydiumClmm => rw [dex] at listed; cases listed
  | fluxbeam => rw [dex] at listed; cases listed
  | saber => rw [dex] at listed; cases listed
  | raydiumCpmm => rw [dex] at listed; cases listed
  | unknown => rw [dex] at listed; cases listed

end Hops

/-! Routes. -/

section Routes

variable {F : Type}

theorem mem_foldl_kept {α : Type} [DecidableEq α] (items seen : List α) (item : α) :
    item ∈ items.foldl (fun seen new => if new ∈ seen then seen else seen ++ [new]) seen ↔
      item ∈ seen ∨ item ∈ items := by
  induction items generalizing seen with
  | nil => simp
  | cons first rest ih =>
      rw [List.foldl_cons, ih]
      by_cases known : first ∈ seen
      · rw [if_pos known, List.mem_cons]
        constructor
        · rintro (old | later)
          · exact Or.inl old
          · exact Or.inr (Or.inr later)
        · rintro (old | same | later)
          · exact Or.inl old
          · exact Or.inl (same ▸ known)
          · exact Or.inr later
      · rw [if_neg known, List.mem_append, List.mem_singleton, List.mem_cons, or_assoc]

theorem mem_routeMints (route : RouteParams F) (mint : Pubkey) :
    mint ∈ routeMints route ↔
      ∃ hop ∈ route.hops, mint = hop.tokenIn ∨ mint = hop.tokenOut := by
  rw [routeMints, mem_foldl_kept, List.mem_flatMap]
  simp

/-- Every mint of the route belongs to the SPL Token program. -/
def SplOnly (tokenPrograms : HashMap Pubkey Pubkey) (route : RouteParams F) : Prop :=
  ∀ mint ∈ routeMints route, tokenProgramOf tokenPrograms mint = tokenProgramId

/-- The tokens of every Orca pool on the route are swapped on the route. -/
def OrcaTokensListed (cache : PoolStateCache) (route : RouteParams F) : Prop :=
  ∀ hop ∈ route.hops, DexType.fromProgramId hop.dexProgram = .orcaWhirlpool →
    ∀ pool, cache.get hop.pool = some pool →
      pool.tokenA ∈ routeMints route ∧ pool.tokenB ∈ routeMints route

theorem splOnly_of_hops (tokenPrograms : HashMap Pubkey Pubkey) (route : RouteParams F)
    (each : ∀ hop ∈ route.hops, tokenProgramOf tokenPrograms hop.tokenIn = tokenProgramId ∧
      tokenProgramOf tokenPrograms hop.tokenOut = tokenProgramId) :
    SplOnly tokenPrograms route := by
  intro mint member
  rcases (mem_routeMints route mint).mp member with ⟨hop, onRoute, same | same⟩
  · rw [same]
    exact (each hop onRoute).1
  · rw [same]
    exact (each hop onRoute).2

theorem hop_tokens_listed (route : RouteParams F) (hop : Hop F) (member : hop ∈ route.hops) :
    hop.tokenIn ∈ routeMints route ∧ hop.tokenOut ∈ routeMints route :=
  ⟨(mem_routeMints route _).mpr ⟨hop, member, Or.inl rfl⟩,
    (mem_routeMints route _).mpr ⟨hop, member, Or.inr rfl⟩⟩

variable (builder : TxBuilder) (cache : PoolStateCache) (tokenPrograms : HashMap Pubkey Pubkey)

/-- What a built hop of the on-chain program says of the user's accounts. -/
def HeliosPair (hop : Hop F) (accounts : List AccountMeta) : Prop :=
  ∃ pool, cache.get hop.pool = some pool ∧ ∃ first firstUsed second secondUsed,
    PairDerived builder (heliosUserAccounts hop pool) accounts first firstUsed second secondUsed ∧
    (∀ mint, (mint = first ∨ mint = second) ↔ (mint = hop.tokenIn ∨ mint = hop.tokenOut)) ∧
    (tokenProgramOf tokenPrograms hop.tokenIn = tokenProgramId →
      tokenProgramOf tokenPrograms hop.tokenOut = tokenProgramId →
        firstUsed = tokenProgramId ∧ secondUsed = tokenProgramId)

/-- What a direct swap says of them. -/
def DirectPair (hop : Hop F) (accounts : List AccountMeta) : Prop :=
  ∃ pool, cache.get hop.pool = some pool ∧ ∃ first second,
    PairDerived builder (directUserAccounts hop pool) accounts
      first (tokenProgramOf tokenPrograms hop.tokenIn)
      second (tokenProgramOf tokenPrograms hop.tokenOut) ∧
    if DexType.fromProgramId hop.dexProgram = .orcaWhirlpool then
      first = pool.tokenA ∧ second = pool.tokenB
    else first = hop.tokenIn ∧ second = hop.tokenOut

/-- Two different tokens of a pool are its two tokens. -/
theorem pool_tokens_same (tokenIn tokenOut tokenA tokenB : Pubkey) (different : tokenIn ≠ tokenOut)
    (inside : tokenIn = tokenA ∨ tokenIn = tokenB)
    (outside : tokenOut = tokenA ∨ tokenOut = tokenB) (mint : Pubkey) :
    (mint = tokenA ∨ mint = tokenB) ↔ (mint = tokenIn ∨ mint = tokenOut) := by
  rcases inside with same | same
  · rcases outside with other | other
    · exact absurd (same.trans other.symm) different
    · rw [same, other]
  · rcases outside with other | other
    · rw [same, other, or_comm]
    · exact absurd (same.trans other.symm) different

theorem heliosPair_of_built [FloatArith F] (powf : F → F → F) (hopIdx amountIn : Nat) (hop : Hop F)
    (built : BuiltHop)
    (done : builder.buildHop powf cache tokenPrograms hopIdx amountIn hop = .ok built) :
    HeliosPair builder cache tokenPrograms hop built.accounts := by
  unfold buildHop at done
  split at done
  · cases done
  · next pool cached =>
      simp only [bind_eq_ok_iff] at done
      rcases done with ⟨_, tokens, source, sourceDone, destination, destinationDone, accounts,
        listed, data, _, same⟩
      cases same
      rcases RouteExecution.checkTokens_spec hopIdx hop pool tokens with
        ⟨different, inside, outside⟩
      rcases hopAccounts_pair builder ⟨hop, pool, amountIn, decide (hop.tokenIn = pool.tokenA),
        tokenProgramOf tokenPrograms hop.tokenIn, tokenProgramOf tokenPrograms hop.tokenOut, source,
        destination⟩ accounts powf ⟨sourceDone, destinationDone⟩ listed with
        ⟨first, firstUsed, second, secondUsed, pair, mints, used⟩
      refine ⟨pool, cached, first, firstUsed, second, secondUsed, pair, ?_, used⟩
      intro mint
      rcases mints with ⟨here, there⟩ | ⟨here, there⟩ | ⟨here, there⟩
      · rw [here, there]
      · rw [here, there]
        exact pool_tokens_same _ _ _ _ different inside outside mint
      · rw [here, there, or_comm]
        exact pool_tokens_same _ _ _ _ different inside outside mint

theorem directPair_of_built (amountIn : Nat) (hop : Hop F) (swapIx : Instruction)
    (done : builder.buildDirectHop cache tokenPrograms amountIn hop = .ok swapIx) :
    DirectPair builder cache tokenPrograms hop swapIx.accounts := by
  unfold buildDirectHop at done
  split at done
  · cases done
  · next pool cached =>
      simp only [liftBuild, bind_eq_ok_iff, mapError_eq_ok_iff] at done
      rcases done with ⟨source, sourceDone, destination, destinationDone, listed⟩
      rcases directIx_pair builder ⟨hop, pool, amountIn, decide (hop.tokenIn = pool.tokenA),
        tokenProgramOf tokenPrograms hop.tokenIn, tokenProgramOf tokenPrograms hop.tokenOut, source,
        destination⟩ swapIx ⟨sourceDone, destinationDone⟩ listed with
        ⟨first, second, pair, mints⟩
      exact ⟨pool, cached, first, second, pair, mints⟩

theorem buildHops_pairs [FloatArith F] (powf : F → F → F) (hops : List (Hop F))
    (hopIdx amountIn : Nat) (built : List BuiltHop)
    (done : builder.buildHops powf cache tokenPrograms hopIdx amountIn hops = .ok built) :
    List.Forall₂ (HeliosPair builder cache tokenPrograms) hops (built.map BuiltHop.accounts) := by
  induction hops generalizing hopIdx amountIn built with
  | nil =>
      cases done
      exact .nil
  | cons hop rest ih =>
      simp only [buildHops, bind_eq_ok_iff] at done
      rcases done with ⟨head, headDone, tail, tailDone, same⟩
      cases same
      exact .cons (heliosPair_of_built builder cache tokenPrograms powf hopIdx amountIn hop head
        headDone) (ih _ _ tail tailDone)

theorem buildDirectHops_pairs (hops : List (Hop F)) (amountIn : Nat) (swapIxs : List Instruction)
    (done : builder.buildDirectHops cache tokenPrograms amountIn hops = .ok swapIxs) :
    List.Forall₂ (DirectPair builder cache tokenPrograms) hops
      (swapIxs.map Instruction.accounts) := by
  induction hops generalizing amountIn swapIxs with
  | nil =>
      cases done
      exact .nil
  | cons hop rest ih =>
      simp only [buildDirectHops, bind_eq_ok_iff] at done
      rcases done with ⟨head, headDone, tail, tailDone, same⟩
      cases same
      exact .cons (directPair_of_built builder cache tokenPrograms amountIn hop head headDone)
        (ih _ tail tailDone)

variable (route : RouteParams F) (setup : List Instruction) (built : List (List AccountMeta))
  (creates : Creates builder setup (routeMints route))

include creates

theorem helios_setUp (spl : SplOnly tokenPrograms route)
    (pairs : List.Forall₂ (HeliosPair builder cache tokenPrograms) route.hops built) :
    HopsSetUp builder tokenPrograms setup heliosUserAccounts cache route.hops built := by
  have onRoute := (List.forall₂_and_left route.hops built).mpr ⟨fun _ member => member, pairs⟩
  apply onRoute.imp
  rintro hop accounts
    ⟨member, pool, cached, first, firstUsed, second, secondUsed, pair, mints, used⟩
  have listed := hop_tokens_listed route hop member
  have inRoute : ∀ mint, mint = first ∨ mint = second → mint ∈ routeMints route := by
    intro mint one
    rcases (mints mint).mp one with same | same
    · exact same ▸ listed.1
    · exact same ▸ listed.2
  have bothSpl := used (spl _ listed.1) (spl _ listed.2)
  exact ⟨pool, cached, hopSetUp_of_pair builder tokenPrograms setup (routeMints route) _ accounts
    first firstUsed second secondUsed creates pair (inRoute first (Or.inl rfl))
    (inRoute second (Or.inr rfl)) spl bothSpl.1 bothSpl.2⟩

theorem spl_of_helios (separates : SeparatesPrograms builder)
    (pairs : List.Forall₂ (HeliosPair builder cache tokenPrograms) route.hops built)
    (ready : HopsSetUp builder tokenPrograms setup heliosUserAccounts cache route.hops built) :
    SplOnly tokenPrograms route := by
  apply splOnly_of_hops
  have each : List.Forall₂ (fun hop _ => (tokenProgramOf tokenPrograms hop.tokenIn =
      tokenProgramId ∧ tokenProgramOf tokenPrograms hop.tokenOut = tokenProgramId) ∧ True)
      route.hops built := by
    refine List.Forall₂.mp ?_ pairs ready
    rintro hop accounts ⟨pool, cached, first, firstUsed, second, secondUsed, pair, mints, _⟩
      ⟨samePool, again, hopReady⟩
    cases cached.symm.trans again
    have spl := spl_of_pair builder tokenPrograms setup (routeMints route) _ accounts first
      firstUsed second secondUsed separates creates pair hopReady
    have bothSpl : ∀ mint, mint = hop.tokenIn ∨ mint = hop.tokenOut →
        tokenProgramOf tokenPrograms mint = tokenProgramId := by
      intro mint one
      rcases (mints mint).mpr one with same | same
      · exact same ▸ spl.1.2.1
      · exact same ▸ spl.2.2.1
    exact ⟨⟨bothSpl _ (Or.inl rfl), bothSpl _ (Or.inr rfl)⟩, trivial⟩
  exact ((List.forall₂_and_left route.hops built).mp each).1

theorem direct_setUp (spl : SplOnly tokenPrograms route) (orca : OrcaTokensListed cache route)
    (pairs : List.Forall₂ (DirectPair builder cache tokenPrograms) route.hops built) :
    HopsSetUp builder tokenPrograms setup directUserAccounts cache route.hops built := by
  have onRoute := (List.forall₂_and_left route.hops built).mpr ⟨fun _ member => member, pairs⟩
  apply onRoute.imp
  rintro hop accounts ⟨member, pool, cached, first, second, pair, mints⟩
  have listed := hop_tokens_listed route hop member
  have inRoute : first ∈ routeMints route ∧ second ∈ routeMints route := by
    by_cases whirlpool : DexType.fromProgramId hop.dexProgram = .orcaWhirlpool
    · rw [if_pos whirlpool] at mints
      rw [mints.1, mints.2]
      exact orca hop member whirlpool pool cached
    · rw [if_neg whirlpool] at mints
      rw [mints.1, mints.2]
      exact listed
  exact ⟨pool, cached, hopSetUp_of_pair builder tokenPrograms setup (routeMints route) _ accounts
    first _ second _ creates pair inRoute.1 inRoute.2 spl (spl _ listed.1) (spl _ listed.2)⟩

theorem spl_of_direct (separates : SeparatesPrograms builder)
    (pairs : List.Forall₂ (DirectPair builder cache tokenPrograms) route.hops built)
    (ready : HopsSetUp builder tokenPrograms setup directUserAccounts cache route.hops built) :
    SplOnly tokenPrograms route ∧ OrcaTokensListed cache route := by
  have each : List.Forall₂ (fun hop _ => ((tokenProgramOf tokenPrograms hop.tokenIn =
      tokenProgramId ∧ tokenProgramOf tokenPrograms hop.tokenOut = tokenProgramId) ∧
      (DexType.fromProgramId hop.dexProgram = .orcaWhirlpool → ∀ pool,
        cache.get hop.pool = some pool →
          pool.tokenA ∈ routeMints route ∧ pool.tokenB ∈ routeMints route)) ∧ True)
      route.hops built := by
    refine List.Forall₂.mp ?_ pairs ready
    rintro hop accounts ⟨pool, cached, first, second, pair, mints⟩ ⟨samePool, again, hopReady⟩
    cases cached.symm.trans again
    rcases spl_of_pair builder tokenPrograms setup (routeMints route) _ accounts first _ second _
      separates creates pair hopReady with ⟨⟨firstIn, _, inSpl⟩, secondIn, _, outSpl⟩
    refine ⟨⟨⟨inSpl, outSpl⟩, ?_⟩, trivial⟩
    intro whirlpool other otherCached
    cases cached.symm.trans otherCached
    rw [if_pos whirlpool] at mints
    rw [← mints.1, ← mints.2]
    exact ⟨firstIn, secondIn⟩
  have hops := ((List.forall₂_and_left route.hops built).mp each).1
  exact ⟨splOnly_of_hops tokenPrograms route (fun hop member => (hops hop member).1),
    fun hop member => (hops hop member).2⟩

end Routes

/-! Transactions. -/

section Transactions

variable {F : Type} [FloatArith F] (powf : F → F → F) (env : FlashEnv) (builder : TxBuilder)

/-- The user's accounts in every swap of the transaction are set up in it. Swaps that
were found elsewhere are no hops of the builder. -/
def UserAccountsSetUp (plan : TxPlan F) (tx : List Instruction) : Prop :=
  match plan with
  | .helios _ route cache tokenPrograms => ∃ user heliosIx hops,
      builder.buildHeliosInstruction powf route user cache tokenPrograms = .ok heliosIx ∧
      builder.buildHops powf cache tokenPrograms 0 route.borrowAmount route.hops = .ok hops ∧
      heliosIx.accounts.drop 4 = hops.flatMap BuiltHop.accounts ∧
      HopsSetUp builder tokenPrograms (setupIxs route tx) heliosUserAccounts cache route.hops
        (hops.map BuiltHop.accounts)
  | .direct _ route cache tokenPrograms => ∃ swapIxs,
      builder.buildDirectHops cache tokenPrograms route.borrowAmount route.hops = .ok swapIxs ∧
      HopsSetUp builder tokenPrograms (setupIxs route tx) directUserAccounts cache route.hops
        (swapIxs.map Instruction.accounts)
  | .jupiter _ _ => True

def Covered (plan : TxPlan F) : Prop :=
  match plan with
  | .helios _ route _ tokenPrograms => SplOnly tokenPrograms route
  | .direct _ route cache tokenPrograms =>
      SplOnly tokenPrograms route ∧ OrcaTokensListed cache route
  | .jupiter _ _ => True

omit [FloatArith F] in
theorem creates_of_built (route : RouteParams F) (tokenPrograms : HashMap Pubkey Pubkey)
    (atas : List Instruction)
    (done : builder.buildAtaSetupInstructions route tokenPrograms = .ok atas) :
    Creates builder atas (routeMints route) := by
  apply (mapM_forall₂ _ _ _ done).imp
  intro mint ix built
  simp only [buildCreateAtaIdempotentIx, bind_eq_ok_iff] at built
  rcases built with ⟨ata, derived, same⟩
  rw [← Except.ok.inj same]
  exact ⟨ata, derived, rfl, rfl, rfl⟩

theorem setupIxs_of_built (fees : PriorityFees F) (route : RouteParams F)
    (tokenPrograms : HashMap Pubkey Pubkey) (cuLimit : Nat) (atas rest : List Instruction)
    (done : builder.buildAtaSetupInstructions route tokenPrograms = .ok atas) :
    setupIxs route (computeBudget fees route cuLimit ++ atas ++ rest) = atas := by
  have count := (creates_of_built builder route tokenPrograms atas done).length_eq
  rw [setupIxs, computeBudget, count, List.append_assoc, List.cons_append, List.cons_append,
    List.nil_append, List.drop_succ_cons, List.drop_succ_cons, List.drop_zero, List.take_left]

/-- The instructions a plan of a route is built from. -/
theorem helios_parts (fees : PriorityFees F) (route : RouteParams F) (cache : PoolStateCache)
    (tokenPrograms : HashMap Pubkey Pubkey) (provider : FlashProvider)
    (tipIx : Option Instruction) (tx : List Instruction)
    (done : builder.buildInnerCached powf env fees route provider cache tipIx tokenPrograms =
      .ok tx) :
    ∃ user heliosIx hops,
      builder.buildHeliosInstruction powf route user cache tokenPrograms = .ok heliosIx ∧
      builder.buildHops powf cache tokenPrograms 0 route.borrowAmount route.hops = .ok hops ∧
      heliosIx.accounts.drop 4 = hops.flatMap BuiltHop.accounts ∧
      Creates builder (setupIxs route tx) (routeMints route) := by
  simp only [buildInnerCached, liftBuild, liftFlash, bind_eq_ok_iff, mapError_eq_ok_iff] at done
  rcases done with ⟨borrowMint, _, user, _, heliosIx, heliosDone, atas, listed, ixs, _, same⟩
  cases same
  have parts := heliosDone
  simp only [buildHeliosInstruction, bind_eq_ok_iff] at parts
  rcases parts with ⟨hops, hopsDone, config, _, shape⟩
  cases shape
  refine ⟨user, _, hops, heliosDone, hopsDone, rfl, ?_⟩
  rw [List.append_assoc, setupIxs_of_built builder fees route tokenPrograms _ atas _ listed]
  exact creates_of_built builder route tokenPrograms atas listed

theorem direct_parts (fees : PriorityFees F) (route : RouteParams F) (cache : PoolStateCache)
    (tokenPrograms : HashMap Pubkey Pubkey) (provider : FlashProvider)
    (tipIx : Option Instruction) (tx : List Instruction)
    (done : builder.buildDirectSwapTx env fees route provider cache tipIx tokenPrograms =
      .ok tx) :
    ∃ swapIxs,
      builder.buildDirectHops cache tokenPrograms route.borrowAmount route.hops = .ok swapIxs ∧
      Creates builder (setupIxs route tx) (routeMints route) := by
  simp only [buildDirectSwapTx, liftBuild, liftFlash, bind_eq_ok_iff, mapError_eq_ok_iff] at done
  rcases done with ⟨borrowMint, _, user, _, atas, listed, swapIxs, hopsDone, ixs, _, same⟩
  cases same
  refine ⟨swapIxs, hopsDone, ?_⟩
  rw [List.append_assoc, setupIxs_of_built builder fees route tokenPrograms _ atas _ listed]
  exact creates_of_built builder route tokenPrograms atas listed

variable (plan : TxPlan F) (provider : FlashProvider) (tipIx : Option Instruction)
  (tx : List Instruction)

theorem setUp_of_covered (done : buildTx powf env builder plan provider tipIx = .ok tx)
    (covered : Covered plan) : UserAccountsSetUp powf builder plan tx := by
  cases plan with
  | helios fees route cache tokenPrograms =>
      rcases helios_parts powf env builder fees route cache tokenPrograms provider tipIx tx done
        with ⟨user, heliosIx, hops, heliosDone, hopsDone, placed, creates⟩
      exact ⟨user, heliosIx, hops, heliosDone, hopsDone, placed, helios_setUp builder cache
        tokenPrograms route _ _ creates covered
        (buildHops_pairs builder cache tokenPrograms powf _ _ _ hops hopsDone)⟩
  | direct fees route cache tokenPrograms =>
      rcases direct_parts env builder fees route cache tokenPrograms provider tipIx tx done
        with ⟨swapIxs, hopsDone, creates⟩
      exact ⟨swapIxs, hopsDone, direct_setUp builder cache tokenPrograms route _ _ creates
        covered.1 covered.2 (buildDirectHops_pairs builder cache tokenPrograms _ _ _ hopsDone)⟩
  | jupiter swapIxs amount => trivial

theorem covered_of_setUp (done : buildTx powf env builder plan provider tipIx = .ok tx)
    (separates : SeparatesPrograms builder) (ready : UserAccountsSetUp powf builder plan tx) :
    Covered plan := by
  cases plan with
  | helios fees route cache tokenPrograms =>
      rcases helios_parts powf env builder fees route cache tokenPrograms provider tipIx tx done
        with ⟨_, _, _, _, _, _, creates⟩
      rcases ready with ⟨user, heliosIx, hops, _, hopsDone, _, hopsReady⟩
      exact spl_of_helios builder cache tokenPrograms route _ _ creates separates
        (buildHops_pairs builder cache tokenPrograms powf _ _ _ hops hopsDone) hopsReady
  | direct fees route cache tokenPrograms =>
      rcases direct_parts env builder fees route cache tokenPrograms provider tipIx tx done
        with ⟨_, _, creates⟩
      rcases ready with ⟨swapIxs, hopsDone, hopsReady⟩
      exact spl_of_direct builder cache tokenPrograms route _ _ creates separates
        (buildDirectHops_pairs builder cache tokenPrograms _ _ _ hopsDone) hopsReady
  | jupiter swapIxs amount => trivial

/-- The setup creates the accounts of SPL Token whatever a mint's program is, so the
swaps use what it creates just on routes whose mints are all of that program. -/
theorem user_accounts_set_up_iff
    (done : buildTx powf env builder plan provider tipIx = .ok tx) :
    (Covered plan → UserAccountsSetUp powf builder plan tx) ∧
      (SeparatesPrograms builder → UserAccountsSetUp powf builder plan tx → Covered plan) :=
  ⟨setUp_of_covered powf env builder plan provider tipIx tx done,
    covered_of_setUp powf env builder plan provider tipIx tx done⟩

end Transactions

/-! A route over a mint of each program. -/

section Sample

open Executability

def token2022ProgramId : Pubkey := .parse "TokenzQdBNbEquiGDJ66fqNWi9Ejh2To96pqV9pMBoY"

/-- The token that the sample route buys and sells. -/
def sampleToken : Pubkey := .ofNat (2 ^ 255)

/-- The addresses that the transactions of the route derive. -/
def derivedAddresses : List ((List (List UInt8) × Pubkey) × Pubkey) :=
  [(([(Pubkey.ofNat 7).toBytes, tokenProgramId.toBytes, wsol.toBytes], associatedTokenProgramId),
      .parse "6omk3NfrkCxATMLGgUtwnPTUfWBazQDMejGU1zKzfzVc"),
    (([(Pubkey.ofNat 7).toBytes, tokenProgramId.toBytes, sampleToken.toBytes],
      associatedTokenProgramId), .parse "Cf1DuxYGKqGRQmRzdBYDich3qt3kiPramkjbEbZb8cfV"),
    (([(Pubkey.ofNat 7).toBytes, token2022ProgramId.toBytes, sampleToken.toBytes],
      associatedTokenProgramId), .parse "2ye91wGRHzo5cUt47oRXMqwmqGM8ejWVth7Tjza5uBgX"),
    (([seedText "config"], .ofNat 8), .parse "DdhrKW5PShSTLerihcUCJBmiEqmf5jHagoFTU895KsGx"),
    (([seedText "lma", (Pubkey.ofNat 40).toBytes], kaminoProgramId),
      .parse "E13aQsX3QGJ42fWVLyLcgFxCLy3atpyiJ7hYEUNrgxXv")]

def derivingBuilder : TxBuilder :=
  ⟨.ofNat 7, .ofNat 8, fun seeds program => derivedAddresses.lookup (seeds, program)⟩

theorem mem_of_derived (seeds : List (List UInt8)) (program key : Pubkey)
    (found : derivingBuilder.findProgramAddress seeds program = some key) :
    ((seeds, program), key) ∈ derivedAddresses := by
  obtain ⟨before, after, shape, _⟩ := List.lookup_eq_some_iff.mp found
  rw [shape]
  exact List.mem_append_right _ List.mem_cons_self

theorem derivingBuilder_separates : SeparatesPrograms derivingBuilder := by
  intro mint program other key found again
  have distinct : (derivedAddresses.map Prod.snd).Nodup := by decide +kernel
  have same := List.inj_on_of_nodup_map distinct (mem_of_derived _ _ _ found)
    (mem_of_derived _ _ _ again) rfl
  apply toBytes_injective
  exact (List.cons.inj (List.cons.inj (Prod.mk.inj (Prod.mk.inj same).1).1).2).1

def mixedPrograms : HashMap Pubkey Pubkey := HashMap.empty.insert sampleToken token2022ProgramId

def heliosPlan (tokenPrograms : HashMap Pubkey Pubkey) : TxPlan Double :=
  .helios ⟨⟨10⟩, 1000, 5000⟩ sampleRoute sampleCache tokenPrograms

def directPlan (tokenPrograms : HashMap Pubkey Pubkey) : TxPlan Double :=
  .direct ⟨⟨10⟩, 1000, 5000⟩ sampleRoute sampleCache tokenPrograms

def planTx (plan : TxPlan Double) : List Instruction :=
  (buildTx firstArgument sampleEnv derivingBuilder plan .kamino none).toOption.getD []

/-- The token's account under its own program is used, and the other one is created. -/
theorem token2022_account_not_set_up :
    ¬ ∀ (plan : TxPlan Double) (tx : List Instruction),
      buildTx firstArgument sampleEnv derivingBuilder plan .kamino none = .ok tx →
        UserAccountsSetUp firstArgument derivingBuilder plan tx := by
  intro all
  have built : buildTx firstArgument sampleEnv derivingBuilder (heliosPlan mixedPrograms) .kamino
      none = .ok (planTx (heliosPlan mixedPrograms)) := eq_ok_of_isSome _ [] (by decide +kernel)
  have covered := covered_of_setUp firstArgument sampleEnv derivingBuilder
    (heliosPlan mixedPrograms) .kamino none _ built derivingBuilder_separates (all _ _ built)
  have spl := covered sampleToken (by decide +kernel)
  revert spl
  decide +kernel

theorem spl_route_set_up :
    UserAccountsSetUp firstArgument derivingBuilder (heliosPlan HashMap.empty)
        (planTx (heliosPlan HashMap.empty)) ∧
      UserAccountsSetUp firstArgument derivingBuilder (directPlan HashMap.empty)
        (planTx (directPlan HashMap.empty)) ∧
      Covered (directPlan HashMap.empty) := by
  have heliosBuilt : buildTx firstArgument sampleEnv derivingBuilder (heliosPlan HashMap.empty)
      .kamino none = .ok (planTx (heliosPlan HashMap.empty)) :=
    eq_ok_of_isSome _ [] (by decide +kernel)
  have directBuilt : buildTx firstArgument sampleEnv derivingBuilder (directPlan HashMap.empty)
      .kamino none = .ok (planTx (directPlan HashMap.empty)) :=
    eq_ok_of_isSome _ [] (by decide +kernel)
  have spl : SplOnly HashMap.empty sampleRoute := fun _ _ => rfl
  have noOrca : ∀ hop ∈ sampleRoute.hops,
      DexType.fromProgramId hop.dexProgram ≠ .orcaWhirlpool := by
    decide +kernel
  have orca : OrcaTokensListed sampleCache sampleRoute :=
    fun hop member whirlpool => absurd whirlpool (noOrca hop member)
  have helios := user_accounts_set_up_iff firstArgument sampleEnv derivingBuilder
    (heliosPlan HashMap.empty) .kamino none _ heliosBuilt
  have direct := user_accounts_set_up_iff firstArgument sampleEnv derivingBuilder
    (directPlan HashMap.empty) .kamino none _ directBuilt
  have ready := direct.1 ⟨spl, orca⟩
  exact ⟨helios.1 spl, ready, direct.2 derivingBuilder_separates ready⟩

end Sample

end Helios.SetupAccounts
