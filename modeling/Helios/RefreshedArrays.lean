import Helios.RaydiumMetas
import Helios.RefreshRounds

/-! The tick and bin arrays of the cached pools across a refresh. The first round puts fresh
metadata in place of the old, with no arrays; the later rounds fill in what they get. -/

namespace Helios.RefreshedArrays

open Fallible PoolHydrator

/-- The two kinds of arrays: where a pool holds them, where the first round notes which ones to ask
for, and how they are fetched. -/
structure ArrayKind (A : Type) where
  held : DexPool → Option (HashMap Int A)
  requests : Staging → HashMap Pubkey (List (Int × Pubkey))
  stage : Stage
  decode : Account → Pubkey → Decoded A

def tickKind : ArrayKind Orca.OrcaTickArray where
  held pool := pool.orcaMeta.map OrcaMetadata.tickArrays
  requests := Staging.orcaTickArrayRequests
  stage := .tickArrays
  decode := Orca.decodeTickArray

def binKind : ArrayKind Meteora.MeteoraBinArray where
  held pool := pool.meteoraMeta.map MeteoraMetadata.binArrays
  requests := Staging.meteoraBinArrayRequests
  stage := .binArrays
  decode := Meteora.decodeBinArray

section Kinds

variable {A : Type} (kind : ArrayKind A)

def heldAt (cache : PoolStateCache) (key : Pubkey) : Option (HashMap Int A) :=
  (cache.get key).bind kind.held

def arrayAt (cache : PoolStateCache) (key : Pubkey) (index : Int) : Option A :=
  (heldAt kind cache key).bind (fun arrays => HashMap.get arrays index)

/-- The array a received account decodes to, if it was asked for under this index. -/
def answerBy (staging : Staging) (key : Pubkey) (index : Int) (received : Pubkey × Account) :
    Option A :=
  if HashMap.get (requestedBy (kind.requests staging)) received.1 = some (key, index) then
    (kind.decode received.2 key).toOption
  else none

/-- The last array the round brings in for a pool and an index. -/
def answer (network : Network) (staging : Staging) (key : Pubkey) (index : Int) : Option A :=
  ((fetch network kind.stage (requestedKeys (kind.requests staging))).filterMap
    (answerBy kind staging key index)).getLast?

/-- The pool's account was read, and every array asked for was fetched and decoded. -/
def AllAnswered (network : Network) (staging : Staging) (key : Pubkey) : Prop :=
  ∃ wanted, HashMap.get (kind.requests staging) key = some wanted ∧
    ∀ request ∈ wanted, (answer kind network staging key request.1).isSome = true

/-- A request that fails costs the pool none of its arrays. -/
structure KeepsArrays (network : Network) (staging : Staging) (before after : PoolStateCache)
    (key : Pubkey) : Prop where
  unchanged : ¬ AllAnswered kind network staging key →
    ∀ index, arrayAt kind after key index = arrayAt kind before key index
  noLoss : ¬ AllAnswered kind network staging key →
    ¬ ((∀ index array, arrayAt kind after key index = some array →
        arrayAt kind before key index = some array) ∧
      ∃ index, (arrayAt kind before key index).isSome = true ∧
        arrayAt kind after key index = none)

/-! The first round. -/

/-- What one account does to the arrays of one kind: nothing, or it empties those of its pool and
notes what to ask for. -/
inductive Touches (state next : Staging) (address : Pubkey) : Prop
  | idle (requests : kind.requests next = kind.requests state)
      (held : ∀ key, heldAt kind next.cache key = heldAt kind state.cache key)
  | fresh (wanted : List (Int × Pubkey))
      (requests : kind.requests next = (kind.requests state).insert address wanted)
      (held : ∀ key, heldAt kind next.cache key =
        if key = address then some HashMap.empty else heldAt kind state.cache key)

theorem heldAt_of_map (before after : PoolStateCache) (key : Pubkey)
    (same : (after.get key).map kind.held = (before.get key).map kind.held) :
    heldAt kind after key = heldAt kind before key := by
  have joined := congrArg (fun held => held.bind id) same
  rw [Option.bind_map, Option.bind_map] at joined
  exact joined

theorem heldAt_getMut (cache : PoolStateCache) (address : Pubkey) (change : DexPool → DexPool)
    (keeps : ∀ pool, kind.held (change pool) = kind.held pool) (key : Pubkey) :
    heldAt kind (cache.getMut address change) key = heldAt kind cache key := by
  apply heldAt_of_map
  exact PoolStateCache.map_get_getMut kind.held cache address key change (fun pool _ => keeps pool)

theorem heldAt_set (cache : PoolStateCache) (address : Pubkey) (change : DexPool → DexPool)
    (pool : DexPool) (cached : cache.get address = some pool) (arrays : HashMap Int A)
    (sets : kind.held (change pool) = some arrays) (key : Pubkey) :
    heldAt kind (cache.getMut address change) key =
      if key = address then some arrays else heldAt kind cache key := by
  rw [heldAt, PoolStateCache.get_getMut]
  by_cases same : key = address
  · rw [if_pos same, if_pos same, cached]
    exact sets
  · rw [if_neg same, if_neg same]
    rfl

end Kinds

section FirstRound

variable (pda : Pda) (mapped : List MappedPool)

theorem stageRaydium_touches {A : Type} (kind : ArrayKind A) (staging next : Staging)
    (received : Pubkey × Account)
    (requests : ∀ markets metas, kind.requests
      { staging with raydiumMarkets := markets, pendingRaydiumMetas := metas } =
        kind.requests staging)
    (done : stageRaydium pda mapped staging received.1 received.2 = .ok next) :
    Touches kind staging next received.1 := by
  rw [stageRaydium] at done
  split at done
  · cases done
    exact .idle rfl (fun _ => rfl)
  · rcases (onDecoded_eq_ok_iff _ _ _ _).mp done with ⟨_, same⟩ | ⟨metadata, _, same⟩
    · rw [same]
      exact .idle rfl (fun _ => rfl)
    · rw [same]
      exact .idle (requests _ _) (fun _ => rfl)

theorem decodeOrcaWhirlpool_empty (data : Account) (metadata : OrcaMetadata)
    (decoded : decodeOrcaWhirlpool data = .value metadata) :
    metadata.tickArrays = HashMap.empty := by
  rw [decodeOrcaWhirlpool] at decoded
  split at decoded
  · cases decoded
  · rcases (Decoded.bind_eq_value_iff _ _ _).mp decoded with ⟨_, -, decoded⟩
    rcases (Decoded.bind_eq_value_iff _ _ _).mp decoded with ⟨_, -, decoded⟩
    rcases (Decoded.bind_eq_value_iff _ _ _).mp decoded with ⟨_, -, decoded⟩
    rcases (Decoded.bind_eq_value_iff _ _ _).mp decoded with ⟨_, -, decoded⟩
    rcases (Decoded.bind_eq_value_iff _ _ _).mp decoded with ⟨_, -, decoded⟩
    rcases (Decoded.bind_eq_value_iff _ _ _).mp decoded with ⟨_, -, decoded⟩
    cases decoded
    rfl

theorem decodeMeteoraDlmm_empty (data : Account) (result : MeteoraMetadata × List Nat)
    (decoded : decodeMeteoraDlmm data = .value result) :
    result.1.binArrays = HashMap.empty := by
  rcases (Decoded.bind_eq_value_iff _ _ _).mp decoded with ⟨_, -, decoded⟩
  cases decoded
  rfl

theorem stageOrca_touches (staging next : Staging) (received : Pubkey × Account) (pool : DexPool)
    (cached : staging.cache.get received.1 = some pool)
    (done : stageOrca pda staging received.1 received.2 = .ok next) :
    Touches tickKind staging next received.1 ∧ Touches binKind staging next received.1 := by
  rcases (onDecoded_eq_ok_iff _ _ _ _).mp done with ⟨_, same⟩ | ⟨metadata, decoded, same⟩
  · rw [same]
    exact ⟨.idle rfl (fun _ => rfl), .idle rfl (fun _ => rfl)⟩
  · split at same
    · rw [same]
      exact ⟨.idle rfl (fun _ => rfl), .idle rfl (fun _ => rfl)⟩
    · have empty := decodeOrcaWhirlpool_empty received.2 metadata decoded
      rw [same]
      constructor
      · apply Touches.fresh _ rfl
        exact heldAt_set tickKind _ _ _ pool cached HashMap.empty (congrArg some empty)
      · exact .idle rfl (heldAt_getMut binKind _ _ _ (fun _ => rfl))

theorem stageMeteora_touches (staging next : Staging) (received : Pubkey × Account)
    (pool : DexPool) (cached : staging.cache.get received.1 = some pool)
    (done : stageMeteora pda staging received.1 received.2 = .ok next) :
    Touches tickKind staging next received.1 ∧ Touches binKind staging next received.1 := by
  rcases (onDecoded_eq_ok_iff _ _ _ _).mp done with ⟨_, same⟩ | ⟨⟨metadata, bitmap⟩, decoded, same⟩
  · rw [same]
    exact ⟨.idle rfl (fun _ => rfl), .idle rfl (fun _ => rfl)⟩
  · have empty := decodeMeteoraDlmm_empty received.2 (metadata, bitmap) decoded
    rw [same]
    constructor
    · exact .idle rfl (heldAt_getMut tickKind _ _ _ (fun _ => rfl))
    · apply Touches.fresh _ rfl
      exact heldAt_set binKind _ _ _ pool cached HashMap.empty (congrArg some empty)

theorem stagePool_touches (staging next : Staging) (received : Pubkey × Account)
    (done : stagePool pda mapped staging received = .ok next) :
    Touches tickKind staging next received.1 ∧ Touches binKind staging next received.1 := by
  rw [stagePool] at done
  split at done
  · cases done
    exact ⟨.idle rfl (fun _ => rfl), .idle rfl (fun _ => rfl)⟩
  · next pool cached =>
      split at done
      · exact ⟨stageRaydium_touches pda mapped tickKind staging next received (fun _ _ => rfl) done,
          stageRaydium_touches pda mapped binKind staging next received (fun _ _ => rfl) done⟩
      · split at done
        · exact stageOrca_touches pda staging next received pool cached done
        · split at done
          · exact stageMeteora_touches pda staging next received pool cached done
          · cases done
            exact ⟨.idle rfl (fun _ => rfl), .idle rfl (fun _ => rfl)⟩

/-- Behind the first round a pool holds no arrays if some are to be asked for, and else its old
ones. -/
def Emptied {A : Type} (kind : ArrayKind A) (cache : PoolStateCache) (staging : Staging) : Prop :=
  ∀ key, heldAt kind staging.cache key =
    if (HashMap.get (kind.requests staging) key).isSome then some HashMap.empty
    else heldAt kind cache key

theorem emptied_touches {A : Type} (kind : ArrayKind A) (cache : PoolStateCache)
    (staging next : Staging) (address : Pubkey) (emptied : Emptied kind cache staging)
    (touches : Touches kind staging next address) : Emptied kind cache next := by
  intro key
  cases touches with
  | idle requests held =>
      rw [held, requests]
      exact emptied key
  | fresh wanted requests held =>
      rw [held, requests]
      by_cases same : key = address
      · rw [if_pos same, same, HashMap.get_insert]
        rfl
      · rw [if_neg same, HashMap.get_insert_ne _ _ _ _ same]
        exact emptied key

theorem emptied_stagePools (network : Network) (cache : PoolStateCache) (staging : Staging)
    (done : stagePools pda network mapped cache = .ok staging) :
    Emptied tickKind cache staging ∧ Emptied binKind cache staging := by
  apply foldlM_invariant (stagePool pda mapped)
    (fun state => Emptied tickKind cache state ∧ Emptied binKind cache state) _ _ _ _ _ done
  · constructor
    · intro key
      rw [show tickKind.requests _ = HashMap.empty from rfl, HashMap.get_empty]
      rfl
    · intro key
      rw [show binKind.requests _ = HashMap.empty from rfl, HashMap.get_empty]
      rfl
  · intro received _ state next both stepped
    have touches := stagePool_touches pda mapped state next received stepped
    exact ⟨emptied_touches tickKind cache state next received.1 both.1 touches.1,
      emptied_touches binKind cache state next received.1 both.2 touches.2⟩

end FirstRound

/-! The rounds that fill in the arrays. -/

section Filling

variable {A : Type}

theorem requestedBy_mem (requests : HashMap Pubkey (List (Int × Pubkey))) (address key : Pubkey)
    (index : Int) (target : HashMap.get (requestedBy requests) address = some (key, index)) :
    (HashMap.get requests key).isSome = true := by
  rw [requestedBy, HashMap.get_foldl_insert, HashMap.get_empty, Option.or_none] at target
  rcases List.mem_filterMap.mp (List.mem_of_getLast? target) with ⟨write, member, found⟩
  rcases List.mem_flatMap.mp member with ⟨entry, listed, written⟩
  rcases List.mem_map.mp written with ⟨request, -, same⟩
  rw [← same] at found
  dsimp only at found
  split at found
  · rw [Option.some.injEq, Prod.mk.injEq] at found
    rw [← found.1]
    exact Option.isSome_iff_exists.mpr ⟨entry.2, AList.mem_lookup_iff.mpr listed⟩
  · cases found

/-- One received account: passed over, or stored under its pool and index. -/
theorem collectArrays_step (kind : ArrayKind A) (staging : Staging)
    (received : Pubkey × Account) (state next : HashMap Pubkey (HashMap Int A))
    (stepped : (match HashMap.get (requestedBy (kind.requests staging)) received.1 with
      | none => Except.ok state
      | some (pool, index) =>
          onDecoded (kind.decode received.2 pool) state (fun decoded =>
            state.insert pool
              (((HashMap.get state pool).getD HashMap.empty).insert index decoded))) = .ok next) :
    (next = state ∧ ∀ key index, answerBy kind staging key index received = none) ∨
      ∃ pool index decoded,
        HashMap.get (requestedBy (kind.requests staging)) received.1 = some (pool, index) ∧
        kind.decode received.2 pool = .value decoded ∧
        next = state.insert pool
          (((HashMap.get state pool).getD HashMap.empty).insert index decoded) := by
  split at stepped
  · next untargeted =>
      cases stepped
      refine Or.inl ⟨rfl, fun key index => if_neg ?_⟩
      rw [untargeted]
      exact (Option.some_ne_none _).symm
  · next pool place target =>
      rcases (onDecoded_eq_ok_iff _ _ _ _).mp stepped with ⟨refused, same⟩ | ⟨decoded, read, same⟩
      · refine Or.inl ⟨same, ?_⟩
        intro key index
        rw [answerBy, target]
        split
        · next own =>
            have mine : pool = key := congrArg Prod.fst (Option.some.inj own)
            rw [← mine, refused]
            rfl
        · rfl
      · exact Or.inr ⟨pool, place, decoded, target, read, same⟩

theorem collectArrays_write (kind : ArrayKind A) (staging : Staging) (key : Pubkey) (index : Int)
    (received : Pubkey × Account) (state next : HashMap Pubkey (HashMap Int A))
    (stepped : (next = state ∧ ∀ key index, answerBy kind staging key index received = none) ∨
      ∃ pool index decoded,
        HashMap.get (requestedBy (kind.requests staging)) received.1 = some (pool, index) ∧
        kind.decode received.2 pool = .value decoded ∧
        next = state.insert pool
          (((HashMap.get state pool).getD HashMap.empty).insert index decoded)) :
    (HashMap.get next key).bind (fun arrays => HashMap.get arrays index) =
      (answerBy kind staging key index received).or
        ((HashMap.get state key).bind (fun arrays => HashMap.get arrays index)) := by
  rcases stepped with ⟨same, unanswered⟩ | ⟨pool, place, decoded, target, read, same⟩
  · rw [same, unanswered, Option.none_or]
  · rw [same, answerBy]
    by_cases own : pool = key
    · subst own
      rw [HashMap.get_insert, Option.bind_some]
      by_cases here : place = index
      · subst here
        rw [if_pos target, HashMap.get_insert, read]
        rfl
      · have other : HashMap.get (requestedBy (kind.requests staging)) received.1 ≠
            some (pool, index) := by
          rw [target]
          exact fun hit => here (congrArg Prod.snd (Option.some.inj hit))
        rw [if_neg other, Option.none_or, HashMap.get_insert_ne _ _ _ _ (Ne.symm here)]
        cases HashMap.get state pool with
        | none => exact HashMap.get_empty index
        | some arrays => rfl
    · have other : HashMap.get (requestedBy (kind.requests staging)) received.1 ≠
          some (key, index) := by
        rw [target]
        exact fun hit => own (congrArg Prod.fst (Option.some.inj hit))
      rw [if_neg other, Option.none_or, HashMap.get_insert_ne _ _ _ _ (Ne.symm own)]

theorem collectArrays_spec (kind : ArrayKind A) (staging : Staging)
    (received : List (Pubkey × Account)) (byPool : HashMap Pubkey (HashMap Int A))
    (done : collectArrays kind.decode (requestedBy (kind.requests staging)) received = .ok byPool)
    (key : Pubkey) :
    ((HashMap.get byPool key).isSome = true →
      (HashMap.get (kind.requests staging) key).isSome = true) ∧
    ∀ index, (HashMap.get byPool key).bind (fun arrays => HashMap.get arrays index) =
      (received.filterMap (answerBy kind staging key index)).getLast? := by
  constructor
  · apply foldlM_invariant _ (fun state => (HashMap.get state key).isSome = true →
      (HashMap.get (kind.requests staging) key).isSome = true) _ _ _ _ _ done
    · intro none
      rw [HashMap.get_empty] at none
      cases none
    · intro account _ state next known stepped
      rcases collectArrays_step kind staging account state next stepped with
        ⟨same, -⟩ | ⟨pool, index, decoded, target, -, same⟩
      · rw [same]
        exact known
      · rw [same]
        by_cases mine : key = pool
        · rw [mine]
          exact fun _ => requestedBy_mem _ _ _ _ target
        · rw [HashMap.get_insert_ne _ _ _ _ mine]
          exact known
  · intro index
    have last := foldlM_last _ (fun _ => True)
      (fun state => (HashMap.get state key).bind (fun arrays => HashMap.get arrays index))
      (answerBy kind staging key index) _ _ _ trivial (by
        intro account _ state next _ stepped
        exact ⟨trivial, collectArrays_write kind staging key index account state next
          (collectArrays_step kind staging account state next stepped)⟩) done
    rw [HashMap.get_empty, Option.bind_none, Option.or_none] at last
    exact last

/-- What is stored for a pool takes the place of the arrays that it holds. -/
theorem heldAt_storeArrays (kind : ArrayKind A) (store : HashMap Int A → DexPool → DexPool)
    (stores : ∀ arrays pool, kind.held (store arrays pool) =
      (kind.held pool).map (fun _ => arrays))
    (byPool : HashMap Pubkey (HashMap Int A)) (cache : PoolStateCache) (key : Pubkey) :
    heldAt kind (storeArrays store byPool cache) key =
      (heldAt kind cache key).bind (fun old => (HashMap.get byPool key).or (some old)) := by
  have one : ∀ (state : PoolStateCache) (address : Pubkey) (arrays : HashMap Int A),
      heldAt kind (state.getMut address (store arrays)) key =
        if key = address then (heldAt kind state key).map (fun _ => arrays)
        else heldAt kind state key := by
    intro state address arrays
    rw [heldAt, PoolStateCache.get_getMut]
    by_cases same : key = address
    · rw [if_pos same, if_pos same, ← same, Option.bind_map, heldAt, Option.map_bind]
      exact congrArg _ (funext (fun pool => stores arrays pool))
    · rw [if_neg same, if_neg same]
      rfl
  have done := foldlM_ok (ε := Panic) (fun (state : PoolStateCache) (entry : Sigma fun _ => _) =>
    state.getMut entry.1 (store entry.2)) byPool.entries cache
  cases before : heldAt kind cache key with
  | none =>
      exact foldlM_invariant _ (fun state => heldAt kind state key = none) _ _ _ before
        (by
          intro entry _ state next absent stepped
          rw [← Except.ok.inj stepped, one, absent]
          split
          · rfl
          · rfl) done
  | some old =>
      have last := foldlM_last _ (fun state => (heldAt kind state key).isSome = true)
        (fun state => heldAt kind state key)
        (fun entry => if entry.1 = key then some entry.2 else none) _ _ _
        (by rw [before]; rfl)
        (by
          intro entry _ state next present stepped
          rcases Option.isSome_iff_exists.mp present with ⟨arrays, found⟩
          rw [← Except.ok.inj stepped, one, found]
          by_cases mine : entry.1 = key
          · rw [if_pos mine.symm, if_pos mine]
            exact ⟨rfl, rfl⟩
          · rw [if_neg (Ne.symm mine), if_neg mine]
            exact ⟨rfl, rfl⟩) done
      rw [HashMap.last_entry byPool key some, before] at last
      refine last.trans ?_
      rw [Option.bind_some]
      cases HashMap.get byPool key with
      | none => rfl
      | some arrays => rfl

theorem heldAt_storeArrays_other {B : Type} (kind : ArrayKind A)
    (store : HashMap Int B → DexPool → DexPool)
    (keeps : ∀ arrays pool, kind.held (store arrays pool) = kind.held pool)
    (byPool : HashMap Pubkey (HashMap Int B)) (cache : PoolStateCache) (key : Pubkey) :
    heldAt kind (storeArrays store byPool cache) key = heldAt kind cache key := by
  rw [storeArrays]
  induction byPool.entries generalizing cache with
  | nil => rfl
  | cons entry rest ih =>
      rw [List.foldl_cons, ih]
      exact heldAt_getMut kind cache entry.1 (store entry.2) (fun pool => keeps entry.2 pool) key

/-- The arrays are read off the metadata of the two venues. -/
def ReadsVenue (kind : ArrayKind A) : Prop :=
  ∀ first second : DexPool, first.orcaMeta = second.orcaMeta →
    first.meteoraMeta = second.meteoraMeta → kind.held first = kind.held second

theorem readsVenue_tickKind : ReadsVenue tickKind :=
  fun _ _ orca _ => congrArg (Option.map OrcaMetadata.tickArrays) orca

theorem readsVenue_binKind : ReadsVenue binKind :=
  fun _ _ _ meteora => congrArg (Option.map MeteoraMetadata.binArrays) meteora

theorem heldAt_flush (kind : ArrayKind A) (reads : ReadsVenue kind)
    (pending : HashMap Pubkey RaydiumMetadata) (cache : PoolStateCache) (key : Pubkey) :
    heldAt kind (flushRaydiumMetas pending cache) key = heldAt kind cache key := by
  apply heldAt_of_map
  rw [flushRaydiumMetas_get, Option.map_map]
  exact Option.map_congr (fun pool _ => reads _ pool rfl rfl)

theorem heldAt_setVaultBalance (kind : ArrayKind A) (reads : ReadsVenue kind) (now : Instant)
    (cache : PoolStateCache) (amount : Nat) (vault : VaultType) (key : Pubkey) :
    heldAt kind (setVaultBalance now cache amount vault) key = heldAt kind cache key := by
  cases vault with
  | poolA pool =>
      apply heldAt_getMut
      exact fun held => reads _ held rfl rfl
  | poolB pool =>
      apply heldAt_getMut
      exact fun held => reads _ held rfl rfl
  | marketA pool =>
      apply heldAt_getMut
      exact fun held => reads _ held rfl rfl
  | marketB pool =>
      apply heldAt_getMut
      exact fun held => reads _ held rfl rfl

theorem heldAt_refreshBalances (kind : ArrayKind A) (reads : ReadsVenue kind) (network : Network)
    (now : Instant) (mapped : List MappedPool) (cache : PoolStateCache) (key : Pubkey) :
    heldAt kind (refreshBalances network now mapped cache) key = heldAt kind cache key := by
  simp only [refreshBalances]
  generalize allVaults mapped cache = vaults
  induction fetch network .vaults vaults.keys generalizing cache with
  | nil => rfl
  | cons received rest ih =>
      rw [List.foldl_cons, ih, refreshBalance]
      split
      · exact heldAt_setVaultBalance kind reads now cache _ _ key
      · rfl

/-- Arrays that were asked for are the ones brought in, and the others are kept. -/
theorem arrayAt_filled (kind : ArrayKind A) (store : HashMap Int A → DexPool → DexPool)
    (stores : ∀ arrays pool, kind.held (store arrays pool) =
      (kind.held pool).map (fun _ => arrays))
    (network : Network) (cache : PoolStateCache) (staging : Staging)
    (emptied : Emptied kind cache staging) (byPool : HashMap Pubkey (HashMap Int A))
    (collected : collectArrays kind.decode (requestedBy (kind.requests staging))
      (fetch network kind.stage (requestedKeys (kind.requests staging))) = .ok byPool)
    (filled : PoolStateCache) (key : Pubkey)
    (unchanged : heldAt kind filled key = heldAt kind staging.cache key) (index : Int) :
    arrayAt kind (storeArrays store byPool filled) key index =
      if (HashMap.get (kind.requests staging) key).isSome then
        answer kind network staging key index
      else arrayAt kind cache key index := by
  rcases collectArrays_spec kind staging _ byPool collected key with ⟨known, answers⟩
  rw [arrayAt, heldAt_storeArrays kind store stores, unchanged, emptied key, answer, ← answers]
  split
  · rw [Option.bind_some]
    cases HashMap.get byPool key with
    | none => exact HashMap.get_empty index
    | some arrays => rfl
  · next unasked =>
      have none : HashMap.get byPool key = none :=
        Option.not_isSome_iff_eq_none.mp (fun stored => unasked (known stored))
      rw [none, arrayAt]
      cases heldAt kind cache key with
      | none => rfl
      | some arrays => rfl

theorem keepsArrays_iff (kind : ArrayKind A) (network : Network) (staging : Staging)
    (before after : PoolStateCache) (key : Pubkey)
    (stored : ∀ index, arrayAt kind after key index =
      if (HashMap.get (kind.requests staging) key).isSome then
        answer kind network staging key index
      else arrayAt kind before key index) :
    KeepsArrays kind network staging before after key ↔
      AllAnswered kind network staging key ∨ HashMap.get (kind.requests staging) key = none ∨
        ∀ index, arrayAt kind before key index = answer kind network staging key index := by
  constructor
  · intro keeps
    by_cases answered : AllAnswered kind network staging key
    · exact Or.inl answered
    · cases asked : HashMap.get (kind.requests staging) key with
      | none => exact Or.inr (Or.inl rfl)
      | some wanted =>
          refine Or.inr (Or.inr ?_)
          intro index
          have same := stored index
          rw [asked, if_pos Option.isSome_some] at same
          rw [← same, keeps.unchanged answered index]
  · intro condition
    have unchanged : ¬ AllAnswered kind network staging key →
        ∀ index, arrayAt kind after key index = arrayAt kind before key index := by
      intro failed index
      rw [stored index]
      rcases condition with answered | unasked | same
      · exact absurd answered failed
      · rw [unasked]
        rfl
      · rw [same index, ite_id]
    refine ⟨unchanged, ?_⟩
    rintro failed ⟨-, index, had, lost⟩
    rw [← unchanged failed index, lost] at had
    cases had

end Filling

/-! The whole refresh. -/

theorem held_storeTickArrays (arrays : HashMap Int Orca.OrcaTickArray) (pool : DexPool) :
    tickKind.held (storeTickArrays arrays pool) = (tickKind.held pool).map (fun _ => arrays) := by
  simp only [tickKind, storeTickArrays, Option.map_map]
  rfl

theorem held_storeBinArrays (arrays : HashMap Int Meteora.MeteoraBinArray) (pool : DexPool) :
    binKind.held (storeBinArrays arrays pool) = (binKind.held pool).map (fun _ => arrays) := by
  simp only [binKind, storeBinArrays, Option.map_map]
  rfl

section Refresh

variable (pda : Pda) (network : Network) (now : Instant) (mapped : List MappedPool)
  (cache : PoolStateCache) (staging : Staging) (after : PoolStateCache)
  (staged : stagePools pda network mapped cache = .ok staging)
  (done : refreshAll pda network now mapped cache = .ok after)

include staged done

theorem arrayAt_refreshAll (key : Pubkey) (index : Int) :
    (arrayAt tickKind after key index =
      if (HashMap.get (tickKind.requests staging) key).isSome then
        answer tickKind network staging key index
      else arrayAt tickKind cache key index) ∧
    (arrayAt binKind after key index =
      if (HashMap.get (binKind.requests staging) key).isSome then
        answer binKind network staging key index
      else arrayAt binKind cache key index) := by
  simp only [refreshAll, refreshMetadata, bind_eq_ok_iff] at done
  rcases done with ⟨flushed, ⟨found, same, binArrays, bins, tickArrays, ticks, pending, -, flush⟩,
    balanced⟩
  rw [staged] at same
  cases same
  cases flush
  cases balanced
  rcases emptied_stagePools pda mapped network cache staging staged with ⟨noTicks, noBins⟩
  constructor
  · rw [arrayAt, heldAt_refreshBalances tickKind readsVenue_tickKind,
      heldAt_flush tickKind readsVenue_tickKind]
    apply arrayAt_filled tickKind storeTickArrays held_storeTickArrays network cache staging noTicks
      tickArrays ticks
    exact heldAt_storeArrays_other tickKind storeBinArrays (fun _ _ => rfl) binArrays _ key
  · rw [arrayAt, heldAt_refreshBalances binKind readsVenue_binKind,
      heldAt_flush binKind readsVenue_binKind,
      heldAt_storeArrays_other binKind storeTickArrays (fun _ _ => rfl)]
    exact arrayAt_filled binKind storeBinArrays held_storeBinArrays network cache staging noBins
      binArrays bins staging.cache key rfl index

/-- For every pool a failed request costs no arrays exactly if no request fails, or the pool's
account was not read, or the pool held just the arrays that were brought in. -/
theorem arrays_kept_iff (key : Pubkey) :
    (KeepsArrays tickKind network staging cache after key ↔
      AllAnswered tickKind network staging key ∨
        HashMap.get staging.orcaTickArrayRequests key = none ∨
        ∀ index, arrayAt tickKind cache key index = answer tickKind network staging key index) ∧
    (KeepsArrays binKind network staging cache after key ↔
      AllAnswered binKind network staging key ∨
        HashMap.get staging.meteoraBinArrayRequests key = none ∨
        ∀ index, arrayAt binKind cache key index = answer binKind network staging key index) := by
  have stored := arrayAt_refreshAll pda network now mapped cache staging after staged done key
  exact ⟨keepsArrays_iff tickKind network staging cache after key (fun index => (stored index).1),
    keepsArrays_iff binKind network staging cache after key (fun index => (stored index).2)⟩

end Refresh

/-! A Whirlpool whose own account is read and whose tick arrays are not. -/

section Sample

open RaydiumMetas

def whirlpool : DexPool :=
  { completePool with
    dexType := .orcaWhirlpool
    raydiumMeta := none
    orcaMeta := some
      { tokenVaultA := .ofNat 13, tokenVaultB := .ofNat 14, liquidity := 1, sqrtPrice := 1
        tickSpacing := 1, tickCurrentIndex := 0
        tickArrays := HashMap.empty.insert 0 ⟨0, []⟩ } }

def whirlpoolCache : PoolStateCache := PoolStateCache.new.upsert whirlpool

/-- Tick spacing 1 at tick 0. -/
def whirlpoolAccount : Account := List.replicate 41 0 ++ [1, 0] ++ List.replicate 210 0

/-- Only the first round is answered. -/
def shortNetwork : Network := fun stage _ =>
  ⟨fun _ _ => if stage = .pools then .ok [some whirlpoolAccount] else .error .other, none⟩

def whirlpoolFile : List MappedPool := [⟨some (.ofNat 1), none, none⟩]

def whirlpoolStaging : Staging :=
  (stagePools samplePda shortNetwork whirlpoolFile whirlpoolCache).toOption.getD
    ⟨PoolStateCache.new, HashMap.empty, HashMap.empty, HashMap.empty, HashMap.empty⟩

def whirlpoolAfter : PoolStateCache :=
  (refreshAll samplePda shortNetwork 0 whirlpoolFile whirlpoolCache).toOption.getD
    PoolStateCache.new

theorem whirlpool_staged : stagePools samplePda shortNetwork whirlpoolFile whirlpoolCache =
    .ok whirlpoolStaging :=
  eq_ok_of_isSome _ _ (by decide +kernel)

theorem whirlpool_refreshed :
    refreshAll samplePda shortNetwork 0 whirlpoolFile whirlpoolCache = .ok whirlpoolAfter :=
  eq_ok_of_isSome _ _ (by decide +kernel)

/-- The request for the tick arrays fails, and the one array held is gone. -/
theorem tick_arrays_lost :
    stagePools samplePda shortNetwork whirlpoolFile whirlpoolCache = .ok whirlpoolStaging ∧
    refreshAll samplePda shortNetwork 0 whirlpoolFile whirlpoolCache = .ok whirlpoolAfter ∧
    arrayAt tickKind whirlpoolCache (.ofNat 1) 0 = some ⟨0, []⟩ ∧
    arrayAt tickKind whirlpoolAfter (.ofNat 1) 0 = none ∧
    ¬ KeepsArrays tickKind shortNetwork whirlpoolStaging whirlpoolCache whirlpoolAfter
      (.ofNat 1) := by
  have had : arrayAt tickKind whirlpoolCache (.ofNat 1) 0 = some ⟨0, []⟩ := by decide +kernel
  have lost : arrayAt tickKind whirlpoolAfter (.ofNat 1) 0 = none := by decide +kernel
  refine ⟨whirlpool_staged, whirlpool_refreshed, had, lost, ?_⟩
  intro keeps
  have failed : ¬ AllAnswered tickKind shortNetwork whirlpoolStaging (.ofNat 1) := by
    rintro ⟨wanted, asked, answered⟩
    have some : (HashMap.get (tickKind.requests whirlpoolStaging) (.ofNat 1)).map
        (fun wanted => wanted.any (fun request =>
          (answer tickKind shortNetwork whirlpoolStaging (.ofNat 1) request.1).isNone)) =
        some true := by
      decide +kernel
    rw [asked, Option.map_some, Option.some.injEq] at some
    rcases List.any_eq_true.mp some with ⟨request, member, unanswered⟩
    have found := answered request member
    rw [← Option.not_isNone, unanswered] at found
    cases found
  have same := keeps.unchanged failed 0
  rw [had, lost] at same
  cases same

theorem whirlpool_kept_iff :
    (KeepsArrays tickKind shortNetwork whirlpoolStaging whirlpoolCache whirlpoolAfter
        (.ofNat 1) ↔
      AllAnswered tickKind shortNetwork whirlpoolStaging (.ofNat 1) ∨
        HashMap.get whirlpoolStaging.orcaTickArrayRequests (.ofNat 1) = none ∨
        ∀ index, arrayAt tickKind whirlpoolCache (.ofNat 1) index =
          answer tickKind shortNetwork whirlpoolStaging (.ofNat 1) index) ∧
    (KeepsArrays binKind shortNetwork whirlpoolStaging whirlpoolCache whirlpoolAfter
        (.ofNat 1) ↔
      AllAnswered binKind shortNetwork whirlpoolStaging (.ofNat 1) ∨
        HashMap.get whirlpoolStaging.meteoraBinArrayRequests (.ofNat 1) = none ∨
        ∀ index, arrayAt binKind whirlpoolCache (.ofNat 1) index =
          answer binKind shortNetwork whirlpoolStaging (.ofNat 1) index) :=
  arrays_kept_iff samplePda shortNetwork 0 whirlpoolFile whirlpoolCache whirlpoolStaging
    whirlpoolAfter whirlpool_staged whirlpool_refreshed (.ofNat 1)

end Sample

end Helios.RefreshedArrays
