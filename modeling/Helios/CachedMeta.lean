import Helios.KeyText
import Helios.TickArrays

/-! The metadata of a pool in the Redis cache: what is written, what is read back, and which hop
accounts the builder makes of it. -/

namespace Helios.RedisCache

open Fallible Orca TickSequence TickArrays

/-- The record under `meta:{pool}`; keys are text. -/
structure CachedPoolMeta where
  dexType : String
  tokenA : String
  tokenB : String
  feeBps : Nat
  vaultA : Option String
  vaultB : Option String
  marketId : Option String
  marketProgram : Option String
  marketBids : Option String
  marketAsks : Option String
  marketEventQueue : Option String
  marketBaseVault : Option String
  marketQuoteVault : Option String
  marketVaultSigner : Option String
  openOrders : Option String
  orcaVaultA : Option String
  orcaVaultB : Option String
  orcaTickSpacing : Option Nat
  meteoraVaultA : Option String
  meteoraVaultB : Option String
  meteoraBinStep : Option Nat

def poolToCachedMeta (pool : DexPool) : CachedPoolMeta where
  dexType := pool.dexType.debug
  tokenA := pool.tokenA.display
  tokenB := pool.tokenB.display
  feeBps := pool.feeBps
  vaultA := pool.raydiumMeta.map (fun raydium => raydium.vaultA.display)
  vaultB := pool.raydiumMeta.map (fun raydium => raydium.vaultB.display)
  marketId := pool.raydiumMeta.map (fun raydium => raydium.marketId.display)
  marketProgram := pool.raydiumMeta.map (fun raydium => raydium.marketProgram.display)
  marketBids := pool.raydiumMeta.map (fun raydium => raydium.marketBids.display)
  marketAsks := pool.raydiumMeta.map (fun raydium => raydium.marketAsks.display)
  marketEventQueue := pool.raydiumMeta.map (fun raydium => raydium.marketEventQueue.display)
  marketBaseVault := pool.raydiumMeta.map (fun raydium => raydium.marketBaseVault.display)
  marketQuoteVault := pool.raydiumMeta.map (fun raydium => raydium.marketQuoteVault.display)
  marketVaultSigner := pool.raydiumMeta.map (fun raydium => raydium.marketVaultSigner.display)
  openOrders := pool.raydiumMeta.map (fun raydium => raydium.openOrders.display)
  orcaVaultA := pool.orcaMeta.map (fun orca => orca.tokenVaultA.display)
  orcaVaultB := pool.orcaMeta.map (fun orca => orca.tokenVaultB.display)
  orcaTickSpacing := pool.orcaMeta.map OrcaMetadata.tickSpacing
  meteoraVaultA := pool.meteoraMeta.map (fun meteora => meteora.tokenVaultA.display)
  meteoraVaultB := pool.meteoraMeta.map (fun meteora => meteora.tokenVaultB.display)
  meteoraBinStep := pool.meteoraMeta.map MeteoraMetadata.binStep

/-- The closure `parse`: a key, or the default one. -/
def keyOf (text : Option String) : Pubkey := (text.bind Pubkey.fromStr).getD default

def applyCachedMeta (pool : DexPool) (record : CachedPoolMeta) : DexPool :=
  match pool.dexType with
  | .raydiumAmmV4 =>
      if pool.raydiumMeta.isNone ∧ record.vaultA.isSome then
        { pool with raydiumMeta := some {
            authority := default
            nonce := 0
            openOrders := keyOf record.openOrders
            targetOrders := default
            vaultA := keyOf record.vaultA
            vaultB := keyOf record.vaultB
            marketId := keyOf record.marketId
            marketProgram := keyOf record.marketProgram
            marketEventQueue := keyOf record.marketEventQueue
            marketBids := keyOf record.marketBids
            marketAsks := keyOf record.marketAsks
            marketBaseVault := keyOf record.marketBaseVault
            marketQuoteVault := keyOf record.marketQuoteVault
            marketVaultSigner := keyOf record.marketVaultSigner } }
      else pool
  | .orcaWhirlpool =>
      match pool.orcaMeta with
      | some orca =>
          if orca.tickSpacing = 0 then
            { pool with orcaMeta := some { orca with
                tokenVaultA := keyOf record.orcaVaultA
                tokenVaultB := keyOf record.orcaVaultB
                tickSpacing := record.orcaTickSpacing.getD 0 } }
          else pool
      | none =>
          if record.orcaVaultA.isSome then
            { pool with orcaMeta := some {
                tokenVaultA := keyOf record.orcaVaultA
                tokenVaultB := keyOf record.orcaVaultB
                liquidity := 0
                sqrtPrice := 0
                tickSpacing := record.orcaTickSpacing.getD 0
                tickCurrentIndex := 0
                tickArrays := HashMap.empty } }
          else pool
  | .meteoraDlmm =>
      if pool.meteoraMeta.isNone ∧ record.meteoraVaultA.isSome then
        { pool with meteoraMeta := some {
            activeId := 0
            binStep := record.meteoraBinStep.getD 0
            tokenVaultA := keyOf record.meteoraVaultA
            tokenVaultB := keyOf record.meteoraVaultB
            parameters := ⟨0, 0, 0⟩
            vParameters := ⟨0⟩
            binArrays := HashMap.empty } }
      else pool
  | _ => pool

theorem keyOf_display (key : Pubkey) : keyOf (some key.display) = key := by
  rw [keyOf, Option.bind_some, Pubkey.fromStr_display, Option.getD_some]

/-- The same pool before any metadata was fetched. -/
def withoutMetadata (pool : DexPool) : DexPool :=
  { pool with raydiumMeta := none, orcaMeta := none, meteoraMeta := none }

/-- The pool after its metadata went to the cache and came back. -/
def restored (pool : DexPool) : DexPool :=
  applyCachedMeta (withoutMetadata pool) (poolToCachedMeta pool)

/-! What comes back. -/

theorem restored_raydium (pool : DexPool) (kind : pool.dexType = .raydiumAmmV4)
    (raydium : RaydiumMetadata) (known : pool.raydiumMeta = some raydium) :
    restored pool = { withoutMetadata pool with
      raydiumMeta := some { raydium with
        authority := default, nonce := 0, targetOrders := default } } := by
  rw [restored, applyCachedMeta]
  have same : (withoutMetadata pool).dexType = .raydiumAmmV4 := kind
  rw [same]
  simp only [poolToCachedMeta, known, kind, keyOf_display, withoutMetadata, Option.map_some,
    Option.isNone_none, Option.isSome_some, and_self, if_true]

theorem restored_orca (pool : DexPool) (kind : pool.dexType = .orcaWhirlpool)
    (orca : OrcaMetadata) (known : pool.orcaMeta = some orca) :
    restored pool = { withoutMetadata pool with
      orcaMeta := some { orca with
        liquidity := 0, sqrtPrice := 0, tickCurrentIndex := 0, tickArrays := HashMap.empty } } := by
  rw [restored, applyCachedMeta]
  have same : (withoutMetadata pool).dexType = .orcaWhirlpool := kind
  rw [same]
  simp only [poolToCachedMeta, known, kind, keyOf_display, withoutMetadata, Option.map_some,
    Option.isSome_some, if_true, Option.getD_some]

theorem restored_meteora (pool : DexPool) (kind : pool.dexType = .meteoraDlmm)
    (meteora : MeteoraMetadata) (known : pool.meteoraMeta = some meteora) :
    restored pool = { withoutMetadata pool with
      meteoraMeta := some { meteora with
        activeId := 0, parameters := ⟨0, 0, 0⟩, vParameters := ⟨0⟩,
        binArrays := HashMap.empty } } := by
  rw [restored, applyCachedMeta]
  have same : (withoutMetadata pool).dexType = .meteoraDlmm := kind
  rw [same]
  simp only [poolToCachedMeta, known, kind, keyOf_display, withoutMetadata, Option.map_some,
    Option.isNone_none, Option.isSome_some, and_self, if_true, Option.getD_some]

end Helios.RedisCache
