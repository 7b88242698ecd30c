import Helios.FloatArith
import Helios.Machine

/-! Keys, DEX programs and routes shared by the scanner, the builder and the
on-chain program. -/

namespace Helios

/-- A 32-byte key, held as the big-endian number its bytes spell, so that the
order on numbers is the byte-wise order of the source. -/
@[ext] structure Pubkey where
  toNat : Nat
  isLt : toNat < 2 ^ 256
  deriving DecidableEq

namespace Pubkey

instance : LinearOrder Pubkey :=
  LinearOrder.lift' Pubkey.toNat (fun _ _ same => Pubkey.ext same)

instance lawfulBEqOption : LawfulBEq (Option Pubkey) := inferInstance

/-- The all-zero key, the source's placeholder for "not known". -/
instance : Inhabited Pubkey := ⟨⟨0, by norm_num⟩⟩

def ofNat (n : Nat) : Pubkey := ⟨n % 2 ^ 256, Nat.mod_lt _ (by norm_num)⟩

def base58Alphabet : List Char :=
  "123456789ABCDEFGHJKLMNPQRSTUVWXYZabcdefghijkmnopqrstuvwxyz".toList

/-- A key literal of the source, as Base58 text. -/
def parse (text : String) : Pubkey :=
  ofNat (text.toList.foldl (fun value char => value * 58 + base58Alphabet.idxOf char) 0)

def toBytes (key : Pubkey) : List UInt8 :=
  (Machine.leBytes 32 key.toNat).reverse

def ofBytes (bytes : List UInt8) : Pubkey :=
  ofNat (Machine.ofLeBytes bytes.reverse)

end Pubkey

namespace DexPrograms

def raydiumAmmV4 : Pubkey := .parse "675kPX9MHTjS2zt1qfr1NYHuzeLXfQM9H24wFSUt1Mp8"
def raydiumClmm : Pubkey := .parse "CAMMCzo5YL8w4VFF8KVHrK22GGUsp5VTaW7grrKgrWqK"
def orcaWhirlpool : Pubkey := .parse "whirLbMiicVdio4qvUfM5KAg6Ct8VwpYzGff3uctyCc"
def meteoraDlmm : Pubkey := .parse "LBUZKhRxPF3XUpBCjp4YzTKgLccjZhTSDM9YuVaPwxo"
def pumpswap : Pubkey := .parse "pAMMBay6oceH9fJKBRHGP5D4bD4sWpmSwMn52FMfXEA"
def fluxbeam : Pubkey := .parse "FLUXubRmkEi2q6K3Y9kBPg9248ggaZVsoSFhtJHSR1X4"
def saber : Pubkey := .parse "SSwpkEEcbUqx4vtoEByFjSkhKdCT862DNVb52nZg1UZ"
def raydiumCpmm : Pubkey := .parse "CPMMoo8L3F4NbTegBCKVNunggL7H1ZpdTHKxQB5qKP1C"

end DexPrograms

inductive DexType where
  | raydiumAmmV4
  | raydiumClmm
  | orcaWhirlpool
  | meteoraDlmm
  | pumpSwap
  | fluxbeam
  | saber
  | raydiumCpmm
  | unknown
  deriving DecidableEq

def DexType.fromProgramId (key : Pubkey) : DexType :=
  if key = DexPrograms.raydiumAmmV4 then .raydiumAmmV4
  else if key = DexPrograms.raydiumClmm then .raydiumClmm
  else if key = DexPrograms.orcaWhirlpool then .orcaWhirlpool
  else if key = DexPrograms.meteoraDlmm then .meteoraDlmm
  else if key = DexPrograms.pumpswap then .pumpSwap
  else if key = DexPrograms.fluxbeam then .fluxbeam
  else if key = DexPrograms.saber then .saber
  else if key = DexPrograms.raydiumCpmm then .raydiumCpmm
  else .unknown

def wsol : Pubkey := .parse "So11111111111111111111111111111111111111112"
def usdc : Pubkey := .parse "EPjFWdd5AufqSSqeM2qN1xzybapC8G4wEGGkZwyTDt1v"
def usdt : Pubkey := .parse "Es9vMFrzaCERmJfrF4H2FYD4KCoNkY11McCe8BenwNYB"

structure Hop (F : Type) where
  pool : Pubkey
  dexProgram : Pubkey
  tokenIn : Pubkey
  tokenOut : Pubkey
  amountOut : Nat
  priceImpact : F

structure RouteParams (F : Type) where
  hops : List (Hop F)
  borrowAmount : Nat
  grossProfit : Nat
  netProfit : Int
  riskFactor : F
  strategy : String
  tier : Nat

end Helios
