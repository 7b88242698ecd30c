import Helios.AutoSell
import Helios.Checked

/-! The limits of the sniper's buy and sale. The quotes are made in 128 bits; the slippage is
taken off in 64. -/

namespace Helios.SniperLimits

open AutoSell ConstantProduct Machine

def slippageBps : Nat := 5000

def buyDiscriminator : List UInt8 := [102, 6, 61, 18, 1, 218, 235, 234]
def sellDiscriminator : List UInt8 := [51, 230, 133, 164, 1, 127, 131, 173]

/-- The reply to `getMultipleAccounts`, with the two texts at
`data.parsed.info.tokenAmount.amount`. -/
inductive VaultsAnswer where
  | notSent
  | notJson
  | accounts (base quote : Option String)

/-- The WSOL and the token balance, if neither is missing or zero. -/
def readReserves (answer : VaultsAnswer) (wsolIsBase : Bool) : Option (Nat × Nat) :=
  match answer with
  | .notSent => none
  | .notJson => none
  | .accounts base quote =>
      let baseBalance := (extractTokenBalance (.account base)).getD 0
      let quoteBalance := (extractTokenBalance (.account quote)).getD 0
      if 0 < baseBalance ∧ 0 < quoteBalance then
        some (if wsolIsBase then (baseBalance, quoteBalance) else (quoteBalance, baseBalance))
      else none

/-- 85 SOL and 793 million tokens of six decimals. -/
def assumedReserves : Nat × Nat := (85000000000, 793000000 * 1000000)

def fallbackTokenOutput (wsolAmountIn : Nat) : Nat :=
  wrap 64 (assumedReserves.2 * wsolAmountIn / (assumedReserves.1 + wsolAmountIn))

def computeTokenOutput (answer : VaultsAnswer) (wsolAmountIn : Nat) (wsolIsBase : Bool) : Nat :=
  match readReserves answer wsolIsBase with
  | some (wsolReserve, tokenReserve) =>
      wrap 64 ((checkedMul 128 tokenReserve wsolAmountIn).getD 0 / (wsolReserve + wsolAmountIn))
  | none => fallbackTokenOutput wsolAmountIn

/-- The `min_token_out` of `build_buy_tx`. -/
def minTokenOut (expectedTokenOut : Nat) : Nat :=
  wrap 64 (expectedTokenOut * (10000 - slippageBps)) / 10000

/-- The data of the buy: what is sold and the least to be had, or what is to be had and the most
to be paid. -/
def buyData (snipeLamports expectedTokenOut : Nat) (wsolIsBase : Bool) : List UInt8 :=
  if wsolIsBase then
    sellDiscriminator ++ leBytes 8 snipeLamports ++ leBytes 8 (minTokenOut expectedTokenOut)
  else
    let maxQuote := wrap 64 (snipeLamports + wrap 64 (snipeLamports * slippageBps) / 10000)
    buyDiscriminator ++ leBytes 8 (minTokenOut expectedTokenOut) ++ leBytes 8 maxQuote

/-- The data of the sale: the least to be had for all tokens, or all tokens and the least to be
had. -/
def saleData (tokenBalance minSolOut : Nat) (wsolIsBase : Bool) : List UInt8 :=
  if wsolIsBase then
    buyDiscriminator ++ leBytes 8 minSolOut ++ leBytes 8 tokenBalance
  else sellDiscriminator ++ leBytes 8 tokenBalance ++ leBytes 8 minSolOut

/-- The reserves a buy is quoted on: those read, else those assumed. -/
def reservesUsed (answer : VaultsAnswer) (wsolIsBase : Bool) : Nat × Nat :=
  (readReserves answer wsolIsBase).getD assumedReserves

/-- The buy's limit is half of the constant-product output over unbounded integers. -/
structure BuyHolds (answer : VaultsAnswer) (wsolAmountIn : Nat) (wsolIsBase : Bool) : Prop where
  expected : computeTokenOutput answer wsolAmountIn wsolIsBase =
    output (reservesUsed answer wsolIsBase).1 (reservesUsed answer wsolIsBase).2 wsolAmountIn
  below : computeTokenOutput answer wsolAmountIn wsolIsBase < (reservesUsed answer wsolIsBase).2
  limit : minTokenOut (computeTokenOutput answer wsolAmountIn wsolIsBase) =
    computeTokenOutput answer wsolAmountIn wsolIsBase * (10000 - slippageBps) / 10000

/-- The same of the sale, at the poll the monitor ends with. -/
structure SaleHolds (position : Position) (exit : Exit) (minSolOut : Nat) : Prop where
  expected : exit.finalSolOut =
    output exit.poll.token.reading exit.poll.wsol.reading position.tokenBalance
  below : exit.finalSolOut < exit.poll.wsol.reading
  limit : minSolOut = exit.finalSolOut * (10000 - 3000) / 10000

def SalesHold (position : Position) (polls : List Poll) : Prop :=
  ∀ exit, monitor position polls = .error exit →
    ∀ reason minSolOut, dispose position exit = .sold reason minSolOut →
      SaleHolds position exit minSolOut

/-! When the slippage fits: half of at most 3689348814741910, or 70 % of at most
2635249153387078. -/

def BuyFits (answer : VaultsAnswer) (wsolAmountIn : Nat) (wsolIsBase : Bool) : Prop :=
  (reservesUsed answer wsolIsBase).2 * wsolAmountIn <
    3689348814741911 * ((reservesUsed answer wsolIsBase).1 + wsolAmountIn)

def SalesFit (position : Position) (polls : List Poll) : Prop :=
  ∀ exit, monitor position polls = .error exit →
    0 < exit.poll.wsol.reading → 0 < exit.poll.token.reading →
      exit.poll.wsol.reading * position.tokenBalance <
        2635249153387079 * (exit.poll.token.reading + position.tokenBalance)

/-- A wrapped product loses more than the division forgives. -/
theorem wrap_div_eq_iff (product : Nat) :
    wrap 64 product / 10000 = product / 10000 ↔ product < 2 ^ 64 := by
  rw [wrap]
  omega

theorem minTokenOut_eq_iff (expected : Nat) :
    minTokenOut expected = expected * (10000 - slippageBps) / 10000 ↔
      expected < 3689348814741911 := by
  rw [minTokenOut, wrap_div_eq_iff, slippageBps]
  omega

/-- Balances are of 64 bits and positive. -/
theorem reservesUsed_spec (answer : VaultsAnswer) (wsolIsBase : Bool) :
    0 < (reservesUsed answer wsolIsBase).1 ∧ 0 < (reservesUsed answer wsolIsBase).2 ∧
      (reservesUsed answer wsolIsBase).2 < 2 ^ 64 := by
  have assumed : 0 < assumedReserves.1 ∧ 0 < assumedReserves.2 ∧ assumedReserves.2 < 2 ^ 64 := by
    decide
  cases answer with
  | notSent => exact assumed
  | notJson => exact assumed
  | accounts base quote =>
      have small : ∀ text : Option String,
          (extractTokenBalance (.account text)).getD 0 < 2 ^ 64 := by
        intro text
        cases parsed : extractTokenBalance (.account text) with
        | none => exact Nat.two_pow_pos 64
        | some amount =>
            rcases Option.bind_eq_some_iff.mp parsed with ⟨digits, -, read⟩
            have bound := parseU64_le digits amount read
            rw [u64Max] at bound
            rw [Option.getD_some]
            omega
      rw [reservesUsed, readReserves]
      split
      · next filled =>
          cases wsolIsBase with
          | true => exact ⟨filled.1, filled.2, small quote⟩
          | false => exact ⟨filled.2, filled.1, small base⟩
      · exact assumed

/-- Both paths give the constant-product output: no product of words passes 128 bits. -/
theorem computeTokenOutput_eq (answer : VaultsAnswer) (wsolAmountIn : Nat) (wsolIsBase : Bool)
    (small : wsolAmountIn < 2 ^ 64) :
    computeTokenOutput answer wsolAmountIn wsolIsBase =
      output (reservesUsed answer wsolIsBase).1 (reservesUsed answer wsolIsBase).2
        wsolAmountIn := by
  rcases reservesUsed_spec answer wsolIsBase with ⟨filled, stocked, tokenSmall⟩
  have below := output_lt _ _ wsolAmountIn filled stocked
  rw [reservesUsed] at tokenSmall below ⊢
  rw [computeTokenOutput]
  generalize readReserves answer wsolIsBase = read at tokenSmall below ⊢
  cases read with
  | none =>
      rw [Option.getD_none] at tokenSmall below ⊢
      dsimp only
      rw [fallbackTokenOutput, Nat.mul_comm assumedReserves.2, ← output]
      exact wrap_of_lt 64 _ (below.trans tokenSmall)
  | some reserves =>
      rw [Option.getD_some] at tokenSmall below ⊢
      dsimp only
      have product : reserves.2 * wsolAmountIn < 2 ^ 128 := by
        calc reserves.2 * wsolAmountIn ≤ (2 ^ 64 - 1) * (2 ^ 64 - 1) :=
              Nat.mul_le_mul (by omega) (by omega)
          _ < 2 ^ 128 := by norm_num
      rw [checkedMul, if_pos product, Option.getD_some, Nat.mul_comm reserves.2, ← output]
      exact wrap_of_lt 64 _ (below.trans tokenSmall)

/-- A buy's limit is exact exactly if its expected output is below the bound. -/
theorem buyHolds_iff (answer : VaultsAnswer) (wsolAmountIn : Nat) (wsolIsBase : Bool)
    (small : wsolAmountIn < 2 ^ 64) :
    BuyHolds answer wsolAmountIn wsolIsBase ↔ BuyFits answer wsolAmountIn wsolIsBase := by
  have expected := computeTokenOutput_eq answer wsolAmountIn wsolIsBase small
  rcases reservesUsed_spec answer wsolIsBase with ⟨filled, stocked, -⟩
  have below := output_lt (reservesUsed answer wsolIsBase).1 (reservesUsed answer wsolIsBase).2
    wsolAmountIn filled stocked
  have fits : output (reservesUsed answer wsolIsBase).1 (reservesUsed answer wsolIsBase).2
      wsolAmountIn < 3689348814741911 ↔ BuyFits answer wsolAmountIn wsolIsBase := by
    rw [output, Nat.div_lt_iff_lt_mul (by omega), Nat.mul_comm wsolAmountIn, BuyFits]
  rw [← fits, ← expected, ← minTokenOut_eq_iff]
  constructor
  · exact BuyHolds.limit
  · intro limit
    refine ⟨expected, ?_, limit⟩
    rw [expected]
    exact below

/-- Where the vaults cannot be read, the limit is always exact. -/
theorem buyFits_of_fallback (answer : VaultsAnswer) (wsolAmountIn : Nat) (wsolIsBase : Bool)
    (unread : readReserves answer wsolIsBase = none) :
    BuyFits answer wsolAmountIn wsolIsBase := by
  rw [BuyFits, reservesUsed, unread, Option.getD_none, assumedReserves]
  dsimp only
  omega

theorem sold_iff (position : Position) (exit : Exit) (reason : SellReason) (minSolOut : Nat) :
    dispose position exit = .sold reason minSolOut ↔
      ¬ exit.finalSolOut < 5000 ∧ reason = exit.reason ∧
        minSolOut = wrap 64 (exit.finalSolOut * (10000 - 3000)) / 10000 := by
  rw [dispose]
  split
  · next little => simp [little]
  · next enough => simp [enough, eq_comm]

/-- The second amount after a discriminator, -/
theorem amount_last (discriminator : List UInt8) (traded limit : Nat)
    (eight : discriminator.length = 8) (small : limit < 2 ^ 64) :
    ofLeBytes (((discriminator ++ leBytes 8 traded ++ leBytes 8 limit).drop 16).take 8) =
      limit := by
  have front : (discriminator ++ leBytes 8 traded).length = 16 := by
    rw [List.length_append, leBytes_length, eight]
  have read := ofLeBytes_at (discriminator ++ leBytes 8 traded) [] limit small
  rw [front, List.append_nil] at read
  exact read

/-- and the first. -/
theorem amount_first (discriminator : List UInt8) (limit traded : Nat)
    (eight : discriminator.length = 8) (small : limit < 2 ^ 64) :
    ofLeBytes (((discriminator ++ leBytes 8 limit ++ leBytes 8 traded).drop 8).take 8) =
      limit := by
  have read := ofLeBytes_at discriminator (leBytes 8 traded) limit small
  rw [eight, ← List.append_assoc] at read
  exact read

/-- The limit stands in the data of the buy, -/
theorem limit_of_buyData (snipeLamports expectedTokenOut : Nat) (wsolIsBase : Bool) :
    ofLeBytes (((buyData snipeLamports expectedTokenOut wsolIsBase).drop
      (if wsolIsBase then 16 else 8)).take 8) = minTokenOut expectedTokenOut := by
  have small : minTokenOut expectedTokenOut < 2 ^ 64 := by
    rw [minTokenOut, wrap]
    omega
  cases wsolIsBase with
  | true => exact amount_last sellDiscriminator snipeLamports _ rfl small
  | false => exact amount_first buyDiscriminator _ _ rfl small

/-- and in that of the sale. -/
theorem limit_of_saleData (position : Position) (exit : Exit) (reason : SellReason)
    (minSolOut : Nat) (wsolIsBase : Bool)
    (sold : dispose position exit = .sold reason minSolOut) :
    ofLeBytes (((saleData position.tokenBalance minSolOut wsolIsBase).drop
      (if wsolIsBase then 8 else 16)).take 8) = minSolOut := by
  have small : minSolOut < 2 ^ 64 := by
    rw [(sold_iff position exit reason minSolOut).mp sold |>.2.2, wrap]
    omega
  cases wsolIsBase with
  | true => exact amount_first buyDiscriminator minSolOut position.tokenBalance rfl small
  | false => exact amount_last sellDiscriminator position.tokenBalance minSolOut rfl small

/-- The lamports quoted at the poll a sale is made on. -/
theorem quoted_of_ended (position : Position) (polls : List Poll) (exit : Exit)
    (ended : monitor position polls = .error exit) :
    exit.finalSolOut = obtainable position.tokenBalance exit.poll.wsol.reading
      exit.poll.token.reading := by
  rcases (Runs.foldlM_error_iff (poll position) .start polls exit).mp ended with
    ⟨before, input, later, state, -, -, stopped⟩
  rcases (poll_error_iff position state input exit).mp stopped with ⟨rule, -, same⟩
  have fits : input.wsol.reading ≤ u64Max := by
    by_cases succeeded : input.wsol.Succeeded
    · exact (input.wsol.reading_of_succeeded succeeded).2
    · rw [input.wsol.reading_of_failed succeeded]
      exact Nat.zero_le _
  rw [same]
  exact solOut_eq_obtainable position.tokenBalance input.wsol.reading input.token.reading fits

/-- A sale's limit is exact exactly if the lamports expected are below the bound. -/
theorem saleHolds_iff (position : Position) (polls : List Poll) (exit : Exit)
    (ended : monitor position polls = .error exit) (reason : SellReason) (minSolOut : Nat)
    (sold : dispose position exit = .sold reason minSolOut) :
    SaleHolds position exit minSolOut ↔ exit.finalSolOut < 2635249153387079 := by
  rcases (sold_iff position exit reason minSolOut).mp sold with ⟨enough, -, least⟩
  have quoted := quoted_of_ended position polls exit ended
  have filled : 0 < exit.poll.wsol.reading ∧ 0 < exit.poll.token.reading := by
    by_contra empty
    rw [obtainable, if_neg empty] at quoted
    omega
  rw [obtainable, if_pos filled] at quoted
  have limit : minSolOut = exit.finalSolOut * (10000 - 3000) / 10000 ↔
      exit.finalSolOut < 2635249153387079 := by
    rw [least, wrap_div_eq_iff]
    omega
  rw [← limit]
  constructor
  · exact SaleHolds.limit
  · intro exact
    refine ⟨quoted, ?_, exact⟩
    rw [quoted]
    exact output_lt exit.poll.token.reading exit.poll.wsol.reading position.tokenBalance filled.2
      filled.1

/-- At any poll the monitor ends with, the products fit exactly if the lamports do. -/
theorem quote_fits_iff (position : Position) (polls : List Poll) (exit : Exit)
    (ended : monitor position polls = .error exit) :
    (0 < exit.poll.wsol.reading → 0 < exit.poll.token.reading →
      exit.poll.wsol.reading * position.tokenBalance <
        2635249153387079 * (exit.poll.token.reading + position.tokenBalance)) ↔
      exit.finalSolOut < 2635249153387079 := by
  rw [quoted_of_ended position polls exit ended, obtainable]
  split
  · next filled =>
      rw [output, Nat.div_lt_iff_lt_mul (by omega), Nat.mul_comm position.tokenBalance]
      exact ⟨fun fits => fits filled.1 filled.2, fun fits _ _ => fits⟩
  · next empty =>
      constructor
      · intro _
        norm_num
      · intro _ wsol token
        exact absurd ⟨wsol, token⟩ empty

/-- Every sale of a run has its exact limit exactly if the quote it ends with fits: one that is
burned is far below. -/
theorem salesHold_iff (position : Position) (polls : List Poll) :
    SalesHold position polls ↔ SalesFit position polls := by
  constructor
  · intro holds exit ended
    rw [quote_fits_iff position polls exit ended]
    by_cases little : exit.finalSolOut < 5000
    · omega
    · have sold := (sold_iff position exit _ _).mpr ⟨little, rfl, rfl⟩
      exact (saleHolds_iff position polls exit ended _ _ sold).mp
        (holds exit ended _ _ sold)
  · intro fits exit ended reason minSolOut sold
    rw [saleHolds_iff position polls exit ended reason minSolOut sold,
      ← quote_fits_iff position polls exit ended]
    exact fits exit ended

/-- The limits of a buy and of the sale after it are exact exactly if both quotes fit. -/
theorem limits_hold_iff (answer : VaultsAnswer) (wsolAmountIn : Nat) (wsolIsBase : Bool)
    (position : Position) (polls : List Poll) (small : wsolAmountIn < 2 ^ 64) :
    (BuyHolds answer wsolAmountIn wsolIsBase ∧ SalesHold position polls) ↔
      (BuyFits answer wsolAmountIn wsolIsBase ∧ SalesFit position polls) := by
  rw [buyHolds_iff answer wsolAmountIn wsolIsBase small, salesHold_iff]

/-- 85 SOL against 793 million tokens of six decimals. -/
def sixDecimals : VaultsAnswer := .accounts (some "793000000000000") (some "85000000000")

theorem limits_hold_iff_sixDecimals :
    (107000000 < 2 ^ 64) ∧
      ((BuyHolds sixDecimals 107000000 false ∧ SalesHold sniped [graduated]) ↔
        (BuyFits sixDecimals 107000000 false ∧ SalesFit sniped [graduated])) :=
  ⟨by decide, limits_hold_iff sixDecimals 107000000 false sniped [graduated] (by decide)⟩

/-- 85 SOL against a billion tokens of nine decimals. -/
def nineDecimals : VaultsAnswer := .accounts (some "1000000000000000000") (some "85000000000")

/-- For one SOL, a twentieth of the half is asked for. -/
theorem limit_wraps :
    computeTokenOutput nineDecimals 1000000000 false = 11627906976744186 ∧
      minTokenOut 11627906976744186 = 279930266259227 ∧
      ¬ BuyHolds nineDecimals 1000000000 false := by
  have quoted : computeTokenOutput nineDecimals 1000000000 false = 11627906976744186 := by
    decide +kernel
  have least : minTokenOut 11627906976744186 = 279930266259227 := by decide
  refine ⟨quoted, least, ?_⟩
  intro holds
  have limit := holds.limit
  rw [quoted, least, slippageBps] at limit
  omega

end Helios.SniperLimits
