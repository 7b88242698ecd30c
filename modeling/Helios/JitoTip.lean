import Helios.FastArb

/-! The tip behind a transaction against the profit the executor counts on. The market's floor
and the share of the profit are taken at their larger, and only then capped. -/

namespace Helios.JitoTip

open FastArb FlashSequence Machine TxBuilder

/-- The lamports the last instruction of a transaction moves. -/
def attachedTip (instructions : List Instruction) : Nat :=
  match instructions.getLast? with
  | some tip => ofLeBytes ((tip.data.drop 4).take 8)
  | none => 0

/-- The percentile floor leaves a part of a profit: the configured tip, or else what was read off
the API, not below the minimum tip nor above the maximum. -/
def FloorBelow (sender : JitoSender) (profit : Int) : Prop :=
  if 0 < sender.tipLamportsOverride then (sender.tipLamportsOverride : Int) < profit
  else (maxTipLamports : Int) < profit ∨
    ((sender.dynamicTip : Int) < profit ∧ (minTipLamports : Int) < profit)

instance (sender : JitoSender) (profit : Int) : Decidable (FloorBelow sender profit) := by
  unfold FloorBelow
  infer_instance

theorem currentTip_lt_iff (sender : JitoSender) (profit : Int) :
    (sender.currentTip : Int) < profit ↔ FloorBelow sender profit := by
  rw [JitoSender.currentTip, FloorBelow]
  split
  · exact Iff.rfl
  · simp only [maxTipLamports, minTipLamports]
    omega

theorem attachedTip_transfer (front : List Instruction) (payer receiver : Pubkey) (lamports : Nat)
    (small : lamports < 2 ^ 64) :
    attachedTip (front ++ [transfer payer receiver lamports]) = lamports := by
  have read := ofLeBytes_at [2, 0, 0, 0] [] lamports small
  rw [attachedTip, List.getLast?_concat]
  rw [List.append_nil] at read
  exact read

section Tips

variable {F : Type} [FloatArith F] (powf : F → F → F) (executor : Executor F)

omit [FloatArith F] in
theorem tipPct_le (route : RouteParams F) : tipPct route ≤ 30 := by
  rw [tipPct]
  split
  · exact le_rfl
  · split
    all_goals norm_num

omit [FloatArith F] in
theorem tipLamports_lt (sender : JitoSender) (route : RouteParams F) :
    tipLamports sender route < 2 ^ 64 := by
  rw [tipLamports]
  omega

omit [FloatArith F] in
/-- The share is below the profit, so the floor alone decides up to the cap. -/
theorem tipLamports_lt_iff (sender : JitoSender) (route : RouteParams F) :
    (tipLamports sender route : Int) < route.netProfit ↔
      2000000 < route.netProfit ∨ FloorBelow sender route.netProfit := by
  have percent := tipPct_le route
  have share : saturatingMul64 (max route.netProfit 0).toNat (tipPct route) ≤
      (max route.netProfit 0).toNat * 30 := by
    rw [saturatingMul64]
    exact le_trans (min_le_left _ _) (Nat.mul_le_mul_left _ percent)
  rw [← currentTip_lt_iff, tipLamports]
  generalize saturatingMul64 (max route.netProfit 0).toNat (tipPct route) = product at share ⊢
  omega

omit [FloatArith F] in
theorem attempt_some (blockhash : Pubkey) (built : Except TxError (List Instruction))
    (instructions : List Instruction) (tx : List UInt8)
    (done : attempt executor blockhash built = some (instructions, tx)) :
    built = .ok instructions := by
  cases built with
  | error failed => cases done
  | ok listed =>
      rcases Option.map_eq_some_iff.mp done with ⟨compiled, _, same⟩
      cases same
      rfl

/-- The tip stands last in a transaction of a route. -/
theorem attachedTip_of_built (plan : TxPlan F) (provider : FlashProvider)
    (receiver : Pubkey) (lamports : Nat) (instructions : List Instruction)
    (small : lamports < 2 ^ 64) (own : plan.isJupiter = false)
    (built : buildTx powf executor.flash executor.builder plan provider
      (some (transfer executor.builder.payer receiver lamports)) = .ok instructions) :
    attachedTip instructions = lamports := by
  rcases buildTx_ok powf _ _ plan provider _ instructions built with ⟨before, ixs, _, _, _, same, _⟩
  have last : tipOf plan provider (some (transfer executor.builder.payer receiver lamports)) =
      [transfer executor.builder.payer receiver lamports] := by
    rw [tipOf, own]
    rfl
  rw [same, last]
  exact attachedTip_transfer (before ++ ixs) executor.builder.payer receiver lamports small

theorem sendFast_tip (moment : Moment) (route : RouteParams F) (sent : Sent F)
    (done : sendFast powf executor moment route = some sent) :
    attachedTip sent.instructions = tipLamports executor.sender sent.route := by
  have small := tipLamports_lt executor.sender route
  rw [(sendFast_gate powf executor moment route sent done).2]
  rw [sendFast] at done
  split at done
  · cases done
  dsimp only at done
  split at done
  · cases done
  split at done
  · next instructions tx found =>
      split at done
      · cases done
      cases done
      split at found
      · next listed direct =>
          cases found
          exact attachedTip_of_built powf executor
            (.direct executor.fees route moment.poolCache moment.tokenPrograms) .marginFi _ _ _
            small rfl (attempt_some executor _ _ _ _ direct)
      · exact attachedTip_of_built powf executor
          (.helios executor.fees route moment.poolCache moment.tokenPrograms) .marginFi _ _ _
          small rfl (attempt_some executor _ _ _ _ found)
  · cases done

theorem currentTip_lt (sender : JitoSender) (small : sender.tipLamportsOverride < 2 ^ 64) :
    sender.currentTip < 2 ^ 64 := by
  rw [JitoSender.currentTip, maxTipLamports]
  split
  · exact small
  · omega

theorem sendSlow_tip (moment : Moment) (route : RouteParams F) (sent : Sent F)
    (small : executor.sender.tipLamportsOverride < 2 ^ 64)
    (done : sendSlow powf executor moment route = some sent) :
    attachedTip sent.instructions = executor.sender.currentTip := by
  rw [sendSlow] at done
  split at done
  · cases done
  split at done
  · cases done
  · next provider winner =>
      split at done
      · next instructions tx found =>
          split at done
          · cases done
          cases done
          exact attachedTip_of_built powf executor
            (.helios executor.fees route moment.poolCache moment.tokenPrograms) provider _ _ _
            (currentTip_lt executor.sender small) rfl (attempt_some executor _ _ _ _ found)
      · cases done

/-- The tip leaves a part of the profit exactly if the floor does. Past the cap of the fast path
the floor no longer counts. -/
theorem tip_below_profit_iff (moment : Moment) (route : RouteParams F) (sent : Sent F)
    (small : executor.sender.tipLamportsOverride < 2 ^ 64)
    (done : process powf executor moment route = some sent) :
    (attachedTip sent.instructions : Int) < sent.route.netProfit ↔
      FloorBelow executor.sender sent.route.netProfit ∨
        (executor.fastArbEnabled = true ∧ executor.dryRun = false ∧
          2000000 < sent.route.netProfit) := by
  rw [process] at done
  split at done
  · cases done
  split at done
  · next fast =>
      rw [Bool.and_eq_true, Bool.not_eq_true'] at fast
      rw [sendFast_tip powf executor moment _ sent done, tipLamports_lt_iff, or_comm]
      constructor
      · rintro (below | past)
        · exact Or.inl below
        · exact Or.inr ⟨fast.1, fast.2, past⟩
      · rintro (below | ⟨-, -, past⟩)
        · exact Or.inl below
        · exact Or.inr past
  · next slow =>
      rw [sendSlow_tip powf executor moment route sent small done, currentTip_lt_iff]
      apply (or_iff_left _).symm
      rintro ⟨enabled, live, -⟩
      rw [enabled, live] at slow
      exact slow rfl

end Tips

/-- A route recorded at 20000, above a minimum of 10000 and below the default floor of 50000. -/
def slimRoute : RouteParams Double := { FastArb.staleRoute with netProfit := 20000 }

theorem slimRoute_sent :
    (process (fun base _ => base) sampleExecutor sampleMoment slimRoute).isSome = true := by
  decide +kernel

/-- The floor is attached to a profit of less than half of it. -/
theorem floor_above_profit :
    ∃ sent, process (fun base _ => base) sampleExecutor sampleMoment slimRoute = some sent ∧
      sampleExecutor.minProfit < sent.route.netProfit ∧ sent.route.netProfit = 20000 ∧
      attachedTip sent.instructions = 50000 := by
  have evaluated : ((process (fun base _ => base) sampleExecutor sampleMoment slimRoute).map
      (fun sent => (sent.route.netProfit, attachedTip sent.instructions))) =
        some (20000, 50000) := by
    decide +kernel
  rcases Option.map_eq_some_iff.mp evaluated with ⟨sent, done, values⟩
  rw [Prod.mk.injEq] at values
  exact ⟨sent, done, by rw [values.1]; decide, values.1, values.2⟩

theorem slimRoute_tip :
    ∃ sent, process (fun base _ => base) sampleExecutor sampleMoment slimRoute = some sent ∧
      ((attachedTip sent.instructions : Int) < sent.route.netProfit ↔
        FloorBelow sampleExecutor.sender sent.route.netProfit ∨
          (sampleExecutor.fastArbEnabled = true ∧ sampleExecutor.dryRun = false ∧
            2000000 < sent.route.netProfit)) := by
  rcases Option.isSome_iff_exists.mp slimRoute_sent with ⟨sent, done⟩
  exact ⟨sent, done, tip_below_profit_iff (fun base _ => base) sampleExecutor sampleMoment slimRoute
    sent (by decide) done⟩

end Helios.JitoTip
