import Mathlib.Tactic.Linarith
import Mathlib.Tactic.NormNum
import SuperAi.AiAgent.BoundedWeights

/-! # The backtest rail

A step is held back if the PnL of the last trades under the new weights is below `BACKTEST_REGRESSION_FLOOR` times
that under the old ones. Of a loss, nine tenths are a smaller loss: a step that cuts a loss by less than that is held
back too (`rail_iff`).
-/
namespace SuperAi.AiAgent
open SuperAi.Foundations
set_option autoImplicit false

/-- `labeled.slice(-50)` -/
def backtested (labeled : List LabeledTrade) : List LabeledTrade := labeled.drop (labeled.length - 50)

/-- No improvement is blocked, and every clear regression from a profit is. -/
def BlocksRegressions (oldPnl newPnl : ℚ) (blocked : Prop) : Prop :=
  (oldPnl ≤ newPnl → ¬ blocked) ∧ (0 < oldPnl → newPnl < BACKTEST_REGRESSION_FLOOR * oldPnl → blocked)

/-- A loss that shrinks by less than a tenth. -/
def SlightlySmallerLoss (oldPnl newPnl : ℚ) : Prop :=
  oldPnl < 0 ∧ oldPnl ≤ newPnl ∧ newPnl < BACKTEST_REGRESSION_FLOOR * oldPnl

/-- A call comes to the backtest. -/
structure LearnerTables.Backtests (t : LearnerTables) (i : RecomputeInput) : Prop where
  flag : i.flag = true
  enabled : i.enabled = some true
  learned : (t.rows.get i.userId).any UserConvictionWeights.manualOverride = false
  samples : MIN_SAMPLES ≤ (loadLabeledTrades i.trades).length

/-- The `skipped` field of what a call returns. -/
def RecomputeResult.skipped? : RecomputeResult → Option String
  | .skipped reason _ => some reason
  | .rejected _ _ _ => some "backtest_regression"
  | .applied _ _ _ _ => none

/-! ## The rail -/

section Rail
variable (labeled : List LabeledTrade) (wOld wNew : ConvictionWeightVector)

/-- With an old PnL of zero both sides are anchored, and nothing is rejected. -/
theorem rejects_iff : rejects labeled wOld wNew = true ↔ pnlUnder (backtested labeled) wOld ≠ 0 ∧
    pnlUnder (backtested labeled) wNew < BACKTEST_REGRESSION_FLOOR * pnlUnder (backtested labeled) wOld := by
  change decide ((simulatePnl (backtested labeled) wOld wNew).2 <
    (simulatePnl (backtested labeled) wOld wNew).1 * BACKTEST_REGRESSION_FLOOR) = true ↔ _
  rw [decide_eq_true_iff, mul_comm BACKTEST_REGRESSION_FLOOR]
  unfold simulatePnl
  dsimp only
  by_cases hold : pnlUnder (backtested labeled) wOld = 0
  · have hfloor : BACKTEST_REGRESSION_FLOOR ≤ 1 := by
      unfold BACKTEST_REGRESSION_FLOOR
      norm_num
    split_ifs
    · simp [hold, hfloor]
    · simp [hold, hfloor]
    · simp [hold]
  · simp [hold]

theorem blocksRegressions_iff :
    BlocksRegressions (pnlUnder (backtested labeled) wOld) (pnlUnder (backtested labeled) wNew)
      (rejects labeled wOld wNew = true) ↔
    ¬ SlightlySmallerLoss (pnlUnder (backtested labeled) wOld) (pnlUnder (backtested labeled) wNew) := by
  rw [rejects_iff]
  generalize pnlUnder (backtested labeled) wOld = oldPnl
  generalize pnlUnder (backtested labeled) wNew = newPnl
  unfold BlocksRegressions SlightlySmallerLoss BACKTEST_REGRESSION_FLOOR
  constructor
  · rintro ⟨himproved, -⟩ ⟨hloss, hle, hlt⟩
    exact himproved hle ⟨hloss.ne, hlt⟩
  · intro hrare
    constructor
    · rintro hle ⟨hne, hlt⟩
      -- a profit that does not fall is not below nine tenths of itself
      have hloss : oldPnl < 0 := by
        apply lt_of_le_of_ne _ hne
        linarith
      exact hrare ⟨hloss, hle, hlt⟩
    · intro hprofit hlt
      exact ⟨hprofit.ne', hlt⟩

end Rail

/-! ## Calls -/

section Calls
variable (cfg : LearnerConfig) (t : LearnerTables) (i : RecomputeInput)

theorem skipped_eq_iff : (recomputeWeights cfg t i).1.skipped? = some "backtest_regression" ↔
    t.Backtests i ∧ rejects (loadLabeledTrades i.trades) (t.weightsOf i.userId)
      (nextWeights cfg (t.weightsOf i.userId) (loadLabeledTrades i.trades)) = true := by
  unfold recomputeWeights
  by_cases hflag : i.flag = true
  · by_cases henabled : i.enabled = some true
    · by_cases hmanual : (t.rows.get i.userId).any UserConvictionWeights.manualOverride = true
      · have hnot : ¬ t.Backtests i := fun h => by simp [h.learned] at hmanual
        simp [hflag, henabled, hmanual, hnot, RecomputeResult.skipped?]
      · by_cases hsamples : (loadLabeledTrades i.trades).length < MIN_SAMPLES
        · have hnot : ¬ t.Backtests i := fun h => absurd h.samples (Nat.not_le.mpr hsamples)
          simp [hflag, henabled, hmanual, hsamples, hnot, RecomputeResult.skipped?]
        · have hreached : t.Backtests i :=
            ⟨hflag, henabled, Bool.eq_false_iff.mpr hmanual, Nat.not_lt.mp hsamples⟩
          simp only [hflag, henabled, hmanual, hsamples, hreached, Bool.not_true, ne_eq, not_true_eq_false,
            Bool.false_eq_true, if_false, true_and]
          split_ifs with hrejects
          · simp [RecomputeResult.skipped?, hrejects]
          · simp [RecomputeResult.skipped?, hrejects]
    · have hnot : ¬ t.Backtests i := fun h => henabled h.enabled
      simp [hflag, henabled, hnot, RecomputeResult.skipped?]
  · have hnot : ¬ t.Backtests i := fun h => hflag h.flag
    simp [hflag, hnot, RecomputeResult.skipped?]

/-- A call that comes to the backtest is skipped by it just if the rail rejects, and for any history and any two weight
vectors the rail blocks the regressions only, unless the new weights make a slightly smaller loss of a loss. -/
theorem rail_iff : ((recomputeWeights cfg t i).1.skipped? = some "backtest_regression" ↔
      t.Backtests i ∧ rejects (loadLabeledTrades i.trades) (t.weightsOf i.userId)
        (nextWeights cfg (t.weightsOf i.userId) (loadLabeledTrades i.trades)) = true) ∧
    ∀ (labeled : List LabeledTrade) (wOld wNew : ConvictionWeightVector),
      BlocksRegressions (pnlUnder (backtested labeled) wOld) (pnlUnder (backtested labeled) wNew)
        (rejects labeled wOld wNew = true) ↔
      ¬ SlightlySmallerLoss (pnlUnder (backtested labeled) wOld) (pnlUnder (backtested labeled) wNew) :=
  ⟨skipped_eq_iff cfg t i, blocksRegressions_iff⟩

end Calls

/-! ## A smaller loss, rejected -/

/-- A trade with `security`, `liquidity` and `momentum` at one value and the other two factors at another. -/
def pairedTrade (odd even priceDeltaPct pnlUsd : ℤ) : TradeRow :=
  let num (n : ℤ) : JsonValue := .num (JsNumber.ofInt n)
  { convictionBreakdown := .obj [("security", num odd), ("holders", num even), ("liquidity", num odd),
      ("sentiment", num even), ("momentum", num odd), ("convictionTotal", num 5)]
    outcome1h := some (.obj [("priceDeltaPct", num priceDeltaPct)])
    pnlUsd := some (pnlUsd : ℚ) }

/-- Twelve losing trades that the new weights do not make, and one that they still make. -/
def lossyHistory : RecomputeInput where
  userId := "ann"
  trigger := .manual
  flag := true
  enabled := some true
  trades := pairedTrade 1 1 (-5) (-200) ::
    (List.replicate 12 (pairedTrade 0 1 5 0) ++ List.replicate 12 (pairedTrade 1 0 (-5) (-1)))
  now := 0

/-- The simulated PnL goes from -212 to -200, and the step is skipped. -/
theorem lossyHistory_skipped : ¬ ∀ (cfg : LearnerConfig) (t : LearnerTables) (i : RecomputeInput), t.Backtests i →
    BlocksRegressions (pnlUnder (backtested (loadLabeledTrades i.trades)) (t.weightsOf i.userId))
      (pnlUnder (backtested (loadLabeledTrades i.trades))
        (nextWeights cfg (t.weightsOf i.userId) (loadLabeledTrades i.trades)))
      ((recomputeWeights cfg t i).1.skipped? = some "backtest_regression") := by
  intro h
  have hbacktests : ({} : LearnerTables).Backtests lossyHistory := ⟨rfl, rfl, rfl, by decide +kernel⟩
  have hpnl : pnlUnder (backtested (loadLabeledTrades lossyHistory.trades)) DEFAULT_CONVICTION_WEIGHTS ≤
      pnlUnder (backtested (loadLabeledTrades lossyHistory.trades))
        (nextWeights sqrtOfSquare DEFAULT_CONVICTION_WEIGHTS (loadLabeledTrades lossyHistory.trades)) := by
    decide +kernel
  have hskipped : (recomputeWeights sqrtOfSquare {} lossyHistory).1.skipped? = some "backtest_regression" := by
    decide +kernel
  exact (h sqrtOfSquare {} lossyHistory hbacktests).1 hpnl hskipped

end SuperAi.AiAgent
