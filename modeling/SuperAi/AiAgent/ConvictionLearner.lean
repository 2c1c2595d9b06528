import SuperAi.Foundations.BandedStep
import SuperAi.Foundations.JsonAccess
import SuperAi.Foundations.KeyValue
import SuperAi.Foundations.StepSystem

/-! # The conviction learner

`ConvictionLearnerService` (`ai-agent/conviction-learner.service.ts`), in exact arithmetic. `Math.sqrt` is a
parameter of which only the sign matters. A call of `recomputeWeights` is given what its queries answer.
-/
namespace SuperAi.AiAgent
open SuperAi.Foundations
set_option autoImplicit false

/-- The keys of a weight vector. -/
inductive ConvictionKey
  | security
  | holders
  | liquidity
  | sentiment
  | momentum
  deriving DecidableEq, Repr

instance : Fintype ConvictionKey where
  elems := {.security, .holders, .liquidity, .sentiment, .momentum}
  complete k := by cases k <;> simp

abbrev ConvictionWeightVector := ConvictionKey → ℚ

def DEFAULT_CONVICTION_WEIGHTS : ConvictionWeightVector
  | .security => 30 / 100
  | .holders => 20 / 100
  | .liquidity => 15 / 100
  | .sentiment => 20 / 100
  | .momentum => 15 / 100

def MIN_SAMPLES : ℕ := 20

def MAX_STEP : ℚ := 5 / 100

def WEIGHT_CLAMP_LO : ℚ := 5 / 100

def WEIGHT_CLAMP_HI : ℚ := 60 / 100

def BACKTEST_REGRESSION_FLOOR : ℚ := 9 / 10

structure LearnerConfig where
  sqrt : ℚ → ℚ
  sqrt_nonneg : ∀ x, 0 ≤ x → 0 ≤ sqrt x

/-! ## Labelled trades -/

/-- A row of the query, with the outcome of its episode. -/
structure TradeRow where
  convictionBreakdown : JsonValue
  outcome1h : Option JsonValue
  pnlUsd : Option ℚ

structure LabeledTrade where
  breakdown : ConvictionWeightVector
  winner : Bool
  pnlUsd : ℚ

def jsonNumber : Option JsonValue → Option ℚ
  | some (.num x) => some x.toRat
  | _ => none

def asBreakdown (raw : JsonValue) : Option ConvictionWeightVector := do
  let sec ← jsonNumber (property raw "security")
  let hol ← jsonNumber (property raw "holders")
  let liq ← jsonNumber (property raw "liquidity")
  let sen ← jsonNumber (property raw "sentiment")
  let mom ← jsonNumber (property raw "momentum")
  let _ ← jsonNumber (property raw "convictionTotal")
  return fun
    | .security => sec
    | .holders => hol
    | .liquidity => liq
    | .sentiment => sen
    | .momentum => mom

def extractLabel (outcome1h : Option JsonValue) (pnlUsd : Option ℚ) : Option (Bool × ℚ) :=
  match (outcome1h.bind fun outcome => property outcome "priceDeltaPct").bind finiteNumber with
  | some p => some (decide (0 ≤ p), pnlUsd.getD p)
  | none =>
    match pnlUsd with
    | none => none
    | some pnl => if pnl = 0 then none else some (decide (0 < pnl), pnl)

def label (t : TradeRow) : Option LabeledTrade := do
  let breakdown ← asBreakdown t.convictionBreakdown
  let (winner, pnlUsd) ← extractLabel t.outcome1h t.pnlUsd
  return { breakdown, winner, pnlUsd }

def loadLabeledTrades (trades : List TradeRow) : List LabeledTrade := (trades.filterMap label).take 100

/-! ## One step -/

def total (w : ConvictionWeightVector) : ℚ := w .security + w .holders + w .liquidity + w .sentiment + w .momentum

def renormalize (w : ConvictionWeightVector) : ConvictionWeightVector :=
  if total w ≤ 0 then DEFAULT_CONVICTION_WEIGHTS else fun k => w k / total w

def mean (arr : List LabeledTrade) (k : ConvictionKey) : ℚ :=
  if arr.length = 0 then 0 else (arr.map fun l => l.breakdown k).sum / arr.length

def computeEdgeVector (labeled : List LabeledTrade) : ConvictionWeightVector := fun k =>
  clamp (mean (labeled.filter fun l => l.winner) k - mean (labeled.filter fun l => !l.winner) k) (-1) 1

def learningRate (cfg : LearnerConfig) (n : ℕ) : ℚ := min MAX_STEP (20 / 100 * cfg.sqrt (n / 100))

/-- `wRaw`: the gradient step, clamped. -/
def gradientStep (cfg : LearnerConfig) (w : ConvictionWeightVector) (labeled : List LabeledTrade) :
    ConvictionWeightVector := fun k =>
  clamp (w k + learningRate cfg labeled.length * computeEdgeVector labeled k) WEIGHT_CLAMP_LO WEIGHT_CLAMP_HI

/-- `wNext`: the step is renormalised, cut to the band, and renormalised. -/
def nextWeights (cfg : LearnerConfig) (w : ConvictionWeightVector) (labeled : List LabeledTrade) :
    ConvictionWeightVector :=
  renormalize (banded w MAX_STEP (renormalize (gradientStep cfg w labeled)))

def blend (breakdown w : ConvictionWeightVector) : ℚ := total fun k => breakdown k * w k

/-- The PnL of the trades that the weights would have made. -/
def pnlUnder (labeled : List LabeledTrade) (w : ConvictionWeightVector) : ℚ :=
  ((labeled.filter fun l => decide (6 ≤ 1 + blend l.breakdown w * 9)).map LabeledTrade.pnlUsd).sum

def simulatePnl (labeled : List LabeledTrade) (wOld wNew : ConvictionWeightVector) : ℚ × ℚ :=
  let oldPnl := pnlUnder labeled wOld
  let newPnl := pnlUnder labeled wNew
  if oldPnl = 0 ∧ newPnl = 0 then (1, 1)
  else if oldPnl = 0 then (1, if 0 ≤ newPnl then 1 else BACKTEST_REGRESSION_FLOOR)
  else (oldPnl, newPnl)

/-- The backtest stops the step. -/
def rejects (labeled : List LabeledTrade) (wOld wNew : ConvictionWeightVector) : Bool :=
  let (oldPnl, newPnl) := simulatePnl (labeled.drop (labeled.length - 50)) wOld wNew
  newPnl < oldPnl * BACKTEST_REGRESSION_FLOOR

/-! ## Calls -/

inductive LearnerTrigger
  | cron
  | milestone
  | manual
  deriving DecidableEq, Repr

def LearnerTrigger.text : LearnerTrigger → String
  | .cron => "cron"
  | .milestone => "milestone"
  | .manual => "manual"

structure UserConvictionWeights where
  weights : ConvictionWeightVector
  version : ℕ
  sampleCount : ℕ := 0
  learnedAt : Option ℤ := none
  manualOverride : Bool := false

structure ConvictionWeightsHistory where
  userId : String
  version : ℕ
  weights : ConvictionWeightVector
  sampleCount : ℕ
  reason : String

inductive RecomputeResult
  | skipped (reason : String) (sampleCount : Option ℕ)
  | rejected (sampleCount : ℕ) (before after : ConvictionWeightVector)
  | applied (before after edge : ConvictionWeightVector) (sampleCount : ℕ)

structure LearnerTables where
  rows : KeyValue String UserConvictionWeights := []
  history : List ConvictionWeightsHistory := []

/-- The weights from which the next step of a user is made. -/
def LearnerTables.weightsOf (s : LearnerTables) (userId : String) : ConvictionWeightVector :=
  ((s.rows.get userId).map UserConvictionWeights.weights).getD DEFAULT_CONVICTION_WEIGHTS

def LearnerTables.versionOf (s : LearnerTables) (userId : String) : ℕ :=
  ((s.rows.get userId).map UserConvictionWeights.version).getD 1

/-- What a call finds beside the weights: the flag, `learningConfig.enabled`, and the trades. -/
structure RecomputeInput where
  userId : String
  trigger : LearnerTrigger
  flag : Bool
  enabled : Option Bool
  trades : List TradeRow
  now : ℤ

def recomputeWeights (cfg : LearnerConfig) (s : LearnerTables) (i : RecomputeInput) : RecomputeResult × LearnerTables :=
  if !i.flag then (.skipped "flag_off" none, s)
  else if i.enabled ≠ some true then (.skipped "learning_off" none, s)
  else if (s.rows.get i.userId).any UserConvictionWeights.manualOverride then (.skipped "manual_override" none, s)
  else
    let labeled := loadLabeledTrades i.trades
    if labeled.length < MIN_SAMPLES then (.skipped "insufficient_samples" labeled.length, s)
    else
      let w := s.weightsOf i.userId
      let wNext := nextWeights cfg w labeled
      if rejects labeled w wNext then
        (.rejected labeled.length w wNext,
          { s with history := s.history ++
              [⟨i.userId, s.versionOf i.userId, w, labeled.length, "rejected_backtest"⟩] })
      else
        let nextVersion := s.versionOf i.userId + 1
        let manualOverride := (s.rows.get i.userId).any UserConvictionWeights.manualOverride
        (.applied w wNext (computeEdgeVector labeled) labeled.length,
          { rows := s.rows.set i.userId
              { weights := wNext, version := nextVersion, sampleCount := labeled.length, learnedAt := some i.now
                manualOverride }
            history := s.history ++
              [⟨i.userId, nextVersion, wNext, labeled.length, "learner:" ++ i.trigger.text⟩] })

def reset (s : LearnerTables) (userId : String) : LearnerTables :=
  let nextVersion := s.versionOf userId + 1
  let sampleCount := ((s.rows.get userId).map UserConvictionWeights.sampleCount).getD 0
  { rows := s.rows.set userId { weights := DEFAULT_CONVICTION_WEIGHTS, version := nextVersion, sampleCount }
    history := s.history ++ [⟨userId, nextVersion, DEFAULT_CONVICTION_WEIGHTS, 0, "reset"⟩] }

/-! ## Runs -/

/-- The tables, and what the calls have returned. -/
structure Learner where
  tables : LearnerTables := {}
  results : List RecomputeResult := []

inductive LearnerStep
  | recomputeWeights (input : RecomputeInput)
  | reset (userId : String)

def Learner.step (cfg : LearnerConfig) (s : Learner) : LearnerStep → Option Learner
  | .recomputeWeights input =>
    let (result, tables) := AiAgent.recomputeWeights cfg s.tables input
    some { tables, results := s.results ++ [result] }
  | .reset userId => some { s with tables := AiAgent.reset s.tables userId }

def learner (cfg : LearnerConfig) : StepSystem Learner LearnerStep := ⟨Learner.step cfg⟩

end SuperAi.AiAgent
