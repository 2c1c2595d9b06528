import Mathlib.Algebra.Order.Ring.Rat
import Mathlib.Algebra.BigOperators.Group.List.Basic
import Mathlib.Tactic.Basic

/-! # Exit signals

The pure signal functions of the exit engine (`exit-engine/exit-engine.signals.ts`). Prices,
percentages and market caps are exact rationals, so every number that reaches these functions is
finite; the square root of the volatility estimate is a parameter.
-/
namespace SuperAi.ExitEngine
set_option autoImplicit false

structure ExitSignalConfig where
  minTrailingPct : ℚ := 12
  maxTrailingPct : ℚ := 50
  volSensitivity : ℚ := 3 / 2
  liqDrainDropPct : ℚ := 60
  minLiqToMcapRatio : ℚ := 1 / 50
  momentumDropPct5m : ℚ := 25
  deriving DecidableEq, Repr

/-- Append a value to a rolling window, keeping at most `cap` most recent entries. -/
def pushWindow (window : List ℚ) (value : ℚ) (cap : ℕ) : List ℚ :=
  if value ≤ 0 then window else
    let next := window ++ [value]
    if cap < next.length then next.drop (next.length - cap) else next

/-- The tick-to-tick relative changes, leaving out those that start from a non-positive value. -/
def returns : List ℚ → List ℚ
  | prev :: next :: rest =>
    if 0 < prev then (next - prev) / prev :: returns (next :: rest) else returns (next :: rest)
  | _ => []

def realizedVolatilityPct (sqrt : ℚ → ℚ) (window : List ℚ) : ℚ :=
  if window.length < 3 then 0 else
    let rets := returns window
    if rets.length < 2 then 0 else
      let mean := rets.sum / rets.length
      let variance := (rets.map fun r => ((r - mean) ^ 2 : ℚ)).sum / rets.length
      sqrt variance * 100

def adaptiveTrailingPct (baseTrailingPct volPct : ℚ) (cfg : ExitSignalConfig) : ℚ :=
  let widened := baseTrailingPct + volPct * cfg.volSensitivity
  min cfg.maxTrailingPct (max cfg.minTrailingPct widened)

def liquidityDrainTriggered (currentLiqUsd peakLiqUsd : ℚ) (cfg : ExitSignalConfig) : Bool :=
  if ¬ 0 < peakLiqUsd ∨ ¬ 0 ≤ currentLiqUsd then false
  else decide (currentLiqUsd < peakLiqUsd * (1 - cfg.liqDrainDropPct / 100))

def thinLiquidity (liqUsd mcapUsd : ℚ) (cfg : ExitSignalConfig) : Bool :=
  if ¬ 0 < mcapUsd ∨ ¬ 0 ≤ liqUsd then false
  else decide (liqUsd / mcapUsd < cfg.minLiqToMcapRatio)

def momentumReversal (priceChange5mPct : Option ℚ) (inProfit : Bool) (cfg : ExitSignalConfig) : Bool :=
  match inProfit, priceChange5mPct with
  | true, some change => decide (change ≤ -cfg.momentumDropPct5m)
  | _, _ => false

end SuperAi.ExitEngine
