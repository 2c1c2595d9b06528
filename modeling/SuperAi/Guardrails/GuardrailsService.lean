import SuperAi.Execution.Swap
import SuperAi.Foundations.Passes

/-! # Guardrails

`GuardrailsService` (`guardrails/guardrails.service.ts`): the limits that a user has set, and the check
of a trade against them and against the day's LIVE trades.
-/
namespace SuperAi.Guardrails
open SuperAi.Foundations SuperAi.Execution
set_option autoImplicit false

/-- A row of the table, with its defaults. -/
structure GuardrailConfig where
  perTradeUsd : ℚ := 500
  dailyUsd : ℚ := 2000
  maxSlippageBps : ℤ := 150
  whitelist : List String := []
  blacklist : List String := []
  killSwitch : Bool := false
  deriving DecidableEq, Repr

/-- The old default of 150 is too tight for volatile tokens. -/
def GuardrailConfig.upgraded (cfg : GuardrailConfig) : GuardrailConfig :=
  if cfg.maxSlippageBps ≤ 150 then { cfg with maxSlippageBps := 5000 } else cfg

/-- `config`: a user without a row gets one. -/
def config (row : Option GuardrailConfig) : GuardrailConfig :=
  (row.getD { maxSlippageBps := 5000, whitelist := [], blacklist := [] }).upgraded

/-- The fields that a request sets. -/
structure GuardrailPatch where
  perTradeUsd : Option ℚ := none
  dailyUsd : Option ℚ := none
  maxSlippageBps : Option ℤ := none
  whitelist : Option (List String) := none
  blacklist : Option (List String) := none
  killSwitch : Option Bool := none
  deriving DecidableEq, Repr

/-- `update`: the row as `config` leaves it, patched. -/
def update (row : Option GuardrailConfig) (patch : GuardrailPatch) : GuardrailConfig where
  perTradeUsd := patch.perTradeUsd.getD (config row).perTradeUsd
  dailyUsd := patch.dailyUsd.getD (config row).dailyUsd
  maxSlippageBps := patch.maxSlippageBps.getD (config row).maxSlippageBps
  whitelist := patch.whitelist.getD (config row).whitelist
  blacklist := patch.blacklist.getD (config row).blacklist
  killSwitch := patch.killSwitch.getD (config row).killSwitch

structure TradeIntent where
  userId : String
  tokenAddress : String
  notionalUsd : ℚ
  slippageBps : ℕ
  riskFlags : List String
  deriving DecidableEq, Repr

/-- The reasons of a refusal; the limits stand for `PER_TRADE_LIMIT_$500` and its like. -/
inductive Refusal
  | KILL_SWITCH_ON
  | TOKEN_BLACKLISTED
  | TOKEN_NOT_WHITELISTED
  | PER_TRADE_LIMIT (usd : ℚ)
  | SLIPPAGE_CAP (bps : ℤ)
  | HONEYPOT_FLAG
  | DAILY_CAP (usd : ℚ)
  deriving DecidableEq, Repr

/-! ## The day's trades -/

/-- The columns of a trade that count towards the daily cap. -/
structure TradeRecord where
  userId : String
  mode : TradeMode
  priceUsd : Option ℚ
  createdAt : ℤ
  deriving DecidableEq, Repr

def DAY_MS : ℤ := 86400000

/-- `setUTCHours(0, 0, 0, 0)`. -/
def startOfDay (now : ℤ) : ℤ := now - now % DAY_MS

/-- The sum over a user's LIVE trades since a time. -/
def usedSince (trades : List TradeRecord) (userId : String) (since : ℤ) : ℚ :=
  ((trades.filter fun t => t.userId = userId ∧ since ≤ t.createdAt ∧ t.mode = .LIVE).map fun t =>
    t.priceUsd.getD 0).sum

/-! ## The check -/

/-- The check against a configuration and what the user has traded today. -/
def GuardrailConfig.check (cfg : GuardrailConfig) (used : ℚ) (intent : TradeIntent) : Except Refusal Unit :=
  if cfg.killSwitch then .error .KILL_SWITCH_ON
  else if intent.tokenAddress ∈ cfg.blacklist then .error .TOKEN_BLACKLISTED
  else if cfg.whitelist ≠ [] ∧ intent.tokenAddress ∉ cfg.whitelist then .error .TOKEN_NOT_WHITELISTED
  else if cfg.perTradeUsd < intent.notionalUsd then .error (.PER_TRADE_LIMIT cfg.perTradeUsd)
  else if cfg.maxSlippageBps < intent.slippageBps then .error (.SLIPPAGE_CAP cfg.maxSlippageBps)
  else if "HONEYPOT" ∈ intent.riskFlags then .error .HONEYPOT_FLAG
  else if cfg.dailyUsd < used + intent.notionalUsd then .error (.DAILY_CAP cfg.dailyUsd)
  else .ok ()

def check (row : Option GuardrailConfig) (trades : List TradeRecord) (now : ℤ) (intent : TradeIntent) :
    Except Refusal Unit :=
  (config row).check (usedSince trades intent.userId (startOfDay now)) intent

/-- The intent that `swap` has checked. -/
def TradeIntent.ofSwap (input : SwapInput) : TradeIntent where
  userId := input.userId
  tokenAddress := input.tokenOut
  notionalUsd := input.notionalUsd
  slippageBps := input.slippageBps
  riskFlags := input.riskFlags

@[simp] theorem GuardrailConfig.check_eq_ok {cfg : GuardrailConfig} {used : ℚ} {intent : TradeIntent} :
    cfg.check used intent = .ok () ↔
      cfg.killSwitch = false ∧ intent.tokenAddress ∉ cfg.blacklist ∧
        (cfg.whitelist = [] ∨ intent.tokenAddress ∈ cfg.whitelist) ∧ intent.notionalUsd ≤ cfg.perTradeUsd ∧
          (intent.slippageBps : ℤ) ≤ cfg.maxSlippageBps ∧ "HONEYPOT" ∉ intent.riskFlags ∧
            used + intent.notionalUsd ≤ cfg.dailyUsd := by
  unfold GuardrailConfig.check
  have hlisted : ¬ (cfg.whitelist ≠ [] ∧ intent.tokenAddress ∉ cfg.whitelist) ↔
      cfg.whitelist = [] ∨ intent.tokenAddress ∈ cfg.whitelist := by
    rw [not_and_or, not_not, not_not]
  simp only [ite_error_eq_ok, hlisted, not_lt, and_true, Bool.not_eq_true]

end SuperAi.Guardrails
