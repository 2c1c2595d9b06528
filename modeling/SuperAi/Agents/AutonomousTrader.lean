import Mathlib.Data.List.Sort
import SuperAi.Agents.DailyUsage
import SuperAi.Intent.IntentRuleEnforcer

/-! # The autonomous trader

`runForUser` of `agents/autonomous-trader.worker.ts`, from the check of the daily cap to the route that a
proposal takes: a suggestion, an approval request or a swap. What the language model answers is given
by the fields of its JSON object after `String(..)` and `Number(..)`; slippages are whole numbers of
basis points. A guardrail or rule that throws ends the user's turn as one that refuses does.
-/
namespace SuperAi.Agents
open SuperAi.Auth SuperAi.Approvals SuperAi.Execution SuperAi.Intent
set_option autoImplicit false

/-! ## Configuration and strategies -/

inductive AutonomyLevel
  | MANUAL
  | GUIDED
  | SEMI_AUTO
  | FULL_AUTO
  deriving DecidableEq, Repr

structure TraderConfig extends LearningConfig where
  userId : String
  autonomyLevel : AutonomyLevel
  maxTradeUsd : ℚ
  approvalRequired : Bool
  approvalTimeoutMin : ℤ
  deriving DecidableEq, Repr

/-- An enabled strategy with a score; `sampleCount` is there where the strategy has a performance row. -/
structure UserStrategy where
  id : String
  score : ℚ
  sampleCount : Option ℕ := none
  deriving DecidableEq, Repr

def MIN_SCORE_TO_ACT : ℚ := 1 / 2
def MAX_CANDIDATES_PER_TICK_PER_USER : ℕ := 1
def AUTO_RETIRE_MIN_SAMPLE : ℕ := 10
def AUTO_RETIRE_SCORE_FLOOR : ℚ := 1 / 4

/-- The query takes the best strategies, the filter drops those that have been judged poor. -/
def pickStrategies (candidates : List UserStrategy) : List UserStrategy :=
  let best := ((candidates.filter (MIN_SCORE_TO_ACT ≤ ·.score)).insertionSort fun s t => t.score ≤ s.score).take
    (MAX_CANDIDATES_PER_TICK_PER_USER * 3)
  (best.filter fun s =>
    !s.sampleCount.any (AUTO_RETIRE_MIN_SAMPLE ≤ ·) || AUTO_RETIRE_SCORE_FLOOR ≤ s.score).take
      MAX_CANDIDATES_PER_TICK_PER_USER

/-! ## The proposal -/

structure LlmReply where
  action : String
  chain : String
  tokenIn : String
  tokenOut : String
  amountIn : String
  notionalUsd : Option ℚ
  slippageBps : Option ℕ
  walletId : String
  deriving DecidableEq, Repr

def proposeIntent (reply : LlmReply) : Option TradeIntent :=
  if reply.action ≠ "trade" then none
  else
    match reply.notionalUsd with
    | none => none
    | some notionalUsd =>
      if notionalUsd ≤ 0 then none
      else if reply.tokenIn = "" ∨ reply.tokenOut = "" ∨ reply.walletId = "" ∨ reply.amountIn = "" then none
      else some
        { chain := reply.chain
          tokenIn := reply.tokenIn
          tokenOut := reply.tokenOut
          amountIn := reply.amountIn
          notionalUsd
          slippageBps := max 50 (min 300 ((reply.slippageBps.filter (· ≠ 0)).getD 100))
          walletId := reply.walletId }

/-! ## The turn of a user -/

/-- What one strategy meets: the model's answer, the user's rules (`none` where they are not enforced),
the guardrails. -/
structure StrategyAnswers where
  reply : Option LlmReply
  rules : Option (List UserIntentRule)
  utc : UtcTime
  guardrails : TradeIntent → Bool
  concentration : TradeIntent → Bool

inductive Route
  | suggestion (intent : TradeIntent)
  | approval (request : ApprovalRequest)
  | swap (input : SwapInput)
  deriving DecidableEq, Repr

/-- The per-trade cap of the configuration, which writes the notional only. -/
def clampToMax (cfg : TraderConfig) (intent : TradeIntent) : TradeIntent :=
  if cfg.maxTradeUsd < intent.notionalUsd then { intent with notionalUsd := cfg.maxTradeUsd } else intent

/-- The intent after the rules and whether they ask for an approval, or nothing where they block it. -/
def applyRules (regExp : RegExpTest) (ans : StrategyAnswers) (intent : TradeIntent) :
    Option (TradeIntent × Bool) :=
  match ans.rules.filter (· ≠ []) with
  | none => some (intent, false)
  | some rules =>
    match check regExp ans.utc { intent } rules with
    | .ok decision =>
      if decision.ok then some (decision.adjustedIntent.getD intent, decision.mustRequireApproval) else none
    | .error _ => none

def takeRoute (cfg : TraderConfig) (now : ℤ) (strategyId : String) (forceApproval : Bool)
    (intent : TradeIntent) : Route :=
  if cfg.autonomyLevel = .GUIDED then .suggestion intent
  else if cfg.autonomyLevel = .SEMI_AUTO ∨ (cfg.autonomyLevel = .FULL_AUTO ∧ cfg.approvalRequired) ∨
      forceApproval then
    .approval
      { userId := cfg.userId
        strategyId := some strategyId
        tradeIntent := intent
        expiresAt := now + cfg.approvalTimeoutMin * 60000 }
  else
    .swap
      { userId := cfg.userId
        walletId := intent.walletId
        chain := if intent.chain = "SOLANA" then .SOLANA else .EVM
        tokenIn := intent.tokenIn
        tokenOut := intent.tokenOut
        amountIn := intent.amountIn
        notionalUsd := intent.notionalUsd
        slippageBps := intent.slippageBps
        strategyId := some strategyId }

def runStrategy (regExp : RegExpTest) (cfg : TraderConfig) (now : ℤ) (strategyId : String)
    (ans : StrategyAnswers) : Option Route := do
  let reply ← ans.reply
  let proposal ← proposeIntent reply
  let (intent, forceApproval) ← applyRules regExp ans (clampToMax cfg proposal)
  if ans.guardrails intent && ans.concentration intent then
    some (takeRoute cfg now strategyId forceApproval intent)
  else none

/-- The routes that a tick takes for a user, each with its strategy. -/
def runForUser (regExp : RegExpTest) (cfg : TraderConfig) (now : ℤ) (candidates : List UserStrategy)
    (ans : UserStrategy → StrategyAnswers) : List (UserStrategy × Route) :=
  if cfg.remaining now ≤ 0 then []
  else (pickStrategies candidates).filterMap fun s =>
    (runStrategy regExp cfg now s.id (ans s)).map fun route => (s, route)

end SuperAi.Agents
