import SuperAi.Risk.RiskStore

/-! # The risk engine

`RiskEngine.evaluate` (`risk/risk.engine.ts`) with the components it calls:
`PositionLimitsChecker.check` (`risk/position.limits.ts`) and `LossMonitor.update`
(`risk/loss.monitor.ts`). The breakers carry the names and reset timeouts that
`RiskEngineService` gives them. Log lines and alerts are left out.
-/
namespace SuperAi.Risk
open SuperAi.Foundations
set_option autoImplicit false

/-! ## Actions and portfolios -/

inductive OrderSide
  | BUY
  | SELL
  deriving DecidableEq, Repr

inductive OrderType
  | MARKET
  | LIMIT
  | STOP
  | STOP_LIMIT
  deriving DecidableEq, Repr

structure PlaceOrderAction where
  instrument : String
  side : OrderSide
  orderType : OrderType
  quantity : ℚ
  price : Option ℚ := none
  strategyId : String
  clientOrderId : String
  deriving DecidableEq, Repr

inductive AgentAction
  | PlaceOrder (order : PlaceOrderAction)
  | CancelOrder
  | ModifyOrder
  | ClosePosition
  | RequestHumanReview
  | NoAction
  deriving DecidableEq, Repr

structure PositionSnapshot where
  instrument : String
  quantity : ℚ
  currentPrice : ℚ
  notionalValue : ℚ
  deriving DecidableEq, Repr

structure PortfolioSnapshot where
  positions : List PositionSnapshot
  totalNotional : ℚ
  totalUnrealizedPnl : ℚ
  deriving DecidableEq, Repr

structure RiskContext where
  userId : String
  strategyId : String
  portfolio : PortfolioSnapshot
  deriving DecidableEq, Repr

structure SecurityConfig where
  adminUserId : String := "admin"
  sessionDrawdownKillSwitchPercent : ℚ := 10
  portfolioNotionalLimit : ℚ := 1000000
  positionLimitsPerInstrument : KeyValue String ℚ := []
  deriving DecidableEq, Repr

/-! ## Position limits -/

inductive Limit
  | perInstrumentQuantity (instrument : String)
  | perInstrumentNotional (instrument : String)
  | portfolioTotalNotional
  | shortSellBlocked (instrument : String)
  deriving DecidableEq, Repr

structure LimitBreach where
  limit : Limit
  current : ℚ
  maximum : ℚ
  deriving DecidableEq, Repr

namespace PortfolioSnapshot
variable (portfolio : PortfolioSnapshot)

def position (instrument : String) : Option PositionSnapshot :=
  portfolio.positions.find? fun p => p.instrument == instrument

def getCurrentQuantity (instrument : String) : ℚ :=
  ((portfolio.position instrument).map PositionSnapshot.quantity).getD 0

def getCurrentNotional (instrument : String) : ℚ :=
  ((portfolio.position instrument).map PositionSnapshot.notionalValue).getD 0

def getEstimatedPrice (action : PlaceOrderAction) : ℚ :=
  match action.price.filter fun price => decide (0 < price) with
  | some price => price
  | none => ((portfolio.position action.instrument).map PositionSnapshot.currentPrice).getD 0

end PortfolioSnapshot

namespace PositionLimitsChecker
variable (cfg : SecurityConfig) (action : PlaceOrderAction) (portfolio : PortfolioSnapshot)

def checkInstrumentQuantityLimit : List LimitBreach :=
  match cfg.positionLimitsPerInstrument.get action.instrument with
  | none => []
  | some maxQuantity =>
    let currentQty := portfolio.getCurrentQuantity action.instrument
    let projectedQty :=
      if action.side = .BUY then currentQty + action.quantity else currentQty - action.quantity
    if maxQuantity < |projectedQty| then
      [⟨.perInstrumentQuantity action.instrument, |projectedQty|, maxQuantity⟩]
    else []

def checkInstrumentNotionalLimit : List LimitBreach :=
  let price := portfolio.getEstimatedPrice action
  if price ≤ 0 then [] else
  match cfg.positionLimitsPerInstrument.get action.instrument with
  | none => []
  | some maxQuantity =>
    let maxNotional := maxQuantity * price
    let currentNotional := portfolio.getCurrentNotional action.instrument
    let orderNotional := action.quantity * price
    let projectedNotional :=
      if action.side = .BUY then currentNotional + orderNotional else |currentNotional - orderNotional|
    if maxNotional < projectedNotional then
      [⟨.perInstrumentNotional action.instrument, projectedNotional, maxNotional⟩]
    else []

def checkPortfolioNotionalLimit : List LimitBreach :=
  let orderNotional := action.quantity * portfolio.getEstimatedPrice action
  let projectedTotal :=
    if action.side = .BUY then portfolio.totalNotional + orderNotional else portfolio.totalNotional
  if cfg.portfolioNotionalLimit < projectedTotal then
    [⟨.portfolioTotalNotional, projectedTotal, cfg.portfolioNotionalLimit⟩]
  else []

def checkShortSellingRules : List LimitBreach :=
  let currentQty := portfolio.getCurrentQuantity action.instrument
  if action.side = .SELL ∧ currentQty < action.quantity then
    [⟨.shortSellBlocked action.instrument, action.quantity - currentQty, 0⟩]
  else []

def check : List LimitBreach :=
  checkInstrumentQuantityLimit cfg action portfolio ++ checkInstrumentNotionalLimit cfg action portfolio
    ++ checkPortfolioNotionalLimit cfg action portfolio ++ checkShortSellingRules action portfolio

end PositionLimitsChecker

/-! ## Loss monitor -/

namespace LossMonitor

def drawdownPercent (highWatermark currentValue : ℚ) : ℚ :=
  if 0 < highWatermark then (highWatermark - currentValue) / highWatermark * 100 else 0

def update (cfg : SecurityConfig) (s : RiskStore) (portfolio : PortfolioSnapshot) (userId : String) :
    RiskStore :=
  let currentValue := portfolio.totalNotional + portfolio.totalUnrealizedPnl
  let raised := { s with hwm := s.hwm.set userId currentValue, drawdown := s.drawdown.set userId 0 }
  match s.hwm.get userId with
  | none => raised
  | some highWatermark =>
    if highWatermark < currentValue then raised else
    let percent := drawdownPercent highWatermark currentValue
    let s := { s with drawdown := s.drawdown.set userId percent }
    if cfg.sessionDrawdownKillSwitchPercent ≤ percent then
      KillSwitch.trigger s (.USER userId) "loss-monitor"
    else s

end LossMonitor

/-! ## Evaluation -/

inductive RiskLevel
  | LOW
  | MEDIUM
  | HIGH
  | CRITICAL
  deriving DecidableEq, Repr

inductive BlockReason
  | killSwitchActive
  | velocityBreakerOpen
  | errorRateBreakerOpen
  | lossBreakerOpen
  | positionLimit (breach : LimitBreach)
  deriving DecidableEq, Repr

structure RiskEvaluation where
  approved : Bool
  riskLevel : RiskLevel
  blockReasons : List BlockReason
  deriving DecidableEq, Repr

namespace RiskEngine

def velocityBreaker : CircuitBreaker := ⟨"velocity", 30000⟩

def errorRateBreaker : CircuitBreaker := ⟨"error-rate", 60000⟩

def lossBreaker : CircuitBreaker := ⟨"loss", 120000⟩

def checkKillSwitch (s : RiskStore) (context : RiskContext) : Bool :=
  KillSwitch.isActive s .GLOBAL || KillSwitch.isActive s (.USER context.userId) ||
    KillSwitch.isActive s (.STRATEGY context.strategyId)

def checkCircuitBreakers (now : ℤ) (s : RiskStore) : List BlockReason × RiskStore :=
  let (velocity, s) := velocityBreaker.isOpen now s
  let (errorRate, s) := errorRateBreaker.isOpen now s
  let (loss, s) := lossBreaker.isOpen now s
  ((if velocity then [.velocityBreakerOpen] else []) ++ (if errorRate then [.errorRateBreakerOpen] else [])
    ++ (if loss then [.lossBreakerOpen] else []), s)

def computeBaseRiskLevel : AgentAction → RiskLevel
  | .PlaceOrder _ | .ModifyOrder | .ClosePosition => .MEDIUM
  | .CancelOrder | .RequestHumanReview | .NoAction => .LOW

def RiskLevel.order : RiskLevel → ℕ
  | .LOW => 0
  | .MEDIUM => 1
  | .HIGH => 2
  | .CRITICAL => 3

def elevateRisk (current candidate : RiskLevel) : RiskLevel :=
  if RiskLevel.order current < RiskLevel.order candidate then candidate else current

def checkLimits (cfg : SecurityConfig) (context : RiskContext) : AgentAction → List LimitBreach
  | .PlaceOrder order => PositionLimitsChecker.check cfg order context.portfolio
  | _ => []

/-- The loss monitor is updated whether or not the action is blocked. -/
def evaluate (cfg : SecurityConfig) (now : ℤ) (s : RiskStore) (action : AgentAction)
    (context : RiskContext) : RiskEvaluation × RiskStore :=
  let killed := checkKillSwitch s context
  let (breakers, s) := checkCircuitBreakers now s
  let breaches := checkLimits cfg context action
  let blockReasons := (if killed then [.killSwitchActive] else []) ++ breakers
    ++ breaches.map .positionLimit
  let risk : RiskLevel := if killed then .CRITICAL else .LOW
  let risk := if breakers = [] then risk else elevateRisk risk .HIGH
  let risk := if breaches = [] then risk else elevateRisk risk .HIGH
  let risk := if blockReasons = [] then computeBaseRiskLevel action else risk
  (⟨blockReasons.isEmpty, risk, blockReasons⟩,
    LossMonitor.update cfg s context.portfolio context.userId)

@[simp] theorem checkCircuitBreakers_killSwitch (now : ℤ) (s : RiskStore) :
    (checkCircuitBreakers now s).2.killSwitch = s.killSwitch := by
  simp [checkCircuitBreakers]

@[simp] theorem checkCircuitBreakers_hwm (now : ℤ) (s : RiskStore) :
    (checkCircuitBreakers now s).2.hwm = s.hwm := by
  simp [checkCircuitBreakers]

theorem evaluate_snd (cfg : SecurityConfig) (now : ℤ) (s : RiskStore) (action : AgentAction)
    (context : RiskContext) : (evaluate cfg now s action context).2
      = LossMonitor.update cfg (checkCircuitBreakers now s).2 context.portfolio context.userId := rfl

end RiskEngine
end SuperAi.Risk
