import SuperAi.Foundations.Schema
import SuperAi.Risk.PositionLimits

/-! # The sanity checker

`SanityChecker.check` (`output/sanity.checker.ts`) on the actions of an agent, with the price that the
market data service answers. It enforces the limit on the portfolio's notional a second time, beside
`PositionLimitsChecker`; the two agree except on sells and on market buys of instruments that are not
held (`notional_checks_agree_iff`). Log lines and events are left out.
-/
namespace SuperAi.Output
open SuperAi.Foundations SuperAi.Risk
set_option autoImplicit false

/-! ## Actions -/

structure CancelOrderAction where
  clientOrderId : String
  instrument : String
  strategyId : String
  deriving DecidableEq, Repr

structure ModifyOrderAction where
  clientOrderId : String
  instrument : String
  newQuantity : Option ℚ := none
  newPrice : Option ℚ := none
  strategyId : String
  deriving DecidableEq, Repr

inductive AgentAction
  | PlaceOrder (action : PlaceOrderAction)
  | CancelOrder (action : CancelOrderAction)
  | ModifyOrder (action : ModifyOrderAction)
  | ClosePosition
  | RequestHumanReview
  | NoAction
  deriving DecidableEq, Repr

/-- What the risk engine reads of an action. -/
def AgentAction.toRisk : AgentAction → Risk.AgentAction
  | .PlaceOrder action => .PlaceOrder action
  | .CancelOrder _ => .CancelOrder
  | .ModifyOrder _ => .ModifyOrder
  | .ClosePosition => .ClosePosition
  | .RequestHumanReview => .RequestHumanReview
  | .NoAction => .NoAction

/-! ## The checks -/

structure SanityCheckerConfig where
  approvedTradingUniverse : List String := []
  positionLimitsPerInstrument : KeyValue String ℚ := []
  portfolioNotionalLimit : ℚ
  feedConsensusDivergenceThresholdPercent : ℚ
  deriving DecidableEq, Repr

/-- The price of an instrument, or the text of the error. -/
abbrev MarketDataService := String → Except String ℚ

inductive SanityFailure
  | notInUniverse (instrument : String)
  | quantityAboveLimit (quantity instrumentLimit : ℚ) (instrument : String)
  | priceOutsideTolerance (price tolerancePercent midPrice lowerBound upperBound : ℚ)
  | priceUnavailable (instrument message : String)
  | notionalAboveLimit (projectedNotional portfolioNotionalLimit : ℚ)
  | notAPair (instrument : String)
  | invalidClientOrderId (clientOrderId : String)
  deriving DecidableEq, Repr

namespace SanityChecker
variable (cfg : SanityCheckerConfig) (market : MarketDataService)

def isValidUuid (value : String) : Bool := Schema.isUuid value

/-- Without a price the notional of an order counts as zero. -/
def getPrice (instrument : String) : ℚ :=
  match market instrument with
  | .ok price => price
  | .error _ => 0

def checkUniverse (action : PlaceOrderAction) : List SanityFailure :=
  if cfg.approvedTradingUniverse ≠ [] ∧ action.instrument ∉ cfg.approvedTradingUniverse then
    [.notInUniverse action.instrument]
  else []

def checkOrderSize (action : PlaceOrderAction) : List SanityFailure :=
  match cfg.positionLimitsPerInstrument.get action.instrument with
  | none => []
  | some instrumentLimit =>
    if instrumentLimit < action.quantity then
      [.quantityAboveLimit action.quantity instrumentLimit action.instrument]
    else []

def checkLimitPrice (action : PlaceOrderAction) : List SanityFailure :=
  match action.price with
  | none => []
  | some price =>
    match market action.instrument with
    | .error message => [.priceUnavailable action.instrument message]
    | .ok midPrice =>
      let tolerancePercent := cfg.feedConsensusDivergenceThresholdPercent
      let toleranceFraction := tolerancePercent / 100
      let lowerBound := midPrice * (1 - toleranceFraction)
      let upperBound := midPrice * (1 + toleranceFraction)
      if price < lowerBound ∨ upperBound < price then
        [.priceOutsideTolerance price tolerancePercent midPrice lowerBound upperBound]
      else []

def orderNotional (action : PlaceOrderAction) : ℚ :=
  action.quantity * action.price.getD (getPrice market action.instrument)

def checkPortfolioNotional (action : PlaceOrderAction) (portfolio : PortfolioSnapshot) : List SanityFailure :=
  let projectedNotional := portfolio.totalNotional + orderNotional market action
  if cfg.portfolioNotionalLimit < projectedNotional then
    [.notionalAboveLimit projectedNotional cfg.portfolioNotionalLimit]
  else []

def checkPairFormat (action : PlaceOrderAction) : List SanityFailure :=
  if '-' ∉ action.instrument.toList ∧ '/' ∉ action.instrument.toList then [.notAPair action.instrument] else []

/-- The five numbered checks in their order. -/
def checkPlaceOrder (action : PlaceOrderAction) (portfolio : PortfolioSnapshot) : List SanityFailure :=
  checkUniverse cfg action ++ checkOrderSize cfg action ++ checkLimitPrice cfg market action
    ++ checkPortfolioNotional cfg market action portfolio ++ checkPairFormat action

def checkCancelOrder (action : CancelOrderAction) : List SanityFailure :=
  if isValidUuid action.clientOrderId then [] else [.invalidClientOrderId action.clientOrderId]

def checkModifyOrder (action : ModifyOrderAction) : List SanityFailure :=
  if isValidUuid action.clientOrderId then [] else [.invalidClientOrderId action.clientOrderId]

def check (action : AgentAction) (portfolio : PortfolioSnapshot) : List SanityFailure :=
  match action with
  | .PlaceOrder action => checkPlaceOrder cfg market action portfolio
  | .CancelOrder action => checkCancelOrder action
  | .ModifyOrder action => checkModifyOrder action
  | .ClosePosition | .RequestHumanReview | .NoAction => []

variable {cfg market} {action : PlaceOrderAction} {portfolio : PortfolioSnapshot}

theorem checkOrderSize_eq_nil : checkOrderSize cfg action = [] ↔
    ∀ instrumentLimit ∈ cfg.positionLimitsPerInstrument.get action.instrument, action.quantity ≤ instrumentLimit := by
  unfold checkOrderSize
  cases cfg.positionLimitsPerInstrument.get action.instrument with
  | none => simp
  | some instrumentLimit =>
    by_cases habove : instrumentLimit < action.quantity
    · simp [habove]
    · simp [habove, not_lt.mp habove]

theorem checkPortfolioNotional_of_above
    (h : cfg.portfolioNotionalLimit < portfolio.totalNotional + orderNotional market action) :
    checkPortfolioNotional cfg market action portfolio =
      [.notionalAboveLimit (portfolio.totalNotional + orderNotional market action) cfg.portfolioNotionalLimit] :=
  if_pos h

theorem checkPortfolioNotional_eq_nil : checkPortfolioNotional cfg market action portfolio = [] ↔
    portfolio.totalNotional + orderNotional market action ≤ cfg.portfolioNotionalLimit := by
  unfold checkPortfolioNotional
  by_cases habove : cfg.portfolioNotionalLimit < portfolio.totalNotional + orderNotional market action
  · simp [habove]
  · simp [habove, not_lt.mp habove]

end SanityChecker

/-! ## The notional of the portfolio, checked twice -/

section
variable {sanity : SanityCheckerConfig} {cfg : SecurityConfig} {market : MarketDataService}
  {action : PlaceOrderAction} {portfolio : PortfolioSnapshot}

/-- The sanity checker names the notional of the portfolio. -/
def SanityChecker.RaisesNotional (cfg : SanityCheckerConfig) (market : MarketDataService)
    (action : PlaceOrderAction) (portfolio : PortfolioSnapshot) : Prop :=
  ∃ projectedNotional limit,
    SanityFailure.notionalAboveLimit projectedNotional limit ∈ checkPlaceOrder cfg market action portfolio

/-- The position limits name the notional of the portfolio. -/
def RaisesPortfolioNotional (cfg : SecurityConfig) (action : PlaceOrderAction)
    (portfolio : PortfolioSnapshot) : Prop :=
  ∃ breach ∈ PositionLimitsChecker.check cfg action portfolio, breach.limit = .portfolioTotalNotional

theorem SanityChecker.raisesNotional_iff : RaisesNotional sanity market action portfolio ↔
    sanity.portfolioNotionalLimit < portfolio.totalNotional + orderNotional market action := by
  unfold RaisesNotional checkPlaceOrder
  constructor
  · rintro ⟨projected, limit, hmem⟩
    by_contra habove
    have hnil := checkPortfolioNotional_eq_nil.mpr (not_lt.mp habove)
    rw [hnil, List.append_nil] at hmem
    unfold checkUniverse checkOrderSize checkLimitPrice checkPairFormat at hmem
    simp only [List.mem_append] at hmem
    rcases hmem with ((hmem | hmem) | hmem) | hmem
    all_goals
      repeat' split at hmem
      all_goals simp at hmem
  · intro habove
    rw [checkPortfolioNotional_of_above habove]
    exact ⟨_, _, List.mem_append_left _ (List.mem_append_right _ (List.mem_singleton.mpr rfl))⟩

theorem raisesPortfolioNotional_iff : RaisesPortfolioNotional cfg action portfolio ↔
    cfg.portfolioNotionalLimit < PositionLimitsChecker.projectedTotal action portfolio := by
  have hother : ∀ breach, breach ∈ PositionLimitsChecker.checkInstrumentQuantityLimit cfg action portfolio ∨
      breach ∈ PositionLimitsChecker.checkInstrumentNotionalLimit cfg action portfolio ∨
      breach ∈ PositionLimitsChecker.checkShortSellingRules action portfolio →
        breach.limit ≠ .portfolioTotalNotional := by
    intro breach hbreach
    unfold PositionLimitsChecker.checkInstrumentQuantityLimit PositionLimitsChecker.checkInstrumentNotionalLimit
      PositionLimitsChecker.checkShortSellingRules at hbreach
    dsimp only at hbreach
    rcases hbreach with hmem | hmem | hmem
    all_goals
      repeat' split at hmem
      all_goals simp_all
  unfold RaisesPortfolioNotional PositionLimitsChecker.check
  constructor
  · rintro ⟨breach, hmem, hlimit⟩
    by_contra habove
    have hnil := (PositionLimitsChecker.checkPortfolioNotionalLimit_eq_nil cfg action portfolio).mpr
      (not_lt.mp habove)
    rw [hnil, List.append_nil, List.append_assoc] at hmem
    simp only [List.mem_append] at hmem
    exact hother breach hmem hlimit
  · intro habove
    rw [PositionLimitsChecker.checkPortfolioNotionalLimit_of_above habove]
    exact ⟨_, List.mem_append_left _ (List.mem_append_right _ (List.mem_singleton.mpr rfl)), rfl⟩

/-- The price that the position limits take for an order: none is known for a market order of an
instrument that is not held. -/
theorem getEstimatedPrice_eq {price : String → ℚ} (hpos : ∀ limitPrice ∈ action.price, 0 < limitPrice)
    (hheld : ∀ p ∈ portfolio.positions, p.currentPrice = price p.instrument) :
    portfolio.getEstimatedPrice action =
      if action.price = none ∧ portfolio.position action.instrument = none then 0
      else action.price.getD (price action.instrument) := by
  cases hprice : action.price with
  | some limitPrice =>
    rw [PortfolioSnapshot.getEstimatedPrice_of_some portfolio hprice (hpos _ hprice)]
    simp
  | none =>
    rw [PortfolioSnapshot.getEstimatedPrice_of_none portfolio hprice]
    cases hposition : portfolio.position action.instrument with
    | none => simp
    | some p =>
      have hmem := List.mem_of_find?_eq_some hposition
      have hinstrument : p.instrument = action.instrument := by simpa using List.find?_some hposition
      simp [hheld p hmem, hinstrument]

/-- **Two checks of one limit.** With one limit and one price for each instrument, both checks raise a
violation or neither does in exactly these cases: a buy that names a price or adds to a holding, or a
limit that the order's notional makes no difference to. -/
theorem notional_checks_agree_iff (price : String → ℚ)
    (hlimit : sanity.portfolioNotionalLimit = cfg.portfolioNotionalLimit)
    (hmarket : ∀ instrument, market instrument = .ok (price instrument))
    (hheld : ∀ p ∈ portfolio.positions, p.currentPrice = price p.instrument)
    (hpos : ∀ limitPrice ∈ action.price, 0 < limitPrice) :
    (SanityChecker.RaisesNotional sanity market action portfolio ↔ RaisesPortfolioNotional cfg action portfolio) ↔
      (action.side = .BUY ∧ (action.price ≠ none ∨ portfolio.position action.instrument ≠ none)) ∨
      (let total := portfolio.totalNotional
       let withOrder := total + action.quantity * action.price.getD (price action.instrument)
       cfg.portfolioNotionalLimit < min total withOrder ∨ max total withOrder ≤ cfg.portfolioNotionalLimit) := by
  have hnotional : SanityChecker.orderNotional market action =
      action.quantity * action.price.getD (price action.instrument) := by
    simp [SanityChecker.orderNotional, SanityChecker.getPrice, hmarket]
  rw [SanityChecker.raisesNotional_iff, raisesPortfolioNotional_iff, hlimit, hnotional]
  unfold PositionLimitsChecker.projectedTotal
  rw [getEstimatedPrice_eq hpos hheld, mul_ite, mul_zero]
  generalize action.quantity * action.price.getD (price action.instrument) = notional
  by_cases hknown : action.side = .BUY ∧ (action.price ≠ none ∨ portfolio.position action.instrument ≠ none)
  · have hnone : ¬ (action.price = none ∧ portfolio.position action.instrument = none) := by tauto
    rw [if_pos hknown.1, if_neg hnone]
    exact ⟨fun _ => .inl hknown, fun _ => Iff.rfl⟩
  · -- The position limits take the portfolio as it is.
    have htotal : (if action.side = .BUY then portfolio.totalNotional +
        (if action.price = none ∧ portfolio.position action.instrument = none then 0 else notional)
        else portfolio.totalNotional) = portfolio.totalNotional := by
      by_cases hside : action.side = .BUY
      · have hnone : action.price = none ∧ portfolio.position action.instrument = none := by tauto
        rw [if_pos hside, if_pos hnone, add_zero]
      · rw [if_neg hside]
    rw [htotal, or_iff_right hknown]
    simp only [lt_min_iff, max_le_iff]
    by_cases hbefore : cfg.portfolioNotionalLimit < portfolio.totalNotional
    · simp [hbefore, not_le.mpr hbefore]
    · simp [hbefore, not_lt.mp hbefore]

end

/-! ## Orders on which the checks agree, and a sale on which they do not -/

def sanityLimitedTo (portfolioNotionalLimit : ℚ) : SanityCheckerConfig where
  portfolioNotionalLimit := portfolioNotionalLimit
  feedConsensusDivergenceThresholdPercent := 5

def marketAt (price : ℚ) : MarketDataService := fun _ => .ok price

def buyOne : PlaceOrderAction := { sellOne with side := .BUY }

theorem buyOne_checks_agree :
    SanityChecker.RaisesNotional (sanityLimitedTo 250) (marketAt 100) buyOne twoCoins ↔
      RaisesPortfolioNotional { portfolioNotionalLimit := 250 } buyOne twoCoins := by
  have hheld : ∀ p ∈ twoCoins.positions, p.currentPrice = 100 := by decide +kernel
  refine (notional_checks_agree_iff (fun _ => 100) rfl (fun _ => rfl) hheld ?_).mpr (.inl ⟨rfl, ?_⟩)
  · intro limitPrice hprice
    simp [buyOne, sellOne] at hprice
  · exact .inr (by decide +kernel)

theorem sale_checks_disagree : ∃ (sanity : SanityCheckerConfig) (cfg : SecurityConfig) (price : String → ℚ)
    (action : PlaceOrderAction) (portfolio : PortfolioSnapshot),
    sanity.portfolioNotionalLimit = cfg.portfolioNotionalLimit ∧ (∀ instrument, 0 < price instrument) ∧
      (∀ p ∈ portfolio.positions, p.currentPrice = price p.instrument) ∧ 0 < action.quantity ∧
      ¬ (SanityChecker.RaisesNotional sanity (fun instrument => .ok (price instrument)) action portfolio ↔
        RaisesPortfolioNotional cfg action portfolio) := by
  refine ⟨sanityLimitedTo 250, { portfolioNotionalLimit := 250 }, fun _ => 100, sellOne, twoCoins, rfl,
    fun _ => (by decide : (0 : ℚ) < 100), by decide +kernel, by decide +kernel, ?_⟩
  rw [SanityChecker.raisesNotional_iff, raisesPortfolioNotional_iff]
  decide +kernel

end SuperAi.Output
