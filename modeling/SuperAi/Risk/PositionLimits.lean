import SuperAi.Risk.RiskEngine
import Mathlib.Algebra.Order.Group.Abs
import Mathlib.Algebra.Order.Ring.Abs
import Mathlib.Tactic.Linarith

/-! # What the position limits ask of an order

`PositionLimitsChecker.check` passes an order when none of its four checks finds a breach. Each
check is put as the bound that the order has to meet (`check_eq_nil_iff`). A sell of part of a
holding can break the bounds only in a portfolio that breaks them before the sale, or whose
notional is not the quantity at the price of the order (`sell_passes_iff`).
-/
namespace SuperAi.Risk
open SuperAi.Foundations
set_option autoImplicit false

namespace PortfolioSnapshot
variable {action : PlaceOrderAction} (portfolio : PortfolioSnapshot)

theorem getEstimatedPrice_of_some {price : ℚ} (h : action.price = some price) (hpos : 0 < price) :
    portfolio.getEstimatedPrice action = price := by
  have hfilter : action.price.filter (fun price => decide (0 < price)) = some price := by
    rw [h, Option.filter_some, if_pos (decide_eq_true hpos)]
  unfold getEstimatedPrice
  rw [hfilter]

theorem getEstimatedPrice_of_none (h : action.price = none) : portfolio.getEstimatedPrice action =
    ((portfolio.position action.instrument).map PositionSnapshot.currentPrice).getD 0 := by
  unfold getEstimatedPrice
  rw [h, Option.filter_none]

end PortfolioSnapshot

namespace PositionLimitsChecker
variable (cfg : SecurityConfig) (action : PlaceOrderAction) (portfolio : PortfolioSnapshot)

/-! ## Bounds -/

def projectedQuantity : ℚ :=
  if action.side = .BUY then portfolio.getCurrentQuantity action.instrument + action.quantity
  else portfolio.getCurrentQuantity action.instrument - action.quantity

def projectedNotional : ℚ :=
  let orderNotional := action.quantity * portfolio.getEstimatedPrice action
  if action.side = .BUY then portfolio.getCurrentNotional action.instrument + orderNotional
  else |portfolio.getCurrentNotional action.instrument - orderNotional|

def projectedTotal : ℚ :=
  if action.side = .BUY then portfolio.totalNotional + action.quantity * portfolio.getEstimatedPrice action
  else portfolio.totalNotional

/-- The order keeps to the limit of its instrument, where there is one. -/
def WithinInstrumentLimit : Prop :=
  ∀ maxQuantity ∈ cfg.positionLimitsPerInstrument.get action.instrument,
    |projectedQuantity action portfolio| ≤ maxQuantity ∧
      (0 < portfolio.getEstimatedPrice action →
        projectedNotional action portfolio ≤ maxQuantity * portfolio.getEstimatedPrice action)

def WithinPortfolioLimit : Prop := projectedTotal action portfolio ≤ cfg.portfolioNotionalLimit

instance : Decidable (WithinInstrumentLimit cfg action portfolio) :=
  inferInstanceAs (Decidable (∀ maxQuantity ∈ cfg.positionLimitsPerInstrument.get action.instrument, _))

instance : Decidable (WithinPortfolioLimit cfg action portfolio) := inferInstanceAs (Decidable (_ ≤ _))

theorem checkInstrumentQuantityLimit_eq_nil : checkInstrumentQuantityLimit cfg action portfolio = [] ↔
    ∀ maxQuantity, cfg.positionLimitsPerInstrument.get action.instrument = some maxQuantity →
      |projectedQuantity action portfolio| ≤ maxQuantity := by
  unfold checkInstrumentQuantityLimit
  cases cfg.positionLimitsPerInstrument.get action.instrument with
  | none => simp
  | some maxQuantity =>
    change (if maxQuantity < |projectedQuantity action portfolio| then _ else []) = [] ↔ _
    by_cases habove : maxQuantity < |projectedQuantity action portfolio|
    · simp [habove]
    · simp [habove, not_lt.mp habove]

theorem checkInstrumentNotionalLimit_eq_nil : checkInstrumentNotionalLimit cfg action portfolio = [] ↔
    ∀ maxQuantity, cfg.positionLimitsPerInstrument.get action.instrument = some maxQuantity →
      0 < portfolio.getEstimatedPrice action →
        projectedNotional action portfolio ≤ maxQuantity * portfolio.getEstimatedPrice action := by
  unfold checkInstrumentNotionalLimit
  by_cases hprice : portfolio.getEstimatedPrice action ≤ 0
  · simp [hprice, not_lt.mpr hprice]
  have hpositive := not_le.mp hprice
  cases cfg.positionLimitsPerInstrument.get action.instrument with
  | none => simp
  | some maxQuantity =>
    simp only [if_neg hprice]
    change (if maxQuantity * portfolio.getEstimatedPrice action < projectedNotional action portfolio
      then _ else []) = [] ↔ _
    by_cases habove : maxQuantity * portfolio.getEstimatedPrice action < projectedNotional action portfolio
    · simp [habove, hpositive]
    · simp [habove, not_lt.mp habove]

variable {cfg action portfolio} in
theorem checkPortfolioNotionalLimit_of_above
    (h : cfg.portfolioNotionalLimit < projectedTotal action portfolio) :
    checkPortfolioNotionalLimit cfg action portfolio =
      [⟨.portfolioTotalNotional, projectedTotal action portfolio, cfg.portfolioNotionalLimit⟩] :=
  if_pos h

theorem checkPortfolioNotionalLimit_eq_nil :
    checkPortfolioNotionalLimit cfg action portfolio = [] ↔ WithinPortfolioLimit cfg action portfolio := by
  change (if cfg.portfolioNotionalLimit < projectedTotal action portfolio then _ else []) = [] ↔ _
  unfold WithinPortfolioLimit
  by_cases habove : cfg.portfolioNotionalLimit < projectedTotal action portfolio
  · simp [habove]
  · simp [habove, not_lt.mp habove]

theorem checkShortSellingRules_eq_nil : checkShortSellingRules action portfolio = [] ↔
    (action.side = .SELL → action.quantity ≤ portfolio.getCurrentQuantity action.instrument) := by
  unfold checkShortSellingRules
  by_cases hside : action.side = .SELL
  · by_cases hshort : portfolio.getCurrentQuantity action.instrument < action.quantity
    · simp [hside, hshort]
    · simp [hside, hshort, not_lt.mp hshort]
  · simp [hside]

/-- What `check` asks of an order. -/
theorem check_eq_nil_iff : check cfg action portfolio = [] ↔
    WithinInstrumentLimit cfg action portfolio ∧ WithinPortfolioLimit cfg action portfolio ∧
      (action.side = .SELL → action.quantity ≤ portfolio.getCurrentQuantity action.instrument) := by
  unfold check WithinInstrumentLimit
  rw [List.append_eq_nil_iff, List.append_eq_nil_iff, List.append_eq_nil_iff,
    checkInstrumentQuantityLimit_eq_nil, checkInstrumentNotionalLimit_eq_nil,
    checkPortfolioNotionalLimit_eq_nil, checkShortSellingRules_eq_nil]
  constructor
  · rintro ⟨⟨⟨hquantity, hnotional⟩, htotal⟩, hshort⟩
    exact ⟨fun maxQuantity hmax => ⟨hquantity maxQuantity hmax, hnotional maxQuantity hmax⟩, htotal, hshort⟩
  · rintro ⟨hinstrument, htotal, hshort⟩
    exact ⟨⟨⟨fun maxQuantity hmax => (hinstrument maxQuantity hmax).1,
      fun maxQuantity hmax => (hinstrument maxQuantity hmax).2⟩, htotal⟩, hshort⟩

/-! ## Sells of part of a holding -/

/-- The bounds that a sale of what is held still has to meet: the quantity left and its notional at
the price of the order, and the notional of the portfolio as it is before the sale. -/
def SaleWithinLimits : Prop :=
  (∀ maxQuantity, cfg.positionLimitsPerInstrument.get action.instrument = some maxQuantity →
    portfolio.getCurrentQuantity action.instrument - action.quantity ≤ maxQuantity ∧
      (0 < portfolio.getEstimatedPrice action →
        |portfolio.getCurrentNotional action.instrument - action.quantity * portfolio.getEstimatedPrice action|
          ≤ maxQuantity * portfolio.getEstimatedPrice action)) ∧
  portfolio.totalNotional ≤ cfg.portfolioNotionalLimit

variable {action portfolio}

theorem projectedQuantity_of_sell (hside : action.side = .SELL) : projectedQuantity action portfolio =
    portfolio.getCurrentQuantity action.instrument - action.quantity := by
  simp [projectedQuantity, hside]

theorem projectedTotal_of_sell (hside : action.side = .SELL) :
    projectedTotal action portfolio = portfolio.totalNotional := by
  simp [projectedTotal, hside]

theorem projectedNotional_of_sell (hside : action.side = .SELL) : projectedNotional action portfolio =
    |portfolio.getCurrentNotional action.instrument - action.quantity * portfolio.getEstimatedPrice action| := by
  simp [projectedNotional, hside]

/-- **Sells of what is held.** A sale of no more than is held passes exactly within the bounds. -/
theorem sell_passes_iff (hside : action.side = .SELL)
    (hheld : action.quantity ≤ portfolio.getCurrentQuantity action.instrument) :
    check cfg action portfolio = [] ↔ SaleWithinLimits cfg action portfolio := by
  have hleft : |projectedQuantity action portfolio| =
      portfolio.getCurrentQuantity action.instrument - action.quantity := by
    rw [projectedQuantity_of_sell hside, abs_of_nonneg (sub_nonneg.mpr hheld)]
  rw [check_eq_nil_iff]
  unfold WithinInstrumentLimit WithinPortfolioLimit SaleWithinLimits
  rw [hleft, projectedNotional_of_sell hside, projectedTotal_of_sell hside]
  constructor
  · rintro ⟨hinstrument, htotal, -⟩
    exact ⟨hinstrument, htotal⟩
  · rintro ⟨hinstrument, htotal⟩
    exact ⟨hinstrument, htotal, fun _ => hheld⟩

end PositionLimitsChecker

/-! ## A sale that is blocked -/

/-- A portfolio above its limit: two coins at 100 each. -/
def twoCoins : PortfolioSnapshot where
  positions := [⟨"BTC-USDT", 2, 100, 200⟩]
  totalNotional := 200
  totalUnrealizedPnl := 0

def sellOne : PlaceOrderAction where
  instrument := "BTC-USDT"
  side := .SELL
  orderType := .MARKET
  quantity := 1
  strategyId := "grid"
  clientOrderId := "00000000-0000-0000-0000-000000000001"

theorem sellOne_passes_below_limit :
    PositionLimitsChecker.check { portfolioNotionalLimit := 200 } sellOne twoCoins = [] ↔
      PositionLimitsChecker.SaleWithinLimits { portfolioNotionalLimit := 200 } sellOne twoCoins :=
  PositionLimitsChecker.sell_passes_iff _ rfl (by decide +kernel)

theorem sellOne_blocked : ∃ (cfg : SecurityConfig) (action : PlaceOrderAction) (portfolio : PortfolioSnapshot),
    action.side = .SELL ∧ 0 < action.quantity ∧
      action.quantity ≤ portfolio.getCurrentQuantity action.instrument ∧
      PositionLimitsChecker.check cfg action portfolio ≠ [] :=
  ⟨{ portfolioNotionalLimit := 100 }, sellOne, twoCoins, rfl, by decide +kernel, by decide +kernel,
    by decide +kernel⟩

end SuperAi.Risk
