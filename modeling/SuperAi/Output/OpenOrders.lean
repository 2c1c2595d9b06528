import SuperAi.Output.SanityChecker
import SuperAi.Foundations.StepSystem

/-! # The size of open orders

Actions that `SanityChecker.check` and `RiskEngine.evaluate` both let through are applied to the open
orders. Both check the size of a `PlaceOrder` only, so an order is open within its limits for as long as
every modification leaves it within them (`openOrders_within_iff`).
-/
namespace SuperAi.Output
open SuperAi.Foundations SuperAi.Risk
set_option autoImplicit false

/-! ## Actions that are let through -/

/-- An action with all that the two checkers read when it comes to them. -/
structure OfferedAction where
  action : AgentAction
  market : MarketDataService
  now : ℤ
  store : RiskStore
  context : RiskContext

/-- An open order as last accepted, with the portfolio and the prices of that moment. -/
structure OpenOrder where
  order : PlaceOrderAction
  portfolio : PortfolioSnapshot
  market : MarketDataService

abbrev OpenOrders := KeyValue String OpenOrder

variable (sanity : SanityCheckerConfig) (cfg : SecurityConfig)

structure OfferedAction.LetThrough (offered : OfferedAction) : Prop where
  sane : SanityChecker.check sanity offered.market offered.action offered.context.portfolio = []
  approved : (RiskEngine.evaluate cfg offered.now offered.store offered.action.toRisk offered.context).1.approved = true

instance (offered : OfferedAction) : Decidable (offered.LetThrough sanity cfg) :=
  decidable_of_iff (_ ∧ _) ⟨fun h => ⟨h.1, h.2⟩, fun h => ⟨h.sane, h.approved⟩⟩

def ModifyOrderAction.modified (change : ModifyOrderAction) (order : PlaceOrderAction) : PlaceOrderAction :=
  { order with quantity := change.newQuantity.getD order.quantity, price := change.newPrice.or order.price }

def OpenOrders.apply (orders : OpenOrders) (offered : OfferedAction) : OpenOrders :=
  match offered.action with
  | .PlaceOrder order => orders.set order.clientOrderId ⟨order, offered.context.portfolio, offered.market⟩
  | .ModifyOrder change =>
    match orders.get change.clientOrderId with
    | none => orders
    | some opened =>
      orders.set change.clientOrderId ⟨change.modified opened.order, offered.context.portfolio, offered.market⟩
  | .CancelOrder cancel => orders.del cancel.clientOrderId
  | .ClosePosition | .RequestHumanReview | .NoAction => orders

def orderRuns : StepSystem OpenOrders OfferedAction where
  step orders offered := if offered.LetThrough sanity cfg then some (orders.apply offered) else none

/-! ## Limits of an open order -/

/-- The checks of quantity and notional that a `PlaceOrder` with the quantity and the price of the open
order goes through raise nothing. -/
structure OpenOrder.WithinLimits (opened : OpenOrder) : Prop where
  orderSize : SanityChecker.checkOrderSize sanity opened.order = []
  notional : SanityChecker.checkPortfolioNotional sanity opened.market opened.order opened.portfolio = []
  instrumentQuantity : PositionLimitsChecker.checkInstrumentQuantityLimit cfg opened.order opened.portfolio = []
  instrumentNotional : PositionLimitsChecker.checkInstrumentNotionalLimit cfg opened.order opened.portfolio = []
  portfolioNotional : PositionLimitsChecker.checkPortfolioNotionalLimit cfg opened.order opened.portfolio = []

/-- Quantity and notional of an order, bounded by the limits of both configurations. -/
structure Fits (market : MarketDataService) (portfolio : PortfolioSnapshot) (order : PlaceOrderAction) : Prop where
  quantity : ∀ instrumentLimit ∈ sanity.positionLimitsPerInstrument.get order.instrument,
    order.quantity ≤ instrumentLimit
  notional : portfolio.totalNotional + SanityChecker.orderNotional market order ≤ sanity.portfolioNotionalLimit
  instrument : PositionLimitsChecker.WithinInstrumentLimit cfg order portfolio
  total : PositionLimitsChecker.WithinPortfolioLimit cfg order portfolio

instance (market : MarketDataService) (portfolio : PortfolioSnapshot) (order : PlaceOrderAction) :
    Decidable (Fits sanity cfg market portfolio order) :=
  decidable_of_iff (_ ∧ _ ∧ _ ∧ _) ⟨fun h => ⟨h.1, h.2.1, h.2.2.1, h.2.2.2⟩,
    fun h => ⟨h.quantity, h.notional, h.instrument, h.total⟩⟩

/-- A modification of an open order leaves it within the limits. -/
def FitsWhenModified (orders : OpenOrders) (offered : OfferedAction) : Prop :=
  match offered.action with
  | .ModifyOrder change => ∀ opened ∈ orders.get change.clientOrderId,
      Fits sanity cfg offered.market offered.context.portfolio (change.modified opened.order)
  | _ => True

instance (orders : OpenOrders) : (offered : OfferedAction) → Decidable (FitsWhenModified sanity cfg orders offered)
  | ⟨.ModifyOrder change, market, _, _, context⟩ => inferInstanceAs (Decidable
      (∀ opened ∈ orders.get change.clientOrderId,
        Fits sanity cfg market context.portfolio (change.modified opened.order)))
  | ⟨.PlaceOrder _, _, _, _, _⟩ | ⟨.CancelOrder _, _, _, _, _⟩ | ⟨.ClosePosition, _, _, _, _⟩
  | ⟨.RequestHumanReview, _, _, _, _⟩ | ⟨.NoAction, _, _, _, _⟩ => isTrue trivial

/-- Every open order is within the limits. -/
def AllWithinLimits (orders : OpenOrders) : Prop :=
  ∀ clientOrderId opened, orders.get clientOrderId = some opened → opened.WithinLimits sanity cfg

variable {sanity cfg} {orders : OpenOrders} {offered : OfferedAction}

theorem OpenOrder.withinLimits_iff_fits {market : MarketDataService} {portfolio : PortfolioSnapshot}
    {order : PlaceOrderAction} : OpenOrder.WithinLimits sanity cfg ⟨order, portfolio, market⟩ ↔
      Fits sanity cfg market portfolio order := by
  constructor
  · intro h
    refine ⟨SanityChecker.checkOrderSize_eq_nil.mp h.orderSize,
      SanityChecker.checkPortfolioNotional_eq_nil.mp h.notional, fun maxQuantity hmax => ⟨?_, ?_⟩,
      (PositionLimitsChecker.checkPortfolioNotionalLimit_eq_nil _ _ _).mp h.portfolioNotional⟩
    · exact (PositionLimitsChecker.checkInstrumentQuantityLimit_eq_nil _ _ _).mp h.instrumentQuantity maxQuantity hmax
    · exact (PositionLimitsChecker.checkInstrumentNotionalLimit_eq_nil _ _ _).mp h.instrumentNotional maxQuantity hmax
  · intro h
    exact ⟨SanityChecker.checkOrderSize_eq_nil.mpr h.quantity,
      SanityChecker.checkPortfolioNotional_eq_nil.mpr h.notional,
      (PositionLimitsChecker.checkInstrumentQuantityLimit_eq_nil _ _ _).mpr fun maxQuantity hmax =>
        (h.instrument maxQuantity hmax).1,
      (PositionLimitsChecker.checkInstrumentNotionalLimit_eq_nil _ _ _).mpr fun maxQuantity hmax =>
        (h.instrument maxQuantity hmax).2,
      (PositionLimitsChecker.checkPortfolioNotionalLimit_eq_nil _ _ _).mpr h.total⟩

theorem checkLimits_of_approved {now : ℤ} {store : RiskStore} {action : Risk.AgentAction} {context : RiskContext}
    (h : (RiskEngine.evaluate cfg now store action context).1.approved = true) :
    RiskEngine.checkLimits cfg context action = [] := by
  simp only [RiskEngine.evaluate, List.isEmpty_iff, List.append_eq_nil_iff, List.map_eq_nil_iff] at h
  exact h.2

/-- An order that is let through is within the limits. -/
theorem OfferedAction.LetThrough.withinLimits (h : offered.LetThrough sanity cfg) {order : PlaceOrderAction}
    (hplace : offered.action = .PlaceOrder order) :
    OpenOrder.WithinLimits sanity cfg ⟨order, offered.context.portfolio, offered.market⟩ := by
  have hsane := h.sane
  have happroved := checkLimits_of_approved h.approved
  rw [hplace] at hsane happroved
  simp only [SanityChecker.check, SanityChecker.checkPlaceOrder, List.append_eq_nil_iff] at hsane
  simp only [AgentAction.toRisk, RiskEngine.checkLimits, PositionLimitsChecker.check,
    List.append_eq_nil_iff] at happroved
  obtain ⟨⟨⟨⟨-, hsize⟩, -⟩, hnotional⟩, -⟩ := hsane
  obtain ⟨⟨⟨hquantity, hinstrument⟩, htotal⟩, -⟩ := happroved
  exact ⟨hsize, hnotional, hquantity, hinstrument, htotal⟩

theorem AllWithinLimits.set (h : AllWithinLimits sanity cfg orders) (clientOrderId : String) {opened : OpenOrder}
    (hopened : opened.WithinLimits sanity cfg) : AllWithinLimits sanity cfg (orders.set clientOrderId opened) :=
  KeyValue.forall_get_set h hopened

theorem AllWithinLimits.del (h : AllWithinLimits sanity cfg orders) (clientOrderId : String) :
    AllWithinLimits sanity cfg (orders.del clientOrderId) :=
  KeyValue.forall_get_del h clientOrderId

/-! ## Runs -/

theorem step_within (orders : OpenOrders) (offered : OfferedAction) (after : OpenOrders)
    (h : AllWithinLimits sanity cfg orders) (hfits : FitsWhenModified sanity cfg orders offered)
    (hstep : (orderRuns sanity cfg).step orders offered = some after) : AllWithinLimits sanity cfg after := by
  obtain ⟨hthrough, hafter⟩ := Option.ite_none_right_eq_some.mp hstep
  obtain rfl := Option.some.inj hafter
  unfold OpenOrders.apply
  unfold FitsWhenModified at hfits
  cases haction : offered.action with
  | PlaceOrder order => exact h.set _ (hthrough.withinLimits haction)
  | ModifyOrder change =>
    rw [haction] at hfits
    cases hget : orders.get change.clientOrderId with
    | none => simpa only [hget] using h
    | some opened =>
      simp only [hget]
      exact h.set _ (OpenOrder.withinLimits_iff_fits.mpr (hfits opened hget))
  | CancelOrder cancel => exact h.del _
  | ClosePosition => exact h
  | RequestHumanReview => exact h
  | NoAction => exact h

theorem step_not_within (orders : OpenOrders) (offered : OfferedAction) (after : OpenOrders)
    (hfits : ¬ FitsWhenModified sanity cfg orders offered)
    (hstep : (orderRuns sanity cfg).step orders offered = some after) : ¬ AllWithinLimits sanity cfg after := by
  obtain ⟨-, hafter⟩ := Option.ite_none_right_eq_some.mp hstep
  obtain rfl := Option.some.inj hafter
  unfold FitsWhenModified at hfits
  cases haction : offered.action with
  | ModifyOrder change =>
    rw [haction] at hfits
    push Not at hfits
    obtain ⟨opened, hget, hnot⟩ := hfits
    intro hall
    refine hnot (OpenOrder.withinLimits_iff_fits.mp (hall change.clientOrderId _ ?_))
    simp only [OpenOrders.apply, haction, Option.mem_def.mp hget, KeyValue.get_set_self]
  | PlaceOrder order => simp [haction] at hfits
  | CancelOrder cancel => simp [haction] at hfits
  | ClosePosition => simp [haction] at hfits
  | RequestHumanReview => simp [haction] at hfits
  | NoAction => simp [haction] at hfits

/-- **Limits of open orders.** From no open orders on, every order that is ever open is within its limits
if and only if each modification of an open order leaves it within them. -/
theorem openOrders_within_iff {actions : List OfferedAction} {after : OpenOrders}
    (h : (orderRuns sanity cfg).run [] actions = some after) :
    (orderRuns sanity cfg).GuardedRun (FitsWhenModified sanity cfg) [] actions after ↔
      ∀ before later reached, actions = before ++ later →
        (orderRuns sanity cfg).run [] before = some reached → AllWithinLimits sanity cfg reached :=
  StepSystem.GuardedRun.iff_forall_reached (AllWithinLimits sanity cfg) (AllWithinLimits sanity cfg)
    step_within (fun _ hs => hs) (fun orders offered after _ => step_not_within orders offered after) h
    (fun _ _ hget => by cases hget)

/-! ## A modification within the limits, and one past them -/

def offer (action : AgentAction) : OfferedAction where
  action := action
  market := marketAt 100
  now := 0
  store := {}
  context := ⟨"user", "grid", twoCoins⟩

def resizeTo (quantity : ℚ) : ModifyOrderAction where
  clientOrderId := buyOne.clientOrderId
  instrument := buyOne.instrument
  newQuantity := some quantity
  strategyId := buyOne.strategyId

def buyAndResizeTo (quantity : ℚ) : List OfferedAction :=
  [offer (.PlaceOrder buyOne), offer (.ModifyOrder (resizeTo quantity))]

theorem resized_within : ∃ after : OpenOrders,
    (orderRuns (sanityLimitedTo 500) { portfolioNotionalLimit := 500 }).run [] (buyAndResizeTo 3) = some after ∧
    ∀ before later reached, buyAndResizeTo 3 = before ++ later →
      (orderRuns (sanityLimitedTo 500) { portfolioNotionalLimit := 500 }).run [] before = some reached →
        AllWithinLimits (sanityLimitedTo 500) { portfolioNotionalLimit := 500 } reached := by
  have hsome : ((orderRuns (sanityLimitedTo 500) { portfolioNotionalLimit := 500 }).guardedRun
      (FitsWhenModified (sanityLimitedTo 500) { portfolioNotionalLimit := 500 }) []
        (buyAndResizeTo 3)).isSome = true := by decide +kernel
  obtain ⟨after, hafter⟩ := Option.isSome_iff_exists.mp hsome
  have hrun := StepSystem.GuardedRun.of_guardedRun hafter
  exact ⟨after, hrun.run, (openOrders_within_iff hrun.run).mp hrun⟩

/-- One coin is ordered, and the order is then resized to a thousand. -/
theorem resized_past_limits : ∃ (sanity : SanityCheckerConfig) (cfg : SecurityConfig)
    (actions : List OfferedAction) (after : OpenOrders),
    (orderRuns sanity cfg).run [] actions = some after ∧ ¬ AllWithinLimits sanity cfg after := by
  have hsome : ((orderRuns (sanityLimitedTo 500) { portfolioNotionalLimit := 500 }).run []
      (buyAndResizeTo 1000)).any (fun after =>
        (after.get buyOne.clientOrderId).any fun opened => decide
          (SanityChecker.checkPortfolioNotional (sanityLimitedTo 500) opened.market opened.order
            opened.portfolio ≠ [])) = true := by
    decide +kernel
  obtain ⟨after, hafter, hopened⟩ := (Option.any_eq_true _ _).mp hsome
  obtain ⟨opened, hget, habove⟩ := (Option.any_eq_true _ _).mp hopened
  refine ⟨_, _, _, after, hafter, fun hall => ?_⟩
  exact absurd (hall _ opened hget).notional (of_decide_eq_true habove)

end SuperAi.Output
