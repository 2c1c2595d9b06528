import SuperAi.Risk.PositionLimits
import SuperAi.Foundations.StepSystem
import Mathlib.Algebra.BigOperators.Group.List.Basic
import Mathlib.Tactic.Ring

/-! # Runs of orders under the position limits

Orders are offered one after another at one fixed price per instrument, and each that `check`
passes is applied to the portfolio. A market order of an instrument that the portfolio does not hold
is valued at zero, so the portfolio stays within its limits in exactly the runs in which such buys
leave room for their real notional (`withinLimits_iff`).
-/
namespace SuperAi.Risk
open SuperAi.Foundations
set_option autoImplicit false

/-! ## Filling an order -/

namespace PortfolioSnapshot

def empty : PortfolioSnapshot := ⟨[], 0, 0⟩

def others (portfolio : PortfolioSnapshot) (instrument : String) : List PositionSnapshot :=
  portfolio.positions.filter fun p => p.instrument != instrument

def notionals (positions : List PositionSnapshot) : ℚ := (positions.map PositionSnapshot.notionalValue).sum

def filledQuantity (portfolio : PortfolioSnapshot) (action : PlaceOrderAction) : ℚ :=
  PositionLimitsChecker.projectedQuantity action portfolio

/-- The positions after the fill; one that is sold out may stay in the list or leave it. -/
def filledPositions (price : String → ℚ) (keepsEmpty : Bool) (portfolio : PortfolioSnapshot)
    (action : PlaceOrderAction) : List PositionSnapshot :=
  let quantity := portfolio.filledQuantity action
  let price := price action.instrument
  if quantity = 0 ∧ keepsEmpty = false then portfolio.others action.instrument
  else ⟨action.instrument, quantity, price, quantity * price⟩ :: portfolio.others action.instrument

def fill (price : String → ℚ) (keepsEmpty : Bool) (portfolio : PortfolioSnapshot)
    (action : PlaceOrderAction) : PortfolioSnapshot :=
  let positions := portfolio.filledPositions price keepsEmpty action
  { portfolio with positions := positions, totalNotional := notionals positions }

end PortfolioSnapshot

/-! ## Runs -/

/-- An order that is offered, and whether a position that it sells out stays in the list. -/
structure OfferedOrder where
  action : PlaceOrderAction
  keepsEmpty : Bool
  deriving DecidableEq, Repr

/-- A market order without a price, or a limit order at the price of its instrument. -/
def PlaceOrderAction.AtPrice (price : String → ℚ) (action : PlaceOrderAction) : Prop :=
  0 < action.quantity ∧ ((action.orderType = .MARKET ∧ action.price = none) ∨
    (action.orderType = .LIMIT ∧ action.price = some (price action.instrument)))

instance (price : String → ℚ) (action : PlaceOrderAction) : Decidable (action.AtPrice price) :=
  inferInstanceAs (Decidable (_ ∧ _))

def limitRuns (cfg : SecurityConfig) (price : String → ℚ) : StepSystem PortfolioSnapshot OfferedOrder where
  step portfolio offered :=
    if offered.action.AtPrice price then
      some (if PositionLimitsChecker.check cfg offered.action portfolio = [] then
        portfolio.fill price offered.keepsEmpty offered.action else portfolio)
    else none

structure WithinLimits (cfg : SecurityConfig) (portfolio : PortfolioSnapshot) : Prop where
  quantity_nonneg : ∀ p ∈ portfolio.positions, 0 ≤ p.quantity
  quantity_le : ∀ p ∈ portfolio.positions, ∀ maxQuantity,
    cfg.positionLimitsPerInstrument.get p.instrument = some maxQuantity → p.quantity ≤ maxQuantity
  total_le : portfolio.totalNotional ≤ cfg.portfolioNotionalLimit

/-- A market buy of an instrument that is not held leaves room for its notional, unless the limit of
the instrument rules it out. -/
def LeavesRoom (cfg : SecurityConfig) (price : String → ℚ) (portfolio : PortfolioSnapshot)
    (offered : OfferedOrder) : Prop :=
  offered.action.side = .BUY → offered.action.price = none →
    portfolio.position offered.action.instrument = none →
    (∀ maxQuantity ∈ cfg.positionLimitsPerInstrument.get offered.action.instrument,
      offered.action.quantity ≤ maxQuantity) →
    portfolio.totalNotional + offered.action.quantity * price offered.action.instrument
      ≤ cfg.portfolioNotionalLimit

instance (cfg : SecurityConfig) (price : String → ℚ) (portfolio : PortfolioSnapshot) (offered : OfferedOrder) :
    Decidable (LeavesRoom cfg price portfolio offered) :=
  inferInstanceAs (Decidable (_ → _ → _ → _ → _))

/-- The portfolio holds each instrument once and values it at the price. -/
structure Valued (price : String → ℚ) (portfolio : PortfolioSnapshot) : Prop where
  nodup : (portfolio.positions.map PositionSnapshot.instrument).Nodup
  currentPrice : ∀ p ∈ portfolio.positions, p.currentPrice = price p.instrument
  notionalValue : ∀ p ∈ portfolio.positions, p.notionalValue = p.quantity * price p.instrument
  total : portfolio.totalNotional = PortfolioSnapshot.notionals portfolio.positions

section
variable {cfg : SecurityConfig} {price : String → ℚ} {portfolio : PortfolioSnapshot} {action : PlaceOrderAction}
  {keepsEmpty : Bool}

/-! ## The holding of one instrument -/

namespace PortfolioSnapshot

theorem mem_of_position {instrument : String} {p : PositionSnapshot} (h : portfolio.position instrument = some p) :
    p ∈ portfolio.positions ∧ p.instrument = instrument := by
  have hmem := List.mem_of_find?_eq_some h
  have hinstrument := List.find?_some h
  exact ⟨hmem, by simpa using hinstrument⟩

theorem notionals_cons (p : PositionSnapshot) (positions : List PositionSnapshot) :
    notionals (p :: positions) = p.notionalValue + notionals positions := by
  simp [notionals]

/-- The notional of one instrument and of the others make up the whole. -/
theorem notionals_eq_add {positions : List PositionSnapshot} {total pnl : ℚ} (instrument : String)
    (hnodup : (positions.map PositionSnapshot.instrument).Nodup) :
    notionals positions = getCurrentNotional ⟨positions, total, pnl⟩ instrument
      + notionals (others ⟨positions, total, pnl⟩ instrument) := by
  induction positions with
  | nil => simp [notionals, others, getCurrentNotional, position]
  | cons p positions ih =>
    obtain ⟨hfresh, hrest⟩ := List.nodup_cons.mp hnodup
    by_cases heq : p.instrument = instrument
    · have hothers : (p :: positions).filter (fun q => q.instrument != instrument) = positions := by
        rw [List.filter_cons, if_neg (by simp [heq]), List.filter_eq_self]
        intro q hq
        have hne : q.instrument ≠ p.instrument := fun h => hfresh (h ▸ List.mem_map_of_mem hq)
        simpa [← heq] using hne
      simp [others, hothers, getCurrentNotional, position, heq, notionals_cons]
    · have ih := ih hrest
      simp only [others, getCurrentNotional, position] at ih ⊢
      rw [List.filter_cons, if_pos (by simpa using heq), notionals_cons, notionals_cons, ih,
        List.find?_cons_of_neg (by simpa using heq)]
      ring

end PortfolioSnapshot

open PortfolioSnapshot

namespace Valued

theorem getCurrentNotional (h : Valued price portfolio) (instrument : String) :
    portfolio.getCurrentNotional instrument = portfolio.getCurrentQuantity instrument * price instrument := by
  unfold PortfolioSnapshot.getCurrentNotional getCurrentQuantity
  cases hposition : portfolio.position instrument with
  | none => simp
  | some p =>
    obtain ⟨hmem, rfl⟩ := mem_of_position hposition
    simpa using h.notionalValue p hmem

theorem total_eq (h : Valued price portfolio) (instrument : String) : portfolio.totalNotional =
    portfolio.getCurrentQuantity instrument * price instrument + notionals (portfolio.others instrument) := by
  rw [h.total, notionals_eq_add instrument h.nodup, ← h.getCurrentNotional instrument]

/-- The price of an order is the price of its instrument, or zero where the order names none and
nothing is held. -/
theorem getEstimatedPrice (h : Valued price portfolio) (hprice : ∀ instrument, 0 < price instrument)
    (hat : action.AtPrice price) : portfolio.getEstimatedPrice action =
      if action.price = none ∧ portfolio.position action.instrument = none then 0
      else price action.instrument := by
  rcases hat.2 with ⟨-, hnone⟩ | ⟨-, hsome⟩
  · rw [getEstimatedPrice_of_none portfolio hnone]
    cases hposition : portfolio.position action.instrument with
    | none => simp [hnone]
    | some p =>
      obtain ⟨hmem, hinstrument⟩ := mem_of_position hposition
      simp [h.currentPrice p hmem, hinstrument]
  · rw [getEstimatedPrice_of_some portfolio hsome (hprice _)]
    simp [hsome]

end Valued

theorem mem_filledPositions {p : PositionSnapshot}
    (h : p ∈ portfolio.filledPositions price keepsEmpty action) :
    p = ⟨action.instrument, portfolio.filledQuantity action, price action.instrument,
      portfolio.filledQuantity action * price action.instrument⟩ ∨
    (p ∈ portfolio.positions ∧ p.instrument ≠ action.instrument) := by
  have hothers : p ∈ portfolio.others action.instrument →
      p ∈ portfolio.positions ∧ p.instrument ≠ action.instrument := by
    intro hmem
    simpa [others] using hmem
  unfold filledPositions at h
  by_cases hout : portfolio.filledQuantity action = 0 ∧ keepsEmpty = false
  · simp only [if_pos hout] at h
    exact .inr (hothers h)
  · simp only [if_neg hout] at h
    rcases List.mem_cons.mp h with heq | hmem
    · exact .inl heq
    · exact .inr (hothers hmem)

theorem notionals_filledPositions : notionals (portfolio.filledPositions price keepsEmpty action) =
    portfolio.filledQuantity action * price action.instrument + notionals (portfolio.others action.instrument) := by
  unfold filledPositions
  by_cases hout : portfolio.filledQuantity action = 0 ∧ keepsEmpty = false
  · simp [hout]
  · simp only [if_neg hout, notionals_cons]

theorem Valued.fill (h : Valued price portfolio) : Valued price (portfolio.fill price keepsEmpty action) where
  nodup := by
    have hothers : ((portfolio.others action.instrument).map PositionSnapshot.instrument).Nodup :=
      h.nodup.sublist (List.filter_sublist.map _)
    unfold PortfolioSnapshot.fill filledPositions
    by_cases hout : portfolio.filledQuantity action = 0 ∧ keepsEmpty = false
    · simpa only [if_pos hout] using hothers
    · simp only [if_neg hout, List.map_cons]
      refine List.nodup_cons.mpr ⟨fun hmem => ?_, hothers⟩
      obtain ⟨p, hp, hinstrument⟩ := List.mem_map.mp hmem
      exact absurd hinstrument (by simpa using (List.mem_filter.mp hp).2)
  currentPrice p hp := by
    rcases mem_filledPositions hp with rfl | ⟨hmem, -⟩
    · rfl
    · exact h.currentPrice p hmem
  notionalValue p hp := by
    rcases mem_filledPositions hp with rfl | ⟨hmem, -⟩
    · rfl
    · exact h.notionalValue p hmem
  total := rfl

/-- What a fill does to the notional of the portfolio. -/
theorem Valued.totalNotional_fill (h : Valued price portfolio) :
    (portfolio.fill price keepsEmpty action).totalNotional = portfolio.totalNotional +
      (portfolio.filledQuantity action - portfolio.getCurrentQuantity action.instrument)
        * price action.instrument := by
  have hfilled : (portfolio.fill price keepsEmpty action).totalNotional =
      notionals (portfolio.filledPositions price keepsEmpty action) := rfl
  rw [hfilled, notionals_filledPositions, h.total_eq action.instrument]
  ring

theorem WithinLimits.getCurrentQuantity_nonneg (h : WithinLimits cfg portfolio) (instrument : String) :
    0 ≤ portfolio.getCurrentQuantity instrument := by
  unfold getCurrentQuantity
  cases hposition : portfolio.position instrument with
  | none => simp
  | some p =>
    obtain ⟨hmem, -⟩ := mem_of_position hposition
    simpa using h.quantity_nonneg p hmem

/-! ## One fill -/

/-- A filled order keeps every limit if its quantity and the new notional do. -/
theorem WithinLimits.fill (h : WithinLimits cfg portfolio) (hnonneg : 0 ≤ portfolio.filledQuantity action)
    (hquantity : ∀ maxQuantity, cfg.positionLimitsPerInstrument.get action.instrument = some maxQuantity →
      portfolio.filledQuantity action ≤ maxQuantity)
    (htotal : (portfolio.fill price keepsEmpty action).totalNotional ≤ cfg.portfolioNotionalLimit) :
    WithinLimits cfg (portfolio.fill price keepsEmpty action) where
  quantity_nonneg p hp := by
    rcases mem_filledPositions hp with rfl | ⟨hmem, -⟩
    · exact hnonneg
    · exact h.quantity_nonneg p hmem
  quantity_le p hp := by
    rcases mem_filledPositions hp with rfl | ⟨hmem, -⟩
    · exact hquantity
    · exact h.quantity_le p hmem
  total_le := htotal

theorem filledQuantity_of_buy (hside : action.side = .BUY) : portfolio.filledQuantity action =
    portfolio.getCurrentQuantity action.instrument + action.quantity := by
  simp [filledQuantity, PositionLimitsChecker.projectedQuantity, hside]

theorem filledQuantity_of_sell (hside : action.side = .SELL) : portfolio.filledQuantity action =
    portfolio.getCurrentQuantity action.instrument - action.quantity :=
  PositionLimitsChecker.projectedQuantity_of_sell hside

theorem side_eq_sell (h : action.side ≠ .BUY) : action.side = .SELL := by
  cases hside : action.side with
  | BUY => exact absurd hside h
  | SELL => rfl

/-- An order that `check` passes never takes a quantity below zero. -/
theorem filledQuantity_nonneg (h : WithinLimits cfg portfolio) (hat : action.AtPrice price)
    (hpassed : PositionLimitsChecker.check cfg action portfolio = []) : 0 ≤ portfolio.filledQuantity action := by
  obtain ⟨-, -, hshort⟩ := (PositionLimitsChecker.check_eq_nil_iff cfg action portfolio).mp hpassed
  by_cases hside : action.side = .BUY
  · rw [filledQuantity_of_buy hside]
    have hheld := h.getCurrentQuantity_nonneg action.instrument
    have hpos := hat.1
    linarith
  · have hsell := side_eq_sell hside
    rw [filledQuantity_of_sell hsell]
    exact sub_nonneg.mpr (hshort hsell)

theorem filledQuantity_le (hpassed : PositionLimitsChecker.check cfg action portfolio = []) :
    ∀ maxQuantity, cfg.positionLimitsPerInstrument.get action.instrument = some maxQuantity →
      portfolio.filledQuantity action ≤ maxQuantity := by
  obtain ⟨hinstrument, -, -⟩ := (PositionLimitsChecker.check_eq_nil_iff cfg action portfolio).mp hpassed
  intro maxQuantity hmax
  have hbound := (hinstrument maxQuantity hmax).1
  exact le_trans (le_abs_self _) hbound

/-- The notional after an order that `check` passes, where market buys of new instruments leave room. -/
theorem totalNotional_fill_le (hvalued : Valued price portfolio) (hprice : ∀ instrument, 0 < price instrument)
    (hat : action.AtPrice price) (hroom : LeavesRoom cfg price portfolio ⟨action, keepsEmpty⟩)
    (hpassed : PositionLimitsChecker.check cfg action portfolio = []) :
    (portfolio.fill price keepsEmpty action).totalNotional ≤ cfg.portfolioNotionalLimit := by
  have hquantity := filledQuantity_le hpassed
  obtain ⟨-, hportfolio, -⟩ := (PositionLimitsChecker.check_eq_nil_iff cfg action portfolio).mp hpassed
  unfold PositionLimitsChecker.WithinPortfolioLimit PositionLimitsChecker.projectedTotal at hportfolio
  have hvalue : 0 < action.quantity * price action.instrument := mul_pos hat.1 (hprice _)
  rw [hvalued.totalNotional_fill]
  by_cases hside : action.side = .BUY
  · rw [filledQuantity_of_buy hside, add_sub_cancel_left]
    rw [if_pos hside, hvalued.getEstimatedPrice hprice hat] at hportfolio
    by_cases hnew : action.price = none ∧ portfolio.position action.instrument = none
    · refine hroom hside hnew.1 hnew.2 fun maxQuantity hmax => ?_
      have hbound := hquantity maxQuantity hmax
      rw [filledQuantity_of_buy hside] at hbound
      simpa [getCurrentQuantity, hnew.2] using hbound
    · rwa [if_neg hnew] at hportfolio
  · rw [filledQuantity_of_sell (side_eq_sell hside)]
    rw [if_neg hside] at hportfolio
    linarith

/-- A market buy of a new instrument that leaves no room passes all the same. -/
theorem check_of_no_room (hvalued : Valued price portfolio) (hprice : ∀ instrument, 0 < price instrument)
    (hwithin : WithinLimits cfg portfolio) (hat : action.AtPrice price)
    (hroom : ¬ LeavesRoom cfg price portfolio ⟨action, keepsEmpty⟩) :
    PositionLimitsChecker.check cfg action portfolio = [] ∧
      cfg.portfolioNotionalLimit < (portfolio.fill price keepsEmpty action).totalNotional := by
  simp only [LeavesRoom] at hroom
  push Not at hroom
  obtain ⟨hside, hnone, hnew, hquantity, habove⟩ := hroom
  have hheld : portfolio.getCurrentQuantity action.instrument = 0 := by simp [getCurrentQuantity, hnew]
  have hestimate : portfolio.getEstimatedPrice action = 0 := by
    rw [hvalued.getEstimatedPrice hprice hat, if_pos ⟨hnone, hnew⟩]
  constructor
  · refine (PositionLimitsChecker.check_eq_nil_iff cfg action portfolio).mpr ⟨?_, ?_, ?_⟩
    · intro maxQuantity hmax
      have hprojected : PositionLimitsChecker.projectedQuantity action portfolio = action.quantity := by
        simp [PositionLimitsChecker.projectedQuantity, hside, hheld]
      rw [hprojected, abs_of_pos hat.1, hestimate]
      exact ⟨hquantity maxQuantity hmax, fun h => absurd h (lt_irrefl _)⟩
    · unfold PositionLimitsChecker.WithinPortfolioLimit PositionLimitsChecker.projectedTotal
      simpa [hside, hestimate] using hwithin.total_le
    · intro hsell
      simp [hside] at hsell
  · rw [hvalued.totalNotional_fill, filledQuantity_of_buy hside, add_sub_cancel_left]
    exact habove

/-! ## Whole runs -/

theorem step_cases {offered : OfferedOrder} {after : PortfolioSnapshot}
    (h : (limitRuns cfg price).step portfolio offered = some after) : offered.action.AtPrice price ∧
      ((PositionLimitsChecker.check cfg offered.action portfolio = [] ∧
        after = portfolio.fill price offered.keepsEmpty offered.action) ∨
      (PositionLimitsChecker.check cfg offered.action portfolio ≠ [] ∧ after = portfolio)) := by
  obtain ⟨hat, hafter⟩ := Option.ite_none_right_eq_some.mp h
  by_cases hpassed : PositionLimitsChecker.check cfg offered.action portfolio = []
  · exact ⟨hat, .inl ⟨hpassed, by simpa [hpassed] using hafter.symm⟩⟩
  · exact ⟨hat, .inr ⟨hpassed, by simpa [hpassed] using hafter.symm⟩⟩

theorem step_keeps_limits (hprice : ∀ instrument, 0 < price instrument) (portfolio : PortfolioSnapshot)
    (offered : OfferedOrder) (after : PortfolioSnapshot)
    (h : Valued price portfolio ∧ WithinLimits cfg portfolio) (hroom : LeavesRoom cfg price portfolio offered)
    (hstep : (limitRuns cfg price).step portfolio offered = some after) :
    Valued price after ∧ WithinLimits cfg after := by
  obtain ⟨hvalued, hwithin⟩ := h
  obtain ⟨hat, ⟨hpassed, rfl⟩ | ⟨-, rfl⟩⟩ := step_cases hstep
  · exact ⟨hvalued.fill, hwithin.fill (filledQuantity_nonneg hwithin hat hpassed) (filledQuantity_le hpassed)
      (totalNotional_fill_le hvalued hprice hat hroom hpassed)⟩
  · exact ⟨hvalued, hwithin⟩

theorem step_breaks_limits (hprice : ∀ instrument, 0 < price instrument) (portfolio : PortfolioSnapshot)
    (offered : OfferedOrder) (after : PortfolioSnapshot)
    (h : Valued price portfolio ∧ WithinLimits cfg portfolio) (hroom : ¬ LeavesRoom cfg price portfolio offered)
    (hstep : (limitRuns cfg price).step portfolio offered = some after) : ¬ WithinLimits cfg after := by
  obtain ⟨hvalued, hwithin⟩ := h
  obtain ⟨hat, hcases⟩ := step_cases hstep
  obtain ⟨hpassed, habove⟩ := check_of_no_room hvalued hprice hwithin hat hroom
  rcases hcases with ⟨-, rfl⟩ | ⟨hblocked, -⟩
  · intro hafter
    exact absurd hafter.total_le (not_le.mpr habove)
  · exact absurd hpassed hblocked

/-- **Limits over runs.** Every portfolio that a run reaches is within its limits if and only if each
market buy of an instrument that is not held leaves room for its notional. -/
theorem withinLimits_iff (hprice : ∀ instrument, 0 < price instrument) (hlimit : 0 ≤ cfg.portfolioNotionalLimit)
    {orders : List OfferedOrder} {after : PortfolioSnapshot}
    (h : (limitRuns cfg price).run .empty orders = some after) :
    (limitRuns cfg price).GuardedRun (LeavesRoom cfg price) .empty orders after ↔
      ∀ before later reached, orders = before ++ later →
        (limitRuns cfg price).run .empty before = some reached → WithinLimits cfg reached := by
  refine StepSystem.GuardedRun.iff_forall_reached
    (fun portfolio => Valued price portfolio ∧ WithinLimits cfg portfolio) (WithinLimits cfg)
    (step_keeps_limits hprice) (fun _ hs => hs.2) (step_breaks_limits hprice) h ⟨?_, ?_⟩
  · exact ⟨List.nodup_nil, by simp [empty], by simp [empty], rfl⟩
  · exact ⟨by simp [empty], by simp [empty], hlimit⟩

end

/-! ## A run within the limits, and a buy that is valued at zero -/

def marketBuy (instrument : String) (quantity : ℚ) : OfferedOrder where
  action :=
    { instrument := instrument, side := .BUY, orderType := .MARKET, quantity := quantity,
      strategyId := "grid", clientOrderId := "00000000-0000-0000-0000-000000000001" }
  keepsEmpty := false

def limitSell (instrument : String) (quantity price : ℚ) : OfferedOrder where
  action :=
    { instrument := instrument, side := .SELL, orderType := .LIMIT, quantity := quantity, price := some price,
      strategyId := "grid", clientOrderId := "00000000-0000-0000-0000-000000000002" }
  keepsEmpty := false

def limitedTo (portfolioNotionalLimit : ℚ) : SecurityConfig where
  portfolioNotionalLimit := portfolioNotionalLimit
  positionLimitsPerInstrument := [("BTC-USDT", 3)]

def buysAndSell : List OfferedOrder :=
  [marketBuy "BTC-USDT" 2, marketBuy "ETH-USDT" 1, marketBuy "BTC-USDT" 1, limitSell "BTC-USDT" 1 100]

theorem buysAndSell_withinLimits : ∃ after : PortfolioSnapshot, after.totalNotional = 300 ∧
    (limitRuns (limitedTo 400) fun _ => 100).run .empty buysAndSell = some after ∧
    ∀ before later reached, buysAndSell = before ++ later →
      (limitRuns (limitedTo 400) fun _ => 100).run .empty before = some reached →
        WithinLimits (limitedTo 400) reached := by
  have hsome : ((limitRuns (limitedTo 400) fun _ => 100).guardedRun (LeavesRoom (limitedTo 400) fun _ => 100)
      .empty buysAndSell).any (fun after => decide (after.totalNotional = 300)) = true := by decide +kernel
  obtain ⟨after, hafter, htotal⟩ := (Option.any_eq_true _ _).mp hsome
  have hrun := StepSystem.GuardedRun.of_guardedRun hafter
  have hprice : ∀ _ : String, (0 : ℚ) < 100 := fun _ => by decide
  exact ⟨after, of_decide_eq_true htotal, hrun.run, (withinLimits_iff hprice (by decide) hrun.run).mp hrun⟩

/-- With a limit of 100, a market order buys ten coins of 100 each: they are valued at zero. -/
theorem newInstrument_above_limit : ∃ (cfg : SecurityConfig) (price : String → ℚ) (orders : List OfferedOrder)
    (after : PortfolioSnapshot), (∀ instrument, 0 < price instrument) ∧ 0 < cfg.portfolioNotionalLimit ∧
      (limitRuns cfg price).run .empty orders = some after ∧ ¬ WithinLimits cfg after := by
  have hsome : ((limitRuns (limitedTo 100) fun _ => 100).run .empty [marketBuy "ETH-USDT" 10]).any
      (fun after => decide (after.totalNotional = 1000)) = true := by decide +kernel
  obtain ⟨after, hafter, htotal⟩ := (Option.any_eq_true _ _).mp hsome
  refine ⟨limitedTo 100, fun _ => 100, _, after, fun _ => (by decide : (0 : ℚ) < 100), by decide, hafter,
    fun hwithin => ?_⟩
  have hle := hwithin.total_le
  rw [of_decide_eq_true htotal] at hle
  exact absurd hle (by decide)

end SuperAi.Risk
