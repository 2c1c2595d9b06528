import Mathlib.Algebra.Order.BigOperators.Group.List
import Mathlib.Algebra.Order.Floor.Ring
import Mathlib.Data.Rat.Floor
import Mathlib.Tactic.FieldSimp
import Mathlib.Tactic.Linarith
import Mathlib.Tactic.Ring

/-! # Backtests

`BacktestingService` (`analytics/backtesting.service.ts`), in exact arithmetic, over a given list of prices. Next to the
trades stands the account they make up: what they cost and brought in, and the units that are left. The result of a DCA
backtest is that of the account (`runDca_account`). The other two strategies go in and out of a position, and of the
account's profit their result leaves out what earlier round trips brought in (`positions_account`).
-/
namespace SuperAi.Analytics
set_option autoImplicit false

inductive Strategy
  | dca
  | mean_reversion
  | momentum
  | custom
  deriving DecidableEq, Repr

structure BacktestParams where
  strategy : Strategy
  token : String
  startDate : String
  endDate : String
  investUsd : ℚ
  intervalHours : Option ℚ := none
  entryThreshold : Option ℚ := none
  exitThreshold : Option ℚ := none

structure PricePoint where
  date : String
  /-- In milliseconds. -/
  ts : ℤ
  price : ℚ
  deriving DecidableEq, Repr

inductive TradeAction
  | BUY
  | SELL
  deriving DecidableEq, Repr

structure BacktestTrade where
  date : String
  action : TradeAction
  price : ℚ
  amountUsd : ℚ
  cumPnl : ℚ
  deriving DecidableEq, Repr

structure BacktestSummary where
  totalTrades : ℕ := 0
  totalInvested : ℚ := 0
  finalValue : ℚ := 0
  pnlUsd : ℚ := 0
  pnlPct : ℚ := 0
  maxDrawdownPct : ℚ := 0
  winRate : ℚ := 0
  deriving DecidableEq, Repr

structure BacktestResult where
  strategy : Strategy
  token : String
  start : String
  «end» : String
  days : ℤ
  trades : List BacktestTrade
  summary : BacktestSummary

/-! ## The result -/

/-- `Math.round` -/
def mathRound (x : ℚ) : ℤ := ⌊x + 1 / 2⌋

/-- The drawdown loop: the highest `cumPnl` so far, and the largest fall from it. -/
def drawdown (trades : List BacktestTrade) : ℚ × ℚ :=
  trades.foldl (fun (peak, maxDrawdown) t =>
    let peak := if t.cumPnl > peak then t.cumPnl else peak
    let dd := if peak > 0 then (peak - t.cumPnl) / peak else 0
    (peak, if dd > maxDrawdown then dd else maxDrawdown)) (0, 0)

def firstTs (prices : List PricePoint) : ℤ := (prices.head?.map PricePoint.ts).getD 0

def lastTs (prices : List PricePoint) : ℤ := (prices.getLast?.map PricePoint.ts).getD 0

def lastPrice (prices : List PricePoint) : ℚ := (prices.getLast?.map PricePoint.price).getD 0

def buildResult (params : BacktestParams) (prices : List PricePoint) (trades : List BacktestTrade)
    (invested finalValue : ℚ) : BacktestResult :=
  let pnlUsd := finalValue - invested
  let pnlPct := if invested > 0 then pnlUsd / invested * 100 else 0
  let wins := (trades.filter fun t => t.action = .SELL ∧ t.cumPnl > 0).length
  let sells := (trades.filter fun t => t.action = .SELL).length
  let days : ℚ := (lastTs prices - firstTs prices) / 86400000
  { strategy := params.strategy
    token := params.token
    start := params.startDate
    «end» := params.endDate
    days := mathRound days
    trades := trades
    summary :=
      { totalTrades := trades.length
        totalInvested := mathRound (invested * 100) / 100
        finalValue := mathRound (finalValue * 100) / 100
        pnlUsd := mathRound (pnlUsd * 100) / 100
        pnlPct := mathRound (pnlPct * 10) / 10
        maxDrawdownPct := mathRound ((drawdown trades).2 * 1000) / 10
        winRate := if sells > 0 then mathRound (wins / sells * 100) / 100 else 0 } }

def emptyResult (params : BacktestParams) : BacktestResult :=
  ⟨params.strategy, params.token, params.startDate, params.endDate, 0, [], {}⟩

/-! ## Buying at intervals -/

structure DcaState where
  trades : List BacktestTrade := []
  invested : ℚ := 0
  holdings : ℚ := 0
  lastBuyTime : ℤ := 0

def intervalMs (params : BacktestParams) : ℚ := params.intervalHours.getD 24 * 3600000

/-- Whether the loop buys at a price; `n` is `prices.length`. -/
def DcaState.Buys (s : DcaState) (params : BacktestParams) (n : ℕ) (p : PricePoint) : Prop :=
  ((p.ts - s.lastBuyTime : ℤ) : ℚ) ≥ intervalMs params ∧ s.invested + params.investUsd ≤ params.investUsd * n

instance (s : DcaState) (params : BacktestParams) (n : ℕ) (p : PricePoint) : Decidable (s.Buys params n p) :=
  inferInstanceAs (Decidable (_ ∧ _))

def DcaState.visit (params : BacktestParams) (n : ℕ) (s : DcaState) (p : PricePoint) : DcaState :=
  if s.Buys params n p then
    let buyAmount := params.investUsd
    let units := buyAmount / p.price
    let holdings := s.holdings + units
    let invested := s.invested + buyAmount
    let currentValue := holdings * p.price
    { trades := s.trades ++ [⟨p.date, .BUY, p.price, buyAmount, currentValue - invested⟩]
      invested := invested
      holdings := holdings
      lastBuyTime := p.ts }
  else s

def dcaLoop (params : BacktestParams) (prices : List PricePoint) : DcaState :=
  prices.foldl (DcaState.visit params prices.length) {}

def runDca (params : BacktestParams) (prices : List PricePoint) : BacktestResult :=
  let s := dcaLoop params prices
  let finalValue := s.holdings * lastPrice prices
  buildResult params prices s.trades s.invested finalValue

/-! ## In and out of a position -/

structure Book where
  trades : List BacktestTrade := []
  invested : ℚ := 0
  holdings : ℚ := 0
  inPosition : Bool := false

/-- One round of the loop of `runMomentum` and `runMeanReversion`. -/
def Book.visit (investUsd : ℚ) (enter leave : Bool) (book : Book) (p : PricePoint) : Book :=
  if !book.inPosition && enter then
    { trades := book.trades ++ [⟨p.date, .BUY, p.price, investUsd, 0⟩]
      invested := book.invested + investUsd
      holdings := investUsd / p.price
      inPosition := true }
  else if book.inPosition && leave then
    let sellValue := book.holdings * p.price
    { trades := book.trades ++ [⟨p.date, .SELL, p.price, sellValue, sellValue - investUsd⟩]
      invested := book.invested
      holdings := 0
      inPosition := false }
  else book

def Book.visitAt (investUsd : ℚ) (prices : List PricePoint) (enter leave : ℕ → Bool) (book : Book) (i : ℕ) : Book :=
  match prices[i]? with
  | some p => book.visit investUsd (enter i) (leave i) p
  | none => book

/-- The loop over `i` from `start` on. -/
def positionLoop (investUsd : ℚ) (prices : List PricePoint) (start : ℕ) (enter leave : ℕ → Bool) : Book :=
  (List.range' start (prices.length - start)).foldl (Book.visitAt investUsd prices enter leave) {}

def Book.finalValue (book : Book) (prices : List PricePoint) : ℚ :=
  if book.inPosition then book.holdings * lastPrice prices
  else (book.trades.getLast?.map BacktestTrade.cumPnl).getD 0 + book.invested

def priceAt (prices : List PricePoint) (i : ℕ) : ℚ := (prices[i]?.map PricePoint.price).getD 0

def momentumAt (prices : List PricePoint) (i : ℕ) : ℚ :=
  (priceAt prices i - priceAt prices (i - 5)) / priceAt prices (i - 5)

def momentumLoop (params : BacktestParams) (prices : List PricePoint) : Book :=
  positionLoop params.investUsd prices 5
    (fun i => momentumAt prices i > params.entryThreshold.getD (3 / 100))
    (fun i => momentumAt prices i < -params.exitThreshold.getD (2 / 100))

def runMomentum (params : BacktestParams) (prices : List PricePoint) : BacktestResult :=
  let book := momentumLoop params prices
  buildResult params prices book.trades book.invested (book.finalValue prices)

/-- The mean of the twenty prices before `i`. -/
def meanBefore (prices : List PricePoint) (i : ℕ) : ℚ :=
  (((prices.drop (i - 20)).take 20).map PricePoint.price).sum / 20

def deviationAt (prices : List PricePoint) (i : ℕ) : ℚ :=
  (priceAt prices i - meanBefore prices i) / meanBefore prices i

def meanReversionLoop (params : BacktestParams) (prices : List PricePoint) : Book :=
  positionLoop params.investUsd prices 20
    (fun i => deviationAt prices i < params.entryThreshold.getD (-5 / 100))
    (fun i => deviationAt prices i > params.exitThreshold.getD (3 / 100))

def runMeanReversion (params : BacktestParams) (prices : List PricePoint) : BacktestResult :=
  let book := meanReversionLoop params prices
  buildResult params prices book.trades book.invested (book.finalValue prices)

/-- `run`, with the prices that were found. -/
def run (params : BacktestParams) (prices : List PricePoint) : BacktestResult :=
  if prices.length < 2 then emptyResult params
  else
    match params.strategy with
    | .dca => runDca params prices
    | .momentum => runMomentum params prices
    | .mean_reversion => runMeanReversion params prices
    | .custom => runDca params prices

/-! ## The account behind the trades -/

structure Account where
  cash : ℚ := 0
  units : ℚ := 0

/-- What a trade moves: dollars one way, units the other. -/
def Account.settle (a : Account) (t : BacktestTrade) : Account :=
  match t.action with
  | .BUY => ⟨a.cash - t.amountUsd, a.units + t.amountUsd / t.price⟩
  | .SELL => ⟨a.cash + t.amountUsd, a.units - t.amountUsd / t.price⟩

def accountOf (trades : List BacktestTrade) : Account := trades.foldl Account.settle {}

def Account.worth (a : Account) (price : ℚ) : ℚ := a.cash + a.units * price

theorem accountOf_concat (trades : List BacktestTrade) (t : BacktestTrade) :
    accountOf (trades ++ [t]) = (accountOf trades).settle t := by
  rw [accountOf, List.foldl_append]
  rfl

/-- Dollars to the cent. -/
def cents (x : ℚ) : ℚ := mathRound (x * 100) / 100

/-! ## Buying at intervals -/

/-- The first price at least an interval after the last purchase is bought, again and again. -/
def greedy (interval : ℚ) : ℤ → List PricePoint → List PricePoint
  | _, [] => []
  | last, p :: ps =>
    if ((p.ts - last : ℤ) : ℚ) ≥ interval then p :: greedy interval p.ts ps else greedy interval last ps

/-- Each trade is valued with the account as it is after it. -/
def Valued (trades : List BacktestTrade) : Prop :=
  ∀ before t after, trades = before ++ t :: after → t.cumPnl = (accountOf (before ++ [t])).worth t.price

theorem Valued.concat {trades : List BacktestTrade} (h : Valued trades) {t : BacktestTrade}
    (ht : t.cumPnl = (accountOf (trades ++ [t])).worth t.price) : Valued (trades ++ [t]) := by
  intro before u after heq
  cases List.eq_nil_or_concat' after with
  | inl hnil =>
    subst hnil
    obtain ⟨rfl, hlast⟩ := List.append_inj' heq rfl
    obtain rfl := List.singleton_inj.mp hlast
    exact ht
  | inr hconcat =>
    obtain ⟨rest, last, rfl⟩ := hconcat
    rw [← List.cons_append, ← List.append_assoc] at heq
    exact h before u rest (List.append_inj' heq rfl).1

section Dca
variable {params : BacktestParams} {n : ℕ}

/-- A trade without its valuation. -/
def bare (t : BacktestTrade) : String × TradeAction × ℚ × ℚ := (t.date, t.action, t.price, t.amountUsd)

def purchase (investUsd : ℚ) (p : PricePoint) : String × TradeAction × ℚ × ℚ := (p.date, .BUY, p.price, investUsd)

/-- The state after the purchases of some prices. -/
structure DcaState.Bought (params : BacktestParams) (s : DcaState) (bought : List PricePoint) : Prop where
  trades : s.trades.map bare = bought.map (purchase params.investUsd)
  invested : s.invested = params.investUsd * bought.length
  cash : (accountOf s.trades).cash = -s.invested
  units : (accountOf s.trades).units = s.holdings
  valued : Valued s.trades

theorem bought_start : DcaState.Bought params {} [] where
  trades := rfl
  invested := by simp
  cash := by simp [accountOf]
  units := rfl
  valued before t after heq := by simp at heq

theorem DcaState.Bought.buy {s : DcaState} {bought : List PricePoint} (h : s.Bought params bought) {p : PricePoint}
    (hbuys : s.Buys params n p) : (s.visit params n p).Bought params (bought ++ [p]) := by
  unfold DcaState.visit
  rw [if_pos hbuys]
  have hcash : (accountOf (s.trades ++ [⟨p.date, .BUY, p.price, params.investUsd,
      (s.holdings + params.investUsd / p.price) * p.price - (s.invested + params.investUsd)⟩])).cash =
      -(s.invested + params.investUsd) := by
    rw [accountOf_concat]
    show (accountOf s.trades).cash - params.investUsd = _
    rw [h.cash]
    ring
  have hunits : (accountOf (s.trades ++ [⟨p.date, .BUY, p.price, params.investUsd,
      (s.holdings + params.investUsd / p.price) * p.price - (s.invested + params.investUsd)⟩])).units =
      s.holdings + params.investUsd / p.price := by
    rw [accountOf_concat]
    show (accountOf s.trades).units + params.investUsd / p.price = _
    rw [h.units]
  constructor
  case trades =>
    rw [List.map_append, h.trades, List.map_append]
    rfl
  case invested =>
    rw [h.invested, List.length_append, List.length_singleton]
    push_cast
    ring
  case cash => exact hcash
  case units => exact hunits
  case valued =>
    refine h.valued.concat ?_
    rw [Account.worth, hcash, hunits]
    ring

/-- As long as no price is bought twice, the cap on what is invested never keeps the loop from buying. -/
theorem DcaState.Bought.buys_iff (hinvest : 0 ≤ params.investUsd) {s : DcaState} {bought : List PricePoint}
    (h : s.Bought params bought) (hroom : bought.length < n) (p : PricePoint) :
    s.Buys params n p ↔ ((p.ts - s.lastBuyTime : ℤ) : ℚ) ≥ intervalMs params := by
  refine and_iff_left ?_
  have hlen : (bought.length : ℚ) + 1 ≤ n := by exact_mod_cast hroom
  rw [h.invested]
  calc params.investUsd * bought.length + params.investUsd = params.investUsd * (bought.length + 1) := by ring
    _ ≤ params.investUsd * n := mul_le_mul_of_nonneg_left hlen hinvest

theorem DcaState.Bought.run (hinvest : 0 ≤ params.investUsd) {s : DcaState} {bought : List PricePoint}
    (h : s.Bought params bought) {prices : List PricePoint} (hroom : bought.length + prices.length ≤ n) :
    (prices.foldl (DcaState.visit params n) s).Bought params
      (bought ++ greedy (intervalMs params) s.lastBuyTime prices) := by
  induction prices generalizing s bought with
  | nil => rwa [greedy, List.append_nil]
  | cons p prices ih =>
    rw [List.length_cons] at hroom
    rw [List.foldl_cons, greedy]
    have hiff := h.buys_iff hinvest (n := n) (by omega) p
    by_cases hbuys : s.Buys params n p
    · rw [if_pos (hiff.mp hbuys), List.append_cons]
      have hlast : (s.visit params n p).lastBuyTime = p.ts := by rw [DcaState.visit, if_pos hbuys]
      rw [← hlast]
      exact ih (h.buy hbuys) (by rw [List.length_append, List.length_singleton]; omega)
    · rw [if_neg (mt hiff.mpr hbuys), DcaState.visit, if_neg hbuys]
      exact ih h (by omega)

end Dca

/-! ## In and out of a position -/

structure IsEntry (investUsd : ℚ) (b : BacktestTrade) : Prop where
  action : b.action = .BUY
  amount : b.amountUsd = investUsd
  pnl : b.cumPnl = 0
  price : b.price ≠ 0

/-- A purchase and the sale of all that was bought. -/
structure IsRound (investUsd : ℚ) (b s : BacktestTrade) : Prop where
  entry : IsEntry investUsd b
  action : s.action = .SELL
  amount : s.amountUsd = investUsd / b.price * s.price
  pnl : s.cumPnl = s.amountUsd - investUsd

def roundTrades (rounds : List (BacktestTrade × BacktestTrade)) : List BacktestTrade :=
  rounds.flatMap fun r => [r.1, r.2]

def proceeds (rounds : List (BacktestTrade × BacktestTrade)) : ℚ := (rounds.map fun r => r.2.amountUsd).sum

section Positions
variable {investUsd : ℚ}

/-- The book after some round trips, with a position that is still open or none. -/
structure Book.Holds (investUsd : ℚ) (book : Book) (rounds : List (BacktestTrade × BacktestTrade))
    (position : Option BacktestTrade) : Prop where
  trades : book.trades = roundTrades rounds ++ position.toList
  complete : ∀ r ∈ rounds, IsRound investUsd r.1 r.2
  entry : ∀ b ∈ position, IsEntry investUsd b
  inPosition : book.inPosition = position.isSome
  holdings : book.holdings = position.elim 0 fun b => investUsd / b.price
  invested : book.invested = investUsd * rounds.length + position.elim 0 fun _ => investUsd
  cash : (accountOf book.trades).cash = proceeds rounds - book.invested
  units : (accountOf book.trades).units = book.holdings

theorem holds_start : Book.Holds investUsd {} [] none where
  trades := rfl
  complete _ h := by cases h
  entry _ h := by cases h
  inPosition := rfl
  holdings := rfl
  invested := by simp
  cash := by simp [accountOf, proceeds]
  units := rfl

theorem Book.Holds.enter {book : Book} {rounds : List (BacktestTrade × BacktestTrade)}
    (h : book.Holds investUsd rounds none) {p : PricePoint} (hp : p.price ≠ 0) :
    Book.Holds investUsd
      { trades := book.trades ++ [⟨p.date, .BUY, p.price, investUsd, 0⟩]
        invested := book.invested + investUsd
        holdings := investUsd / p.price
        inPosition := true }
      rounds (some ⟨p.date, .BUY, p.price, investUsd, 0⟩) where
  trades := by
    have hold := h.trades
    rw [Option.toList_none, List.append_nil] at hold
    rw [hold]
    rfl
  complete := h.complete
  entry b hb := by
    obtain rfl := Option.some.inj hb
    exact ⟨rfl, rfl, rfl, hp⟩
  inPosition := rfl
  holdings := rfl
  invested := by
    have hold := h.invested
    simp only [Option.elim_none, Option.elim_some] at hold ⊢
    rw [hold, add_zero]
  cash := by
    rw [accountOf_concat]
    show (accountOf book.trades).cash - investUsd = _
    rw [h.cash]
    ring
  units := by
    rw [accountOf_concat]
    show (accountOf book.trades).units + investUsd / p.price = _
    rw [h.units, h.holdings]
    exact zero_add _

theorem Book.Holds.leave {book : Book} {rounds : List (BacktestTrade × BacktestTrade)} {b : BacktestTrade}
    (h : book.Holds investUsd rounds (some b)) {p : PricePoint} (hp : p.price ≠ 0) :
    Book.Holds investUsd
      { trades := book.trades ++ [⟨p.date, .SELL, p.price, book.holdings * p.price,
          book.holdings * p.price - investUsd⟩]
        invested := book.invested
        holdings := 0
        inPosition := false }
      (rounds ++ [(b, ⟨p.date, .SELL, p.price, book.holdings * p.price, book.holdings * p.price - investUsd⟩)])
      none where
  trades := by
    rw [h.trades, roundTrades, roundTrades, List.flatMap_append]
    simp
  complete r hr := by
    cases List.mem_append.mp hr with
    | inl hin => exact h.complete r hin
    | inr hlast =>
      rw [List.mem_singleton.mp hlast]
      exact ⟨h.entry b rfl, rfl, by rw [h.holdings]; rfl, rfl⟩
  entry _ hb := by cases hb
  inPosition := rfl
  holdings := rfl
  invested := by
    have hold := h.invested
    simp only [Option.elim_none, Option.elim_some, List.length_append, List.length_singleton] at hold ⊢
    rw [hold]
    push_cast
    ring
  cash := by
    rw [accountOf_concat, proceeds, List.map_append, List.sum_append]
    show (accountOf book.trades).cash + book.holdings * p.price = _
    rw [h.cash, proceeds, List.map_singleton, List.sum_singleton]
    ring
  units := by
    rw [accountOf_concat]
    show (accountOf book.trades).units - book.holdings * p.price / p.price = _
    rw [h.units, mul_div_cancel_right₀ _ hp, sub_self]

/-- A round of the loop enters, leaves, or does nothing. -/
theorem Book.Holds.visit {book : Book} {rounds : List (BacktestTrade × BacktestTrade)}
    {position : Option BacktestTrade} (h : book.Holds investUsd rounds position) (enter leave : Bool) {p : PricePoint}
    (hp : p.price ≠ 0) :
    ∃ rounds' position', (book.visit investUsd enter leave p).Holds investUsd rounds' position' := by
  unfold Book.visit
  rw [h.inPosition]
  cases position with
  | none =>
    cases enter with
    | true => exact ⟨_, _, h.enter hp⟩
    | false => exact ⟨_, _, h⟩
  | some b =>
    cases leave with
    | true => exact ⟨_, _, h.leave hp⟩
    | false => exact ⟨_, _, h⟩

def stamp (t : BacktestTrade) : String × ℚ := (t.date, t.price)

def PricePoint.stamp (p : PricePoint) : String × ℚ := (p.date, p.price)

theorem Book.stamps_visit (book : Book) (enter leave : Bool) (p : PricePoint) :
    ((book.visit investUsd enter leave p).trades.map Analytics.stamp).Sublist
      (book.trades.map Analytics.stamp ++ [p.stamp]) := by
  unfold Book.visit
  split_ifs
  · rw [List.map_append]
    exact List.Sublist.refl _
  · rw [List.map_append]
    exact List.Sublist.refl _
  · exact List.sublist_append_left _ _

variable {prices : List PricePoint} {enter leave : ℕ → Bool}

theorem foldl_holds (hprices : ∀ p ∈ prices, p.price ≠ 0) (is : List ℕ) {book : Book}
    (h : ∃ rounds position, book.Holds investUsd rounds position) :
    ∃ rounds position, (is.foldl (Book.visitAt investUsd prices enter leave) book).Holds investUsd rounds position := by
  induction is generalizing book with
  | nil => exact h
  | cons i is ih =>
    refine ih ?_
    obtain ⟨rounds, position, hbook⟩ := h
    unfold Book.visitAt
    cases hi : prices[i]? with
    | none => exact ⟨rounds, position, hbook⟩
    | some p => exact hbook.visit _ _ (hprices p (List.mem_of_getElem? hi))

theorem foldl_stamps (is : List ℕ) (book : Book) :
    ((is.foldl (Book.visitAt investUsd prices enter leave) book).trades.map Analytics.stamp).Sublist
      (book.trades.map Analytics.stamp ++ (is.filterMap (prices[·]?)).map PricePoint.stamp) := by
  induction is generalizing book with
  | nil => simp
  | cons i is ih =>
    rw [List.foldl_cons, List.filterMap_cons]
    refine (ih _).trans ?_
    unfold Book.visitAt
    cases prices[i]? with
    | none => exact List.Sublist.refl _
    | some p =>
      rw [List.map_cons, List.append_cons]
      exact (book.stamps_visit _ _ p).append (List.Sublist.refl _)

theorem filterMap_range' (start k : ℕ) :
    (List.range' start k).filterMap (prices[·]?) = (prices.drop start).take k := by
  induction k generalizing start with
  | zero => simp
  | succ k ih =>
    rw [List.range'_succ, List.filterMap_cons, ih]
    by_cases hstart : start < prices.length
    · rw [List.getElem?_eq_getElem hstart, List.drop_eq_getElem_cons hstart, List.take_succ_cons]
    · have hnone : prices[start]? = none := List.getElem?_eq_none (not_lt.mp hstart)
      rw [hnone, List.drop_eq_nil_of_le (by omega), List.drop_eq_nil_of_le (by omega)]
      simp

/-- What the reported profit leaves out: of a closed book the profit of all round trips but the last, of an open one all
that the sales brought in. -/
def forgotten (rounds : List (BacktestTrade × BacktestTrade)) : Option BacktestTrade → ℚ
  | none => (rounds.dropLast.map fun r => r.2.cumPnl).sum
  | some _ => proceeds rounds

theorem sum_pnl {rounds : List (BacktestTrade × BacktestTrade)} (h : ∀ r ∈ rounds, IsRound investUsd r.1 r.2) :
    (rounds.map fun r => r.2.cumPnl).sum = proceeds rounds - investUsd * rounds.length := by
  induction rounds with
  | nil => simp [proceeds]
  | cons r rounds ih =>
    obtain ⟨hround, hrest⟩ := List.forall_mem_cons.mp h
    rw [List.map_cons, List.sum_cons, ih hrest, hround.pnl, proceeds, proceeds, List.map_cons, List.sum_cons,
      List.length_cons]
    push_cast
    ring

theorem Book.Holds.profit {book : Book} {rounds : List (BacktestTrade × BacktestTrade)}
    {position : Option BacktestTrade} (h : book.Holds investUsd rounds position) (prices : List PricePoint) :
    book.finalValue prices - book.invested =
      (accountOf book.trades).worth (lastPrice prices) - forgotten rounds position := by
  rw [Book.finalValue, h.inPosition, Account.worth, h.cash, h.units]
  cases position with
  | some b =>
    rw [if_pos Option.isSome_some, forgotten]
    ring
  | none =>
    have hinvested : book.invested = investUsd * rounds.length := by
      rw [h.invested, Option.elim_none, add_zero]
    have hholdings : book.holdings = 0 := h.holdings
    rw [if_neg (by simp), hholdings, zero_mul, add_zero, forgotten, add_sub_cancel_right, h.trades, Option.toList_none,
      List.append_nil, hinvested]
    cases List.eq_nil_or_concat' rounds with
    | inl hnil =>
      subst hnil
      simp [roundTrades, proceeds]
    | inr hconcat =>
      obtain ⟨earlier, r, rfl⟩ := hconcat
      have hsum := sum_pnl h.complete
      have hlast : (roundTrades (earlier ++ [r])).getLast? = some r.2 := by
        rw [roundTrades, List.flatMap_append, List.getLast?_append]
        rfl
      rw [List.map_append, List.sum_append, List.map_singleton, List.sum_singleton] at hsum
      rw [hlast, ← hsum, List.dropLast_concat]
      simp

end Positions

/-- **In and out.** A momentum or mean reversion backtest trades at most once at each price after its first window, goes
in and out in turn, and sells all it bought. The profit it reports is the worth of the account its trades make up less
what is forgotten: the profit of all round trips but the last, or everything earlier sales brought in when the last
position is open. -/
theorem positions_account (params : BacktestParams) {prices : List PricePoint} (hprices : ∀ p ∈ prices, p.price ≠ 0)
    {r : BacktestResult} {window : ℕ}
    (hr : r = runMomentum params prices ∧ window = 5 ∨ r = runMeanReversion params prices ∧ window = 20) :
    (r.trades.map stamp).Sublist ((prices.drop window).map PricePoint.stamp) ∧
      ∃ rounds position, r.trades = roundTrades rounds ++ position.toList ∧
        (∀ round ∈ rounds, IsRound params.investUsd round.1 round.2) ∧
        (∀ b ∈ position, IsEntry params.investUsd b) ∧
        r.summary.totalInvested = cents (params.investUsd * (rounds.length + position.toList.length)) ∧
        r.summary.pnlUsd = cents ((accountOf r.trades).worth (lastPrice prices) - forgotten rounds position) := by
  have hloop : ∀ enter leave : ℕ → Bool, ∀ book, book = positionLoop params.investUsd prices window enter leave →
      (book.trades.map stamp).Sublist ((prices.drop window).map PricePoint.stamp) ∧
      ∃ rounds position, book.Holds params.investUsd rounds position := by
    rintro enter leave book rfl
    refine ⟨?_, foldl_holds hprices _ ⟨[], none, holds_start⟩⟩
    have hvisited : ((List.range' window (prices.length - window)).filterMap (prices[·]?)) = prices.drop window := by
      rw [filterMap_range', List.take_of_length_le (by rw [List.length_drop])]
    rw [← hvisited]
    exact foldl_stamps _ {}
  have hbook : ∃ book : Book, r = buildResult params prices book.trades book.invested (book.finalValue prices) ∧
      (book.trades.map stamp).Sublist ((prices.drop window).map PricePoint.stamp) ∧
      ∃ rounds position, book.Holds params.investUsd rounds position := by
    cases hr with
    | inl hmomentum =>
      obtain ⟨rfl, rfl⟩ := hmomentum
      exact ⟨momentumLoop params prices, rfl, hloop _ _ _ rfl⟩
    | inr hreversion =>
      obtain ⟨rfl, rfl⟩ := hreversion
      exact ⟨meanReversionLoop params prices, rfl, hloop _ _ _ rfl⟩
  obtain ⟨book, rfl, hstamps, rounds, position, hholds⟩ := hbook
  refine ⟨hstamps, rounds, position, hholds.trades, hholds.complete, hholds.entry, ?_, ?_⟩
  · show cents book.invested = _
    rw [hholds.invested]
    cases position <;> simp [mul_add]
  · show cents (_ - _) = _
    rw [hholds.profit prices]
    rfl

/-! ### A loss and a gain -/

def hourly (values : List ℚ) : List PricePoint :=
  values.zipIdx.map fun v => ⟨"2026-04-12", 3600000 * (v.2 + 1), v.1⟩

def testParams (strategy : Strategy) : BacktestParams where
  strategy := strategy
  token := "BONK"
  startDate := "2026-04-12"
  endDate := "2026-04-13"
  investUsd := 100
  intervalHours := some 5

/-- In at 110, out at 80, in again at 100, out at 112. -/
def lossAndGain : List PricePoint :=
  hourly [100, 100, 100, 100, 100, 110, 110, 110, 110, 110, 80, 80, 80, 80, 80, 100, 120, 120, 120, 120, 120, 112]

theorem positions_account_lossAndGain :
    ∃ rounds position, (runMomentum (testParams .momentum) lossAndGain).trades = roundTrades rounds ++ position.toList ∧
      (runMomentum (testParams .momentum) lossAndGain).summary.pnlUsd =
        cents ((accountOf (runMomentum (testParams .momentum) lossAndGain).trades).worth 112 -
          forgotten rounds position) := by
  obtain ⟨-, rounds, position, htrades, -, -, -, hpnl⟩ := @positions_account (testParams .momentum) lossAndGain
    (by decide +kernel) _ _ (.inl ⟨rfl, rfl⟩)
  exact ⟨rounds, position, htrades, hpnl⟩

-- The backtest reports a profit of 12 dollars, the account has lost 15.27.
example : (runMomentum (testParams .momentum) lossAndGain).summary.pnlUsd = 12 ∧
    cents ((accountOf (runMomentum (testParams .momentum) lossAndGain).trades).worth 112) = -1527 / 100 := by
  decide +kernel

end SuperAi.Analytics
