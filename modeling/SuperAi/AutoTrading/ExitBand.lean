import SuperAi.AutoTrading.Workers
import Mathlib.Algebra.BigOperators.Ring.List
import Mathlib.Algebra.Order.BigOperators.Group.List
import Mathlib.Algebra.Order.Field.Basic
import Mathlib.Tactic.FieldSimp

/-! # What an automatic exit can book

The watcher books an exit at the price that was set for it, however far the market has gone past it, and the time limit
only between these prices. Between a read of a row and the next there may be any number of steps, but a row keeps its
prices as long as it is there and its id is not given out again. So no automatic trade loses more than the widest stop
loss or wins more than the widest take profit (`automatic_trades_bounded`). As the books balance in the whole system
too, what a user has is bounded by what the user has staked (`equity_bounded`).
-/
namespace SuperAi.AutoTrading
open SuperAi.Auth SuperAi.Foundations SuperAi.HotTokens
set_option autoImplicit false

/-! ## Prices within a band -/

section Band
variable (L T : ℚ)

/-- At most `L` percent below the entry, and at most `T` percent above it. -/
def InBand (p : AutoPosition) (price : ℚ) : Prop :=
  p.entryPriceUsd * (1 - L / 100) ≤ price ∧ price ≤ p.entryPriceUsd * (1 + T / 100)

structure Banded (p : AutoPosition) : Prop where
  entry : 0 < p.entryPriceUsd
  size : 0 < p.sizeUsd
  amount : p.tokenAmount = p.sizeUsd / p.entryPriceUsd
  takeProfit1 : InBand L T p p.takeProfit1PriceUsd
  takeProfit2 : InBand L T p p.takeProfit2PriceUsd
  stopLoss : InBand L T p p.stopLossPriceUsd

/-- A trade loses at most `L` percent and wins at most `T` percent. -/
structure TradeWithin (t : AutoTrade) : Prop where
  loss : -L ≤ t.pnlPct
  gain : t.pnlPct ≤ T
  lossUsd : -(t.sizeUsd * (L / 100)) ≤ t.pnlUsd
  gainUsd : t.pnlUsd ≤ t.sizeUsd * (T / 100)

/-- The exits of a user, as percentages. -/
structure PortfolioBanded (portfolio : AutoPortfolio) : Prop where
  takeProfit1 : ∀ pct ∈ portfolio.takeProfit1Pct, -L ≤ pct ∧ pct ≤ T
  takeProfit2 : ∀ pct ∈ portfolio.takeProfit2Pct, -L ≤ pct ∧ pct ≤ T
  stopLoss : ∀ pct ∈ portfolio.stopLossPct, -T ≤ pct ∧ pct ≤ L

end Band

/-- What the controller and the picker give to `openPosition`. -/
structure PlainInput (input : OpenAutoPositionInput) : Prop where
  takeProfit1 : input.takeProfit1Pct = none
  takeProfit2 : input.takeProfit2Pct = none
  stopLoss : input.stopLossPct = none

section Positions
variable {L T : ℚ} {p : AutoPosition} {px : ℚ} {now : ℤ}

theorem inBand_entry (hL : 0 ≤ L) (hT : 0 ≤ T) (h : 0 < p.entryPriceUsd) : InBand L T p p.entryPriceUsd := by
  constructor
  · have hloss : 0 ≤ p.entryPriceUsd * (L / 100) := mul_nonneg h.le (by linarith)
    linarith
  · have hgain : 0 ≤ p.entryPriceUsd * (T / 100) := mul_nonneg h.le (by linarith)
    linarith

theorem inBand_of_mult {mult : ℚ} (h : 0 < p.entryPriceUsd) (hlow : 1 - L / 100 ≤ mult) (hhigh : mult ≤ 1 + T / 100) :
    InBand L T p (p.entryPriceUsd * mult) :=
  ⟨mul_le_mul_of_nonneg_left hlow h.le, mul_le_mul_of_nonneg_left hhigh h.le⟩

/-- A price at which nothing fires lies between the stop loss and the first take profit. -/
theorem between_of_none (h : decideExit p px now = none) : p.stopLossPriceUsd < px ∧ px < p.takeProfit1PriceUsd := by
  unfold decideExit at h
  by_cases hsecond : p.takeProfit2PriceUsd ≤ px
  · rw [if_pos hsecond] at h
    cases h
  rw [if_neg hsecond] at h
  by_cases hfirst : p.takeProfit1PriceUsd ≤ px
  · rw [if_pos hfirst] at h
    cases h
  rw [if_neg hfirst] at h
  by_cases hstop : px ≤ p.stopLossPriceUsd
  · rw [if_pos hstop] at h
    cases h
  exact ⟨not_le.mp hstop, not_le.mp hfirst⟩

theorem Banded.kept (h : Banded L T p) (hdecide : decideExit p px now = none) : InBand L T p px := by
  obtain ⟨hstop, hfirst⟩ := between_of_none hdecide
  exact ⟨h.stopLoss.1.trans hstop.le, hfirst.le.trans h.takeProfit1.2⟩

theorem Banded.fired (h : Banded L T p) {decision : CloseDecision} (hdecide : decideExit p px now = some decision) :
    InBand L T p decision.exitPriceUsd := by
  unfold decideExit at hdecide
  by_cases hsecond : p.takeProfit2PriceUsd ≤ px
  · rw [if_pos hsecond] at hdecide
    obtain rfl := Option.some.inj hdecide
    exact h.takeProfit2
  rw [if_neg hsecond] at hdecide
  by_cases hfirst : p.takeProfit1PriceUsd ≤ px
  · rw [if_pos hfirst] at hdecide
    obtain rfl := Option.some.inj hdecide
    exact h.takeProfit1
  rw [if_neg hfirst] at hdecide
  by_cases hstop : px ≤ p.stopLossPriceUsd
  · rw [if_pos hstop] at hdecide
    obtain rfl := Option.some.inj hdecide
    exact h.stopLoss
  rw [if_neg hstop] at hdecide
  -- the time limit, at the price of the market
  obtain ⟨-, hsome⟩ := Option.ite_none_right_eq_some.mp hdecide
  obtain rfl := Option.some.inj hsome
  exact ⟨h.stopLoss.1.trans (not_le.mp hstop).le, (not_le.mp hfirst).le.trans h.takeProfit1.2⟩

/-- What a trade wins or loses is its size times what the price has moved. -/
theorem Banded.closedTrade (h : Banded L T p) {decision : CloseDecision} (hprice : InBand L T p decision.exitPriceUsd)
    (now : ℤ) : TradeWithin L T (closedTrade p decision now) := by
  have hentry := h.entry
  have hlow : 1 - L / 100 ≤ decision.exitPriceUsd / p.entryPriceUsd := by
    rw [le_div_iff₀ hentry, mul_comm]
    exact hprice.1
  have hhigh : decision.exitPriceUsd / p.entryPriceUsd ≤ 1 + T / 100 := by
    rw [div_le_iff₀ hentry, mul_comm]
    exact hprice.2
  have hpnl : (decision.exitPriceUsd - p.entryPriceUsd) * p.tokenAmount =
      p.sizeUsd * (decision.exitPriceUsd / p.entryPriceUsd - 1) := by
    rw [h.amount]
    field_simp
  constructor
  · change -L ≤ (decision.exitPriceUsd / p.entryPriceUsd - 1) * 100
    linarith
  · change (decision.exitPriceUsd / p.entryPriceUsd - 1) * 100 ≤ T
    linarith
  · change -(p.sizeUsd * (L / 100)) ≤ (decision.exitPriceUsd - p.entryPriceUsd) * p.tokenAmount
    rw [hpnl, ← mul_neg]
    exact mul_le_mul_of_nonneg_left (by linarith) h.size.le
  · change (decision.exitPriceUsd - p.entryPriceUsd) * p.tokenAmount ≤ p.sizeUsd * (T / 100)
    rw [hpnl]
    exact mul_le_mul_of_nonneg_left (by linarith) h.size.le

end Positions

/-! ## New positions -/

theorem resolveProfile_mem (key : String) : resolveProfile key ∈ PROFILES.map Prod.snd := by
  unfold resolveProfile
  cases h : PROFILES.lookup key with
  | none => simp [PROFILES]
  | some strat =>
    obtain ⟨before, after, hsplit, -⟩ := List.lookup_eq_some_iff.mp h
    rw [Option.getD_some, hsplit]
    simp

/-- The widest exits of the profiles: a stop of a quarter and a second target of five times the entry. -/
theorem resolveProfile_within (key : String) :
    (0 ≤ (resolveProfile key).stopLossPct ∧ (resolveProfile key).stopLossPct ≤ 25) ∧
    (∀ mult ∈ (resolveProfile key).targets[0]?, 1 ≤ mult ∧ mult ≤ 5) ∧
    ∀ mult ∈ (resolveProfile key).targets[1]?, 1 ≤ mult ∧ mult ≤ 5 := by
  have hall : ∀ strat ∈ PROFILES.map Prod.snd, (0 ≤ strat.stopLossPct ∧ strat.stopLossPct ≤ 25) ∧
      (∀ mult ∈ strat.targets[0]?, 1 ≤ mult ∧ mult ≤ 5) ∧ ∀ mult ∈ strat.targets[1]?, 1 ≤ mult ∧ mult ≤ 5 := by
    simp only [PROFILES, meme_hunter, List.map_cons, List.map_nil, List.forall_mem_cons]
    norm_num
  exact hall _ (resolveProfile_mem key)

/-- An exit of a portfolio if there is one, else the profile's. -/
theorem inBand_exit {L T : ℚ} {p : AutoPosition} (hentry : 0 < p.entryPriceUsd) {pct : Option ℚ}
    (hpct : ∀ x ∈ pct, -L ≤ x ∧ x ≤ T) {mult : ℚ} (hmult : 1 - L / 100 ≤ mult ∧ mult ≤ 1 + T / 100) :
    InBand L T p (p.entryPriceUsd * ((pct.map fun x => 1 + x / 100).getD mult)) := by
  cases pct with
  | none => exact inBand_of_mult hentry hmult.1 hmult.2
  | some x =>
    obtain ⟨hlow, hhigh⟩ := hpct x rfl
    apply inBand_of_mult hentry
    · change 1 - L / 100 ≤ 1 + x / 100
      linarith
    · change 1 + x / 100 ≤ 1 + T / 100
      linarith

section NewPosition
variable {L T : ℚ} {input : OpenAutoPositionInput} {portfolio : AutoPortfolio}

theorem newPosition_banded (hL : 25 ≤ L) (hT : 400 ≤ T) (hinput : PlainInput input)
    (hpos : 0 < input.entryPriceUsd ∧ 0 < input.sizeUsd) (h : PortfolioBanded L T portfolio) (id : ℕ) (now : ℤ) :
    Banded L T (newPosition input portfolio id now) := by
  obtain ⟨⟨hstopLow, hstopHigh⟩, hfirst, hsecond⟩ := resolveProfile_within input.profileKey
  have hentry : 0 < (newPosition input portfolio id now).entryPriceUsd := hpos.1
  have htarget : ∀ {o : Option ℚ} (x : ℚ), (∀ mult ∈ o, 1 ≤ mult ∧ mult ≤ 5) → 1 ≤ x ∧ x ≤ 5 →
      1 - L / 100 ≤ o.getD x ∧ o.getD x ≤ 1 + T / 100 := by
    intro o x ho hx
    have hrange : 1 ≤ o.getD x ∧ o.getD x ≤ 5 := by
      cases o with
      | none => exact hx
      | some mult => exact ho mult rfl
    constructor
    · linarith [hrange.1]
    · linarith [hrange.2]
  refine ⟨hentry, hpos.2, rfl, ?_, ?_, ?_⟩
  · have hband := inBand_exit hentry h.takeProfit1 (htarget (3 / 2) hfirst (by norm_num))
    simpa [newPosition, hinput.takeProfit1] using hband
  · have hboth : ∀ mult ∈
        (resolveProfile input.profileKey).targets[1]?.or (resolveProfile input.profileKey).targets[0]?,
          1 ≤ mult ∧ mult ≤ 5 := by
      intro mult hmem
      obtain hmem | ⟨-, hmem⟩ := Option.or_eq_some_iff.mp hmem
      · exact hsecond mult hmem
      · exact hfirst mult hmem
    have hband := inBand_exit hentry h.takeProfit2 (htarget (5 / 2) hboth (by norm_num))
    simpa [newPosition, hinput.takeProfit2] using hband
  · have hpct : -T ≤ portfolio.stopLossPct.getD (resolveProfile input.profileKey).stopLossPct ∧
        portfolio.stopLossPct.getD (resolveProfile input.profileKey).stopLossPct ≤ L := by
      cases hstop : portfolio.stopLossPct with
      | none => exact ⟨by simp only [Option.getD_none]; linarith, by simp only [Option.getD_none]; linarith⟩
      | some pct => exact h.stopLoss pct hstop
    have hband : InBand L T (newPosition input portfolio id now) ((newPosition input portfolio id now).entryPriceUsd *
        (1 - portfolio.stopLossPct.getD (resolveProfile input.profileKey).stopLossPct / 100)) :=
      inBand_of_mult hentry (by linarith [hpct.2]) (by linarith [hpct.1])
    simpa [newPosition, hinput.stopLoss] using hband

end NewPosition

/-! ## Calls -/

section Calls
variable (L T : ℚ)

/-- What a call has read bears on its row, if that is still there. -/
def CallBanded (t : PositionTable) : AutoCall → Prop
  | .findPortfolio input | .createPortfolio input => PlainInput input ∧ 0 < input.entryPriceUsd ∧ 0 < input.sizeUsd
  | .openTx input portfolio =>
    (PlainInput input ∧ 0 < input.entryPriceUsd ∧ 0 < input.sizeUsd) ∧ PortfolioBanded L T portfolio
  | .findPosition id decision => decision.reason ≠ .MANUAL →
      id < t.nextId ∧ ∀ p ∈ t.rows, p.id = id → InBand L T p decision.exitPriceUsd
  | .closeTx _ trade => trade.exitReason ≠ .MANUAL → TradeWithin L T trade
  | _ => True

/-- A table that has no row of an old id but the rows before. -/
structure Grows (t t' : PositionTable) : Prop where
  nextId : t.nextId ≤ t'.nextId
  rows : ∀ p ∈ t'.rows, p.id < t.nextId → p ∈ t.rows

variable {L T} {t t' : PositionTable}

theorem Grows.insert {input : OpenAutoPositionInput} {portfolio : AutoPortfolio} {now : ℤ}
    (h : t.insert input portfolio now = some t') : Grows t t' := by
  obtain ⟨hrows, hnext⟩ := insert_rows h
  refine ⟨by omega, fun p hp hid => ?_⟩
  rw [hrows] at hp
  obtain rfl | hp := List.mem_cons.mp hp
  · change t.nextId < t.nextId at hid
    omega
  · exact hp

theorem Grows.keep (t : PositionTable) (keeps : AutoPosition → Bool) : Grows t (t.keep keeps) :=
  ⟨le_refl _, fun _ hp _ => List.mem_of_mem_filter hp⟩

theorem Grows.refl (t : PositionTable) : Grows t t := ⟨le_refl _, fun _ hp _ => hp⟩

theorem CallBanded.grow (hgrows : Grows t t') {call : AutoCall} (h : CallBanded L T t call) :
    CallBanded L T t' call := by
  cases call with
  | findPosition id decision =>
    intro hreason
    obtain ⟨hlt, hprice⟩ := h hreason
    exact ⟨hlt.trans_le hgrows.nextId, fun p hp hid => hprice p (hgrows.rows p hp (hid ▸ hlt)) hid⟩
  | _ => exact h

theorem startOpen_banded {input : OpenAutoPositionInput} (h : PlainInput input) :
    CallBanded L T t (startOpen input) := by
  unfold startOpen
  by_cases hpos : input.entryPriceUsd ≤ 0 ∨ input.sizeUsd ≤ 0
  · rw [if_pos hpos]
    trivial
  · rw [if_neg hpos]
    exact ⟨h, not_le.mp fun hle => hpos (.inl hle), not_le.mp fun hle => hpos (.inr hle)⟩

theorem guardBalance_banded {input : OpenAutoPositionInput} {portfolio : AutoPortfolio}
    (h : PlainInput input ∧ 0 < input.entryPriceUsd ∧ 0 < input.sizeUsd) (hp : PortfolioBanded L T portfolio) :
    CallBanded L T t (guardBalance input portfolio) := by
  unfold guardBalance
  by_cases hlow : portfolio.currentBalanceUsd < input.sizeUsd
  · rw [if_pos hlow]
    trivial
  · rw [if_neg hlow]
    exact ⟨h, hp⟩

end Calls

/-! ## Books -/

section Books
variable (L T : ℚ)

structure BookBanded (b : AutoBook) : Prop where
  portfolios : ∀ userId portfolio, b.portfolios.get userId = some portfolio → PortfolioBanded L T portfolio
  rows : ∀ p ∈ b.positions.rows, Banded L T p
  trades : ∀ t ∈ b.trades, t.exitReason ≠ .MANUAL → TradeWithin L T t

variable {L T} {b b' : AutoBook} {now : ℤ} {call next : AutoCall}

theorem noExits (resetAt : ℤ) : PortfolioBanded L T { resetAt } := ⟨by simp, by simp, by simp⟩

theorem find_eq {t : PositionTable} {id : ℕ} {p : AutoPosition} (h : t.find id = some p) : p ∈ t.rows ∧ p.id = id :=
  ⟨List.mem_of_find?_eq_some h, by simpa using List.find?_some h⟩

/-- One step of a call. -/
theorem BookBanded.advance (hL : 25 ≤ L) (hT : 400 ≤ T) (h : BookBanded L T b)
    (hcall : CallBanded L T b.positions call) (hstep : Advanced b now call b' next) :
    BookBanded L T b' ∧ Grows b.positions b'.positions ∧ CallBanded L T b'.positions next := by
  cases hstep with
  | portfolio input portfolio hget =>
    exact ⟨h, .refl _, guardBalance_banded hcall (h.portfolios _ _ hget)⟩
  | noPortfolio input => exact ⟨h, .refl _, hcall⟩
  | created input portfolio b' hcreate =>
    unfold AutoBook.createPortfolio at hcreate
    obtain ⟨-, hsome⟩ := Option.ite_none_left_eq_some.mp hcreate
    obtain ⟨rfl, rfl⟩ := Prod.mk.inj (Option.some.inj hsome)
    exact ⟨⟨KeyValue.forall_get_set h.portfolios (noExits now), h.rows, h.trades⟩, .refl _,
      guardBalance_banded hcall (noExits now)⟩
  | raced input => exact ⟨h, .refl _, trivial⟩
  | opened input portfolio b' hopen =>
    obtain ⟨positions, fresh, hinsert, hget, rfl⟩ := openTx_ok hopen
    obtain ⟨⟨hinput, hpos⟩, hportfolio⟩ := hcall
    refine ⟨⟨KeyValue.forall_get_set h.portfolios ?_, fun p hp => ?_, h.trades⟩, .insert hinsert, trivial⟩
    · have hfresh := h.portfolios _ _ hget
      exact ⟨hfresh.takeProfit1, hfresh.takeProfit2, hfresh.stopLoss⟩
    · change p ∈ positions.rows at hp
      rw [(insert_rows hinsert).1] at hp
      obtain rfl | hp := List.mem_cons.mp hp
      · exact newPosition_banded hL hT hinput hpos hportfolio _ now
      · exact h.rows p hp
  | taken input portfolio => exact ⟨h, .refl _, trivial⟩
  | refused input portfolio => exact ⟨h, .refl _, trivial⟩
  | existing input => exact ⟨h, .refl _, trivial⟩
  | position id decision position hfind =>
    obtain ⟨hmem, hid⟩ := find_eq hfind
    exact ⟨h, .refl _, fun hreason => (h.rows _ hmem).closedTrade ((hcall hreason).2 _ hmem hid) now⟩
  | noPosition id decision => exact ⟨h, .refl _, trivial⟩
  | closed position trade b' hclose =>
    obtain ⟨portfolio, -, hget, rfl⟩ := closeTx_ok hclose
    refine ⟨⟨KeyValue.forall_get_set h.portfolios ?_, fun p hp => h.rows p (List.mem_of_mem_filter hp),
      fun t ht => ?_⟩, .keep _ _, trivial⟩
    · have hold := h.portfolios _ _ hget
      exact ⟨hold.takeProfit1, hold.takeProfit2, hold.stopLoss⟩
    · obtain ht | ht := List.mem_append.mp ht
      · exact h.trades t ht
      · rw [List.mem_singleton.mp ht]
        exact hcall
  | gone position trade e hclose => exact ⟨h, .refl _, trivial⟩
  | cleared userId =>
    exact ⟨⟨h.portfolios, fun p hp => h.rows p (List.mem_of_mem_filter hp),
      fun t ht => h.trades t (List.mem_of_mem_filter ht)⟩, .keep _ _, trivial⟩
  | restarted userId =>
    refine ⟨⟨KeyValue.forall_get_set h.portfolios ?_, h.rows, h.trades⟩, .refl _, trivial⟩
    cases hget : b.portfolios.get userId with
    | none => exact noExits now
    | some portfolio =>
      have hold := h.portfolios _ _ hget
      exact ⟨hold.takeProfit1, hold.takeProfit2, hold.stopLoss⟩

end Books

/-! ## Runs -/

/-- The positions that the watcher has read and not been through. -/
def Watcher.positions : Watcher → List AutoPosition
  | .idle => []
  | .fetching positions _ _ => positions
  | .ticking todo _ => todo
  | .closing _ todo _ => todo

section Runs
variable (L T : ℚ)

/-- A user sets no exit outside the band. -/
def SetsWithin (_ : Trader) : TraderStep → Prop
  | .updatePortfolioSettings _ patch _ =>
    (∀ o ∈ patch.takeProfit1Pct, ∀ pct ∈ o, -L ≤ pct ∧ pct ≤ T) ∧
    (∀ o ∈ patch.takeProfit2Pct, ∀ pct ∈ o, -L ≤ pct ∧ pct ≤ T) ∧
    ∀ o ∈ patch.stopLossPct, ∀ pct ∈ o, -T ≤ pct ∧ pct ≤ L
  | _ => True

instance (s : Trader) : (e : TraderStep) → Decidable (SetsWithin L T s e)
  | .updatePortfolioSettings _ _ _ => inferInstanceAs (Decidable (_ ∧ _ ∧ _))
  | .openManual _ _ | .closeManual _ _ _ | .reset _ | .advance _ _ | .watch _ _ | .prices _ | .tickNext _ | .closed
  | .pick | .pickForUser _ | .since _ | .readOpenAddrs | .readRecentClosed | .pickNext | .picked => isTrue trivial

structure Bounded (s : Trader) : Prop where
  book : BookBanded L T s.desk.book
  calls : ∀ call ∈ s.desk.calls, CallBanded L T s.desk.book.positions call
  watched : ∀ p ∈ s.watcher.positions, Banded L T p ∧ p.id < s.desk.book.positions.nextId ∧
    ∀ q ∈ s.desk.book.positions.rows, q.id = p.id → q = p
  ticks : ∀ id tick, s.ticks.get id = some tick → id < s.desk.book.positions.nextId ∧
    ∀ p ∈ s.desk.book.positions.rows, p.id = id → InBand L T p tick.currentPriceUsd

variable {L T}

namespace Bounded
variable {s s' : Trader}

theorem initial : Bounded L T {} where
  book := ⟨by simp, by simp, by simp⟩
  calls := by simp
  watched := by simp [Watcher.positions]
  ticks := by simp

/-- A call that starts. -/
theorem call (h : Bounded L T s) {call : AutoCall} (hcall : CallBanded L T s.desk.book.positions call) :
    Bounded L T (s.call call) where
  book := h.book
  calls c hc := by
    obtain hc | hc := List.mem_append.mp hc
    · exact h.calls c hc
    · rw [List.mem_singleton.mp hc]
      exact hcall
  watched := h.watched
  ticks := h.ticks

/-- A step that changes neither the desk nor what has been written into its rows. -/
theorem moved (h : Bounded L T s) (hdesk : s'.desk = s.desk) (hticks : s'.ticks = s.ticks)
    (hwatcher : ∀ p ∈ s'.watcher.positions, p ∈ s.watcher.positions ∨ p ∈ s.desk.book.positions.rows) :
    Bounded L T s' := by
  refine ⟨by rw [hdesk]; exact h.book, by rw [hdesk]; exact h.calls, fun p hp => ?_, ?_⟩
  · rw [hdesk]
    obtain hp | hp := hwatcher p hp
    · exact h.watched p hp
    · exact ⟨h.book.rows p hp, s.desk.book.positions.fresh p hp, fun q hq hid =>
        List.inj_on_of_nodup_map s.desk.book.positions.nodup hq hp hid⟩
  · rw [hdesk, hticks]
    exact h.ticks

theorem advance (hL : 25 ≤ L) (hT : 400 ≤ T) (h : Bounded L T s) {i : ℕ} {now : ℤ} {call next : AutoCall}
    {book : AutoBook} (hcall : s.desk.calls[i]? = some call) (hstep : Advanced s.desk.book now call book next) :
    Bounded L T
      { s with desk := ⟨book, s.desk.calls.set i next⟩, closings := s.closingsAfter i now, clock := now } := by
  obtain ⟨hbook, hgrows, hnext⟩ := h.book.advance hL hT (h.calls call (List.mem_of_getElem? hcall)) hstep
  refine ⟨hbook, fun c hc => ?_, fun p hp => ?_, fun id tick hget => ?_⟩
  · obtain hc | rfl := List.mem_or_eq_of_mem_set hc
    · exact (h.calls c hc).grow hgrows
    · exact hnext
  · obtain ⟨hbanded, hlt, hrow⟩ := h.watched p hp
    exact ⟨hbanded, hlt.trans_le hgrows.nextId, fun q hq hid => hrow q (hgrows.rows q hq (hid ▸ hlt)) hid⟩
  · obtain ⟨hlt, hprice⟩ := h.ticks id tick hget
    exact ⟨hlt.trans_le hgrows.nextId, fun p hp hid => hprice p (hgrows.rows p hp (hid ▸ hlt)) hid⟩

theorem settings (h : Bounded L T s) {userId : String} {patch : SettingsPatch} {now : ℤ}
    (hpatch : SetsWithin L T s (.updatePortfolioSettings userId patch now)) :
    Bounded L T { s.updatePortfolioSettings userId patch now with clock := now } := by
  obtain ⟨hfirst, hsecond, hstop⟩ := hpatch
  refine ⟨⟨KeyValue.forall_get_set h.book.portfolios ?_, h.book.rows, h.book.trades⟩, h.calls, h.watched, h.ticks⟩
  have hold : PortfolioBanded L T ((s.desk.book.portfolios.get userId).getD { resetAt := now }) := by
    cases hget : s.desk.book.portfolios.get userId with
    | none => exact noExits now
    | some portfolio => exact h.book.portfolios _ _ hget
  have hset : ∀ {o : Option (Option ℚ)} {old : Option ℚ} {lo hi : ℚ}, (∀ x ∈ o, ∀ pct ∈ x, lo ≤ pct ∧ pct ≤ hi) →
      (∀ pct ∈ old, lo ≤ pct ∧ pct ≤ hi) → ∀ pct ∈ o.getD old, lo ≤ pct ∧ pct ≤ hi := by
    intro o old lo hi ho hold
    cases o with
    | none => exact hold
    | some x => exact ho x rfl
  exact ⟨hset hfirst hold.takeProfit1, hset hsecond hold.takeProfit2, hset hstop hold.stopLoss⟩

/-- A price that the watcher has read is written, or its exit fires. -/
theorem tickNext (h : Bounded L T s) {p : AutoPosition} {todo : List AutoPosition} {liveByAddr : KeyValue String ℚ}
    (hw : s.watcher = .ticking (p :: todo) liveByAddr) : Banded L T p ∧ p.id < s.desk.book.positions.nextId ∧
      (∀ q ∈ s.desk.book.positions.rows, q.id = p.id → q = p) ∧
      ∀ q ∈ todo, q ∈ s.watcher.positions := by
  have hwatched : ∀ q ∈ p :: todo, q ∈ s.watcher.positions := by
    rw [hw]
    exact fun q hq => hq
  obtain ⟨hbanded, hlt, hrow⟩ := h.watched p (hwatched p List.mem_cons_self)
  exact ⟨hbanded, hlt, hrow, fun q hq => hwatched q (List.mem_cons_of_mem _ hq)⟩

theorem step (hL : 25 ≤ L) (hT : 400 ≤ T) (h : Bounded L T s) {e : TraderStep} (hguard : SetsWithin L T s e)
    (hstep : trader.step s e = some s') : Bounded L T s' := by
  cases stepped hstep with
  | openManual userId dto hsize => exact h.call (startOpen_banded ⟨rfl, rfl, rfl⟩)
  | closeManual userId id exitPriceUsd p => exact h.call fun hreason => absurd rfl hreason
  | reset userId => exact h.call trivial
  | settings userId patch now => exact h.settings hguard
  | advance i now call next book hcall hadvanced => exact h.advance hL hT hcall hadvanced
  | watch pool now liveByAddr batches hw => exact h.moved rfl rfl fun p hp => .inr hp
  | prices responses positions pooled live batches hw =>
    refine h.moved rfl rfl fun p hp => .inl ?_
    rw [hw]
    exact hp
  | tickOver now liveByAddr hw => exact h.moved rfl rfl fun p hp => absurd hp List.not_mem_nil
  | noPrice now p todo liveByAddr hw =>
    obtain ⟨-, -, -, htodo⟩ := h.tickNext hw
    exact h.moved rfl rfl fun q hq => .inl (htodo q hq)
  | kept now p todo liveByAddr px hw hdecide =>
    obtain ⟨hbanded, hlt, hrow, htodo⟩ := h.tickNext hw
    refine ⟨h.book, h.calls, fun q hq => h.watched q (htodo q hq), ?_⟩
    change ∀ id tick, (s.setTick p px).get id = some tick → _
    unfold Trader.setTick
    by_cases hsome : (s.desk.book.positions.find p.id).isSome = true
    · rw [if_pos hsome]
      refine KeyValue.forall_get_set h.ticks ⟨hlt, fun q hq hid => ?_⟩
      rw [hrow q hq hid]
      exact hbanded.kept hdecide
    · rw [if_neg hsome]
      exact h.ticks
  | fired now p todo liveByAddr px decision hw hdecide =>
    obtain ⟨hbanded, hlt, hrow, htodo⟩ := h.tickNext hw
    have hcall : CallBanded L T s.desk.book.positions (.findPosition p.id decision) := by
      refine fun _ => ⟨hlt, fun q hq hid => ?_⟩
      rw [hrow q hq hid]
      exact hbanded.fired hdecide
    exact (h.call hcall).moved rfl rfl fun q hq => .inl (htodo q hq)
  | closed i todo liveByAddr hw =>
    refine h.moved rfl rfl fun p hp => .inl ?_
    rw [hw]
    exact hp
  | chosen pass todo t hp hroom ht hwants =>
    exact (h.call (startOpen_banded ⟨rfl, rfl, rfl⟩)).moved rfl rfl fun p hp => .inl hp
  | _ => exact h.moved rfl rfl fun p hp => .inl hp

end Bounded

/-- While the users keep their exits within a band, no trade but one closed by hand loses or wins more, and the price
shown for an open position is within its band too. -/
theorem automatic_trades_bounded (hL : 25 ≤ L) (hT : 400 ≤ T) {es : List TraderStep} {s : Trader}
    (hrun : trader.GuardedRun (SetsWithin L T) {} es s) :
    (∀ t ∈ s.desk.book.trades, t.exitReason ≠ .MANUAL →
      (-L ≤ t.pnlPct ∧ t.pnlPct ≤ T) ∧ -(t.sizeUsd * (L / 100)) ≤ t.pnlUsd ∧ t.pnlUsd ≤ t.sizeUsd * (T / 100)) ∧
    ∀ p ∈ s.desk.book.positions.rows, p.entryPriceUsd * (1 - L / 100) ≤ s.currentPriceUsd p ∧
      s.currentPriceUsd p ≤ p.entryPriceUsd * (1 + T / 100) := by
  have h : Bounded L T s := hrun.invariant (fun _ _ _ h hguard hstep => h.step hL hT hguard hstep) .initial
  constructor
  · intro t ht hreason
    have hwithin := h.book.trades t ht hreason
    exact ⟨⟨hwithin.loss, hwithin.gain⟩, hwithin.lossUsd, hwithin.gainUsd⟩
  · intro p hp
    unfold Trader.currentPriceUsd
    cases hget : s.ticks.get p.id with
    | none =>
      have hentry : InBand L T p p.entryPriceUsd := inBand_entry (by linarith) (by linarith) (h.book.rows p hp).entry
      exact hentry
    | some tick => exact (h.ticks p.id tick hget).2 p hp rfl

/-! ## The whole book -/

theorem ledger_settings (s : Trader) (userId : String) (patch : SettingsPatch) (now : ℤ) (other : String) :
    (s.updatePortfolioSettings userId patch now).desk.book.ledger other = s.desk.book.ledger other := by
  simp only [Trader.updatePortfolioSettings, AutoBook.ledger, portfolioOf_set]
  by_cases hother : other = userId
  · subst hother
    rw [if_pos rfl]
    cases hget : s.desk.book.portfolios.get other with
    | none => simp [AutoBook.portfolioOf, hget, SettingsPatch.portfolio]
    | some portfolio => simp [AutoBook.portfolioOf, hget, SettingsPatch.portfolio]
  · rw [if_neg hother]

/-- No position of a user is opened or closed between the two parts of a reset. -/
def TradesApart (s : Trader) : TraderStep → Prop
  | .advance i now => NoTradeInReset s.desk (.advance i now)
  | _ => True

instance (s : Trader) : (e : TraderStep) → Decidable (TradesApart s e)
  | .advance i now => inferInstanceAs (Decidable (NoTradeInReset s.desk (.advance i now)))
  | .updatePortfolioSettings _ _ _ | .openManual _ _ | .closeManual _ _ _ | .reset _ | .watch _ _ | .prices _
  | .tickNext _ | .closed | .pick | .pickForUser _ | .since _ | .readOpenAddrs | .readRecentClosed | .pickNext
  | .picked => isTrue trivial

theorem booked_step {s s' : Trader} (h : Booked s.desk) {e : TraderStep} (hguard : TradesApart s e)
    (hstep : trader.step s e = some s') : Booked s'.desk := by
  obtain hsame | ⟨e', hdesk, hadvance⟩ | ⟨userId, patch, now, hsettings⟩ := desk_step hstep
  · rw [hsame]
    exact h
  · refine h.step ?_ hdesk
    cases e' with
    | advance i now =>
      obtain rfl := hadvance i now rfl
      exact hguard
    | _ => trivial
  · rw [hsettings]
    refine ⟨fun other hnot => ?_, fun other hmem => ?_, h.reads⟩
    · rw [ledger_settings]
      exact h.balanced other hnot
    · rw [ledger_settings]
      exact h.cleared other hmem

/-- What a user has staked in the trades that are over. -/
def turnover (trades : List AutoTrade) (userId : String) : ℚ :=
  ((trades.filter fun t => t.userId = userId).map AutoTrade.sizeUsd).sum

theorem bookedPnl_within {L T : ℚ} {trades : List AutoTrade} {userId : String}
    (h : ∀ t ∈ trades, t.userId = userId → TradeWithin L T t) :
    -(turnover trades userId * (L / 100)) ≤ bookedPnl trades userId ∧
      bookedPnl trades userId ≤ turnover trades userId * (T / 100) := by
  have hmine : ∀ t ∈ trades.filter fun t => t.userId = userId, TradeWithin L T t := by
    intro t ht
    obtain ⟨hmem, hu⟩ := List.mem_filter.mp ht
    exact h t hmem (of_decide_eq_true hu)
  constructor
  · calc -(turnover trades userId * (L / 100))
        = ((trades.filter fun t => t.userId = userId).map fun t => t.sizeUsd * -(L / 100)).sum := by
          rw [List.sum_map_mul_right, turnover, mul_neg]
      _ ≤ bookedPnl trades userId := by
          apply List.sum_le_sum
          intro t ht
          rw [mul_neg]
          exact (hmine t ht).lossUsd
  · calc bookedPnl trades userId
        ≤ ((trades.filter fun t => t.userId = userId).map fun t => t.sizeUsd * (T / 100)).sum := by
          apply List.sum_le_sum
          intro t ht
          exact (hmine t ht).gainUsd
      _ = turnover trades userId * (T / 100) := by rw [List.sum_map_mul_right, turnover]

/-- When no call is under way the book of a user balances, whatever the workers have done; and a user who has closed
nothing by hand has not lost or won more than the band on what was staked. -/
theorem equity_bounded {L T : ℚ} (hL : 25 ≤ L) (hT : 400 ≤ T) {es : List TraderStep} {s : Trader}
    (hrun : trader.GuardedRun (fun s e => SetsWithin L T s e ∧ TradesApart s e) {} es s)
    (hquiescent : s.desk.Quiescent) (userId : String) :
    (s.desk.book.ledger userId).Balanced ∧
    ((∀ t ∈ s.desk.book.trades, t.userId = userId → t.exitReason ≠ .MANUAL) →
      let equity := (s.desk.book.ledger userId).balance + (s.desk.book.ledger userId).openUsd
      100000 - turnover s.desk.book.trades userId * (L / 100) ≤ equity ∧
        equity ≤ 100000 + turnover s.desk.book.trades userId * (T / 100)) := by
  have hbooked : Booked s.desk := by
    refine StepSystem.GuardedRun.invariant (I := fun s : Trader => Booked s.desk) ?_ hrun .initial
    exact fun _ _ _ h hguard hstep => booked_step h hguard.2 hstep
  have hbounded : Bounded L T s :=
    hrun.invariant (fun _ _ _ h hguard hstep => h.step hL hT hguard.1 hstep) .initial
  have hbalanced : (s.desk.book.ledger userId).Balanced := by
    apply hbooked.balanced
    intro hmem
    cases hquiescent _ hmem
  refine ⟨hbalanced, fun hauto => ?_⟩
  obtain ⟨hloss, hgain⟩ := bookedPnl_within fun t ht hu => hbounded.book.trades t ht (hauto t ht hu)
  have hcash := hbalanced.cash
  have hpnl : (s.desk.book.ledger userId).realized = bookedPnl s.desk.book.trades userId := hbalanced.pnl
  constructor
  · linarith
  · linarith

end Runs

/-! ## A run -/

def hotMint : HotToken :=
  { address := "mint", symbol := "HOT", name := "Hot", priceUsd := 2, score := 80, verdict := .STRONG_BUY,
    summary := "+12% 1h" }

/-- The picker opens a position at 2, and the watcher finds a price of 1/2. -/
def crashed : List TraderStep :=
  [.updatePortfolioSettings "ann" { autoEnabled := some true, stopLossPct := some (some 10) } 0, .pick,
    .pickForUser (some [hotMint]), .since 1, .readRecentClosed, .readOpenAddrs, .pickNext, .advance 0 2, .advance 0 2,
    .picked, .watch {} 3, .prices [some [{ baseToken := some "mint", priceUsd := some (1 / 2) }]], .tickNext 4,
    .advance 1 4, .advance 1 5, .closed, .tickNext 6]

/-- A fall by three quarters is booked as a loss of a tenth. -/
theorem crashed_bounded : ∃ s, trader.run {} crashed = some s ∧ s.desk.book.trades.map AutoTrade.pnlPct = [-10] ∧
    ∀ t ∈ s.desk.book.trades, t.exitReason ≠ .MANUAL → -25 ≤ t.pnlPct := by
  have hany : (trader.guardedRun (SetsWithin 25 400) {} crashed).any
      (fun s => decide (s.desk.book.trades.map AutoTrade.pnlPct = [-10])) = true := by decide +kernel
  obtain ⟨s, hs, htrades⟩ := (Option.any_eq_true _ _).mp hany
  have hrun := StepSystem.GuardedRun.of_guardedRun hs
  exact ⟨s, hrun.run, of_decide_eq_true htrades, fun t ht hreason =>
    ((automatic_trades_bounded (by norm_num) (by norm_num) hrun).1 t ht hreason).1.1⟩

theorem crashed_equity : ∃ s, trader.run {} crashed = some s ∧
    (s.desk.book.ledger "ann").balance + (s.desk.book.ledger "ann").openUsd = 99980 ∧
    100000 - turnover s.desk.book.trades "ann" * (25 / 100) ≤
      (s.desk.book.ledger "ann").balance + (s.desk.book.ledger "ann").openUsd := by
  have hany : (trader.guardedRun (fun s e => SetsWithin 25 400 s e ∧ TradesApart s e) {} crashed).any (fun s =>
      decide (s.desk.Quiescent ∧ (s.desk.book.ledger "ann").balance + (s.desk.book.ledger "ann").openUsd = 99980 ∧
        ∀ t ∈ s.desk.book.trades, t.userId = "ann" → t.exitReason ≠ .MANUAL)) = true := by decide +kernel
  obtain ⟨s, hs, hfinal⟩ := (Option.any_eq_true _ _).mp hany
  have hrun := StepSystem.GuardedRun.of_guardedRun hs
  obtain ⟨hquiescent, hequity, hauto⟩ := of_decide_eq_true hfinal
  exact ⟨s, hrun.run, hequity,
    ((equity_bounded (by norm_num) (by norm_num) hrun hquiescent "ann").2 hauto).1⟩

end SuperAi.AutoTrading
