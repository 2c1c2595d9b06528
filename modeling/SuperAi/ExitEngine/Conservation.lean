import SuperAi.ExitEngine.ExitEngineService
import Mathlib.Tactic.Linarith
import Mathlib.Tactic.NormNum
import Mathlib.Algebra.Order.BigOperators.Group.List
import Mathlib.Data.Option.Basic

/-! # What an exit leaves behind

The fractions of the original position that a trade's sales have sold, against what its row says
remains. They agree while the trade is open, and add up to the whole position when it is closed,
in exactly the runs in which the time stop of 48 hours never sells and no row update after a sale
is lost (`conserved_iff`): that time stop sells half of the position and closes the trade.
-/
namespace SuperAi.ExitEngine
open SuperAi.Foundations
set_option autoImplicit false

/-- The part of the original position that all sales of the trade have sold. -/
def Trade.soldFraction (trade : Trade) : ℚ := (trade.sales.map Sale.sellFraction).sum

/-- A closed trade is sold completely; an open one up to what its row says remains. -/
def Conserved (trade : Trade) : Prop :=
  (trade.exitAt.isSome = true → trade.soldFraction = 1) ∧
    (trade.exitAt = none → trade.soldFraction =
      1 - remainingPositionPct trade.tiersExecuted (tiersOf trade.strategyId) / 100)

/-! ## Tier tables -/

theorem soldPct_range_succ (tiers : List Tier) (n : ℕ) :
    soldPct (List.range (n + 1)) tiers
      = soldPct (List.range n) tiers + (tiers[n]?.map Tier.sellPct).getD 0 := by
  simp [soldPct, List.range_succ]

theorem soldPct_range (tiers : List Tier) (n : ℕ) :
    soldPct (List.range n) tiers = ((tiers.take n).map Tier.sellPct).sum := by
  induction n with
  | zero => rfl
  | succ n ih =>
    rw [soldPct_range_succ, ih, List.take_add_one]
    cases tiers[n]? with
    | none => simp
    | some t => simp

namespace TierTable
variable (table : TierTable)

theorem sum_take_add_drop (n : ℕ) : ((table.tiers.take n).map Tier.sellPct).sum
    + ((table.tiers.drop n).map Tier.sellPct).sum = 100 := by
  rw [← List.sum_append, ← List.map_append, List.take_append_drop, table.sellPct_sum]

theorem sum_sublist_nonneg {tiers : List Tier} (h : tiers.Sublist table.tiers) :
    0 ≤ (tiers.map Tier.sellPct).sum := by
  refine List.sum_nonneg fun x hx => ?_
  obtain ⟨t, ht, rfl⟩ := List.mem_map.mp hx
  exact (table.sellPct_pos t (h.subset ht)).le

theorem soldPct_nonneg (n : ℕ) : 0 ≤ soldPct (List.range n) table.tiers := by
  rw [soldPct_range]
  exact table.sum_sublist_nonneg (List.take_sublist n _)

theorem soldPct_lt {n : ℕ} (hn : n < table.tiers.length) :
    soldPct (List.range n) table.tiers < 100 := by
  have hsum := table.sum_take_add_drop n
  have hpos := table.sellPct_pos table.tiers[n] (List.getElem_mem hn)
  have hrest := table.sum_sublist_nonneg (List.drop_sublist (n + 1) table.tiers)
  rw [List.drop_eq_getElem_cons hn, List.map_cons, List.sum_cons] at hsum
  rw [soldPct_range]
  linarith

theorem soldPct_all : soldPct (List.range table.tiers.length) table.tiers = 100 := by
  rw [soldPct_range, List.take_length, table.sellPct_sum]

theorem sellPct_le {t : Tier} (ht : t ∈ table.tiers) : t.sellPct ≤ 100 := by
  rw [← table.sellPct_sum]
  refine List.single_le_sum (fun x hx => ?_) _ (List.mem_map_of_mem ht)
  obtain ⟨u, hu, rfl⟩ := List.mem_map.mp hx
  exact (table.sellPct_pos u hu).le

theorem findIdx_id {n : ℕ} {t : Tier} (ht : table.tiers[n]? = some t) :
    table.tiers.findIdx? (fun u => u.id == t.id) = some n := by
  obtain ⟨hn, rfl⟩ := List.getElem?_eq_some_iff.mp ht
  refine List.findIdx?_eq_some_iff_getElem.mpr ⟨hn, by simp, fun j hj => ?_⟩
  have hne := (List.pairwise_iff_getElem.mp (List.pairwise_map.mp table.ids_nodup)) j n
    (by omega) hn hj
  simpa using hne

end TierTable

/-! ## What a decision can be -/

namespace ExitContext
variable {cfg : ExitConfig} {c : ExitContext}

theorem dueTier_eq {n i : ℕ} {t : Tier} (h : c.dueTier = some (t, i))
    (hexec : c.executed = List.range n)
    (hascend : c.tiers.Pairwise fun t u => t.mcapMultiple ≤ u.mcapMultiple) :
    i = n ∧ c.tiers[i]? = some t := by
  obtain ⟨hdue, k, hk, hget, hfirst⟩ := List.find?_eq_some_iff_getElem.mp h
  simp only [List.length_zipIdx] at hk
  simp only [List.getElem_zipIdx, Nat.zero_add, Prod.mk.injEq] at hget
  obtain ⟨rfl, rfl⟩ := hget
  simp only [hexec, Bool.and_eq_true, Bool.not_eq_true', decide_eq_true_eq,
    List.contains_eq_mem, List.mem_range, decide_eq_false_iff_not, not_lt] at hdue
  refine ⟨?_, by simp [hk]⟩
  by_contra hne
  have hlt : n < k := by omega
  -- tier `n` comes earlier, has not fired and has a smaller multiple
  have hn : n < c.tiers.length := by omega
  have hmult := List.pairwise_iff_getElem.mp hascend n k hn hk hlt
  have hnot := hfirst n hlt
  simp only [List.getElem_zipIdx, hexec, Nat.zero_add, Bool.not_eq_true', Bool.and_eq_false_iff,
    Bool.not_eq_false', List.contains_eq_mem, List.mem_range, decide_eq_true_eq, lt_irrefl,
    decide_eq_false_iff_not, not_le, false_or] at hnot
  exact absurd (hmult.trans hdue.2) (not_le.mpr hnot)

/-- **The sales of a decision.** A tier's share, the rest of the position under a reason of a full
exit, or the half of the 48-hour time stop. -/
theorem decision_cases {order : SellOrder} (h : c.decision cfg = some order)
    (hdump : ∀ reason ∈ c.dumpReason, reason = .insider_dump) :
    (∃ t i, c.dueTier = some (t, i) ∧ order = ⟨t.id, t.sellPct / 100⟩) ∨
      (order.reason.isFullExit = true ∧ order.sellFraction = c.remaining) ∨
      (c.beforeTimeStop48 cfg = none ∧ (c.timeStop48 cfg).isSome = true ∧ 0 ∉ c.executed ∧
        order = ⟨.time_stop, 1 / 2⟩) := by
  rcases (Option.orElse_eq_some _ _ _).mp h with hbefore | ⟨hnone, hafter⟩
  · rcases (Option.orElse_eq_some _ _ _).mp hbefore with hdrain | ⟨-, hbefore⟩
    · obtain ⟨-, ⟨⟩⟩ := Option.ite_none_right_eq_some.mp hdrain
      exact .inr (.inl ⟨rfl, rfl⟩)
    rcases (Option.orElse_eq_some _ _ _).mp hbefore with hholder | ⟨-, hbefore⟩
    · obtain ⟨reason, hreason, rfl⟩ := Option.map_eq_some_iff.mp hholder
      obtain rfl := hdump reason hreason
      exact .inr (.inl ⟨rfl, rfl⟩)
    rcases (Option.orElse_eq_some _ _ _).mp hbefore with htier | ⟨-, hbefore⟩
    · obtain ⟨⟨t, i⟩, hdue, rfl⟩ := Option.map_eq_some_iff.mp htier
      exact .inl ⟨t, i, hdue, rfl⟩
    rcases (Option.orElse_eq_some _ _ _).mp hbefore with htrail | ⟨-, hbefore⟩
    · obtain ⟨-, ⟨⟩⟩ := Option.ite_none_right_eq_some.mp htrail
      exact .inr (.inl ⟨rfl, rfl⟩)
    rcases (Option.orElse_eq_some _ _ _).mp hbefore with hmom | ⟨-, htime⟩
    · obtain ⟨-, ⟨⟩⟩ := Option.ite_none_right_eq_some.mp hmom
      exact .inr (.inl ⟨rfl, rfl⟩)
    · obtain ⟨-, ⟨⟩⟩ := Option.ite_none_right_eq_some.mp htime
      exact .inr (.inl ⟨rfl, rfl⟩)
  · rcases (Option.orElse_eq_some _ _ _).mp hafter with h48 | ⟨-, hthesis⟩
    · obtain ⟨⟨-, hzero, -⟩, ⟨⟩⟩ := Option.ite_none_right_eq_some.mp h48
      refine .inr (.inr ⟨hnone, by rw [h48]; rfl, hzero, ?_⟩)
      norm_num [TIME_STOP_48H_SELL_PCT]
    · simp only [thesisBreak, Option.bind_eq_bind, Option.bind_eq_some_iff] at hthesis
      obtain ⟨⟨aiScore, aiVerdict⟩, -, hthesis⟩ := hthesis
      split at hthesis
      · simp at hthesis
      · obtain rfl := Option.some.inj hthesis
        exact .inr (.inl ⟨by dsimp only; split <;> rfl, rfl⟩)

end ExitContext

/-! ## Sales that go through -/

/-- The sale goes through: there is something to sell and to sell it with, and the swap resolves. -/
def lands (trade : Trade) (inp : TickInput) (order : SellOrder) : Bool :=
  decide (0 < clampFraction order.sellFraction) && (getTiers trade.strategyId).isSome &&
    (sellTokenAmt trade (clampFraction order.sellFraction)).isSome && inp.swapResolves

/-- The columns that the accounting reads, and the sales. -/
def Trade.ledger (trade : Trade) : Option String × List ℕ × Option ℤ × List Sale :=
  (trade.strategyId, trade.tiersExecuted, trade.exitAt, trade.sales)

theorem executeSell_ledger {cfg : ExitConfig} {trade : Trade} {inp : TickInput} {mcapRatio : ℚ}
    {order : SellOrder} (h : lands trade inp order = false) :
    (executeSell cfg trade inp mcapRatio order).ledger = trade.ledger := by
  unfold executeSell
  dsimp only
  split
  · rfl
  · rename_i hpos
    split
    · rfl
    · rename_i table htable
      split
      · rfl
      · rfl
      · rename_i amountIn hamount hswap
        simp [lands, htable, hamount, hswap, not_le.mp hpos] at h

/-- **What a sale that goes through writes.** -/
theorem executeSell_lands (cfg : ExitConfig) {trade : Trade} {inp : TickInput} (mcapRatio : ℚ)
    {order : SellOrder} (h : lands trade inp order = true) :
    ∃ table sale, getTiers trade.strategyId = some table ∧
      sale.sellFraction = clampFraction order.sellFraction ∧
      executeSell cfg trade inp mcapRatio order =
        let sold := { trade with sales := trade.sales ++ [sale] }
        if inp.recorded then recordSale table sold inp.now order.reason sale.notionalUsd
          (trade.priceUsd.getD 0) else sold := by
  simp only [lands, Bool.and_eq_true, decide_eq_true_eq, Option.isSome_iff_exists] at h
  obtain ⟨⟨⟨hpos, table, htable⟩, amountIn, hamount⟩, hswap⟩ := h
  let sale : Sale := ⟨order.reason, clampFraction order.sellFraction, amountIn,
    trade.priceUsd.getD 0 * mcapRatio * clampFraction order.sellFraction,
    cfg.slippageForAttempt trade.sellAttempts⟩
  refine ⟨table, sale, htable, rfl, ?_⟩
  simp only [executeSell, if_neg (not_le.mpr hpos), htable, hamount, hswap]
  rfl

/-! ## The invariant -/

/-- A closed trade is sold completely. An open one has fired its first `n` tiers, has sold just
their shares, and still holds something. -/
def Staged (trade : Trade) : Prop :=
  (trade.exitAt.isSome = true → trade.soldFraction = 1) ∧
    (trade.exitAt = none → ∃ n, trade.tiersExecuted = List.range n ∧
      trade.soldFraction = soldPct (List.range n) (tiersOf trade.strategyId) / 100 ∧
      soldPct (List.range n) (tiersOf trade.strategyId) < 100)

theorem Staged.conserved {trade : Trade} (h : Staged trade) : Conserved trade := by
  refine ⟨h.1, fun hopen => ?_⟩
  obtain ⟨n, hexec, hsold, hlt⟩ := h.2 hopen
  rw [hexec, hsold, remainingPositionPct, max_eq_right (by linarith)]
  ring

theorem Staged.of_ledger {trade trade' : Trade} (hledger : trade'.ledger = trade.ledger)
    (h : Staged trade) : Staged trade' := by
  simp only [Trade.ledger, Prod.mk.injEq] at hledger
  obtain ⟨hstrategy, hexec, hexit, hsales⟩ := hledger
  simpa only [Staged, Trade.soldFraction, hstrategy, hexec, hexit, hsales] using h

theorem clampFraction_of_mem {x : ℚ} (h0 : 0 ≤ x) (h1 : x ≤ 1) : clampFraction x = x := by
  rw [clampFraction, max_eq_right h0, min_eq_right h1]

theorem soldFraction_append (trade : Trade) (sale : Sale) :
    Trade.soldFraction { trade with sales := trade.sales ++ [sale] }
      = trade.soldFraction + sale.sellFraction := by
  simp [Trade.soldFraction]

section recordSale
variable {table : TierTable} {trade : Trade} {now : ℤ} {reason : ExitReason} {notional entry : ℚ}

@[simp] theorem recordSale_strategyId :
    (recordSale table trade now reason notional entry).strategyId = trade.strategyId := by
  unfold recordSale
  dsimp only
  split <;> split <;> rfl

@[simp] theorem recordSale_soldFraction :
    (recordSale table trade now reason notional entry).soldFraction = trade.soldFraction := by
  unfold recordSale
  dsimp only
  split <;> split <;> rfl

theorem recordSale_fullExit (h : reason.isFullExit = true) :
    (recordSale table trade now reason notional entry).exitAt = some now := by
  simp [recordSale, h]

theorem recordSale_tier {n : ℕ} {t : Tier} (ht : table.tiers[n]? = some t)
    (hexec : trade.tiersExecuted = List.range n) (hopen : trade.exitAt = none) :
    (recordSale table trade now t.id notional entry).tiersExecuted = List.range (n + 1) ∧
      (recordSale table trade now t.id notional entry).exitAt
        = if table.tiers.length ≤ n + 1 then some now else none := by
  have hmem : t ∈ table.tiers := List.mem_of_getElem? ht
  have hdone : (List.range table.tiers.length).all (List.range (n + 1)).contains
      = decide (table.tiers.length ≤ n + 1) := by
    rw [Bool.eq_iff_iff]
    simp only [List.all_eq_true, List.mem_range, List.contains_eq_mem, decide_eq_true_eq]
    exact ⟨fun h => by_contra fun hlt => by have := h (n + 1) (by omega); omega,
      fun h i hi => by omega⟩
  unfold recordSale
  simp only [table.findIdx_id ht, hexec, ← List.range_succ, hdone, table.ids_staged t hmem,
    Bool.or_false, decide_eq_true_eq]
  split
  · exact ⟨rfl, rfl⟩
  · exact ⟨rfl, hopen⟩

end recordSale

/-- A due tier sells its share and is marked; the last one closes the trade. -/
theorem Staged.sell_tier {table : TierTable} {trade : Trade} {sale : Sale} {now : ℤ} {t : Tier}
    {n : ℕ} {notional entry : ℚ} (h : Staged trade) (hopen : trade.exitAt = none)
    (htable : getTiers trade.strategyId = some table) (ht : table.tiers[n]? = some t)
    (hexec : trade.tiersExecuted = List.range n)
    (hfrac : sale.sellFraction = clampFraction (t.sellPct / 100)) :
    Staged (recordSale table { trade with sales := trade.sales ++ [sale] } now t.id notional entry) := by
  have hmem : t ∈ table.tiers := List.mem_of_getElem? ht
  have hpos := table.sellPct_pos t hmem
  have hle := table.sellPct_le hmem
  have htiers : tiersOf trade.strategyId = table.tiers := by simp [tiersOf, htable]
  obtain ⟨m, hm, hsold, -⟩ := h.2 hopen
  obtain rfl : m = n := by simpa using congrArg List.length (hm.symm.trans hexec)
  obtain ⟨hexec', hexit'⟩ : _ ∧ (recordSale table { trade with sales := trade.sales ++ [sale] } now t.id
      notional entry).exitAt = _ := recordSale_tier ht hexec hopen
  have hsucc : soldPct (List.range (m + 1)) table.tiers
      = soldPct (List.range m) table.tiers + t.sellPct := by
    rw [soldPct_range_succ, ht, Option.map_some, Option.getD_some]
  have hsum : trade.soldFraction + sale.sellFraction
      = soldPct (List.range (m + 1)) table.tiers / 100 := by
    rw [hsold, htiers, hfrac, clampFraction_of_mem (by linarith) (by linarith), hsucc]
    ring
  have hlen : m < table.tiers.length := (List.getElem?_eq_some_iff.mp ht).1
  unfold Staged
  rw [recordSale_soldFraction, recordSale_strategyId, soldFraction_append, hexit', hexec', htiers]
  constructor
  · intro hclosed
    have hlast : m + 1 = table.tiers.length := by
      split at hclosed
      · omega
      · simp at hclosed
    rw [hsum, hlast, table.soldPct_all]
    norm_num
  · intro hstill
    refine ⟨m + 1, rfl, hsum, table.soldPct_lt ?_⟩
    split at hstill
    · simp at hstill
    · omega

/-- A full exit sells the rest and closes the trade. -/
theorem Staged.sell_rest {table : TierTable} {trade : Trade} {sale : Sale} {now : ℤ}
    {reason : ExitReason} {notional entry : ℚ} (h : Staged trade) (hopen : trade.exitAt = none)
    (htable : getTiers trade.strategyId = some table) (hreason : reason.isFullExit = true)
    (hfrac : sale.sellFraction = clampFraction
      (remainingPositionPct trade.tiersExecuted (tiersOf trade.strategyId) / 100)) :
    Staged (recordSale table { trade with sales := trade.sales ++ [sale] } now reason notional entry) := by
  have htiers : tiersOf trade.strategyId = table.tiers := by simp [tiersOf, htable]
  obtain ⟨n, hexec, hsold, hlt⟩ := h.2 hopen
  have hnonneg := table.soldPct_nonneg n
  rw [htiers] at hsold hlt hfrac
  have hrest : remainingPositionPct trade.tiersExecuted table.tiers
      = 100 - soldPct (List.range n) table.tiers := by
    rw [hexec, remainingPositionPct, max_eq_right (by linarith)]
  refine ⟨fun _ => ?_, fun hstill => by simp [recordSale_fullExit hreason] at hstill⟩
  rw [recordSale_soldFraction, soldFraction_append, hsold, hfrac, hrest,
    clampFraction_of_mem (by linarith) (by linarith)]
  ring

/-! ## One evaluation -/

def ExitContext.firesTimeStop48 (cfg : ExitConfig) (c : ExitContext) : Bool :=
  (c.beforeTimeStop48 cfg).isNone && (c.timeStop48 cfg).isSome

theorem exitContext_eq {cfg : ExitConfig} {m : EngineMemory} {trade : Trade} {inp : TickInput}
    {c : ExitContext} (h : exitContext cfg m trade inp = some c) :
    c.tiers = tiersOf trade.strategyId ∧ c.executed = trade.tiersExecuted ∧
      c.dumpReason = m.signals.get trade.tokenOut := by
  simp only [exitContext, Option.bind_eq_bind, Option.bind_eq_some_iff] at h
  obtain ⟨live, -, currentMcap, -, entryMcap, -, h⟩ := h
  obtain rfl := Option.some.inj h
  exact ⟨rfl, rfl, rfl⟩

/-- The holder watcher raises one kind of signal. -/
def SignalsAreDumps (m : EngineMemory) : Prop := ∀ e ∈ m.signals, e.2 = .insider_dump

theorem SignalsAreDumps.get {m : EngineMemory} (h : SignalsAreDumps m) {token : String} :
    ∀ reason ∈ m.signals.get token, reason = .insider_dump :=
  fun reason hreason => h (token, reason) (KeyValue.mem_of_get hreason)

/-- A sale of a staged trade that goes through and is recorded leaves it staged, unless the time
stop of 48 hours made it. -/
theorem Staged.sell {cfg : ExitConfig} {m : EngineMemory} {trade : Trade} {inp : TickInput}
    {c : ExitContext} {order : SellOrder} (h : Staged trade) (hopen : trade.exitAt = none)
    (hdumps : SignalsAreDumps m) (hc : exitContext cfg m trade inp = some c)
    (horder : c.decision cfg = some order) (hlands : lands (trade.observe c) inp order = true)
    (htime : c.firesTimeStop48 cfg = false) (hrecorded : inp.recorded = true) :
    Staged (executeSell cfg (trade.observe c) inp c.mcapRatio order) := by
  obtain ⟨htiers, hexec, hdump⟩ := exitContext_eq hc
  obtain ⟨table, sale, htable, hfrac, heq⟩ := executeSell_lands cfg c.mcapRatio hlands
  have hobs : Staged (trade.observe c) := h.of_ledger rfl
  have hlist : c.tiers = table.tiers := by
    have hstrategy : getTiers trade.strategyId = some table := htable
    simp [htiers, tiersOf, hstrategy]
  rw [heq, if_pos hrecorded]
  rcases c.decision_cases horder (by rw [hdump]; exact hdumps.get) with
    ⟨t, i, hdue, rfl⟩ | ⟨hfull, hrest⟩ | ⟨hnone, hsome, -, -⟩
  · obtain ⟨n, hn, -, -⟩ := h.2 hopen
    obtain ⟨rfl, ht⟩ := c.dueTier_eq hdue (hexec.trans hn) (by rw [hlist]; exact table.multiples_ascend)
    exact hobs.sell_tier hopen htable (hlist ▸ ht) hn hfrac
  · refine hobs.sell_rest hopen htable hfull (hfrac.trans ?_)
    rw [hrest, ExitContext.remaining, htiers, hexec]
    rfl
  · simp [ExitContext.firesTimeStop48, hnone, hsome] at htime

/-- A sale that is lost, or that the time stop of 48 hours made, breaks the accounting. -/
theorem Staged.not_conserved {cfg : ExitConfig} {m : EngineMemory} {trade : Trade} {inp : TickInput}
    {c : ExitContext} {order : SellOrder} (h : Staged trade) (hopen : trade.exitAt = none)
    (hc : exitContext cfg m trade inp = some c)
    (horder : c.decision cfg = some order) (hlands : lands (trade.observe c) inp order = true)
    (hviol : ¬ (c.firesTimeStop48 cfg = false ∧ inp.recorded = true)) :
    ¬ Conserved (executeSell cfg (trade.observe c) inp c.mcapRatio order) := by
  obtain ⟨htiers, hexec, hdump⟩ := exitContext_eq hc
  obtain ⟨table, sale, htable, hfrac, heq⟩ := executeSell_lands cfg c.mcapRatio hlands
  have hpos : 0 < sale.sellFraction := by
    simp only [lands, Bool.and_eq_true, decide_eq_true_eq] at hlands
    rw [hfrac]
    exact hlands.1.1.1
  have hobs : Staged (trade.observe c) := h.of_ledger rfl
  intro hcons
  rw [heq] at hcons
  by_cases hrecorded : inp.recorded = true
  · -- the sale is recorded, so the time stop of 48 hours made it
    have htime : c.firesTimeStop48 cfg = true := by simpa [hrecorded] using hviol
    simp only [ExitContext.firesTimeStop48, Bool.and_eq_true, Option.isNone_iff_eq_none] at htime
    obtain ⟨n, hn, hsold, -⟩ := hobs.2 hopen
    have horder' : order = ⟨.time_stop, 1 / 2⟩ ∧ 0 ∉ c.executed := by
      simp only [ExitContext.decision, htime.1, Option.orElse_eq_orElse, Option.orElse_eq_or,
        Option.none_or] at horder
      obtain ⟨order', h48⟩ := Option.isSome_iff_exists.mp htime.2
      have hcond := Option.ite_none_right_eq_some.mp h48
      rw [h48, Option.some_or] at horder
      refine ⟨?_, hcond.1.2.1⟩
      rw [← Option.some.inj horder, ← Option.some.inj hcond.2]
      norm_num [TIME_STOP_48H_SELL_PCT]
    obtain ⟨rfl, hzero⟩ := horder'
    have hn0 : n = 0 := by
      have hexec' : c.executed = List.range n := hexec.trans hn
      rw [hexec', List.mem_range] at hzero
      omega
    have hwhole := hcons.1 (by rw [if_pos hrecorded, recordSale_fullExit rfl]; rfl)
    rw [if_pos hrecorded, recordSale_soldFraction, soldFraction_append, hsold, hfrac, hn0] at hwhole
    norm_num [clampFraction, soldPct] at hwhole
  · have hpart := hcons.2 (by rw [if_neg hrecorded]; exact hopen)
    have hbefore := hobs.conserved.2 hopen
    rw [if_neg hrecorded, soldFraction_append, hbefore] at hpart
    dsimp only at hpart
    linarith

/-! ## Runs -/

def EngineState.selling (cfg : ExitConfig) (s : EngineState) :
    EngineEvent → Option (ExitContext × TickInput)
  | .evaluate i inp => do
    let trade ← s.trades[i]?
    let c ← exitContext cfg s.memory trade inp
    let order ← c.decision cfg
    if lands (trade.observe c) inp order = true then some (c, inp) else none
  | _ => none

/-- No sale is made by the time stop of 48 hours, and the row update after a sale lands. -/
def CleanSales (cfg : ExitConfig) (s : EngineState) (e : EngineEvent) : Prop :=
  ∀ m ∈ s.selling cfg e, m.1.firesTimeStop48 cfg = false ∧ m.2.recorded = true

instance (cfg : ExitConfig) (s : EngineState) (e : EngineEvent) : Decidable (CleanSales cfg s e) :=
  inferInstanceAs (Decidable (∀ m ∈ s.selling cfg e, m.1.firesTimeStop48 cfg = false ∧ m.2.recorded = true))

def EngineStaged (s : EngineState) : Prop :=
  (∀ trade ∈ s.trades, Staged trade) ∧ SignalsAreDumps s.memory

theorem SignalsAreDumps.of_subset {m m' : EngineMemory} (h : SignalsAreDumps m)
    (hsub : m'.signals ⊆ m.signals) : SignalsAreDumps m' := fun e he => h e (hsub he)

theorem EngineMemory.after_signals_subset (cfg : ExitConfig) (m : EngineMemory) (token : String)
    (c : ExitContext) : (m.after cfg token c).signals ⊆ m.signals := by
  unfold EngineMemory.after
  dsimp only
  split
  · exact List.Subset.refl _
  · exact fun _ => KeyValue.mem_del

/-- An evaluation either leaves the ledger of its trade alone or makes a sale that goes through. -/
theorem evaluateTrade_cases (cfg : ExitConfig) (m : EngineMemory) (trade : Trade) (inp : TickInput) :
    (evaluateTrade cfg m trade inp).2.ledger = trade.ledger ∨
      ∃ c order, exitContext cfg m trade inp = some c ∧ c.decision cfg = some order ∧
        lands (trade.observe c) inp order = true ∧
        (evaluateTrade cfg m trade inp).2
          = executeSell cfg (trade.observe c) inp c.mcapRatio order := by
  unfold evaluateTrade
  split
  · exact .inl rfl
  · rename_i c hc
    dsimp only
    split
    · exact .inl rfl
    · rename_i order horder
      cases hlands : lands (trade.observe c) inp order with
      | false => exact .inl (executeSell_ledger hlands)
      | true => exact .inr ⟨c, order, hc, horder, hlands, rfl⟩

theorem evaluateTrade_signals_subset (cfg : ExitConfig) (m : EngineMemory) (trade : Trade)
    (inp : TickInput) : (evaluateTrade cfg m trade inp).1.signals ⊆ m.signals := by
  unfold evaluateTrade
  split
  · exact List.Subset.refl _
  · exact m.after_signals_subset cfg _ _

theorem exitEngine_evaluate {cfg : ExitConfig} {s s' : EngineState} {i : ℕ} {inp : TickInput}
    (h : (exitEngine cfg).step s (.evaluate i inp) = some s') :
    ∃ trade, s.trades[i]? = some trade ∧ trade.exitAt = none ∧
      s'.trades = s.trades.set i (evaluateTrade cfg s.memory trade inp).2 ∧
      s'.memory = (evaluateTrade cfg s.memory trade inp).1 := by
  simp only [exitEngine, Option.bind_eq_bind, Option.bind_eq_some_iff] at h
  obtain ⟨trade, htrade, h⟩ := h
  obtain ⟨hopen, h⟩ := Option.ite_none_right_eq_some.mp h
  obtain rfl := Option.some.inj h
  simp only [Trade.isOpen, Bool.and_eq_true, Option.isNone_iff_eq_none] at hopen
  exact ⟨trade, htrade, hopen.1.1, rfl, rfl⟩

theorem step_engineStaged {cfg : ExitConfig} {s s' : EngineState} {e : EngineEvent}
    (hinv : EngineStaged s) (hguard : CleanSales cfg s e)
    (hstep : (exitEngine cfg).step s e = some s') : EngineStaged s' := by
  obtain ⟨htrades, hdumps⟩ := hinv
  cases e with
  | buy tokenOut strategyId mode createdAt amountOut priceUsd =>
    obtain rfl := Option.some.inj hstep
    refine ⟨fun trade htrade => ?_, hdumps⟩
    rcases List.mem_append.mp htrade with hmem | hnew
    · exact htrades trade hmem
    · obtain rfl := List.mem_singleton.mp hnew
      refine ⟨fun h => by simp at h, fun _ => ⟨0, rfl, ?_, ?_⟩⟩
      · simp [Trade.soldFraction, soldPct]
      · simp [soldPct]
  | dump token =>
    obtain rfl := Option.some.inj hstep
    refine ⟨htrades, fun e he => ?_⟩
    rcases List.mem_cons.mp he with rfl | hmem
    · rfl
    · exact hdumps e (KeyValue.mem_del hmem)
  | prune active =>
    obtain rfl := Option.some.inj hstep
    exact ⟨htrades, hdumps⟩
  | evaluate i inp =>
    obtain ⟨trade, htrade, hopen, hset, hmem⟩ := exitEngine_evaluate hstep
    have hstaged : Staged trade := htrades trade (List.mem_of_getElem? htrade)
    refine ⟨fun t ht => ?_, ?_⟩
    · rw [hset] at ht
      rcases List.mem_or_eq_of_mem_set ht with hold | rfl
      · exact htrades t hold
      rcases evaluateTrade_cases cfg s.memory trade inp with hledger | ⟨c, order, hc, horder, hlands, heq⟩
      · exact hstaged.of_ledger hledger
      · have hclean := hguard (c, inp) (by simp [EngineState.selling, htrade, hc, horder, hlands])
        rw [heq]
        exact hstaged.sell hopen hdumps hc horder hlands hclean.1 hclean.2
    · rw [hmem]
      exact hdumps.of_subset (evaluateTrade_signals_subset cfg s.memory trade inp)

theorem step_not_conserved {cfg : ExitConfig} {s s' : EngineState} {e : EngineEvent}
    (hinv : EngineStaged s) (hviol : ¬ CleanSales cfg s e)
    (hstep : (exitEngine cfg).step s e = some s') : ¬ ∀ trade ∈ s'.trades, Conserved trade := by
  simp only [CleanSales, not_forall] at hviol
  obtain ⟨⟨c, inp⟩, hsell, hbad⟩ := hviol
  cases e with
  | evaluate i inp' =>
    simp only [EngineState.selling, Option.mem_def, Option.bind_eq_bind, Option.bind_eq_some_iff] at hsell
    obtain ⟨trade, htrade, c', hc, order, horder, hsell⟩ := hsell
    obtain ⟨hlands, ⟨⟩⟩ := Option.ite_none_right_eq_some.mp hsell
    obtain ⟨trade', htrade', hopen, hset, -⟩ := exitEngine_evaluate hstep
    obtain rfl : trade = trade' := Option.some.inj (htrade.symm.trans htrade')
    have hstaged : Staged trade := hinv.1 trade (List.mem_of_getElem? htrade)
    have hbroken := hstaged.not_conserved hopen hc horder hlands hbad
    have hlen : i < s.trades.length := (List.getElem?_eq_some_iff.mp htrade).1
    have heq : (evaluateTrade cfg s.memory trade inp).2
        = executeSell cfg (trade.observe c) inp c.mcapRatio order := by
      simp only [evaluateTrade, hc, horder]
    intro hall
    refine hbroken (hall _ ?_)
    rw [hset, heq]
    exact List.mem_set hlen _
  | _ => simp [EngineState.selling] at hsell

/-- **Exit conservation.** The accounts of every trade are right all along a run exactly when no
sale of the run is made by the time stop of 48 hours and every row update after a sale lands. -/
theorem conserved_iff (cfg : ExitConfig) {es : List EngineEvent} {t : EngineState}
    (hrun : (exitEngine cfg).run {} es = some t) :
    (∀ pre post u, es = pre ++ post → (exitEngine cfg).run {} pre = some u →
      ∀ trade ∈ u.trades, Conserved trade) ↔ (exitEngine cfg).GuardedRun (CleanSales cfg) {} es t :=
  (StepSystem.GuardedRun.iff_forall_reached EngineStaged (fun s => ∀ trade ∈ s.trades, Conserved trade)
    (fun _ _ _ hinv hguard hstep => step_engineStaged hinv hguard hstep)
    (fun _ hinv trade htrade => (hinv.1 trade htrade).conserved)
    (fun _ _ _ hinv hviol hstep => step_not_conserved hinv hviol hstep) hrun
    ⟨by simp, by simp [SignalsAreDumps]⟩).symm

/-! ## Two runs -/

def sampleExitConfig : ExitConfig where
  sqrt x := x

/-- A trade of 1000000 tokens bought for 100 dollars at a market cap of 100000, evaluated with the
given market caps at the given times. -/
def tradeRun (ticks : List (ℚ × ℤ)) : List EngineEvent :=
  .buy "EPjFWdd5AufqSSqeM2qN1xzybapC8G4wEGGkZwyTDt1v" none .PAPER 0 (some 1000000) (some 100) ::
    ticks.map fun (mcap, now) => .evaluate 0
      { now, live := some { marketCapUsd := some mcap }, intelMcapUsd := some 100000 }

/-- The first tier, then the trailing stop. -/
theorem conserved_iff_trailingStop :
    ∃ t, (exitEngine sampleExitConfig).run {} (tradeRun [(200000, 60000), (150000, 90000)]) = some t ∧
      ∀ pre post u, tradeRun [(200000, 60000), (150000, 90000)] = pre ++ post →
        (exitEngine sampleExitConfig).run {} pre = some u → ∀ trade ∈ u.trades, Conserved trade :=
  have hrun : ((exitEngine sampleExitConfig).guardedRun (CleanSales sampleExitConfig) {}
      (tradeRun [(200000, 60000), (150000, 90000)])).isSome = true := by decide +kernel
  have hguarded := StepSystem.GuardedRun.of_guardedRun (Option.some_get hrun).symm
  ⟨_, hguarded.run, (conserved_iff sampleExitConfig hguarded.run).mpr hguarded⟩

def timeStop48State : EngineState :=
  ((exitEngine sampleExitConfig).run {} (tradeRun [(100000, 172800000)])).getD {}

/-- It is closed with half of it unsold. -/
theorem timeStop48_not_conserved :
    ¬ ∀ (cfg : ExitConfig) (es : List EngineEvent) (s : EngineState),
      (exitEngine cfg).run {} es = some s → ∀ trade ∈ s.trades, Conserved trade := by
  intro h
  have hrun : (exitEngine sampleExitConfig).run {} (tradeRun [(100000, 172800000)])
      = some timeStop48State := by decide +kernel
  obtain ⟨trade, htrade, hexit, hsold⟩ : ∃ trade ∈ timeStop48State.trades,
      trade.exitAt.isSome = true ∧ trade.soldFraction = 1 / 2 := by decide +kernel
  have hwhole := (h sampleExitConfig _ _ hrun trade htrade).1 hexit
  rw [hsold] at hwhole
  norm_num at hwhole

end SuperAi.ExitEngine
