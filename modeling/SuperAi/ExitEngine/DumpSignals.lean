import SuperAi.ExitEngine.Conservation
import SuperAi.ExitEngine.HolderWatchService
import SuperAi.Foundations.SingleUse

/-! # Holder-dump signals

The exit engine and the holder watcher together, over any number of trades. A detected dump leaves one signal for its
token, which the next evaluation of a trade of the token takes away, whatever comes of its sale; a signal that nobody
takes stays. The signals reach the trades that they concern (`signals_reach`) in a run in which whoever takes a signal
sells, leaves no other trade of the token waiting for it, and no token is bought while its signal is pending.
-/
namespace SuperAi.ExitEngine
open SuperAi.Foundations
set_option autoImplicit false

/-! ## The two services -/

structure DumpConfig where
  exit : ExitConfig
  holder : HolderConfig := {}

/-- A trade with two marks that are not columns: a dump of its token has been detected since it was opened; and one
was detected while it was held, and since then the rest of it has neither been sold nor has it got stuck. -/
structure HeldTrade where
  trade : Trade
  dumped : Bool := false
  owed : Bool := false
  deriving DecidableEq, Repr

structure DumpDesk where
  trades : List HeldTrade := []
  mcapWindow : KeyValue String (List ℚ) := []
  peakLiq : KeyValue String ℚ := []
  watch : HolderWatch := {}
  deriving DecidableEq, Repr

/-- `check` is one check of the holder watcher, `evaluate` one evaluation of an open trade. -/
inductive DumpEvent
  | buy (tokenOut : String) (strategyId : Option String) (mode : TradeMode) (createdAt : ℤ)
      (amountOut priceUsd : Option ℚ)
  | evaluate (trade : ℕ) (inp : TickInput)
  | check (token : String) (answer : RpcAnswer) (now : ℤ)
  | prune (active : List String)

/-- What the engine reads of its own memory and of the watcher. -/
def DumpDesk.memory (s : DumpDesk) : EngineMemory where
  mcapWindow := s.mcapWindow
  peakLiq := s.peakLiq
  signals := s.watch.signals.map fun entry => (entry.1, entry.2.reason)

def Trade.isHeld (trade : Trade) : Bool := trade.exitAt.isNone && !trade.sellStuck

def HolderWatch.detects (cfg : HolderConfig) (w : HolderWatch) (token : String) (answer : RpcAnswer) (now : ℤ) : Bool :=
  (fetchSnapshot answer now).any fun snap => isDump cfg (w.snapshots.get token) snap

def HeldTrade.mark (token : String) (h : HeldTrade) : HeldTrade :=
  if h.trade.tokenOut = token then { h with dumped := true, owed := h.owed || h.trade.isHeld } else h

/-- The evaluation sells all that remains, or nothing remains. -/
def restSold (cfg : ExitConfig) (m : EngineMemory) (trade : Trade) (inp : TickInput) : Bool :=
  (exitContext cfg m trade inp).any fun c => (c.decision cfg).any fun order =>
    decide (order.sellFraction = c.remaining) && (decide (c.remaining ≤ 0) || lands (trade.observe c) inp order)

def HeldTrade.evaluated (cfg : ExitConfig) (m : EngineMemory) (h : HeldTrade) (inp : TickInput) : HeldTrade :=
  let trade := (evaluateTrade cfg m h.trade inp).2
  { h with trade, owed := h.owed && !trade.sellStuck && !restSold cfg m h.trade inp }

/-- The watcher after an evaluation: the signal is consumed where the engine no longer has it. -/
def HolderWatch.afterEvaluation (w : HolderWatch) (token : String) (m : EngineMemory) : HolderWatch :=
  if (m.signals.get token).isSome then w else (w.consumeSignal token).2

def dumpDesk (cfg : DumpConfig) : StepSystem DumpDesk DumpEvent where
  step s
    | .buy tokenOut strategyId mode createdAt amountOut priceUsd =>
      some { s with
        trades := s.trades ++ [{ trade := { tokenOut, strategyId, mode, createdAt, amountOut, priceUsd } }] }
    | .evaluate i inp =>
      (s.trades[i]?).bind fun h =>
        if h.trade.isOpen cfg.exit then
          let memory := (evaluateTrade cfg.exit s.memory h.trade inp).1
          some {
            trades := s.trades.set i (h.evaluated cfg.exit s.memory inp)
            mcapWindow := memory.mcapWindow
            peakLiq := memory.peakLiq
            watch := s.watch.afterEvaluation h.trade.tokenOut memory }
        else none
    | .check token answer now =>
      some { s with
        trades := if s.watch.detects cfg.holder token answer now then s.trades.map (HeldTrade.mark token) else s.trades
        watch := s.watch.checkToken cfg.holder token answer now }
    | .prune active =>
      some { s with
        mcapWindow := s.mcapWindow.filter fun entry => active.contains entry.1
        peakLiq := s.peakLiq.filter fun entry => active.contains entry.1 }

/-! ## What the signals are for -/

/-- An evaluation past its data checks tries to sell all that remains. -/
def TriesRest (cfg : ExitConfig) (m : EngineMemory) (trade : Trade) (inp : TickInput) : Prop :=
  ∀ c, exitContext cfg m trade inp = some c → (getTiers trade.strategyId).isSome = true ∧
    ∃ order, c.decision cfg = some order ∧ order.sellFraction = c.remaining

/-- The evaluation of a trade that is owed a sale tries to sell the rest, and no trade exits for a dump where none has
been detected since it was opened. -/
def Reaches (cfg : DumpConfig) (s : DumpDesk) : DumpEvent → Prop
  | .evaluate i inp => ∀ h, s.trades[i]? = some h → h.trade.isOpen cfg.exit = true →
      (h.owed = true → TriesRest cfg.exit s.memory h.trade inp) ∧
      ((h.evaluated cfg.exit s.memory inp).trade.exitAt.isSome = true →
        (h.evaluated cfg.exit s.memory inp).trade.exitReason = some .insider_dump → h.dumped = true)
  | _ => True

/-- The sale of the rest goes through, or the trade gets stuck by it. -/
def SellsOrSticks (cfg : ExitConfig) (trade : Trade) (c : ExitContext) (inp : TickInput) : Prop :=
  c.remaining ≤ 0 ∨ lands (trade.observe c) inp ⟨.insider_dump, c.remaining⟩ = true ∨
    cfg.maxSellAttempts ≤ trade.sellAttempts + 1

/-- The evaluation takes a signal away. -/
def Takes (cfg : ExitConfig) (s : DumpDesk) (trade : Trade) (c : ExitContext) : Prop :=
  (s.watch.signals.get trade.tokenOut).isSome = true ∧ (c.liquidityDrain cfg).isNone = true

/-- Whoever takes a signal sells, or is owed no sale, and no other open trade of the token is owed one; what is bought
has a list of tiers, and no signal of its token is pending. -/
def Undisputed (cfg : DumpConfig) (s : DumpDesk) : DumpEvent → Prop
  | .buy tokenOut strategyId _ _ _ _ =>
    (s.watch.signals.get tokenOut).isNone = true ∧ (getTiers strategyId).isSome = true
  | .evaluate i inp => ∀ h ∈ s.trades[i]?, ∀ c ∈ exitContext cfg.exit s.memory h.trade inp,
      Takes cfg.exit s h.trade c → (h.owed = true → SellsOrSticks cfg.exit h.trade c inp) ∧
        ∀ other ∈ s.trades.eraseIdx i, other.trade.tokenOut = h.trade.tokenOut →
          other.trade.isOpen cfg.exit = true → other.owed = false
  | _ => True

instance (cfg : ExitConfig) (trade : Trade) (c : ExitContext) (inp : TickInput) :
    Decidable (SellsOrSticks cfg trade c inp) :=
  inferInstanceAs (Decidable (_ ∨ _ ∨ _))

instance (cfg : ExitConfig) (s : DumpDesk) (trade : Trade) (c : ExitContext) : Decidable (Takes cfg s trade c) :=
  inferInstanceAs (Decidable (_ ∧ _))

instance (cfg : DumpConfig) (s : DumpDesk) (e : DumpEvent) : Decidable (Undisputed cfg s e) := by
  unfold Undisputed
  cases e with
  | buy => infer_instance
  | evaluate i inp => infer_instance
  | _ => exact isTrue trivial

/-! ## Decisions -/

namespace ExitContext
variable {cfg : ExitConfig} {c : ExitContext} {order : SellOrder}

theorem decision_of_dump {reason : ExitReason} (h : c.dumpReason = some reason) :
    ∃ order, c.decision cfg = some order ∧ order.sellFraction = c.remaining := by
  unfold decision beforeTimeStop48
  cases hdrain : c.liquidityDrain cfg with
  | none => exact ⟨⟨reason, c.remaining⟩, by simp [holderDump, h], rfl⟩
  | some order =>
    refine ⟨order, by simp, ?_⟩
    obtain ⟨-, ⟨⟩⟩ := Option.ite_none_right_eq_some.mp hdrain
    rfl

theorem decision_of_taken {reason : ExitReason} (h : c.dumpReason = some reason)
    (hdrain : (c.liquidityDrain cfg).isNone = true) : c.decision cfg = some ⟨reason, c.remaining⟩ := by
  unfold decision beforeTimeStop48
  rw [Option.isNone_iff_eq_none.mp hdrain]
  simp [holderDump, h]

/-- Without a signal no rule sells for a dump. -/
theorem decision_ne_dump (hdump : c.dumpReason = none) (hstaged : ∀ t ∈ c.tiers, t.id.isFullExit = false)
    (h : c.decision cfg = some order) : order.reason ≠ .insider_dump := by
  rcases (Option.orElse_eq_some _ _ _).mp h with hbefore | ⟨-, hafter⟩
  · rcases (Option.orElse_eq_some _ _ _).mp hbefore with hdrain | ⟨-, hbefore⟩
    · obtain ⟨-, ⟨⟩⟩ := Option.ite_none_right_eq_some.mp hdrain
      simp
    rcases (Option.orElse_eq_some _ _ _).mp hbefore with hholder | ⟨-, hbefore⟩
    · simp [holderDump, hdump] at hholder
    rcases (Option.orElse_eq_some _ _ _).mp hbefore with htier | ⟨-, hbefore⟩
    · obtain ⟨⟨t, i⟩, hdue, rfl⟩ := Option.map_eq_some_iff.mp htier
      intro hreason
      have hmem : t ∈ c.tiers := (List.mem_zipIdx (List.mem_of_find?_eq_some hdue)).2.2 ▸ List.getElem_mem _
      have hnot := hstaged t hmem
      dsimp only at hreason
      rw [hreason] at hnot
      cases hnot
    rcases (Option.orElse_eq_some _ _ _).mp hbefore with htrail | ⟨-, hbefore⟩
    · obtain ⟨-, ⟨⟩⟩ := Option.ite_none_right_eq_some.mp htrail
      simp
    rcases (Option.orElse_eq_some _ _ _).mp hbefore with hmom | ⟨-, htime⟩
    · obtain ⟨-, ⟨⟩⟩ := Option.ite_none_right_eq_some.mp hmom
      simp
    · obtain ⟨-, ⟨⟩⟩ := Option.ite_none_right_eq_some.mp htime
      simp
  · rcases (Option.orElse_eq_some _ _ _).mp hafter with h48 | ⟨-, hthesis⟩
    · obtain ⟨-, ⟨⟩⟩ := Option.ite_none_right_eq_some.mp h48
      simp
    · simp only [thesisBreak, Option.bind_eq_bind, Option.bind_eq_some_iff] at hthesis
      obtain ⟨⟨aiScore, aiVerdict⟩, -, hthesis⟩ := hthesis
      split at hthesis
      · simp at hthesis
      · obtain rfl := Option.some.inj hthesis
        dsimp only
        split <;> simp

end ExitContext

/-! ## Evaluations -/

section Evaluation
variable {cfg : ExitConfig} {m : EngineMemory} {trade : Trade} {inp : TickInput}

theorem tiersOf_staged (profileKey : Option String) : ∀ t ∈ tiersOf profileKey, t.id.isFullExit = false := by
  unfold tiersOf
  cases getTiers profileKey with
  | none => simp
  | some table => exact table.ids_staged

theorem executeSell_columns (trade : Trade) (inp : TickInput) (mcapRatio : ℚ) (order : SellOrder) :
    (executeSell cfg trade inp mcapRatio order).tokenOut = trade.tokenOut ∧
      (executeSell cfg trade inp mcapRatio order).strategyId = trade.strategyId := by
  unfold executeSell recordSale recordSellFailure
  dsimp only
  repeat' split
  all_goals exact ⟨rfl, rfl⟩

theorem evaluateTrade_columns (cfg : ExitConfig) (m : EngineMemory) (trade : Trade) (inp : TickInput) :
    (evaluateTrade cfg m trade inp).2.tokenOut = trade.tokenOut ∧
      (evaluateTrade cfg m trade inp).2.strategyId = trade.strategyId := by
  unfold evaluateTrade
  split
  · exact ⟨rfl, rfl⟩
  · dsimp only
    split
    · exact ⟨rfl, rfl⟩
    · exact executeSell_columns _ _ _ _

theorem clampFraction_pos {x : ℚ} (h : 0 < x) : 0 < clampFraction x :=
  lt_min one_pos (lt_max_of_lt_right h)

/-- A sale that is tried and does not go through is counted. -/
theorem executeSell_fails {mcapRatio : ℚ} {order : SellOrder} (hpos : 0 < order.sellFraction)
    (htable : (getTiers trade.strategyId).isSome = true) (h : lands trade inp order = false) :
    executeSell cfg trade inp mcapRatio order = recordSellFailure cfg trade := by
  obtain ⟨table, htable⟩ := Option.isSome_iff_exists.mp htable
  have hclamp := clampFraction_pos hpos
  unfold executeSell
  simp only [if_neg (not_le.mpr hclamp), htable]
  split
  · rfl
  · rfl
  · rename_i amountIn hamount hswap
    simp [lands, htable, hamount, hswap, hclamp] at h

theorem recordSale_exit {table : TierTable} {now : ℤ} {reason : ExitReason} {notional entry : ℚ}
    (hopen : trade.exitAt = none) (h : (recordSale table trade now reason notional entry).exitAt.isSome = true) :
    (recordSale table trade now reason notional entry).exitReason = some reason := by
  unfold recordSale at h ⊢
  dsimp only at h ⊢
  split_ifs at h ⊢
  · rfl
  · rw [hopen] at h
    cases h

/-- A trade whose evaluation closes it has sold for the reason that is recorded. -/
theorem exit_order (hopen : trade.exitAt = none) (hexit : (evaluateTrade cfg m trade inp).2.exitAt.isSome = true) :
    ∃ c order, exitContext cfg m trade inp = some c ∧ c.decision cfg = some order ∧
      (evaluateTrade cfg m trade inp).2.exitReason = some order.reason := by
  obtain hsame | ⟨c, order, hc, horder, hlands, heq⟩ := evaluateTrade_cases cfg m trade inp
  · have hexitAt : (evaluateTrade cfg m trade inp).2.exitAt = trade.exitAt := congrArg (fun l => l.2.2.1) hsame
    rw [hexitAt, hopen] at hexit
    cases hexit
  · refine ⟨c, order, hc, horder, ?_⟩
    obtain ⟨table, sale, -, -, hsale⟩ := executeSell_lands cfg c.mcapRatio hlands
    rw [heq, hsale] at hexit ⊢
    dsimp only at hexit ⊢
    split_ifs at hexit ⊢
    · exact recordSale_exit hopen hexit
    · change trade.exitAt.isSome = true at hexit
      rw [hopen] at hexit
      cases hexit

end Evaluation
/-! ## Signals -/

section Signals
variable {cfg : DumpConfig} {s s' : DumpDesk}

theorem get_memory (s : DumpDesk) (token : String) :
    s.memory.signals.get token = (s.watch.signals.get token).map HolderSignal.reason :=
  KeyValue.get_map s.watch.signals HolderSignal.reason token

theorem get_afterEvaluation (w : HolderWatch) (token : String) (m : EngineMemory) (other : String) :
    (w.afterEvaluation token m).signals.get other =
      if other = token ∧ m.signals.get token = none then none else w.signals.get other := by
  unfold HolderWatch.afterEvaluation
  cases hkept : m.signals.get token with
  | some reason => simp
  | none =>
    unfold HolderWatch.consumeSignal
    cases hsignal : w.signals.get token with
    | none =>
      by_cases hother : other = token
      · simp [hother, hsignal]
      · simp [hother]
    | some sig =>
      by_cases hother : other = token
      · simp [hother]
      · simp [hother, KeyValue.get_del_of_ne hother]

/-- The engine keeps a signal exactly when the liquidity drain comes first, or there is no evaluation. -/
theorem get_evaluated (m : EngineMemory) (trade : Trade) (inp : TickInput) (c : ExitConfig) :
    (evaluateTrade c m trade inp).1.signals.get trade.tokenOut =
      if (exitContext c m trade inp).any (fun x => (x.liquidityDrain c).isNone) = true then none
      else m.signals.get trade.tokenOut := by
  unfold evaluateTrade
  cases exitContext c m trade inp with
  | none => rfl
  | some x =>
    unfold EngineMemory.after
    cases hdrain : x.liquidityDrain c with
    | none => simp [hdrain]
    | some order => simp [hdrain]

theorem get_checkToken (w : HolderWatch) (h : HolderConfig) (token : String) (answer : RpcAnswer) (now : ℤ)
    (other : String) : (w.checkToken h token answer now).signals.get other =
      if w.detects h token answer now = true ∧ other = token then some { reason := .insider_dump, ts := now }
      else w.signals.get other := by
  unfold HolderWatch.checkToken HolderWatch.detects
  cases fetchSnapshot answer now with
  | none => simp
  | some snap =>
    by_cases hdump : HolderWatch.isDump h (w.snapshots.get token) snap = true
    · by_cases hother : other = token
      · simp [hdump, hother]
      · simp [hdump, hother, KeyValue.get_set_of_ne hother]
    · simp [hdump]

/-- What a held trade has to do with the pending signals. -/
structure HeldInv (cfg : DumpConfig) (s : DumpDesk) (h : HeldTrade) : Prop where
  tiers : (getTiers h.trade.strategyId).isSome = true
  pending : h.owed = true → h.trade.isOpen cfg.exit = true → (s.watch.signals.get h.trade.tokenOut).isSome = true
  dumped : (s.watch.signals.get h.trade.tokenOut).isSome = true → h.dumped = true

structure DumpInv (cfg : DumpConfig) (s : DumpDesk) : Prop where
  held : ∀ h ∈ s.trades, HeldInv cfg s h
  reasons : ∀ token sig, s.watch.signals.get token = some sig → sig.reason = .insider_dump

theorem dumpReason_of_pending (h : DumpInv cfg s) {trade : Trade} {inp : TickInput} {c : ExitContext}
    (hc : exitContext cfg.exit s.memory trade inp = some c)
    (hpending : (s.watch.signals.get trade.tokenOut).isSome = true) :
    c.dumpReason = some .insider_dump := by
  obtain ⟨sig, hsig⟩ := Option.isSome_iff_exists.mp hpending
  rw [(exitContext_eq hc).2.2, get_memory, hsig, Option.map_some, h.reasons _ sig hsig]

namespace HeldInv
variable {h : HeldTrade}

/-- The mark of a detected dump. -/
theorem marked (hinv : HeldInv cfg s h) {token : String} {answer : RpcAnswer} {now : ℤ}
    (hdetects : s.watch.detects cfg.holder token answer now = true) {trades : List HeldTrade} :
    HeldInv cfg { s with trades, watch := s.watch.checkToken cfg.holder token answer now } (h.mark token) := by
  unfold HeldTrade.mark
  by_cases htoken : h.trade.tokenOut = token
  · rw [if_pos htoken]
    refine ⟨hinv.tiers, fun _ _ => ?_, fun _ => rfl⟩
    dsimp only
    rw [get_checkToken, if_pos ⟨hdetects, htoken⟩]
    rfl
  · rw [if_neg htoken]
    have hsame : (s.watch.checkToken cfg.holder token answer now).signals.get h.trade.tokenOut =
        s.watch.signals.get h.trade.tokenOut := by
      rw [get_checkToken, if_neg fun hboth => htoken hboth.2]
    refine ⟨hinv.tiers, fun howed hopen => ?_, fun hpending => ?_⟩
    · dsimp only
      rw [hsame]
      exact hinv.pending howed hopen
    · dsimp only at hpending
      rw [hsame] at hpending
      exact hinv.dumped hpending

/-- Signals are only taken away from the trade. -/
theorem kept (hinv : HeldInv cfg s h) (hsub : (s'.watch.signals.get h.trade.tokenOut).isSome = true →
      (s.watch.signals.get h.trade.tokenOut).isSome = true)
    (hpending : h.owed = true → h.trade.isOpen cfg.exit = true → (s'.watch.signals.get h.trade.tokenOut).isSome = true) :
    HeldInv cfg s' h :=
  ⟨hinv.tiers, hpending, fun hsome => hinv.dumped (hsub hsome)⟩

end HeldInv

/-- A trade that takes its signal sells the rest or gets stuck. -/
theorem evaluated_settled (h : DumpInv cfg s) {held : HeldTrade} (hheld : HeldInv cfg s held) {inp : TickInput}
    {c : ExitContext} (hc : exitContext cfg.exit s.memory held.trade inp = some c) (htakes : Takes cfg.exit s held.trade c)
    (hsells : SellsOrSticks cfg.exit held.trade c inp) : (held.evaluated cfg.exit s.memory inp).owed = false := by
  have hdecision := c.decision_of_taken (dumpReason_of_pending h hc htakes.1) htakes.2
  by_cases hsold : restSold cfg.exit s.memory held.trade inp = true
  · simp [HeldTrade.evaluated, hsold]
  · have hnot : ¬ (c.remaining ≤ 0 ∨ lands (held.trade.observe c) inp ⟨.insider_dump, c.remaining⟩ = true) := by
      simpa [restSold, hc, hdecision] using hsold
    obtain ⟨hpos, hfails⟩ := not_or.mp hnot
    have hstuck : cfg.exit.maxSellAttempts ≤ held.trade.sellAttempts + 1 :=
      (hsells.resolve_left hpos).resolve_left hfails
    have hfailed : (evaluateTrade cfg.exit s.memory held.trade inp).2 =
        recordSellFailure cfg.exit (held.trade.observe c) := by
      unfold evaluateTrade
      rw [hc]
      dsimp only
      rw [hdecision]
      exact executeSell_fails (not_le.mp hpos) hheld.tiers (Bool.eq_false_iff.mpr hfails)
    simp [HeldTrade.evaluated, hfailed, recordSellFailure, Trade.observe, hstuck]

/-! ## Runs -/

namespace DumpInv

theorem bought (h : DumpInv cfg s) {new : Trade} (hnone : (s.watch.signals.get new.tokenOut).isNone = true)
    (htiers : (getTiers new.strategyId).isSome = true) :
    DumpInv cfg { s with trades := s.trades ++ [{ trade := new }] } where
  held := by
    refine List.forall_mem_append.mpr ⟨fun held hmem => ?_, List.forall_mem_singleton.mpr ?_⟩
    · have hheld := h.held held hmem
      exact ⟨hheld.tiers, hheld.pending, hheld.dumped⟩
    · refine ⟨htiers, fun howed => absurd howed Bool.false_ne_true, fun hpending => ?_⟩
      dsimp only at hpending
      rw [Option.isNone_iff_eq_none.mp hnone] at hpending
      cases hpending
  reasons := h.reasons

theorem checked (h : DumpInv cfg s) (token : String) (answer : RpcAnswer) (now : ℤ) :
    DumpInv cfg { s with
      trades := if s.watch.detects cfg.holder token answer now then s.trades.map (HeldTrade.mark token) else s.trades
      watch := s.watch.checkToken cfg.holder token answer now } where
  held := by
    by_cases hdetects : s.watch.detects cfg.holder token answer now = true
    · rw [if_pos hdetects]
      exact List.forall_mem_map.mpr fun held hmem => (h.held held hmem).marked hdetects
    · rw [if_neg hdetects]
      intro held hmem
      have hsame : (s.watch.checkToken cfg.holder token answer now).signals.get held.trade.tokenOut =
          s.watch.signals.get held.trade.tokenOut := by
        rw [get_checkToken, if_neg fun hboth => hdetects hboth.1]
      have hheld := h.held held hmem
      refine hheld.kept (fun hpending => ?_) fun howed hopen => ?_
      · rwa [← hsame]
      · dsimp only
        rw [hsame]
        exact hheld.pending howed hopen
  reasons other sig hsig := by
    dsimp only at hsig
    rw [get_checkToken] at hsig
    split_ifs at hsig
    · rw [← Option.some.inj hsig]
    · exact h.reasons other sig hsig

/-- The signals after an evaluation: the one that was taken is gone. -/
theorem get_after {held : HeldTrade} (inp : TickInput) (other : String) :
    (s.watch.afterEvaluation held.trade.tokenOut (evaluateTrade cfg.exit s.memory held.trade inp).1).signals.get other =
      if other = held.trade.tokenOut ∧ ∃ c, exitContext cfg.exit s.memory held.trade inp = some c ∧
        Takes cfg.exit s held.trade c then none
      else s.watch.signals.get other := by
  rw [get_afterEvaluation, get_evaluated, get_memory]
  by_cases hother : other = held.trade.tokenOut
  · subst hother
    cases hc : exitContext cfg.exit s.memory held.trade inp with
    | none => cases hsignal : s.watch.signals.get held.trade.tokenOut <;> simp
    | some c =>
      cases hsignal : s.watch.signals.get held.trade.tokenOut with
      | none => simp
      | some sig => cases hdrain : c.liquidityDrain cfg.exit <;> simp [Takes, hsignal, hdrain]
  · simp [hother]

/-- The trade that is evaluated keeps its signal, or has sold its rest or is stuck. -/
theorem evaluated_self (h : DumpInv cfg s) {held : HeldTrade} (hheld : HeldInv cfg s held) {inp : TickInput}
    (hopen : held.trade.isOpen cfg.exit = true)
    (hsells : ∀ c, exitContext cfg.exit s.memory held.trade inp = some c → Takes cfg.exit s held.trade c →
      held.owed = true → SellsOrSticks cfg.exit held.trade c inp)
    (hwatch : s'.watch = s.watch.afterEvaluation held.trade.tokenOut
      (evaluateTrade cfg.exit s.memory held.trade inp).1) :
    HeldInv cfg s' (held.evaluated cfg.exit s.memory inp) := by
  obtain ⟨htoken, hstrategy⟩ := evaluateTrade_columns cfg.exit s.memory held.trade inp
  change (held.evaluated cfg.exit s.memory inp).trade.tokenOut = held.trade.tokenOut at htoken
  have howedBefore : (held.evaluated cfg.exit s.memory inp).owed = true → held.owed = true := by
    intro howed
    simp only [HeldTrade.evaluated, Bool.and_eq_true] at howed
    exact howed.1.1
  have hafter := (congrArg (fun w : HolderWatch => w.signals.get held.trade.tokenOut) hwatch).trans (get_after inp _)
  by_cases htaken : ∃ c, exitContext cfg.exit s.memory held.trade inp = some c ∧ Takes cfg.exit s held.trade c
  · rw [if_pos ⟨rfl, htaken⟩] at hafter
    obtain ⟨c, hc, htakes⟩ := htaken
    refine ⟨hstrategy ▸ hheld.tiers, fun howed => ?_, fun hpending => ?_⟩
    · rw [evaluated_settled h hheld hc htakes (hsells c hc htakes (howedBefore howed))] at howed
      cases howed
    · rw [htoken, hafter] at hpending
      cases hpending
  · rw [if_neg fun hboth => htaken hboth.2] at hafter
    refine ⟨hstrategy ▸ hheld.tiers, fun howed _ => ?_, fun hpending => ?_⟩
    · rw [htoken, hafter]
      exact hheld.pending (howedBefore howed) hopen
    · rw [htoken, hafter] at hpending
      exact hheld.dumped hpending

/-- Another trade loses a signal only if it is owed nothing. -/
theorem evaluated_other {held other : HeldTrade} (hother : HeldInv cfg s other) {inp : TickInput}
    (halone : ∀ c, exitContext cfg.exit s.memory held.trade inp = some c → Takes cfg.exit s held.trade c →
      other.trade.tokenOut = held.trade.tokenOut → other.trade.isOpen cfg.exit = true → other.owed = false)
    (hwatch : s'.watch = s.watch.afterEvaluation held.trade.tokenOut
      (evaluateTrade cfg.exit s.memory held.trade inp).1) : HeldInv cfg s' other := by
  have hafter := (congrArg (fun w : HolderWatch => w.signals.get other.trade.tokenOut) hwatch).trans (get_after inp _)
  apply hother.kept
  · intro hpending
    rw [hafter] at hpending
    split_ifs at hpending
    · cases hpending
    · exact hpending
  · intro howed hopen
    rw [hafter, if_neg]
    · exact hother.pending howed hopen
    · rintro ⟨htoken, c, hc, htakes⟩
      rw [halone c hc htakes htoken hopen] at howed
      cases howed

theorem evaluated (h : DumpInv cfg s) {i : ℕ} {held : HeldTrade} {inp : TickInput} (hget : s.trades[i]? = some held)
    (hopen : held.trade.isOpen cfg.exit = true) (hguard : Undisputed cfg s (.evaluate i inp))
    {mcapWindow : KeyValue String (List ℚ)} {peakLiq : KeyValue String ℚ} :
    DumpInv cfg {
      trades := s.trades.set i (held.evaluated cfg.exit s.memory inp)
      mcapWindow
      peakLiq
      watch := s.watch.afterEvaluation held.trade.tokenOut (evaluateTrade cfg.exit s.memory held.trade inp).1 } where
  held := by
    intro other hother
    obtain rfl | hrest := eq_or_mem_eraseIdx hother
    · have hheld := h.held held (List.mem_of_getElem? hget)
      exact h.evaluated_self hheld hopen (fun c hc htakes => (hguard held hget c hc htakes).1) rfl
    · have hheld := h.held other (List.mem_of_mem_eraseIdx hrest)
      exact evaluated_other hheld (fun c hc htakes => (hguard held hget c hc htakes).2 other hrest) rfl
  reasons token sig hsig := by
    dsimp only at hsig
    rw [get_after] at hsig
    split_ifs at hsig
    exact h.reasons token sig hsig

theorem step {e : DumpEvent} (h : DumpInv cfg s) (hguard : Undisputed cfg s e)
    (hstep : (dumpDesk cfg).step s e = some s') : DumpInv cfg s' := by
  cases e with
  | buy tokenOut strategyId mode createdAt amountOut priceUsd =>
    obtain rfl := Option.some.inj hstep
    exact h.bought hguard.1 hguard.2
  | evaluate i inp =>
    obtain ⟨held, hget, hstep⟩ := Option.bind_eq_some_iff.mp hstep
    obtain ⟨hopen, heq⟩ := Option.ite_none_right_eq_some.mp hstep
    obtain rfl := Option.some.inj heq
    exact h.evaluated hget hopen hguard
  | check token answer now =>
    obtain rfl := Option.some.inj hstep
    exact h.checked token answer now
  | prune active =>
    obtain rfl := Option.some.inj hstep
    refine ⟨fun held hmem => ?_, h.reasons⟩
    have hheld := h.held held hmem
    exact ⟨hheld.tiers, hheld.pending, hheld.dumped⟩

theorem reaches (h : DumpInv cfg s) (e : DumpEvent) : Reaches cfg s e := by
  cases e with
  | evaluate i inp =>
    intro held hget hopen
    have hheld := h.held held (List.mem_of_getElem? hget)
    constructor
    · intro howed c hc
      exact ⟨hheld.tiers, c.decision_of_dump (dumpReason_of_pending h hc (hheld.pending howed hopen))⟩
    · intro hexit hreason
      have hexitAt : held.trade.exitAt = none := by
        simp only [Trade.isOpen, Bool.and_eq_true, Option.isNone_iff_eq_none] at hopen
        exact hopen.1.1
      obtain ⟨c, order, hc, hdecision, horder⟩ := exit_order hexitAt hexit
      apply hheld.dumped
      by_contra hnone
      have hdump : c.dumpReason = none := by
        rw [(exitContext_eq hc).2.2, get_memory, Option.map_eq_none_iff]
        simpa using hnone
      have hstaged : ∀ t ∈ c.tiers, t.id.isFullExit = false := by
        rw [(exitContext_eq hc).1]
        exact tiersOf_staged _
      have hsame : order.reason = .insider_dump := Option.some.inj (horder.symm.trans hreason)
      exact ExitContext.decision_ne_dump hdump hstaged hdecision hsame
  | _ => trivial

end DumpInv

/-- **Holder-dump signals.** In a run in which nobody is disputed a signal, every signal reaches the trades that it
concerns, and no others. -/
theorem signals_reach {es : List DumpEvent} (hrun : (dumpDesk cfg).GuardedRun (Undisputed cfg) {} es s) :
    (dumpDesk cfg).GuardedRun (Reaches cfg) {} es s :=
  hrun.mono_of_invariant (I := DumpInv cfg) (fun _ e _ h hguard hstep => ⟨h.step hguard hstep, h.reaches e⟩)
    ⟨fun _ h => absurd h List.not_mem_nil, fun _ _ h => by cases h⟩

end Signals

/-! ## Two runs -/

def dumpConfig : DumpConfig := { exit := sampleExitConfig }

def buyMint : DumpEvent := .buy "mint" none .PAPER 0 (some 1000000) (some 100)

def checkMint (top10Sum : ℚ) (now : ℤ) : DumpEvent :=
  .check "mint" { largest := some [some top10Sum], supply := none } now

/-- The market cap is that of the entry, so that no rule but the dump sells. -/
def flat (now : ℤ) : TickInput where
  now := now
  live := some { marketCapUsd := some 100000 }
  intelMcapUsd := some 100000

/-- A trade is sold for a dump, and the token is bought again when the signal has been taken. -/
def oneHeld : List DumpEvent :=
  [buyMint, checkMint 1000 1000, checkMint 500 2000, .evaluate 0 (flat 3000), buyMint, .evaluate 1 (flat 4000)]

theorem oneHeld_reached : ∃ s, (dumpDesk dumpConfig).run {} oneHeld = some s ∧
    (dumpDesk dumpConfig).GuardedRun (Reaches dumpConfig) {} oneHeld s := by
  have hsome : ((dumpDesk dumpConfig).guardedRun (Undisputed dumpConfig) {} oneHeld).isSome = true := by decide +kernel
  obtain ⟨s, hs⟩ := Option.isSome_iff_exists.mp hsome
  have hrun := StepSystem.GuardedRun.of_guardedRun hs
  exact ⟨s, hrun.run, signals_reach hrun⟩

/-- Two trades of the token are open when it is dumped, and the first one takes the signal. -/
def twoHeld : List DumpEvent :=
  [buyMint, buyMint, checkMint 1000 1000, checkMint 500 2000, .evaluate 0 (flat 3000)]

/-- The second one does not try to sell. -/
theorem twoHeld_missed : ¬ ∀ (cfg : DumpConfig) (es : List DumpEvent) (s : DumpDesk),
    (dumpDesk cfg).run {} es = some s →
    (dumpDesk cfg).GuardedRun (Reaches cfg) {} es s := by
  intro h
  have hsome : ((dumpDesk dumpConfig).run {} (twoHeld ++ [.evaluate 1 (flat 4000)])).isSome = true := by decide +kernel
  have hany : ((dumpDesk dumpConfig).run {} twoHeld).any (fun u => (u.trades[1]?).any fun held =>
      (exitContext dumpConfig.exit u.memory held.trade (flat 4000)).any fun c =>
        decide (held.trade.isOpen dumpConfig.exit = true ∧ held.owed = true ∧ c.decision dumpConfig.exit = none)) =
          true := by decide +kernel
  obtain ⟨s, hs⟩ := Option.isSome_iff_exists.mp hsome
  obtain ⟨u, hu, hany⟩ := (Option.any_eq_true _ _).mp hany
  obtain ⟨held, hheld, hany⟩ := (Option.any_eq_true _ _).mp hany
  obtain ⟨c, hc, hready⟩ := (Option.any_eq_true _ _).mp hany
  obtain ⟨hopen, howed, hnone⟩ := of_decide_eq_true hready
  have hreaches : Reaches dumpConfig u (.evaluate 1 (flat 4000)) :=
    (StepSystem.GuardedRun.iff_forall_steps hs).mp (h dumpConfig _ s hs) twoHeld _ [] u rfl hu
  obtain ⟨-, order, horder, -⟩ := (hreaches held hheld hopen).1 howed c hc
  rw [hnone] at horder
  cases horder

end SuperAi.ExitEngine
