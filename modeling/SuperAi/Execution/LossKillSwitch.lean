import SuperAi.Execution.Swap
import Mathlib.Tactic.Linarith
import Mathlib.Tactic.FieldSimp
import Mathlib.Tactic.NormNum

/-! # When swaps trigger the loss kill switch

`swap` hands the risk engine a portfolio without positions whose total is the notional of the trade
itself. So the watermark that the loss monitor keeps for a user is the largest notional evaluated
so far, and its kill switch goes off as soon as a trade is enough smaller than an earlier one,
whatever the user's positions are worth (`onlyOnLoss_iff`).
-/
namespace SuperAi.Execution
open SuperAi.Foundations SuperAi.Risk
set_option autoImplicit false

/-! ## Swaps with the risk engine behind them -/

structure SwapState where
  risk : RiskStore := {}
  world : World := {}

/-- A call of `swap`: its input, what the other collaborators answer, the time, and the price of
each token in the market at that time. -/
structure SwapCall where
  input : SwapInput
  ans : Answers
  now : ℤ
  prices : String → ℚ

/-- `swap` with the answer of the risk engine on the current risk state. -/
def swapEvaluated (cfg : SecurityConfig) (s : SwapState) (call : SwapCall) : SwapState :=
  match prepare call.ans call.input with
  | .error _ => { s with world := (swap call.ans call.input s.world).2 }
  | .ok prepared =>
    let (evaluation, risk) := RiskEngine.evaluate cfg call.now s.risk
      (.PlaceOrder (orderAction call.ans prepared)) (riskContext prepared)
    { risk, world := (swap { call.ans with risk := .ok evaluation } call.input s.world).2 }

def runSwaps (cfg : SecurityConfig) (calls : List SwapCall) : SwapState :=
  calls.foldl (swapEvaluated cfg) {}

/-! ## Losses and steady notionals -/

/-- No token that a position could be in has lost value from any call to a later one. -/
def NoLoss (calls : List SwapCall) : Prop :=
  calls.Pairwise fun earlier later => ∀ token, earlier.prices token ≤ later.prices token

def KilledByLossMonitor (s : SwapState) (userId : String) : Prop :=
  s.risk.killSwitch.get (.USER userId) = some ⟨true, "loss-monitor"⟩

/-- The notional that a call hands to the risk engine, if it gets there. -/
def SwapCall.notional (call : SwapCall) : Option ℚ :=
  (prepare call.ans call.input).toOption.map SwapInput.notionalUsd

/-- No notional is below an earlier positive one by the given percentage. -/
def SteadyNotionals (percent : ℚ) (notionals : List ℚ) : Prop :=
  notionals.Pairwise fun earlier later => 0 < earlier → LossMonitor.drawdownPercent earlier later < percent

/-! ## The loss monitor on notionals -/

theorem drawdownPercent_lt_iff {high value percent : ℚ} (h : 0 < high) :
    LossMonitor.drawdownPercent high value < percent ↔ (100 - percent) * high < 100 * value := by
  rw [LossMonitor.drawdownPercent, if_pos h, div_mul_eq_mul_div, div_lt_iff₀ h]
  constructor <;> intro hlt <;> linarith

def watermark (notionals : List ℚ) : Option ℚ :=
  notionals.foldl (fun high n => some (match high with | none => n | some m => max m n)) none

theorem watermark_append (notionals : List ℚ) (n : ℚ) : watermark (notionals ++ [n])
    = some (match watermark notionals with | none => n | some m => max m n) := by
  rw [watermark, List.foldl_append]
  rfl

theorem watermark_eq_none {notionals : List ℚ} (h : watermark notionals = none) : notionals = [] := by
  induction notionals using List.reverseRecOn with
  | nil => rfl
  | append_singleton ns n _ =>
    rw [watermark_append] at h
    simp at h

theorem watermark_spec {notionals : List ℚ} {high : ℚ} (h : watermark notionals = some high) :
    high ∈ notionals ∧ ∀ m ∈ notionals, m ≤ high := by
  induction notionals using List.reverseRecOn generalizing high with
  | nil => simp [watermark] at h
  | append_singleton ns n ih =>
    rw [watermark_append] at h
    cases hprev : watermark ns with
    | none =>
      obtain rfl : ns = [] := watermark_eq_none hprev
      obtain rfl : n = high := by simpa [hprev] using h
      simp
    | some m =>
      obtain ⟨hmem, hmax⟩ := ih hprev
      obtain rfl : max m n = high := by simpa [hprev] using h
      refine ⟨?_, fun k hk => ?_⟩
      · rcases max_choice m n with hm | hn
        · rw [hm]
          exact List.mem_append_left _ hmem
        · rw [hn]
          exact List.mem_append_right _ (List.mem_singleton_self n)
      · rcases List.mem_append.mp hk with hold | hnew
        · exact (hmax k hold).trans (le_max_left m n)
        · rw [List.mem_singleton.mp hnew]
          exact le_max_right m n

theorem steadyNotionals_append {percent : ℚ} (hpercent : percent ≤ 100) {notionals : List ℚ} {n : ℚ} :
    SteadyNotionals percent (notionals ++ [n]) ↔ SteadyNotionals percent notionals ∧
      ∀ high ∈ watermark notionals, 0 < high → LossMonitor.drawdownPercent high n < percent := by
  simp only [SteadyNotionals, List.pairwise_append, List.pairwise_singleton, List.mem_singleton,
    forall_eq, true_and]
  refine and_congr_right fun _ => ?_
  constructor
  · intro hall high hhigh
    exact hall high (watermark_spec hhigh).1
  · intro hhigh m hm hpos
    cases hwater : watermark notionals with
    | none =>
      rw [watermark_eq_none hwater] at hm
      simp at hm
    | some high =>
      -- the drawdown grows with the notional it is measured against
      have hle : m ≤ high := (watermark_spec hwater).2 m hm
      have hlt := hhigh high hwater (hpos.trans_le hle)
      rw [drawdownPercent_lt_iff (hpos.trans_le hle)] at hlt
      rw [drawdownPercent_lt_iff hpos]
      have hmono : (100 - percent) * m ≤ (100 - percent) * high :=
        mul_le_mul_of_nonneg_left hle (by linarith)
      linarith

theorem update_spec (cfg : SecurityConfig) (s : RiskStore) (portfolio : PortfolioSnapshot)
    (userId : String) (hpos : 0 < cfg.sessionDrawdownKillSwitchPercent) :
    let value := portfolio.totalNotional + portfolio.totalUnrealizedPnl
    let s' := LossMonitor.update cfg s portfolio userId
    s'.hwm.get userId = some (match s.hwm.get userId with | none => value | some m => max m value) ∧
      (s'.killSwitch.get (.USER userId) = some ⟨true, "loss-monitor"⟩ ↔
        s.killSwitch.get (.USER userId) = some ⟨true, "loss-monitor"⟩ ∨
          ∃ high ∈ s.hwm.get userId, 0 < high ∧
            cfg.sessionDrawdownKillSwitchPercent ≤ LossMonitor.drawdownPercent high value) := by
  intro value s'
  cases hstored : s.hwm.get userId with
  | none =>
    have hs' : s' = { s with hwm := s.hwm.set userId value, drawdown := s.drawdown.set userId 0 } := by
      simp only [s', LossMonitor.update, hstored]
      rfl
    rw [hs']
    simp
  | some high =>
    by_cases hraise : high < value
    · have hs' : s' = { s with hwm := s.hwm.set userId value, drawdown := s.drawdown.set userId 0 } := by
        simp only [s', LossMonitor.update, hstored]
        exact if_pos hraise
      have hnone : ¬ (0 < high ∧
          cfg.sessionDrawdownKillSwitchPercent ≤ LossMonitor.drawdownPercent high value) := by
        rintro ⟨hhigh, hle⟩
        refine absurd hle (not_le.mpr ?_)
        rw [drawdownPercent_lt_iff hhigh]
        nlinarith
      rw [hs']
      simp [max_eq_right hraise.le, hnone]
    · have hkeep : max high value = high := max_eq_left (not_lt.mp hraise)
      have hguard : cfg.sessionDrawdownKillSwitchPercent ≤ LossMonitor.drawdownPercent high value →
          0 < high := by
        intro hle
        by_contra hhigh
        rw [LossMonitor.drawdownPercent, if_neg hhigh] at hle
        linarith
      by_cases hkill : cfg.sessionDrawdownKillSwitchPercent ≤ LossMonitor.drawdownPercent high value
      · have hs' : s' = KillSwitch.trigger
            { s with drawdown := s.drawdown.set userId (LossMonitor.drawdownPercent high value) }
            (.USER userId) "loss-monitor" := by
          simp only [s', LossMonitor.update, hstored]
          rw [if_neg hraise, if_pos hkill]
        rw [hs']
        simp [KillSwitch.trigger, hstored, hkeep, hkill, hguard hkill]
      · have hs' : s' =
            { s with drawdown := s.drawdown.set userId (LossMonitor.drawdownPercent high value) } := by
          simp only [s', LossMonitor.update, hstored]
          rw [if_neg hraise, if_neg hkill]
        rw [hs']
        simp [hstored, hkeep, hkill]

/-! ## Runs -/

theorem runSwaps_append (cfg : SecurityConfig) (calls : List SwapCall) (call : SwapCall) :
    runSwaps cfg (calls ++ [call]) = swapEvaluated cfg (runSwaps cfg calls) call := by
  rw [runSwaps, List.foldl_append]
  rfl

theorem swapEvaluated_of_notional_none (cfg : SecurityConfig) (s : SwapState) {call : SwapCall}
    (h : call.notional = none) : (swapEvaluated cfg s call).risk = s.risk := by
  unfold swapEvaluated
  split
  · rfl
  · rename_i prepared hprepared
    simp [SwapCall.notional, hprepared, Except.toOption] at h

theorem normalizeAmountIn_userId {ans : Answers} {input normalized : SwapInput}
    (h : normalizeAmountIn ans input = .ok normalized) : normalized.userId = input.userId := by
  unfold normalizeAmountIn at h
  simp only [bind, Except.bind, pure, Except.pure, throw, throwThe, MonadExceptOf.throw] at h
  grind

theorem applySizing_userId (ans : Answers) (input : SwapInput) :
    (applySizing ans input).userId = input.userId := by
  unfold applySizing
  split <;> rfl

theorem prepare_userId {ans : Answers} {input prepared : SwapInput}
    (h : prepare ans input = .ok prepared) : prepared.userId = input.userId := by
  unfold prepare at h
  simp only [bind, Except.bind, pure, Except.pure, throw, throwThe, MonadExceptOf.throw] at h
  split at h
  · simp at h
  · rename_i normalized hnormalized
    rw [← normalizeAmountIn_userId hnormalized, ← applySizing_userId ans normalized]
    grind

theorem swapEvaluated_of_notional {cfg : SecurityConfig} {s : SwapState} {call : SwapCall} {n : ℚ}
    (h : call.notional = some n) : (swapEvaluated cfg s call).risk = LossMonitor.update cfg
      (RiskEngine.checkCircuitBreakers call.now s.risk).2 ⟨[], n, 0⟩ call.input.userId := by
  cases hprepare : prepare call.ans call.input with
  | error e => simp [SwapCall.notional, hprepare, Except.toOption] at h
  | ok prepared =>
    obtain rfl : prepared.notionalUsd = n := by
      simpa [SwapCall.notional, hprepare, Except.toOption] using h
    rw [← prepare_userId hprepare]
    simp only [swapEvaluated, hprepare]
    rfl

/-- Along the swaps of one user, the stored watermark is the largest notional, and the kill switch
has gone off as soon as the notionals are not steady. -/
theorem runSwaps_spec {cfg : SecurityConfig} (hpos : 0 < cfg.sessionDrawdownKillSwitchPercent)
    (hle : cfg.sessionDrawdownKillSwitchPercent ≤ 100) {userId : String} {calls : List SwapCall}
    (huser : ∀ call ∈ calls, call.input.userId = userId) :
    (runSwaps cfg calls).risk.hwm.get userId = watermark (calls.filterMap SwapCall.notional) ∧
      (KilledByLossMonitor (runSwaps cfg calls) userId ↔
        ¬ SteadyNotionals cfg.sessionDrawdownKillSwitchPercent (calls.filterMap SwapCall.notional)) := by
  induction calls using List.reverseRecOn with
  | nil => simp [runSwaps, watermark, KilledByLossMonitor, SteadyNotionals]
  | append_singleton calls call ih =>
    obtain ⟨hwater, hkilled⟩ := ih fun c hc => huser c (List.mem_append_left _ hc)
    have hcall : call.input.userId = userId := huser call (by simp)
    rw [runSwaps_append, List.filterMap_append]
    cases hn : call.notional with
    | none =>
      have hsame := swapEvaluated_of_notional_none cfg (runSwaps cfg calls) hn
      simp only [KilledByLossMonitor, hsame, List.filterMap_cons, hn, List.filterMap_nil, List.append_nil]
      exact ⟨hwater, hkilled⟩
    | some n =>
      obtain ⟨hhwm, hkill⟩ := update_spec cfg
        (RiskEngine.checkCircuitBreakers call.now (runSwaps cfg calls).risk).2 ⟨[], n, 0⟩ userId hpos
      simp only [RiskEngine.checkCircuitBreakers_hwm, RiskEngine.checkCircuitBreakers_killSwitch, add_zero,
        hwater] at hhwm hkill
      simp only [KilledByLossMonitor, swapEvaluated_of_notional hn, hcall, List.filterMap_cons, hn,
        List.filterMap_nil]
      refine ⟨?_, ?_⟩
      · rw [hhwm, watermark_append]
      · rw [hkill, steadyNotionals_append hle, not_and_or]
        refine or_congr hkilled ?_
        simp only [not_forall, not_lt, exists_prop]

def OnlyOnLoss (cfg : SecurityConfig) (userId : String) (calls : List SwapCall) : Prop :=
  NoLoss calls → ¬ KilledByLossMonitor (runSwaps cfg calls) userId

/-- Swaps of these notionals, while no price moves. -/
def sampleCalls (notionals : List ℚ) : List SwapCall :=
  notionals.map fun n => { input := sampleInput n, ans := sampleAnswers, now := 0, prices := fun _ => 1 }

theorem noLoss_sampleCalls (notionals : List ℚ) : NoLoss (sampleCalls notionals) := by
  rw [NoLoss, sampleCalls, List.pairwise_map]
  exact List.pairwise_of_forall fun _ _ _ => le_refl 1

theorem sampleCalls_user (notionals : List ℚ) :
    ∀ call ∈ sampleCalls notionals, call.input.userId = "u1" := by
  intro call hcall
  obtain ⟨n, -, rfl⟩ := List.mem_map.mp hcall
  rfl

end SuperAi.Execution
