import SuperAi.Risk.RiskEngine
import SuperAi.Foundations.ExpiringStore

/-! # Circuit breakers over orders

The breakers of `RiskEngineService` (`security/risk-engine.service.ts`) and what the class
`CircuitBreaker` counts. Failures recorded in one window open a breaker (`open_of_failures`), but an
evaluation only asks whether the breakers are open and records nothing. So however many orders are
evaluated or rejected, no breaker is open that was not open before the first of them
(`stillOpen_runOrders`).
-/
namespace SuperAi.Risk
open SuperAi.Foundations
set_option autoImplicit false

/-! ## What a breaker counts -/

structure CountingBreaker extends CircuitBreaker where
  threshold : ℕ
  windowMs : ℤ
  deriving DecidableEq, Repr

structure BreakerStore where
  risk : RiskStore := {}
  failures : ExpiringStore String ℕ := []

namespace CountingBreaker
variable (b : CountingBreaker)

/-- The seconds that the window is rounded up to, in milliseconds. -/
def windowTtl : ℤ := (b.windowMs + 999) / 1000 * 1000

def openBreaker (now : ℤ) (s : BreakerStore) : BreakerStore :=
  let risk := b.transitionTo s.risk .OPEN
  ⟨{ risk with openedAt := risk.openedAt.set b.name now }, KeyValue.del s.failures b.name⟩

/-- The first failure in the window sets the time that the counter lasts. -/
def incr (now : ℤ) (failures : ExpiringStore String ℕ) : ℕ × ExpiringStore String ℕ :=
  match failures.read now b.name with
  | none => (1, failures.setex now b.windowTtl b.name 1)
  | some count => (count + 1, failures.replace b.name (count + 1))

def recordFailure (now : ℤ) (s : BreakerStore) : BreakerStore :=
  let (state, risk) := b.getState now s.risk
  match state with
  | .OPEN => { s with risk }
  | .HALF_OPEN => b.openBreaker now { s with risk }
  | .CLOSED =>
    let (count, failures) := b.incr now s.failures
    if b.threshold ≤ count then b.openBreaker now ⟨risk, failures⟩ else ⟨risk, failures⟩

def recordSuccess (now : ℤ) (s : BreakerStore) : BreakerStore :=
  let (state, risk) := b.getState now s.risk
  match state with
  | .HALF_OPEN =>
    let risk := b.transitionTo risk .CLOSED
    ⟨{ risk with openedAt := risk.openedAt.del b.name }, KeyValue.del s.failures b.name⟩
  | _ => { s with risk }

def recordFailures (s : BreakerStore) (times : List ℤ) : BreakerStore :=
  times.foldl (fun s now => b.recordFailure now s) s

end CountingBreaker

/-! ## Reading the state of a breaker -/

namespace CircuitBreaker
variable {b : CircuitBreaker} {s : RiskStore} {now : ℤ}

/-- The breaker is stored as open, and its reset timeout has not passed at any of these times. -/
def StillOpen (b : CircuitBreaker) (s : RiskStore) (times : List ℤ) : Prop :=
  s.breakerState.get b.name = some .OPEN ∧
    ∀ openedAt ∈ s.openedAt.get b.name, ∀ now ∈ times, now - openedAt < b.resetTimeoutMs

theorem getState_of_closed (h : s.breakerState.get b.name = none ∨ s.breakerState.get b.name = some .CLOSED) :
    b.getState now s = (.CLOSED, s) := by
  rcases h with h | h <;> rw [getState, h]

/-- A breaker is found open and left as it is, or it is found otherwise and then not stored as open. -/
theorem getState_cases (b : CircuitBreaker) (now : ℤ) (s : RiskStore) :
    b.StillOpen s [now] ∧ b.getState now s = (.OPEN, s) ∨
      ¬ b.StillOpen s [now] ∧ (b.getState now s).1 ≠ .OPEN ∧
        (b.getState now s).2.breakerState.get b.name ≠ some .OPEN := by
  unfold getState StillOpen
  cases hstate : s.breakerState.get b.name with
  | none => simp [hstate]
  | some state =>
    cases state with
    | CLOSED => simp [hstate]
    | HALF_OPEN => simp [hstate]
    | OPEN =>
      cases hopened : s.openedAt.get b.name with
      | none => simp
      | some openedAt =>
        by_cases htimeout : b.resetTimeoutMs ≤ now - openedAt
        · simp [htimeout, transitionTo]
        · have hwithin : now - openedAt < b.resetTimeoutMs := by omega
          simp [htimeout, hwithin]

theorem isOpen_fst_iff : (b.isOpen now s).1 = true ↔ b.StillOpen s [now] := by
  rw [isOpen, decide_eq_true_iff]
  rcases b.getState_cases now s with ⟨hopen, hstate⟩ | ⟨hclosed, hstate, -⟩
  · simp [hopen, hstate]
  · simp [hclosed, hstate]

@[simp] theorem isOpen_openedAt : (b.isOpen now s).2.openedAt = s.openedAt := by
  rcases b.getState_snd now s with h | h <;> simp [isOpen, h, transitionTo]

theorem stillOpen_isOpen_of_ne {c : CircuitBreaker} (hne : b.name ≠ c.name) {times : List ℤ} :
    b.StillOpen (c.isOpen now s).2 times ↔ b.StillOpen s times := by
  unfold StillOpen
  rw [isOpen_openedAt]
  rcases c.getState_snd now s with h | h
  · rw [isOpen, h]
  · rw [isOpen, h, transitionTo, KeyValue.get_set_of_ne hne]

/-- Nor does it open this one: a breaker stays open if it is found open. -/
theorem isOpen_breakerState_self :
    (b.isOpen now s).2.breakerState.get b.name = some .OPEN ↔ b.StillOpen s [now] := by
  rw [isOpen]
  rcases b.getState_cases now s with ⟨hopen, hstate⟩ | ⟨hclosed, -, hstored⟩
  · simp [hopen, hstate, hopen.1]
  · simp [hclosed, hstored]

theorem stillOpen_isOpen_self {times : List ℤ} :
    b.StillOpen (b.isOpen now s).2 times ↔ b.StillOpen s (now :: times) := by
  rw [StillOpen, isOpen_breakerState_self, isOpen_openedAt]
  simp only [StillOpen, List.mem_cons, forall_eq_or_imp, List.not_mem_nil, false_imp_iff, implies_true,
    and_true]
  constructor
  · rintro ⟨⟨hopen, hnow⟩, htimes⟩
    exact ⟨hopen, fun openedAt hopened => ⟨hnow openedAt hopened, htimes openedAt hopened⟩⟩
  · rintro ⟨hopen, hall⟩
    exact ⟨⟨hopen, fun openedAt hopened => (hall openedAt hopened).1⟩,
      fun openedAt hopened => (hall openedAt hopened).2⟩

end CircuitBreaker

/-! ## A breaker whose failures are recorded -/

namespace CountingBreaker
variable {b : CountingBreaker} {s : BreakerStore} {now till : ℤ} {count : ℕ}

/-- The breaker is closed and has counted this many failures in a window that lasts till then. -/
structure Counting (b : CountingBreaker) (s : BreakerStore) (count : ℕ) (till : ℤ) : Prop where
  closed : s.risk.breakerState.get b.name = none ∨ s.risk.breakerState.get b.name = some .CLOSED
  counter : KeyValue.get s.failures b.name = some ⟨count, till⟩

def OpenedAt (b : CountingBreaker) (s : BreakerStore) (now : ℤ) : Prop :=
  s.risk.breakerState.get b.name = some .OPEN ∧ s.risk.openedAt.get b.name = some now

theorem openedAt_openBreaker (b : CountingBreaker) (now : ℤ) (s : BreakerStore) :
    b.OpenedAt (b.openBreaker now s) now := by
  simp [OpenedAt, openBreaker, CircuitBreaker.transitionTo]

theorem OpenedAt.isOpen {opened : ℤ} (h : b.OpenedAt s opened) (hnow : now - opened < b.resetTimeoutMs) :
    (b.isOpen now s.risk).1 = true := by
  rw [CircuitBreaker.isOpen_fst_iff]
  refine ⟨h.1, ?_⟩
  rw [h.2]
  simpa using hnow

/-- What a failure of a closed breaker does: it is counted, and opens the breaker at the threshold. -/
theorem recordFailure_eq
    (hclosed : s.risk.breakerState.get b.name = none ∨ s.risk.breakerState.get b.name = some .CLOSED) :
    b.recordFailure now s = if b.threshold ≤ (b.incr now s.failures).1 then
      b.openBreaker now ⟨s.risk, (b.incr now s.failures).2⟩ else ⟨s.risk, (b.incr now s.failures).2⟩ := by
  rw [recordFailure, CircuitBreaker.getState_of_closed hclosed]

theorem Counting.incr_eq (h : b.Counting s count till) (hnow : now < till) :
    b.incr now s.failures = (count + 1, s.failures.replace b.name (count + 1)) := by
  have hread : s.failures.read now b.name = some count := ExpiringStore.read_of_get h.counter hnow
  rw [incr, hread]

theorem Counting.recordFailure (h : b.Counting s count till) (hnow : now < till)
    (hbelow : count + 1 < b.threshold) : b.Counting (b.recordFailure now s) (count + 1) till := by
  rw [recordFailure_eq h.closed, h.incr_eq hnow, if_neg (by omega)]
  exact ⟨h.closed, ExpiringStore.get_replace h.counter _⟩

theorem Counting.openedAt (h : b.Counting s count till) (hnow : now < till)
    (hreached : b.threshold ≤ count + 1) : b.OpenedAt (b.recordFailure now s) now := by
  rw [recordFailure_eq h.closed, h.incr_eq hnow, if_pos hreached]
  exact openedAt_openBreaker b now _

theorem recordFailure_first
    (hclosed : s.risk.breakerState.get b.name = none ∨ s.risk.breakerState.get b.name = some .CLOSED)
    (hfresh : s.failures.read now b.name = none) :
    if b.threshold ≤ 1 then b.OpenedAt (b.recordFailure now s) now
    else b.Counting (b.recordFailure now s) 1 (now + b.windowTtl) := by
  rw [recordFailure_eq hclosed, incr, hfresh]
  dsimp only
  split
  · exact openedAt_openBreaker b now _
  · exact ⟨hclosed, KeyValue.get_set_self _ _ _⟩

theorem Counting.openedAt_run (h : b.Counting s count till) {times : List ℤ} {last : ℤ}
    (htimes : ∀ now ∈ times, now < till) (hlast : last < till)
    (hlength : count + times.length + 1 = b.threshold) :
    b.OpenedAt (b.recordFailures s (times ++ [last])) last := by
  induction times generalizing s count with
  | nil =>
    rw [List.length_nil] at hlength
    exact h.openedAt hlast (by omega)
  | cons now times ih =>
    rw [List.length_cons] at hlength
    have hnext : b.Counting (b.recordFailure now s) (count + 1) till :=
      h.recordFailure (htimes now List.mem_cons_self) (by omega)
    exact ih hnext (fun t ht => htimes t (List.mem_cons_of_mem now ht)) (by omega)

/-- As many failures as the threshold, recorded in the window of the first one, open the breaker. -/
theorem open_of_failures
    (hclosed : s.risk.breakerState.get b.name = none ∨ s.risk.breakerState.get b.name = some .CLOSED)
    {first last : ℤ} {times : List ℤ} (hfresh : s.failures.read first b.name = none)
    (htimes : ∀ now ∈ times, now < first + b.windowTtl) (hlast : last < first + b.windowTtl)
    (hlength : times.length + 2 = b.threshold) (hnow : now - last < b.resetTimeoutMs) :
    (b.isOpen now (b.recordFailures s (first :: times ++ [last])).risk).1 = true := by
  have hfirst := recordFailure_first hclosed hfresh
  rw [if_neg (by omega)] at hfirst
  exact (hfirst.openedAt_run htimes hlast (by omega)).isOpen hnow

end CountingBreaker

/-! ## The breakers of the engine -/

namespace LossMonitor
variable (cfg : SecurityConfig) (s : RiskStore) (portfolio : PortfolioSnapshot) (userId : String)

theorem update_breakerState : (update cfg s portfolio userId).breakerState = s.breakerState := by
  unfold update
  grind [KillSwitch.trigger]

theorem update_openedAt : (update cfg s portfolio userId).openedAt = s.openedAt := by
  unfold update
  grind [KillSwitch.trigger]

end LossMonitor

namespace RiskEngine
variable {now : ℤ} {s : RiskStore}

def breakers : List CircuitBreaker := [velocityBreaker, errorRateBreaker, lossBreaker]

theorem breaker_names : velocityBreaker.name ≠ errorRateBreaker.name ∧
    velocityBreaker.name ≠ lossBreaker.name ∧ errorRateBreaker.name ≠ lossBreaker.name := by
  decide

theorem stillOpen_checkCircuitBreakers {b : CircuitBreaker} (hb : b ∈ breakers) {times : List ℤ} :
    b.StillOpen (checkCircuitBreakers now s).2 times ↔ b.StillOpen s (now :: times) := by
  obtain ⟨hrate, hloss, hrateLoss⟩ := breaker_names
  unfold checkCircuitBreakers
  dsimp only
  obtain rfl | rfl | rfl : b = velocityBreaker ∨ b = errorRateBreaker ∨ b = lossBreaker := by
    simpa [breakers] using hb
  · rw [CircuitBreaker.stillOpen_isOpen_of_ne hloss, CircuitBreaker.stillOpen_isOpen_of_ne hrate,
      CircuitBreaker.stillOpen_isOpen_self]
  · rw [CircuitBreaker.stillOpen_isOpen_of_ne hrateLoss, CircuitBreaker.stillOpen_isOpen_self,
      CircuitBreaker.stillOpen_isOpen_of_ne hrate.symm]
  · rw [CircuitBreaker.stillOpen_isOpen_self, CircuitBreaker.stillOpen_isOpen_of_ne hrateLoss.symm,
      CircuitBreaker.stillOpen_isOpen_of_ne hloss.symm]

theorem checkCircuitBreakers_eq_nil :
    (checkCircuitBreakers now s).1 = [] ↔ ∀ b ∈ breakers, ¬ b.StillOpen s [now] := by
  obtain ⟨hrate, hloss, hrateLoss⟩ := breaker_names
  have hfound : (checkCircuitBreakers now s).1 = [] ↔ ¬ (velocityBreaker.isOpen now s).1 = true ∧
      ¬ (errorRateBreaker.isOpen now (velocityBreaker.isOpen now s).2).1 = true ∧
      ¬ (lossBreaker.isOpen now (errorRateBreaker.isOpen now (velocityBreaker.isOpen now s).2).2).1 = true := by
    simp [checkCircuitBreakers]
  rw [hfound, CircuitBreaker.isOpen_fst_iff, CircuitBreaker.isOpen_fst_iff, CircuitBreaker.isOpen_fst_iff,
    CircuitBreaker.stillOpen_isOpen_of_ne hrateLoss.symm, CircuitBreaker.stillOpen_isOpen_of_ne hloss.symm,
    CircuitBreaker.stillOpen_isOpen_of_ne hrate.symm]
  simp [breakers]

theorem approved_eq_false_iff {cfg : SecurityConfig} {action : AgentAction} {context : RiskContext} :
    (evaluate cfg now s action context).1.approved = false ↔ checkKillSwitch s context = true ∨
      (∃ b ∈ breakers, b.StillOpen s [now]) ∨ checkLimits cfg context action ≠ [] := by
  have hbreakers : (checkCircuitBreakers now s).1 ≠ [] ↔ ∃ b ∈ breakers, b.StillOpen s [now] := by
    rw [ne_eq, checkCircuitBreakers_eq_nil]
    simp only [not_forall, not_not, exists_prop]
  rw [← hbreakers]
  cases hkilled : checkKillSwitch s context <;> simp [evaluate, hkilled, not_and_or, -not_and]

theorem stillOpen_evaluate {b : CircuitBreaker} (hb : b ∈ breakers) {cfg : SecurityConfig}
    {action : AgentAction} {context : RiskContext} {times : List ℤ} :
    b.StillOpen (evaluate cfg now s action context).2 times ↔ b.StillOpen s (now :: times) := by
  rw [← stillOpen_checkCircuitBreakers hb, evaluate_snd]
  unfold CircuitBreaker.StillOpen
  rw [LossMonitor.update_breakerState, LossMonitor.update_openedAt]

end RiskEngine

/-! ## Evaluating orders -/

/-- The configuration with what `RiskEngineService` sets the breakers up from. -/
structure BreakerConfig extends SecurityConfig where
  velocityCircuitBreakerOrderCount : ℕ := 10
  velocityCircuitBreakerWindowSeconds : ℕ := 60
  errorRateCircuitBreakerConsecutiveRejectionCount : ℕ := 5

namespace BreakerConfig
variable (cfg : BreakerConfig)

def velocityBreaker : CountingBreaker :=
  { RiskEngine.velocityBreaker with
    threshold := cfg.velocityCircuitBreakerOrderCount
    windowMs := cfg.velocityCircuitBreakerWindowSeconds * 1000 }

def errorRateBreaker : CountingBreaker :=
  { RiskEngine.errorRateBreaker with
    threshold := cfg.errorRateCircuitBreakerConsecutiveRejectionCount
    windowMs := 60000 }

end BreakerConfig

structure OrderCall where
  now : ℤ
  order : PlaceOrderAction
  context : RiskContext

structure Evaluated where
  now : ℤ
  approved : Bool
  deriving DecidableEq, Repr

namespace OrderCall
variable (cfg : BreakerConfig) (s : RiskStore)

def evaluate (call : OrderCall) : RiskEvaluation × RiskStore :=
  RiskEngine.evaluate cfg.toSecurityConfig call.now s (.PlaceOrder call.order) call.context

def runOrders (calls : List OrderCall) : RiskStore := calls.foldl (fun s call => (call.evaluate cfg s).2) s

def outcomes (s : RiskStore) : List OrderCall → List Evaluated
  | [] => []
  | call :: calls => ⟨call.now, (call.evaluate cfg s).1.approved⟩ :: outcomes (call.evaluate cfg s).2 calls

/-- However the orders are evaluated, a breaker that is open after them was open before the first. -/
theorem stillOpen_runOrders {b : CircuitBreaker} (hb : b ∈ RiskEngine.breakers) (calls : List OrderCall)
    (times : List ℤ) :
    b.StillOpen (runOrders cfg s calls) times ↔ b.StillOpen s (calls.map OrderCall.now ++ times) := by
  induction calls generalizing s with
  | nil => rfl
  | cons call calls ih =>
    rw [runOrders, List.foldl_cons]
    exact (ih _).trans (RiskEngine.stillOpen_evaluate hb)

end OrderCall

/-! ## The breakers taking effect -/

/-- The last orders, and more of them than `velocityCircuitBreakerOrderCount`, were evaluated within the
window, and the reset timeout has not passed since. -/
def VelocityTripped (cfg : BreakerConfig) (history : List Evaluated) (now : ℤ) : Prop :=
  ∃ earlier burst, history = earlier ++ burst ∧ cfg.velocityCircuitBreakerOrderCount < burst.length ∧
    (∀ a ∈ burst, ∀ b ∈ burst, b.now - a.now ≤ cfg.velocityBreaker.windowMs) ∧
    ∀ last ∈ burst.getLast?, last.now ≤ now ∧ now - last.now < cfg.velocityBreaker.resetTimeoutMs

def ErrorRateTripped (cfg : BreakerConfig) (history : List Evaluated) (now : ℤ) : Prop :=
  ∃ earlier rejected, history = earlier ++ rejected ∧
    rejected.length = cfg.errorRateCircuitBreakerConsecutiveRejectionCount ∧
    (∀ e ∈ rejected, e.approved = false) ∧
    ∀ last ∈ rejected.getLast?, last.now ≤ now ∧ now - last.now < cfg.errorRateBreaker.resetTimeoutMs

def Tripped (cfg : BreakerConfig) (history : List Evaluated) (now : ℤ) : Prop :=
  VelocityTripped cfg history now ∨ ErrorRateTripped cfg history now

variable {cfg : BreakerConfig} {s : RiskStore} {calls : List OrderCall} {next : OrderCall}

def TakesEffect (cfg : BreakerConfig) (s : RiskStore) (calls : List OrderCall) (next : OrderCall) : Prop :=
  Tripped cfg (OrderCall.outcomes cfg s calls) next.now →
    (next.evaluate cfg (OrderCall.runOrders cfg s calls)).1.approved = false

/-- A breaker has been open since before the first of the orders. -/
def OpenSinceBefore (s : RiskStore) (calls : List OrderCall) (next : OrderCall) : Prop :=
  ∃ b ∈ RiskEngine.breakers, b.StillOpen s (calls.map OrderCall.now ++ [next.now])

/-- The kill switch or a position limit stops the next order. -/
def StoppedOtherwise (cfg : BreakerConfig) (s : RiskStore) (next : OrderCall) : Prop :=
  RiskEngine.checkKillSwitch s next.context = true ∨
    PositionLimitsChecker.check cfg.toSecurityConfig next.order next.context.portfolio ≠ []

theorem rejected_iff : (next.evaluate cfg (OrderCall.runOrders cfg s calls)).1.approved = false ↔
    OpenSinceBefore s calls next ∨ StoppedOtherwise cfg (OrderCall.runOrders cfg s calls) next := by
  have hopen : (∃ b ∈ RiskEngine.breakers, b.StillOpen (OrderCall.runOrders cfg s calls) [next.now]) ↔
      OpenSinceBefore s calls next := by
    refine exists_congr fun b => and_congr_right fun hb => ?_
    exact OrderCall.stillOpen_runOrders cfg s hb calls [next.now]
  rw [OrderCall.evaluate, RiskEngine.approved_eq_false_iff, hopen]
  exact or_left_comm

/-- **Breakers.** Orders that should trip a breaker have the next order rejected exactly when something
other than these orders stops it. -/
theorem takesEffect_iff : TakesEffect cfg s calls next ↔
    (Tripped cfg (OrderCall.outcomes cfg s calls) next.now →
      OpenSinceBefore s calls next ∨ StoppedOtherwise cfg (OrderCall.runOrders cfg s calls) next) :=
  imp_congr_right fun _ => rejected_iff

/-! ## Eleven orders in eleven seconds -/

def smallOrder (now : ℤ) : OrderCall :=
  ⟨now, ⟨"SOL", .BUY, .MARKET, 1, none, "strategy-1", "order"⟩, ⟨"u1", "strategy-1", ⟨[], 0, 0⟩⟩⟩

def burstOfOrders : List OrderCall := (List.range 11).map fun i => smallOrder (1000 * i)

theorem burst_takes_no_effect :
    ¬ ∀ (cfg : BreakerConfig) (s : RiskStore) (calls : List OrderCall) (next : OrderCall),
      TakesEffect cfg s calls next := by
  intro h
  have happroved : ((smallOrder 11000).evaluate {} (OrderCall.runOrders {} {} burstOfOrders)).1.approved
      = true := by
    decide +kernel
  have htripped : Tripped {} (OrderCall.outcomes {} {} burstOfOrders) 11000 := by
    refine .inl ⟨[], _, rfl, by decide +kernel, ?_, ?_⟩
    · decide +kernel
    · decide +kernel
  rw [h {} {} burstOfOrders (smallOrder 11000) htripped] at happroved
  cases happroved

end SuperAi.Risk
