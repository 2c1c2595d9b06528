import SuperAi.Foundations.KeyValue
import Mathlib.Algebra.Order.Ring.Rat
import Mathlib.Tactic.Basic

/-! # Risk state in Redis

The keys that the risk components share, by kind: the kill switches (`risk/kill.switch.ts`), the
circuit breakers (`risk/circuit.breaker.ts`) and the watermarks of the loss monitor
(`risk/loss.monitor.ts`). Values are kept as the numbers and states whose texts are stored.
-/
namespace SuperAi.Risk
open SuperAi.Foundations
set_option autoImplicit false

inductive KillSwitchScope
  | USER (userId : String)
  | STRATEGY (strategyId : String)
  | GLOBAL
  deriving DecidableEq, Repr

structure KillSwitchState where
  active : Bool
  triggeredBy : String
  deriving DecidableEq, Repr

inductive CircuitBreakerState
  | CLOSED
  | OPEN
  | HALF_OPEN
  deriving DecidableEq, Repr

structure RiskStore where
  killSwitch : KeyValue KillSwitchScope KillSwitchState := []
  breakerState : KeyValue String CircuitBreakerState := []
  openedAt : KeyValue String ℤ := []
  hwm : KeyValue String ℚ := []
  drawdown : KeyValue String ℚ := []
  deriving DecidableEq, Repr

/-! ## Kill switch -/

namespace KillSwitch

def trigger (s : RiskStore) (scope : KillSwitchScope) (triggeredBy : String) : RiskStore :=
  { s with killSwitch := s.killSwitch.set scope ⟨true, triggeredBy⟩ }

def active (s : RiskStore) (scope : KillSwitchScope) : Bool :=
  match s.killSwitch.get scope with
  | some state => state.active
  | none => false

/-- The global switch is looked at first, whatever the scope. -/
def isActive (s : RiskStore) (scope : KillSwitchScope) : Bool := active s .GLOBAL || active s scope

/-- `none` is the error of a reset by anyone but the administrator. -/
def reset (adminUserId : String) (s : RiskStore) (scope : KillSwitchScope) (resetBy : String) :
    Option RiskStore :=
  if resetBy ≠ adminUserId then none else some { s with killSwitch := s.killSwitch.del scope }

end KillSwitch

/-! ## Circuit breakers -/

structure CircuitBreaker where
  name : String
  resetTimeoutMs : ℤ
  deriving DecidableEq, Repr

namespace CircuitBreaker

def transitionTo (b : CircuitBreaker) (s : RiskStore) (state : CircuitBreakerState) : RiskStore :=
  { s with breakerState := s.breakerState.set b.name state }

def getState (b : CircuitBreaker) (now : ℤ) (s : RiskStore) : CircuitBreakerState × RiskStore :=
  match s.breakerState.get b.name with
  | some .OPEN =>
    match s.openedAt.get b.name with
    | some openedAt =>
      if b.resetTimeoutMs ≤ now - openedAt then (.HALF_OPEN, b.transitionTo s .HALF_OPEN) else (.OPEN, s)
    | none => (.OPEN, s)
  | some .HALF_OPEN => (.HALF_OPEN, s)
  | _ => (.CLOSED, s)

def isOpen (b : CircuitBreaker) (now : ℤ) (s : RiskStore) : Bool × RiskStore :=
  (decide ((b.getState now s).1 = .OPEN), (b.getState now s).2)

theorem getState_snd (b : CircuitBreaker) (now : ℤ) (s : RiskStore) :
    (b.getState now s).2 = s ∨ (b.getState now s).2 = b.transitionTo s .HALF_OPEN := by
  unfold getState
  repeat' split
  all_goals simp

@[simp] theorem isOpen_killSwitch (b : CircuitBreaker) (now : ℤ) (s : RiskStore) :
    (b.isOpen now s).2.killSwitch = s.killSwitch := by
  rcases b.getState_snd now s with h | h <;> simp [isOpen, h, transitionTo]

@[simp] theorem isOpen_hwm (b : CircuitBreaker) (now : ℤ) (s : RiskStore) :
    (b.isOpen now s).2.hwm = s.hwm := by
  rcases b.getState_snd now s with h | h <;> simp [isOpen, h, transitionTo]

end CircuitBreaker
end SuperAi.Risk
