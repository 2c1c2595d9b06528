import Mathlib.Data.Int.Notation
import SuperAi.Foundations.StepSystem

/-! # The daily usage of the autonomous trader

What `agents/autonomous-trader.worker.ts` reads and writes of one user's `LearningConfig`: the check
of `runForUser`, made on the row as the tick has read it, and `bumpDailyUsage`, which counts a swap
after it was made. Swaps come from ticks and from `executeApproved`, for an approval request that a
tick has left. What a tick decides (strategies, rules, guardrails, autonomy level) is an answer of
the environment; each access to the database and each swap is a step of its own.
-/
namespace SuperAi.Agents
open SuperAi.Foundations
set_option autoImplicit false

/-! ## The configuration -/

structure LearningConfig where
  dailyLimit : ℕ
  dailyUsedCount : ℕ := 0
  dailyResetAt : Option ℤ := none
  deriving DecidableEq, Repr

namespace LearningConfig
variable (cfg : LearningConfig)

def resetExpired (now : ℤ) : Bool :=
  match cfg.dailyResetAt with
  | none => true
  | some resetAt => decide (resetAt < now)

def used (now : ℤ) : ℕ := if cfg.resetExpired now then 0 else cfg.dailyUsedCount

def remaining (now : ℤ) : ℤ := cfg.dailyLimit - cfg.used now

/-- The data of the update in `bumpDailyUsage`; the branch was chosen when the row was read, at `now`. -/
def bumped (resetExpired : Bool) (now : ℤ) : LearningConfig :=
  if resetExpired then { cfg with dailyUsedCount := 1, dailyResetAt := some (now + 24 * 3600000) }
  else { cfg with dailyUsedCount := cfg.dailyUsedCount + 1 }

end LearningConfig

/-! ## The calls -/

/-- Where a tick or an `executeApproved` is: before the check, the decision, the end of the swap, the
update of its request, the read or the update of `bumpDailyUsage`, or past them. -/
inductive UsagePhase
  | check (cfg : LearningConfig)
  | decide
  | swap (request : Option ℕ)
  | settle (request : ℕ)
  | bump
  | count (resetExpired : Bool) (now : ℤ)
  | ended
  deriving DecidableEq, Repr

inductive Decision
  | stop
  | ask
  | trade
  deriving DecidableEq, Repr

/-- The row, the calls, the approval requests with whether a trade is stored in each, and how many
swaps have succeeded since `dailyResetAt` was last set. -/
structure Usage where
  cfg : LearningConfig
  clock : ℤ
  calls : List UsagePhase := []
  requests : List Bool := []
  sinceReset : Option ℕ := none
  deriving DecidableEq, Repr

inductive UsageEvent
  | tick
  | checked (i : ℕ)
  | decided (i : ℕ) (decision : Decision)
  | executeApproved (request : ℕ)
  | swapped (i : ℕ) (ok : Bool)
  | settled (i : ℕ)
  | readUsage (i : ℕ)
  | counted (i : ℕ)
  | fails (i : ℕ)
  deriving DecidableEq, Repr

namespace Usage
variable (s : Usage)

def start (phase : UsagePhase) : Usage := { s with calls := s.calls ++ [phase] }

def setPhase (i : ℕ) (phase : UsagePhase) : Usage := { s with calls := s.calls.set i phase }

def decided (i : ℕ) : Decision → Usage
  | .stop => s.setPhase i .ended
  | .ask => { s.setPhase i .ended with requests := s.requests ++ [false] }
  | .trade => s.setPhase i (.swap none)

def afterSwap : Option ℕ → UsagePhase
  | none => .bump
  | some request => .settle request

def swapped (i : ℕ) (request : Option ℕ) (ok : Bool) : Usage :=
  if ok then { s.setPhase i (afterSwap request) with sinceReset := s.sinceReset.map (· + 1) }
  else s.setPhase i .ended

def counted (i : ℕ) (resetExpired : Bool) (now : ℤ) : Usage :=
  { s.setPhase i .ended with
    cfg := s.cfg.bumped resetExpired now
    sinceReset := if resetExpired then some 0 else s.sinceReset }

def stepAt (now : ℤ) : UsageEvent → Option Usage
  | .tick => some (s.start (.check s.cfg))
  | .checked i => do
    let phase ← s.calls[i]?
    match phase with
    | .check cfg => some (s.setPhase i (if cfg.remaining now ≤ 0 then .ended else .decide))
    | _ => none
  | .decided i decision => do
    let phase ← s.calls[i]?
    if phase = .decide then some (s.decided i decision) else none
  | .executeApproved request => do
    let executed ← s.requests[request]?
    some (s.start (if executed then .ended else .swap (some request)))
  | .swapped i ok => do
    let phase ← s.calls[i]?
    match phase with
    | .swap request => some (s.swapped i request ok)
    | _ => none
  | .settled i => do
    let phase ← s.calls[i]?
    match phase with
    | .settle request => some { s.setPhase i .bump with requests := s.requests.set request true }
    | _ => none
  | .readUsage i => do
    let phase ← s.calls[i]?
    if phase = .bump then some (s.setPhase i (.count (s.cfg.resetExpired now) now)) else none
  | .counted i => do
    let phase ← s.calls[i]?
    match phase with
    | .count resetExpired readAt => some (s.counted i resetExpired readAt)
    | _ => none
  | .fails i => do
    let phase ← s.calls[i]?
    if phase = .ended then none else some (s.setPhase i .ended)

/-- An event at its time; the clock does not go back. -/
def step (e : ℤ × UsageEvent) : Option Usage :=
  if s.clock ≤ e.1 then { s with clock := e.1 }.stepAt e.1 e.2 else none

end Usage

def dailyUsage : StepSystem Usage (ℤ × UsageEvent) := ⟨Usage.step⟩

end SuperAi.Agents
