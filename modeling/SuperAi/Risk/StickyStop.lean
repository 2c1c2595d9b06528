import SuperAi.Risk.RiskEngine
import SuperAi.Foundations.StepSystem

/-! # The drawdown stop over runs

The three calls that touch the risk state of all users: `RiskEngine.evaluate`, `KillSwitch.trigger` and
`KillSwitch.reset`. The loss monitor triggers the switch of a user whose portfolio has fallen far enough
below the watermark; nothing but the administrator's reset of this very switch removes it, and as long
as it is there no evaluation for the user is approved (`stop_sticky`).
-/
namespace SuperAi.Risk
open SuperAi.Foundations
set_option autoImplicit false

inductive RiskCall
  | evaluate (now : ℤ) (action : AgentAction) (context : RiskContext)
  | trigger (scope : KillSwitchScope) (triggeredBy : String)
  | reset (scope : KillSwitchScope) (resetBy : String)

/-- The state after a call; a reset that throws leaves it as it is. -/
def RiskStore.after (cfg : SecurityConfig) (s : RiskStore) : RiskCall → RiskStore
  | .evaluate now action context => (RiskEngine.evaluate cfg now s action context).2
  | .trigger scope triggeredBy => KillSwitch.trigger s scope triggeredBy
  | .reset scope resetBy => (KillSwitch.reset cfg.adminUserId s scope resetBy).getD s

def riskCalls (cfg : SecurityConfig) : StepSystem RiskStore RiskCall := ⟨fun s call => some (s.after cfg call)⟩

def PortfolioSnapshot.currentValue (portfolio : PortfolioSnapshot) : ℚ :=
  portfolio.totalNotional + portfolio.totalUnrealizedPnl

/-- The portfolio is at least `sessionDrawdownKillSwitchPercent` below the stored positive watermark. -/
def DrawnDown (cfg : SecurityConfig) (s : RiskStore) (context : RiskContext) : Prop :=
  ∃ high, s.hwm.get context.userId = some high ∧ 0 < high ∧ context.portfolio.currentValue ≤ high ∧
    cfg.sessionDrawdownKillSwitchPercent ≤ LossMonitor.drawdownPercent high context.portfolio.currentValue

/-! ## The switch of a scope -/

namespace KillSwitch
variable {s : RiskStore} {scope : KillSwitchScope}

theorem active_trigger_self (s : RiskStore) (scope : KillSwitchScope) (triggeredBy : String) :
    active (trigger s scope triggeredBy) scope = true := by
  simp [active, trigger]

theorem active_trigger (h : active s scope = true) (scope' : KillSwitchScope) (triggeredBy : String) :
    active (trigger s scope' triggeredBy) scope = true := by
  by_cases hscope : scope = scope'
  · rw [hscope]
    exact active_trigger_self s scope' triggeredBy
  · rw [active, trigger, KeyValue.get_set_of_ne hscope]
    exact h

/-- A reset switches off no scope but its own, and only for the administrator. -/
theorem active_reset {adminUserId resetBy : String} {scope' : KillSwitchScope} (h : active s scope = true)
    (hkept : ¬ (scope' = scope ∧ resetBy = adminUserId)) :
    active ((reset adminUserId s scope' resetBy).getD s) scope = true := by
  unfold reset
  by_cases hadmin : resetBy = adminUserId
  · have hscope : scope ≠ scope' := fun heq => hkept ⟨heq.symm, hadmin⟩
    rw [if_neg (not_not.mpr hadmin), Option.getD_some, active, KeyValue.get_del_of_ne hscope]
    exact h
  · rw [if_pos hadmin]
    exact h

end KillSwitch

theorem LossMonitor.active_update {s : RiskStore} {scope : KillSwitchScope}
    (h : KillSwitch.active s scope = true) (cfg : SecurityConfig) (portfolio : PortfolioSnapshot)
    (userId : String) : KillSwitch.active (LossMonitor.update cfg s portfolio userId) scope = true := by
  unfold LossMonitor.update
  split
  · exact h
  · dsimp only
    split
    · exact h
    · split
      · exact KillSwitch.active_trigger h _ _
      · exact h

theorem LossMonitor.active_of_drawnDown {cfg : SecurityConfig} {s : RiskStore} {context : RiskContext}
    (h : DrawnDown cfg s context) :
    KillSwitch.active (LossMonitor.update cfg s context.portfolio context.userId) (.USER context.userId) =
      true := by
  obtain ⟨high, hget, -, hle, hpercent⟩ := h
  unfold PortfolioSnapshot.currentValue at hle hpercent
  unfold LossMonitor.update
  rw [hget]
  dsimp only
  rw [if_neg (not_lt.mpr hle), if_pos hpercent]
  exact KillSwitch.active_trigger_self _ _ _

namespace RiskEngine
variable {cfg : SecurityConfig} {s : RiskStore} {context : RiskContext}

theorem active_evaluate {scope : KillSwitchScope} (h : KillSwitch.active s scope = true) (now : ℤ)
    (action : AgentAction) : KillSwitch.active (evaluate cfg now s action context).2 scope = true := by
  rw [evaluate_snd]
  refine LossMonitor.active_update ?_ cfg context.portfolio context.userId
  rw [KillSwitch.active, checkCircuitBreakers_killSwitch]
  exact h

theorem active_of_drawnDown (h : DrawnDown cfg s context) (now : ℤ) (action : AgentAction) :
    KillSwitch.active (evaluate cfg now s action context).2 (.USER context.userId) = true := by
  rw [evaluate_snd]
  refine LossMonitor.active_of_drawnDown ?_
  obtain ⟨high, hget, hrest⟩ := h
  exact ⟨high, by rw [checkCircuitBreakers_hwm, hget], hrest⟩

theorem not_approved_of_active (h : KillSwitch.active s (.USER context.userId) = true) (now : ℤ)
    (action : AgentAction) : (evaluate cfg now s action context).1.approved = false := by
  have hkilled : checkKillSwitch s context = true := by
    simp [checkKillSwitch, KillSwitch.isActive, h]
  simp [evaluate, hkilled]

end RiskEngine

/-! ## Runs -/

/-- Every call but the administrator's reset of the scope leaves its switch on. -/
theorem active_after {cfg : SecurityConfig} {s : RiskStore} {scope : KillSwitchScope} {call : RiskCall}
    (h : KillSwitch.active s scope = true) (hkept : call ≠ .reset scope cfg.adminUserId) :
    KillSwitch.active (s.after cfg call) scope = true := by
  cases call with
  | evaluate now action context => exact RiskEngine.active_evaluate h now action
  | trigger scope' triggeredBy => exact KillSwitch.active_trigger h scope' triggeredBy
  | reset scope' resetBy =>
    refine KillSwitch.active_reset h ?_
    rintro ⟨rfl, rfl⟩
    exact hkept rfl

/-- **Drawdown stop.** After an evaluation for a user whose portfolio is drawn down, whatever calls follow
for any users and scopes, no evaluation for the user is approved until the administrator has reset the
switch of the user. -/
theorem stop_sticky {cfg : SecurityConfig} {s t : RiskStore} {now : ℤ} {action : AgentAction}
    {context : RiskContext} (hdrawn : DrawnDown cfg s context) {calls : List RiskCall}
    (hrun : (riskCalls cfg).run s (.evaluate now action context :: calls) = some t)
    (hkept : ∀ call ∈ calls, call ≠ .reset (.USER context.userId) cfg.adminUserId)
    (later : ℤ) (action' : AgentAction) (context' : RiskContext) (huser : context'.userId = context.userId) :
    (RiskEngine.evaluate cfg later t action' context').1.approved = false := by
  have hstart : (riskCalls cfg).run (RiskEngine.evaluate cfg now s action context).2 calls = some t := hrun
  have hguarded : (riskCalls cfg).GuardedRun
      (fun _ call => call ≠ .reset (.USER context.userId) cfg.adminUserId)
      (RiskEngine.evaluate cfg now s action context).2 calls t :=
    StepSystem.GuardedRun.of_forall hstart fun call hcall _ => hkept call hcall
  have hactive : KillSwitch.active t (.USER context.userId) = true := by
    refine hguarded.invariant (I := fun u => KillSwitch.active u (.USER context.userId) = true) ?_
      (RiskEngine.active_of_drawnDown hdrawn now action)
    intro u call u' hu hguard hstep
    obtain rfl : u.after cfg call = u' := Option.some.inj hstep
    exact active_after hu hguard
  exact RiskEngine.not_approved_of_active (by rw [huser]; exact hactive) later action'

/-! ## A user at half the watermark -/

def halvedContext (userId : String) : RiskContext := ⟨userId, "strategy-1", ⟨[], 50, 0⟩⟩

def halvedStore : RiskStore := { hwm := [("u1", 100)] }

/-- The resets of another scope, and of the user's by another user, change nothing. -/
def strangeResets : List RiskCall :=
  [.reset .GLOBAL "admin", .reset (.USER "u1") "u1", .trigger (.USER "u1") "operator",
    .reset (.STRATEGY "strategy-1") "admin", .evaluate 1 .NoAction (halvedContext "u2")]

theorem halved_user_stopped :
    ∃ t, (riskCalls {}).run halvedStore (.evaluate 0 .NoAction (halvedContext "u1") :: strangeResets) = some t ∧
      (RiskEngine.evaluate {} 2 t .CancelOrder (halvedContext "u1")).1.approved = false := by
  have hdrawn : DrawnDown {} halvedStore (halvedContext "u1") :=
    ⟨100, by decide, by decide +kernel, by decide +kernel, by decide +kernel⟩
  have hkept : ∀ call ∈ strangeResets, call ≠ .reset (.USER "u1") "admin" := by
    simp [strangeResets]
  exact ⟨_, rfl, stop_sticky hdrawn rfl hkept 2 .CancelOrder (halvedContext "u1") rfl⟩

end SuperAi.Risk
