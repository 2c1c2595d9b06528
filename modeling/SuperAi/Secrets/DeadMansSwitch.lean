import SuperAi.Foundations.ExpiringStore
import SuperAi.Foundations.StepSystem
import SuperAi.Risk.RiskStore
import Mathlib.Data.PNat.Basic

/-! # The dead man's switch

`DeadMansSwitch` (`secrets/dead.mans.switch.ts`) looks every half timeout for a heartbeat key that lasts twice the
timeout. Before the first heartbeat there is no key, so the first check triggers; after one, silence is noticed at
twice the timeout (`triggered_iff`). So the switch does what its timeout says exactly as long as every check finds a
heartbeat younger than that, that is, as long as it has nothing to do (`trigger_exact_iff`). The clock and Redis are
ideal: checks come at their times and reads do not fail. Log lines and alerts are left out.
-/
namespace SuperAi.Secrets
open SuperAi.Foundations SuperAi.Risk
set_option autoImplicit false

structure DeadMansSwitchConfig where
  deadManSwitchHeartbeatTimeoutSeconds : ℕ+ := 120

def REDIS_HEARTBEAT_KEY : String := "deadman:heartbeat"

def TRIGGERED_BY : String := "DeadMansSwitch"

/-- A check, the last heartbeat before it, and whether it triggered the kill switch. -/
structure HeartbeatCheck where
  now : ℤ
  lastHeartbeatAt : Option ℤ
  triggered : Bool
  deriving DecidableEq, Repr

/-- Times are in milliseconds; `intervalHandle` is the time of the next check. -/
structure SwitchState where
  redis : ExpiringStore String ℤ := []
  risk : RiskStore := {}
  lastHeartbeatAt : Option ℤ := none
  startedAt : ℤ
  intervalHandle : Option ℤ
  clock : ℤ
  checks : List HeartbeatCheck := []

inductive SwitchEvent
  | heartbeat (now : ℤ)
  | check
  deriving DecidableEq, Repr

namespace DeadMansSwitch
variable (cfg : DeadMansSwitchConfig)

def timeoutMs : ℤ := 1000 * (cfg.deadManSwitchHeartbeatTimeoutSeconds : ℕ)

def checkIntervalMs : ℤ := 500 * (cfg.deadManSwitchHeartbeatTimeoutSeconds : ℕ)

def ttlSeconds : ℤ := (cfg.deadManSwitchHeartbeatTimeoutSeconds : ℕ) * 2

def start (risk : RiskStore) (now : ℤ) : SwitchState where
  risk := risk
  startedAt := now
  intervalHandle := some (now + checkIntervalMs cfg)
  clock := now

def recordHeartbeat (s : SwitchState) (now : ℤ) : SwitchState :=
  { s with
    redis := s.redis.setex now (1000 * ttlSeconds cfg) REDIS_HEARTBEAT_KEY now
    lastHeartbeatAt := some now
    clock := now }

/-- The switch stops itself. -/
def triggerSwitch (s : SwitchState) : SwitchState :=
  { s with risk := KillSwitch.trigger s.risk .GLOBAL TRIGGERED_BY, intervalHandle := none }

def checkHeartbeat (s : SwitchState) (now : ℤ) : SwitchState :=
  match s.redis.read now REDIS_HEARTBEAT_KEY with
  | none =>
    { triggerSwitch s with clock := now, checks := s.checks ++ [⟨now, s.lastHeartbeatAt, true⟩] }
  | some _ =>
    { s with
      clock := now
      intervalHandle := some (now + checkIntervalMs cfg)
      checks := s.checks ++ [⟨now, s.lastHeartbeatAt, false⟩] }

/-- Time does not run back, and no check is missed. -/
def step (s : SwitchState) : SwitchEvent → Option SwitchState
  | .heartbeat now =>
    if s.clock ≤ now ∧ ∀ due ∈ s.intervalHandle, now ≤ due then some (recordHeartbeat cfg s now) else none
  | .check => s.intervalHandle.map (checkHeartbeat cfg s)

def system : StepSystem SwitchState SwitchEvent := ⟨step cfg⟩

/-! ## What checks do -/

/-- The check triggered exactly if it came the timeout or more after the last heartbeat, or the start. -/
def OnTime (startedAt : ℤ) (check : HeartbeatCheck) : Prop :=
  check.triggered = true ↔ timeoutMs cfg ≤ check.now - check.lastHeartbeatAt.getD startedAt

def AllOnTime (s : SwitchState) : Prop := ∀ check ∈ s.checks, OnTime cfg s.startedAt check

/-- A check finds a heartbeat younger than the timeout. -/
def FindsFresh (s : SwitchState) : SwitchEvent → Prop
  | .check => ∀ due ∈ s.intervalHandle, ∃ heartbeat ∈ s.lastHeartbeatAt, due < heartbeat + timeoutMs cfg
  | .heartbeat _ => True

instance (s : SwitchState) : (e : SwitchEvent) → Decidable (FindsFresh cfg s e)
  | .heartbeat _ => isTrue trivial
  | .check => inferInstanceAs (Decidable (∀ due ∈ s.intervalHandle, ∃ heartbeat ∈ s.lastHeartbeatAt, _))

/-- The key is that of the last heartbeat. -/
def Stored (s : SwitchState) : Prop :=
  KeyValue.get s.redis REDIS_HEARTBEAT_KEY =
    s.lastHeartbeatAt.map fun heartbeat => ⟨heartbeat, heartbeat + 1000 * ttlSeconds cfg⟩

section
variable {cfg : DeadMansSwitchConfig} {s s' : SwitchState} {now : ℤ}

theorem ttl_eq (cfg : DeadMansSwitchConfig) : 1000 * ttlSeconds cfg = 2 * timeoutMs cfg := by
  unfold ttlSeconds timeoutMs
  omega

theorem interval_lt_timeout (cfg : DeadMansSwitchConfig) :
    0 < checkIntervalMs cfg ∧ checkIntervalMs cfg < timeoutMs cfg := by
  have hpos := cfg.deadManSwitchHeartbeatTimeoutSeconds.pos
  unfold checkIntervalMs timeoutMs
  omega

theorem checkHeartbeat_of_none (h : s.redis.read now REDIS_HEARTBEAT_KEY = none) : checkHeartbeat cfg s now =
    { triggerSwitch s with clock := now, checks := s.checks ++ [⟨now, s.lastHeartbeatAt, true⟩] } := by
  rw [checkHeartbeat, h]

theorem checkHeartbeat_of_some {heartbeat : ℤ} (h : s.redis.read now REDIS_HEARTBEAT_KEY = some heartbeat) :
    checkHeartbeat cfg s now =
      { s with
        clock := now
        intervalHandle := some (now + checkIntervalMs cfg)
        checks := s.checks ++ [⟨now, s.lastHeartbeatAt, false⟩] } := by
  rw [checkHeartbeat, h]

/-- What a check reads: nothing without a heartbeat, or one that is twice the timeout old. -/
theorem read_of_stored (h : Stored cfg s) (now : ℤ) : s.redis.read now REDIS_HEARTBEAT_KEY =
    s.lastHeartbeatAt.filter fun heartbeat => decide (now < heartbeat + 1000 * ttlSeconds cfg) := by
  unfold Stored at h
  unfold ExpiringStore.read
  rw [h]
  cases s.lastHeartbeatAt with
  | none => rfl
  | some heartbeat => simp [Option.filter]

theorem stored_step {e : SwitchEvent} (h : Stored cfg s) (hstep : (system cfg).step s e = some s') : Stored cfg s' := by
  cases e with
  | heartbeat now =>
    obtain ⟨-, hstate⟩ := Option.ite_none_right_eq_some.mp hstep
    obtain rfl := Option.some.inj hstate
    exact KeyValue.get_set_self _ _ _
  | check =>
    obtain ⟨due, -, rfl⟩ := Option.map_eq_some_iff.mp hstep
    cases hread : s.redis.read due REDIS_HEARTBEAT_KEY with
    | none =>
      rw [checkHeartbeat_of_none hread]
      exact h
    | some heartbeat =>
      rw [checkHeartbeat_of_some hread]
      exact h

/-! ## When the switch triggers -/

/-- **What triggers.** A check triggers exactly if there was no heartbeat yet, or the last one is twice the timeout
old. -/
theorem triggered_iff {risk : RiskStore} {startedAt : ℤ} {events : List SwitchEvent} {t : SwitchState}
    (h : (system cfg).run (start cfg risk startedAt) events = some t) : ∀ check ∈ t.checks, check.triggered = true ↔
      ∀ heartbeat ∈ check.lastHeartbeatAt, heartbeat + 2 * timeoutMs cfg ≤ check.now := by
  have hinvariant : Stored cfg t ∧ ∀ check ∈ t.checks, check.triggered = true ↔
      ∀ heartbeat ∈ check.lastHeartbeatAt, heartbeat + 2 * timeoutMs cfg ≤ check.now := by
    refine (StepSystem.GuardedRun.of_run h).invariant (I := fun s => Stored cfg s ∧ ∀ check ∈ s.checks,
      check.triggered = true ↔ ∀ heartbeat ∈ check.lastHeartbeatAt, heartbeat + 2 * timeoutMs cfg ≤ check.now)
      ?_ ⟨rfl, by simp [start]⟩
    rintro s e s' ⟨hstored, hchecks⟩ - hstep
    refine ⟨stored_step hstored hstep, ?_⟩
    cases e with
    | heartbeat now =>
      obtain ⟨-, hstate⟩ := Option.ite_none_right_eq_some.mp hstep
      obtain rfl := Option.some.inj hstate
      exact hchecks
    | check =>
      obtain ⟨due, -, rfl⟩ := Option.map_eq_some_iff.mp hstep
      have hreads := read_of_stored hstored due
      rw [ttl_eq] at hreads
      intro check hcheck
      cases hread : s.redis.read due REDIS_HEARTBEAT_KEY with
      | none =>
        rw [checkHeartbeat_of_none hread] at hcheck
        rw [hread] at hreads
        obtain hold | hnew := List.mem_append.mp hcheck
        · exact hchecks check hold
        · obtain rfl := List.mem_singleton.mp hnew
          refine iff_of_true rfl fun heartbeat hheartbeat => ?_
          have hlast : s.lastHeartbeatAt = some heartbeat := hheartbeat
          rw [hlast] at hreads
          simpa [Option.filter] using hreads
      | some found =>
        rw [checkHeartbeat_of_some hread] at hcheck
        rw [hread] at hreads
        obtain hold | hnew := List.mem_append.mp hcheck
        · exact hchecks check hold
        · obtain rfl := List.mem_singleton.mp hnew
          obtain ⟨hlast, hyoung⟩ := Option.filter_eq_some_iff.mp hreads.symm
          refine iff_of_false Bool.false_ne_true fun hall => ?_
          have hold : found + 2 * timeoutMs cfg ≤ due := hall found hlast
          rw [decide_eq_true_eq] at hyoung
          omega
  exact hinvariant.2

/-- The global kill switch is active exactly if one of the checks has triggered. -/
theorem killed_iff {risk : RiskStore} (hrisk : KillSwitch.active risk .GLOBAL = false) {startedAt : ℤ}
    {events : List SwitchEvent} {t : SwitchState}
    (h : (system cfg).run (start cfg risk startedAt) events = some t) :
    KillSwitch.active t.risk .GLOBAL = t.checks.any HeartbeatCheck.triggered := by
  refine (StepSystem.GuardedRun.of_run h).invariant
    (I := fun s => KillSwitch.active s.risk .GLOBAL = s.checks.any HeartbeatCheck.triggered) ?_ hrisk
  intro s e s' hs _ hstep
  cases e with
  | heartbeat now =>
    obtain ⟨-, hstate⟩ := Option.ite_none_right_eq_some.mp hstep
    obtain rfl := Option.some.inj hstate
    exact hs
  | check =>
    obtain ⟨due, -, rfl⟩ := Option.map_eq_some_iff.mp hstep
    cases hread : s.redis.read due REDIS_HEARTBEAT_KEY with
    | none =>
      rw [checkHeartbeat_of_none hread]
      simp [triggerSwitch, KillSwitch.trigger, KillSwitch.active]
    | some found =>
      rw [checkHeartbeat_of_some hread]
      simp [hs]

/-! ## Checks that are on time -/

/-- While every check finds a fresh heartbeat, the switch runs, and the last heartbeat is younger than one and a half
timeouts at the next check. -/
structure Alive (cfg : DeadMansSwitchConfig) (s : SwitchState) : Prop where
  stored : Stored cfg s
  running : ∃ due, s.intervalHandle = some due ∧ due ≤ s.clock + checkIntervalMs cfg
  first : s.lastHeartbeatAt = none → s.intervalHandle = some (s.startedAt + checkIntervalMs cfg)
  recent : ∀ heartbeat ∈ s.lastHeartbeatAt, ∀ due ∈ s.intervalHandle,
    due < heartbeat + timeoutMs cfg + checkIntervalMs cfg
  onTime : AllOnTime cfg s

theorem alive_start (cfg : DeadMansSwitchConfig) (risk : RiskStore) (now : ℤ) : Alive cfg (start cfg risk now) where
  stored := rfl
  running := ⟨_, rfl, le_refl _⟩
  first _ := rfl
  recent heartbeat hheartbeat := by cases hheartbeat
  onTime check hcheck := by cases hcheck

theorem alive_step {e : SwitchEvent} (h : Alive cfg s) (hguard : FindsFresh cfg s e)
    (hstep : (system cfg).step s e = some s') : Alive cfg s' := by
  have hinterval := interval_lt_timeout cfg
  have hstored := stored_step h.stored hstep
  obtain ⟨due, hdue, hclock⟩ := h.running
  cases e with
  | heartbeat now =>
    obtain ⟨⟨hnow, -⟩, hstate⟩ := Option.ite_none_right_eq_some.mp hstep
    obtain rfl := Option.some.inj hstate
    refine ⟨hstored, ⟨due, hdue, ?_⟩, fun hnone => absurd hnone (by simp [recordHeartbeat]), ?_, h.onTime⟩
    · change due ≤ now + checkIntervalMs cfg
      omega
    · intro heartbeat hheartbeat due' hdue'
      obtain rfl := Option.some.inj hheartbeat
      obtain rfl := Option.some.inj (hdue.symm.trans hdue')
      omega
  | check =>
    obtain ⟨due', hdue', rfl⟩ := Option.map_eq_some_iff.mp hstep
    obtain rfl := Option.some.inj (hdue.symm.trans hdue')
    obtain ⟨heartbeat, hlast, hfresh⟩ := hguard due hdue
    have hread : s.redis.read due REDIS_HEARTBEAT_KEY = some heartbeat := by
      rw [read_of_stored h.stored, Option.mem_def.mp hlast, ttl_eq]
      simp only [Option.filter]
      rw [if_pos]
      rw [decide_eq_true_eq]
      omega
    rw [checkHeartbeat_of_some hread] at hstored ⊢
    refine ⟨hstored, ⟨_, rfl, le_refl _⟩, fun hnone => ?_, ?_, ?_⟩
    · cases hlast.symm.trans hnone
    · intro other hother due' hdue''
      obtain rfl := Option.some.inj (hlast.symm.trans hother)
      obtain rfl := Option.some.inj hdue''
      omega
    · intro check hcheck
      obtain hold | hnew := List.mem_append.mp hcheck
      · exact h.onTime check hold
      · obtain rfl := List.mem_singleton.mp hnew
        refine iff_of_false Bool.false_ne_true fun hsilent => ?_
        dsimp only at hsilent
        rw [Option.mem_def.mp hlast, Option.getD_some] at hsilent
        omega

/-- A check without a fresh heartbeat is too early or too late. -/
theorem not_allOnTime_step {e : SwitchEvent} (h : Alive cfg s) (hguard : ¬ FindsFresh cfg s e)
    (hstep : (system cfg).step s e = some s') : ¬ AllOnTime cfg s' := by
  have hinterval := interval_lt_timeout cfg
  cases e with
  | heartbeat now => exact absurd trivial hguard
  | check =>
    obtain ⟨due, hdue, rfl⟩ := Option.map_eq_some_iff.mp hstep
    intro honTime
    have hreads := read_of_stored h.stored due
    cases hlast : s.lastHeartbeatAt with
    | none =>
      rw [hlast] at hreads
      rw [checkHeartbeat_of_none hreads] at honTime
      have hearly := (honTime _ (List.mem_append_right _ (List.mem_singleton.mpr rfl))).mp rfl
      have hfirst := Option.some.inj ((h.first hlast).symm.trans hdue)
      dsimp only [triggerSwitch] at hearly
      rw [hlast, Option.getD_none] at hearly
      omega
    | some heartbeat =>
      have hsilent : heartbeat + timeoutMs cfg ≤ due := by
        by_contra hfresh
        refine hguard fun due' hdue' => ⟨heartbeat, hlast, ?_⟩
        obtain rfl := Option.some.inj (hdue.symm.trans hdue')
        omega
      have hrecent := h.recent heartbeat hlast due hdue
      have hread : s.redis.read due REDIS_HEARTBEAT_KEY = some heartbeat := by
        rw [hreads, hlast, ttl_eq]
        simp only [Option.filter]
        rw [if_pos]
        rw [decide_eq_true_eq]
        omega
      rw [checkHeartbeat_of_some hread] at honTime
      have hlate := (honTime _ (List.mem_append_right _ (List.mem_singleton.mpr rfl))).mpr
      dsimp only at hlate
      rw [hlast, Option.getD_some] at hlate
      cases hlate (by omega)

/-- **Timing of the switch.** From a start without a heartbeat key, every check is on time in every state of a run
if and only if every check finds a heartbeat younger than the timeout. -/
theorem trigger_exact_iff (cfg : DeadMansSwitchConfig) (risk : RiskStore) (startedAt : ℤ) {events : List SwitchEvent}
    {t : SwitchState} (h : (system cfg).run (start cfg risk startedAt) events = some t) :
    (system cfg).GuardedRun (FindsFresh cfg) (start cfg risk startedAt) events t ↔
      ∀ before after u, events = before ++ after → (system cfg).run (start cfg risk startedAt) before = some u →
        AllOnTime cfg u :=
  StepSystem.GuardedRun.iff_forall_reached (Alive cfg) (AllOnTime cfg) (fun _ _ _ => alive_step)
    (fun _ hs => hs.onTime) (fun _ _ _ => not_allOnTime_step) h (alive_start cfg risk startedAt)

end

/-! ## A heartbeat in time, none at all, and one that stops -/

theorem heartbeats_on_time : ∃ t,
    (system {}).run (start {} {} 0) [.heartbeat 0, .check, .heartbeat 90000, .check] = some t ∧ AllOnTime {} t := by
  obtain ⟨t, ht⟩ := Option.isSome_iff_exists.mp (show ((system {}).guardedRun (FindsFresh {}) (start {} {} 0)
    [.heartbeat 0, .check, .heartbeat 90000, .check]).isSome = true by decide +kernel)
  have hrun := (StepSystem.GuardedRun.of_guardedRun ht).run
  exact ⟨t, hrun, (trigger_exact_iff {} {} 0 hrun).mp (.of_guardedRun ht) _ [] t (List.append_nil _).symm hrun⟩

/-- A minute after the start, of a timeout of two minutes, the switch is triggered. -/
theorem first_check_triggers : ∃ (cfg : DeadMansSwitchConfig) (risk : RiskStore) (startedAt : ℤ)
    (events : List SwitchEvent) (t : SwitchState),
    (system cfg).run (start cfg risk startedAt) events = some t ∧ ¬ AllOnTime cfg t := by
  obtain ⟨t, hrun, hchecks⟩ := Option.map_eq_some_iff.mp (show ((system {}).run (start {} {} 0) [.check]).map
    (fun s => (s.startedAt, s.checks)) = some (0, [⟨60000, none, true⟩]) by decide +kernel)
  refine ⟨{}, {}, 0, _, t, hrun, fun honTime => ?_⟩
  obtain ⟨hstart, hlog⟩ := Prod.mk.inj hchecks
  have hcheck := honTime ⟨60000, none, true⟩ (by rw [hlog]; exact List.mem_singleton.mpr rfl)
  rw [hstart] at hcheck
  exact absurd (hcheck.mp rfl) (by decide)

/-- Two minutes after the last heartbeat the switch is not triggered. -/
theorem silence_unnoticed : ∃ (cfg : DeadMansSwitchConfig) (risk : RiskStore) (startedAt : ℤ)
    (events : List SwitchEvent) (t : SwitchState),
    (system cfg).run (start cfg risk startedAt) events = some t ∧ ¬ AllOnTime cfg t := by
  obtain ⟨t, hrun, hchecks⟩ := Option.map_eq_some_iff.mp (show ((system {}).run (start {} {} 0)
    [.heartbeat 0, .check, .check]).map (fun s => (s.startedAt, s.checks)) =
      some (0, [⟨60000, some 0, false⟩, ⟨120000, some 0, false⟩]) by decide +kernel)
  refine ⟨{}, {}, 0, _, t, hrun, fun honTime => ?_⟩
  obtain ⟨hstart, hlog⟩ := Prod.mk.inj hchecks
  have hcheck := honTime ⟨120000, some 0, false⟩ (by rw [hlog]; exact List.mem_cons_of_mem _ (List.mem_singleton.mpr rfl))
  rw [hstart] at hcheck
  exact absurd (hcheck.mpr (by decide)) Bool.false_ne_true

end DeadMansSwitch
end SuperAi.Secrets
