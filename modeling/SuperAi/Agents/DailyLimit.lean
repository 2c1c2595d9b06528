import SuperAi.Agents.DailyUsage
import SuperAi.Foundations.SingleUse

/-! # The daily limit of autonomous swaps

The limit is checked when a tick begins, on a row read before, and not at all for an approval; the
swap is counted after it was made. The limit holds in the runs in which each swap starts with room
left in the row and with no other swap still to be counted, and in which no swap goes uncounted.
-/
namespace SuperAi.Agents
open SuperAi.Foundations
set_option autoImplicit false

/-! ## The property and its condition -/

/-- Since `dailyResetAt` was last set, no more swaps have succeeded than the limit allows. -/
def WithinDailyLimit (s : Usage) : Prop := ∀ n, s.sinceReset = some n → n ≤ s.cfg.dailyLimit

namespace UsagePhase

/-- The swap has been made. -/
def made : UsagePhase → Bool
  | .settle _ => true
  | .bump => true
  | .count _ _ => true
  | _ => false

/-- From the start of a swap to the update that counts it. -/
def uncounted : UsagePhase → Bool
  | .swap _ => true
  | phase => phase.made

end UsagePhase

def HasRoom (s : Usage) (now : ℤ) : Prop :=
  0 < s.cfg.remaining now ∧ ∀ phase ∈ s.calls, phase.uncounted = false

/-- A swap starts only with room left for it, and no call is lost after its swap. -/
def Accounted (s : Usage) : ℤ × UsageEvent → Prop
  | (now, .decided _ .trade) => HasRoom s now
  | (now, .executeApproved request) => s.requests[request]? = some false → HasRoom s now
  | (_, .fails i) => ∀ phase ∈ s.calls[i]?, phase.made = false
  | _ => True

/-! ## What the count stands for -/

/-- All swaps are counted: the first of them by the reset itself. -/
def Counted (s : Usage) : Prop :=
  ∀ n, s.sinceReset = some n → n + 1 ≤ s.cfg.dailyUsedCount ∧ s.cfg.dailyUsedCount ≤ s.cfg.dailyLimit

/-- There is room for one more swap, now and at any later time. -/
def RoomForOne (s : Usage) : Prop :=
  1 ≤ s.cfg.dailyLimit ∧ (s.cfg.resetExpired s.clock = true ∨ s.cfg.dailyUsedCount < s.cfg.dailyLimit)

/-- What holds while the one call is at the phase. -/
def Covered (s : Usage) : UsagePhase → Prop
  | .swap _ => RoomForOne s ∧ Counted s
  | .settle _ | .bump => RoomForOne s ∧
      ∀ n, s.sinceReset = some n → n ≤ s.cfg.dailyUsedCount ∧ s.cfg.dailyUsedCount ≤ s.cfg.dailyLimit
  | .count false _ => s.cfg.dailyUsedCount < s.cfg.dailyLimit ∧
      ∀ n, s.sinceReset = some n → n ≤ s.cfg.dailyUsedCount
  | .count true _ => 1 ≤ s.cfg.dailyLimit ∧ WithinDailyLimit s
  | _ => True

structure Accounts (s : Usage) : Prop where
  one : OneBusy UsagePhase.uncounted s.calls
  counted : (∀ phase ∈ s.calls, phase.uncounted = false) → Counted s
  covered : ∀ phase ∈ s.calls, Covered s phase

variable {s s' t : Usage} {i : ℕ} {phase : UsagePhase}

theorem covered_of_counted (h : phase.uncounted = false) : Covered s phase := by
  cases phase with
  | check cfg => trivial
  | decide => trivial
  | ended => trivial
  | _ => cases h

theorem Covered.withinLimit (h : Covered s phase) (hphase : phase.uncounted = true) : WithinDailyLimit s := by
  intro n hn
  cases phase with
  | swap request =>
    have hcounted := h.2 n hn
    omega
  | settle request =>
    have hmade := h.2 n hn
    omega
  | bump =>
    have hmade := h.2 n hn
    omega
  | count resetExpired now =>
    cases resetExpired with
    | false =>
      have hroom := h.1
      have hmade := h.2 n hn
      omega
    | true => exact h.2 n hn
  | _ => cases hphase

theorem resetExpired_mono {cfg : LearningConfig} {now later : ℤ} (hle : now ≤ later)
    (h : cfg.resetExpired now = true) : cfg.resetExpired later = true := by
  unfold LearningConfig.resetExpired at h ⊢
  cases hreset : cfg.dailyResetAt with
  | none => rfl
  | some resetAt =>
    rw [hreset] at h
    have hlt := of_decide_eq_true h
    apply decide_eq_true
    omega

theorem RoomForOne.later (h : RoomForOne s) {now : ℤ} (hle : s.clock ≤ now) :
    RoomForOne { s with clock := now } :=
  ⟨h.1, h.2.imp_left (resetExpired_mono hle)⟩

theorem Covered.later (h : Covered s phase) {now : ℤ} (hle : s.clock ≤ now) :
    Covered { s with clock := now } phase := by
  cases phase with
  | swap request => exact ⟨h.1.later hle, h.2⟩
  | settle request => exact ⟨h.1.later hle, h.2⟩
  | bump => exact ⟨h.1.later hle, h.2⟩
  | count resetExpired readAt => cases resetExpired <;> exact h
  | _ => trivial

theorem HasRoom.roomForOne {now : ℤ} (h : HasRoom s now) : RoomForOne { s with clock := now } := by
  have hroom : 0 < s.cfg.remaining now := h.1
  unfold LearningConfig.remaining LearningConfig.used at hroom
  by_cases hexpired : s.cfg.resetExpired now = true
  · rw [if_pos hexpired] at hroom
    have hlimit : 1 ≤ s.cfg.dailyLimit := by omega
    exact ⟨hlimit, .inl hexpired⟩
  · rw [if_neg hexpired] at hroom
    have hlimit : s.cfg.dailyUsedCount < s.cfg.dailyLimit := by omega
    exact ⟨Nat.one_le_of_lt hlimit, .inr hlimit⟩

namespace Accounts

theorem withinLimit (h : Accounts s) : WithinDailyLimit s := by
  by_cases hidle : ∀ phase ∈ s.calls, phase.uncounted = false
  · intro n hn
    have hcounted := h.counted hidle n hn
    omega
  · push Not at hidle
    obtain ⟨phase, hmem, hbusy⟩ := hidle
    exact (h.covered phase hmem).withinLimit (Bool.of_not_eq_false hbusy)

theorem later (h : Accounts s) {now : ℤ} (hle : s.clock ≤ now) : Accounts { s with clock := now } where
  one := h.one
  counted := h.counted
  covered phase hmem := (h.covered phase hmem).later hle

/-- A call that does not swap starts. -/
theorem start (h : Accounts s) (hphase : phase.uncounted = false) : Accounts (s.start phase) where
  one := by
    apply h.one.append
    rw [hphase]
    exact nofun
  counted hidle := h.counted fun p hp => hidle p (List.mem_append_left _ hp)
  covered p hp := by
    rcases List.mem_append.mp hp with hold | hnew
    · exact h.covered p hold
    · rw [List.mem_singleton.mp hnew]
      exact covered_of_counted hphase

/-- A call that does not swap goes on without a swap. -/
theorem move (h : Accounts s) (hcall : s.calls[i]? = some phase) (hphase : phase.uncounted = false)
    {phase' : UsagePhase} (hphase' : phase'.uncounted = false) : Accounts (s.setPhase i phase') where
  one := by
    apply h.one.set hcall
    rw [hphase']
    exact nofun
  counted hidle := by
    apply h.counted
    intro p hp
    obtain ⟨j, hj⟩ := List.mem_iff_getElem?.mp hp
    by_cases hne : j = i
    · subst hne
      rw [Option.some.inj (hj.symm.trans hcall)]
      exact hphase
    · refine hidle p (List.mem_of_getElem? (i := j) ?_)
      change (s.calls.set i phase')[j]? = some p
      rw [List.getElem?_set_ne (Ne.symm hne)]
      exact hj
  covered := forall_mem_set h.covered (covered_of_counted hphase') i

/-- The one call that swaps goes on. -/
theorem advance (h : Accounts s) (phase' : UsagePhase) (hcall : s.calls[i]? = some phase)
    (hphase : phase.uncounted = true) (hcalls : s'.calls = s.calls.set i phase')
    (hcovered : Covered s' phase') (hcounted : phase'.uncounted = false → Counted s') : Accounts s' where
  one := by
    rw [hcalls]
    exact h.one.set hcall fun _ => .inl hphase
  counted hidle := by
    apply hcounted
    apply hidle
    rw [hcalls]
    exact List.mem_set (List.getElem?_eq_some_iff.mp hcall).1 phase'
  covered p hp := by
    rw [hcalls] at hp
    rcases h.one.mem_set hcall hphase hp with rfl | hother
    · exact hcovered
    · exact covered_of_counted hother

/-- A swap starts, in a new call or in one that has decided for it. -/
theorem swap (h : Accounts s) (request : Option ℕ) (hroom : RoomForOne s)
    (hidle : ∀ phase ∈ s.calls, phase.uncounted = false) (hcfg : s'.cfg = s.cfg)
    (hclock : s'.clock = s.clock) (hsince : s'.sinceReset = s.sinceReset)
    (hone : OneBusy UsagePhase.uncounted s'.calls)
    (hcalls : ∀ p ∈ s'.calls, p ∈ s.calls ∨ p = .swap request) (hswap : .swap request ∈ s'.calls) :
    Accounts s' where
  one := hone
  counted hidle' := by
    have hcontra := hidle' _ hswap
    cases hcontra
  covered p hp := by
    rcases hcalls p hp with hold | rfl
    · exact covered_of_counted (hidle p hold)
    · unfold Covered RoomForOne Counted
      rw [hcfg, hclock, hsince]
      exact ⟨hroom, h.counted hidle⟩

theorem swapped (h : Accounts s) {request : Option ℕ} (ok : Bool)
    (hcall : s.calls[i]? = some (.swap request)) : Accounts (s.swapped i request ok) := by
  obtain ⟨hroom, hcounted⟩ := h.covered _ (List.mem_of_getElem? hcall)
  cases ok with
  | false => exact h.advance .ended hcall rfl rfl trivial fun _ => hcounted
  | true =>
    have hmade : ∀ n, s.sinceReset.map (· + 1) = some n →
        n ≤ s.cfg.dailyUsedCount ∧ s.cfg.dailyUsedCount ≤ s.cfg.dailyLimit := by
      intro n hn
      obtain ⟨m, hm, rfl⟩ := Option.map_eq_some_iff.mp hn
      exact hcounted m hm
    cases request with
    | none => exact h.advance .bump hcall rfl rfl ⟨hroom, hmade⟩ nofun
    | some request => exact h.advance (.settle request) hcall rfl rfl ⟨hroom, hmade⟩ nofun

theorem readUsage (h : Accounts s) (hcall : s.calls[i]? = some .bump) :
    Accounts (s.setPhase i (.count (s.cfg.resetExpired s.clock) s.clock)) := by
  obtain ⟨⟨hlimit, hroom⟩, hmade⟩ := h.covered _ (List.mem_of_getElem? hcall)
  refine h.advance (.count (s.cfg.resetExpired s.clock) s.clock) hcall rfl rfl ?_ nofun
  cases hexpired : s.cfg.resetExpired s.clock with
  | true =>
    refine ⟨hlimit, fun n hn => ?_⟩
    obtain ⟨hle, hused⟩ := hmade n hn
    exact Nat.le_trans hle hused
  | false =>
    rw [hexpired] at hroom
    exact ⟨hroom.resolve_left Bool.false_ne_true, fun n hn => (hmade n hn).1⟩

theorem count (h : Accounts s) {resetExpired : Bool} {readAt : ℤ}
    (hcall : s.calls[i]? = some (.count resetExpired readAt)) : Accounts (s.counted i resetExpired readAt) := by
  have hcovered := h.covered _ (List.mem_of_getElem? hcall)
  refine h.advance .ended hcall rfl rfl trivial fun _ n hn => ?_
  cases resetExpired with
  | true =>
    obtain rfl : 0 = n := Option.some.inj hn
    exact ⟨Nat.le_refl 1, hcovered.1⟩
  | false =>
    have hroom := hcovered.1
    have hmade := hcovered.2 n hn
    exact ⟨Nat.succ_le_succ hmade, hroom⟩

end Accounts

/-! ## Steps and runs -/

theorem Accounts.decided (h : Accounts s) {decision : Decision} (hcall : s.calls[i]? = some .decide)
    (hroom : decision = .trade → RoomForOne s ∧ ∀ phase ∈ s.calls, phase.uncounted = false) :
    Accounts (s.decided i decision) := by
  cases decision with
  | stop => exact h.move hcall rfl rfl
  | ask =>
    have hmoved : Accounts (s.setPhase i .ended) := h.move hcall rfl rfl
    exact ⟨hmoved.one, hmoved.counted, hmoved.covered⟩
  | trade =>
    obtain ⟨hone, hidle⟩ := hroom rfl
    refine h.swap none hone hidle rfl rfl rfl ?_ ?_ ?_
    · exact h.one.set hcall fun _ => .inr hidle
    · exact fun p hp => List.mem_or_eq_of_mem_set hp
    · exact List.mem_set (List.getElem?_eq_some_iff.mp hcall).1 _

theorem Accounts.executeApproved (h : Accounts s) {request : ℕ} (hroom : RoomForOne s)
    (hidle : ∀ phase ∈ s.calls, phase.uncounted = false) : Accounts (s.start (.swap (some request))) := by
  refine h.swap (some request) hroom hidle rfl rfl rfl ?_ ?_ ?_
  · exact h.one.append fun _ => hidle
  · intro p hp
    exact (List.mem_append.mp hp).imp_right List.mem_singleton.mp
  · exact List.mem_append_right _ List.mem_cons_self

theorem Accounts.stepAt {now : ℤ} {e : UsageEvent} (h : Accounts s) (hclock : s.clock = now)
    (hguard : Accounted s (now, e)) (hstep : s.stepAt now e = some s') : Accounts s' := by
  subst hclock
  cases e with
  | tick =>
    obtain rfl := Option.some.inj hstep
    exact h.start rfl
  | checked i =>
    obtain ⟨phase, hcall, hphase⟩ := Option.bind_eq_some_iff.mp hstep
    cases phase with
    | check cfg =>
      obtain rfl := Option.some.inj hphase
      refine h.move hcall rfl ?_
      split <;> rfl
    | _ => cases hphase
  | decided i decision =>
    obtain ⟨phase, hcall, hphase⟩ := Option.bind_eq_some_iff.mp hstep
    obtain ⟨rfl, hdecided⟩ := Option.ite_none_right_eq_some.mp hphase
    obtain rfl := Option.some.inj hdecided
    refine h.decided hcall ?_
    rintro rfl
    exact ⟨HasRoom.roomForOne hguard, hguard.2⟩
  | executeApproved request =>
    obtain ⟨executed, hrequest, hstart⟩ := Option.bind_eq_some_iff.mp hstep
    obtain rfl := Option.some.inj hstart
    cases executed with
    | true => exact h.start rfl
    | false =>
      have hroom := hguard hrequest
      exact h.executeApproved hroom.roomForOne hroom.2
  | swapped i ok =>
    obtain ⟨phase, hcall, hphase⟩ := Option.bind_eq_some_iff.mp hstep
    cases phase with
    | swap request =>
      obtain rfl := Option.some.inj hphase
      exact h.swapped ok hcall
    | _ => cases hphase
  | settled i =>
    obtain ⟨phase, hcall, hphase⟩ := Option.bind_eq_some_iff.mp hstep
    cases phase with
    | settle request =>
      obtain rfl := Option.some.inj hphase
      exact h.advance .bump hcall rfl rfl (h.covered _ (List.mem_of_getElem? hcall)) nofun
    | _ => cases hphase
  | readUsage i =>
    obtain ⟨phase, hcall, hphase⟩ := Option.bind_eq_some_iff.mp hstep
    obtain ⟨rfl, hread⟩ := Option.ite_none_right_eq_some.mp hphase
    obtain rfl := Option.some.inj hread
    exact h.readUsage hcall
  | counted i =>
    obtain ⟨phase, hcall, hphase⟩ := Option.bind_eq_some_iff.mp hstep
    cases phase with
    | count resetExpired readAt =>
      obtain rfl := Option.some.inj hphase
      exact h.count hcall
    | _ => cases hphase
  | fails i =>
    obtain ⟨phase, hcall, hphase⟩ := Option.bind_eq_some_iff.mp hstep
    obtain ⟨-, hended⟩ := Option.ite_none_left_eq_some.mp hphase
    obtain rfl := Option.some.inj hended
    have hmade : phase.made = false := hguard phase hcall
    cases hbusy : phase.uncounted with
    | false => exact h.move hcall hbusy rfl
    | true =>
      cases phase with
      | swap request => exact h.swapped false hcall
      | settle request => cases hmade
      | bump => cases hmade
      | count resetExpired readAt => cases hmade
      | _ => cases hbusy

theorem Accounts.step {e : ℤ × UsageEvent} (h : Accounts s) (hguard : Accounted s e)
    (hstep : dailyUsage.step s e = some s') : Accounts s' := by
  obtain ⟨hle, hat⟩ := Option.ite_none_right_eq_some.mp hstep
  exact (h.later hle).stepAt rfl hguard hat

/-- **Daily limit.** In a run in which every swap is accounted for, the swaps since the last reset are
at most `dailyLimit`, whatever the configuration and the requests were before. -/
theorem withinDailyLimit {cfg : LearningConfig} {clock : ℤ} {requests : List Bool}
    {steps : List (ℤ × UsageEvent)} (hrun : dailyUsage.GuardedRun Accounted { cfg, clock, requests } steps t) :
    WithinDailyLimit t := by
  have hinitial : Accounts { cfg, clock, requests } :=
    { one := OneBusy.of_idle nofun
      counted := fun _ _ hn => nomatch hn
      covered := nofun }
  have haccounts := hrun.invariant (fun _ _ _ h hguard hstep => h.step hguard hstep) hinitial
  exact haccounts.withinLimit

/-! ## Two runs -/

instance (s : Usage) (now : ℤ) : Decidable (HasRoom s now) :=
  inferInstanceAs (Decidable (_ ∧ ∀ phase ∈ s.calls, phase.uncounted = false))

instance (s : Usage) : (e : ℤ × UsageEvent) → Decidable (Accounted s e)
  | (now, .decided _ .trade) => inferInstanceAs (Decidable (HasRoom s now))
  | (now, .executeApproved request) =>
    inferInstanceAs (Decidable (s.requests[request]? = some false → HasRoom s now))
  | (_, .fails i) => inferInstanceAs (Decidable (∀ phase ∈ s.calls[i]?, phase.made = false))
  | (_, .decided _ .stop) | (_, .decided _ .ask) | (_, .tick) | (_, .checked _) | (_, .swapped _ _)
  | (_, .settled _) | (_, .readUsage _) | (_, .counted _) => inferInstanceAs (Decidable True)

/-- A tick that trades, from its reading of the row at `now` to the count of its swap. -/
def tradingTick (i : ℕ) (now : ℤ) : List (ℤ × UsageEvent) :=
  [(now, .tick), (now, .checked i), (now + 1, .decided i .trade), (now + 2, .swapped i true),
    (now + 3, .readUsage i), (now + 3, .counted i)]

/-- A tick that leaves an approval request. -/
def askingTick (i : ℕ) (now : ℤ) : List (ℤ × UsageEvent) :=
  [(now, .tick), (now, .checked i), (now + 1, .decided i .ask)]

/-- An accepted request, from the reading of its intent to the count of its swap. -/
def approvedTrade (i request : ℕ) (now : ℤ) : List (ℤ × UsageEvent) :=
  [(now, .executeApproved request), (now + 1, .swapped i true), (now + 2, .settled i),
    (now + 3, .readUsage i), (now + 3, .counted i)]

def sampleUsage : Usage := { cfg := { dailyLimit := 2 }, clock := 0 }

/-- Two swaps on the first day, and one on the next. -/
def twoDays : List (ℤ × UsageEvent) :=
  tradingTick 0 0 ++ askingTick 1 300000 ++ approvedTrade 2 0 360000 ++ tradingTick 3 90000000

theorem twoDays_withinDailyLimit : ∃ t, dailyUsage.run sampleUsage twoDays = some t ∧ WithinDailyLimit t := by
  have hsome : (dailyUsage.guardedRun Accounted sampleUsage twoDays).isSome = true := by decide +kernel
  obtain ⟨t, ht⟩ := Option.isSome_iff_exists.mp hsome
  have hrun := StepSystem.GuardedRun.of_guardedRun ht
  exact ⟨t, hrun.run, withinDailyLimit hrun⟩

/-- Four requests wait when the user accepts them, one after the other. -/
def fourApprovals : List (ℤ × UsageEvent) :=
  askingTick 0 0 ++ askingTick 1 60000 ++ askingTick 2 120000 ++ askingTick 3 180000 ++
    approvedTrade 4 0 200000 ++ approvedTrade 5 1 210000 ++ approvedTrade 6 2 220000 ++
      approvedTrade 7 3 230000

theorem approvals_exceed_limit : ¬ ∀ (cfg : LearningConfig) (clock : ℤ) (requests : List Bool)
    (steps : List (ℤ × UsageEvent)) (t : Usage),
    dailyUsage.run { cfg, clock, requests } steps = some t → WithinDailyLimit t := by
  intro h
  obtain ⟨t, ht, hthree⟩ : ∃ t, dailyUsage.run sampleUsage fourApprovals = some t ∧ t.sinceReset = some 3 ∧
      t.cfg.dailyLimit = 2 := ⟨_, rfl, rfl, rfl⟩
  have hle := h _ _ _ fourApprovals t ht 3 hthree.1
  rw [hthree.2] at hle
  omega

end SuperAi.Agents
