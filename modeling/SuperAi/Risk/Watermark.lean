import SuperAi.Foundations.InTurn
import SuperAi.Foundations.StepSystem
import SuperAi.Risk.RiskEngine

/-! # The high watermark under concurrent updates

Calls of `LossMonitor.update` for any users, one Redis command after another, and the two commands of
`resetWatermark`. A call compares with the watermark that it has read, and writes its value later. The
watermark of every user goes up only, and ends as the maximum, if and only if no call writes a value below
the watermark that is stored by then (`watermark_iff`), as none does without overlapping calls
(`writesUpwards_of_inTurn`).
-/
namespace SuperAi.Risk
open SuperAi.Foundations
set_option autoImplicit false

/-! ## Calls -/

/-- What a call does next. -/
inductive LossPhase
  | reading
  | raising
  | clearing
  | persisting (drawdownPercent : ℚ)
  | stopping
  | done
  deriving DecidableEq, Repr

structure LossCall where
  userId : String
  currentValue : ℚ
  phase : LossPhase
  deriving DecidableEq, Repr

structure LossState where
  store : RiskStore := {}
  calls : List LossCall := []

inductive LossEvent
  | update (portfolio : PortfolioSnapshot) (userId : String)
  | advance (call : ℕ)
  | deleteHwm (userId : String)
  | deleteDrawdown (userId : String)
  deriving DecidableEq

namespace LossCall

def start (portfolio : PortfolioSnapshot) (userId : String) : LossCall :=
  ⟨userId, portfolio.totalNotional + portfolio.totalUnrealizedPnl, .reading⟩

/-- After the watermark has been read. -/
def compare (call : LossCall) : Option ℚ → LossPhase
  | none => .raising
  | some highWatermark =>
    if highWatermark < call.currentValue then .raising
    else .persisting (LossMonitor.drawdownPercent highWatermark call.currentValue)

/-- One command of a call. -/
def advance (cfg : SecurityConfig) (s : RiskStore) (call : LossCall) : Option (RiskStore × LossPhase) :=
  match call.phase with
  | .reading => some (s, call.compare (s.hwm.get call.userId))
  | .raising => some ({ s with hwm := s.hwm.set call.userId call.currentValue }, .clearing)
  | .clearing => some ({ s with drawdown := s.drawdown.set call.userId 0 }, .done)
  | .persisting percent =>
    some ({ s with drawdown := s.drawdown.set call.userId percent },
      if cfg.sessionDrawdownKillSwitchPercent ≤ percent then .stopping else .done)
  | .stopping => some (KillSwitch.trigger s (.USER call.userId) "loss-monitor", .done)
  | .done => none

/-- The call does not lower the watermark, if writing it is what it does next. -/
def NotOvertaken (s : RiskStore) (call : LossCall) : Prop :=
  call.phase = .raising → ∀ high ∈ s.hwm.get call.userId, high ≤ call.currentValue

instance (s : RiskStore) (call : LossCall) : Decidable (call.NotOvertaken s) :=
  inferInstanceAs (Decidable (_ → _))

end LossCall

def lossRuns (cfg : SecurityConfig) : StepSystem LossState LossEvent where
  step s
    | .update portfolio userId => some { s with calls := s.calls ++ [.start portfolio userId] }
    | .advance i =>
      (s.calls[i]?).bind fun call =>
        (call.advance cfg s.store).map fun (store, phase) => ⟨store, s.calls.set i { call with phase }⟩
    | .deleteHwm userId => some { s with store := { s.store with hwm := s.store.hwm.del userId } }
    | .deleteDrawdown userId => some { s with store := { s.store with drawdown := s.store.drawdown.del userId } }

/-- No call writes a watermark below the one that is stored. -/
def WritesUpwards (s : LossState) : LossEvent → Prop
  | .advance i => ∀ call ∈ s.calls[i]?, call.NotOvertaken s.store
  | _ => True

instance (s : LossState) : (e : LossEvent) → Decidable (WritesUpwards s e)
  | .advance i => inferInstanceAs (Decidable (∀ call ∈ s.calls[i]?, call.NotOvertaken s.store))
  | .update _ _ | .deleteHwm _ | .deleteDrawdown _ => isTrue trivial

/-! ## Watermarks -/

/-- What was there is still there, or something higher. -/
def NotLower (before after : Option ℚ) : Prop := ∀ high ∈ before, ∃ high' ∈ after, high ≤ high'

theorem NotLower.refl (high : Option ℚ) : NotLower high high := fun x hx => ⟨x, hx, le_refl x⟩

theorem NotLower.trans {a b c : Option ℚ} (h : NotLower a b) (h' : NotLower b c) : NotLower a c := by
  intro x hx
  obtain ⟨y, hy, hxy⟩ := h x hx
  obtain ⟨z, hz, hyz⟩ := h' y hy
  exact ⟨z, hz, le_trans hxy hyz⟩

/-- The higher of a value and of one that may have been there before. -/
def higher (high : Option ℚ) (value : ℚ) : ℚ :=
  match high with
  | none => value
  | some high => if high < value then value else high

def maximum (initial : Option ℚ) (values : List ℚ) : Option ℚ :=
  values.foldl (fun high value => some (higher high value)) initial

/-- One of the values, and not below any of them. -/
structure Peak (initial : Option ℚ) (values : List ℚ) (high : Option ℚ) : Prop where
  attained : ∀ x ∈ high, x ∈ initial ∨ x ∈ values
  above_initial : NotLower initial high
  above : ∀ x ∈ values, ∃ h ∈ high, x ≤ h

theorem le_higher (high : Option ℚ) (value : ℚ) : value ≤ higher high value ∧ ∀ x ∈ high, x ≤ higher high value := by
  unfold higher
  cases high with
  | none => simp
  | some high =>
    by_cases hlt : high < value
    · simp [hlt, le_of_lt hlt]
    · simp [hlt, not_lt.mp hlt]

theorem higher_eq (high : Option ℚ) (value : ℚ) : higher high value = value ∨ higher high value ∈ high := by
  unfold higher
  cases high with
  | none => exact .inl rfl
  | some high =>
    by_cases hlt : high < value
    · simp [hlt]
    · simp [hlt]

theorem peak_maximum (initial : Option ℚ) (values : List ℚ) : Peak initial values (maximum initial values) := by
  induction values generalizing initial with
  | nil => exact ⟨fun x hx => .inl hx, NotLower.refl _, by simp⟩
  | cons value values ih =>
    obtain ⟨hattained, hinitial, habove⟩ := ih (some (higher initial value))
    obtain ⟨hvalue, hle⟩ := le_higher initial value
    obtain ⟨high, hhigh, hhigher⟩ := hinitial _ rfl
    refine ⟨fun x hx => ?_, fun x hx => ⟨high, hhigh, le_trans (hle x hx) hhigher⟩, fun x hx => ?_⟩
    · rcases hattained x hx with hfirst | hmem
      · obtain rfl := Option.some.inj hfirst
        rcases higher_eq initial value with heq | hmem
        · exact .inr (List.mem_cons.mpr (.inl heq))
        · exact .inl hmem
      · exact .inr (List.mem_cons_of_mem _ hmem)
    · rcases List.mem_cons.mp hx with rfl | hmem
      · exact ⟨high, hhigh, le_trans hvalue hhigher⟩
      · exact habove x hmem

theorem Peak.eq_maximum {initial high : Option ℚ} {values : List ℚ} (h : Peak initial values high) :
    high = maximum initial values := by
  have hle : ∀ {a b : Option ℚ}, Peak initial values a → Peak initial values b → NotLower a b := by
    intro a b ha hb x hx
    rcases ha.attained x hx with hinitial | hmem
    · exact hb.above_initial x hinitial
    · exact hb.above x hmem
  have hforth := hle h (peak_maximum initial values)
  have hback := hle (peak_maximum initial values) h
  cases hhigh : high with
  | none =>
    cases hmax : maximum initial values with
    | none => rfl
    | some m =>
      obtain ⟨x, hx, -⟩ := hback m hmax
      rw [hhigh] at hx
      cases hx
  | some x =>
    obtain ⟨m, hm, hxm⟩ := hforth x hhigh
    obtain ⟨y, hy, hmy⟩ := hback m hm
    obtain rfl : x = y := Option.some.inj (hhigh.symm.trans hy)
    rw [Option.mem_def.mp hm, le_antisymm hxm hmy]

/-! ## One command -/

section
variable {cfg : SecurityConfig} {s t : LossState} {userId : String}

def LossState.hwm (s : LossState) (userId : String) : Option ℚ := s.store.hwm.get userId

/-- The values of a user's calls. -/
def LossState.passed (s : LossState) (userId : String) : List ℚ :=
  (s.calls.filter fun call => call.userId == userId).map LossCall.currentValue

def LossState.AllDone (s : LossState) (userId : String) : Prop :=
  ∀ call ∈ s.calls, call.userId = userId → call.phase = .done

/-- What a command of a call does to the watermarks. -/
theorem LossCall.advance_hwm {store store' : RiskStore} {call : LossCall} {phase : LossPhase}
    (h : call.advance cfg store = some (store', phase)) :
    (call.phase = .raising ∧ phase = .clearing ∧ store'.hwm = store.hwm.set call.userId call.currentValue) ∨
      (call.phase = .reading ∧ phase = call.compare (store.hwm.get call.userId) ∧ store'.hwm = store.hwm) ∨
      (call.phase ≠ .raising ∧ call.phase ≠ .reading ∧ phase ≠ .raising ∧ phase ≠ .reading ∧
        store'.hwm = store.hwm) := by
  unfold LossCall.advance at h
  cases hphase : call.phase with
  | reading =>
    simp only [hphase] at h
    obtain ⟨rfl, rfl⟩ := Prod.mk.inj (Option.some.inj h)
    exact .inr (.inl ⟨rfl, rfl, rfl⟩)
  | raising =>
    simp only [hphase] at h
    obtain ⟨rfl, rfl⟩ := Prod.mk.inj (Option.some.inj h)
    exact .inl ⟨rfl, rfl, rfl⟩
  | clearing =>
    simp only [hphase] at h
    obtain ⟨rfl, rfl⟩ := Prod.mk.inj (Option.some.inj h)
    simp
  | persisting percent =>
    simp only [hphase] at h
    obtain ⟨rfl, rfl⟩ := Prod.mk.inj (Option.some.inj h)
    by_cases hstop : cfg.sessionDrawdownKillSwitchPercent ≤ percent
    · simp [hstop]
    · simp [hstop]
  | stopping =>
    simp only [hphase] at h
    obtain ⟨rfl, rfl⟩ := Prod.mk.inj (Option.some.inj h)
    simp [KillSwitch.trigger]
  | done => simp [hphase] at h

theorem step_advance {i : ℕ} (h : (lossRuns cfg).step s (.advance i) = some t) :
    ∃ call store phase, s.calls[i]? = some call ∧ call.advance cfg s.store = some (store, phase) ∧
      t = ⟨store, s.calls.set i { call with phase }⟩ := by
  obtain ⟨call, hcall, hbind⟩ := Option.bind_eq_some_iff.mp h
  obtain ⟨⟨store, phase⟩, hadvance, rfl⟩ := Option.map_eq_some_iff.mp hbind
  exact ⟨call, store, phase, hcall, hadvance, rfl⟩

/-- A command that writes upwards lowers no watermark, unless it deletes it. -/
theorem step_notLower (e : LossEvent) (hguard : WritesUpwards s e)
    (hstep : (lossRuns cfg).step s e = some t) (hkept : e ≠ .deleteHwm userId) :
    NotLower (s.hwm userId) (t.hwm userId) := by
  cases e with
  | update portfolio user =>
    obtain rfl := Option.some.inj hstep
    exact NotLower.refl _
  | advance i =>
    obtain ⟨call, store, phase, hcall, hadvance, rfl⟩ := step_advance hstep
    have hupwards := hguard call hcall
    unfold LossState.hwm
    obtain ⟨hraising, -, hset⟩ | ⟨-, -, hsame⟩ | ⟨-, -, -, -, hsame⟩ := LossCall.advance_hwm hadvance
    · rw [hset]
      by_cases huser : userId = call.userId
      · subst huser
        rw [KeyValue.get_set_self]
        exact fun high hhigh => ⟨_, rfl, hupwards hraising high hhigh⟩
      · rw [KeyValue.get_set_of_ne huser]
        exact NotLower.refl _
    · rw [hsame]
      exact NotLower.refl _
    · rw [hsame]
      exact NotLower.refl _
  | deleteHwm user =>
    obtain rfl := Option.some.inj hstep
    have hne : userId ≠ user := fun heq => hkept (heq ▸ rfl)
    unfold LossState.hwm
    rw [KeyValue.get_del_of_ne hne]
    exact NotLower.refl _
  | deleteDrawdown user =>
    obtain rfl := Option.some.inj hstep
    exact NotLower.refl _

/-- A command that writes downwards lowers the watermark of its user. -/
theorem step_lower (e : LossEvent) (hguard : ¬ WritesUpwards s e) (hstep : (lossRuns cfg).step s e = some t) :
    ∃ user, (∀ u, e ≠ .deleteHwm u) ∧ ¬ NotLower (s.hwm user) (t.hwm user) := by
  cases e with
  | advance i =>
    obtain ⟨call, store, phase, hcall, hadvance, rfl⟩ := step_advance hstep
    have hover : ¬ call.NotOvertaken s.store := by
      intro hnot
      refine hguard fun found hfound => ?_
      obtain rfl := Option.some.inj (hcall.symm.trans hfound)
      exact hnot
    unfold LossCall.NotOvertaken at hover
    push Not at hover
    obtain ⟨hraising, high, hhigh, hlt⟩ := hover
    refine ⟨call.userId, by simp, fun hnot => ?_⟩
    obtain ⟨-, -, hset⟩ | ⟨hreading, -⟩ | ⟨hnot', -⟩ := LossCall.advance_hwm hadvance
    · obtain ⟨after, hafter, hle⟩ := hnot high hhigh
      unfold LossState.hwm at hafter
      rw [hset, KeyValue.get_set_self] at hafter
      obtain rfl := Option.some.inj hafter
      exact absurd hle (not_le.mpr hlt)
    · rw [hraising] at hreading
      cases hreading
    · exact hnot' hraising
  | update portfolio user => exact absurd trivial hguard
  | deleteHwm user => exact absurd trivial hguard
  | deleteDrawdown user => exact absurd trivial hguard

/-! ## Runs -/

theorem notLower_run {es : List LossEvent} (h : (lossRuns cfg).GuardedRun WritesUpwards s es t)
    (hkept : LossEvent.deleteHwm userId ∉ es) : NotLower (s.hwm userId) (t.hwm userId) := by
  induction h with
  | nil s => exact NotLower.refl _
  | @cons s u t e es guard step rest ih =>
    have hfirst : e ≠ .deleteHwm userId := fun heq => hkept (heq ▸ List.mem_cons_self)
    exact (step_notLower e guard step hfirst).trans (ih fun hmem => hkept (List.mem_cons_of_mem e hmem))

/-- The watermark of a user is one of the values, and not below those of the calls that have compared
and do not write. -/
structure Tracks (initial : Option ℚ) (userId : String) (s : LossState) : Prop where
  attained : ∀ high ∈ s.hwm userId, high ∈ initial ∨ high ∈ s.passed userId
  above_initial : NotLower initial (s.hwm userId)
  above : ∀ call ∈ s.calls, call.userId = userId → call.phase ≠ .reading → call.phase ≠ .raising →
    ∃ high ∈ s.hwm userId, call.currentValue ≤ high

theorem LossState.mem_passed {value : ℚ} : value ∈ s.passed userId ↔
    ∃ call ∈ s.calls, call.userId = userId ∧ call.currentValue = value := by
  unfold LossState.passed
  simp only [List.mem_map, List.mem_filter, beq_iff_eq, and_assoc]

theorem Tracks.peak {initial : Option ℚ} (h : Tracks initial userId s) (hdone : s.AllDone userId) :
    Peak initial (s.passed userId) (s.hwm userId) := by
  refine ⟨h.attained, h.above_initial, fun x hx => ?_⟩
  obtain ⟨call, hcall, huser, rfl⟩ := LossState.mem_passed.mp hx
  have hphase := hdone call hcall huser
  exact h.above call hcall huser (by simp [hphase]) (by simp [hphase])

theorem LossState.mem_passed_set {store : RiskStore} {i : ℕ} {call : LossCall} {phase : LossPhase} {value : ℚ}
    (hcall : s.calls[i]? = some call) (h : value ∈ s.passed userId) :
    value ∈ LossState.passed ⟨store, s.calls.set i { call with phase }⟩ userId := by
  obtain ⟨found, hfound, huser, hvalue⟩ := mem_passed.mp h
  rcases eq_or_mem_set hcall hfound { call with phase } with rfl | hmem
  · exact mem_passed.mpr ⟨_, List.mem_set (List.getElem?_eq_some_iff.mp hcall).1 _, huser, hvalue⟩
  · exact mem_passed.mpr ⟨found, hmem, huser, hvalue⟩

theorem LossCall.le_of_compare {call : LossCall} {high : Option ℚ} (h : call.compare high ≠ .raising) :
    ∃ x ∈ high, call.currentValue ≤ x := by
  unfold compare at h
  cases high with
  | none => exact absurd rfl h
  | some high =>
    by_cases hlt : high < call.currentValue
    · simp [hlt] at h
    · exact ⟨high, rfl, not_lt.mp hlt⟩

theorem Tracks.step {initial : Option ℚ} (h : Tracks initial userId s) (e : LossEvent)
    (hguard : WritesUpwards s e) (hstep : (lossRuns cfg).step s e = some t) (hkept : e ≠ .deleteHwm userId) :
    Tracks initial userId t := by
  have hmono := step_notLower e hguard hstep hkept
  have hinitial := h.above_initial.trans hmono
  -- Whatever has compared before stays below the watermark.
  have hbelow : ∀ call ∈ s.calls, call.userId = userId → call.phase ≠ .reading → call.phase ≠ .raising →
      ∃ high ∈ t.hwm userId, call.currentValue ≤ high := by
    intro call hcall huser hreading hraising
    obtain ⟨high, hhigh, hle⟩ := h.above call hcall huser hreading hraising
    obtain ⟨high', hhigh', hle'⟩ := hmono high hhigh
    exact ⟨high', hhigh', le_trans hle hle'⟩
  cases e with
  | update portfolio user =>
    obtain rfl := Option.some.inj hstep
    refine ⟨fun high hhigh => (h.attained high hhigh).imp_right fun hmem => ?_, hinitial, fun call hcall => ?_⟩
    · obtain ⟨found, hfound, hrest⟩ := LossState.mem_passed.mp hmem
      exact LossState.mem_passed.mpr ⟨found, List.mem_append_left _ hfound, hrest⟩
    · rcases List.mem_append.mp hcall with hold | hnew
      · exact hbelow call hold
      · obtain rfl := List.mem_singleton.mp hnew
        exact fun _ hreading => absurd rfl hreading
  | advance i =>
    obtain ⟨call, store, phase, hcall, hadvance, rfl⟩ := step_advance hstep
    have hmem := List.mem_of_getElem? hcall
    have hkeeps : ∀ high ∈ s.hwm userId, high ∈ initial ∨
        high ∈ LossState.passed ⟨store, s.calls.set i { call with phase }⟩ userId := fun high hhigh =>
      (h.attained high hhigh).imp_right (LossState.mem_passed_set hcall)
    obtain ⟨-, -, hset⟩ | ⟨hreading, hphase, hsame⟩ | ⟨hraising, hreading, -, -, hsame⟩ :=
      LossCall.advance_hwm hadvance
    · have hhwm : ∀ high ∈ LossState.hwm ⟨store, s.calls.set i { call with phase }⟩ userId,
          (userId = call.userId ∧ high = call.currentValue) ∨ high ∈ s.hwm userId := by
        intro high hhigh
        unfold LossState.hwm at hhigh
        rw [hset] at hhigh
        by_cases huser : userId = call.userId
        · subst huser
          rw [KeyValue.get_set_self] at hhigh
          exact .inl ⟨rfl, (Option.some.inj hhigh).symm⟩
        · rw [KeyValue.get_set_of_ne huser] at hhigh
          exact .inr hhigh
      refine ⟨fun high hhigh => ?_, hinitial, forall_mem_set hbelow (fun huser _ _ => ?_) i⟩
      · rcases hhwm high hhigh with ⟨rfl, rfl⟩ | hold
        · exact .inr (LossState.mem_passed_set hcall (LossState.mem_passed.mpr ⟨call, hmem, rfl, rfl⟩))
        · exact hkeeps high hold
      · dsimp only at huser
        unfold LossState.hwm
        rw [hset, huser, KeyValue.get_set_self]
        exact ⟨_, rfl, le_refl _⟩
    · have hhwm : LossState.hwm ⟨store, s.calls.set i { call with phase }⟩ userId = s.hwm userId := by
        unfold LossState.hwm
        rw [hsame]
      refine ⟨hhwm ▸ hkeeps, hinitial, forall_mem_set hbelow (fun huser _ hcompared => ?_) i⟩
      rw [hhwm]
      dsimp only at huser hcompared
      rw [hphase, huser] at hcompared
      exact LossCall.le_of_compare hcompared
    · have hhwm : LossState.hwm ⟨store, s.calls.set i { call with phase }⟩ userId = s.hwm userId := by
        unfold LossState.hwm
        rw [hsame]
      refine ⟨hhwm ▸ hkeeps, hinitial, forall_mem_set hbelow (fun huser _ _ => ?_) i⟩
      exact hbelow call hmem huser hreading hraising
  | deleteHwm user =>
    have hne : userId ≠ user := fun heq => hkept (heq ▸ rfl)
    obtain rfl := Option.some.inj hstep
    refine ⟨fun high hhigh => h.attained high ?_, hinitial, hbelow⟩
    unfold LossState.hwm at hhigh
    rwa [KeyValue.get_del_of_ne hne] at hhigh
  | deleteDrawdown user =>
    obtain rfl := Option.some.inj hstep
    exact ⟨h.attained, hinitial, hbelow⟩

theorem Tracks.run {initial : Option ℚ} {es : List LossEvent} (h : Tracks initial userId s)
    (hrun : (lossRuns cfg).GuardedRun WritesUpwards s es t) (hkept : LossEvent.deleteHwm userId ∉ es) :
    Tracks initial userId t := by
  induction hrun with
  | nil s => exact h
  | @cons s u t e es guard step rest ih =>
    have hfirst : e ≠ .deleteHwm userId := fun heq => hkept (heq ▸ List.mem_cons_self)
    exact ih (h.step e guard step hfirst) fun hmem => hkept (List.mem_cons_of_mem e hmem)

/-- **High watermarks.** From a store on which no calls run, the watermark of every user never goes down
between resets and is the maximum of the first one and all values whenever all calls of the user are done, if
and only if no call writes a value below the watermark that is stored by then. -/
theorem watermark_iff {store : RiskStore} {es : List LossEvent} (h : (lossRuns cfg).run ⟨store, []⟩ es = some t) :
    (lossRuns cfg).GuardedRun WritesUpwards ⟨store, []⟩ es t ↔
      (∀ userId before between later u v, es = before ++ between ++ later →
        (lossRuns cfg).run ⟨store, []⟩ before = some u → (lossRuns cfg).run u between = some v →
        LossEvent.deleteHwm userId ∉ between → NotLower (u.hwm userId) (v.hwm userId)) ∧
      ∀ userId before later u, es = before ++ later → (lossRuns cfg).run ⟨store, []⟩ before = some u →
        LossEvent.deleteHwm userId ∉ before → u.AllDone userId →
        u.hwm userId = maximum (store.hwm.get userId) (u.passed userId) := by
  constructor
  · intro hrun
    constructor
    · intro userId before between later u v hsplit hu hv hkept
      rw [hsplit, List.append_assoc] at hrun
      obtain ⟨u', hfirst, hrest⟩ := StepSystem.GuardedRun.split hrun
      obtain rfl := Option.some.inj (hu.symm.trans hfirst.run)
      obtain ⟨v', hsecond, -⟩ := StepSystem.GuardedRun.split hrest
      obtain rfl := Option.some.inj (hv.symm.trans hsecond.run)
      exact notLower_run hsecond hkept
    · intro userId before later u hsplit hu hkept hdone
      rw [hsplit] at hrun
      obtain ⟨u', hfirst, -⟩ := StepSystem.GuardedRun.split hrun
      obtain rfl := Option.some.inj (hu.symm.trans hfirst.run)
      have hstart : Tracks (store.hwm.get userId) userId ⟨store, []⟩ :=
        ⟨fun high hhigh => .inl hhigh, NotLower.refl _, by simp⟩
      exact ((hstart.run hfirst hkept).peak hdone).eq_maximum
  · rintro ⟨hmono, -⟩
    refine (StepSystem.GuardedRun.iff_forall_steps h).mpr fun before e later u hsplit hu => ?_
    by_contra hguard
    have hsplit' : es = before ++ [e] ++ later := by rw [hsplit, List.append_assoc, List.singleton_append]
    have hnext : ((lossRuns cfg).step u e).isSome = true := by
      have hrun := h
      rw [hsplit, StepSystem.run_append, hu, Option.bind_some] at hrun
      obtain ⟨v, hv, -⟩ := Option.bind_eq_some_iff.mp hrun
      exact Option.isSome_iff_exists.mpr ⟨v, hv⟩
    obtain ⟨v, hv⟩ := Option.isSome_iff_exists.mp hnext
    obtain ⟨user, hkept, hlower⟩ := step_lower e hguard hv
    refine hlower (hmono user before [e] later u v hsplit' hu ?_ ?_)
    · rw [StepSystem.run_cons _ hv, StepSystem.run_nil]
    · simpa using fun heq => hkept user heq.symm

/-! ## Calls that do not overlap -/

def LossCall.running (call : LossCall) : Bool := decide (call.phase ≠ .done)

/-- A call starts only when every call is done. -/
def UpdatesInTurn (s : LossState) : LossEvent → Prop
  | .update _ _ => ∀ call ∈ s.calls, call.running = false
  | _ => True

structure UpToDate (s : LossState) : Prop where
  last : LastOnly LossCall.running s.calls
  upwards : ∀ call ∈ s.calls, call.NotOvertaken s.store

theorem LossCall.running_of_advance {store : RiskStore} {call : LossCall} {next : RiskStore × LossPhase}
    (h : call.advance cfg store = some next) : call.running = true := by
  refine decide_eq_true fun hdone => ?_
  simp [advance, hdone] at h

/-- The call writes what is above the watermark that it has just read. -/
theorem LossCall.le_of_raising {call : LossCall} {high : Option ℚ} (h : call.compare high = .raising) :
    ∀ x ∈ high, x ≤ call.currentValue := by
  rintro x hx
  obtain rfl := Option.mem_def.mp hx
  by_contra hbelow
  have hlt : ¬ x < call.currentValue := fun hlt => hbelow (le_of_lt hlt)
  simp [compare, hlt] at h

theorem LossCall.notOvertaken_of_idle {store : RiskStore} {call : LossCall} (h : call.running = false) :
    call.NotOvertaken store := by
  intro hraising
  simp [running, hraising] at h

theorem UpToDate.step (h : UpToDate s) (e : LossEvent) (hturn : UpdatesInTurn s e)
    (hstep : (lossRuns cfg).step s e = some t) : UpToDate t := by
  cases e with
  | update portfolio user =>
    obtain rfl := Option.some.inj hstep
    refine ⟨.snoc hturn _, fun call hcall => ?_⟩
    rcases List.mem_append.mp hcall with hold | hnew
    · exact h.upwards call hold
    · obtain rfl := List.mem_singleton.mp hnew
      intro hraising
      cases hraising
  | advance i =>
    obtain ⟨call, store, phase, hcall, hadvance, rfl⟩ := step_advance hstep
    have hrunning := LossCall.running_of_advance hadvance
    refine ⟨h.last.set hcall hrunning _, h.last.forall_mem_set hcall hrunning
      (fun _ hidle => LossCall.notOvertaken_of_idle hidle) fun hraising => ?_⟩
    dsimp only at hraising ⊢
    obtain ⟨-, hphase, -⟩ | ⟨-, hphase, hsame⟩ | ⟨-, -, hphase, -⟩ := LossCall.advance_hwm hadvance
    · rw [hphase] at hraising
      cases hraising
    · rw [hphase] at hraising
      rw [hsame]
      exact LossCall.le_of_raising hraising
    · exact absurd hraising hphase
  | deleteHwm user =>
    obtain rfl := Option.some.inj hstep
    refine ⟨h.last, fun call hcall hraising high hhigh => h.upwards call hcall hraising high ?_⟩
    by_cases hsame : call.userId = user
    · dsimp only at hhigh
      rw [hsame, KeyValue.get_del_self] at hhigh
      cases hhigh
    · rwa [KeyValue.get_del_of_ne hsame] at hhigh
  | deleteDrawdown user =>
    obtain rfl := Option.some.inj hstep
    exact ⟨h.last, h.upwards⟩

theorem UpToDate.writesUpwards (h : UpToDate s) (e : LossEvent) : WritesUpwards s e := by
  cases e with
  | advance i => exact fun call hcall => h.upwards call (List.mem_of_getElem? hcall)
  | _ => trivial

/-- **One update after another.** Without overlapping calls no call writes below the stored watermark. -/
theorem writesUpwards_of_inTurn {start : LossState} (hstart : start.calls = []) {es : List LossEvent}
    (h : (lossRuns cfg).GuardedRun UpdatesInTurn start es t) : (lossRuns cfg).GuardedRun WritesUpwards start es t := by
  have hfirst : UpToDate start := ⟨hstart ▸ LastOnly.nil, by simp [hstart]⟩
  exact h.mono_of_invariant (fun s e u hs hturn hstep => ⟨hs.step e hturn hstep, hs.writesUpwards e⟩) hfirst

/-! ## A call on its own -/

theorem step_advance_last (store : RiskStore) (calls : List LossCall) (call : LossCall) :
    (lossRuns cfg).step ⟨store, calls ++ [call]⟩ (.advance calls.length) =
      (call.advance cfg store).map fun (store, phase) => ⟨store, calls ++ [{ call with phase }]⟩ := by
  have hcall : (calls ++ [call])[calls.length]? = some call := by simp
  have hset : ∀ phase : LossPhase, (calls ++ [call]).set calls.length { call with phase } =
      calls ++ [{ call with phase }] := by
    intro phase
    rw [List.set_append_right _ _ (le_refl _), Nat.sub_self, List.set_cons_zero]
  change ((calls ++ [call])[calls.length]?).bind _ = _
  rw [hcall, Option.bind_some]
  simp only [hset]

/-- Without other calls between its commands, a call is `LossMonitor.update`. -/
theorem run_alone (s : LossState) (portfolio : PortfolioSnapshot) (userId : String) :
    ∃ steps, (lossRuns cfg).run s (.update portfolio userId :: List.replicate steps (.advance s.calls.length)) =
      some ⟨LossMonitor.update cfg s.store portfolio userId,
        s.calls ++ [{ LossCall.start portfolio userId with phase := .done }]⟩ := by
  have hstart : (lossRuns cfg).step s (.update portfolio userId) =
      some ⟨s.store, s.calls ++ [.start portfolio userId]⟩ := rfl
  cases hget : s.store.hwm.get userId with
  | none =>
    refine ⟨3, ?_⟩
    rw [StepSystem.run_cons _ hstart]
    simp [List.replicate, StepSystem.run, step_advance_last, LossCall.advance, LossCall.start, LossCall.compare,
      LossMonitor.update, hget]
  | some high =>
    by_cases hraises : high < portfolio.totalNotional + portfolio.totalUnrealizedPnl
    · refine ⟨3, ?_⟩
      rw [StepSystem.run_cons _ hstart]
      simp [List.replicate, StepSystem.run, step_advance_last, LossCall.advance, LossCall.start,
        LossCall.compare, LossMonitor.update, hget, hraises]
    · by_cases hstop : cfg.sessionDrawdownKillSwitchPercent ≤
          LossMonitor.drawdownPercent high (portfolio.totalNotional + portfolio.totalUnrealizedPnl)
      · refine ⟨3, ?_⟩
        rw [StepSystem.run_cons _ hstart]
        simp [List.replicate, StepSystem.run, step_advance_last, LossCall.advance, LossCall.start,
          LossCall.compare, LossMonitor.update, hget, hraises, hstop]
      · refine ⟨2, ?_⟩
        rw [StepSystem.run_cons _ hstart]
        simp [List.replicate, StepSystem.run, step_advance_last, LossCall.advance, LossCall.start,
          LossCall.compare, LossMonitor.update, hget, hraises, hstop]

end

/-! ## Two updates, one after another and overlapping -/

def worth (value : ℚ) : PortfolioSnapshot := ⟨[], value, 0⟩

/-- The second update reads after the first one has written. -/
def oneAfterAnother : List LossEvent :=
  [.update (worth 100) "u1", .update (worth 50) "u1", .advance 0, .advance 0, .advance 0, .advance 1, .advance 1]

/-- Both read before either has written, and the lower value is written last. -/
def overlapping : List LossEvent :=
  [.update (worth 100) "u1", .update (worth 50) "u1", .advance 0, .advance 1, .advance 0]

theorem oneAfterAnother_peak : ∃ t : LossState,
    (lossRuns { sessionDrawdownKillSwitchPercent := 60 }).run ⟨{}, []⟩ oneAfterAnother = some t ∧
      t.hwm "u1" = maximum none (t.passed "u1") := by
  have hsome : ((lossRuns { sessionDrawdownKillSwitchPercent := 60 }).guardedRun WritesUpwards ⟨{}, []⟩
      oneAfterAnother).any (fun t => t.calls.all fun call => call.phase == .done) = true := by decide +kernel
  obtain ⟨t, ht, hdone⟩ := (Option.any_eq_true _ _).mp hsome
  have hrun := StepSystem.GuardedRun.of_guardedRun ht
  have hall : t.AllDone "u1" := fun call hcall _ => by simpa using List.all_eq_true.mp hdone call hcall
  exact ⟨t, hrun.run, ((watermark_iff hrun.run).mp hrun).2 "u1" _ [] t (List.append_nil _).symm hrun.run
    (by decide) hall⟩

theorem overlapping_lowers : ∃ (cfg : SecurityConfig) (before between : List LossEvent) (u v : LossState),
    (lossRuns cfg).run ⟨{}, []⟩ before = some u ∧ (lossRuns cfg).run u between = some v ∧
      LossEvent.deleteHwm "u1" ∉ between ∧ ¬ NotLower (u.hwm "u1") (v.hwm "u1") := by
  have hsome : ((lossRuns {}).run ⟨{}, []⟩ overlapping).any (fun u => decide (u.hwm "u1" = some 100) &&
      ((lossRuns {}).run u [.advance 1]).any fun v => decide (v.hwm "u1" = some 50)) = true := by decide +kernel
  obtain ⟨u, hu, hboth⟩ := (Option.any_eq_true _ _).mp hsome
  obtain ⟨hbefore, hany⟩ := Bool.and_eq_true_iff.mp hboth
  obtain ⟨v, hv, hafter⟩ := (Option.any_eq_true _ _).mp hany
  refine ⟨{}, overlapping, [.advance 1], u, v, hu, hv, by decide, fun hnot => ?_⟩
  obtain ⟨high, hhigh, hle⟩ := hnot 100 (of_decide_eq_true hbefore)
  obtain rfl := Option.some.inj ((of_decide_eq_true hafter).symm.trans hhigh)
  exact absurd hle (by decide)

end SuperAi.Risk
