import SuperAi.Guardrails.GuardrailsService
import SuperAi.Foundations.StepSystem
import SuperAi.Foundations.KeyValue
import SuperAi.Foundations.SingleUse
import Mathlib.Algebra.Order.BigOperators.Group.List
import Mathlib.Tactic.Linarith

/-! # The daily cap

`ExecutionService.swap` asks the guardrails first and records its trade at the end, with the execution
in between. The check adds up what is recorded, so that it does not see the swaps that have been let
through and not yet recorded. Where a user has none of these at a check, the day's sum with the one that
is on its way stays within `dailyUsd`.
-/
namespace SuperAi.Guardrails
open SuperAi.Foundations SuperAi.Execution
set_option autoImplicit false

/-! ## Swaps under way -/

/-- A swap that the guardrails have let through, and when. -/
structure Held where
  userId : String
  notionalUsd : ℚ
  checkedAt : ℤ
  deriving DecidableEq, Repr

/-- The step that a swap is to take next: its check by the guardrails, its screening by the user's mode and the
guard of live trades, its execution, the insertion of its trade. -/
inductive SwapPhase
  | check (intent : TradeIntent)
  | screen (held : Held)
  | execute (held : Held) (mode : TradeMode)
  | record (held : Held) (mode : TradeMode)
  | ended
  deriving DecidableEq, Repr

structure SpendState where
  clock : ℤ
  configs : KeyValue String GuardrailConfig := []
  trades : List TradeRecord := []
  calls : List SwapPhase := []
  deriving DecidableEq, Repr

namespace SpendState

def setPhase (s : SpendState) (i : ℕ) (phase : SwapPhase) : SpendState :=
  { s with calls := s.calls.set i phase }

def setConfig (s : SpendState) (userId : String) (cfg : GuardrailConfig) : SpendState :=
  { s with configs := s.configs.set userId cfg }

/-- The check stores the row that `config` has made. -/
def checked (s : SpendState) (i : ℕ) (intent : TradeIntent) : SpendState :=
  let row := s.configs.get intent.userId
  (s.setConfig intent.userId (config row)).setPhase i
    (match check row s.trades s.clock intent with
      | .ok () => .screen ⟨intent.userId, intent.notionalUsd, s.clock⟩
      | .error _ => .ended)

def recorded (s : SpendState) (i : ℕ) (held : Held) (mode : TradeMode) : SpendState :=
  let trade : TradeRecord := ⟨held.userId, mode, some held.notionalUsd, s.clock⟩
  { s.setPhase i .ended with trades := s.trades ++ [trade] }

end SpendState

/-- `admitted i none` is a swap that has no user or that the guard of live trades refuses. -/
inductive SpendEvent
  | swap (intent : TradeIntent)
  | checked (i : ℕ)
  | admitted (i : ℕ) (mode : Option TradeMode)
  | executed (i : ℕ) (ok : Bool)
  | recorded (i : ℕ)
  | update (userId : String) (patch : GuardrailPatch)
  deriving DecidableEq, Repr

def SpendState.stepAt (s : SpendState) : SpendEvent → Option SpendState
  | .swap intent => some { s with calls := s.calls ++ [.check intent] }
  | .checked i =>
    s.calls[i]?.bind fun
      | .check intent => some (s.checked i intent)
      | _ => none
  | .admitted i mode =>
    s.calls[i]?.bind fun
      | .screen held => some (s.setPhase i (mode.elim .ended (.execute held)))
      | _ => none
  | .executed i ok =>
    s.calls[i]?.bind fun
      | .execute held mode => some (s.setPhase i (if ok then .record held mode else .ended))
      | _ => none
  | .recorded i =>
    s.calls[i]?.bind fun
      | .record held mode => some (s.recorded i held mode)
      | _ => none
  | .update userId patch => some (s.setConfig userId (update (s.configs.get userId) patch))

/-- Each event carries its time; the clock does not go back. -/
def swapSpending : StepSystem SpendState (ℤ × SpendEvent) where
  step s e := if s.clock ≤ e.1 then { s with clock := e.1 }.stepAt e.2 else none

/-! ## The cap -/

/-- The sum of a user's LIVE trades of one UTC day. -/
def dayTotal (trades : List TradeRecord) (userId : String) (day : ℤ) : ℚ :=
  ((trades.filter fun t => t.userId = userId ∧ startOfDay t.createdAt = day ∧ t.mode = .LIVE).map fun t =>
    t.priceUsd.getD 0).sum

def SpendState.dailyUsd (s : SpendState) (userId : String) : ℚ := (config (s.configs.get userId)).dailyUsd

def WithinCap (userId : String) (s : SpendState) : Prop :=
  ∀ day, dayTotal s.trades userId day ≤ s.dailyUsd userId

/-- The swap that a phase may still record as a LIVE trade. -/
def SwapPhase.mayRecord : SwapPhase → Option Held
  | .screen held | .execute held .LIVE | .record held .LIVE => some held
  | .check _ | .execute _ .PAPER | .record _ .PAPER | .ended => none

/-- The user's `dailyUsd` is constant and the notionals are not negative; no swap is checked on one day and
recorded on another. -/
def Regular (userId : String) (s : SpendState) : ℤ × SpendEvent → Prop
  | (_, .swap intent) => intent.userId = userId → 0 ≤ intent.notionalUsd
  | (now, .recorded i) => ∀ phase ∈ s.calls[i]?, ∀ held ∈ phase.mayRecord,
      held.userId = userId → startOfDay now = startOfDay held.checkedAt
  | (_, .update user patch) => user = userId → patch.dailyUsd = none
  | (_, .checked _) | (_, .admitted _ _) | (_, .executed _ _) => True

/-- When a swap of the user is checked, no other one is between its check and its record. -/
def Separate (userId : String) (s : SpendState) : ℤ × SpendEvent → Prop
  | (_, .checked i) => ∀ intent, s.calls[i]? = some (.check intent) → intent.userId = userId →
      ∀ phase ∈ s.calls, ∀ held ∈ phase.mayRecord, held.userId ≠ userId
  | (_, .swap _) | (_, .admitted _ _) | (_, .executed _ _) | (_, .recorded _) | (_, .update _ _) => True

/-! ## What is reserved -/

/-- What a phase may still add to the day's sum. -/
def SwapPhase.reserve (userId : String) (day : ℤ) (phase : SwapPhase) : ℚ :=
  match phase.mayRecord with
  | some held => if held.userId = userId ∧ startOfDay held.checkedAt = day then held.notionalUsd else 0
  | none => 0

def reserved (calls : List SwapPhase) (userId : String) (day : ℤ) : ℚ :=
  (calls.map (SwapPhase.reserve userId day)).sum

/-- The notional of the user's swap in this phase. -/
def SwapPhase.Nonneg (userId : String) : SwapPhase → Prop
  | .check intent => intent.userId = userId → 0 ≤ intent.notionalUsd
  | .screen held | .execute held _ | .record held _ => held.userId = userId → 0 ≤ held.notionalUsd
  | .ended => True

/-- The room for what is under way, as long as no row is from the future. -/
structure Reserved (userId : String) (s : SpendState) : Prop where
  past : ∀ t ∈ s.trades, t.createdAt ≤ s.clock
  nonneg : ∀ phase ∈ s.calls, phase.Nonneg userId
  room : ∀ day, dayTotal s.trades userId day + reserved s.calls userId day ≤ s.dailyUsd userId

variable {s s' t : SpendState} {userId : String} {i : ℕ} {day now : ℤ} {phase phase' : SwapPhase}

theorem sum_map_set {α : Type} (f : α → ℚ) {l : List α} {i : ℕ} {a : α} (h : l[i]? = some a) (b : α) :
    ((l.set i b).map f).sum + f a = (l.map f).sum + f b := by
  induction l generalizing i with
  | nil => simp at h
  | cons c l ih =>
    cases i with
    | zero =>
      obtain rfl : c = a := by simpa using h
      simp only [List.set_cons_zero, List.map_cons, List.sum_cons]
      ring
    | succ i =>
      have hrest := ih (show l[i]? = some a by simpa using h)
      simp only [List.set_cons_succ, List.map_cons, List.sum_cons]
      linarith

/-- A call that goes on changes what is reserved by the difference of its two phases. -/
theorem reserved_set (userId : String) (day : ℤ) {calls : List SwapPhase} (h : calls[i]? = some phase)
    (phase' : SwapPhase) :
    reserved (calls.set i phase') userId day + phase.reserve userId day =
      reserved calls userId day + phase'.reserve userId day :=
  sum_map_set (SwapPhase.reserve userId day) h phase'

@[simp] theorem SpendState.dailyUsd_setPhase (s : SpendState) (i : ℕ) (phase : SwapPhase) (userId : String) :
    (s.setPhase i phase).dailyUsd userId = s.dailyUsd userId := rfl

@[simp] theorem SpendState.dailyUsd_recorded (s : SpendState) (i : ℕ) (held : Held) (mode : TradeMode)
    (userId : String) : (s.recorded i held mode).dailyUsd userId = s.dailyUsd userId := rfl

theorem SwapPhase.reserve_nonneg (h : phase.Nonneg userId) : 0 ≤ phase.reserve userId day := by
  unfold SwapPhase.reserve
  split
  · rename_i held hheld
    split
    · rename_i hmine
      cases phase with
      | check intent => cases hheld
      | ended => cases hheld
      | screen other =>
        obtain rfl := Option.some.inj hheld
        exact h hmine.1
      | execute other mode =>
        cases mode with
        | PAPER => cases hheld
        | LIVE =>
          obtain rfl := Option.some.inj hheld
          exact h hmine.1
      | record other mode =>
        cases mode with
        | PAPER => cases hheld
        | LIVE =>
          obtain rfl := Option.some.inj hheld
          exact h hmine.1
    · exact le_refl 0
  · exact le_refl 0

theorem reserved_eq_zero {calls : List SwapPhase} (day : ℤ)
    (h : ∀ phase ∈ calls, ∀ held ∈ phase.mayRecord, held.userId ≠ userId) : reserved calls userId day = 0 := by
  apply List.sum_eq_zero
  intro r hr
  obtain ⟨phase, hphase, rfl⟩ := List.mem_map.mp hr
  unfold SwapPhase.reserve
  split
  · rename_i held hheld
    rw [if_neg fun hmine => h phase hphase held hheld hmine.1]
  · rfl

/-- What is used since midnight is what the day's rows add up to. -/
theorem usedSince_startOfDay {trades : List TradeRecord} (hpast : ∀ t ∈ trades, t.createdAt ≤ now) :
    usedSince trades userId (startOfDay now) = dayTotal trades userId (startOfDay now) := by
  unfold usedSince dayTotal
  congr 2
  apply List.filter_congr
  intro t ht
  have hle := hpast t ht
  have hday : startOfDay now ≤ t.createdAt ↔ startOfDay t.createdAt = startOfDay now := by
    unfold startOfDay DAY_MS
    omega
  simp only [hday]

theorem dayTotal_append (trades : List TradeRecord) (trade : TradeRecord) :
    dayTotal (trades ++ [trade]) userId day = dayTotal trades userId day +
      if trade.userId = userId ∧ startOfDay trade.createdAt = day ∧ trade.mode = .LIVE then trade.priceUsd.getD 0
      else 0 := by
  unfold dayTotal
  rw [List.filter_append, List.map_append, List.sum_append]
  congr 1
  split
  · rename_i h
    simp [h]
  · rename_i h
    simp [h]

/-! ## Configurations -/

theorem config_dailyUsd (row : Option GuardrailConfig) :
    (config (some (config row))).dailyUsd = (config row).dailyUsd := by
  unfold config GuardrailConfig.upgraded
  dsimp only [Option.getD_some]
  split
  · rfl
  · rfl

theorem update_dailyUsd {row : Option GuardrailConfig} {patch : GuardrailPatch} (h : patch.dailyUsd = none) :
    (config (some (update row patch))).dailyUsd = (config row).dailyUsd := by
  have hpatched : (update row patch).dailyUsd = (config row).dailyUsd := by simp [update, h]
  rw [← hpatched]
  unfold config GuardrailConfig.upgraded
  dsimp only [Option.getD_some]
  split
  · rfl
  · rfl

theorem dailyUsd_setConfig {user : String} {cfg : GuardrailConfig}
    (h : user = userId → (config (some cfg)).dailyUsd = s.dailyUsd userId) :
    (s.setConfig user cfg).dailyUsd userId = s.dailyUsd userId := by
  unfold SpendState.dailyUsd SpendState.setConfig
  dsimp only
  by_cases huser : userId = user
  · subst huser
    rw [KeyValue.get_set_self]
    exact h rfl
  · rw [KeyValue.get_set_of_ne huser]

/-! ## Steps -/

namespace Reserved

theorem withinCap (h : Reserved userId s) : WithinCap userId s := by
  intro day
  have hreserved : 0 ≤ reserved s.calls userId day := by
    apply List.sum_nonneg
    intro r hr
    obtain ⟨phase, hphase, rfl⟩ := List.mem_map.mp hr
    exact SwapPhase.reserve_nonneg (h.nonneg phase hphase)
  have hroom := h.room day
  linarith

theorem later (h : Reserved userId s) (hle : s.clock ≤ now) : Reserved userId { s with clock := now } where
  past t ht := le_trans (h.past t ht) hle
  nonneg := h.nonneg
  room := h.room

theorem setConfig (h : Reserved userId s) {user : String} {cfg : GuardrailConfig}
    (hdaily : user = userId → (config (some cfg)).dailyUsd = s.dailyUsd userId) :
    Reserved userId (s.setConfig user cfg) where
  past := h.past
  nonneg := h.nonneg
  room day := by
    rw [dailyUsd_setConfig hdaily]
    exact h.room day

theorem start (h : Reserved userId s) {intent : TradeIntent}
    (hnonneg : intent.userId = userId → 0 ≤ intent.notionalUsd) :
    Reserved userId { s with calls := s.calls ++ [.check intent] } where
  past := h.past
  nonneg := List.forall_mem_append.mpr ⟨h.nonneg, List.forall_mem_singleton.mpr hnonneg⟩
  room day := by
    have hsame : reserved (s.calls ++ [.check intent]) userId day = reserved s.calls userId day := by
      unfold reserved
      rw [List.map_append, List.sum_append, List.map_singleton, List.sum_singleton]
      exact add_zero (reserved s.calls userId day)
    exact hsame ▸ h.room day

theorem nonneg_set (h : Reserved userId s) (hphase : phase.Nonneg userId) :
    ∀ p ∈ s.calls.set i phase, p.Nonneg userId :=
  forall_mem_set h.nonneg hphase i

/-- A call goes on with no more than it has reserved. -/
theorem move (h : Reserved userId s) (hcall : s.calls[i]? = some phase) (hnonneg : phase'.Nonneg userId)
    (hle : ∀ day, phase'.reserve userId day ≤ phase.reserve userId day) :
    Reserved userId (s.setPhase i phase') where
  past := h.past
  nonneg := h.nonneg_set hnonneg
  room day := by
    have hset := reserved_set userId day hcall phase'
    have hroom := h.room day
    have hless := hle day
    rw [SpendState.dailyUsd_setPhase]
    dsimp only [SpendState.setPhase]
    linarith

theorem ends (h : Reserved userId s) (hcall : s.calls[i]? = some phase) : Reserved userId (s.setPhase i .ended) :=
  h.move hcall trivial fun _ => SwapPhase.reserve_nonneg (h.nonneg phase (List.mem_of_getElem? hcall))

/-- The check finds room for the swap, and nothing else of the user is under way. -/
theorem pass (h : Reserved userId s) {intent : TradeIntent} (hcall : s.calls[i]? = some (.check intent))
    (hok : check (s.configs.get intent.userId) s.trades s.clock intent = .ok ())
    (hseparate : intent.userId = userId → ∀ phase ∈ s.calls, ∀ held ∈ phase.mayRecord, held.userId ≠ userId) :
    Reserved userId (s.setPhase i (.screen ⟨intent.userId, intent.notionalUsd, s.clock⟩)) where
  past := h.past
  nonneg := by
    have hnonneg : (SwapPhase.check intent).Nonneg userId := h.nonneg _ (List.mem_of_getElem? hcall)
    exact h.nonneg_set hnonneg
  room day := by
    have hset := reserved_set userId day hcall
      (.screen ⟨intent.userId, intent.notionalUsd, s.clock⟩)
    have hroom := h.room day
    rw [SpendState.dailyUsd_setPhase]
    dsimp only [SpendState.setPhase]
    by_cases hmine : intent.userId = userId ∧ startOfDay s.clock = day
    · obtain ⟨rfl, rfl⟩ := hmine
      obtain ⟨-, -, -, -, -, -, hday⟩ := GuardrailConfig.check_eq_ok.mp hok
      rw [usedSince_startOfDay h.past] at hday
      have hnone := reserved_eq_zero (startOfDay s.clock) (hseparate rfl)
      have hnew : SwapPhase.reserve intent.userId (startOfDay s.clock)
          (.screen ⟨intent.userId, intent.notionalUsd, s.clock⟩) = intent.notionalUsd := if_pos ⟨rfl, rfl⟩
      have hold : SwapPhase.reserve intent.userId (startOfDay s.clock) (.check intent) = 0 := rfl
      unfold SpendState.dailyUsd
      linarith
    · have hnew : SwapPhase.reserve userId day (.screen ⟨intent.userId, intent.notionalUsd, s.clock⟩) = 0 :=
        if_neg hmine
      have hold : SwapPhase.reserve userId day (.check intent) = 0 := rfl
      linarith

theorem checked (h : Reserved userId s) {intent : TradeIntent} (hcall : s.calls[i]? = some (.check intent))
    (hseparate : intent.userId = userId → ∀ phase ∈ s.calls, ∀ held ∈ phase.mayRecord, held.userId ≠ userId) :
    Reserved userId (s.checked i intent) := by
  have hconfig : ∀ {s : SpendState}, Reserved userId s →
      Reserved userId (s.setConfig intent.userId (config (s.configs.get intent.userId))) := by
    intro s h
    apply h.setConfig
    rintro rfl
    exact config_dailyUsd _
  unfold SpendState.checked
  dsimp only
  split
  · rename_i hok
    exact hconfig (h.pass hcall hok hseparate)
  · exact hconfig (h.ends hcall)

/-- The trade takes the place of what was reserved for it. -/
theorem recorded (h : Reserved userId s) {held : Held} {mode : TradeMode}
    (hcall : s.calls[i]? = some (.record held mode))
    (hday : ∀ held' ∈ (SwapPhase.record held mode).mayRecord, held'.userId = userId →
      startOfDay s.clock = startOfDay held'.checkedAt) :
    Reserved userId (s.recorded i held mode) where
  past := List.forall_mem_append.mpr ⟨h.past, List.forall_mem_singleton.mpr (le_refl s.clock)⟩
  nonneg := h.nonneg_set trivial
  room day := by
    have hset := reserved_set userId day hcall .ended
    have hroom := h.room day
    have hended : SwapPhase.reserve userId day .ended = 0 := rfl
    rw [SpendState.dailyUsd_recorded]
    dsimp only [SpendState.recorded, SpendState.setPhase]
    rw [dayTotal_append]
    dsimp only [Option.getD_some]
    have hsame : (if held.userId = userId ∧ startOfDay s.clock = day ∧ mode = .LIVE then held.notionalUsd else 0) =
        SwapPhase.reserve userId day (.record held mode) := by
      cases mode with
      | PAPER => exact if_neg fun hmine => by cases hmine.2.2
      | LIVE =>
        change _ = if held.userId = userId ∧ startOfDay held.checkedAt = day then held.notionalUsd else 0
        by_cases huser : held.userId = userId
        · rw [hday held rfl huser]
          simp only [and_true]
        · rw [if_neg fun hmine => huser hmine.1, if_neg fun hmine => huser hmine.1]
    rw [hsame]
    linarith

theorem stepAt {e : SpendEvent} (h : Reserved userId s) (hregular : Regular userId s (s.clock, e))
    (hseparate : Separate userId s (s.clock, e)) (hstep : s.stepAt e = some s') : Reserved userId s' := by
  cases e with
  | swap intent =>
    obtain rfl := Option.some.inj hstep
    exact h.start hregular
  | checked i =>
    obtain ⟨phase, hcall, hphase⟩ := Option.bind_eq_some_iff.mp hstep
    cases phase with
    | check intent =>
      obtain rfl := Option.some.inj hphase
      exact h.checked hcall (hseparate intent hcall)
    | _ => cases hphase
  | admitted i mode =>
    obtain ⟨phase, hcall, hphase⟩ := Option.bind_eq_some_iff.mp hstep
    cases phase with
    | screen held =>
      obtain rfl := Option.some.inj hphase
      have hnonneg : (SwapPhase.screen held).Nonneg userId := h.nonneg _ (List.mem_of_getElem? hcall)
      cases mode with
      | none => exact h.ends hcall
      | some mode =>
        cases mode with
        | LIVE => exact h.move hcall hnonneg fun _ => le_refl _
        | PAPER => exact h.move hcall hnonneg fun _ => SwapPhase.reserve_nonneg hnonneg
    | _ => cases hphase
  | executed i ok =>
    obtain ⟨phase, hcall, hphase⟩ := Option.bind_eq_some_iff.mp hstep
    cases phase with
    | execute held mode =>
      obtain rfl := Option.some.inj hphase
      have hnonneg : (SwapPhase.execute held mode).Nonneg userId := h.nonneg _ (List.mem_of_getElem? hcall)
      cases ok with
      | false => exact h.ends hcall
      | true => exact h.move hcall hnonneg fun _ => by cases mode <;> exact le_refl _
    | _ => cases hphase
  | recorded i =>
    obtain ⟨phase, hcall, hphase⟩ := Option.bind_eq_some_iff.mp hstep
    cases phase with
    | record held mode =>
      obtain rfl := Option.some.inj hphase
      exact h.recorded hcall (hregular _ hcall)
    | _ => cases hphase
  | update user patch =>
    obtain rfl := Option.some.inj hstep
    apply h.setConfig
    intro huser
    subst huser
    exact update_dailyUsd (hregular rfl)

theorem step {e : ℤ × SpendEvent} (h : Reserved userId s) (hregular : Regular userId s e)
    (hseparate : Separate userId s e) (hstep : swapSpending.step s e = some s') : Reserved userId s' := by
  obtain ⟨hle, hat⟩ := Option.ite_none_right_eq_some.mp hstep
  exact (h.later hle).stepAt hregular hseparate hat

end Reserved

/-! ## Runs -/

/-- No call is under way, and no trade is from the future. -/
def AtRest (s : SpendState) : Prop := s.calls = [] ∧ ∀ t ∈ s.trades, t.createdAt ≤ s.clock

/-- **Daily cap.** In a run in which no swap of the user is checked while another one is between its check and
its record, the user's LIVE trades of a day add up to at most `dailyUsd`. -/
theorem dailyCap {s : SpendState} {steps : List (ℤ × SpendEvent)} (hrest : AtRest s) (hcap : WithinCap userId s)
    (hrun : swapSpending.GuardedRun (fun s e => Regular userId s e ∧ Separate userId s e) s steps t) :
    WithinCap userId t := by
  have hstart : Reserved userId s := by
    refine ⟨hrest.2, ?_, fun day => ?_⟩
    · rw [hrest.1]
      exact nofun
    · rw [hrest.1]
      exact (add_zero (dayTotal s.trades userId day)).symm ▸ hcap day
  have hreserved := hrun.invariant (fun _ _ _ h hguard hstep => h.step hguard.1 hguard.2 hstep) hstart
  exact hreserved.withinCap

/-! ## Two runs -/

instance (userId : String) (s : SpendState) : (e : ℤ × SpendEvent) → Decidable (Regular userId s e)
  | (_, .swap intent) => inferInstanceAs (Decidable (intent.userId = userId → 0 ≤ intent.notionalUsd))
  | (now, .recorded i) => inferInstanceAs (Decidable (∀ phase ∈ s.calls[i]?, ∀ held ∈ phase.mayRecord,
      held.userId = userId → startOfDay now = startOfDay held.checkedAt))
  | (_, .update user patch) => inferInstanceAs (Decidable (user = userId → patch.dailyUsd = none))
  | (_, .checked _) | (_, .admitted _ _) | (_, .executed _ _) => inferInstanceAs (Decidable True)

instance (userId : String) (s : SpendState) : (e : ℤ × SpendEvent) → Decidable (Separate userId s e)
  | (_, .checked i) =>
    match h : s.calls[i]? with
    | some (.check intent) =>
      decidable_of_iff (intent.userId = userId → ∀ phase ∈ s.calls, ∀ held ∈ phase.mayRecord, held.userId ≠ userId)
        ⟨fun hsep other hother => by
          obtain rfl : intent = other := by simpa using h.symm.trans hother
          exact hsep, fun hsep => hsep intent h⟩
    | some (.screen _) | some (.execute _ _) | some (.record _ _) | some .ended | none =>
      .isTrue fun _ hother => by rw [h] at hother; cases hother
  | (_, .swap _) | (_, .admitted _ _) | (_, .executed _ _) | (_, .recorded _) | (_, .update _ _) =>
    inferInstanceAs (Decidable True)

def largeIntent (notionalUsd : ℚ) : TradeIntent := ⟨"u1", "mint", notionalUsd, 300, []⟩

def sampleSpending : SpendState :=
  { clock := 1000, configs := [("u1", { perTradeUsd := 1500, dailyUsd := 2000, maxSlippageBps := 5000 })] }

theorem sampleSpending_atRest : AtRest sampleSpending := ⟨rfl, fun _ h => nomatch h⟩

theorem sampleSpending_withinCap : WithinCap "u1" sampleSpending := by
  intro day
  show (0 : ℚ) ≤ sampleSpending.dailyUsd "u1"
  decide +kernel

/-- A swap from its call to its trade. -/
def wholeSwap (i : ℕ) (now : ℤ) (notionalUsd : ℚ) : List (ℤ × SpendEvent) :=
  [(now, .swap (largeIntent notionalUsd)), (now + 1, .checked i), (now + 2, .admitted i (some .LIVE)),
    (now + 3, .executed i true), (now + 4, .recorded i)]

def twoSwaps : List (ℤ × SpendEvent) := wholeSwap 0 2000 1200 ++ wholeSwap 1 3000 800

theorem twoSwaps_withinCap : ∃ t, swapSpending.run sampleSpending twoSwaps = some t ∧ WithinCap "u1" t := by
  have hsome : (swapSpending.guardedRun (fun s e => Regular "u1" s e ∧ Separate "u1" s e) sampleSpending
      twoSwaps).isSome = true := by decide +kernel
  have hrun := StepSystem.GuardedRun.of_guardedRun (Option.eq_some_of_isSome hsome)
  exact ⟨_, hrun.run, dailyCap sampleSpending_atRest sampleSpending_withinCap hrun⟩

/-- The second swap is checked while the first one executes. -/
def overlappingSwaps : List (ℤ × SpendEvent) :=
  [(2000, .swap (largeIntent 1200)), (2001, .checked 0), (2002, .admitted 0 (some .LIVE)),
    (2003, .swap (largeIntent 1200)), (2004, .checked 1), (2005, .executed 0 true), (2006, .recorded 0),
    (2007, .admitted 1 (some .LIVE)), (2008, .executed 1 true), (2009, .recorded 1)]

theorem overlappingSwaps_exceed_cap : ¬ ∀ (userId : String) (s t : SpendState) (steps : List (ℤ × SpendEvent)),
    AtRest s → WithinCap userId s → swapSpending.GuardedRun (Regular userId) s steps t → WithinCap userId t := by
  intro h
  have hmap : (swapSpending.guardedRun (Regular "u1") sampleSpending overlappingSwaps).map
      (fun t => (dayTotal t.trades "u1" 0, t.dailyUsd "u1")) = some (2400, 2000) := by decide +kernel
  obtain ⟨t, ht, htotal⟩ := Option.map_eq_some_iff.mp hmap
  obtain ⟨hday, hcap⟩ := Prod.mk.inj htotal
  have hle := h "u1" sampleSpending t overlappingSwaps sampleSpending_atRest sampleSpending_withinCap
    (.of_guardedRun ht) 0
  rw [hday, hcap] at hle
  norm_num at hle

end SuperAi.Guardrails
