import SuperAi.Foundations.SingleUse
import SuperAi.Snipe.ParallelSnipe

/-! # Pause windows

The queues are shared and the timers are not: the timer of one user resumes what the burst of another one has
paused. A queue stays paused for the whole window where a timer that ends is the only one, and where no burst comes
while a callback is still resuming.
-/
namespace SuperAi.Snipe
open SuperAi.Foundations
set_option autoImplicit false

/-! ## The property and its condition -/

/-- Every callback has resumed all its queues, and no timer is due. -/
def PauseState.Settled (s : PauseState) : Prop :=
  (∀ left ∈ s.resuming, left = []) ∧ ∀ userId due, s.resumeTimers.get userId = some due → s.clock < due

structure Honoured (s : PauseState) : Prop where
  notEarly : ∀ r ∈ s.resumes, ∀ b ∈ r.lastBurst, b + PAUSE_WINDOW_MS ≤ r.time
  resumed : s.Settled → (∀ b ∈ s.lastBurst, b + PAUSE_WINDOW_MS ≤ s.clock) → s.paused = []

/-- A timer ends as the only one. No burst comes during a callback, and one without a funded wallet only when no timer
is set. -/
def Apart (s : PauseState) : ℤ × PauseEvent → Prop
  | (_, .burst _ balances) => (∀ left ∈ s.resuming, left = []) ∧
      (balances.any isFunded = false → s.resumeTimers = [])
  | (_, .fires userId) => ∀ timer ∈ s.resumeTimers, timer.1 = userId
  | (_, .resumes _) => True

/-! ## The invariant -/

/-- While queues are paused a timer or a callback is on its way to them, and the timers end with the windows. -/
structure Windows (s : PauseState) : Prop where
  covered : ∀ q ∈ s.paused, (∃ userId due, s.resumeTimers.get userId = some due) ∨ ∃ left ∈ s.resuming, q ∈ left
  known : ∀ q ∈ s.paused, q ∈ PAUSE_QUEUES
  prompt : ∀ userId due, s.resumeTimers.get userId = some due → ∃ b, s.lastBurst = some b ∧ due ≤ b + PAUSE_WINDOW_MS
  waits : ∀ b ∈ s.lastBurst, ∀ userId due, s.resumeTimers.get userId = some due →
    ∃ other later, s.resumeTimers.get other = some later ∧ b + PAUSE_WINDOW_MS ≤ later
  closed : ∀ left ∈ s.resuming, left ≠ [] → ∀ b ∈ s.lastBurst, b + PAUSE_WINDOW_MS ≤ s.clock
  past : ∀ b ∈ s.lastBurst, b ≤ s.clock
  notEarly : ∀ r ∈ s.resumes, ∀ b ∈ r.lastBurst, b + PAUSE_WINDOW_MS ≤ r.time

variable {s s' t : PauseState} {userId : String} {i : ℕ}

theorem no_timer_left (honly : ∀ timer ∈ s.resumeTimers, timer.1 = userId) {other : String} {due : ℤ} :
    ¬ (s.fires userId).resumeTimers.get other = some due := by
  intro htimer
  have hmem := KeyValue.mem_of_get htimer
  have hother : other = userId := honly _ (KeyValue.mem_del hmem)
  rw [hother] at htimer
  cases (KeyValue.get_del_self _ _).symm.trans htimer

namespace Windows

theorem initial (clock : ℤ) : Windows { clock } where
  covered := nofun
  known := nofun
  prompt := nofun
  waits := nofun
  closed := nofun
  past := nofun
  notEarly := nofun

theorem honoured (h : Windows s) : Honoured s where
  notEarly := h.notEarly
  resumed := by
    rintro ⟨hdone, hdue⟩ hover
    apply List.eq_nil_iff_forall_not_mem.mpr
    intro q hq
    rcases h.covered q hq with ⟨userId, due, htimer⟩ | ⟨left, hleft, hmem⟩
    · obtain ⟨b, hb, hle⟩ := h.prompt userId due htimer
      have hlate := hdue userId due htimer
      have hend := hover b hb
      omega
    · rw [hdone left hleft] at hmem
      cases hmem

theorem later (h : Windows s) {now : ℤ} (hle : s.clock ≤ now) : Windows { s with clock := now } where
  covered := h.covered
  known := h.known
  prompt := h.prompt
  waits := h.waits
  closed left hleft hne b hb := le_trans (h.closed left hleft hne b hb) hle
  past b hb := le_trans (h.past b hb) hle
  notEarly := h.notEarly

/-- A burst that is skipped comes when no timer is set. -/
theorem skip (h : Windows s) (hidle : ∀ left ∈ s.resuming, left = [])
    (hnone : s.resumeTimers = []) : Windows { s with lastBurst := some s.clock } where
  covered := h.covered
  known := h.known
  prompt userId due htimer := by
    rw [hnone] at htimer
    cases htimer
  waits _ _ userId due htimer := by
    rw [hnone] at htimer
    cases htimer
  closed left hleft hne := absurd (hidle left hleft) hne
  past b hb := by
    obtain rfl := Option.some.inj hb
    exact le_refl s.clock
  notEarly := h.notEarly

theorem pause (h : Windows s) (hidle : ∀ left ∈ s.resuming, left = []) (userId : String) :
    Windows ({ s with lastBurst := some s.clock, paused := PAUSE_QUEUES }.scheduleResume userId) where
  covered q _ := .inl ⟨userId, _, KeyValue.get_set_self _ _ _⟩
  known q hq := hq
  prompt other due htimer := by
    refine ⟨s.clock, rfl, ?_⟩
    by_cases hother : other = userId
    · subst hother
      obtain rfl := Option.some.inj ((KeyValue.get_set_self _ _ _).symm.trans htimer)
      exact le_refl _
    · obtain ⟨b, hb, hle⟩ := h.prompt other due ((KeyValue.get_set_of_ne hother).symm.trans htimer)
      have hpast := h.past b hb
      omega
  waits b hb _ _ _ := by
    obtain rfl := Option.some.inj hb
    exact ⟨userId, _, KeyValue.get_set_self _ _ _, le_refl _⟩
  closed left hleft hne := absurd (hidle left hleft) hne
  past b hb := by
    obtain rfl := Option.some.inj hb
    exact le_refl s.clock
  notEarly := h.notEarly

/-- The only timer ends: the last window is over. -/
theorem fires (h : Windows s) {due : ℤ} (htimer : s.resumeTimers.get userId = some due) (hdue : due ≤ s.clock)
    (honly : ∀ timer ∈ s.resumeTimers, timer.1 = userId) : Windows (s.fires userId) where
  covered q hq := .inr ⟨PAUSE_QUEUES, List.mem_append_right _ List.mem_cons_self, h.known q hq⟩
  known := h.known
  prompt other due' htimer' := absurd htimer' (no_timer_left honly)
  waits b hb other due' htimer' := absurd htimer' (no_timer_left honly)
  closed left hleft _ b hb := by
    obtain ⟨other, later, hlater, hle⟩ := h.waits b hb userId due htimer
    obtain rfl : other = userId := honly _ (KeyValue.mem_of_get hlater)
    obtain rfl := Option.some.inj (htimer.symm.trans hlater)
    exact le_trans hle hdue
  past := h.past
  notEarly := h.notEarly

theorem resume (h : Windows s) {queue : QueueName} {rest : List QueueName}
    (hcall : s.resuming[i]? = some (queue :: rest)) : Windows (s.resume i queue rest) where
  covered q hq := by
    obtain ⟨hq, hne⟩ := List.mem_filter.mp hq
    refine (h.covered q hq).imp_right ?_
    rintro ⟨left, hleft, hmem⟩
    rcases eq_or_mem_set hcall hleft rest with rfl | hstays
    · refine ⟨rest, List.mem_set (List.getElem?_eq_some_iff.mp hcall).1 rest, ?_⟩
      rcases List.mem_cons.mp hmem with rfl | hrest
      · simp at hne
      · exact hrest
    · exact ⟨left, hstays, hmem⟩
  known q hq := h.known q (List.mem_of_mem_filter hq)
  prompt := h.prompt
  waits := h.waits
  closed left hleft _ b hb := h.closed (queue :: rest) (List.mem_of_getElem? hcall) (List.cons_ne_nil _ _) b hb
  past := h.past
  notEarly := by
    refine List.forall_mem_append.mpr ⟨h.notEarly, List.forall_mem_singleton.mpr ?_⟩
    exact h.closed (queue :: rest) (List.mem_of_getElem? hcall) (List.cons_ne_nil _ _)

theorem stepAt {e : PauseEvent} (h : Windows s) (hguard : Apart s (s.clock, e)) (hstep : s.stepAt e = some s') :
    Windows s' := by
  cases e with
  | burst userId balances =>
    obtain rfl := Option.some.inj hstep
    unfold PauseState.burst
    dsimp only
    split
    · exact h.pause hguard.1 userId
    · rename_i hfunded
      exact h.skip hguard.1 (hguard.2 (Bool.of_not_eq_true hfunded))
  | fires userId =>
    obtain ⟨due, htimer, hfires⟩ := Option.bind_eq_some_iff.mp hstep
    obtain ⟨hdue, hfires⟩ := Option.ite_none_right_eq_some.mp hfires
    obtain rfl := Option.some.inj hfires
    exact h.fires htimer hdue hguard
  | resumes i =>
    obtain ⟨left, hcall, hleft⟩ := Option.bind_eq_some_iff.mp hstep
    cases left with
    | nil => cases hleft
    | cons queue rest =>
      obtain rfl := Option.some.inj hleft
      exact h.resume hcall

theorem step {e : ℤ × PauseEvent} (h : Windows s) (hguard : Apart s e) (hstep : parallelSnipe.step s e = some s') :
    Windows s' := by
  obtain ⟨hle, hat⟩ := Option.ite_none_right_eq_some.mp hstep
  exact (h.later hle).stepAt hguard hat

end Windows

/-! ## Runs -/

/-- **Pause windows.** Where the timers end one at a time and no burst comes during a callback, no queue is resumed
within the window of the last burst, and all are resumed after it. -/
theorem windowsHonoured {clock : ℤ} {steps : List (ℤ × PauseEvent)}
    (hrun : parallelSnipe.GuardedRun Apart { clock } steps t) : Honoured t := by
  have hwindows := hrun.invariant (fun _ _ _ h hguard hstep => h.step hguard hstep) (Windows.initial clock)
  exact hwindows.honoured

/-! ## Two runs -/

instance (s : PauseState) : (e : ℤ × PauseEvent) → Decidable (Apart s e)
  | (_, .burst _ balances) => inferInstanceAs (Decidable ((∀ left ∈ s.resuming, left = []) ∧
      (balances.any isFunded = false → s.resumeTimers = [])))
  | (_, .fires userId) => inferInstanceAs (Decidable (∀ timer ∈ s.resumeTimers, timer.1 = userId))
  | (_, .resumes _) => inferInstanceAs (Decidable True)

/-- Two bursts of one user, the second one within the window of the first. -/
def oneUser : List (ℤ × PauseEvent) :=
  [(0, .burst "a" [some 100000000]), (20000, .burst "a" [some 100000000, none]), (50000, .fires "a"),
    (50001, .resumes 0)]

theorem oneUser_honoured : ∃ t, parallelSnipe.run { clock := 0 } oneUser = some t ∧
    t.resumes = [⟨.DCA, 50001, some 20000⟩] ∧ Honoured t := by
  have hmap : (parallelSnipe.guardedRun Apart { clock := 0 } oneUser).map PauseState.resumes =
      some [⟨.DCA, 50001, some 20000⟩] := by decide +kernel
  obtain ⟨t, ht, hresumes⟩ := Option.map_eq_some_iff.mp hmap
  have hrun := StepSystem.GuardedRun.of_guardedRun ht
  exact ⟨t, hrun.run, hresumes, windowsHonoured hrun⟩

/-- The timer of the first user resumes the queues in the window of the second. -/
def twoUsers : List (ℤ × PauseEvent) :=
  [(0, .burst "a" [some 100000000]), (20000, .burst "b" [some 100000000]), (30000, .fires "a"), (30000, .resumes 0)]

theorem other_window_is_cut : ¬ ∀ (clock : ℤ) (steps : List (ℤ × PauseEvent)) (t : PauseState),
    parallelSnipe.run { clock } steps = some t → Honoured t := by
  intro h
  have hmap : (parallelSnipe.run { clock := 0 } twoUsers).map PauseState.resumes =
      some [⟨.DCA, 30000, some 20000⟩] := by decide +kernel
  obtain ⟨t, ht, hresumes⟩ := Option.map_eq_some_iff.mp hmap
  have hearly := (h 0 twoUsers t ht).notEarly ⟨.DCA, 30000, some 20000⟩ (by rw [hresumes]; exact List.mem_cons_self)
    20000 rfl
  revert hearly
  decide

end SuperAi.Snipe
