import SuperAi.Risk.Breakers
import SuperAi.Foundations.FixedWindow

/-! # Bursts of failures

`recordFailure` counts failures under a key that expires a window after the failure that created it, so
the count is that of a fixed window. A closed breaker is open by the end of every burst if and only if
no window ends in the middle of the first burst, or a count that was there before reaches the threshold
(`open_on_bursts_iff`).
-/
namespace SuperAi.Risk
open SuperAi.Foundations
set_option autoImplicit false

namespace CountingBreaker
variable {b : CountingBreaker} {s : BreakerStore}

def Closed (b : CountingBreaker) (s : BreakerStore) : Prop :=
  s.risk.breakerState.get b.name = none ∨ s.risk.breakerState.get b.name = some .CLOSED

def Open (b : CountingBreaker) (s : BreakerStore) : Prop := s.risk.breakerState.get b.name = some .OPEN

/-- A count under the key of the breaker goes up as in a fixed window. -/
theorem incr_eq (b : CountingBreaker) (now : ℤ) (failures : ExpiringStore String ℕ) :
    (b.incr now failures).1 = (FixedWindow.hit b.windowTtl now (KeyValue.get failures b.name)).value ∧
      KeyValue.get (b.incr now failures).2 b.name =
        some (FixedWindow.hit b.windowTtl now (KeyValue.get failures b.name)) := by
  rw [FixedWindow.value_hit, ← FixedWindow.read_getD]
  unfold incr
  cases hread : failures.read now b.name with
  | none => exact ⟨rfl, FixedWindow.get_setex_of_read hread⟩
  | some count => exact ⟨rfl, FixedWindow.get_replace_of_read hread⟩

/-- A failure of a closed breaker opens it at the threshold and is counted below. -/
theorem recordFailure_of_closed (h : b.Closed s) (now : ℤ) :
    if b.threshold ≤ (FixedWindow.hit b.windowTtl now (KeyValue.get s.failures b.name)).value then
      b.Open (b.recordFailure now s)
    else b.Closed (b.recordFailure now s) ∧ KeyValue.get (b.recordFailure now s).failures b.name =
      some (FixedWindow.hit b.windowTtl now (KeyValue.get s.failures b.name)) := by
  obtain ⟨hcount, hcounter⟩ := b.incr_eq now s.failures
  rw [← hcount, ← hcounter, recordFailure_eq h]
  by_cases hreached : b.threshold ≤ (b.incr now s.failures).1
  · rw [if_pos hreached, if_pos hreached]
    exact (openedAt_openBreaker b now _).1
  · rw [if_neg hreached, if_neg hreached]
    exact ⟨h, rfl⟩

/-- An open breaker stays open, or is half-open and opens again. -/
theorem Open.recordFailure (h : b.Open s) (now : ℤ) : b.Open (b.recordFailure now s) := by
  unfold CountingBreaker.recordFailure CircuitBreaker.getState
  rw [h]
  dsimp only
  cases s.risk.openedAt.get b.name with
  | none => exact h
  | some openedAt =>
    by_cases htimeout : b.resetTimeoutMs ≤ now - openedAt
    · simp only [if_pos htimeout]
      exact (openedAt_openBreaker b now _).1
    · simp only [if_neg htimeout]
      exact h

theorem Open.recordFailures (h : b.Open s) (times : List ℤ) : b.Open (b.recordFailures s times) := by
  induction times generalizing s with
  | nil => exact h
  | cons now times ih => exact ih (h.recordFailure now)

theorem open_recordFailures_iff (h : b.Closed s) (times : List ℤ) : b.Open (b.recordFailures s times) ↔
    FixedWindow.Reaches b.windowTtl b.threshold (KeyValue.get s.failures b.name) times := by
  induction times generalizing s with
  | nil =>
    have hnot : ¬ b.Open s := by
      intro hopen
      rcases h with h | h <;> rw [Open, h] at hopen <;> cases hopen
    exact iff_of_false hnot id
  | cons now times ih =>
    have hnext := recordFailure_of_closed h now
    rw [FixedWindow.Reaches]
    change b.Open (b.recordFailures (b.recordFailure now s) times) ↔ _
    by_cases hreached :
        b.threshold ≤ (FixedWindow.hit b.windowTtl now (KeyValue.get s.failures b.name)).value
    · rw [if_pos hreached] at hnext
      exact iff_of_true (hnext.recordFailures times) (.inl hreached)
    · rw [if_neg hreached] at hnext
      rw [ih hnext.1, hnext.2, or_iff_right hreached]

theorem windowTtl_of_dvd (h : 1000 ∣ b.windowMs) : b.windowTtl = b.windowMs := by
  obtain ⟨seconds, hseconds⟩ := h
  unfold windowTtl
  omega

/-- **Bursts.** A closed breaker to which only failures are recorded is open by the end of every burst of
as many failures as its threshold within less than its window, if and only if no counter window ends in
the middle of the first burst, or the counter that was there before them fills up. -/
theorem open_on_bursts_iff (hthreshold : 1 ≤ b.threshold) (hwindow : 0 < b.windowMs)
    (hseconds : 1000 ∣ b.windowMs) (hclosed : b.Closed s) {times : List ℤ} (htimes : times.Pairwise (· ≤ ·)) :
    (∀ before later, times = before ++ later → FixedWindow.EndsInBurst b.windowMs b.threshold before →
      b.Open (b.recordFailures s before)) ↔
    ∀ pre burst later, times = pre ++ burst ++ later →
      FixedWindow.FirstBurst b.windowMs b.threshold pre burst →
        FixedWindow.Unbroken (FixedWindow.windowEnd b.windowMs
          ((KeyValue.get s.failures b.name).map Expiring.expiresAt) pre) burst ∨
        FixedWindow.FillsUp b.threshold (KeyValue.get s.failures b.name) (pre ++ burst) := by
  simp only [open_recordFailures_iff hclosed, windowTtl_of_dvd hseconds]
  exact FixedWindow.reaches_bursts_iff hwindow hthreshold htimes

end CountingBreaker

/-! ## A burst that is seen, and one across an expiry -/

def threePerSecond : CountingBreaker := ⟨⟨"velocity", 30000⟩, 3, 1000⟩

theorem threePerSecond_open_iff :
    (∀ before later, [0, 400, 900, 1100] = before ++ later → FixedWindow.EndsInBurst 1000 3 before →
      threePerSecond.Open (threePerSecond.recordFailures {} before)) ↔
    ∀ pre burst later, [0, 400, 900, 1100] = pre ++ burst ++ later → FixedWindow.FirstBurst 1000 3 pre burst →
      FixedWindow.Unbroken (FixedWindow.windowEnd 1000 none pre) burst ∨
        FixedWindow.FillsUp 3 none (pre ++ burst) :=
  CountingBreaker.open_on_bursts_iff (b := threePerSecond) (s := {}) (by decide) (by decide) (by decide)
    (.inl rfl) (by decide)

/-- Three failures within 300 ms, the first of them at the end of a window. -/
theorem straddling_burst_missed : ∃ (b : CountingBreaker) (times before later : List ℤ),
    1 ≤ b.threshold ∧ 0 < b.windowMs ∧ 1000 ∣ b.windowMs ∧ times.Pairwise (· ≤ ·) ∧
      times = before ++ later ∧ FixedWindow.EndsInBurst b.windowMs b.threshold before ∧
      ¬ b.Open (b.recordFailures {} before) := by
  refine ⟨threePerSecond, [0, 900, 1100, 1200], _, [], by decide, by decide, by decide, by decide,
    (List.append_nil _).symm, ⟨[0], [900, 1100, 1200], rfl, by decide⟩, ?_⟩
  unfold CountingBreaker.Open
  decide +kernel

end SuperAi.Risk
