import Mathlib.Data.Int.Notation
import Mathlib.Data.List.Basic
import SuperAi.Foundations.StepSystem

/-! # The circuit breaker of the API (`common/circuit-breaker.ts`)

`exec` runs from one `await` to the next: a call enters, its `fn` is in flight, and later it succeeds or fails, in
whatever state the breaker is by then. A success clears the count of failures only if it finds the breaker half open,
and every call that finds it half open is let through. So the breaker counts consecutive failures and probes once in
the runs in which no success comes between counted failures and no second probe is started (`law_of_guardedRun`). Log
lines are left out.
-/
namespace SuperAi.Common
open SuperAi.Foundations
set_option autoImplicit false

inductive CircuitState
  | CLOSED
  | OPEN
  | HALF_OPEN
  deriving DecidableEq, Repr

structure CircuitBreaker where
  name : String
  threshold : ℕ := 5
  resetMs : ℤ := 30000
  state : CircuitState := .CLOSED
  failures : ℕ := 0
  lastFailure : ℤ := 0

/-- How `exec` ends, other than with what `fn` returns or throws. -/
inductive ExecAnswer
  | fallback
  | open (message : String)
  | result
  | error
  deriving DecidableEq, Repr

namespace CircuitBreaker

/-- The part of `exec` before `fn` is called: the answer of a call that is turned away, or the breaker under which `fn`
is started. -/
def enter (b : CircuitBreaker) (now : ℤ) (fallback : Bool) : ExecAnswer ⊕ CircuitBreaker :=
  if b.state = .OPEN then
    if b.resetMs < now - b.lastFailure then .inr { b with state := .HALF_OPEN }
    else if fallback then .inl .fallback
    else .inl (.open (b.name ++ " circuit breaker is OPEN"))
  else .inr b

def succeed (b : CircuitBreaker) : CircuitBreaker :=
  if b.state = .HALF_OPEN then { b with state := .CLOSED, failures := 0 } else b

def fail (b : CircuitBreaker) (now : ℤ) : CircuitBreaker :=
  { b with
    failures := b.failures + 1
    lastFailure := now
    state := if b.threshold ≤ b.failures + 1 then .OPEN else b.state }

end CircuitBreaker

/-! ## Overlapping calls -/

/-- A call whose `fn` is in flight; a probe has been started half open. -/
structure CallInFlight where
  probe : Bool
  fallback : Bool
  deriving DecidableEq, Repr

/-- The end of an `fn`. -/
structure Completion where
  failed : Bool
  time : ℤ
  deriving DecidableEq, Repr

/-- A breaker, what is in flight, and what has completed, the last one first. -/
structure BreakerCalls where
  breaker : CircuitBreaker
  inFlight : List CallInFlight := []
  completions : List Completion := []
  answers : List ExecAnswer := []

inductive BreakerCallEvent
  | exec (now : ℤ) (fallback : Bool)
  /-- The `fn` of one of the calls in flight ends. -/
  | complete (call : ℕ) (failed : Bool) (now : ℤ)

namespace BreakerCalls

def step (s : BreakerCalls) : BreakerCallEvent → Option BreakerCalls
  | .exec now fallback =>
    match s.breaker.enter now fallback with
    | .inl answer => some { s with answers := s.answers ++ [answer] }
    | .inr breaker =>
      some
        { s with
          breaker
          inFlight := s.inFlight ++ [⟨decide (breaker.state = .HALF_OPEN), fallback⟩] }
  | .complete i failed now =>
    match s.inFlight[i]? with
    | none => none
    | some call =>
      let breaker := if failed then s.breaker.fail now else s.breaker.succeed
      let answer :=
        if !failed then .result else if call.fallback ∧ breaker.state = .OPEN then .fallback else .error
      some
        { breaker
          inFlight := s.inFlight.eraseIdx i
          completions := ⟨failed, now⟩ :: s.completions
          answers := s.answers ++ [answer] }

def probes (s : BreakerCalls) : ℕ := s.inFlight.countP CallInFlight.probe

end BreakerCalls

def breakerCalls : StepSystem BreakerCalls BreakerCallEvent := ⟨BreakerCalls.step⟩

def BreakerCalls.new (b : CircuitBreaker) : BreakerCalls :=
  { breaker := { b with state := .CLOSED, failures := 0, lastFailure := 0 } }

/-! ## The law -/

/-- Of one step: the breaker trips on consecutive failures, an open one starts no `fn` before its time, and half open
there is one probe. -/
structure BreakerLaw (s s' : BreakerCalls) (e : BreakerCallEvent) : Prop where
  trips : s.breaker.state = .CLOSED → s'.breaker.state = .OPEN →
    s.breaker.threshold ≤ s'.completions.length ∧ ∀ c ∈ s'.completions.take s.breaker.threshold, c.failed = true
  waits : s.breaker.state = .OPEN → s.inFlight.length < s'.inFlight.length →
    ∃ now fallback last, e = .exec now fallback ∧ s.completions.find? Completion.failed = some last ∧
      s.breaker.resetMs < now - last.time
  probesOnce : s'.breaker.state = .HALF_OPEN → s'.probes ≤ 1

/-- No call succeeds in a closed breaker that has counted failures, and no probe is started beside another. -/
def SingleProbe (s : BreakerCalls) : BreakerCallEvent → Prop
  | .exec now fallback =>
    match s.breaker.enter now fallback with
    | .inl _ => True
    | .inr breaker => breaker.state = .HALF_OPEN → s.probes = 0
  | .complete _ failed _ => failed = false → s.breaker.state = .CLOSED → s.breaker.failures = 0

/-! ## One step -/

section Step
variable {s s' : BreakerCalls} {e : BreakerCallEvent}

theorem enter_inl {b : CircuitBreaker} {now : ℤ} {fallback : Bool} {answer : ExecAnswer}
    (h : b.enter now fallback = .inl answer) : b.state = .OPEN := by
  unfold CircuitBreaker.enter at h
  by_cases hopen : b.state = .OPEN
  · exact hopen
  · simp [hopen] at h

/-- What lets a call in: the breaker as it is, or an open one whose time has passed. -/
theorem enter_inr {b b' : CircuitBreaker} {now : ℤ} {fallback : Bool} (h : b.enter now fallback = .inr b') :
    b.state ≠ .OPEN ∧ b' = b ∨
    b.state = .OPEN ∧ b.resetMs < now - b.lastFailure ∧ b' = { b with state := .HALF_OPEN } := by
  unfold CircuitBreaker.enter at h
  by_cases hopen : b.state = .OPEN
  · right
    rw [if_pos hopen] at h
    split_ifs at h with hdue
    exact ⟨hopen, hdue, (Sum.inr.inj h).symm⟩
  · left
    rw [if_neg hopen] at h
    exact ⟨hopen, (Sum.inr.inj h).symm⟩

theorem step_cases (h : s.step e = some s') :
    (∃ answer, s.breaker.state = .OPEN ∧ s' = { s with answers := s.answers ++ [answer] }) ∨
    (∃ now fallback breaker, e = .exec now fallback ∧ s.breaker.enter now fallback = .inr breaker ∧ s' =
      { s with
        breaker
        inFlight := s.inFlight ++ [⟨decide (breaker.state = .HALF_OPEN), fallback⟩] }) ∨
    ∃ i failed now answer, e = .complete i failed now ∧ i < s.inFlight.length ∧ s' =
      { breaker := if failed then s.breaker.fail now else s.breaker.succeed
        inFlight := s.inFlight.eraseIdx i
        completions := ⟨failed, now⟩ :: s.completions
        answers := s.answers ++ [answer] } := by
  cases e with
  | exec now fallback =>
    cases henter : s.breaker.enter now fallback with
    | inl answer =>
      left
      simp only [BreakerCalls.step, henter] at h
      exact ⟨answer, enter_inl henter, (Option.some.inj h).symm⟩
    | inr breaker =>
      right
      left
      simp only [BreakerCalls.step, henter] at h
      exact ⟨now, fallback, breaker, rfl, henter, (Option.some.inj h).symm⟩
  | complete i failed now =>
    right
    right
    cases hcall : s.inFlight[i]? with
    | none => simp [BreakerCalls.step, hcall] at h
    | some call =>
      simp only [BreakerCalls.step, hcall] at h
      obtain ⟨hlt, -⟩ := List.getElem?_eq_some_iff.mp hcall
      exact ⟨i, failed, now, _, rfl, hlt, (Option.some.inj h).symm⟩

/-! ## The invariant -/

/-- The failures that a closed breaker has counted are the last completions, an open one has kept the time of the last
failure, and there is one probe in flight at most. -/
structure CountsLast (s : BreakerCalls) : Prop where
  counted : s.breaker.state = .CLOSED → s.breaker.failures ≤ s.completions.length ∧
    ∀ c ∈ s.completions.take s.breaker.failures, c.failed = true
  opened : s.breaker.state = .OPEN →
    ∃ last, s.completions.find? Completion.failed = some last ∧ last.time = s.breaker.lastFailure
  probes : s.probes ≤ 1

theorem probes_eraseIdx_le (s : BreakerCalls) (i : ℕ) :
    (s.inFlight.eraseIdx i).countP CallInFlight.probe ≤ s.probes :=
  (List.eraseIdx_sublist s.inFlight i).countP_le

theorem CountsLast.enter (h : CountsLast s) {now : ℤ} {fallback : Bool} (hguard : SingleProbe s (.exec now fallback))
    {breaker : CircuitBreaker} (henter : s.breaker.enter now fallback = .inr breaker) :
    CountsLast
      { s with
        breaker
        inFlight := s.inFlight ++ [⟨decide (breaker.state = .HALF_OPEN), fallback⟩] } := by
  have hprobes : (s.inFlight ++ [CallInFlight.mk (decide (breaker.state = .HALF_OPEN)) fallback]).countP
      CallInFlight.probe ≤ 1 := by
    have hone := h.probes
    simp only [SingleProbe, henter] at hguard
    rw [List.countP_append]
    by_cases hhalf : breaker.state = .HALF_OPEN
    · have hnone := hguard hhalf
      unfold BreakerCalls.probes at hnone
      rw [hnone, List.countP_singleton]
      split <;> omega
    · simpa [hhalf, BreakerCalls.probes] using hone
  obtain ⟨hclosed, rfl⟩ | ⟨-, -, rfl⟩ := enter_inr henter
  · exact ⟨h.counted, h.opened, hprobes⟩
  · exact ⟨fun hstate => CircuitState.noConfusion hstate, fun hstate => CircuitState.noConfusion hstate, hprobes⟩

theorem CountsLast.succeed (h : CountsLast s) {i : ℕ} {now : ℤ} (hguard : SingleProbe s (.complete i false now))
    (answers : List ExecAnswer) :
    CountsLast
      { breaker := s.breaker.succeed
        inFlight := s.inFlight.eraseIdx i
        completions := ⟨false, now⟩ :: s.completions
        answers } := by
  have hprobes := Nat.le_trans (probes_eraseIdx_le s i) h.probes
  unfold CircuitBreaker.succeed
  by_cases hhalf : s.breaker.state = .HALF_OPEN
  · rw [if_pos hhalf]
    exact ⟨fun _ => And.intro (Nat.zero_le _) (by simp), fun hstate => CircuitState.noConfusion hstate, hprobes⟩
  · rw [if_neg hhalf]
    refine ⟨fun hstate => ?_, fun hstate => h.opened hstate, hprobes⟩
    have hzero : s.breaker.failures = 0 := hguard rfl hstate
    rw [hzero]
    exact ⟨Nat.zero_le _, by simp⟩

theorem CountsLast.fail (h : CountsLast s) (i : ℕ) (now : ℤ) (answers : List ExecAnswer) :
    CountsLast
      { breaker := s.breaker.fail now
        inFlight := s.inFlight.eraseIdx i
        completions := ⟨true, now⟩ :: s.completions
        answers } := by
  refine ⟨fun hstate => ?_, fun _ => ⟨Completion.mk true now, rfl, rfl⟩, Nat.le_trans (probes_eraseIdx_le s i) h.probes⟩
  have hclosed : s.breaker.state = .CLOSED := by
    simp only [CircuitBreaker.fail] at hstate
    split_ifs at hstate
    exact hstate
  obtain ⟨hcount, hfailed⟩ := h.counted hclosed
  constructor
  · exact Nat.succ_le_succ hcount
  · change ∀ c ∈ (Completion.mk true now :: s.completions).take (s.breaker.failures + 1), c.failed = true
    rw [List.take_succ_cons, List.forall_mem_cons]
    exact ⟨rfl, hfailed⟩

theorem CountsLast.step (h : CountsLast s) (hguard : SingleProbe s e) (hstep : s.step e = some s') :
    CountsLast s' := by
  obtain ⟨answer, -, rfl⟩ | ⟨now, fallback, breaker, rfl, henter, rfl⟩ | ⟨i, failed, now, answer, rfl, -, rfl⟩ :=
    step_cases hstep
  · exact ⟨h.counted, h.opened, h.probes⟩
  · exact h.enter hguard henter
  · cases failed with
    | false => exact h.succeed hguard _
    | true => exact h.fail i now _

theorem CountsLast.initial (b : CircuitBreaker) : CountsLast (.new b) :=
  ⟨fun _ => ⟨Nat.zero_le _, fun _ hc => absurd hc List.not_mem_nil⟩, fun hstate => CircuitState.noConfusion hstate,
    Nat.zero_le _⟩

theorem CountsLast.trips (h : CountsLast s) (hstep : s.step e = some s') (hclosed : s.breaker.state = .CLOSED)
    (hopen : s'.breaker.state = .OPEN) :
    s.breaker.threshold ≤ s'.completions.length ∧
      ∀ c ∈ s'.completions.take s.breaker.threshold, c.failed = true := by
  obtain ⟨answer, hstate, -⟩ | ⟨now, fallback, breaker, -, henter, rfl⟩ | ⟨i, failed, now, answer, rfl, -, rfl⟩ :=
    step_cases hstep
  · rw [hclosed] at hstate
    cases hstate
  · obtain ⟨hstate, rfl⟩ | ⟨hstate, -⟩ := enter_inr henter
    · exact absurd hopen hstate
    · rw [hclosed] at hstate
      cases hstate
  · cases failed with
    | false =>
      simp [CircuitBreaker.succeed, hclosed] at hopen
    | true =>
      have htripped : s.breaker.threshold ≤ s.breaker.failures + 1 := by
        by_contra hless
        simp [CircuitBreaker.fail, hless, hclosed] at hopen
      obtain ⟨hcount, hfailed⟩ := h.counted hclosed
      constructor
      · exact Nat.le_trans htripped (Nat.succ_le_succ hcount)
      · intro c hc
        have hcounted : c ∈ (Completion.mk true now :: s.completions).take (s.breaker.failures + 1) :=
          (List.take_subset_take_left _ htripped) hc
        rw [List.take_succ_cons] at hcounted
        obtain rfl | hc := List.mem_cons.mp hcounted
        · rfl
        · exact hfailed c hc

theorem CountsLast.waits (h : CountsLast s) (hstep : s.step e = some s') (hopen : s.breaker.state = .OPEN)
    (hstarted : s.inFlight.length < s'.inFlight.length) :
    ∃ now fallback last, e = .exec now fallback ∧ s.completions.find? Completion.failed = some last ∧
      s.breaker.resetMs < now - last.time := by
  obtain ⟨answer, -, rfl⟩ | ⟨now, fallback, breaker, rfl, henter, rfl⟩ | ⟨i, failed, now, answer, -, hlt, rfl⟩ :=
    step_cases hstep
  · exact absurd hstarted (Nat.lt_irrefl _)
  · obtain ⟨hstate, -⟩ | ⟨-, hdue, -⟩ := enter_inr henter
    · exact absurd hopen hstate
    · obtain ⟨last, hlast, htime⟩ := h.opened hopen
      exact ⟨now, fallback, last, rfl, hlast, htime ▸ hdue⟩
  · have hshorter : (s.inFlight.eraseIdx i).length ≤ s.inFlight.length := (List.eraseIdx_sublist _ _).length_le
    exact absurd hstarted (Nat.not_lt.mpr hshorter)

end Step

/-! ## Runs -/

/-- Each step of a run keeps the law, if no success comes between failures that are counted and no probe is started
beside another. -/
theorem law_of_guardedRun {b : CircuitBreaker} {es : List BreakerCallEvent} {s s' : BreakerCalls}
    {e : BreakerCallEvent} (h : breakerCalls.GuardedRun SingleProbe (.new b) es s) (hguard : SingleProbe s e)
    (hstep : breakerCalls.step s e = some s') : BreakerLaw s s' e := by
  have hcounts : CountsLast s := h.invariant (fun _ _ _ h hguard hstep => h.step hguard hstep) (.initial b)
  exact ⟨hcounts.trips hstep, hcounts.waits hstep, fun _ => (hcounts.step hguard hstep).probes⟩

/-! ## Three histories -/

instance (s : BreakerCalls) (e : BreakerCallEvent) : Decidable (SingleProbe s e) :=
  match e with
  | .exec now fallback =>
    match h : s.breaker.enter now fallback with
    | .inl _ => .isTrue (by simp [SingleProbe, h])
    | .inr breaker => decidable_of_iff (breaker.state = .HALF_OPEN → s.probes = 0) (by simp [SingleProbe, h])
  | .complete _ failed _ =>
    inferInstanceAs (Decidable (failed = false → s.breaker.state = .CLOSED → s.breaker.failures = 0))

/-- Open after two failures, for a second. -/
def sampleBreaker : CircuitBreaker := { name := "Jupiter", threshold := 2, resetMs := 1000 }

def failOnce (now : ℤ) : List BreakerCallEvent := [.exec now false, .complete 0 true now]

/-- Two failures, and a call that is turned away. -/
def trippedCalls : List BreakerCallEvent := failOnce 1 ++ (failOnce 2 ++ [.exec 500 true])

theorem trippedCalls_law : ∃ s s', breakerCalls.run (.new sampleBreaker) trippedCalls = some s ∧
    breakerCalls.step s (.exec 2000 true) = some s' ∧ BreakerLaw s s' (.exec 2000 true) := by
  have hsome : (breakerCalls.guardedRun SingleProbe (.new sampleBreaker) trippedCalls).any (fun s =>
      decide (SingleProbe s (.exec 2000 true)) && (s.step (.exec 2000 true)).isSome) = true := by decide +kernel
  obtain ⟨s, hs, hnext⟩ := (Option.any_eq_true _ _).mp hsome
  obtain ⟨hguard, hstep⟩ := (Bool.and_eq_true _ _).mp hnext
  obtain ⟨s', hs'⟩ := Option.isSome_iff_exists.mp hstep
  have hguarded := StepSystem.GuardedRun.of_guardedRun hs
  exact ⟨s, s', hguarded.run, hs', law_of_guardedRun hguarded (of_decide_eq_true hguard) hs'⟩

/-- A success between the two failures. -/
def interruptedFailures : List BreakerCallEvent :=
  failOnce 1 ++ [.exec 2 false, .complete 0 false 2, .exec 3 false]

/-- A call that finds the breaker open, past its time. -/
def secondProbe : List BreakerCallEvent := trippedCalls ++ [.exec 2000 false]

theorem step_of_any (b : CircuitBreaker) (es : List BreakerCallEvent) (e : BreakerCallEvent)
    (p : BreakerCalls → BreakerCalls → Bool)
    (h : (breakerCalls.run (.new b) es).any (fun s => (breakerCalls.step s e).any (p s)) = true) :
    ∃ s s', breakerCalls.run (.new b) es = some s ∧ breakerCalls.step s e = some s' ∧ p s s' = true := by
  obtain ⟨s, hs, hnext⟩ := (Option.any_eq_true _ _).mp h
  obtain ⟨s', hs', hp⟩ := (Option.any_eq_true _ _).mp hnext
  exact ⟨s, s', hs, hs', hp⟩

/-- The breaker opens on a failure that a success comes before, and two probes are in flight. -/
theorem breaker_calls_overlap :
    (¬ ∀ (b : CircuitBreaker) (es : List BreakerCallEvent) (s s' : BreakerCalls) (e : BreakerCallEvent),
      1 ≤ b.threshold → breakerCalls.run (.new b) es = some s → breakerCalls.step s e = some s' →
      s.breaker.state = .CLOSED → s'.breaker.state = .OPEN →
      ∀ c ∈ s'.completions.take s.breaker.threshold, c.failed = true) ∧
    ¬ ∀ (b : CircuitBreaker) (es : List BreakerCallEvent) (s s' : BreakerCalls) (e : BreakerCallEvent),
      1 ≤ b.threshold → breakerCalls.run (.new b) es = some s → breakerCalls.step s e = some s' →
      s'.breaker.state = .HALF_OPEN → s'.probes ≤ 1 := by
  constructor
  · intro h
    obtain ⟨s, s', hs, hs', hp⟩ := step_of_any sampleBreaker interruptedFailures (.complete 0 true 3)
      (fun s s' => decide (s.breaker.state = .CLOSED ∧ s'.breaker.state = .OPEN ∧
        ⟨false, 2⟩ ∈ s'.completions.take s.breaker.threshold)) (by decide +kernel)
    obtain ⟨hclosed, hopen, hmem⟩ := of_decide_eq_true hp
    exact Bool.noConfusion (h sampleBreaker _ s s' _ (by decide) hs hs' hclosed hopen _ hmem)
  · intro h
    obtain ⟨s, s', hs, hs', hp⟩ := step_of_any sampleBreaker secondProbe (.exec 2001 false)
      (fun _ s' => decide (s'.breaker.state = .HALF_OPEN ∧ s'.probes = 2)) (by decide +kernel)
    obtain ⟨hhalf, htwo⟩ := of_decide_eq_true hp
    have hone := h sampleBreaker _ s s' _ (by decide) hs hs' hhalf
    omega

end SuperAi.Common
