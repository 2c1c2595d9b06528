import SuperAi.Confirmation.PayloadIntegrity
import SuperAi.Foundations.SingleUse
import SuperAi.Foundations.StepSystem

/-! # Concurrent submissions of one challenge (`confirmation/approval.flow.ts`)

Each access of `submitApproval` to Redis is a step of its own, and between two of them other calls
take theirs. The checks come to one verdict per call at the reading of the record; the record is
deleted one step later. At most one call is approved as long as no call passes its checks while
another one that did has still to delete the record (`approvals_le_one`).
-/
namespace SuperAi.Confirmation
open SuperAi.Foundations SuperAi.Audit
set_option autoImplicit false

/-- Where a call is: before the access to Redis that the name tells, or past the last one. -/
inductive SubmitPhase
  | readMarker
  | readChallenge
  | dropExpired
  | delete (challenge : JsonValue)
  | mark (challenge : JsonValue)
  | finished (result : Except SubmitError ApprovedAction)
  | failed

structure SubmitCall where
  userId : String
  signedApproval : String
  phase : SubmitPhase

structure Submissions where
  redis : Redis
  calls : List SubmitCall

/-- A call starts, takes one step, or loses its connection to Redis; or a key reaches its expiry. -/
inductive SubmitStep
  | submit (userId signedApproval : String)
  | readMarker (i : ℕ)
  | readChallenge (i : ℕ) (now : ℤ)
  | dropExpired (i : ℕ)
  | delete (i : ℕ)
  | mark (i : ℕ) (approvedAt : String)
  | fails (i : ℕ)
  | expires (key : String)

namespace Submissions

def setPhase (s : Submissions) (i : ℕ) (call : SubmitCall) (phase : SubmitPhase) : Submissions :=
  { s with calls := s.calls.set i { call with phase := phase } }

section
variable (flow : ApprovalFlow) (challengeId : String)

def verdict (call : SubmitCall) (now : ℤ) (raw : Option (List Char)) : SubmitPhase :=
  match flow.examine challengeId call.userId call.signedApproval now raw with
  | .throws error => .finished (.error error)
  | .expired => .dropExpired
  | .passes challenge => .delete challenge

def step (s : Submissions) : SubmitStep → Option Submissions
  | .submit userId signedApproval =>
    some { s with calls := s.calls ++ [⟨userId, signedApproval, .readMarker⟩] }
  | .readMarker i => do
    let call ← s.calls[i]?
    match call.phase with
    | .readMarker =>
      if (s.redis.get (consumedKey challengeId)).isSome then
        some (s.setPhase i call (.finished (.error (.ConfirmationReplayError challengeId))))
      else some (s.setPhase i call .readChallenge)
    | _ => none
  | .readChallenge i now => do
    let call ← s.calls[i]?
    match call.phase with
    | .readChallenge =>
      some (s.setPhase i call (verdict flow challengeId call now (s.redis.get (challengeKey challengeId))))
    | _ => none
  | .dropExpired i => do
    let call ← s.calls[i]?
    match call.phase with
    | .dropExpired =>
      some { s.setPhase i call (.finished (.error (.ConfirmationExpiredError challengeId))) with
        redis := s.redis.del (challengeKey challengeId) }
    | _ => none
  | .delete i => do
    let call ← s.calls[i]?
    match call.phase with
    | .delete challenge =>
      some { s.setPhase i call (.mark challenge) with redis := s.redis.del (challengeKey challengeId) }
    | _ => none
  | .mark i approvedAt => do
    let call ← s.calls[i]?
    match call.phase with
    | .mark challenge =>
      some { s.setPhase i call
          (.finished (ApprovalFlow.approve challengeId call.userId approvedAt challenge)) with
        redis := s.redis.set (consumedKey challengeId) "consumed".toList }
    | _ => none
  | .fails i => do
    let call ← s.calls[i]?
    match call.phase with
    | .finished _ => none
    | .failed => none
    | _ => some (s.setPhase i call .failed)
  | .expires key => some { s with redis := s.redis.del key }

end
end Submissions

def submissions (flow : ApprovalFlow) (challengeId : String) : StepSystem Submissions SubmitStep :=
  ⟨Submissions.step flow challengeId⟩

/-! ## Calls that hold the challenge, and calls that have used it -/

namespace SubmitPhase

/-- The call has passed its checks, and the record is still to be deleted by it. -/
def holds : SubmitPhase → Bool
  | .delete _ => true
  | _ => false

def approved : SubmitPhase → Bool
  | .finished (.ok _) => true
  | _ => false

def used : SubmitPhase → Bool
  | .mark _ => true
  | phase => phase.approved

end SubmitPhase

def approvals (calls : List SubmitCall) : ℕ := calls.countP (·.phase.approved)

/-- No call passes its checks while another one that did has still to delete the record. -/
def Exclusively (flow : ApprovalFlow) (challengeId : String) (s : Submissions) : SubmitStep → Prop
  | .readChallenge i now => ∀ call, s.calls[i]? = some call →
      (∃ challenge, flow.Passes challengeId call.userId call.signedApproval now
        (s.redis.get (challengeKey challengeId)) challenge) →
      ∀ other ∈ s.calls, other.phase.holds = false
  | _ => True

/-- The record is there only as long as no call has used it, and at most one call holds it or has
used it. -/
def UsedOnce (challengeId : String) (s : Submissions) : Prop :=
  CallsUseOnce (fun call : SubmitCall => call.phase.holds) (fun call => call.phase.used)
    ((s.redis.get (challengeKey challengeId)).isSome = true) s.calls

section
variable {flow : ApprovalFlow} {challengeId : String} {s s' : Submissions}

theorem UsedOnce.readChallenge (h : UsedOnce challengeId s) {i : ℕ} {call : SubmitCall} {now : ℤ}
    (hguard : Exclusively flow challengeId s (.readChallenge i now)) (hcall : s.calls[i]? = some call)
    (hphase : call.phase = .readChallenge) :
    UsedOnce challengeId (s.setPhase i call
      (Submissions.verdict flow challengeId call now (s.redis.get (challengeKey challengeId)))) := by
  unfold Submissions.verdict
  split
  · exact h.ends hcall rfl rfl
  · exact h.ends hcall rfl rfl
  · rename_i challenge hexamine
    have hpasses := ApprovalFlow.examine_eq_passes.mp hexamine
    have hthere : (s.redis.get (challengeKey challengeId)).isSome := by
      cases hraw : s.redis.get (challengeKey challengeId) with
      | none => rw [hraw] at hpasses; cases hpasses.parsed
      | some raw => rfl
    exact h.takes hcall rfl (by rw [hphase]; rfl) hthere (hguard call hcall ⟨challenge, hpasses⟩)

theorem UsedOnce.mark (h : UsedOnce challengeId s) {i : ℕ} {call : SubmitCall} {challenge : JsonValue}
    (hcall : s.calls[i]? = some call) (hphase : call.phase = .mark challenge)
    (result : Except SubmitError ApprovedAction) :
    UsedOnce challengeId (s.setPhase i call (.finished result)) := by
  cases result with
  | error e => exact h.ends hcall rfl rfl
  | ok approved => exact h.moves hcall (by rw [hphase]; rfl) (by rw [hphase]; rfl)

theorem isSome_del {redis : Redis} {key key' : String} :
    ((redis.del key).get key').isSome → (redis.get key').isSome := by
  by_cases heq : key' = key
  · rw [heq, KeyValue.get_del_self]
    intro h
    cases h
  · rw [KeyValue.get_del_of_ne heq]
    exact id

theorem UsedOnce.step {e : SubmitStep} (h : UsedOnce challengeId s)
    (hguard : Exclusively flow challengeId s e) (hstep : (submissions flow challengeId).step s e = some s') :
    UsedOnce challengeId s' := by
  cases e with
  | submit userId signedApproval =>
    cases hstep
    exact h.start rfl rfl
  | readMarker i =>
    obtain ⟨call, hcall, hstep⟩ := Option.bind_eq_some_iff.mp hstep
    split at hstep
    · split at hstep
      · cases hstep
        exact h.ends hcall rfl rfl
      · cases hstep
        exact h.ends hcall rfl rfl
    · cases hstep
  | readChallenge i now =>
    obtain ⟨call, hcall, hstep⟩ := Option.bind_eq_some_iff.mp hstep
    split at hstep
    · rename_i hphase
      cases hstep
      exact h.readChallenge hguard hcall hphase
    · cases hstep
  | dropExpired i =>
    obtain ⟨call, hcall, hstep⟩ := Option.bind_eq_some_iff.mp hstep
    split at hstep
    · cases hstep
      exact (h.ends hcall rfl rfl).lose isSome_del
    · cases hstep
  | delete i =>
    obtain ⟨call, hcall, hstep⟩ := Option.bind_eq_some_iff.mp hstep
    split at hstep
    · rename_i challenge hphase
      cases hstep
      exact h.uses hcall (by rw [hphase]; rfl) (by rw [hphase]; rfl) rfl rfl (by simp)
    · cases hstep
  | mark i approvedAt =>
    obtain ⟨call, hcall, hstep⟩ := Option.bind_eq_some_iff.mp hstep
    split at hstep
    · rename_i challenge hphase
      cases hstep
      refine (h.mark hcall hphase _).lose fun hthere => ?_
      rwa [KeyValue.get_set_of_ne (consumedKey_ne_challengeKey _ _).symm] at hthere
    · cases hstep
  | fails i =>
    obtain ⟨call, hcall, hstep⟩ := Option.bind_eq_some_iff.mp hstep
    split at hstep
    · cases hstep
    · cases hstep
    · cases hstep
      exact h.ends hcall rfl rfl
  | expires key =>
    cases hstep
    exact h.lose isSome_del

/-- **Single use.** Whatever calls there are and however their steps interleave, at most one of them
is approved, if no call passes its checks while another one that did has still to delete the record. -/
theorem approvals_le_one {redis : Redis} {events : List SubmitStep}
    (h : (submissions flow challengeId).GuardedRun (Exclusively flow challengeId) ⟨redis, []⟩ events s) :
    approvals s.calls ≤ 1 := by
  have hused : UsedOnce challengeId s :=
    h.invariant (fun _ _ _ hs hguard hstep => hs.step hguard hstep) (CallsUseOnce.nil _)
  have happroved : approvals s.calls ≤ s.calls.countP fun call => call.phase.used := by
    refine List.countP_mono_left fun call _ happroved => ?_
    show call.phase.used = true
    have hphase : call.phase.approved = true := happroved
    cases hcase : call.phase with
    | finished result => rw [← hphase, hcase]; rfl
    | mark challenge => rfl
    | _ => rw [hcase] at hphase; cases hphase
  exact happroved.trans hused.used_le_one

end

/-! ## Two submissions of one approval -/

def twoCalls (userId signedApproval : String) (redis : Redis) (first second : SubmitPhase) : Submissions :=
  ⟨redis, [⟨userId, signedApproval, first⟩, ⟨userId, signedApproval, second⟩]⟩

def bothSubmit (userId signedApproval : String) : List SubmitStep :=
  [.submit userId signedApproval, .submit userId signedApproval, .readMarker 0, .readMarker 1]

/-- Both calls read the record before either of them deletes it. -/
def overlapping (now : ℤ) (approvedAt : String) : List SubmitStep :=
  [.readChallenge 0 now, .readChallenge 1 now, .delete 0, .delete 1, .mark 0 approvedAt,
    .mark 1 approvedAt]

/-- The second call reads the record after the first has deleted it. -/
def secondTooLate (now : ℤ) (approvedAt : String) : List SubmitStep :=
  [.readChallenge 0 now, .delete 0, .readChallenge 1 now, .mark 0 approvedAt]

section
variable {flow : ApprovalFlow} {challengeId userId signedApproval : String} {now : ℤ} {redis : Redis}
  {challenge : JsonValue}

theorem guardedRun_bothSubmit (hmarker : redis.get (consumedKey challengeId) = none) :
    (submissions flow challengeId).GuardedRun (Exclusively flow challengeId) ⟨redis, []⟩
      (bothSubmit userId signedApproval)
      (twoCalls userId signedApproval redis .readChallenge .readChallenge) := by
  have hfirst : (submissions flow challengeId).step
      (twoCalls userId signedApproval redis .readMarker .readMarker) (.readMarker 0) =
      some (twoCalls userId signedApproval redis .readChallenge .readMarker) := by
    simp [submissions, Submissions.step, Submissions.setPhase, twoCalls, hmarker]
  have hsecond : (submissions flow challengeId).step
      (twoCalls userId signedApproval redis .readChallenge .readMarker) (.readMarker 1) =
      some (twoCalls userId signedApproval redis .readChallenge .readChallenge) := by
    simp [submissions, Submissions.step, Submissions.setPhase, twoCalls, hmarker]
  exact .cons trivial rfl (.cons trivial rfl (.cons trivial hfirst (.cons trivial hsecond (.nil _))))

theorem run_overlapping
    (hpasses : flow.examine challengeId userId signedApproval now (redis.get (challengeKey challengeId)) =
      .passes challenge) (approvedAt : String) :
    ∃ redis', (submissions flow challengeId).run
        (twoCalls userId signedApproval redis .readChallenge .readChallenge) (overlapping now approvedAt) =
      some (twoCalls userId signedApproval redis'
        (.finished (ApprovalFlow.approve challengeId userId approvedAt challenge))
        (.finished (ApprovalFlow.approve challengeId userId approvedAt challenge))) := by
  simp [overlapping, StepSystem.run, submissions, Submissions.step, Submissions.setPhase,
    Submissions.verdict, twoCalls, hpasses]

theorem guardedRun_secondTooLate
    (hpasses : flow.examine challengeId userId signedApproval now (redis.get (challengeKey challengeId)) =
      .passes challenge) (approvedAt : String) :
    ∃ redis', (submissions flow challengeId).GuardedRun (Exclusively flow challengeId)
      (twoCalls userId signedApproval redis .readChallenge .readChallenge) (secondTooLate now approvedAt)
      (twoCalls userId signedApproval redis'
        (.finished (ApprovalFlow.approve challengeId userId approvedAt challenge))
        (.finished (.error (.ConfirmationExpiredError challengeId)))) := by
  have hfirst : (submissions flow challengeId).step
      (twoCalls userId signedApproval redis .readChallenge .readChallenge) (.readChallenge 0 now) =
      some (twoCalls userId signedApproval redis (.delete challenge) .readChallenge) := by
    simp [submissions, Submissions.step, Submissions.setPhase, Submissions.verdict, twoCalls, hpasses]
  have hsecond : (submissions flow challengeId).step
      (twoCalls userId signedApproval (redis.del (challengeKey challengeId)) (.mark challenge)
        .readChallenge) (.readChallenge 1 now) =
      some (twoCalls userId signedApproval (redis.del (challengeKey challengeId)) (.mark challenge)
        (.finished (.error (.ConfirmationExpiredError challengeId)))) := by
    simp [submissions, Submissions.step, Submissions.setPhase, Submissions.verdict, twoCalls,
      ApprovalFlow.examine]
  refine ⟨_, .cons ?_ hfirst (.cons trivial rfl (.cons ?_ hsecond (.cons trivial rfl (.nil _))))⟩
  · intro _ _ _
    simp [twoCalls, SubmitPhase.holds]
  · intro _ _ _
    simp [twoCalls, Submissions.setPhase, SubmitPhase.holds]

end

/-- Of two overlapping submissions of the test challenge one is approved. -/
theorem secondTooLate_approvals :
    ∃ s, (submissions testFlow testChallengeId).run ⟨testRedis "BTC-USDT", []⟩
        (bothSubmit "user-1" (testFlow.computeApprovalSignature testChallengeId "user-1") ++
          secondTooLate 1775988060000 "2026-04-12T10:01:00.000Z") = some s ∧ approvals s.calls ≤ 1 := by
  obtain ⟨hmarker, hpasses⟩ := testChallenge_accepted "BTC-USDT"
  obtain ⟨redis', hrest⟩ := guardedRun_secondTooLate (ApprovalFlow.examine_eq_passes.mpr hpasses)
    "2026-04-12T10:01:00.000Z"
  have hrun := (guardedRun_bothSubmit hmarker).append hrest
  exact ⟨_, hrun.run, approvals_le_one hrun⟩

/-- Two overlapping submissions of the test challenge are both approved. -/
theorem overlapping_approvals :
    ¬ ∀ (events : List SubmitStep) (s : Submissions),
      (submissions testFlow testChallengeId).run ⟨testRedis "BTC-USDT", []⟩ events = some s →
        approvals s.calls ≤ 1 := by
  intro hclaim
  obtain ⟨hmarker, hpasses⟩ := testChallenge_accepted "BTC-USDT"
  obtain ⟨redis', hrest⟩ := run_overlapping (ApprovalFlow.examine_eq_passes.mpr hpasses)
    "2026-04-12T10:01:00.000Z"
  rw [testChallenge_approved] at hrest
  have hrun := (StepSystem.GuardedRun.of_run (guardedRun_bothSubmit hmarker).run).append
    (StepSystem.GuardedRun.of_run hrest)
  have htwo := hclaim _ _ hrun.run
  simp [twoCalls, approvals, SubmitPhase.approved] at htwo

end SuperAi.Confirmation
