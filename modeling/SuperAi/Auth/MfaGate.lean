import SuperAi.Audit.HmacChain
import SuperAi.Foundations.ExpiringStore
import SuperAi.Foundations.InTurn
import SuperAi.Foundations.Schema
import SuperAi.Foundations.StepSystem

/-! # One-time MFA (`auth/mfa.gate.ts`)

Calls of `generateChallenge` and `verifyResponse` for any users, one Redis command after another. A response reads
its challenge, checks the code when the secret has arrived, and deletes the challenge in a later command; that a
code has been used is recorded nowhere else. Each challenge lets one response through, and each code one challenge, in
every run in which no code passes its check after another one that it should have been barred by
(`oneTime_of_spentOnce`). Records are kept as the values whose JSON texts are stored. Log lines are left out.
-/
namespace SuperAi.Auth
open SuperAi.Foundations SuperAi.Audit
set_option autoImplicit false

structure MfaChallenge where
  challengeId : String
  userId : String
  action : String
  issuedAt : ℤ
  expiresAt : ℤ
  signature : String
  deriving DecidableEq, Repr

/-- `MfaChallengeSchema` -/
def MfaChallenge.valid (challenge : MfaChallenge) : Bool :=
  Schema.isUuid challenge.challengeId && challenge.userId != "" && challenge.action != "" &&
    decide (0 < challenge.issuedAt) && decide (0 < challenge.expiresAt) && challenge.signature != ""

/-- `Rejected` is what Redis or the secret store may throw. -/
inductive MfaError
  | AuthenticationError (message code : String)
  | ZodError
  | Rejected
  deriving DecidableEq, Repr

def MFA_CHALLENGE_PREFIX : String := "mfa:challenge:"

def MFA_CHALLENGE_EXPIRY_SECONDS : ℤ := 90

/-- The HMAC, the secret store and the code of a secret in a time step are parameters. -/
structure MfaGate where
  hmac : Hmac
  hmacChainSecret : String
  getTotpSecret : String → String
  totp : String → ℤ → String

abbrev MfaRedis := ExpiringStore String MfaChallenge

/-- The time step of a time in milliseconds. -/
def timeStep (time : ℤ) : ℤ := time / 30000

def challengeKey (challengeId : String) : String := MFA_CHALLENGE_PREFIX ++ challengeId

/-- What `verifyResponse` makes of what it has read. -/
inductive MfaExamination
  | throws (error : MfaError)
  | expired
  | passes (challenge : MfaChallenge)
  deriving DecidableEq, Repr

namespace MfaGate
variable (gate : MfaGate)

def signatureData (challengeId userId action : String) (issuedAt expiresAt : ℤ) : String :=
  challengeId ++ "|" ++ userId ++ "|" ++ action ++ "|" ++ toString issuedAt ++ "|" ++ toString expiresAt

def expectedSignature (challengeId userId action : String) (issuedAt expiresAt : ℤ) : String :=
  gate.hmac gate.hmacChainSecret (signatureData challengeId userId action issuedAt expiresAt)

/-- The challenge that `generateChallenge` stores. -/
def newChallenge (challengeId userId action : String) (time : ℤ) : MfaChallenge :=
  let now := time / 1000
  let expiresAt := now + MFA_CHALLENGE_EXPIRY_SECONDS
  { challengeId := challengeId
    userId := userId
    action := action
    issuedAt := now
    expiresAt := expiresAt
    signature := gate.expectedSignature challengeId userId action now expiresAt }

/-- The checks between the reading of the challenge and the reading of the secret. -/
def examine (userId : String) (time : ℤ) : Option MfaChallenge → MfaExamination
  | none => .throws (.AuthenticationError "MFA challenge not found or expired" "MFA_CODE_EXPIRED")
  | some challenge =>
    if challenge.valid = false then .throws .ZodError
    else if challenge.userId ≠ userId then
      .throws (.AuthenticationError "MFA challenge does not belong to this user" "MFA_CODE_INVALID")
    else if challenge.expiresAt < time / 1000 then .expired
    else if gate.expectedSignature challenge.challengeId challenge.userId challenge.action challenge.issuedAt
        challenge.expiresAt ≠ challenge.signature then
      .throws (.AuthenticationError "MFA challenge signature tampered" "MFA_CODE_INVALID")
    else .passes challenge

/-- `authenticator.check`, with the secret of the user. -/
def codeValid (userId totpCode : String) (time : ℤ) : Bool :=
  gate.totp (gate.getTotpSecret userId) (timeStep time) == totpCode

end MfaGate

/-! ## Calls -/

/-- What a response does next, or how it has ended. A code that has passed its check goes with its time step. -/
inductive MfaPhase
  | reading
  | checking
  | dropping
  | consuming (step : ℤ)
  | accepted (step : ℤ)
  | rejected (error : MfaError)
  deriving DecidableEq, Repr

structure MfaCall where
  challengeId : String
  totpCode : String
  userId : String
  phase : MfaPhase
  deriving DecidableEq, Repr

/-- A command of a response. The clock of the process is looked at after its answer. -/
inductive MfaCommand
  | get (time redisTime : ℤ)
  | check (time : ℤ)
  | del
  | fail
  deriving DecidableEq, Repr

structure MfaState where
  redis : MfaRedis := []
  generated : List String := []
  calls : List MfaCall := []

inductive MfaEvent
  | generateChallenge (challengeId userId action : String) (time redisTime : ℤ)
  | verifyResponse (challengeId totpCode userId : String)
  | command (call : ℕ) (command : MfaCommand)
  deriving DecidableEq, Repr

namespace MfaCall

def advance (gate : MfaGate) (redis : MfaRedis) (call : MfaCall) : MfaCommand → Option (MfaRedis × MfaPhase)
  | .get time redisTime =>
    match call.phase with
    | .reading =>
      match gate.examine call.userId time (redis.read redisTime (challengeKey call.challengeId)) with
      | .throws error => some (redis, .rejected error)
      | .expired => some (redis, .dropping)
      | .passes _ => some (redis, .checking)
    | _ => none
  | .check time =>
    match call.phase with
    | .checking =>
      if gate.codeValid call.userId call.totpCode time then some (redis, .consuming (timeStep time))
      else some (redis, .rejected (.AuthenticationError "Invalid TOTP code" "MFA_CODE_INVALID"))
    | _ => none
  | .del =>
    match call.phase with
    | .dropping =>
      some (KeyValue.del redis (challengeKey call.challengeId),
        .rejected (.AuthenticationError "MFA challenge has expired" "MFA_CODE_EXPIRED"))
    | .consuming step => some (KeyValue.del redis (challengeKey call.challengeId), .accepted step)
    | _ => none
  | .fail =>
    match call.phase with
    | .accepted _ | .rejected _ => none
    | _ => some (redis, .rejected .Rejected)

def running (call : MfaCall) : Bool :=
  match call.phase with
  | .accepted _ | .rejected _ => false
  | _ => true

/-- The time step in which the code has passed its check. -/
def passed (call : MfaCall) : Option ℤ :=
  match call.phase with
  | .consuming step | .accepted step => some step
  | _ => none

/-- The call has returned `true`, for a code of this time step. -/
def returnedTrue (call : MfaCall) : Option ℤ :=
  match call.phase with
  | .accepted step => some step
  | _ => none

theorem passed_of_returnedTrue {call : MfaCall} {step : ℤ} (h : call.returnedTrue = some step) :
    call.passed = some step := by
  unfold returnedTrue at h
  unfold passed
  cases hphase : call.phase with
  | accepted step => rwa [hphase] at h
  | _ =>
    rw [hphase] at h
    cases h

end MfaCall

/-- `randomUUID` does not repeat itself. -/
def mfaRuns (gate : MfaGate) : StepSystem MfaState MfaEvent where
  step s
    | .generateChallenge challengeId userId action time redisTime =>
      if challengeId ∈ s.generated then none
      else some
        { s with
          redis := s.redis.setex redisTime (1000 * MFA_CHALLENGE_EXPIRY_SECONDS) (challengeKey challengeId)
            (gate.newChallenge challengeId userId action time)
          generated := challengeId :: s.generated }
    | .verifyResponse challengeId totpCode userId =>
      some { s with calls := s.calls ++ [⟨challengeId, totpCode, userId, .reading⟩] }
    | .command i command =>
      (s.calls[i]?).bind fun call =>
        (call.advance gate s.redis command).map fun (redis, phase) =>
          { s with redis := redis, calls := s.calls.set i { call with phase := phase } }

/-- Each challenge has let at most one response through, and each code of a user, in its time step, at most one
challenge. -/
structure OneTime (s : MfaState) : Prop where
  challenge : ∀ challengeId,
    OneBusy (fun call : MfaCall => call.challengeId == challengeId && call.returnedTrue.isSome) s.calls
  code : ∀ call ∈ s.calls, ∀ other ∈ s.calls, ∀ step, call.returnedTrue = some step →
    other.returnedTrue = some step → call.userId = other.userId → call.totpCode = other.totpCode →
      call.challengeId = other.challengeId

/-- The code of a call that has passed its check bars that of another call now. -/
def MfaCall.Bars (other call : MfaCall) (time : ℤ) : Prop :=
  ∃ step ∈ other.passed, other.challengeId = call.challengeId ∨
    (other.userId = call.userId ∧ other.totpCode = call.totpCode ∧ step = timeStep time)

/-- No code passes its check when one for the same challenge has passed, since the challenge was read, or the
same code of the user for another challenge in the same time step. -/
def SpentOnce (gate : MfaGate) (s : MfaState) : MfaEvent → Prop
  | .command i (.check time) => ∀ call ∈ s.calls[i]?, gate.codeValid call.userId call.totpCode time = true →
      ∀ other ∈ s.calls, ¬ other.Bars call time
  | _ => True

/-! ## One command -/

section
variable {gate : MfaGate} {s t : MfaState}

theorem mfa_step_command {i : ℕ} {command : MfaCommand} (h : (mfaRuns gate).step s (.command i command) = some t) :
    ∃ call redis phase, s.calls[i]? = some call ∧ call.advance gate s.redis command = some (redis, phase) ∧
      t = { s with redis := redis, calls := s.calls.set i { call with phase := phase } } := by
  obtain ⟨call, hcall, hbind⟩ := Option.bind_eq_some_iff.mp h
  obtain ⟨⟨redis, phase⟩, hadvance, rfl⟩ := Option.map_eq_some_iff.mp hbind
  exact ⟨call, redis, phase, hcall, hadvance, rfl⟩

namespace MfaCall
variable {call : MfaCall} {redis redis' : MfaRedis} {phase : MfaPhase} {command : MfaCommand}

/-- A code passes its check now, or nothing passes that has not passed before. -/
theorem advance_passed (h : call.advance gate redis command = some (redis', phase)) :
    (∃ time, command = .check time ∧ gate.codeValid call.userId call.totpCode time = true ∧
        phase = .consuming (timeStep time)) ∨
      { call with phase := phase }.passed = none ∨ { call with phase := phase }.passed = call.passed := by
  unfold advance at h
  cases command with
  | check time =>
    cases hphase : call.phase with
    | checking =>
      simp only [hphase] at h
      by_cases hvalid : gate.codeValid call.userId call.totpCode time = true
      · rw [if_pos hvalid] at h
        obtain ⟨-, rfl⟩ := Prod.mk.inj (Option.some.inj h)
        exact .inl ⟨time, rfl, hvalid, rfl⟩
      · rw [if_neg hvalid] at h
        obtain ⟨-, rfl⟩ := Prod.mk.inj (Option.some.inj h)
        exact .inr (.inl rfl)
    | _ => simp [hphase] at h
  | get time redisTime => grind [passed]
  | del => grind [passed]
  | fail => grind [passed]

end MfaCall

/-! ## Runs -/

/-- The code of the call has passed its check, for this challenge. -/
def MfaCall.passedFor (challengeId : String) (call : MfaCall) : Bool :=
  call.challengeId == challengeId && call.passed.isSome

/-- The code of the call is this one of this user and has passed its check in this time step. -/
def MfaCall.passedWith (userId totpCode : String) (step : ℤ) (call : MfaCall) : Bool :=
  call.userId == userId && (call.totpCode == totpCode && call.passed == some step)

structure PassedOnce (s : MfaState) : Prop where
  challenge : ∀ challengeId, OneBusy (MfaCall.passedFor challengeId) s.calls
  code : ∀ userId totpCode step, OneBusy (MfaCall.passedWith userId totpCode step) s.calls

theorem PassedOnce.step (h : PassedOnce s) (e : MfaEvent) (hguard : SpentOnce gate s e)
    (hstep : (mfaRuns gate).step s e = some t) : PassedOnce t := by
  cases e with
  | generateChallenge challengeId userId action time redisTime =>
    obtain ⟨-, hs⟩ := Option.ite_none_left_eq_some.mp hstep
    obtain rfl := Option.some.inj hs
    exact ⟨h.challenge, h.code⟩
  | verifyResponse challengeId totpCode userId =>
    obtain rfl := Option.some.inj hstep
    constructor
    · intro id
      apply (h.challenge id).append
      simp [MfaCall.passedFor, MfaCall.passed]
    · intro user code step
      apply (h.code user code step).append
      simp [MfaCall.passedWith, MfaCall.passed]
  | command i command =>
    obtain ⟨call, redis, phase, hcall, hadvance, rfl⟩ := mfa_step_command hstep
    obtain ⟨time, rfl, hvalid, rfl⟩ | hnone | hsame := MfaCall.advance_passed hadvance
    · have hbars := hguard call hcall hvalid
      constructor
      · intro id
        refine (h.challenge id).set hcall fun hid => .inr fun other hother => ?_
        by_contra hpassed
        rw [Bool.not_eq_false, MfaCall.passedFor, Bool.and_eq_true, beq_iff_eq] at hpassed
        obtain ⟨step, hstep'⟩ := Option.isSome_iff_exists.mp hpassed.2
        have hsame : call.challengeId = id := by simpa [MfaCall.passedFor, MfaCall.passed] using hid
        exact hbars other hother ⟨step, hstep', .inl (hpassed.1.trans hsame.symm)⟩
      · intro user code step
        refine (h.code user code step).set hcall fun hcode => .inr fun other hother => ?_
        by_contra hpassed
        simp only [Bool.not_eq_false, MfaCall.passedWith, Bool.and_eq_true, beq_iff_eq] at hpassed
        simp only [MfaCall.passedWith, MfaCall.passed, Bool.and_eq_true, beq_iff_eq, Option.some.injEq] at hcode
        obtain ⟨rfl, rfl, rfl⟩ := hcode
        exact hbars other hother ⟨_, hpassed.2.2, .inr ⟨hpassed.1, hpassed.2.1, rfl⟩⟩
    · constructor
      · intro id
        refine (h.challenge id).set hcall fun hid => ?_
        simp [MfaCall.passedFor, hnone] at hid
      · intro user code step
        refine (h.code user code step).set hcall fun hcode => ?_
        simp [MfaCall.passedWith, hnone] at hcode
    · constructor
      · intro id
        refine (h.challenge id).set hcall fun hid => .inl ?_
        rwa [MfaCall.passedFor, hsame] at hid
      · intro user code step
        refine (h.code user code step).set hcall fun hcode => .inl ?_
        rwa [MfaCall.passedWith, hsame] at hcode

theorem PassedOnce.oneTime (h : PassedOnce s) : OneTime s := by
  constructor
  · intro id i j a b ha hb hbusy hbusy'
    have hpassed : ∀ call : MfaCall, (call.challengeId == id && call.returnedTrue.isSome) = true →
        call.passedFor id = true := by
      intro call htrue
      rw [Bool.and_eq_true] at htrue
      obtain ⟨step, hstep⟩ := Option.isSome_iff_exists.mp htrue.2
      rw [MfaCall.passedFor, MfaCall.passed_of_returnedTrue hstep, htrue.1]
      rfl
    exact h.challenge id i j a b ha hb (hpassed a hbusy) (hpassed b hbusy')
  · intro call hcall other hother step hstep hstep' huser hcode
    obtain ⟨i, hi⟩ := List.mem_iff_getElem?.mp hcall
    obtain ⟨j, hj⟩ := List.mem_iff_getElem?.mp hother
    have hfirst : call.passedWith call.userId call.totpCode step = true := by
      rw [MfaCall.passedWith, MfaCall.passed_of_returnedTrue hstep, beq_self_eq_true, beq_self_eq_true,
        beq_self_eq_true]
      rfl
    have hsecond : other.passedWith call.userId call.totpCode step = true := by
      rw [MfaCall.passedWith, MfaCall.passed_of_returnedTrue hstep', huser, hcode, beq_self_eq_true,
        beq_self_eq_true, beq_self_eq_true]
      rfl
    have hindex := h.code _ _ _ i j call other hi hj hfirst hsecond
    subst hindex
    obtain rfl := Option.some.inj (hi.symm.trans hj)
    rfl

/-- **One-time MFA.** However the commands of any number of calls interleave, if no code passes its check when it
is barred, each challenge lets at most one response through, and each code at most one challenge. -/
theorem oneTime_of_spentOnce {redis : MfaRedis} {generated : List String} {es : List MfaEvent}
    (h : (mfaRuns gate).GuardedRun (SpentOnce gate) ⟨redis, generated, []⟩ es t) : OneTime t := by
  have hpassed : PassedOnce t := by
    refine h.invariant (fun _ e _ hs hguard hstep => hs.step e hguard hstep) ⟨fun id => ?_, fun user code step => ?_⟩
    · exact .of_idle (by simp)
    · exact .of_idle (by simp)
  exact hpassed.oneTime

/-! ## Responses in turn -/

/-- A response to a challenge starts only when no other one to it is under way, and no code passes its check in a
time step in which it has passed one for another challenge of the user. -/
def ResponsesInTurn (gate : MfaGate) (s : MfaState) : MfaEvent → Prop
  | .verifyResponse challengeId _ _ => ∀ call ∈ s.calls, call.challengeId = challengeId → call.running = false
  | .command i (.check time) => ∀ call ∈ s.calls[i]?, gate.codeValid call.userId call.totpCode time = true →
      ∀ other ∈ s.calls, ¬ (other.passed = some (timeStep time) ∧ other.userId = call.userId ∧
        other.totpCode = call.totpCode ∧ other.challengeId ≠ call.challengeId)
  | _ => True

/-- The call has read its challenge and still believes it to be there. -/
def MfaCall.holdsChallenge (call : MfaCall) : Bool :=
  match call.phase with
  | .checking | .consuming _ => true
  | _ => false

/-- The challenge of a call that has returned `true` is gone for good. -/
structure ConsumedForGood (s : MfaState) : Prop where
  alone : ∀ challengeId, OneBusy (fun call : MfaCall => call.challengeId == challengeId && call.running) s.calls
  stored : ∀ challengeId, challengeId ∉ s.generated → s.redis.get (challengeKey challengeId) = none
  read : ∀ call ∈ s.calls, call.holdsChallenge = true → call.challengeId ∈ s.generated
  gone : ∀ call ∈ s.calls, ∀ step, call.returnedTrue = some step →
    call.challengeId ∈ s.generated ∧ s.redis.get (challengeKey call.challengeId) = none ∧
      ∀ other ∈ s.calls, other.challengeId = call.challengeId → other.holdsChallenge = false

theorem challengeKey_injective : Function.Injective challengeKey := fun _ _ h => (String.append_right_inj _).mp h

namespace MfaCall
variable {call : MfaCall} {redis redis' : MfaRedis} {phase : MfaPhase} {command : MfaCommand}

theorem running_of_advance (h : call.advance gate redis command = some (redis', phase)) : call.running = true := by
  unfold advance at h
  unfold running
  cases hphase : call.phase with
  | accepted step => cases command <;> simp [hphase] at h
  | rejected error => cases command <;> simp [hphase] at h
  | _ => rfl

theorem running_of_holdsChallenge (h : call.holdsChallenge = true) : call.running = true := by
  unfold holdsChallenge at h
  unfold running
  split at h
  · rename_i hphase
    rw [hphase]
  · rename_i step hphase
    rw [hphase]
  · cases h

/-- A command deletes the challenge and lets go of it, or leaves the store; who holds the challenge has read it. -/
theorem advance_holdsChallenge (h : call.advance gate redis command = some (redis', phase)) :
    (redis' = redis ∧ { call with phase := phase }.returnedTrue = none ∧
        ({ call with phase := phase }.holdsChallenge = true →
          call.holdsChallenge = true ∨ KeyValue.get redis (challengeKey call.challengeId) ≠ none)) ∨
      (redis' = KeyValue.del redis (challengeKey call.challengeId) ∧
        { call with phase := phase }.holdsChallenge = false ∧
        ({ call with phase := phase }.returnedTrue ≠ none → call.holdsChallenge = true)) := by
  unfold advance at h
  cases command with
  | get time redisTime =>
    left
    cases hphase : call.phase with
    | reading =>
      simp only [hphase] at h
      cases hread : redis.read redisTime (challengeKey call.challengeId) with
      | none =>
        simp only [hread, MfaGate.examine] at h
        obtain ⟨rfl, rfl⟩ := Prod.mk.inj (Option.some.inj h)
        simp [returnedTrue, holdsChallenge]
      | some challenge =>
        have hthere : KeyValue.get redis (challengeKey call.challengeId) ≠ none := by
          intro hnone
          simp [ExpiringStore.read, hnone] at hread
        rw [hread] at h
        cases hexamine : gate.examine call.userId time (some challenge) with
        | throws error =>
          simp only [hexamine] at h
          obtain ⟨rfl, rfl⟩ := Prod.mk.inj (Option.some.inj h)
          simp [returnedTrue, holdsChallenge]
        | expired =>
          simp only [hexamine] at h
          obtain ⟨rfl, rfl⟩ := Prod.mk.inj (Option.some.inj h)
          simp [returnedTrue, holdsChallenge]
        | passes challenge =>
          simp only [hexamine] at h
          obtain ⟨rfl, rfl⟩ := Prod.mk.inj (Option.some.inj h)
          exact ⟨rfl, rfl, fun _ => .inr hthere⟩
    | _ => simp [hphase] at h
  | check time =>
    left
    cases hphase : call.phase with
    | checking =>
      simp only [hphase] at h
      have hholds : call.holdsChallenge = true := by rw [holdsChallenge, hphase]
      by_cases hvalid : gate.codeValid call.userId call.totpCode time = true
      · rw [if_pos hvalid] at h
        obtain ⟨rfl, rfl⟩ := Prod.mk.inj (Option.some.inj h)
        exact ⟨rfl, rfl, fun _ => .inl hholds⟩
      · rw [if_neg hvalid] at h
        obtain ⟨rfl, rfl⟩ := Prod.mk.inj (Option.some.inj h)
        exact ⟨rfl, rfl, fun _ => .inl hholds⟩
    | _ => simp [hphase] at h
  | del =>
    right
    cases hphase : call.phase with
    | dropping =>
      simp only [hphase] at h
      obtain ⟨rfl, rfl⟩ := Prod.mk.inj (Option.some.inj h)
      simp [returnedTrue, holdsChallenge]
    | consuming step =>
      simp only [hphase] at h
      obtain ⟨rfl, rfl⟩ := Prod.mk.inj (Option.some.inj h)
      exact ⟨rfl, rfl, fun _ => by rw [holdsChallenge, hphase]⟩
    | _ => simp [hphase] at h
  | fail =>
    left
    cases hphase : call.phase with
    | accepted step => simp [hphase] at h
    | rejected error => simp [hphase] at h
    | _ =>
      simp only [hphase] at h
      obtain ⟨rfl, rfl⟩ := Prod.mk.inj (Option.some.inj h)
      simp [returnedTrue, holdsChallenge]

end MfaCall

theorem ConsumedForGood.generate (h : ConsumedForGood s) {challengeId : String} (hnew : challengeId ∉ s.generated)
    (redisTime ttl : ℤ) (challenge : MfaChallenge) :
    ConsumedForGood
      { s with
        redis := s.redis.setex redisTime ttl (challengeKey challengeId) challenge
        generated := challengeId :: s.generated } := by
  have hother : ∀ id, id ≠ challengeId → KeyValue.get
      (s.redis.setex redisTime ttl (challengeKey challengeId) challenge) (challengeKey id) =
        KeyValue.get s.redis (challengeKey id) := by
    intro id hne
    exact KeyValue.get_set_of_ne fun hkey => hne (challengeKey_injective hkey)
  constructor
  · exact h.alone
  · intro id hid
    rw [List.mem_cons, not_or] at hid
    exact (hother id hid.1).trans (h.stored id hid.2)
  · exact fun call hcall hholds => List.mem_cons_of_mem _ (h.read call hcall hholds)
  · intro call hcall step hstep
    obtain ⟨hgenerated, hgone, hnone⟩ := h.gone call hcall step hstep
    have hne : call.challengeId ≠ challengeId := fun heq => hnew (heq ▸ hgenerated)
    exact ⟨List.mem_cons_of_mem _ hgenerated, (hother _ hne).trans hgone, hnone⟩

theorem ConsumedForGood.start (h : ConsumedForGood s) {challengeId : String}
    (hidle : ∀ call ∈ s.calls, call.challengeId = challengeId → call.running = false) (totpCode userId : String) :
    ConsumedForGood { s with calls := s.calls ++ [⟨challengeId, totpCode, userId, .reading⟩] } := by
  constructor
  · intro id
    refine (h.alone id).append fun hnew other hother => ?_
    have hid : challengeId = id := by simpa [MfaCall.running] using hnew
    by_cases hsame : other.challengeId = id
    · rw [hidle other hother (hsame.trans hid.symm), Bool.and_false]
    · rw [beq_false_of_ne hsame, Bool.false_and]
  · exact h.stored
  · intro call hcall hholds
    obtain hold | hnew := List.mem_append.mp hcall
    · exact h.read call hold hholds
    · obtain rfl := List.mem_singleton.mp hnew
      cases hholds
  · intro call hcall step hstep
    obtain hold | hnew := List.mem_append.mp hcall
    · obtain ⟨hgenerated, hgone, hnone⟩ := h.gone call hold step hstep
      refine ⟨hgenerated, hgone, fun other hother hsame => ?_⟩
      obtain hold' | hnew' := List.mem_append.mp hother
      · exact hnone other hold' hsame
      · obtain rfl := List.mem_singleton.mp hnew'
        rfl
    · obtain rfl := List.mem_singleton.mp hnew
      cases hstep

/-- A command of a call that leaves the store. -/
theorem ConsumedForGood.leaves (h : ConsumedForGood s) {i : ℕ} {call : MfaCall} (hcall : s.calls[i]? = some call)
    (hrunning : call.running = true) {phase : MfaPhase} (hfalse : { call with phase := phase }.returnedTrue = none)
    (hread : { call with phase := phase }.holdsChallenge = true →
      call.holdsChallenge = true ∨ KeyValue.get s.redis (challengeKey call.challengeId) ≠ none) :
    ConsumedForGood { s with calls := s.calls.set i { call with phase := phase } } := by
  have hmem := List.mem_of_getElem? hcall
  constructor
  · intro id
    refine (h.alone id).set hcall fun hbusy => .inl ?_
    rw [Bool.and_eq_true] at hbusy ⊢
    exact ⟨hbusy.1, hrunning⟩
  · exact h.stored
  · refine forall_mem_set h.read (fun hholds => ?_) i
    obtain hheld | hthere := hread hholds
    · exact h.read call hmem hheld
    · by_contra hnot
      exact hthere (h.stored _ hnot)
  · refine forall_mem_set (fun other hother step hstep => ?_) (fun step hstep => ?_) i
    · obtain ⟨hgenerated, hgone, hnone⟩ := h.gone other hother step hstep
      refine ⟨hgenerated, hgone, forall_mem_set hnone (fun hsame => ?_) i⟩
      by_contra hholds
      rw [Bool.not_eq_false] at hholds
      obtain hheld | hthere := hread hholds
      · rw [hnone call hmem hsame] at hheld
        cases hheld
      · have hkey : call.challengeId = other.challengeId := hsame
        exact hthere (hkey ▸ hgone)
    · rw [hfalse] at hstep
      cases hstep

/-- A command of a call that deletes its challenge. -/
theorem ConsumedForGood.deletes (h : ConsumedForGood s) {i : ℕ} {call : MfaCall} (hcall : s.calls[i]? = some call)
    (hrunning : call.running = true) {phase : MfaPhase}
    (hfree : { call with phase := phase }.holdsChallenge = false)
    (htrue : { call with phase := phase }.returnedTrue ≠ none → call.holdsChallenge = true) :
    ConsumedForGood
      { s with
        redis := KeyValue.del s.redis (challengeKey call.challengeId)
        calls := s.calls.set i { call with phase := phase } } := by
  have hmem := List.mem_of_getElem? hcall
  have hgone : ∀ id, KeyValue.get s.redis (challengeKey id) = none →
      KeyValue.get (KeyValue.del s.redis (challengeKey call.challengeId)) (challengeKey id) = none := by
    intro id hnone
    by_cases hsame : challengeKey id = challengeKey call.challengeId
    · rw [hsame, KeyValue.get_del_self]
    · rwa [KeyValue.get_del_of_ne hsame]
  constructor
  · intro id
    refine (h.alone id).set hcall fun hbusy => .inl ?_
    rw [Bool.and_eq_true] at hbusy ⊢
    exact ⟨hbusy.1, hrunning⟩
  · exact fun id hid => hgone id (h.stored id hid)
  · refine forall_mem_set h.read (fun hholds => ?_) i
    rw [hfree] at hholds
    cases hholds
  · refine forall_mem_set (fun other hother step hstep => ?_) (fun step hstep => ?_) i
    · obtain ⟨hgenerated, hnone, hfree'⟩ := h.gone other hother step hstep
      exact ⟨hgenerated, hgone _ hnone, forall_mem_set hfree' (fun _ => hfree) i⟩
    · have hheld := htrue fun hnone => by rw [hnone] at hstep; cases hstep
      refine ⟨h.read call hmem hheld, KeyValue.get_del_self _ _, fun other hother hsame => ?_⟩
      obtain ⟨j, hj⟩ := List.mem_iff_getElem?.mp hother
      obtain ⟨rfl, rfl⟩ | hidle := (h.alone call.challengeId).set_cases hcall (by simp [hrunning]) hj
      · exact hfree
      · by_contra hholds
        rw [Bool.not_eq_false] at hholds
        rw [MfaCall.running_of_holdsChallenge hholds, Bool.and_true, beq_eq_false_iff_ne] at hidle
        exact hidle hsame

theorem ConsumedForGood.step (h : ConsumedForGood s) (e : MfaEvent) (hguard : ResponsesInTurn gate s e)
    (hstep : (mfaRuns gate).step s e = some t) : ConsumedForGood t := by
  cases e with
  | generateChallenge challengeId userId action time redisTime =>
    obtain ⟨hnew, hs⟩ := Option.ite_none_left_eq_some.mp hstep
    obtain rfl := Option.some.inj hs
    exact h.generate hnew _ _ _
  | verifyResponse challengeId totpCode userId =>
    obtain rfl := Option.some.inj hstep
    exact h.start hguard _ _
  | command i command =>
    obtain ⟨call, redis, phase, hcall, hadvance, rfl⟩ := mfa_step_command hstep
    have hrunning := MfaCall.running_of_advance hadvance
    obtain ⟨rfl, hfalse, hread⟩ | ⟨rfl, hfree, htrue⟩ := MfaCall.advance_holdsChallenge hadvance
    · exact h.leaves hcall hrunning hfalse hread
    · exact h.deletes hcall hrunning hfree htrue

/-- One response to a challenge after another: a code that another call bars is one that has been accepted for
another challenge. -/
theorem ConsumedForGood.spentOnce (h : ConsumedForGood s) (e : MfaEvent) (hguard : ResponsesInTurn gate s e)
    (hstep : (mfaRuns gate).step s e = some t) : SpentOnce gate s e := by
  cases e with
  | generateChallenge challengeId userId action time redisTime => trivial
  | verifyResponse challengeId totpCode userId => trivial
  | command i command =>
    cases command with
    | check time =>
      intro found hfound hvalid other hother hbars
      obtain ⟨call, redis, phase, hcall, hadvance, -⟩ := mfa_step_command hstep
      obtain rfl := Option.some.inj (hcall.symm.trans hfound)
      have hchecking : call.phase = .checking := by
        unfold MfaCall.advance at hadvance
        cases hphase : call.phase with
        | checking => rfl
        | _ => simp [hphase] at hadvance
      have hmem := List.mem_of_getElem? hcall
      obtain ⟨step, hpassed, hsame⟩ := hbars
      by_cases hchallenge : other.challengeId = call.challengeId
      · cases hphase : other.phase with
        | consuming step' =>
          obtain ⟨j, hj⟩ := List.mem_iff_getElem?.mp hother
          have hindex := h.alone call.challengeId i j call other hcall hj
            (by simp [MfaCall.running, hchecking]) (by simp [MfaCall.running, hphase, hchallenge])
          subst hindex
          obtain rfl := Option.some.inj (hcall.symm.trans hj)
          rw [hchecking] at hphase
          cases hphase
        | accepted step' =>
          have hfree := (h.gone other hother step' (by rw [MfaCall.returnedTrue, hphase])).2.2 call hmem hchallenge.symm
          rw [MfaCall.holdsChallenge, hchecking] at hfree
          cases hfree
        | _ => simp [MfaCall.passed, hphase] at hpassed
      · obtain hid | ⟨huser, hcode, rfl⟩ := hsame
        · exact hchallenge hid
        · exact hguard call hcall hvalid other hother ⟨hpassed, huser, hcode, hchallenge⟩
    | _ => trivial

/-- **One response after another.** Where the responses to one challenge do not overlap, and no code is used again
for another challenge in its time step, no code passes its check when it is barred. -/
theorem spentOnce_of_inTurn {es : List MfaEvent}
    (h : (mfaRuns gate).GuardedRun (ResponsesInTurn gate) {} es t) : (mfaRuns gate).GuardedRun (SpentOnce gate) {} es t := by
  have hstart : ConsumedForGood {} :=
    ⟨fun _ => .of_idle (by simp), fun _ _ => rfl, by simp, by simp⟩
  exact h.mono_of_invariant
    (fun s e t hs hguard hstep => ⟨hs.step e hguard hstep, hs.spentOnce e hguard hstep⟩) hstart

end

/-! ## Two challenges of one user -/

def firstChallengeId : String := "550e8400-e29b-41d4-a716-446655440000"

def secondChallengeId : String := "550e8400-e29b-41d4-a716-446655440001"

/-- The HMACs under a key of 32 letters `a`, and the code of the time step that starts at 10:00. -/
def testMfaGate : MfaGate where
  hmac := tableHmac
    [("550e8400-e29b-41d4-a716-446655440000|user-123|PlaceOrder|1775988000|1775988090",
        "ad5f7e4fbea52b91e719a34947892d878d461afac84e5a15a150d75f8161829e"),
      ("550e8400-e29b-41d4-a716-446655440001|user-123|PlaceOrder|1775988000|1775988090",
        "0ccac03c37069d25fea1b8e8270159f8f01c53325f8473138fa5d4a394417cef")]
  hmacChainSecret := "aaaaaaaaaaaaaaaaaaaaaaaaaaaaaaaa"
  getTotpSecret _ := "JBSWY3DPEHPK3PXP"
  totp secret step := if secret = "JBSWY3DPEHPK3PXP" ∧ step = 59199600 then "425405" else "000000"

def generate (challengeId : String) : MfaEvent :=
  .generateChallenge challengeId "user-123" "PlaceOrder" 1775988000000 1775988000000

def respond (challengeId : String) : MfaEvent := .verifyResponse challengeId "425405" "user-123"

def getAndCheck (call : ℕ) : List MfaEvent :=
  [.command call (.get 1775988001000 1775988001000), .command call (.check 1775988002000)]

/-- The second response reads the challenge after the first one has deleted it. -/
def answeredAgain : List MfaEvent :=
  [generate firstChallengeId, respond firstChallengeId, respond firstChallengeId] ++ getAndCheck 0 ++
    [.command 0 .del, .command 1 (.get 1775988003000 1775988003000)]

/-- Both responses read the challenge and check their codes before either of them deletes it. -/
def answeredTwice : List MfaEvent :=
  [generate firstChallengeId, respond firstChallengeId, respond firstChallengeId] ++ getAndCheck 0 ++
    getAndCheck 1 ++ [.command 0 .del, .command 1 .del]

/-- One response after the other, to two challenges. -/
def codeReused : List MfaEvent :=
  [generate firstChallengeId, generate secondChallengeId, respond firstChallengeId] ++ getAndCheck 0 ++
    [.command 0 .del, respond secondChallengeId] ++ getAndCheck 1 ++ [.command 1 .del]

instance (other call : MfaCall) (time : ℤ) : Decidable (other.Bars call time) :=
  inferInstanceAs (Decidable (∃ step ∈ other.passed, other.challengeId = call.challengeId ∨
    (other.userId = call.userId ∧ other.totpCode = call.totpCode ∧ step = timeStep time)))

instance (gate : MfaGate) (s : MfaState) : (e : MfaEvent) → Decidable (SpentOnce gate s e)
  | .command i (.check time) =>
    inferInstanceAs (Decidable (∀ call ∈ s.calls[i]?, gate.codeValid call.userId call.totpCode time = true →
      ∀ other ∈ s.calls, ¬ other.Bars call time))
  | .command _ (.get _ _) | .command _ .del | .command _ .fail | .generateChallenge .. | .verifyResponse .. =>
    isTrue trivial

/-- Of two responses to one challenge the first one is let through. -/
theorem answeredAgain_oneTime : ∃ t : MfaState, (mfaRuns testMfaGate).run {} answeredAgain = some t ∧
    t.calls.map MfaCall.returnedTrue = [some 59199600, none] ∧ OneTime t := by
  have hsome : ((mfaRuns testMfaGate).guardedRun (SpentOnce testMfaGate) {} answeredAgain).any
      (fun t => t.calls.map MfaCall.returnedTrue == [some 59199600, none]) = true := by decide +kernel
  obtain ⟨t, ht, hcalls⟩ := (Option.any_eq_true _ _).mp hsome
  have hrun := StepSystem.GuardedRun.of_guardedRun ht
  exact ⟨t, hrun.run, eq_of_beq hcalls, oneTime_of_spentOnce hrun⟩

/-- A challenge lets two responses through, and a code two challenges. -/
theorem mfa_accepted_twice :
    (∃ t : MfaState, (mfaRuns testMfaGate).run {} answeredTwice = some t ∧ ¬ OneTime t) ∧
      ∃ t : MfaState, (mfaRuns testMfaGate).run {} codeReused = some t ∧ ¬ OneTime t := by
  have hsome : ((mfaRuns testMfaGate).run {} answeredTwice).any (fun t => t.calls ==
        [⟨firstChallengeId, "425405", "user-123", .accepted 59199600⟩,
          ⟨firstChallengeId, "425405", "user-123", .accepted 59199600⟩]) = true ∧
      ((mfaRuns testMfaGate).run {} codeReused).any (fun t => t.calls ==
        [⟨firstChallengeId, "425405", "user-123", .accepted 59199600⟩,
          ⟨secondChallengeId, "425405", "user-123", .accepted 59199600⟩]) = true := by decide +kernel
  obtain ⟨t, ht, hcalls⟩ := (Option.any_eq_true _ _).mp hsome.1
  obtain ⟨u, hu, hcalls'⟩ := (Option.any_eq_true _ _).mp hsome.2
  constructor
  · refine ⟨t, ht, fun honce => ?_⟩
    have hindex := honce.challenge firstChallengeId 0 1
    rw [eq_of_beq hcalls] at hindex
    exact absurd (hindex _ _ rfl rfl (by decide) (by decide)) (by decide)
  · refine ⟨u, hu, fun honce => ?_⟩
    have hcode := honce.code
    rw [eq_of_beq hcalls'] at hcode
    have hsame := hcode _ List.mem_cons_self _ (List.mem_cons_of_mem _ List.mem_cons_self) 59199600 rfl rfl rfl rfl
    exact absurd hsame (by decide)

end SuperAi.Auth
