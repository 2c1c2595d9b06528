import SuperAi.Tokens.Authority
import SuperAi.Foundations.SingleUse
import SuperAi.Foundations.StepSystem

/-! # Concurrent rotations of one refresh token (`auth/token.rotator.ts`)

The marker of a `jti` is read in one step and set in another, so that two calls with the same token
can both find none. A marker outlives the token, whenever it is set; so a token yields at most one
pair as long as a call finds no marker only before the token expires and while no other call has still
to set it (`pairs_le_one`).
-/
namespace SuperAi.Tokens
open SuperAi.Foundations
set_option autoImplicit false

/-- What a call does next, once the token is verified, with the payload of the token. -/
inductive RotatePhase
  | readMarker (payload : JsonValue)
  | dropFamily (payload : JsonValue)
  | mark (payload : JsonValue)
  | issue (payload : JsonValue)
  | finished (result : Except RotateError TokenPair)
  | failed

structure Rotations where
  now : ℤ
  redis : TokenRedis
  calls : List RotatePhase

inductive RotateStep
  | start (now : ℤ)
  | readMarker (i : ℕ) (now : ℤ)
  | dropFamily (i : ℕ) (now : ℤ)
  | mark (i : ℕ) (now : ℤ)
  | issue (i : ℕ) (access refresh : ℤ) (jti : String)
  | fails (i : ℕ)

section
variable (jwtValidator : JwtValidator) (token : String)

/-- The time does not go back; a call that fails has lost its connection or its key file. -/
def Rotations.step (s : Rotations) : RotateStep → Option Rotations
  | .start now =>
    if s.now ≤ now then
      match TokenRotator.verifyRefresh jwtValidator token now with
      | .ok payload => some { s with now, calls := s.calls ++ [.readMarker payload] }
      | .error error => some { s with now, calls := s.calls ++ [.finished (.error error)] }
    else none
  | .readMarker i now =>
    match s.calls[i]? with
    | some (.readMarker payload) =>
      if s.now ≤ now then
        if (s.redis.read now (usedKey (property payload "jti"))).isSome then
          some { s with now, calls := s.calls.set i (.dropFamily payload) }
        else some { s with now, calls := s.calls.set i (.mark payload) }
      else none
    | _ => none
  | .dropFamily i now =>
    match s.calls[i]? with
    | some (.dropFamily payload) =>
      if s.now ≤ now then
        some { now, redis := TokenRotator.dropFamily payload s.redis,
               calls := s.calls.set i (.finished (.error .refreshTokenReplay)) }
      else none
    | _ => none
  | .mark i now =>
    match s.calls[i]? with
    | some (.mark payload) =>
      if s.now ≤ now then
        some { now, redis := TokenRotator.markUsed jwtValidator payload now s.redis,
               calls := s.calls.set i (.issue payload) }
      else none
    | _ => none
  | .issue i access refresh jti =>
    match s.calls[i]? with
    | some (.issue payload) =>
      if s.now ≤ access ∧ access ≤ refresh then
        some { s with
          now := refresh,
          calls := s.calls.set i (.finished (TokenRotator.issuePair jwtValidator payload access refresh jti)) }
      else none
    | _ => none
  | .fails i =>
    match s.calls[i]? with
    | some (.finished _) => none
    | some _ => some { s with calls := s.calls.set i .failed }
    | none => none

def rotations : StepSystem Rotations RotateStep := ⟨Rotations.step jwtValidator token⟩

end

namespace RotatePhase

def holds : RotatePhase → Bool
  | .mark _ => true
  | _ => false

def paired : RotatePhase → Bool
  | .finished (.ok _) => true
  | _ => false

def used : RotatePhase → Bool
  | .issue _ => true
  | phase => phase.paired

def payload? : RotatePhase → Option JsonValue
  | .readMarker payload => some payload
  | .dropFamily payload => some payload
  | .mark payload => some payload
  | .issue payload => some payload
  | _ => none

end RotatePhase

def pairs (calls : List RotatePhase) : ℕ := calls.countP (·.paired)

/-- A call that finds no marker reads while the token is alive, and while no other call has still to set
the marker. -/
def OneAtATime (jwtValidator : JwtValidator) (issuedAt : ℤ) (s : Rotations) : RotateStep → Prop
  | .readMarker i now => ∀ payload, s.calls[i]? = some (.readMarker payload) →
      s.redis.read now (usedKey (property payload "jti")) = none →
        epochSeconds now < jwtValidator.refreshExpiry issuedAt ∧ ∀ call ∈ s.calls, call.holds = false
  | _ => True

section
variable {jwtValidator : JwtValidator} {userId sessionId deviceFingerprint jti : String} {issuedAt : ℤ}

/-- What guarded steps keep: the calls are about the token, a marker is there for as long as the token
lives, and it is set as soon as a call has used the token. -/
structure OnlyOnce (jwtValidator : JwtValidator) (userId sessionId deviceFingerprint jti : String)
    (issuedAt : ℤ) (s : Rotations) : Prop where
  issued : issuedAt ≤ s.now
  payloads : ∀ call ∈ s.calls, ∀ payload, call.payload? = some payload →
    payload = jwtValidator.refreshPayload userId sessionId deviceFingerprint jti issuedAt
  outlives : ∀ marker, KeyValue.get s.redis (usedKey (some (.str jti))) = some marker →
    1000 * jwtValidator.refreshExpiry issuedAt ≤ marker.expiresAt
  once : CallsUseOnce RotatePhase.holds RotatePhase.used
    (KeyValue.get s.redis (usedKey (some (.str jti))) = none) s.calls

variable {s s' : Rotations} {i : ℕ} {now : ℤ}

theorem markUsed_outlives (hissued : issuedAt ≤ now) :
    1000 * jwtValidator.refreshExpiry issuedAt ≤
      now + 1000 * jwtValidator.config.refreshTokenExpirySeconds := by
  unfold JwtValidator.refreshExpiry epochSeconds
  omega

theorem OnlyOnce.get_eq_none (h : OnlyOnce jwtValidator userId sessionId deviceFingerprint jti issuedAt s)
    (halive : epochSeconds now < jwtValidator.refreshExpiry issuedAt)
    (hread : s.redis.read now (usedKey (some (.str jti))) = none) :
    KeyValue.get s.redis (usedKey (some (.str jti))) = none := by
  cases hget : KeyValue.get s.redis (usedKey (some (.str jti))) with
  | none => rfl
  | some marker =>
    have hlasts : s.redis.Lasts (usedKey (some (.str jti))) (1000 * jwtValidator.refreshExpiry issuedAt) :=
      ⟨marker, hget, h.outlives marker hget⟩
    have hthere := ExpiringStore.read_of_lasts hlasts (lt_of_epochSeconds_lt halive)
    rw [hread] at hthere
    cases hthere

theorem OnlyOnce.payloads_set
    (h : OnlyOnce jwtValidator userId sessionId deviceFingerprint jti issuedAt s) {phase : RotatePhase}
    (hphase : ∀ payload, phase.payload? = some payload →
      payload = jwtValidator.refreshPayload userId sessionId deviceFingerprint jti issuedAt) :
    ∀ call ∈ s.calls.set i phase, ∀ payload, call.payload? = some payload →
      payload = jwtValidator.refreshPayload userId sessionId deviceFingerprint jti issuedAt :=
  forall_mem_set h.payloads hphase i

theorem OnlyOnce.moves (h : OnlyOnce jwtValidator userId sessionId deviceFingerprint jti issuedAt s)
    (hnow : s.now ≤ now) {phase : RotatePhase}
    (hphase : ∀ payload, phase.payload? = some payload →
      payload = jwtValidator.refreshPayload userId sessionId deviceFingerprint jti issuedAt)
    (honce : CallsUseOnce RotatePhase.holds RotatePhase.used
      (KeyValue.get s.redis (usedKey (some (.str jti))) = none) (s.calls.set i phase)) :
    OnlyOnce jwtValidator userId sessionId deviceFingerprint jti issuedAt
      { s with now := now, calls := s.calls.set i phase } :=
  ⟨h.issued.trans hnow, h.payloads_set hphase, h.outlives, honce⟩

theorem OnlyOnce.start (hjose : jwtValidator.jose.Lawful) (hjti : jti ≠ "")
    (h : OnlyOnce jwtValidator userId sessionId deviceFingerprint jti issuedAt s)
    (hstep : (rotations jwtValidator
      (jwtValidator.generateRefreshToken userId sessionId deviceFingerprint jti issuedAt)).step s
        (.start now) = some s') :
    OnlyOnce jwtValidator userId sessionId deviceFingerprint jti issuedAt s' := by
  obtain ⟨hnow, hstep⟩ := Option.ite_none_right_eq_some.mp hstep
  rw [verifyRefresh_refreshToken hjose hjti] at hstep
  by_cases halive : epochSeconds now < jwtValidator.refreshExpiry issuedAt
  · simp only [if_pos halive] at hstep
    cases hstep
    refine ⟨h.issued.trans hnow, fun call hcall payload hpayload => ?_, h.outlives, h.once.start rfl rfl⟩
    rcases List.mem_append.mp hcall with hcall | hcall
    · exact h.payloads call hcall payload hpayload
    · obtain rfl := List.mem_singleton.mp hcall
      exact (Option.some.inj hpayload).symm
  · simp only [if_neg halive] at hstep
    cases hstep
    refine ⟨h.issued.trans hnow, fun call hcall payload hpayload => ?_, h.outlives, h.once.start rfl rfl⟩
    rcases List.mem_append.mp hcall with hcall | hcall
    · exact h.payloads call hcall payload hpayload
    · obtain rfl := List.mem_singleton.mp hcall
      cases hpayload

theorem OnlyOnce.readMarker (h : OnlyOnce jwtValidator userId sessionId deviceFingerprint jti issuedAt s)
    {token : String} (hguard : OneAtATime jwtValidator issuedAt s (.readMarker i now))
    (hstep : (rotations jwtValidator token).step s (.readMarker i now) = some s') :
    OnlyOnce jwtValidator userId sessionId deviceFingerprint jti issuedAt s' := by
  simp only [rotations, Rotations.step] at hstep
  split at hstep
  · rename_i payload hcall
    have hpayload := h.payloads _ (List.mem_of_getElem? hcall) payload rfl
    have hid : property payload "jti" = some (.str jti) := by rw [hpayload]; rfl
    obtain ⟨hnow, hstep⟩ := Option.ite_none_right_eq_some.mp hstep
    rw [hid] at hstep
    cases hread : s.redis.read now (usedKey (some (.str jti))) with
    | some marker =>
      rw [hread] at hstep
      cases hstep
      exact h.moves hnow (by rintro _ ⟨⟩; exact hpayload) (h.once.ends hcall rfl rfl)
    | none =>
      rw [hread] at hstep
      cases hstep
      obtain ⟨halive, hfree⟩ := hguard payload hcall (by rw [hid, hread])
      exact h.moves hnow (by rintro _ ⟨⟩; exact hpayload)
        (h.once.takes hcall rfl rfl (h.get_eq_none halive hread) hfree)
  · cases hstep

theorem OnlyOnce.mark (h : OnlyOnce jwtValidator userId sessionId deviceFingerprint jti issuedAt s)
    {token : String} (hstep : (rotations jwtValidator token).step s (.mark i now) = some s') :
    OnlyOnce jwtValidator userId sessionId deviceFingerprint jti issuedAt s' := by
  simp only [rotations, Rotations.step] at hstep
  split at hstep
  · rename_i payload hcall
    have hpayload := h.payloads _ (List.mem_of_getElem? hcall) payload rfl
    have hid : property payload "jti" = some (.str jti) := by rw [hpayload]; rfl
    obtain ⟨hnow, hstep⟩ := Option.ite_none_right_eq_some.mp hstep
    cases hstep
    have hget : KeyValue.get (TokenRotator.markUsed jwtValidator payload now s.redis)
        (usedKey (some (.str jti))) =
        some ⟨now, now + 1000 * jwtValidator.config.refreshTokenExpirySeconds⟩ := by
      rw [TokenRotator.markUsed, hid]
      exact KeyValue.get_set_self _ _ _
    refine ⟨h.issued.trans hnow, h.payloads_set (by rintro _ ⟨⟩; exact hpayload), fun marker hmarker => ?_, ?_⟩
    · obtain rfl := Option.some.inj (hget.symm.trans hmarker)
      exact markUsed_outlives (h.issued.trans hnow)
    · exact h.once.uses hcall rfl rfl rfl rfl (by rw [hget]; simp)
  · cases hstep

theorem OnlyOnce.dropFamily (h : OnlyOnce jwtValidator userId sessionId deviceFingerprint jti issuedAt s)
    {token : String} (hstep : (rotations jwtValidator token).step s (.dropFamily i now) = some s') :
    OnlyOnce jwtValidator userId sessionId deviceFingerprint jti issuedAt s' := by
  simp only [rotations, Rotations.step] at hstep
  split at hstep
  · rename_i payload hcall
    obtain ⟨hnow, hstep⟩ := Option.ite_none_right_eq_some.mp hstep
    cases hstep
    refine ⟨h.issued.trans hnow, h.payloads_set (by rintro _ ⟨⟩), ?_, ?_⟩
    · rw [get_dropFamily]
      exact h.outlives
    · rw [get_dropFamily]
      exact h.once.ends hcall rfl rfl
  · cases hstep

theorem OnlyOnce.issue (h : OnlyOnce jwtValidator userId sessionId deviceFingerprint jti issuedAt s)
    {token jti' : String} {access refresh : ℤ}
    (hstep : (rotations jwtValidator token).step s (.issue i access refresh jti') = some s') :
    OnlyOnce jwtValidator userId sessionId deviceFingerprint jti issuedAt s' := by
  simp only [rotations, Rotations.step] at hstep
  split at hstep
  · rename_i payload hcall
    obtain ⟨⟨haccess, hrefresh⟩, hstep⟩ := Option.ite_none_right_eq_some.mp hstep
    cases hstep
    refine h.moves (haccess.trans hrefresh) (by rintro _ ⟨⟩) ?_
    cases TokenRotator.issuePair jwtValidator payload access refresh jti' with
    | error error => exact h.once.ends hcall rfl rfl
    | ok pair => exact h.once.moves hcall rfl rfl
  · cases hstep

theorem OnlyOnce.fails (h : OnlyOnce jwtValidator userId sessionId deviceFingerprint jti issuedAt s)
    {token : String} (hstep : (rotations jwtValidator token).step s (.fails i) = some s') :
    OnlyOnce jwtValidator userId sessionId deviceFingerprint jti issuedAt s' := by
  simp only [rotations, Rotations.step] at hstep
  split at hstep
  · cases hstep
  · rename_i phase hphase hcall
    cases hstep
    exact h.moves (le_refl _) (by rintro _ ⟨⟩) (h.once.ends hcall rfl rfl)
  · cases hstep

theorem OnlyOnce.step (hjose : jwtValidator.jose.Lawful) (hjti : jti ≠ "") {e : RotateStep}
    (h : OnlyOnce jwtValidator userId sessionId deviceFingerprint jti issuedAt s)
    (hguard : OneAtATime jwtValidator issuedAt s e)
    (hstep : (rotations jwtValidator
      (jwtValidator.generateRefreshToken userId sessionId deviceFingerprint jti issuedAt)).step s e =
        some s') :
    OnlyOnce jwtValidator userId sessionId deviceFingerprint jti issuedAt s' := by
  cases e with
  | start now => exact h.start hjose hjti hstep
  | readMarker i now => exact h.readMarker hguard hstep
  | dropFamily i now => exact h.dropFamily hstep
  | mark i now => exact h.mark hstep
  | issue i access refresh jti' => exact h.issue hstep
  | fails i => exact h.fails hstep

/-- **One rotation.** Whatever calls with a refresh token there are, however their steps interleave and
whenever they take place, at most one of them returns a pair, if a call finds no marker only while the
token is alive and no other call has still to set it. -/
theorem pairs_le_one (hjose : jwtValidator.jose.Lawful) (hjti : jti ≠ "") {redis : TokenRedis}
    (hfresh : KeyValue.get redis (usedKey (some (.str jti))) = none) {events : List RotateStep}
    (h : (rotations jwtValidator
        (jwtValidator.generateRefreshToken userId sessionId deviceFingerprint jti issuedAt)).GuardedRun
      (OneAtATime jwtValidator issuedAt) ⟨issuedAt, redis, []⟩ events s) :
    pairs s.calls ≤ 1 := by
  have hstart : OnlyOnce jwtValidator userId sessionId deviceFingerprint jti issuedAt
      ⟨issuedAt, redis, []⟩ := by
    refine ⟨le_refl _, ?_, ?_, CallsUseOnce.nil _⟩
    · rintro call ⟨⟩
    · intro marker hmarker
      rw [hfresh] at hmarker
      cases hmarker
  have honce : OnlyOnce jwtValidator userId sessionId deviceFingerprint jti issuedAt s :=
    h.invariant (fun _ _ _ hs hguard hstep => hs.step hjose hjti hguard hstep) hstart
  have hpaired : pairs s.calls ≤ s.calls.countP RotatePhase.used := by
    refine List.countP_mono_left fun call _ hpaired => ?_
    cases call with
    | finished result => exact hpaired
    | _ => cases hpaired
  exact hpaired.trans honce.once.used_le_one

end
/-! ## Two calls with one token -/

def usedPayload : JsonValue := testPayload "session-456"

theorem issuePair_usedPayload (jti : String) :
    TokenRotator.issuePair testValidator usedPayload 1775988060000 1775988060000 jti =
      .ok (testPair jti 1775988060000) := issuePair_testPayload jti

def testRotations : StepSystem Rotations RotateStep :=
  rotations testValidator (testRefreshToken "jti-1" 1775988000000)

def bothCalls (redis : TokenRedis) (first second : RotatePhase) : Rotations :=
  ⟨1775988060000, redis, [first, second]⟩

def bothStart : List RotateStep := [.start 1775988060000, .start 1775988060000, .readMarker 0 1775988060000]

def oneMarks : List RotateStep :=
  [.mark 0 1775988060000, .readMarker 1 1775988060000, .dropFamily 1 1775988060000,
    .issue 0 1775988060000 1775988060000 "jti-2"]

def bothMark : List RotateStep :=
  [.readMarker 1 1775988060000, .mark 0 1775988060000, .mark 1 1775988060000,
    .issue 0 1775988060000 1775988060000 "jti-2", .issue 1 1775988060000 1775988060000 "jti-3"]

theorem verify_testToken :
    TokenRotator.verifyRefresh testValidator (testRefreshToken "jti-1" 1775988000000) 1775988060000 =
      .ok usedPayload := by
  rw [testRefreshToken, verifyRefresh_refreshToken testValidator_lawful (by decide)]
  exact if_pos (by decide)

theorem guardedRun_bothStart :
    testRotations.GuardedRun (OneAtATime testValidator 1775988000000) ⟨1775988000000, [], []⟩ bothStart
      (bothCalls [] (.mark usedPayload) (.readMarker usedPayload)) := by
  have hfirst : testRotations.step ⟨1775988000000, [], []⟩ (.start 1775988060000) =
      some ⟨1775988060000, [], [.readMarker usedPayload]⟩ := by
    simp [testRotations, rotations, Rotations.step, verify_testToken]
  have hsecond : testRotations.step ⟨1775988060000, [], [.readMarker usedPayload]⟩
      (.start 1775988060000) =
      some (bothCalls [] (.readMarker usedPayload) (.readMarker usedPayload)) := by
    simp [testRotations, rotations, Rotations.step, verify_testToken, bothCalls]
  have hread : testRotations.step (bothCalls [] (.readMarker usedPayload) (.readMarker usedPayload))
      (.readMarker 0 1775988060000) =
      some (bothCalls [] (.mark usedPayload) (.readMarker usedPayload)) := by
    simp [testRotations, rotations, Rotations.step, bothCalls, ExpiringStore.read]
  refine .cons trivial hfirst (.cons trivial hsecond (.cons ?_ hread (.nil _)))
  intro payload _ _
  refine ⟨by decide, ?_⟩
  simp [bothCalls, RotatePhase.holds]

/-- Of two overlapping calls one gets a pair. -/
theorem oneMarks_pairs :
    ∃ s, testRotations.run ⟨1775988000000, [], []⟩ (bothStart ++ oneMarks) = some s ∧ pairs s.calls ≤ 1 := by
  have hmarked : ((TokenRotator.markUsed testValidator usedPayload 1775988060000 []).read 1775988060000
      (usedKey (property usedPayload "jti"))).isSome := by
    refine ExpiringStore.read_of_lasts (ExpiringStore.lasts_setex _ _ _ _ _) ?_
    decide
  have hread : testRotations.step
      (bothCalls (TokenRotator.markUsed testValidator usedPayload 1775988060000 []) (.issue usedPayload)
        (.readMarker usedPayload)) (.readMarker 1 1775988060000) =
      some (bothCalls (TokenRotator.markUsed testValidator usedPayload 1775988060000 [])
        (.issue usedPayload) (.dropFamily usedPayload)) := by
    simp [testRotations, rotations, Rotations.step, bothCalls, hmarked]
  have hrest : testRotations.GuardedRun (OneAtATime testValidator 1775988000000)
      (bothCalls [] (.mark usedPayload) (.readMarker usedPayload)) oneMarks
      (bothCalls (TokenRotator.dropFamily usedPayload
          (TokenRotator.markUsed testValidator usedPayload 1775988060000 []))
        (.finished (.ok (testPair "jti-2" 1775988060000))) (.finished (.error .refreshTokenReplay))) := by
    refine .cons trivial rfl (.cons ?_ hread (.cons trivial rfl (.cons trivial ?_ (.nil _))))
    · intro payload hcall hnone
      obtain rfl : usedPayload = payload := by simpa [bothCalls] using hcall
      have hunmarked : (TokenRotator.markUsed testValidator usedPayload 1775988060000 []).read
          1775988060000 (usedKey (property usedPayload "jti")) = none := hnone
      rw [hunmarked] at hmarked
      cases hmarked
    · simp [testRotations, rotations, Rotations.step, bothCalls, issuePair_usedPayload]
  have hrun := guardedRun_bothStart.append hrest
  exact ⟨_, hrun.run, pairs_le_one testValidator_lawful (by decide) rfl hrun⟩

/-- Two overlapping calls can both get a pair. -/
theorem bothMark_pairs :
    ¬ ∀ (events : List RotateStep) (s : Rotations),
      testRotations.run ⟨1775988000000, [], []⟩ events = some s → pairs s.calls ≤ 1 := by
  intro hclaim
  have hrest : ∃ redis, testRotations.run
      (bothCalls [] (.mark usedPayload) (.readMarker usedPayload)) bothMark =
      some (bothCalls redis (.finished (.ok (testPair "jti-2" 1775988060000)))
        (.finished (.ok (testPair "jti-3" 1775988060000)))) := by
    simp [bothMark, StepSystem.run, testRotations, rotations, Rotations.step, bothCalls, ExpiringStore.read,
      issuePair_usedPayload]
  obtain ⟨redis, hrest⟩ := hrest
  have hrun := (StepSystem.GuardedRun.of_run guardedRun_bothStart.run).append
    (StepSystem.GuardedRun.of_run hrest)
  have htwo := hclaim _ _ hrun.run
  simp [bothCalls, pairs, RotatePhase.paired] at htwo

end SuperAi.Tokens
