import SuperAi.Foundations.ExpiringStore
import SuperAi.Foundations.InTurn
import SuperAi.Foundations.StepSystem
import Mathlib.Algebra.Order.Field.Rat
import Mathlib.Tactic.Linarith

/-! # Device trust and revocation (`auth/device.trust.ts`)

Calls of `recordSuccessfulAuth` and `revokeDevice` for one device of one user, one Redis command after another. An
authentication reads the score and writes a higher one in a later command, so that it can bring back what a
revocation in between has removed. A revocation sticks if and only if no authentication adds to a score that is
higher than what has been earned since (`revocation_sticks_iff`), as is the case where no revocation comes between
the two commands of one (`addsToEarned_of_undisturbed`). A stored text is kept as the number that it denotes, `none`
for `NaN`.
-/
namespace SuperAi.Auth
open SuperAi.Foundations
set_option autoImplicit false

def DEVICE_TRUST_PREFIX : String := "device:trust:"

def DEVICE_TRUST_TTL_SECONDS : ℤ := 90 * 24 * 60 * 60

def MAX_TRUST_SCORE : ℚ := 100

/-- What `SecurityConfigSchema` lets through. -/
structure TrustConfig where
  deviceTrustScoreIncrement : ℚ
  min : 0 ≤ deviceTrustScoreIncrement
  max : deviceTrustScoreIncrement ≤ 100

abbrev TrustScore := { score : ℚ // 0 ≤ score ∧ score ≤ MAX_TRUST_SCORE }

abbrev TrustRedis := ExpiringStore String (Option ℚ)

namespace DeviceTrust

def redisKey (userId deviceFingerprint : String) : String :=
  DEVICE_TRUST_PREFIX ++ userId ++ ":" ++ deviceFingerprint

theorem max_nonneg : 0 ≤ MAX_TRUST_SCORE := by norm_num [MAX_TRUST_SCORE]

/-- What `getScore` makes of the stored value. -/
def scoreOf : Option (Option ℚ) → TrustScore
  | none => ⟨0, le_refl _, max_nonneg⟩
  | some none => ⟨0, le_refl _, max_nonneg⟩
  | some (some score) =>
    if h : score < 0 then ⟨0, le_refl _, max_nonneg⟩
    else ⟨min score MAX_TRUST_SCORE, le_min (not_lt.mp h) max_nonneg, min_le_right _ _⟩

def getScore (redis : TrustRedis) (now : ℤ) (userId deviceFingerprint : String) : TrustScore :=
  scoreOf (redis.read now (redisKey userId deviceFingerprint))

/-- The score that `recordSuccessfulAuth` writes. -/
def newScore (cfg : TrustConfig) (currentScore : TrustScore) : TrustScore :=
  ⟨min (currentScore + cfg.deviceTrustScoreIncrement) MAX_TRUST_SCORE,
    le_min (add_nonneg currentScore.2.1 cfg.min) max_nonneg, min_le_right _ _⟩

theorem scoreOf_some (score : TrustScore) : scoreOf (some (some score)) = score := by
  unfold scoreOf
  dsimp only
  rw [dif_neg (not_lt.mpr score.2.1)]
  exact Subtype.ext (min_eq_left score.2.2)

end DeviceTrust

/-! ## Calls -/

/-- An authentication that has read the score still knows how many revocations were complete by then; a revocation
how many authentications had finished when it started. -/
inductive TrustPhase
  | reading
  | writing (currentScore : TrustScore) (revocations : ℕ)
  | recorded (newScore : TrustScore)
  | revoking (finished : ℕ)
  | revoked (finished : ℕ)
  | failed
  deriving DecidableEq

namespace TrustPhase

def isRecorded : TrustPhase → Bool
  | recorded _ => true
  | _ => false

def isRevoked : TrustPhase → Bool
  | revoked _ => true
  | _ => false

/-- The revocations that were complete when an authentication read the score. -/
def seen : TrustPhase → Option ℕ
  | writing _ revocations => some revocations
  | _ => none

end TrustPhase

structure TrustState where
  redis : TrustRedis
  calls : List TrustPhase

inductive TrustEvent
  | recordSuccessfulAuth
  | revokeDevice
  | get (call : ℕ) (now : ℤ)
  | setex (call : ℕ) (now : ℤ)
  | del (call : ℕ)
  | fail (call : ℕ)
  deriving DecidableEq, Repr

namespace TrustState
variable (s : TrustState)

/-- How many authentications have finished. -/
def finished : ℕ := s.calls.countP TrustPhase.isRecorded

/-- How many revocations are complete. -/
def revocations : ℕ := s.calls.countP TrustPhase.isRevoked

/-- How many authentications have finished since there were this many. -/
def finishedSince (before : ℕ) : ℕ := s.finished - before

end TrustState

section
variable (cfg : TrustConfig) (userId deviceFingerprint : String)

def trustRuns : StepSystem TrustState TrustEvent where
  step s
    | .recordSuccessfulAuth => some { s with calls := s.calls ++ [.reading] }
    | .revokeDevice => some { s with calls := s.calls ++ [.revoking s.finished] }
    | .get i now =>
      match s.calls[i]? with
      | some .reading =>
        some { s with
          calls := s.calls.set i (.writing (DeviceTrust.getScore s.redis now userId deviceFingerprint) s.revocations) }
      | _ => none
    | .setex i now =>
      match s.calls[i]? with
      | some (.writing currentScore _) =>
        let newScore := DeviceTrust.newScore cfg currentScore
        some {
          redis := s.redis.setex now (1000 * DEVICE_TRUST_TTL_SECONDS) (DeviceTrust.redisKey userId deviceFingerprint)
            (some newScore)
          calls := s.calls.set i (.recorded newScore) }
      | _ => none
    | .del i =>
      match s.calls[i]? with
      | some (.revoking finished) =>
        some {
          redis := KeyValue.del s.redis (DeviceTrust.redisKey userId deviceFingerprint)
          calls := s.calls.set i (.revoked finished) }
      | _ => none
    | .fail i =>
      match s.calls[i]? with
      | some .reading | some (.writing _ _) | some (.revoking _) => some { s with calls := s.calls.set i .failed }
      | _ => none

/-- After every revocation that is complete, the score is no more than what the authentications have earned that
have finished since it started. -/
def RevocationSticks (s : TrustState) : Prop :=
  ∀ finished, .revoked finished ∈ s.calls → ∀ now,
    (DeviceTrust.getScore s.redis now userId deviceFingerprint : ℚ) ≤
      cfg.deviceTrustScoreIncrement * s.finishedSince finished

/-- The score has been earned since there were this many authentications, or the next one makes it a full one. -/
def TrustState.Earned (s : TrustState) (finished : ℕ) (score : TrustScore) : Prop :=
  (score : ℚ) ≤ cfg.deviceTrustScoreIncrement * s.finishedSince finished ∨
    MAX_TRUST_SCORE ≤ cfg.deviceTrustScoreIncrement * (s.finishedSince finished + 1 : ℕ)

/-- An authentication adds to a score only if it has been earned since every revocation that is complete. -/
def AddsToEarned (s : TrustState) : TrustEvent → Prop
  | .setex i _ => ∀ currentScore revocations, s.calls[i]? = some (.writing currentScore revocations) →
      ∀ finished, .revoked finished ∈ s.calls → s.Earned cfg finished currentScore
  | _ => True

end

/-! ## One command -/

section
variable {cfg : TrustConfig} {userId deviceFingerprint : String} {s t : TrustState}

theorem finished_set {redis : TrustRedis} {i : ℕ} {phase phase' : TrustPhase} (h : s.calls[i]? = some phase)
    (hrecorded : phase.isRecorded = false) :
    TrustState.finished ⟨redis, s.calls.set i phase'⟩ = s.finished + if phase'.isRecorded then 1 else 0 := by
  have hcount := countP_set_eq TrustPhase.isRecorded h phase'
  rw [hrecorded] at hcount
  exact hcount

theorem revocations_set {redis : TrustRedis} {i : ℕ} {phase phase' : TrustPhase} (h : s.calls[i]? = some phase)
    (hrevoked : phase.isRevoked = false) :
    TrustState.revocations ⟨redis, s.calls.set i phase'⟩ = s.revocations + if phase'.isRevoked then 1 else 0 := by
  have hcount := countP_set_eq TrustPhase.isRevoked h phase'
  rw [hrevoked] at hcount
  exact hcount

/-- What a step does. -/
inductive TrustStep (cfg : TrustConfig) (userId deviceFingerprint : String) (s : TrustState) :
    TrustEvent → TrustState → Prop
  | recordSuccessfulAuth :
    TrustStep cfg userId deviceFingerprint s .recordSuccessfulAuth { s with calls := s.calls ++ [.reading] }
  | revokeDevice :
    TrustStep cfg userId deviceFingerprint s .revokeDevice { s with calls := s.calls ++ [.revoking s.finished] }
  | get {i : ℕ} {now : ℤ} (call : s.calls[i]? = some .reading) :
    TrustStep cfg userId deviceFingerprint s (.get i now)
      { s with
        calls := s.calls.set i (.writing (DeviceTrust.getScore s.redis now userId deviceFingerprint) s.revocations) }
  | setex {i : ℕ} {now : ℤ} {currentScore : TrustScore} {revocations : ℕ}
    (call : s.calls[i]? = some (.writing currentScore revocations)) :
    TrustStep cfg userId deviceFingerprint s (.setex i now)
      ⟨s.redis.setex now (1000 * DEVICE_TRUST_TTL_SECONDS) (DeviceTrust.redisKey userId deviceFingerprint)
          (some (DeviceTrust.newScore cfg currentScore)),
        s.calls.set i (.recorded (DeviceTrust.newScore cfg currentScore))⟩
  | del {i finished : ℕ} (call : s.calls[i]? = some (.revoking finished)) :
    TrustStep cfg userId deviceFingerprint s (.del i)
      ⟨KeyValue.del s.redis (DeviceTrust.redisKey userId deviceFingerprint), s.calls.set i (.revoked finished)⟩
  | fail {i : ℕ} {phase : TrustPhase} (call : s.calls[i]? = some phase) (recorded : phase.isRecorded = false)
    (revoked : phase.isRevoked = false) :
    TrustStep cfg userId deviceFingerprint s (.fail i) { s with calls := s.calls.set i .failed }

theorem trustStep_of_step {e : TrustEvent} (h : (trustRuns cfg userId deviceFingerprint).step s e = some t) :
    TrustStep cfg userId deviceFingerprint s e t := by
  cases e with
  | recordSuccessfulAuth =>
    obtain rfl := Option.some.inj h
    exact .recordSuccessfulAuth
  | revokeDevice =>
    obtain rfl := Option.some.inj h
    exact .revokeDevice
  | get i now =>
    simp only [trustRuns] at h
    split at h
    · rename_i hcall
      obtain rfl := Option.some.inj h
      exact .get hcall
    · cases h
  | setex i now =>
    simp only [trustRuns] at h
    split at h
    · rename_i hcall
      obtain rfl := Option.some.inj h
      exact .setex hcall
    · cases h
  | del i =>
    simp only [trustRuns] at h
    split at h
    · rename_i hcall
      obtain rfl := Option.some.inj h
      exact .del hcall
    · cases h
  | fail i =>
    simp only [trustRuns] at h
    split at h
    · rename_i hcall
      obtain rfl := Option.some.inj h
      exact .fail hcall rfl rfl
    · rename_i hcall
      obtain rfl := Option.some.inj h
      exact .fail hcall rfl rfl
    · rename_i hcall
      obtain rfl := Option.some.inj h
      exact .fail hcall rfl rfl
    · cases h

/-! ## Scores -/

theorem getScore_setex_le (redis : TrustRedis) (now later : ℤ) (score : TrustScore) :
    (DeviceTrust.getScore (redis.setex now (1000 * DEVICE_TRUST_TTL_SECONDS)
      (DeviceTrust.redisKey userId deviceFingerprint) (some score)) later userId deviceFingerprint : ℚ) ≤ score := by
  unfold DeviceTrust.getScore ExpiringStore.read ExpiringStore.setex
  rw [KeyValue.get_set_self, Option.bind_some]
  by_cases hthere : later < now + 1000 * DEVICE_TRUST_TTL_SECONDS
  · rw [if_pos hthere, DeviceTrust.scoreOf_some]
  · rw [if_neg hthere]
    exact score.2.1

theorem getScore_setex_self (redis : TrustRedis) (now : ℤ) (score : TrustScore) :
    DeviceTrust.getScore (redis.setex now (1000 * DEVICE_TRUST_TTL_SECONDS)
      (DeviceTrust.redisKey userId deviceFingerprint) (some score)) now userId deviceFingerprint = score := by
  have hthere : now < now + 1000 * DEVICE_TRUST_TTL_SECONDS := by
    unfold DEVICE_TRUST_TTL_SECONDS
    omega
  unfold DeviceTrust.getScore
  rw [ExpiringStore.read_setex_self redis _ _ hthere, DeviceTrust.scoreOf_some]

theorem getScore_del (redis : TrustRedis) (now : ℤ) :
    (DeviceTrust.getScore (KeyValue.del redis (DeviceTrust.redisKey userId deviceFingerprint)) now userId
      deviceFingerprint : ℚ) = 0 := by
  unfold DeviceTrust.getScore ExpiringStore.read
  rw [KeyValue.get_del_self]
  rfl

theorem TrustConfig.earned_nonneg (cfg : TrustConfig) (finished : ℕ) : 0 ≤ cfg.deviceTrustScoreIncrement * finished :=
  mul_nonneg cfg.min (Nat.cast_nonneg finished)

theorem TrustConfig.earned_mono (cfg : TrustConfig) {a b : ℕ} (h : a ≤ b) :
    cfg.deviceTrustScoreIncrement * a ≤ cfg.deviceTrustScoreIncrement * b :=
  mul_le_mul_of_nonneg_left (Nat.cast_le.mpr h) cfg.min

/-- The score that is written is covered by the authentications up to this one, if what was read has been earned. -/
theorem newScore_le_iff {finished : ℕ} (hstarted : finished ≤ s.finished) (currentScore : TrustScore) :
    (DeviceTrust.newScore cfg currentScore : ℚ) ≤ cfg.deviceTrustScoreIncrement * (s.finished + 1 - finished : ℕ) ↔
      s.Earned cfg finished currentScore := by
  have hnext : s.finished + 1 - finished = s.finishedSince finished + 1 := Nat.succ_sub hstarted
  unfold TrustState.Earned DeviceTrust.newScore
  rw [hnext, Nat.cast_add, Nat.cast_one, mul_add, mul_one]
  dsimp only
  rw [min_le_iff]
  constructor
  · rintro (hsum | hfull)
    · exact .inl (by linarith)
    · exact .inr hfull
  · rintro (hread | hfull)
    · exact .inl (by linarith)
    · exact .inr hfull

/-! ## Runs -/

/-- A revocation has started when no more than the present authentications had finished. -/
def StartedBefore (s : TrustState) : Prop :=
  ∀ finished, .revoking finished ∈ s.calls ∨ .revoked finished ∈ s.calls → finished ≤ s.finished

theorem StartedBefore.step (h : StartedBefore s) {e : TrustEvent} (hstep : TrustStep cfg userId deviceFingerprint s e t) :
    StartedBefore t := by
  have hset : ∀ {redis : TrustRedis} {i : ℕ} {phase phase' : TrustPhase}, s.calls[i]? = some phase →
      phase.isRecorded = false → (∀ finished, phase' = .revoking finished ∨ phase' = .revoked finished →
        phase = .revoking finished) → StartedBefore ⟨redis, s.calls.set i phase'⟩ := by
    intro redis i phase phase' hcall hrecorded hphase finished hmem
    rw [finished_set hcall hrecorded]
    have hold : .revoking finished ∈ s.calls ∨ .revoked finished ∈ s.calls := by
      obtain hmem | hmem := hmem
      · obtain hold | hnew := List.mem_or_eq_of_mem_set hmem
        · exact .inl hold
        · exact .inl (hphase finished (.inl hnew.symm) ▸ List.mem_of_getElem? hcall)
      · obtain hold | hnew := List.mem_or_eq_of_mem_set hmem
        · exact .inr hold
        · exact .inl (hphase finished (.inr hnew.symm) ▸ List.mem_of_getElem? hcall)
    have hle := h finished hold
    omega
  cases hstep with
  | recordSuccessfulAuth =>
    intro finished hmem
    have hfinished : TrustState.finished ⟨s.redis, s.calls ++ [.reading]⟩ = s.finished := by
      simp [TrustState.finished, TrustPhase.isRecorded]
    rw [hfinished]
    exact h finished (by simpa using hmem)
  | revokeDevice =>
    intro finished hmem
    have hfinished : TrustState.finished ⟨s.redis, s.calls ++ [.revoking s.finished]⟩ = s.finished := by
      simp [TrustState.finished, TrustPhase.isRecorded]
    rw [hfinished]
    by_cases hnew : finished = s.finished
    · exact hnew.le
    · exact h finished (by simpa [hnew] using hmem)
  | get hcall => exact hset hcall rfl (by simp)
  | setex hcall => exact hset hcall rfl (by simp)
  | del hcall => exact hset hcall rfl (by simp)
  | fail hcall hrecorded hrevoked => exact hset hcall hrecorded (by simp)

theorem RevocationSticks.step (h : RevocationSticks cfg userId deviceFingerprint s) (hstarted : StartedBefore s)
    {e : TrustEvent} (hguard : AddsToEarned cfg s e) (hstep : TrustStep cfg userId deviceFingerprint s e t) :
    RevocationSticks cfg userId deviceFingerprint t := by
  cases hstep with
  | recordSuccessfulAuth =>
    intro finished hmem now
    have hfinished : TrustState.finished ⟨s.redis, s.calls ++ [.reading]⟩ = s.finished := by
      simp [TrustState.finished, TrustPhase.isRecorded]
    rw [TrustState.finishedSince, hfinished]
    exact h finished (by simpa using hmem) now
  | revokeDevice =>
    intro finished hmem now
    have hfinished : TrustState.finished ⟨s.redis, s.calls ++ [.revoking s.finished]⟩ = s.finished := by
      simp [TrustState.finished, TrustPhase.isRecorded]
    rw [TrustState.finishedSince, hfinished]
    exact h finished (by simpa using hmem) now
  | @get i now' hcall =>
    intro finished hmem now
    rw [TrustState.finishedSince, finished_set hcall rfl]
    exact h finished ((List.mem_or_eq_of_mem_set hmem).resolve_right (by simp)) now
  | @setex i now' currentScore revocations hcall =>
    intro finished hmem now
    have hold : .revoked finished ∈ s.calls := (List.mem_or_eq_of_mem_set hmem).resolve_right (by simp)
    rw [TrustState.finishedSince, finished_set hcall rfl]
    refine le_trans (getScore_setex_le _ _ _ _) ((newScore_le_iff (hstarted finished (.inr hold)) _).mpr ?_)
    exact hguard _ _ hcall finished hold
  | @del i started hcall =>
    intro finished hmem now
    rw [getScore_del]
    exact cfg.earned_nonneg _
  | @fail i phase hcall hrecorded hrevoked =>
    intro finished hmem now
    rw [TrustState.finishedSince, finished_set hcall hrecorded]
    exact h finished ((List.mem_or_eq_of_mem_set hmem).resolve_right (by simp)) now

/-- An authentication that adds to what has not been earned undoes a revocation. -/
theorem not_sticks_of_adds (hstarted : StartedBefore s) {e : TrustEvent} (hguard : ¬ AddsToEarned cfg s e)
    (hstep : TrustStep cfg userId deviceFingerprint s e t) : ¬ RevocationSticks cfg userId deviceFingerprint t := by
  cases hstep with
  | @setex i now currentScore revocations hcall =>
    unfold AddsToEarned at hguard
    push Not at hguard
    obtain ⟨score, seen, hfound, finished, hmem, hearned⟩ := hguard
    obtain ⟨rfl, -⟩ := TrustPhase.writing.inj (Option.some.inj (hcall.symm.trans hfound))
    intro hsticks
    obtain hsame | hstill := eq_or_mem_set hcall hmem (.recorded (DeviceTrust.newScore cfg currentScore))
    · cases hsame
    · have hle := hsticks finished hstill now
      rw [getScore_setex_self, TrustState.finishedSince, finished_set hcall rfl] at hle
      exact hearned ((newScore_le_iff (hstarted finished (.inr hmem)) _).mp hle)
  | recordSuccessfulAuth => exact absurd trivial hguard
  | revokeDevice => exact absurd trivial hguard
  | get => exact absurd trivial hguard
  | del => exact absurd trivial hguard
  | fail => exact absurd trivial hguard

/-- **Revocation sticks.** However the commands of any number of calls interleave, the score is never more than what
has been earned since any revocation that is complete, if and only if no authentication adds to a score that has not
been earned since; and every score is one from 0 to 100. -/
theorem revocation_sticks_iff {redis : TrustRedis} {es : List TrustEvent}
    (h : (trustRuns cfg userId deviceFingerprint).run ⟨redis, []⟩ es = some t) :
    ((trustRuns cfg userId deviceFingerprint).GuardedRun (AddsToEarned cfg) ⟨redis, []⟩ es t ↔
      ∀ before later u, es = before ++ later → (trustRuns cfg userId deviceFingerprint).run ⟨redis, []⟩ before = some u →
        RevocationSticks cfg userId deviceFingerprint u) ∧
    ∀ now, 0 ≤ (DeviceTrust.getScore t.redis now userId deviceFingerprint : ℚ) ∧
      (DeviceTrust.getScore t.redis now userId deviceFingerprint : ℚ) ≤ 100 := by
  constructor
  · apply StepSystem.GuardedRun.iff_forall_reached
      (fun s => StartedBefore s ∧ RevocationSticks cfg userId deviceFingerprint s) _ _ (fun s hs => hs.2) _ h
    · exact ⟨by simp [StartedBefore], by simp [RevocationSticks]⟩
    · intro s e s' hs hguard hstep
      have hcases := trustStep_of_step hstep
      exact ⟨hs.1.step hcases, hs.2.step hs.1 hguard hcases⟩
    · intro s e s' hs hguard hstep
      exact not_sticks_of_adds hs.1 hguard (trustStep_of_step hstep)
  · exact fun now => (DeviceTrust.getScore t.redis now userId deviceFingerprint).2

/-! ## Authentications that no revocation interrupts -/

/-- No revocation has become complete between the two commands of an authentication. -/
def Undisturbed (s : TrustState) : TrustEvent → Prop
  | .setex i _ => ∀ call ∈ s.calls[i]?, ∀ revocations ∈ call.seen, revocations = s.revocations
  | _ => True

/-- What an authentication has read had been earned, as far as revocations go that were complete by then. -/
def ReadsEarned (cfg : TrustConfig) (s : TrustState) : Prop :=
  ∀ (currentScore : TrustScore) revocations, .writing currentScore revocations ∈ s.calls → revocations ≤ s.revocations ∧
    (revocations = s.revocations → ∀ finished, .revoked finished ∈ s.calls →
      (currentScore : ℚ) ≤ cfg.deviceTrustScoreIncrement * s.finishedSince finished)

theorem ReadsEarned.addsToEarned (h : ReadsEarned cfg s) (e : TrustEvent) (hguard : Undisturbed s e) :
    AddsToEarned cfg s e := by
  cases e with
  | setex i now =>
    intro currentScore revocations hcall finished hmem
    have hseen := hguard _ hcall revocations rfl
    exact .inl ((h currentScore revocations (List.mem_of_getElem? hcall)).2 hseen finished hmem)
  | _ => trivial

theorem ReadsEarned.append (h : ReadsEarned cfg s) {phase : TrustPhase} (hrecorded : phase.isRecorded = false)
    (hrevoked : phase.isRevoked = false) (hwriting : ∀ (currentScore : TrustScore) revocations, phase ≠ .writing currentScore revocations) :
    ReadsEarned cfg { s with calls := s.calls ++ [phase] } := by
  have hcount : TrustState.revocations { s with calls := s.calls ++ [phase] } = s.revocations := by
    simp [TrustState.revocations, hrevoked]
  have hfinished : TrustState.finished { s with calls := s.calls ++ [phase] } = s.finished := by
    simp [TrustState.finished, hrecorded]
  intro currentScore revocations hmem
  have hold : .writing currentScore revocations ∈ s.calls :=
    (List.mem_append.mp hmem).resolve_right fun hnew => hwriting _ _ (List.mem_singleton.mp hnew).symm
  obtain ⟨hle, hearned⟩ := h currentScore revocations hold
  rw [hcount]
  refine ⟨hle, fun hsame finished hrevoked' => ?_⟩
  rw [TrustState.finishedSince, hfinished]
  refine hearned hsame finished ((List.mem_append.mp hrevoked').resolve_right fun hnew => ?_)
  rw [← List.mem_singleton.mp hnew] at hrevoked
  cases hrevoked

/-- A step of a call that completes no revocation, and reads nothing. -/
theorem ReadsEarned.set (h : ReadsEarned cfg s) {redis : TrustRedis} {i : ℕ} {phase phase' : TrustPhase}
    (hcall : s.calls[i]? = some phase) (hrecorded : phase.isRecorded = false) (hrevoked : phase.isRevoked = false)
    (hrevoked' : phase'.isRevoked = false)
    (hwriting : ∀ (currentScore : TrustScore) revocations, phase' = .writing currentScore revocations → revocations = s.revocations ∧
      ∀ finished, .revoked finished ∈ s.calls →
        (currentScore : ℚ) ≤ cfg.deviceTrustScoreIncrement * s.finishedSince finished) :
    ReadsEarned cfg ⟨redis, s.calls.set i phase'⟩ := by
  have hcount : TrustState.revocations ⟨redis, s.calls.set i phase'⟩ = s.revocations := by
    rw [revocations_set hcall hrevoked, hrevoked']
    rfl
  have hlater : ∀ finished, s.finishedSince finished ≤
      TrustState.finishedSince ⟨redis, s.calls.set i phase'⟩ finished := by
    intro finished
    rw [TrustState.finishedSince, TrustState.finishedSince, finished_set hcall hrecorded]
    omega
  intro currentScore revocations hmem
  rw [hcount]
  have hearned : revocations ≤ s.revocations ∧ (revocations = s.revocations → ∀ finished, .revoked finished ∈ s.calls →
      (currentScore : ℚ) ≤ cfg.deviceTrustScoreIncrement * s.finishedSince finished) := by
    obtain hold | hnew := List.mem_or_eq_of_mem_set hmem
    · exact h currentScore revocations hold
    · obtain ⟨hsame, hread⟩ := hwriting currentScore revocations hnew.symm
      exact ⟨hsame.le, fun _ => hread⟩
  refine ⟨hearned.1, fun hsame finished hmem' => ?_⟩
  obtain hold | hnew := List.mem_or_eq_of_mem_set hmem'
  · exact le_trans (hearned.2 hsame finished hold) (cfg.earned_mono (hlater finished))
  · rw [← hnew] at hrevoked'
    cases hrevoked'

theorem ReadsEarned.step (h : ReadsEarned cfg s) (hsticks : RevocationSticks cfg userId deviceFingerprint s)
    {e : TrustEvent} (hstep : TrustStep cfg userId deviceFingerprint s e t) : ReadsEarned cfg t := by
  cases hstep with
  | recordSuccessfulAuth => exact h.append rfl rfl (by simp)
  | revokeDevice => exact h.append rfl rfl (by simp)
  | @get i now hcall =>
    refine h.set hcall rfl rfl rfl fun currentScore revocations hphase => ?_
    obtain ⟨rfl, rfl⟩ := TrustPhase.writing.inj hphase
    exact ⟨rfl, fun finished hmem => hsticks finished hmem now⟩
  | setex hcall => exact h.set hcall rfl rfl rfl (by simp)
  | @del i started hcall =>
    intro currentScore revocations hmem
    have hold : .writing currentScore revocations ∈ s.calls := (List.mem_or_eq_of_mem_set hmem).resolve_right (by simp)
    have hle := (h currentScore revocations hold).1
    rw [revocations_set hcall rfl, TrustPhase.isRevoked, if_pos rfl]
    exact ⟨by omega, fun hsame => by omega⟩
  | fail hcall hrecorded hrevoked => exact h.set hcall hrecorded hrevoked rfl (by simp)

/-- **Revocations between authentications.** Where no revocation becomes complete between the two commands of an
authentication, no authentication adds to a score that has not been earned. -/
theorem addsToEarned_of_undisturbed {redis : TrustRedis} {es : List TrustEvent}
    (h : (trustRuns cfg userId deviceFingerprint).GuardedRun Undisturbed ⟨redis, []⟩ es t) :
    (trustRuns cfg userId deviceFingerprint).GuardedRun (AddsToEarned cfg) ⟨redis, []⟩ es t := by
  refine h.mono_of_invariant (I := fun s => StartedBefore s ∧ RevocationSticks cfg userId deviceFingerprint s ∧
    ReadsEarned cfg s) (fun s e s' hs hguard hstep => ?_) ⟨by simp [StartedBefore], by simp [RevocationSticks],
      by simp [ReadsEarned]⟩
  obtain ⟨hstarted, hsticks, hreads⟩ := hs
  have hcases := trustStep_of_step hstep
  have hadds := hreads.addsToEarned e hguard
  exact ⟨⟨hstarted.step hcases, hsticks.step hstarted hadds hcases, hreads.step hsticks hcases⟩, hadds⟩

end

/-! ## One authentication and one revocation -/

/-- The default increment. -/
def testTrustConfig : TrustConfig := ⟨5, by norm_num, by norm_num⟩

/-- The device has a score of 50. -/
def trustedDevice : TrustRedis :=
  ExpiringStore.setex [] 0 (1000 * DEVICE_TRUST_TTL_SECONDS) (DeviceTrust.redisKey "user-1" "fp-1") (some 50)

/-- Authentication, then revocation, then authentication again. -/
def oneByOne : List TrustEvent :=
  [.recordSuccessfulAuth, .get 0 1000, .setex 0 2000, .revokeDevice, .del 1, .recordSuccessfulAuth, .get 2 3000,
    .setex 2 4000]

/-- The revocation comes between the commands of an authentication. -/
def revokedInBetween : List TrustEvent :=
  [.recordSuccessfulAuth, .revokeDevice, .get 0 1000, .del 1, .setex 0 2000]

instance (s : TrustState) : (e : TrustEvent) → Decidable (Undisturbed s e)
  | .setex i _ => inferInstanceAs (Decidable (∀ call ∈ s.calls[i]?, ∀ revocations ∈ call.seen, revocations = s.revocations))
  | .recordSuccessfulAuth | .revokeDevice | .get _ _ | .del _ | .fail _ => isTrue trivial

theorem oneByOne_sticks : ∃ t : TrustState,
    (trustRuns testTrustConfig "user-1" "fp-1").run ⟨trustedDevice, []⟩ oneByOne = some t ∧
      RevocationSticks testTrustConfig "user-1" "fp-1" t := by
  have hsome : ((trustRuns testTrustConfig "user-1" "fp-1").guardedRun Undisturbed ⟨trustedDevice, []⟩
      oneByOne).isSome = true := by decide +kernel
  obtain ⟨t, ht⟩ := Option.isSome_iff_exists.mp hsome
  have hrun := addsToEarned_of_undisturbed (StepSystem.GuardedRun.of_guardedRun ht)
  exact ⟨t, hrun.run, (revocation_sticks_iff hrun.run).1.mp hrun oneByOne [] t (List.append_nil _).symm hrun.run⟩

/-- The score is 55 after a revocation and one authentication that has finished since. -/
theorem revokedInBetween_undone : ∃ t : TrustState,
    (trustRuns testTrustConfig "user-1" "fp-1").run ⟨trustedDevice, []⟩ revokedInBetween = some t ∧
      ¬ RevocationSticks testTrustConfig "user-1" "fp-1" t := by
  have hsome : ((trustRuns testTrustConfig "user-1" "fp-1").run ⟨trustedDevice, []⟩ revokedInBetween).any (fun t =>
      decide (TrustPhase.revoked 0 ∈ t.calls) && decide (t.finishedSince 0 = 1) &&
        decide ((DeviceTrust.getScore t.redis 3000 "user-1" "fp-1" : ℚ) = 55)) = true := by decide +kernel
  obtain ⟨t, ht, hall⟩ := (Option.any_eq_true _ _).mp hsome
  simp only [Bool.and_eq_true, decide_eq_true_eq] at hall
  obtain ⟨⟨hrevoked, hfinished⟩, hscore⟩ := hall
  refine ⟨t, ht, fun hsticks => ?_⟩
  have hle := hsticks 0 hrevoked 3000
  rw [hscore, hfinished] at hle
  norm_num [testTrustConfig] at hle

end SuperAi.Auth
