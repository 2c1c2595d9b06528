import SuperAi.Tokens.JwtValidator
import SuperAi.Foundations.ExpiringStore

/-! # Rotation of refresh tokens (`auth/token.rotator.ts`)

`rotate` verifies a refresh token, looks for the marker of its `jti`, sets it, and signs a new pair
from the claims of the old token. A marker that is already there is a replay: the key of the token's
family is deleted, which nothing else reads or writes.
-/
namespace SuperAi.Tokens
open SuperAi.Foundations
set_option autoImplicit false

structure TokenPair where
  accessToken : String
  refreshToken : String

/-- The errors of `rotate`: three authentication errors of its own, and that of the schema. -/
inductive RotateError
  | invalidRefreshToken
  | missingJti
  | refreshTokenReplay
  | ZodError
  deriving DecidableEq

/-- Markers hold the time at which they were set. -/
abbrev TokenRedis := ExpiringStore String ℤ

def usedKey (jti : Option JsonValue) : String := "refresh:used:" ++ String.ofList (coerce jti)

def familyKey (familyId : Option JsonValue) : String := "refresh:family:" ++ String.ofList (coerce familyId)

/-- The times that a call of `rotate` reads, one after another. -/
structure RotateClock where
  verified : ℤ
  read : ℤ
  marked : ℤ
  access : ℤ
  refresh : ℤ
  started : 1000 ≤ verified
  verified_le_read : verified ≤ read
  read_le_marked : read ≤ marked
  marked_le_access : marked ≤ access
  access_le_refresh : access ≤ refresh

/-! ## `TokenRotator`, with the configuration of its validator -/

namespace TokenRotator
variable (jwtValidator : JwtValidator)

/-- The checks before the first access to Redis. -/
def verifyRefresh (refreshToken : String) (now : ℤ) : Except RotateError JsonValue :=
  match jwtValidator.jose.jwtVerify refreshToken now with
  | none => .error .invalidRefreshToken
  | some payload => if truthy (property payload "jti") then .ok payload else .error .missingJti

def dropFamily (payload : JsonValue) (redis : TokenRedis) : TokenRedis :=
  KeyValue.del redis (familyKey (orElseNullish (property payload "fid") (property payload "jti")))

def markUsed (payload : JsonValue) (now : ℤ) (redis : TokenRedis) : TokenRedis :=
  redis.setex now (1000 * jwtValidator.config.refreshTokenExpirySeconds)
    (usedKey (property payload "jti")) now

/-- The end of a rotation, after the marker is set. -/
def issuePair (payload : JsonValue) (access refresh : ℤ) (jti : String) : Except RotateError TokenPair :=
  match parseValidatedToken payload with
  | none => .error .ZodError
  | some validated =>
    .ok ⟨jwtValidator.generateAccessToken validated.userId validated.sessionId validated.scope
        validated.deviceFingerprint access,
      jwtValidator.generateRefreshToken validated.userId validated.sessionId
        validated.deviceFingerprint jti refresh⟩

/-- `rotate` with no other call under way. -/
def rotate (refreshToken : String) (clock : RotateClock) (jti : String) (redis : TokenRedis) :
    Except RotateError TokenPair × TokenRedis :=
  match verifyRefresh jwtValidator refreshToken clock.verified with
  | .error error => (.error error, redis)
  | .ok payload =>
    if (redis.read clock.read (usedKey (property payload "jti"))).isSome then
      (.error .refreshTokenReplay, dropFamily payload redis)
    else
      (issuePair jwtValidator payload clock.access clock.refresh jti,
        markUsed jwtValidator payload clock.marked redis)

end TokenRotator

/-! ## Keys -/

theorem usedKey_ne_familyKey (jti familyId : Option JsonValue) : usedKey jti ≠ familyKey familyId := by
  intro h
  have hafter : "refresh:" ++ ("used:" ++ String.ofList (coerce jti)) =
      "refresh:" ++ ("family:" ++ String.ofList (coerce familyId)) := by
    rw [← String.append_assoc, ← String.append_assoc]
    exact h
  have hhead := congrArg (·.toList.head?) ((String.append_right_inj _).mp hafter)
  simp at hhead

theorem usedKey_str_inj {jti jti' : String} :
    usedKey (some (.str jti)) = usedKey (some (.str jti')) ↔ jti = jti' := by
  constructor
  · intro h
    have hids := (String.append_right_inj _).mp h
    simpa using hids
  · rintro rfl
    rfl

theorem read_dropFamily (payload : JsonValue) (redis : TokenRedis) (now : ℤ) (jti : Option JsonValue) :
    (TokenRotator.dropFamily payload redis).read now (usedKey jti) = redis.read now (usedKey jti) :=
  ExpiringStore.read_del_of_ne (usedKey_ne_familyKey _ _)

theorem get_dropFamily (payload : JsonValue) (redis : TokenRedis) (jti : Option JsonValue) :
    KeyValue.get (TokenRotator.dropFamily payload redis) (usedKey jti) = KeyValue.get redis (usedKey jti) :=
  KeyValue.get_del_of_ne (usedKey_ne_familyKey _ _)

/-! ## Rotations of the validator's own tokens -/

section
variable {jwtValidator : JwtValidator} {userId sessionId deviceFingerprint jti jti' : String}
  {issuedAt now access refresh : ℤ} {clock : RotateClock} {redis : TokenRedis}

theorem epochSeconds_mono {now now' : ℤ} (h : now ≤ now') : epochSeconds now ≤ epochSeconds now' :=
  Int.ediv_le_ediv (by norm_num) h

theorem lt_of_epochSeconds_lt {now seconds : ℤ} (h : epochSeconds now < seconds) : now < 1000 * seconds := by
  unfold epochSeconds at h
  omega

theorem verifyRefresh_refreshToken (hjose : jwtValidator.jose.Lawful) (hjti : jti ≠ "") :
    TokenRotator.verifyRefresh jwtValidator
        (jwtValidator.generateRefreshToken userId sessionId deviceFingerprint jti issuedAt) now =
      if epochSeconds now < jwtValidator.refreshExpiry issuedAt then
        .ok (jwtValidator.refreshPayload userId sessionId deviceFingerprint jti issuedAt)
      else .error .invalidRefreshToken := by
  have htruthy : truthy (property
      (jwtValidator.refreshPayload userId sessionId deviceFingerprint jti issuedAt) "jti") = true :=
    bne_iff_ne.mpr hjti
  rw [TokenRotator.verifyRefresh, jwtVerify_refreshToken hjose]
  by_cases halive : epochSeconds now < jwtValidator.refreshExpiry issuedAt
  · simp only [if_pos halive, htruthy, if_true]
  · simp only [if_neg halive]

/-- The new pair has the claims of the old refresh token, its scope among them. -/
theorem issuePair_refreshPayload (hissued : 0 < epochSeconds issuedAt) {pair : TokenPair} :
    TokenRotator.issuePair jwtValidator
        (jwtValidator.refreshPayload userId sessionId deviceFingerprint jti issuedAt) access refresh jti' =
        .ok pair ↔
      (userId ≠ "" ∧ sessionId ≠ "" ∧ deviceFingerprint ≠ "") ∧
        pair = ⟨jwtValidator.generateAccessToken userId sessionId ["refresh"] deviceFingerprint access,
          jwtValidator.generateRefreshToken userId sessionId deviceFingerprint jti' refresh⟩ := by
  unfold TokenRotator.issuePair
  constructor
  · intro h
    split at h
    · cases h
    · rename_i validated hparse
      obtain ⟨huser, hsession, hdevice⟩ := refreshPayload_valid hparse
      rw [parseValidatedToken_refreshPayload huser hsession hdevice hissued] at hparse
      obtain rfl := Option.some.inj hparse
      exact ⟨⟨huser, hsession, hdevice⟩, (Except.ok.inj h).symm⟩
  · rintro ⟨⟨huser, hsession, hdevice⟩, rfl⟩
    rw [parseValidatedToken_refreshPayload huser hsession hdevice hissued]

theorem rotate_refreshToken (hjose : jwtValidator.jose.Lawful) (hjti : jti ≠ "") :
    TokenRotator.rotate jwtValidator
        (jwtValidator.generateRefreshToken userId sessionId deviceFingerprint jti issuedAt) clock jti'
        redis =
      if epochSeconds clock.verified < jwtValidator.refreshExpiry issuedAt then
        if (redis.read clock.read (usedKey (some (.str jti)))).isSome then
          (.error .refreshTokenReplay, TokenRotator.dropFamily
            (jwtValidator.refreshPayload userId sessionId deviceFingerprint jti issuedAt) redis)
        else
          (TokenRotator.issuePair jwtValidator
            (jwtValidator.refreshPayload userId sessionId deviceFingerprint jti issuedAt) clock.access
            clock.refresh jti',
          TokenRotator.markUsed jwtValidator
            (jwtValidator.refreshPayload userId sessionId deviceFingerprint jti issuedAt) clock.marked
            redis)
      else (.error .invalidRefreshToken, redis) := by
  have hid : property (jwtValidator.refreshPayload userId sessionId deviceFingerprint jti issuedAt) "jti" =
      some (.str jti) := rfl
  rw [TokenRotator.rotate, verifyRefresh_refreshToken hjose hjti]
  by_cases halive : epochSeconds clock.verified < jwtValidator.refreshExpiry issuedAt
  · simp only [if_pos halive, hid]
  · simp only [if_neg halive]

theorem rotate_fresh (hjose : jwtValidator.jose.Lawful) (hjti : jti ≠ "") (hissued : 0 < epochSeconds issuedAt)
    (hfields : userId ≠ "" ∧ sessionId ≠ "" ∧ deviceFingerprint ≠ "")
    (halive : epochSeconds clock.verified < jwtValidator.refreshExpiry issuedAt)
    (hunused : redis.read clock.read (usedKey (some (.str jti))) = none) :
    TokenRotator.rotate jwtValidator
        (jwtValidator.generateRefreshToken userId sessionId deviceFingerprint jti issuedAt) clock jti'
        redis =
      (.ok ⟨jwtValidator.generateAccessToken userId sessionId ["refresh"] deviceFingerprint clock.access,
          jwtValidator.generateRefreshToken userId sessionId deviceFingerprint jti' clock.refresh⟩,
        TokenRotator.markUsed jwtValidator
          (jwtValidator.refreshPayload userId sessionId deviceFingerprint jti issuedAt) clock.marked
          redis) := by
  rw [rotate_refreshToken hjose hjti, if_pos halive, hunused, (issuePair_refreshPayload hissued).mpr ⟨hfields, rfl⟩]
  rfl

/-- A call that takes no time. -/
def RotateClock.still (now : ℤ) (started : 1000 ≤ now) : RotateClock :=
  ⟨now, now, now, now, now, started, le_refl _, le_refl _, le_refl _, le_refl _⟩

end
end SuperAi.Tokens
