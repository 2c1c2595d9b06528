import SuperAi.Tokens.TokenRotator

/-! # What rotated access tokens authorize

`generateRefreshToken` gives a refresh token the scope `refresh`, and `rotate` copies the scope of the
refresh token into the new access token. So along every chain of rotations an access token authorizes
`refresh` and nothing else, whatever the scopes of the access token it replaces (`authority_iff`).
-/
namespace SuperAi.Tokens
open SuperAi.Foundations
set_option autoImplicit false

/-- The pairs that a chain of successful rotations yields, each from the refresh token of the one before.
Nothing is assumed of the times and of Redis. -/
inductive RotationChain (jwtValidator : JwtValidator) : String → List TokenPair → Prop
  | nil (refreshToken : String) : RotationChain jwtValidator refreshToken []
  | cons {refreshToken jti : String} {clock : RotateClock} {redis : TokenRedis} {pair : TokenPair}
      {pairs : List TokenPair}
      (uuid : jti ≠ "")
      (rotates : (TokenRotator.rotate jwtValidator refreshToken clock jti redis).1 = .ok pair)
      (rest : RotationChain jwtValidator pair.refreshToken pairs) :
      RotationChain jwtValidator refreshToken (pair :: pairs)

section
variable (jwtValidator : JwtValidator) (token : String)

def Alive (now : ℤ) : Prop := (jwtValidator.jose.jwtVerify token now).isSome

/-- The token passes for every scope of the list as long as it lives, and at no time for another. -/
structure Authorizes (scopes : List String) : Prop where
  granted : ∀ s ∈ scopes, ∀ verifiedAt now, verifiedAt ≤ now → Alive jwtValidator token now →
    ∃ validated, jwtValidator.validate token s verifiedAt now = .ok validated
  notGained : ∀ s, s ∉ scopes → ∀ verifiedAt now validated,
    jwtValidator.validate token s verifiedAt now ≠ .ok validated

end

section
variable {jwtValidator : JwtValidator} {userId sessionId deviceFingerprint jti : String}
  {scope : List String} {issuedAt : ℤ}

theorem alive_accessToken (hjose : jwtValidator.jose.Lawful) {now : ℤ} :
    Alive jwtValidator (jwtValidator.generateAccessToken userId sessionId scope deviceFingerprint issuedAt)
        now ↔
      epochSeconds now < epochSeconds issuedAt + jwtValidator.config.accessTokenExpirySeconds := by
  rw [Alive, jwtVerify_accessToken hjose]
  split
  · rename_i halive
    simp [halive]
  · rename_i hdead
    simp [hdead]

theorem validate_accessToken (hjose : jwtValidator.jose.Lawful) (huser : userId ≠ "")
    (hsession : sessionId ≠ "") (hdevice : deviceFingerprint ≠ "") (hissued : 0 < epochSeconds issuedAt)
    (s : String) (verifiedAt now : ℤ) :
    (∃ validated, jwtValidator.validate
        (jwtValidator.generateAccessToken userId sessionId scope deviceFingerprint issuedAt) s verifiedAt
        now = .ok validated) ↔
      s ∈ scope ∧
        epochSeconds verifiedAt < epochSeconds issuedAt + jwtValidator.config.accessTokenExpirySeconds ∧
          epochSeconds now < epochSeconds issuedAt + jwtValidator.config.accessTokenExpirySeconds := by
  rw [JwtValidator.validate, jwtVerify_accessToken hjose]
  by_cases hverified :
      epochSeconds verifiedAt < epochSeconds issuedAt + jwtValidator.config.accessTokenExpirySeconds
  · rw [if_pos hverified, Option.bind_some,
      parseValidatedToken_accessPayload huser hsession hdevice hissued]
    simp only [Int.cast_le, List.contains_iff_mem, hverified, true_and]
    by_cases hexpired :
        epochSeconds issuedAt + jwtValidator.config.accessTokenExpirySeconds ≤ epochSeconds now
    · simp [hexpired, not_lt.mpr hexpired]
    · by_cases hmem : s ∈ scope
      · simp [hexpired, hmem, not_le.mp hexpired]
      · simp [hexpired, hmem]
  · simp [hverified]

theorem authorizes_accessToken (hjose : jwtValidator.jose.Lawful) (huser : userId ≠ "")
    (hsession : sessionId ≠ "") (hdevice : deviceFingerprint ≠ "") (hissued : 0 < epochSeconds issuedAt)
    (scopes : List String) :
    Authorizes jwtValidator
        (jwtValidator.generateAccessToken userId sessionId scope deviceFingerprint issuedAt) scopes ↔
      ∀ s, s ∈ scopes ↔ s ∈ scope := by
  have hvalidate := @validate_accessToken jwtValidator userId sessionId deviceFingerprint scope issuedAt
    hjose huser hsession hdevice hissued
  constructor
  · intro h s
    have hpos := jwtValidator.config.access_pos
    have hborn : epochSeconds issuedAt <
        epochSeconds issuedAt + jwtValidator.config.accessTokenExpirySeconds := by omega
    constructor
    · intro hmem
      have hok := h.granted s hmem issuedAt issuedAt (le_refl _) ((alive_accessToken hjose).mpr hborn)
      exact ((hvalidate s issuedAt issuedAt).mp hok).1
    · intro hmem
      by_contra hnot
      obtain ⟨validated, hok⟩ := (hvalidate s issuedAt issuedAt).mpr ⟨hmem, hborn, hborn⟩
      exact h.notGained s hnot issuedAt issuedAt validated hok
  · intro h
    constructor
    · intro s hmem verifiedAt now hle halive
      have hnow := (alive_accessToken hjose).mp halive
      exact (hvalidate s verifiedAt now).mpr
        ⟨(h s).mp hmem, (epochSeconds_mono hle).trans_lt hnow, hnow⟩
    · intro s hnot verifiedAt now validated hok
      exact hnot ((h s).mpr ((hvalidate s verifiedAt now).mp ⟨validated, hok⟩).1)

theorem rotated_pair (hjose : jwtValidator.jose.Lawful) (hjti : jti ≠ "")
    (hissued : 0 < epochSeconds issuedAt) {clock : RotateClock} {jti' : String} {redis : TokenRedis}
    {pair : TokenPair}
    (h : (TokenRotator.rotate jwtValidator
      (jwtValidator.generateRefreshToken userId sessionId deviceFingerprint jti issuedAt) clock jti'
      redis).1 = .ok pair) :
    (userId ≠ "" ∧ sessionId ≠ "" ∧ deviceFingerprint ≠ "") ∧
      pair = ⟨jwtValidator.generateAccessToken userId sessionId ["refresh"] deviceFingerprint clock.access,
        jwtValidator.generateRefreshToken userId sessionId deviceFingerprint jti' clock.refresh⟩ := by
  rw [rotate_refreshToken hjose hjti] at h
  by_cases halive : epochSeconds clock.verified < jwtValidator.refreshExpiry issuedAt
  · rw [if_pos halive] at h
    by_cases hused : (redis.read clock.read (usedKey (some (.str jti)))).isSome
    · rw [if_pos hused] at h
      cases h
    · rw [if_neg hused] at h
      exact (issuePair_refreshPayload hissued).mp h
  · rw [if_neg halive] at h
    cases h

theorem RotateClock.access_pos (clock : RotateClock) : 0 < epochSeconds clock.access := by
  have hstarted := clock.started
  have hread := clock.verified_le_read
  have hmarked := clock.read_le_marked
  have haccess := clock.marked_le_access
  unfold epochSeconds
  omega

theorem RotateClock.refresh_pos (clock : RotateClock) : 0 < epochSeconds clock.refresh :=
  clock.access_pos.trans_le (epochSeconds_mono clock.access_le_refresh)

/-- Every access token of the chain has the claims of the first refresh token, and its scope. -/
theorem RotationChain.accessToken (hjose : jwtValidator.jose.Lawful) {pairs : List TokenPair}
    (hjti : jti ≠ "") (hissued : 0 < epochSeconds issuedAt)
    (h : RotationChain jwtValidator
      (jwtValidator.generateRefreshToken userId sessionId deviceFingerprint jti issuedAt) pairs) :
    ∀ pair ∈ pairs, (userId ≠ "" ∧ sessionId ≠ "" ∧ deviceFingerprint ≠ "") ∧
      ∃ clock : RotateClock, pair.accessToken =
        jwtValidator.generateAccessToken userId sessionId ["refresh"] deviceFingerprint clock.access := by
  induction pairs generalizing jti issuedAt with
  | nil =>
    intro pair hpair
    cases hpair
  | cons first pairs ih =>
    cases h with
    | @cons _ jti' clock redis _ _ huuid hrotates hrest =>
      obtain ⟨hfields, rfl⟩ := rotated_pair hjose hjti hissued hrotates
      intro pair hpair
      cases hpair with
      | head => exact ⟨hfields, clock, rfl⟩
      | tail _ hpair => exact ih huuid clock.refresh_pos hrest pair hpair

/-- **Authority.** The access tokens of a chain of rotations have the authority of an access token with
the scopes `scopes` exactly when these are the scope `refresh` alone. -/
theorem authority_iff (hjose : jwtValidator.jose.Lawful) {pairs : List TokenPair} (hjti : jti ≠ "")
    (hissued : 0 < epochSeconds issuedAt) (scopes : List String)
    (h : RotationChain jwtValidator
      (jwtValidator.generateRefreshToken userId sessionId deviceFingerprint jti issuedAt) pairs)
    {pair : TokenPair} (hpair : pair ∈ pairs) :
    Authorizes jwtValidator pair.accessToken scopes ↔ ∀ s, s ∈ scopes ↔ s = "refresh" := by
  obtain ⟨⟨huser, hsession, hdevice⟩, clock, haccess⟩ := h.accessToken hjose hjti hissued pair hpair
  rw [haccess, authorizes_accessToken hjose huser hsession hdevice clock.access_pos]
  simp only [List.mem_singleton]

end

/-! ## One rotation -/

def testRefreshToken (jti : String) (issuedAt : ℤ) : String :=
  testValidator.generateRefreshToken "user-123" "session-456" "fp-abc" jti issuedAt

def testPair (jti : String) (now : ℤ) : TokenPair :=
  ⟨testValidator.generateAccessToken "user-123" "session-456" ["refresh"] "fp-abc" now,
    testRefreshToken jti now⟩

theorem rotate_testRefreshToken {jti : String} {issuedAt now : ℤ} (jti' : String) (redis : TokenRedis)
    (hjti : jti ≠ "") (hissued : 0 < epochSeconds issuedAt) (hnow : 1000 ≤ now)
    (halive : epochSeconds now < testValidator.refreshExpiry issuedAt)
    (hunused : redis.read now (usedKey (some (.str jti))) = none) :
    TokenRotator.rotate testValidator (testRefreshToken jti issuedAt) (RotateClock.still now hnow) jti'
        redis =
      (.ok (testPair jti' now), TokenRotator.markUsed testValidator
        (testValidator.refreshPayload "user-123" "session-456" "fp-abc" jti issuedAt) now redis) := by
  have hfields : "user-123" ≠ "" ∧ "session-456" ≠ "" ∧ "fp-abc" ≠ "" := by decide
  exact rotate_fresh testValidator_lawful hjti hissued hfields halive hunused

def testPayload (sessionId : String) : JsonValue :=
  testValidator.refreshPayload "user-123" sessionId "fp-abc" "jti-1" 1775988000000

theorem issuePair_testPayload (jti : String) :
    TokenRotator.issuePair testValidator (testPayload "session-456") 1775988060000 1775988060000 jti =
      .ok (testPair jti 1775988060000) := by
  have hfields : "user-123" ≠ "" ∧ "session-456" ≠ "" ∧ "fp-abc" ≠ "" := by decide
  exact (issuePair_refreshPayload (by decide)).mpr ⟨hfields, rfl⟩

theorem testChain :
    RotationChain testValidator (testRefreshToken "jti-1" 1775988000000)
      [testPair "jti-2" 1775988060000] := by
  have hrotate := rotate_testRefreshToken "jti-2" [] (show "jti-1" ≠ "" by decide)
    (show 0 < epochSeconds 1775988000000 by decide) (show 1000 ≤ 1775988060000 by decide) (by decide) rfl
  exact .cons (by decide) (congrArg Prod.fst hrotate) (.nil _)

/-- Rotating keeps the authority of an access token with the scope `refresh`. -/
theorem refresh_scope_kept :
    Authorizes testValidator (testPair "jti-2" 1775988060000).accessToken ["refresh"] :=
  (authority_iff testValidator_lawful (by decide) (by decide) ["refresh"] testChain
    (List.mem_singleton_self _)).mpr fun _ => List.mem_singleton

/-- No scope of an access token other than `refresh` survives a rotation. -/
theorem trading_scope_lost :
    ¬ ∀ (scopes : List String) (pairs : List TokenPair),
      RotationChain testValidator (testRefreshToken "jti-1" 1775988000000) pairs →
        ∀ pair ∈ pairs, Authorizes testValidator pair.accessToken scopes := by
  intro hclaim
  have hauthorizes := hclaim ["trade:write"] _ testChain _ (List.mem_singleton_self _)
  have hdevice : "fp-abc" ≠ "" := by decide
  have hscopes := (authorizes_accessToken testValidator_lawful (by decide) (by decide) hdevice (by decide)
    ["trade:write"]).mp hauthorizes
  have hmem := (hscopes "trade:write").mp (List.mem_singleton_self _)
  exact absurd (List.mem_singleton.mp hmem) (by decide)

end SuperAi.Tokens
