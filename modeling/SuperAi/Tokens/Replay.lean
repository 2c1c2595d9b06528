import SuperAi.Tokens.Authority
import SuperAi.Foundations.StepSystem

/-! # Replays and the descendants of a token (`auth/token.rotator.ts`)

A rotation of a used token is a replay. It deletes the key of the token's family, but no rotation reads
such a key: the tokens that descend from the replayed one stay as they are. So after a replay no
descendant is rotated exactly as long as none of them was still live at the time of the replay
(`replay_final`, `live_rotates`).
-/
namespace SuperAi.Tokens
open SuperAi.Foundations
set_option autoImplicit false

/-- A refresh token with the tokens it was rotated from, by their places in the list of all. -/
structure IssuedToken where
  token : String
  jti : String
  issuedAt : ℤ
  lineage : List ℕ

/-- All refresh tokens, and the calls of `rotate` with their results, in the order of time. -/
structure Sessions where
  now : ℤ
  redis : TokenRedis
  issued : List IssuedToken
  calls : List (ℕ × Except RotateError TokenPair)

inductive SessionStep
  | login (userId sessionId deviceFingerprint jti : String) (now : ℤ)
  | rotate (i : ℕ) (clock : RotateClock) (jti : String)

def Sessions.FreshId (s : Sessions) (jti : String) : Prop := jti ≠ "" ∧ ∀ t ∈ s.issued, t.jti ≠ jti

instance (s : Sessions) (jti : String) : Decidable (s.FreshId jti) := by
  unfold Sessions.FreshId
  infer_instance

def child (i : ℕ) (t : IssuedToken) (clock : RotateClock) (jti : String) :
    Except RotateError TokenPair → Option IssuedToken
  | .ok pair => some ⟨pair.refreshToken, jti, clock.refresh, i :: t.lineage⟩
  | .error _ => none

section
variable (jwtValidator : JwtValidator)

def Sessions.step (s : Sessions) : SessionStep → Option Sessions
  | .login userId sessionId deviceFingerprint jti now =>
    if s.now ≤ now ∧ s.FreshId jti then
      let token := jwtValidator.generateRefreshToken userId sessionId deviceFingerprint jti now
      some { s with now, issued := s.issued ++ [⟨token, jti, now, []⟩] }
    else none
  | .rotate i clock jti =>
    match s.issued[i]? with
    | none => none
    | some t =>
      if s.now ≤ clock.verified ∧ s.FreshId jti then
        let result := TokenRotator.rotate jwtValidator t.token clock jti s.redis
        some
          { now := clock.refresh
            redis := result.2
            issued := s.issued ++ (child i t clock jti result.1).toList
            calls := s.calls ++ [(i, result.1)] }
      else none

def sessions : StepSystem Sessions SessionStep := ⟨Sessions.step jwtValidator⟩

/-- A rotation of the token at this time would succeed: it is verified, valid, and not used. -/
def Live (redis : TokenRedis) (now : ℤ) (token : String) : Prop :=
  ∃ payload, TokenRotator.verifyRefresh jwtValidator token now = .ok payload ∧
    redis.read now (usedKey (property payload "jti")) = none ∧ (parseValidatedToken payload).isSome

end

/-- Token `j` was got from token `i` by some number of rotations. -/
def Descends (issued : List IssuedToken) (i j : ℕ) : Prop :=
  i = j ∨ ∃ t, issued[j]? = some t ∧ i ∈ t.lineage

/-- After a replay of a token, no token that descends from it is rotated. -/
def ReplayFinal (s : Sessions) : Prop :=
  ∀ (a b i j : ℕ) (pair : TokenPair), a < b →
    s.calls[a]? = some (i, .error .refreshTokenReplay) → s.calls[b]? = some (j, .ok pair) →
      ¬ Descends s.issued i j

/-- A call that finds a marker leaves no live descendant behind, and one that finds none reads while the
token is alive. -/
def NoneLive (jwtValidator : JwtValidator) (s : Sessions) : SessionStep → Prop
  | .rotate i clock _ => ∀ t payload, s.issued[i]? = some t →
      TokenRotator.verifyRefresh jwtValidator t.token clock.verified = .ok payload →
      if (s.redis.read clock.read (usedKey (property payload "jti"))).isSome then
        ∀ j t', s.issued[j]? = some t' → Descends s.issued i j →
          ¬ Live jwtValidator s.redis clock.read t'.token
      else TokenRotator.verifyRefresh jwtValidator t.token clock.read = .ok payload
  | _ => True

/-! ## Live tokens -/

section
variable {jwtValidator : JwtValidator}

def IssuedToken.Signed (jwtValidator : JwtValidator) (t : IssuedToken) : Prop :=
  ∃ userId sessionId deviceFingerprint,
    t.token = jwtValidator.generateRefreshToken userId sessionId deviceFingerprint t.jti t.issuedAt

theorem IssuedToken.Signed.verifyRefresh (hjose : jwtValidator.jose.Lawful) {t : IssuedToken}
    (h : t.Signed jwtValidator) (hjti : t.jti ≠ "") :
    ∃ payload, property payload "jti" = some (.str t.jti) ∧ ∀ now,
      TokenRotator.verifyRefresh jwtValidator t.token now =
        if epochSeconds now < jwtValidator.refreshExpiry t.issuedAt then .ok payload
        else .error .invalidRefreshToken := by
  obtain ⟨userId, sessionId, deviceFingerprint, htoken⟩ := h
  refine ⟨jwtValidator.refreshPayload userId sessionId deviceFingerprint t.jti t.issuedAt, rfl, ?_⟩
  intro now
  rw [htoken, verifyRefresh_refreshToken hjose hjti]

theorem IssuedToken.Signed.property_jti (hjose : jwtValidator.jose.Lawful) {t : IssuedToken}
    (h : t.Signed jwtValidator) (hjti : t.jti ≠ "") {now : ℤ} {payload : JsonValue}
    (hverify : TokenRotator.verifyRefresh jwtValidator t.token now = .ok payload) :
    property payload "jti" = some (.str t.jti) := by
  obtain ⟨payload', hid, hverify'⟩ := h.verifyRefresh hjose hjti
  rw [hverify'] at hverify
  by_cases halive : epochSeconds now < jwtValidator.refreshExpiry t.issuedAt
  · rw [if_pos halive] at hverify
    rwa [Except.ok.inj hverify] at hid
  · rw [if_neg halive] at hverify
    cases hverify

theorem IssuedToken.Signed.live_iff (hjose : jwtValidator.jose.Lawful) {t : IssuedToken}
    (h : t.Signed jwtValidator) (hjti : t.jti ≠ "") :
    ∃ valid : Prop, ∀ redis now, Live jwtValidator redis now t.token ↔
      epochSeconds now < jwtValidator.refreshExpiry t.issuedAt ∧
        redis.read now (usedKey (some (.str t.jti))) = none ∧ valid := by
  obtain ⟨payload, hid, hverify⟩ := h.verifyRefresh hjose hjti
  refine ⟨(parseValidatedToken payload).isSome, fun redis now => ?_⟩
  unfold Live
  rw [hverify]
  by_cases halive : epochSeconds now < jwtValidator.refreshExpiry t.issuedAt
  · simp [halive, hid]
  · simp [halive]

theorem live_rotates {redis : TokenRedis} {now : ℤ} {token : String} (h : Live jwtValidator redis now token)
    (hnow : 1000 ≤ now) (jti : String) :
    ∃ pair, (TokenRotator.rotate jwtValidator token (RotateClock.still now hnow) jti redis).1 = .ok pair := by
  obtain ⟨payload, hverify, hread, hvalid⟩ := h
  obtain ⟨validated, hparse⟩ := Option.isSome_iff_exists.mp hvalid
  have hnone : redis.read (RotateClock.still now hnow).read (usedKey (property payload "jti")) = none := hread
  have hpayload : TokenRotator.verifyRefresh jwtValidator token (RotateClock.still now hnow).verified =
      .ok payload := hverify
  rw [TokenRotator.rotate, hpayload]
  simp only [hnone, TokenRotator.issuePair, hparse]
  exact ⟨_, rfl⟩

/-! ## Markers -/

/-- The tokens are the validator's own with different ids, and a marker is only there for a token that
is, and at least as long as it lives. -/
structure Marked (jwtValidator : JwtValidator) (now : ℤ) (redis : TokenRedis) (issued : List IssuedToken) :
    Prop where
  signed : ∀ t ∈ issued, t.Signed jwtValidator ∧ t.jti ≠ "" ∧ t.issuedAt ≤ now
  distinct : ∀ t ∈ issued, ∀ t' ∈ issued, t.jti = t'.jti → t = t'
  outlives : ∀ t ∈ issued, ∀ marker, KeyValue.get redis (usedKey (some (.str t.jti))) = some marker →
    1000 * jwtValidator.refreshExpiry t.issuedAt ≤ marker.expiresAt
  unmarked : ∀ jti, (∀ t ∈ issued, t.jti ≠ jti) → KeyValue.get redis (usedKey (some (.str jti))) = none

section
variable {now : ℤ} {redis : TokenRedis} {issued : List IssuedToken}

theorem Marked.later (h : Marked jwtValidator now redis issued) {now' : ℤ} (hnow : now ≤ now') :
    Marked jwtValidator now' redis issued :=
  ⟨fun t ht => ⟨(h.signed t ht).1, (h.signed t ht).2.1, (h.signed t ht).2.2.trans hnow⟩, h.distinct,
    h.outlives, h.unmarked⟩

theorem Marked.issue (h : Marked jwtValidator now redis issued) {t : IssuedToken}
    (hsigned : t.Signed jwtValidator) (hjti : t.jti ≠ "") (hnow : t.issuedAt ≤ now)
    (hfresh : ∀ t' ∈ issued, t'.jti ≠ t.jti) : Marked jwtValidator now redis (issued ++ [t]) := by
  have hsplit : ∀ t', t' ∈ issued ++ [t] → t' ∈ issued ∨ t' = t := by simp
  constructor
  · intro t' ht'
    rcases hsplit t' ht' with ht' | rfl
    · exact h.signed t' ht'
    · exact ⟨hsigned, hjti, hnow⟩
  · intro t₁ h₁ t₂ h₂ heq
    rcases hsplit t₁ h₁ with hold₁ | rfl
    · rcases hsplit t₂ h₂ with hold₂ | rfl
      · exact h.distinct t₁ hold₁ t₂ hold₂ heq
      · exact absurd heq (hfresh t₁ hold₁)
    · rcases hsplit t₂ h₂ with hold₂ | rfl
      · exact absurd heq.symm (hfresh t₂ hold₂)
      · rfl
  · intro t' ht' marker hmarker
    rcases hsplit t' ht' with ht' | rfl
    · exact h.outlives t' ht' marker hmarker
    · rw [h.unmarked _ hfresh] at hmarker
      cases hmarker
  · intro jti hnone
    exact h.unmarked jti fun t' ht' => hnone t' (List.mem_append_left _ ht')

theorem Marked.dropFamily (h : Marked jwtValidator now redis issued) (payload : JsonValue) :
    Marked jwtValidator now (TokenRotator.dropFamily payload redis) issued := by
  refine ⟨h.signed, h.distinct, ?_, ?_⟩
  · simp only [get_dropFamily]
    exact h.outlives
  · simp only [get_dropFamily]
    exact h.unmarked

theorem Marked.mark (h : Marked jwtValidator now redis issued) {t : IssuedToken} (ht : t ∈ issued)
    {payload : JsonValue} (hid : property payload "jti" = some (.str t.jti)) {marked : ℤ}
    (hmarked : now ≤ marked) :
    Marked jwtValidator now (TokenRotator.markUsed jwtValidator payload marked redis) issued := by
  rw [TokenRotator.markUsed, hid]
  refine ⟨h.signed, h.distinct, ?_, ?_⟩
  · intro t' ht' marker hmarker
    by_cases hsame : t'.jti = t.jti
    · obtain rfl := h.distinct t' ht' t ht hsame
      rw [ExpiringStore.setex, KeyValue.get_set_self] at hmarker
      obtain rfl := Option.some.inj hmarker
      have hissued := (h.signed t' ht).2.2.trans hmarked
      unfold JwtValidator.refreshExpiry epochSeconds
      dsimp only
      omega
    · rw [ExpiringStore.setex, KeyValue.get_set_of_ne (fun heq => hsame (usedKey_str_inj.mp heq))] at hmarker
      exact h.outlives t' ht' marker hmarker
  · intro jti hnone
    rw [ExpiringStore.setex,
      KeyValue.get_set_of_ne (fun heq => hnone t ht (usedKey_str_inj.mp heq).symm)]
    exact h.unmarked jti hnone

theorem Marked.read_eq_none (h : Marked jwtValidator now redis issued) {t : IssuedToken} (ht : t ∈ issued)
    {now' : ℤ} (halive : epochSeconds now' < jwtValidator.refreshExpiry t.issuedAt)
    (hread : redis.read now' (usedKey (some (.str t.jti))) = none) :
    KeyValue.get redis (usedKey (some (.str t.jti))) = none := by
  cases hget : KeyValue.get redis (usedKey (some (.str t.jti))) with
  | none => rfl
  | some marker =>
    have hthere := ExpiringStore.read_of_lasts ⟨marker, hget, h.outlives t ht marker hget⟩
      (lt_of_epochSeconds_lt halive)
    rw [hread] at hthere
    cases hthere

theorem Marked.live_earlier (hjose : jwtValidator.jose.Lawful) (h : Marked jwtValidator now redis issued)
    {t : IssuedToken} (ht : t ∈ issued) {earlier later : ℤ} (hle : earlier ≤ later)
    (hlive : Live jwtValidator redis later t.token) : Live jwtValidator redis earlier t.token := by
  obtain ⟨hsigned, hjti, -⟩ := h.signed t ht
  obtain ⟨valid, hiff⟩ := hsigned.live_iff hjose hjti
  obtain ⟨halive, hread, hvalid⟩ := (hiff redis later).mp hlive
  refine (hiff redis earlier).mpr ⟨(epochSeconds_mono hle).trans_lt halive, ?_, hvalid⟩
  rw [ExpiringStore.read, h.read_eq_none ht halive hread, Option.bind_none]

theorem live_dropFamily (hjose : jwtValidator.jose.Lawful) {t : IssuedToken}
    (hsigned : t.Signed jwtValidator) (hjti : t.jti ≠ "") {payload : JsonValue} {now' : ℤ}
    (hlive : Live jwtValidator (TokenRotator.dropFamily payload redis) now' t.token) :
    Live jwtValidator redis now' t.token := by
  obtain ⟨valid, hiff⟩ := hsigned.live_iff hjose hjti
  obtain ⟨halive, hread, hvalid⟩ := (hiff _ now').mp hlive
  rw [read_dropFamily] at hread
  exact (hiff redis now').mpr ⟨halive, hread, hvalid⟩

theorem Marked.live_mark (hjose : jwtValidator.jose.Lawful) (h : Marked jwtValidator now redis issued)
    {t t' : IssuedToken} (ht : t ∈ issued) (ht' : t' ∈ issued) {payload : JsonValue}
    (hid : property payload "jti" = some (.str t.jti)) {marked now' : ℤ} (hmarked : now ≤ marked)
    (hlive : Live jwtValidator (TokenRotator.markUsed jwtValidator payload marked redis) now' t'.token) :
    Live jwtValidator redis now' t'.token := by
  obtain ⟨hsigned, hjti, -⟩ := h.signed t' ht'
  obtain ⟨valid, hiff⟩ := hsigned.live_iff hjose hjti
  obtain ⟨halive, hread, hvalid⟩ := (hiff _ now').mp hlive
  refine (hiff redis now').mpr ⟨halive, ?_, hvalid⟩
  have hget := (h.mark ht hid hmarked).read_eq_none ht' halive hread
  rw [TokenRotator.markUsed, hid] at hget hread
  by_cases hsame : t'.jti = t.jti
  · rw [hsame, ExpiringStore.setex, KeyValue.get_set_self] at hget
    cases hget
  · rwa [ExpiringStore.read_setex_of_ne (fun heq => hsame (usedKey_str_inj.mp heq))] at hread

end

/-! ## Runs -/

theorem rotate_cases (token : String) (clock : RotateClock) (jti : String) (redis : TokenRedis) :
    (∃ error, error ≠ .refreshTokenReplay ∧
      TokenRotator.rotate jwtValidator token clock jti redis = (.error error, redis)) ∨
    ∃ payload, TokenRotator.verifyRefresh jwtValidator token clock.verified = .ok payload ∧
      (((redis.read clock.read (usedKey (property payload "jti"))).isSome = true ∧
          TokenRotator.rotate jwtValidator token clock jti redis =
            (.error .refreshTokenReplay, TokenRotator.dropFamily payload redis)) ∨
        (redis.read clock.read (usedKey (property payload "jti")) = none ∧
          TokenRotator.rotate jwtValidator token clock jti redis =
            (TokenRotator.issuePair jwtValidator payload clock.access clock.refresh jti,
              TokenRotator.markUsed jwtValidator payload clock.marked redis))) := by
  unfold TokenRotator.rotate
  cases hverify : TokenRotator.verifyRefresh jwtValidator token clock.verified with
  | error error =>
    refine .inl ⟨error, ?_, rfl⟩
    rintro rfl
    unfold TokenRotator.verifyRefresh at hverify
    split at hverify
    · cases hverify
    · split at hverify
      · cases hverify
      · cases hverify
  | ok payload =>
    refine .inr ⟨payload, rfl, ?_⟩
    cases hread : redis.read clock.read (usedKey (property payload "jti")) with
    | none => exact .inr ⟨rfl, by simp [hread]⟩
    | some marker => exact .inl ⟨rfl, by simp [hread]⟩

theorem issuePair_eq_ok {payload : JsonValue} {access refresh : ℤ} {jti : String} {pair : TokenPair}
    (h : TokenRotator.issuePair jwtValidator payload access refresh jti = .ok pair) :
    (parseValidatedToken payload).isSome ∧ ∃ userId sessionId deviceFingerprint, pair.refreshToken =
      jwtValidator.generateRefreshToken userId sessionId deviceFingerprint jti refresh := by
  unfold TokenRotator.issuePair at h
  split at h
  · cases h
  · rename_i validated hparse
    cases h
    exact ⟨by rw [hparse]; rfl, _, _, _, rfl⟩

theorem issuePair_no_session {userId deviceFingerprint jti jti' : String} {issuedAt access refresh : ℤ} :
    TokenRotator.issuePair jwtValidator
      (jwtValidator.refreshPayload userId "" deviceFingerprint jti issuedAt) access refresh jti' =
        .error .ZodError := by
  unfold TokenRotator.issuePair
  split
  · rfl
  · rename_i validated hparse
    exact absurd rfl (refreshPayload_valid hparse).2.1

theorem issuePair_error {payload : JsonValue} {access refresh : ℤ} {jti : String} {error : RotateError}
    (h : TokenRotator.issuePair jwtValidator payload access refresh jti = .error error) :
    error = .ZodError := by
  unfold TokenRotator.issuePair at h
  split at h
  · exact (Except.error.inj h).symm
  · cases h

theorem descends_append {issued : List IssuedToken} {t : IssuedToken} {i j : ℕ} (hj : j < issued.length) :
    Descends (issued ++ [t]) i j ↔ Descends issued i j := by
  unfold Descends
  rw [List.getElem?_append_left hj]

theorem getElem?_concat_eq_some {α : Type} {l : List α} {x y : α} {a : ℕ} (h : (l ++ [x])[a]? = some y) :
    l[a]? = some y ∨ a = l.length ∧ x = y := by
  rcases Nat.lt_trichotomy a l.length with hlt | rfl | hgt
  · rw [List.getElem?_append_left hlt] at h
    exact .inl h
  · rw [List.getElem?_concat_length] at h
    exact .inr ⟨rfl, Option.some.inj h⟩
  · rw [List.getElem?_eq_none (by rw [List.length_append, List.length_singleton]; omega)] at h
    cases h

/-- What the guarded steps keep: of the tokens that descend from a replayed one none is live, and none
has been rotated since. -/
structure Cut (jwtValidator : JwtValidator) (s : Sessions) : Prop where
  marked : Marked jwtValidator s.now s.redis s.issued
  called : ∀ call ∈ s.calls, call.1 < s.issued.length
  dead : ∀ i, (i, .error .refreshTokenReplay) ∈ s.calls → ∀ j t, s.issued[j]? = some t →
    Descends s.issued i j → ∀ now, s.now ≤ now → ¬ Live jwtValidator s.redis now t.token
  final : ReplayFinal s

variable {s s' : Sessions}

/-- A new token descends from a replayed one only through its lineage. -/
theorem Cut.descends_append (h : Cut jwtValidator s) {t : IssuedToken}
    (hlineage : ∀ i, (i, .error .refreshTokenReplay) ∈ s.calls → i ∉ t.lineage) {i j : ℕ} {t' : IssuedToken}
    (hreplayed : (i, .error .refreshTokenReplay) ∈ s.calls) (hget : (s.issued ++ [t])[j]? = some t')
    (hdescends : Descends (s.issued ++ [t]) i j) : s.issued[j]? = some t' ∧ Descends s.issued i j := by
  rcases getElem?_concat_eq_some hget with hold | ⟨rfl, rfl⟩
  · obtain ⟨hj, -⟩ := List.getElem?_eq_some_iff.mp hold
    exact ⟨hold, (Tokens.descends_append hj).mp hdescends⟩
  · rcases hdescends with rfl | ⟨t', ht', hin⟩
    · exact absurd (h.called _ hreplayed) (lt_irrefl _)
    · obtain rfl : t' = t := Option.some.inj (ht'.symm.trans hget)
      exact absurd hin (hlineage i hreplayed)

theorem Cut.login {userId sessionId deviceFingerprint jti : String} {now : ℤ} (h : Cut jwtValidator s)
    (hstep : (sessions jwtValidator).step s (.login userId sessionId deviceFingerprint jti now) = some s') :
    Cut jwtValidator s' := by
  obtain ⟨⟨hnow, hjti, hfresh⟩, hstep⟩ := Option.ite_none_right_eq_some.mp hstep
  cases hstep
  refine ⟨(h.marked.later hnow).issue ⟨_, _, _, rfl⟩ hjti (le_refl _) hfresh, ?_, ?_, ?_⟩
  · intro call hcall
    have hlt := h.called call hcall
    rw [List.length_append]
    omega
  · intro i hreplayed j t hget hdescends now' hle
    obtain ⟨hold, hdescends⟩ := h.descends_append (fun _ _ => List.not_mem_nil) hreplayed hget hdescends
    exact h.dead i hreplayed j t hold hdescends now' (hnow.trans hle)
  · intro a b i j pair hab hreplay hok hdescends
    have hj := h.called _ (List.mem_of_getElem? hok)
    exact h.final a b i j pair hab hreplay hok ((Tokens.descends_append hj).mp hdescends)

/-- A call that ends in an error yields no token, so only the tokens that are there have to be dead. -/
theorem Cut.failed (h : Cut jwtValidator s) {i : ℕ} (hi : i < s.issued.length) {error : RotateError}
    {now : ℤ} {redis : TokenRedis} (hmarked : Marked jwtValidator now redis s.issued)
    (hdead : ∀ i', (i', .error .refreshTokenReplay) ∈ s.calls ++ [(i, .error error)] →
      ∀ j t, s.issued[j]? = some t → Descends s.issued i' j → ∀ now', now ≤ now' →
        ¬ Live jwtValidator redis now' t.token) :
    Cut jwtValidator ⟨now, redis, s.issued, s.calls ++ [(i, .error error)]⟩ := by
  refine ⟨hmarked, ?_, hdead, ?_⟩
  · intro call hcall
    rcases List.mem_append.mp hcall with hcall | hcall
    · exact h.called call hcall
    · obtain rfl := List.mem_singleton.mp hcall
      exact hi
  · intro a b i' j pair hab hreplay hok
    rcases getElem?_concat_eq_some hok with hok | ⟨-, hlast⟩
    · rcases getElem?_concat_eq_some hreplay with hreplay | ⟨rfl, -⟩
      · exact h.final a b i' j pair hab hreplay hok
      · obtain ⟨hb, -⟩ := List.getElem?_eq_some_iff.mp hok
        omega
    · cases (Prod.mk.inj hlast).2

theorem Cut.refused (h : Cut jwtValidator s) {i : ℕ} (hi : i < s.issued.length) {error : RotateError}
    (herror : error ≠ .refreshTokenReplay) {now : ℤ} {redis : TokenRedis} (hnow : s.now ≤ now)
    (hmarked : Marked jwtValidator now redis s.issued)
    (hlive : ∀ t ∈ s.issued, ∀ now', Live jwtValidator redis now' t.token →
      Live jwtValidator s.redis now' t.token) :
    Cut jwtValidator ⟨now, redis, s.issued, s.calls ++ [(i, .error error)]⟩ := by
  refine h.failed hi hmarked ?_
  intro i' hreplayed j t hget hdescends now' hle halive
  rcases List.mem_append.mp hreplayed with hreplayed | hlast
  · exact h.dead i' hreplayed j t hget hdescends now' (hnow.trans hle)
      (hlive t (List.mem_of_getElem? hget) now' halive)
  · obtain ⟨-, herr⟩ := Prod.mk.inj (List.mem_singleton.mp hlast)
    exact herror (Except.error.inj herr).symm

theorem Cut.replayed (hjose : jwtValidator.jose.Lawful) (h : Cut jwtValidator s) {i : ℕ}
    (hi : i < s.issued.length) {clock : RotateClock} (hnow : s.now ≤ clock.verified) (payload : JsonValue)
    (hdead : ∀ j t, s.issued[j]? = some t → Descends s.issued i j →
      ¬ Live jwtValidator s.redis clock.read t.token) :
    Cut jwtValidator ⟨clock.refresh, TokenRotator.dropFamily payload s.redis, s.issued,
      s.calls ++ [(i, .error .refreshTokenReplay)]⟩ := by
  have hread : clock.read ≤ clock.refresh :=
    (clock.read_le_marked.trans clock.marked_le_access).trans clock.access_le_refresh
  have hrefresh : s.now ≤ clock.refresh := (hnow.trans clock.verified_le_read).trans hread
  refine h.failed hi ((h.marked.later hrefresh).dropFamily payload) ?_
  intro i' hreplayed j t hget hdescends now' hle hlive
  have ht : t ∈ s.issued := List.mem_of_getElem? hget
  obtain ⟨hsigned, hjti, -⟩ := h.marked.signed t ht
  have hbefore := live_dropFamily hjose hsigned hjti hlive
  rcases List.mem_append.mp hreplayed with hreplayed | hlast
  · exact h.dead i' hreplayed j t hget hdescends now' (hrefresh.trans hle) hbefore
  · obtain ⟨rfl, -⟩ := Prod.mk.inj (List.mem_singleton.mp hlast)
    exact hdead j t hget hdescends (h.marked.live_earlier hjose ht (hread.trans hle) hbefore)

/-- A rotation of a token that was live, and so descends from no replayed one. -/
theorem Cut.rotated (hjose : jwtValidator.jose.Lawful) (h : Cut jwtValidator s) {i : ℕ} {t : IssuedToken}
    (hget : s.issued[i]? = some t) {clock : RotateClock} (hnow : s.now ≤ clock.verified)
    {payload : JsonValue} (hid : property payload "jti" = some (.str t.jti))
    (hlive : Live jwtValidator s.redis clock.read t.token) {child : IssuedToken}
    (hchild : child.Signed jwtValidator ∧ child.jti ≠ "" ∧ child.issuedAt ≤ clock.refresh)
    (hfresh : ∀ t' ∈ s.issued, t'.jti ≠ child.jti) (hlineage : child.lineage = i :: t.lineage)
    (pair : TokenPair) :
    Cut jwtValidator ⟨clock.refresh, TokenRotator.markUsed jwtValidator payload clock.marked s.redis,
      s.issued ++ [child], s.calls ++ [(i, .ok pair)]⟩ := by
  have ht : t ∈ s.issued := List.mem_of_getElem? hget
  obtain ⟨hi, -⟩ := List.getElem?_eq_some_iff.mp hget
  have hread : s.now ≤ clock.read := hnow.trans clock.verified_le_read
  have hmark : s.now ≤ clock.marked := hread.trans clock.read_le_marked
  have hrefresh : s.now ≤ clock.refresh :=
    (hmark.trans clock.marked_le_access).trans clock.access_le_refresh
  have hnone : ∀ i', (i', .error .refreshTokenReplay) ∈ s.calls → ¬ Descends s.issued i' i :=
    fun i' hreplayed hdescends => h.dead i' hreplayed i t hget hdescends clock.read hread hlive
  refine ⟨((h.marked.mark ht hid hmark).later hrefresh).issue hchild.1 hchild.2.1 hchild.2.2 hfresh,
    ?_, ?_, ?_⟩
  · intro call hcall
    rw [List.length_append]
    rcases List.mem_append.mp hcall with hcall | hcall
    · have hlt := h.called call hcall
      omega
    · obtain rfl := List.mem_singleton.mp hcall
      dsimp only
      omega
  · intro i' hreplayed j t' hget' hdescends now' hle hlive'
    rcases List.mem_append.mp hreplayed with hreplayed | hlast
    · have hnew : ∀ k, (k, .error .refreshTokenReplay) ∈ s.calls → k ∉ child.lineage := by
        intro k hk hin
        rw [hlineage] at hin
        rcases List.mem_cons.mp hin with rfl | hin
        · exact hnone k hk (.inl rfl)
        · exact hnone k hk (.inr ⟨t, hget, hin⟩)
      obtain ⟨hold, hdescends⟩ := h.descends_append hnew hreplayed hget' hdescends
      exact h.dead i' hreplayed j t' hold hdescends now' (hrefresh.trans hle)
        (h.marked.live_mark hjose ht (List.mem_of_getElem? hold) hid hmark hlive')
    · cases (Prod.mk.inj (List.mem_singleton.mp hlast)).2
  · intro a b i' j pair' hab hreplay hok hdescends
    rcases getElem?_concat_eq_some hreplay with hreplay | ⟨-, hlast⟩
    · rcases getElem?_concat_eq_some hok with hok | ⟨-, hlast⟩
      · have hj := h.called _ (List.mem_of_getElem? hok)
        exact h.final a b i' j pair' hab hreplay hok ((Tokens.descends_append hj).mp hdescends)
      · obtain ⟨rfl, -⟩ := Prod.mk.inj hlast
        exact hnone i' (List.mem_of_getElem? hreplay) ((Tokens.descends_append hi).mp hdescends)
    · cases (Prod.mk.inj hlast).2

theorem Cut.rotate (hjose : jwtValidator.jose.Lawful) {i : ℕ} {clock : RotateClock} {jti : String}
    (h : Cut jwtValidator s) (hguard : NoneLive jwtValidator s (.rotate i clock jti))
    (hstep : (sessions jwtValidator).step s (.rotate i clock jti) = some s') : Cut jwtValidator s' := by
  simp only [sessions, Sessions.step] at hstep
  split at hstep
  · cases hstep
  · rename_i t hget
    obtain ⟨⟨hnow, hjti, hfresh⟩, hstep⟩ := Option.ite_none_right_eq_some.mp hstep
    have ht : t ∈ s.issued := List.mem_of_getElem? hget
    obtain ⟨hi, -⟩ := List.getElem?_eq_some_iff.mp hget
    obtain ⟨hsigned, hjtiT, -⟩ := h.marked.signed t ht
    have hread : s.now ≤ clock.read := hnow.trans clock.verified_le_read
    have hmark : s.now ≤ clock.marked := hread.trans clock.read_le_marked
    have hrefresh : s.now ≤ clock.refresh :=
      (hmark.trans clock.marked_le_access).trans clock.access_le_refresh
    rcases rotate_cases t.token clock jti s.redis with
      ⟨error, herror, hrotate⟩ | ⟨payload, hverify, ⟨hfound, hrotate⟩ | ⟨hnone, hrotate⟩⟩
    · rw [hrotate, child, Option.toList_none, List.append_nil] at hstep
      cases hstep
      exact h.refused hi herror hrefresh (h.marked.later hrefresh) fun _ _ _ hlive => hlive
    · rw [hrotate, child, Option.toList_none, List.append_nil] at hstep
      cases hstep
      have hdead := hguard t payload hget hverify
      rw [if_pos hfound] at hdead
      exact h.replayed hjose hi hnow payload hdead
    · have halive := hguard t payload hget hverify
      rw [hnone] at halive
      have hid := hsigned.property_jti hjose hjtiT hverify
      cases hissue : TokenRotator.issuePair jwtValidator payload clock.access clock.refresh jti with
      | error error =>
        rw [hrotate, hissue, child, Option.toList_none, List.append_nil] at hstep
        cases hstep
        exact h.refused hi (by rw [issuePair_error hissue]; decide) hrefresh
          ((h.marked.mark ht hid hmark).later hrefresh)
          fun t' ht' now' hlive => h.marked.live_mark hjose ht ht' hid hmark hlive
      | ok pair =>
        obtain ⟨hvalid, hrefreshToken⟩ := issuePair_eq_ok hissue
        have hchild : IssuedToken.Signed jwtValidator
            ⟨pair.refreshToken, jti, clock.refresh, i :: t.lineage⟩ := hrefreshToken
        rw [hrotate, hissue] at hstep
        cases hstep
        exact h.rotated hjose hget hnow hid ⟨payload, halive, hnone, hvalid⟩
          ⟨hchild, hjti, le_refl _⟩ hfresh rfl pair

theorem Cut.step (hjose : jwtValidator.jose.Lawful) {e : SessionStep} (h : Cut jwtValidator s)
    (hguard : NoneLive jwtValidator s e) (hstep : (sessions jwtValidator).step s e = some s') :
    Cut jwtValidator s' := by
  cases e with
  | login userId sessionId deviceFingerprint jti now => exact h.login hstep
  | rotate i clock jti => exact h.rotate hjose hguard hstep

/-- **Replays.** In a run of logins and rotations in which every replay leaves no live descendant behind,
and a call that finds no marker reads while its token is alive, no token that descends from a replayed
one is rotated after the replay. -/
theorem replay_final (hjose : jwtValidator.jose.Lawful) {now : ℤ} {events : List SessionStep}
    (h : (sessions jwtValidator).GuardedRun (NoneLive jwtValidator) ⟨now, [], [], []⟩ events s) :
    ReplayFinal s := by
  have hstart : Cut jwtValidator ⟨now, [], [], []⟩ := by
    refine ⟨⟨?_, ?_, ?_, fun _ _ => rfl⟩, ?_, ?_, ?_⟩
    · rintro t ⟨⟩
    · rintro t ⟨⟩
    · rintro t ⟨⟩
    · rintro call ⟨⟩
    · rintro i ⟨⟩
    · intro a b i j pair _ hreplay
      cases hreplay
  exact (h.invariant (fun _ _ _ hs hguard hstep => hs.step hjose hguard hstep) hstart).final

theorem step_login {userId sessionId deviceFingerprint jti : String} {now : ℤ} (hnow : s.now ≤ now)
    (hfresh : s.FreshId jti) :
    (sessions jwtValidator).step s (.login userId sessionId deviceFingerprint jti now) =
      some ⟨now, s.redis, s.issued ++
        [⟨jwtValidator.generateRefreshToken userId sessionId deviceFingerprint jti now, jti, now, []⟩],
        s.calls⟩ :=
  if_pos (And.intro hnow hfresh)

theorem step_rotate {i : ℕ} {clock : RotateClock} {jti : String} {t : IssuedToken}
    {result : Except RotateError TokenPair} {redis : TokenRedis} (hget : s.issued[i]? = some t)
    (hnow : s.now ≤ clock.verified) (hfresh : s.FreshId jti)
    (hrotate : TokenRotator.rotate jwtValidator t.token clock jti s.redis = (result, redis)) :
    (sessions jwtValidator).step s (.rotate i clock jti) =
      some ⟨clock.refresh, redis, s.issued ++ (child i t clock jti result).toList,
        s.calls ++ [(i, result)]⟩ := by
  simp only [sessions, Sessions.step, hget, hrotate]
  exact if_pos (And.intro hnow hfresh)

/-- A replay that leaves a live descendant behind: the next call with the descendant succeeds. -/
theorem replay_not_final {calls : List (ℕ × Except RotateError TokenPair)} {i j : ℕ}
    {clock : RotateClock} {jti : String} {t : IssuedToken}
    (hreplay : s.calls = calls ++ [(i, .error .refreshTokenReplay)]) (hnow : s.now = clock.refresh)
    (hget : s.issued[j]? = some t) (hdescends : Descends s.issued i j)
    (hlive : Live jwtValidator s.redis clock.refresh t.token) (hfresh : s.FreshId jti) :
    ∃ clock' s', (sessions jwtValidator).step s (.rotate j clock' jti) = some s' ∧ ¬ ReplayFinal s' := by
  have hstarted : 1000 ≤ clock.refresh :=
    (((clock.started.trans clock.verified_le_read).trans clock.read_le_marked).trans
      clock.marked_le_access).trans clock.access_le_refresh
  obtain ⟨pair, hpair⟩ := live_rotates hlive hstarted jti
  have hstep := step_rotate hget (show s.now ≤ (RotateClock.still clock.refresh hstarted).verified from
    hnow.le) hfresh (Prod.ext hpair rfl)
  refine ⟨_, _, hstep, fun hfinal => ?_⟩
  obtain ⟨hj, -⟩ := List.getElem?_eq_some_iff.mp hget
  refine hfinal calls.length (calls.length + 1) i j pair (by omega) ?_ ?_
    ((Tokens.descends_append hj).mpr hdescends)
  · dsimp only
    rw [hreplay, List.append_assoc, List.getElem?_append_right (le_refl _), Nat.sub_self]
    rfl
  · have hlength : calls.length + 1 = s.calls.length := by rw [hreplay, List.length_append]; rfl
    dsimp only
    rw [hlength, List.getElem?_concat_length]

end

/-! ## A session -/

def testSessions : StepSystem Sessions SessionStep := sessions testValidator

def testLogin (sessionId : String) : SessionStep :=
  .login "user-123" sessionId "fp-abc" "jti-1" 1775988000000

def firstToken (sessionId : String) : IssuedToken where
  token := testValidator.generateRefreshToken "user-123" sessionId "fp-abc" "jti-1" 1775988000000
  jti := "jti-1"
  issuedAt := 1775988000000
  lineage := []

def testClock : RotateClock := RotateClock.still 1775988060000 (by decide)

theorem step_testLogin (sessionId : String) :
    testSessions.step ⟨1775988000000, [], [], []⟩ (testLogin sessionId) =
      some ⟨1775988000000, [], [firstToken sessionId], []⟩ := by
  have hfresh : Sessions.FreshId ⟨1775988000000, [], [], []⟩ "jti-1" := ⟨by decide, by simp⟩
  exact step_login (show (1775988000000 : ℤ) ≤ 1775988000000 by decide) hfresh

theorem freshId_firstToken {sessionId jti : String} {redis : TokenRedis} {now : ℤ}
    {calls : List (ℕ × Except RotateError TokenPair)} (hjti : jti ≠ "") (hne : "jti-1" ≠ jti) :
    Sessions.FreshId ⟨now, redis, [firstToken sessionId], calls⟩ jti := by
  refine ⟨hjti, fun t ht => ?_⟩
  obtain rfl := List.mem_singleton.mp ht
  exact hne

def secondToken : IssuedToken where
  token := testRefreshToken "jti-2" 1775988060000
  jti := "jti-2"
  issuedAt := 1775988060000
  lineage := [0]

theorem freshId_secondToken {jti : String} {redis : TokenRedis} {now : ℤ}
    {calls : List (ℕ × Except RotateError TokenPair)} (hjti : jti ≠ "") (hfirst : "jti-1" ≠ jti)
    (hsecond : "jti-2" ≠ jti) :
    Sessions.FreshId ⟨now, redis, [firstToken "session-456", secondToken], calls⟩ jti := by
  refine ⟨hjti, fun t ht => ?_⟩
  rcases List.mem_cons.mp ht with rfl | ht
  · exact hfirst
  · obtain rfl := List.mem_singleton.mp ht
    exact hsecond

def testMarked (sessionId : String) : TokenRedis :=
  TokenRotator.markUsed testValidator
    (testPayload sessionId) 1775988060000 []

theorem read_testMarked (sessionId : String) :
    ((testMarked sessionId).read 1775988060000 (usedKey (some (.str "jti-1")))).isSome :=
  ExpiringStore.read_of_lasts (ExpiringStore.lasts_setex _ _ _ _ _) (by decide)

theorem firstToken_signed (sessionId : String) : (firstToken sessionId).Signed testValidator :=
  ⟨"user-123", sessionId, "fp-abc", rfl⟩

theorem firstToken_not_live (sessionId : String) :
    ¬ Live testValidator (testMarked sessionId) 1775988060000 (firstToken sessionId).token := by
  intro hlive
  have hjti : (firstToken sessionId).jti ≠ "" := show "jti-1" ≠ "" by decide
  obtain ⟨valid, hiff⟩ := (firstToken_signed sessionId).live_iff testValidator_lawful hjti
  have hnone : (testMarked sessionId).read 1775988060000 (usedKey (some (.str "jti-1"))) = none :=
    ((hiff _ _).mp hlive).2.1
  have hthere := read_testMarked sessionId
  rw [hnone] at hthere
  cases hthere

def testReplayed (sessionId : String) : TokenRedis :=
  TokenRotator.dropFamily
    (testPayload sessionId)
    (testMarked sessionId)

theorem rotate_replay (sessionId jti : String) :
    TokenRotator.rotate testValidator (firstToken sessionId).token testClock jti (testMarked sessionId) =
      (.error .refreshTokenReplay, testReplayed sessionId) := by
  rw [firstToken, rotate_refreshToken testValidator_lawful (by decide), if_pos (by decide)]
  exact if_pos (read_testMarked sessionId)

theorem rotate_firstToken (sessionId jti : String) :
    TokenRotator.rotate testValidator (firstToken sessionId).token testClock jti [] =
      (TokenRotator.issuePair testValidator
        (testPayload sessionId) 1775988060000
        1775988060000 jti, testMarked sessionId) := by
  rw [firstToken, rotate_refreshToken testValidator_lawful (by decide), if_pos (by decide)]
  rfl

/-- A login without a session id: the first call with its token fails after it has set the marker, and
the second one is a replay. -/
theorem replay_without_descendants :
    ∃ s, testSessions.run ⟨1775988000000, [], [], []⟩
        [testLogin "", .rotate 0 testClock "jti-2", .rotate 0 testClock "jti-3"] = some s ∧
      ReplayFinal s := by
  have hrotate := rotate_firstToken "" "jti-2"
  rw [testPayload, issuePair_no_session] at hrotate
  have hfirst : testSessions.step ⟨1775988000000, [], [firstToken ""], []⟩ (.rotate 0 testClock "jti-2") =
      some ⟨1775988060000, testMarked "", [firstToken ""], [(0, .error .ZodError)]⟩ :=
    step_rotate rfl (by decide) (freshId_firstToken (by decide) (by decide)) hrotate
  have hsecond : testSessions.step
      ⟨1775988060000, testMarked "", [firstToken ""], [(0, .error .ZodError)]⟩
      (.rotate 0 testClock "jti-3") =
      some ⟨1775988060000, testReplayed "", [firstToken ""],
        [(0, .error .ZodError), (0, .error .refreshTokenReplay)]⟩ :=
    step_rotate rfl (by decide) (freshId_firstToken (by decide) (by decide)) (rotate_replay "" "jti-3")
  have hrun : testSessions.GuardedRun (NoneLive testValidator) ⟨1775988000000, [], [], []⟩
      [testLogin "", .rotate 0 testClock "jti-2", .rotate 0 testClock "jti-3"]
      ⟨1775988060000, testReplayed "", [firstToken ""],
        [(0, .error .ZodError), (0, .error .refreshTokenReplay)]⟩ := by
    refine .cons trivial (step_testLogin "") (.cons ?_ hfirst (.cons ?_ hsecond (.nil _)))
    · intro t payload _ hverify
      exact hverify
    · intro t payload hget hverify
      obtain rfl : firstToken "" = t := Option.some.inj hget
      have hid := (firstToken_signed "").property_jti testValidator_lawful (by decide) hverify
      rw [hid]
      refine (if_pos (read_testMarked "")).mpr ?_
      intro j t' hget' _
      obtain rfl := List.mem_singleton.mp (List.mem_of_getElem? hget')
      exact firstToken_not_live ""
  exact ⟨_, hrun.run, replay_final testValidator_lawful hrun⟩

theorem secondToken_live : Live testValidator (testReplayed "session-456") 1775988060000 secondToken.token := by
  have hfields : "user-123" ≠ "" ∧ "session-456" ≠ "" ∧ "fp-abc" ≠ "" := by decide
  have hother : usedKey (some (.str "jti-2")) ≠ usedKey (some (.str "jti-1")) := by
    rw [Ne, usedKey_str_inj]
    decide
  refine ⟨testValidator.refreshPayload "user-123" "session-456" "fp-abc" "jti-2" 1775988060000, ?_, ?_, ?_⟩
  · rw [secondToken, testRefreshToken, verifyRefresh_refreshToken testValidator_lawful (by decide)]
    exact if_pos (by decide)
  · rw [testReplayed, read_dropFamily]
    exact ExpiringStore.read_setex_of_ne hother
  · rw [parseValidatedToken_refreshPayload hfields.1 hfields.2.1 hfields.2.2 (by decide)]
    rfl

def afterReplay : Sessions where
  now := 1775988060000
  redis := testReplayed "session-456"
  issued := [firstToken "session-456", secondToken]
  calls := [(0, .ok (testPair "jti-2" 1775988060000)), (0, .error .refreshTokenReplay)]

theorem run_afterReplay :
    testSessions.run ⟨1775988000000, [], [], []⟩ [testLogin "session-456", .rotate 0 testClock "jti-2",
      .rotate 0 testClock "jti-3"] = some afterReplay := by
  have hnow : 1775988000000 ≤ testClock.verified := by decide
  have hrotate := rotate_firstToken "session-456" "jti-2"
  rw [issuePair_testPayload] at hrotate
  have hfirst : testSessions.step ⟨1775988000000, [], [firstToken "session-456"], []⟩
      (.rotate 0 testClock "jti-2") =
      some ⟨1775988060000, testMarked "session-456", [firstToken "session-456", secondToken],
        [(0, .ok (testPair "jti-2" 1775988060000))]⟩ := by
    have hchild : child 0 (firstToken "session-456") testClock "jti-2"
        (.ok (testPair "jti-2" 1775988060000)) = some secondToken := by
      rw [child, secondToken, testPair]
      rfl
    have hget : [firstToken "session-456"][0]? = some (firstToken "session-456") := rfl
    have hfresh := @freshId_firstToken "session-456" "jti-2" [] 1775988000000 [] (by decide) (by decide)
    have hstep := step_rotate hget hnow hfresh hrotate
    rw [hchild] at hstep
    exact hstep
  have hlater : 1775988060000 ≤ testClock.verified := by decide
  have hsecond : testSessions.step
      ⟨1775988060000, testMarked "session-456", [firstToken "session-456", secondToken],
        [(0, .ok (testPair "jti-2" 1775988060000))]⟩ (.rotate 0 testClock "jti-3") =
      some afterReplay := by
    unfold afterReplay
    generalize testPair "jti-2" 1775988060000 = pair
    have hget : [firstToken "session-456", secondToken][0]? = some (firstToken "session-456") := rfl
    have hfresh := @freshId_secondToken "jti-3" (testMarked "session-456") 1775988060000 [(0, .ok pair)]
      (by decide) (by decide) (by decide)
    exact step_rotate hget hlater hfresh (rotate_replay "session-456" "jti-3")
  rw [StepSystem.run_cons _ (step_testLogin "session-456"), StepSystem.run_cons _ hfirst,
    StepSystem.run_cons _ hsecond, StepSystem.run_nil]

/-- After the replay of the first token of a session the second one is rotated. -/
theorem descendant_rotated :
    ¬ ∀ (events : List SessionStep) (s : Sessions),
      testSessions.run ⟨1775988000000, [], [], []⟩ events = some s → ReplayFinal s := by
  intro hclaim
  have hdescends : Descends afterReplay.issued 0 1 := .inr ⟨secondToken, rfl, List.mem_singleton_self 0⟩
  have hcalls : afterReplay.calls =
      [(0, .ok (testPair "jti-2" 1775988060000))] ++ [(0, .error .refreshTokenReplay)] := rfl
  have hnow : afterReplay.now = testClock.refresh := rfl
  have hfresh : afterReplay.FreshId "jti-4" := freshId_secondToken (by decide) (by decide) (by decide)
  obtain ⟨clock, s, hstep, hnot⟩ :=
    replay_not_final hcalls hnow rfl hdescends secondToken_live hfresh
  have hrun : testSessions.GuardedRun (fun _ _ => True) afterReplay [.rotate 1 clock "jti-4"] s :=
    .cons trivial hstep (.nil s)
  exact hnot (hclaim _ s ((StepSystem.GuardedRun.of_run run_afterReplay).append hrun).run)

end SuperAi.Tokens
