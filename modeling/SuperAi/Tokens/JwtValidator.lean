import SuperAi.Foundations.JsonAccess

/-! # Access and refresh tokens (`auth/jwt.validator.ts`)

Tokens are signed and verified by `jose`, which is a parameter here: a payload comes back from its
token until it expires (`Jose.Lawful`). Payloads are JSON, and `ValidatedTokenSchema` is what
`validate` and the rotation ask of them. Times are in milliseconds, those in a payload in seconds.
-/
namespace SuperAi.Tokens
open SuperAi.Foundations
set_option autoImplicit false

/-- `SignJWT` and `jwtVerify` with the key pair of the deployment and `RS256`; a token that is not
verified at this time is `none`. -/
structure Jose where
  sign : JsonValue → String
  jwtVerify : String → ℤ → Option JsonValue

def epochSeconds (now : ℤ) : ℤ := now / 1000

/-- What is documented for payloads with numeric `iat` and `exp` and no `nbf`: the token is verified as
long as the second of the verification is before `exp`. -/
structure Jose.Lawful (jose : Jose) : Prop where
  jwtVerify_sign : ∀ (payload : JsonValue) (iat exp : JsNumber) (now : ℤ), payload.WellFormed →
    property payload "iat" = some (.num iat) → property payload "exp" = some (.num exp) →
    property payload "nbf" = none →
    jose.jwtVerify (jose.sign payload) now = if (epochSeconds now : ℚ) < exp.toRat then some payload else none

structure TokenConfig where
  accessTokenExpirySeconds : ℤ
  refreshTokenExpirySeconds : ℤ
  access_pos : 0 < accessTokenExpirySeconds
  refresh_pos : 0 < refreshTokenExpirySeconds

structure JwtValidator where
  jose : Jose
  config : TokenConfig

/-! ## `ValidatedTokenSchema` -/

structure ValidatedToken where
  userId : String
  sessionId : String
  scope : List String
  issuedAt : ℚ
  expiresAt : ℚ
  deviceFingerprint : String

/-- `z.string().min(1)` -/
def nonEmptyString : Option JsonValue → Option String
  | some (.str s) => if s = "" then none else some s
  | _ => none

/-- `z.array(z.string())` -/
def stringArray : Option JsonValue → Option (List String)
  | some (.arr es) => es.mapM fun e => match e with
    | .str s => some s
    | _ => none
  | _ => none

/-- `z.number().int().positive()` -/
def positiveInt : Option JsonValue → Option ℚ
  | some (.num x) => if x.toRat.den = 1 ∧ 0 < x.toRat then some x.toRat else none
  | _ => none

def parseValidatedToken (payload : JsonValue) : Option ValidatedToken := do
  let userId ← nonEmptyString (property payload "sub")
  let sessionId ← nonEmptyString (property payload "sid")
  let scope ← stringArray (property payload "scope")
  let issuedAt ← positiveInt (property payload "iat")
  let expiresAt ← positiveInt (property payload "exp")
  let deviceFingerprint ← nonEmptyString (property payload "dfp")
  return ⟨userId, sessionId, scope, issuedAt, expiresAt, deviceFingerprint⟩

theorem nonEmptyString_str {s : String} (h : s ≠ "") : nonEmptyString (some (.str s)) = some s :=
  if_neg h

theorem nonEmptyString_eq_some {v : Option JsonValue} {s : String} (h : nonEmptyString v = some s) :
    v = some (.str s) ∧ s ≠ "" := by
  unfold nonEmptyString at h
  split at h
  · rename_i t
    obtain ⟨hne, heq⟩ := Option.ite_none_left_eq_some.mp h
    obtain rfl : t = s := Option.some.inj heq
    exact ⟨rfl, hne⟩
  · cases h

theorem stringArray_strings (scope : List String) :
    stringArray (some (.arr (scope.map .str))) = some scope := by
  show (scope.map JsonValue.str).mapM _ = some scope
  induction scope with
  | nil => rfl
  | cons s scope ih => rw [List.map_cons, List.mapM_cons, ih]; rfl

theorem positiveInt_ofInt {n : ℤ} (h : 0 < n) :
    positiveInt (some (.num (JsNumber.ofInt n))) = some (n : ℚ) := by
  have hpos : (0 : ℚ) < n := by exact_mod_cast h
  simp [positiveInt, hpos]

theorem parseValidatedToken_claims {payload : JsonValue} {userId sessionId deviceFingerprint : String}
    {scope : List String} {iat exp : ℤ} (huser : userId ≠ "") (hsession : sessionId ≠ "")
    (hdevice : deviceFingerprint ≠ "") (hiat : 0 < iat) (hexp : 0 < exp)
    (sub : property payload "sub" = some (.str userId))
    (sid : property payload "sid" = some (.str sessionId))
    (scopes : property payload "scope" = some (.arr (scope.map .str)))
    (issued : property payload "iat" = some (.num (.ofInt iat)))
    (expires : property payload "exp" = some (.num (.ofInt exp)))
    (dfp : property payload "dfp" = some (.str deviceFingerprint)) :
    parseValidatedToken payload = some ⟨userId, sessionId, scope, iat, exp, deviceFingerprint⟩ := by
  rw [parseValidatedToken, sub, sid, scopes, issued, expires, dfp, nonEmptyString_str huser,
    nonEmptyString_str hsession, nonEmptyString_str hdevice, stringArray_strings, positiveInt_ofInt hiat,
    positiveInt_ofInt hexp]
  rfl

theorem parseValidatedToken_strings {payload : JsonValue} {validated : ValidatedToken}
    (h : parseValidatedToken payload = some validated) :
    (∃ s, property payload "sub" = some (.str s) ∧ s ≠ "") ∧
      (∃ s, property payload "sid" = some (.str s) ∧ s ≠ "") ∧
        ∃ s, property payload "dfp" = some (.str s) ∧ s ≠ "" := by
  obtain ⟨user, huser, h⟩ := Option.bind_eq_some_iff.mp h
  obtain ⟨session, hsession, h⟩ := Option.bind_eq_some_iff.mp h
  obtain ⟨scope, -, h⟩ := Option.bind_eq_some_iff.mp h
  obtain ⟨iat, -, h⟩ := Option.bind_eq_some_iff.mp h
  obtain ⟨exp, -, h⟩ := Option.bind_eq_some_iff.mp h
  obtain ⟨device, hdevice, -⟩ := Option.bind_eq_some_iff.mp h
  exact ⟨⟨user, nonEmptyString_eq_some huser⟩, ⟨session, nonEmptyString_eq_some hsession⟩,
    ⟨device, nonEmptyString_eq_some hdevice⟩⟩

/-! ## `JwtValidator` -/

inductive AuthenticationError
  | AUTH_TOKEN_INVALID
  | AUTH_TOKEN_EXPIRED
  | AUTHZ_INSUFFICIENT_PERMISSIONS (requiredScope : String)
  deriving DecidableEq

namespace JwtValidator
variable (jwtValidator : JwtValidator)

/-- The token is verified at one time and compared with the clock at another. -/
def validate (token requiredScope : String) (verifiedAt now : ℤ) :
    Except AuthenticationError ValidatedToken :=
  match (jwtValidator.jose.jwtVerify token verifiedAt).bind parseValidatedToken with
  | none => .error .AUTH_TOKEN_INVALID
  | some parsed =>
    if parsed.expiresAt ≤ epochSeconds now then .error .AUTH_TOKEN_EXPIRED
    else if parsed.scope.contains requiredScope then .ok parsed
    else .error (.AUTHZ_INSUFFICIENT_PERMISSIONS requiredScope)

def accessPayload (userId sessionId : String) (scope : List String) (deviceFingerprint : String)
    (now : ℤ) : JsonValue :=
  .obj [("sub", .str userId), ("sid", .str sessionId), ("scope", .arr (scope.map .str)),
    ("dfp", .str deviceFingerprint), ("iat", .num (.ofInt (epochSeconds now))),
    ("exp", .num (.ofInt (epochSeconds now + jwtValidator.config.accessTokenExpirySeconds)))]

def generateAccessToken (userId sessionId : String) (scope : List String) (deviceFingerprint : String)
    (now : ℤ) : String :=
  jwtValidator.jose.sign (jwtValidator.accessPayload userId sessionId scope deviceFingerprint now)

/-- The second after which a refresh token of this time is no longer verified. -/
def refreshExpiry (now : ℤ) : ℤ := epochSeconds now + jwtValidator.config.refreshTokenExpirySeconds

def refreshPayload (userId sessionId deviceFingerprint jti : String) (now : ℤ) : JsonValue :=
  .obj [("sub", .str userId), ("sid", .str sessionId), ("dfp", .str deviceFingerprint),
    ("scope", .arr [.str "refresh"]), ("jti", .str jti), ("iat", .num (.ofInt (epochSeconds now))),
    ("exp", .num (.ofInt (jwtValidator.refreshExpiry now)))]

/-- The `jti` is an answer of `randomUUID`. -/
def generateRefreshToken (userId sessionId deviceFingerprint jti : String) (now : ℤ) : String :=
  jwtValidator.jose.sign (jwtValidator.refreshPayload userId sessionId deviceFingerprint jti now)

end JwtValidator

/-! ## Tokens of the validator's own -/

theorem wellFormed_strings (scope : List String) : (JsonValue.arr (scope.map .str)).WellFormed := by
  refine .arr fun e he => ?_
  obtain ⟨s, -, rfl⟩ := List.mem_map.mp he
  exact .str s

section
variable {jwtValidator : JwtValidator} {userId sessionId deviceFingerprint jti : String}
  {scope : List String} {issuedAt now : ℤ}

theorem accessPayload_wellFormed :
    (jwtValidator.accessPayload userId sessionId scope deviceFingerprint issuedAt).WellFormed := by
  refine .obj (by simp) ?_
  simp only [List.forall_mem_cons, List.not_mem_nil, false_implies, implies_true, and_true]
  exact ⟨.str _, .str _, wellFormed_strings scope, .str _, .num _, .num _⟩

theorem refreshPayload_wellFormed :
    (jwtValidator.refreshPayload userId sessionId deviceFingerprint jti issuedAt).WellFormed := by
  refine .obj (by simp) ?_
  simp only [List.forall_mem_cons, List.not_mem_nil, false_implies, implies_true, and_true]
  exact ⟨.str _, .str _, .str _, wellFormed_strings ["refresh"], .str _, .num _, .num _⟩

theorem jwtVerify_accessToken (hjose : jwtValidator.jose.Lawful) :
    jwtValidator.jose.jwtVerify
        (jwtValidator.generateAccessToken userId sessionId scope deviceFingerprint issuedAt) now =
      if epochSeconds now < epochSeconds issuedAt + jwtValidator.config.accessTokenExpirySeconds then
        some (jwtValidator.accessPayload userId sessionId scope deviceFingerprint issuedAt)
      else none := by
  rw [JwtValidator.generateAccessToken,
    hjose.jwtVerify_sign _ _ _ now accessPayload_wellFormed rfl rfl rfl, JsNumber.toRat_ofInt]
  simp only [Int.cast_lt]

theorem jwtVerify_refreshToken (hjose : jwtValidator.jose.Lawful) :
    jwtValidator.jose.jwtVerify
        (jwtValidator.generateRefreshToken userId sessionId deviceFingerprint jti issuedAt) now =
      if epochSeconds now < jwtValidator.refreshExpiry issuedAt then
        some (jwtValidator.refreshPayload userId sessionId deviceFingerprint jti issuedAt)
      else none := by
  rw [JwtValidator.generateRefreshToken,
    hjose.jwtVerify_sign _ _ _ now refreshPayload_wellFormed rfl rfl rfl, JsNumber.toRat_ofInt]
  simp only [Int.cast_lt]

theorem parseValidatedToken_accessPayload (huser : userId ≠ "") (hsession : sessionId ≠ "")
    (hdevice : deviceFingerprint ≠ "") (hissued : 0 < epochSeconds issuedAt) :
    parseValidatedToken (jwtValidator.accessPayload userId sessionId scope deviceFingerprint issuedAt) =
      some ⟨userId, sessionId, scope, epochSeconds issuedAt,
        (epochSeconds issuedAt + jwtValidator.config.accessTokenExpirySeconds : ℤ),
        deviceFingerprint⟩ := by
  have hpos := jwtValidator.config.access_pos
  exact parseValidatedToken_claims huser hsession hdevice hissued (by omega) rfl rfl rfl rfl rfl rfl

theorem parseValidatedToken_refreshPayload (huser : userId ≠ "") (hsession : sessionId ≠ "")
    (hdevice : deviceFingerprint ≠ "") (hissued : 0 < epochSeconds issuedAt) :
    parseValidatedToken (jwtValidator.refreshPayload userId sessionId deviceFingerprint jti issuedAt) =
      some ⟨userId, sessionId, ["refresh"], epochSeconds issuedAt, (jwtValidator.refreshExpiry issuedAt : ℤ),
        deviceFingerprint⟩ := by
  have hpos := jwtValidator.config.refresh_pos
  have hexpires : 0 < jwtValidator.refreshExpiry issuedAt := by
    unfold JwtValidator.refreshExpiry
    omega
  exact parseValidatedToken_claims huser hsession hdevice hissued hexpires rfl rfl rfl rfl rfl rfl

theorem refreshPayload_valid {validated : ValidatedToken}
    (h : parseValidatedToken (jwtValidator.refreshPayload userId sessionId deviceFingerprint jti issuedAt) =
      some validated) :
    userId ≠ "" ∧ sessionId ≠ "" ∧ deviceFingerprint ≠ "" := by
  obtain ⟨⟨user, hu, huser⟩, ⟨session, hs, hsession⟩, device, hd, hdevice⟩ := parseValidatedToken_strings h
  obtain rfl : userId = user := JsonValue.str.inj (Option.some.inj hu)
  obtain rfl : sessionId = session := JsonValue.str.inj (Option.some.inj hs)
  obtain rfl : deviceFingerprint = device := JsonValue.str.inj (Option.some.inj hd)
  exact ⟨huser, hsession, hdevice⟩

end

/-! ## Tokens that are their own payload -/

def printedJose : Jose where
  sign payload := String.ofList payload.text
  jwtVerify token now := do
    let payload ← parseJson token.toList
    match property payload "exp" with
    | some (.num exp) => if (epochSeconds now : ℚ) < exp.toRat then some payload else none
    | _ => none

theorem printedJose_lawful : printedJose.Lawful := by
  constructor
  intro payload iat exp now hwf _ hexp _
  simp only [printedJose, String.toList_ofList, parseJson_text hwf, Option.bind_eq_bind, Option.bind_some,
    hexp]

def testValidator : JwtValidator := ⟨printedJose, ⟨900, 86400, by decide, by decide⟩⟩

theorem testValidator_lawful : testValidator.jose.Lawful := printedJose_lawful

end SuperAi.Tokens
