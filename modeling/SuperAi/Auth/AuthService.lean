import SuperAi.Foundations.StepSystem
import SuperAi.Auth.WalletVerifier
import Mathlib.Data.List.Basic

/-! # The sign-in service

`AuthService` (`auth/auth.service.ts`) at the granularity of single database operations: a call is
a value of `AuthCall` that says which operation it performs next, `advance` performs that operation,
and `authSystem` interleaves any number of calls. What a call draws at random (nonce, refresh
token, one-time code) and the clock are inputs of its events. A database operation may also reject,
which ends the call with an error.
-/
namespace SuperAi.Auth
open SuperAi.Foundations
set_option autoImplicit false

/-! ## Rows -/

structure User where
  id : ℕ
  primaryWallet : Option String
  phone : Option String
  deriving DecidableEq, Repr

structure Session where
  id : ℕ
  userId : ℕ
  refreshHash : String
  nonce : Option String
  lastSeen : ℕ
  expiresAt : ℕ
  deriving DecidableEq, Repr

structure PhoneOtp where
  id : ℕ
  phone : String
  otpHash : String
  expiresAt : ℕ
  used : Bool
  createdAt : ℕ
  deriving DecidableEq, Repr

structure AuditRow where
  userId : ℕ
  action : String
  target : String
  deriving DecidableEq, Repr

structure AuthDb where
  users : List User := []
  sessions : List Session := []
  phoneOtps : List PhoneOtp := []
  auditLog : List AuditRow := []
  nextId : ℕ := 0
  deriving DecidableEq, Repr

/-! ## Tokens -/

structure JwtPayload where
  sub : ℕ
  address : Option String
  deriving DecidableEq, Repr

structure AuthTokens where
  accessToken : JwtPayload
  refreshToken : String
  expiresIn : ℕ
  deriving DecidableEq, Repr

/-- Lifetimes read from the environment, and the token hash (`createHash('sha256')`). -/
structure AuthConfig where
  accessTtlSeconds : ℕ := 900
  refreshTtlMs : ℕ := 604800000
  sha256 : String → String

def AuthConfig.hashToken (cfg : AuthConfig) (token : String) : String := cfg.sha256 token

def signTokens (cfg : AuthConfig) (userId : ℕ) (address : Option String) (fresh : String) : AuthTokens where
  accessToken := ⟨userId, address⟩
  refreshToken := fresh
  expiresIn := cfg.accessTtlSeconds

/-! ## Database operations -/

namespace AuthDb

/-- `findFirst` with a descending order: the row with the largest key, an earlier row on ties. -/
def latestBy {α : Type} (key : α → ℕ) : List α → Option α
  | [] => none
  | a :: as =>
    match latestBy key as with
    | none => some a
    | some b => if key b ≤ key a then some a else some b

def findUser (db : AuthDb) (userId : ℕ) : Option User := db.users.find? fun u => u.id == userId

def upsertUserByWallet (db : AuthDb) (address : String) : User × AuthDb :=
  match db.users.find? fun u => u.primaryWallet == some address with
  | some u => (u, db)
  | none =>
    let u : User := ⟨db.nextId, some address, none⟩
    (u, { db with users := db.users ++ [u], nextId := db.nextId + 1 })

def upsertUserByPhone (db : AuthDb) (phone : String) : User × AuthDb :=
  match db.users.find? fun u => u.phone == some phone with
  | some u => (u, db)
  | none =>
    let u : User := ⟨db.nextId, none, some phone⟩
    (u, { db with users := db.users ++ [u], nextId := db.nextId + 1 })

def createSession (db : AuthDb) (userId : ℕ) (refreshHash : String) (nonce : Option String)
    (now expiresAt : ℕ) : AuthDb :=
  { db with
    sessions := db.sessions ++ [⟨db.nextId, userId, refreshHash, nonce, now, expiresAt⟩]
    nextId := db.nextId + 1 }

def findSessionByNonce (db : AuthDb) (nonce : String) (now : ℕ) : Option Session :=
  latestBy Session.lastSeen
    (db.sessions.filter fun s => s.nonce == some nonce && decide (now < s.expiresAt))

def findSessionByHash (db : AuthDb) (hash : String) : Option Session :=
  db.sessions.find? fun s => s.refreshHash == hash

/-- `session.updateMany`: how many rows matched, and the rows after the update. -/
def updateSessions (db : AuthDb) (where_ : Session → Bool) (data : Session → Session) : ℕ × AuthDb :=
  ((db.sessions.filter where_).length,
    { db with sessions := db.sessions.map fun s => if where_ s then data s else s })

def findOtp (db : AuthDb) (phone : String) (now : ℕ) : Option PhoneOtp :=
  latestBy PhoneOtp.createdAt
    (db.phoneOtps.filter fun o => o.phone == phone && !o.used && decide (now < o.expiresAt))

def deleteUnusedOtps (db : AuthDb) (phone : String) : AuthDb :=
  { db with phoneOtps := db.phoneOtps.filter fun o => !(o.phone == phone && !o.used) }

def createOtp (db : AuthDb) (phone otpHash : String) (now : ℕ) : AuthDb :=
  { db with
    phoneOtps := db.phoneOtps ++ [⟨db.nextId, phone, otpHash, now + 600000, false, now⟩]
    nextId := db.nextId + 1 }

def useOtp (db : AuthDb) (otpId : ℕ) : AuthDb :=
  { db with phoneOtps := db.phoneOtps.map fun o => if o.id = otpId then { o with used := true } else o }

def audit (db : AuthDb) (userId : ℕ) (action target : String) : AuthDb :=
  { db with auditLog := db.auditLog ++ [⟨userId, action, target⟩] }

end AuthDb

/-! ## Calls -/

structure VerifyRequest where
  address : String
  chain : Chain
  signature : String
  nonce : String
  deriving DecidableEq, Repr

/-- A call of the service, by the database operation it performs next; the last four are calls
that have ended. -/
inductive AuthCall
  | issueNonce (address : String) (chain : Chain) (nonce : String)
  | issueNonceSession (userId : ℕ) (nonce : String)
  | verify (req : VerifyRequest) (fresh : String)
  | verifyUpdate (req : VerifyRequest) (session : Session) (tokens : AuthTokens)
  | verifyAudit (req : VerifyRequest) (session : Session) (tokens : AuthTokens)
  | refresh (refreshToken fresh : String)
  | refreshUpdate (session : Session) (hash : String) (tokens : AuthTokens)
  | refreshAudit (session : Session) (tokens : AuthTokens)
  | logout (refreshToken : String)
  | requestPhoneOtp (phone otp : String)
  | requestPhoneOtpCreate (phone otpHash : String)
  | sendSms (phone : String)
  | verifyPhoneOtp (phone otp fresh : String)
  | verifyPhoneOtpUse (record : PhoneOtp) (fresh : String)
  | verifyPhoneOtpUser (phone fresh : String)
  | verifyPhoneOtpSession (userId : ℕ) (phone : String) (tokens : AuthTokens)
  | verifyPhoneOtpAudit (userId : ℕ) (phone : String) (tokens : AuthTokens)
  | nonceIssued (nonce : String)
  | signedIn (req : VerifyRequest) (tokens : AuthTokens)
  | done (tokens : Option AuthTokens)
  | threw (message : String)
  deriving DecidableEq, Repr

/-- `phone.replace(/\D/g, '')`. -/
def normalizePhone (phone : String) : String := String.ofList (phone.toList.filter Char.isDigit)

/-- The next operation of a call: the database after it and how the call goes on. -/
def advance (scheme : SignatureScheme) (cfg : AuthConfig) (db : AuthDb) (now : ℕ) :
    AuthCall → Option (AuthDb × AuthCall)
  | .issueNonce address _ nonce =>
    let (user, db) := db.upsertUserByWallet address
    some (db, .issueNonceSession user.id nonce)
  | .issueNonceSession userId nonce =>
    some (db.createSession userId "pending" (some nonce) now (now + 900000), .nonceIssued nonce)
  | .verify req fresh =>
    match db.findSessionByNonce req.nonce now with
    | none => some (db, .threw "Nonce expired or unknown")
    | some session =>
      -- the signature is checked against the request's address, the tokens go to the session's user
      if scheme.verify req.chain req.address req.nonce req.signature then
        some (db, .verifyUpdate req session (signTokens cfg session.userId (some req.address) fresh))
      else some (db, .threw "Bad signature")
  | .verifyUpdate req session tokens =>
    let (count, db) := db.updateSessions (fun s => s.id == session.id) fun s =>
      { s with nonce := none, refreshHash := cfg.hashToken tokens.refreshToken,
               expiresAt := now + cfg.refreshTtlMs, lastSeen := now }
    if count = 0 then some (db, .threw "Record to update not found.")
    else some (db, .verifyAudit req session tokens)
  | .verifyAudit req session tokens =>
    some (db.audit session.userId "auth.verify" req.address, .signedIn req tokens)
  | .refresh refreshToken fresh =>
    if refreshToken = "" then some (db, .threw "Missing refresh token") else
    match db.findSessionByHash (cfg.hashToken refreshToken) with
    | none => some (db, .threw "Refresh token invalid or expired")
    | some session =>
      if session.expiresAt < now then some (db, .threw "Refresh token invalid or expired")
      else some (db, .refreshUpdate session (cfg.hashToken refreshToken)
        (signTokens cfg session.userId none fresh))
  | .refreshUpdate session hash tokens =>
    let (count, db) := db.updateSessions (fun s => s.id == session.id && s.refreshHash == hash) fun s =>
      { s with refreshHash := cfg.hashToken tokens.refreshToken,
               expiresAt := now + cfg.refreshTtlMs, lastSeen := now }
    if count = 0 then some (db, .threw "Refresh token already rotated")
    else some (db, .refreshAudit session tokens)
  | .refreshAudit session tokens =>
    some (db.audit session.userId "auth.refresh" (toString session.id), .done (some tokens))
  | .logout refreshToken =>
    if refreshToken = "" then some (db, .done none) else
    let (_, db) := db.updateSessions (fun s => s.refreshHash == cfg.hashToken refreshToken) fun s =>
      { s with refreshHash := "revoked", expiresAt := 0 }
    some (db, .done none)
  | .requestPhoneOtp phone otp =>
    let normalized := normalizePhone phone
    if normalized.length < 7 ∨ 15 < normalized.length then some (db, .threw "Invalid phone number")
    else some (db.deleteUnusedOtps normalized, .requestPhoneOtpCreate normalized (cfg.sha256 otp))
  | .requestPhoneOtpCreate phone otpHash => some (db.createOtp phone otpHash now, .sendSms phone)
  | .sendSms _ => some (db, .done none)
  | .verifyPhoneOtp phone otp fresh =>
    match db.findOtp (normalizePhone phone) now with
    | none => some (db, .threw "Invalid or expired OTP")
    | some record =>
      if record.otpHash = cfg.sha256 otp then some (db, .verifyPhoneOtpUse record fresh)
      else some (db, .threw "Invalid or expired OTP")
  | .verifyPhoneOtpUse record fresh =>
    -- a later request for the phone deletes the codes not used yet
    if db.phoneOtps.any fun o => o.id == record.id then
      some (db.useOtp record.id, .verifyPhoneOtpUser record.phone fresh)
    else some (db, .threw "Record to update not found.")
  | .verifyPhoneOtpUser phone fresh =>
    let (user, db) := db.upsertUserByPhone phone
    some (db, .verifyPhoneOtpSession user.id phone (signTokens cfg user.id (some phone) fresh))
  | .verifyPhoneOtpSession userId phone tokens =>
    some (db.createSession userId (cfg.hashToken tokens.refreshToken) none now (now + cfg.refreshTtlMs),
      .verifyPhoneOtpAudit userId phone tokens)
  | .verifyPhoneOtpAudit userId phone tokens =>
    some (db.audit userId "auth.phone.verify" phone, .done (some tokens))
  | .nonceIssued _ | .signedIn _ _ | .done _ | .threw _ => none

/-! ## The service as a step system -/

structure AuthState where
  db : AuthDb := {}
  calls : List AuthCall := []
  deriving DecidableEq, Repr

inductive AuthEvent
  | issueNonce (address : String) (chain : Chain) (nonce : String)
  | verifyAndIssueTokens (req : VerifyRequest) (fresh : String)
  | refresh (refreshToken fresh : String)
  | logout (refreshToken : String)
  | requestPhoneOtp (phone otp : String)
  | verifyPhoneOtp (phone otp fresh : String)
  | op (call now : ℕ)
  | reject (call : ℕ)
  deriving DecidableEq, Repr

def AuthEvent.started : AuthEvent → Option AuthCall
  | issueNonce address chain nonce => some (.issueNonce address chain nonce)
  | verifyAndIssueTokens req fresh => some (.verify req fresh)
  | refresh refreshToken fresh => some (.refresh refreshToken fresh)
  | logout refreshToken => some (.logout refreshToken)
  | requestPhoneOtp phone otp => some (.requestPhoneOtp phone otp)
  | verifyPhoneOtp phone otp fresh => some (.verifyPhoneOtp phone otp fresh)
  | op _ _ | reject _ => none

def authSystem (scheme : SignatureScheme) (cfg : AuthConfig) : StepSystem AuthState AuthEvent where
  step s e :=
    match e with
    | .op i now => do
      let call ← s.calls[i]?
      let (db, call') ← advance scheme cfg s.db now call
      some { db, calls := s.calls.set i call' }
    | .reject i => do
      let call ← s.calls[i]?
      let _ ← advance scheme cfg s.db 0 call
      some { s with calls := s.calls.set i (.threw "database operation failed") }
    | e => e.started.map fun call => { s with calls := s.calls ++ [call] }

section
variable (scheme : SignatureScheme) (cfg : AuthConfig)

/-- What a step of call number `i` can do: its next operation, or a rejection. -/
inductive Performs (db : AuthDb) (i : ℕ) (call : AuthCall) : AuthEvent → AuthDb → AuthCall → Prop
  | op {now : ℕ} {db' : AuthDb} {call' : AuthCall} (h : advance scheme cfg db now call = some (db', call')) :
      Performs db i call (.op i now) db' call'
  | reject {after : AuthDb × AuthCall} (h : advance scheme cfg db 0 call = some after) :
      Performs db i call (.reject i) db (.threw "database operation failed")

theorem step_cases {s s' : AuthState} {e : AuthEvent} (h : (authSystem scheme cfg).step s e = some s') :
    (∃ call, e.started = some call ∧ s' = { s with calls := s.calls ++ [call] }) ∨
      (e.started = none ∧ ∃ i call db' call', s.calls[i]? = some call ∧
        Performs scheme cfg s.db i call e db' call' ∧ s' = { db := db', calls := s.calls.set i call' }) := by
  cases e with
  | op i now =>
    simp only [authSystem, Option.bind_eq_bind, Option.bind_eq_some_iff] at h
    obtain ⟨call, hcall, ⟨db', call'⟩, hadvance, hs⟩ := h
    exact .inr ⟨rfl, i, call, db', call', hcall, .op hadvance, (Option.some.inj hs).symm⟩
  | reject i =>
    simp only [authSystem, Option.bind_eq_bind, Option.bind_eq_some_iff] at h
    obtain ⟨call, hcall, after, hadvance, hs⟩ := h
    exact .inr ⟨rfl, i, call, s.db, _, hcall, .reject hadvance, (Option.some.inj hs).symm⟩
  | _ => exact .inl ⟨_, rfl, (Option.some.inj h).symm⟩

end
end SuperAi.Auth
