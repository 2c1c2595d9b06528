import SuperAi.Audit.HmacChain
import SuperAi.Foundations.ExpiringStore
import SuperAi.Foundations.Joined
import SuperAi.Tokens.JwtValidator

/-! # The session binder

`SessionBinder` (`auth/session.binder.ts`) keeps a hash of a request's address, user agent and TLS fingerprint under
the key of the session, for the rest of the token's life but at least for a minute. Records are kept as the values
whose JSON texts are stored. Log lines and alerts are left out.
-/
namespace SuperAi.Auth
open SuperAi.Foundations SuperAi.Audit SuperAi.Tokens
set_option autoImplicit false

structure IncomingRequest where
  ip : String
  userAgent : String
  tlsFingerprint : String
  deriving DecidableEq, Repr

/-- `IncomingRequestSchema` -/
def IncomingRequest.valid (request : IncomingRequest) : Bool :=
  request.ip != "" && request.userAgent != "" && request.tlsFingerprint != ""

structure BoundSession where
  sessionId : String
  userId : String
  fingerprint : String
  boundAt : String
  expiresAt : String
  deriving DecidableEq, Repr

inductive BinderError
  | ZodError
  | RangeError
  | RedisError
  | SessionError (message code : String)
  deriving DecidableEq, Repr

/-- `toISOString` is `none` for a time that a date cannot be. -/
structure SessionBinder where
  sha256 : String → String
  toISOString : ℤ → Option String
  isDatetime : String → Bool

def SESSION_PREFIX : String := "session:bind:"

namespace SessionBinder
variable (binder : SessionBinder)

def sessionKey (sessionId : String) : String := SESSION_PREFIX ++ sessionId

def fingerprintText (request : IncomingRequest) (sessionId : String) : String :=
  request.ip ++ "|" ++ request.userAgent ++ "|" ++ request.tlsFingerprint ++ "|" ++ sessionId

def computeFingerprint (request : IncomingRequest) (sessionId : String) : String :=
  binder.sha256 (fingerprintText request sessionId)

/-- `BoundSessionSchema` -/
def acceptsSession (session : BoundSession) : Bool :=
  session.sessionId != "" && session.userId != "" && session.fingerprint != "" &&
    binder.isDatetime session.boundAt && binder.isDatetime session.expiresAt

/-- The seconds that the key lasts. -/
def effectiveTtl (now : ℤ) (token : ValidatedToken) : ℚ := max (token.expiresAt - (now / 1000 : ℤ)) 60

/-- At a time in milliseconds. Redis takes whole seconds only. -/
def bind (now : ℤ) (store : ExpiringStore String BoundSession) (token : ValidatedToken) (request : IncomingRequest) :
    Except BinderError BoundSession × ExpiringStore String BoundSession :=
  if request.valid then
    let ttl := effectiveTtl now token
    match binder.toISOString now, binder.toISOString (now + (ttl * 1000).floor) with
    | some boundAt, some expiresAt =>
      let session : BoundSession :=
        { sessionId := token.sessionId
          userId := token.userId
          fingerprint := binder.computeFingerprint request token.sessionId
          boundAt := boundAt
          expiresAt := expiresAt }
      if ttl.den = 1 then (.ok session, store.setex now (1000 * ttl.num) (sessionKey token.sessionId) session)
      else (.error .RedisError, store)
    | _, _ => (.error .RangeError, store)
  else (.error .ZodError, store)

def verify (now : ℤ) (store : ExpiringStore String BoundSession) (sessionId : String) (request : IncomingRequest) :
    Except BinderError BoundSession :=
  if request.valid then
    match store.read now (sessionKey sessionId) with
    | none => .error (.SessionError "Session not found" "SESSION_NOT_FOUND")
    | some session =>
      if binder.acceptsSession session then
        if binder.computeFingerprint request sessionId = session.fingerprint then .ok session
        else
          .error (.SessionError "Session fingerprint mismatch — possible session hijack" "SESSION_HIJACK_DETECTED")
      else .error .ZodError
  else .error .ZodError

def destroy (store : ExpiringStore String BoundSession) (sessionId : String) : ExpiringStore String BoundSession :=
  KeyValue.del store (sessionKey sessionId)

end SessionBinder

/-! ## Runs -/

inductive SessionCall
  | bind (now : ℤ) (token : ValidatedToken) (request : IncomingRequest)
  | verify (now : ℤ) (sessionId : String) (request : IncomingRequest)
  | destroy (sessionId : String)

/-- A bind that has succeeded. -/
structure Binding where
  now : ℤ
  token : ValidatedToken
  request : IncomingRequest

namespace SessionBinder
variable (binder : SessionBinder)

def call (store : ExpiringStore String BoundSession) : SessionCall → ExpiringStore String BoundSession
  | .bind now token request => (binder.bind now store token request).2
  | .verify .. => store
  | .destroy sessionId => destroy store sessionId

def calls (events : List SessionCall) : ExpiringStore String BoundSession := events.foldl binder.call []

/-- Binding does not look at what is stored. -/
def binds (now : ℤ) (token : ValidatedToken) (request : IncomingRequest) : Bool :=
  (binder.bind now [] token request).1.isOk

/-- The last binding of a session, if it has not been destroyed since. -/
def lastBind (sessionId : String) (events : List SessionCall) : Option Binding :=
  events.foldl (fun last event => match event with
    | .bind now token request =>
      if token.sessionId = sessionId ∧ binder.binds now token request = true then some ⟨now, token, request⟩ else last
    | .verify .. => last
    | .destroy destroyed => if destroyed = sessionId then none else last) none

end SessionBinder

namespace SessionBinder
variable {binder : SessionBinder} {store : ExpiringStore String BoundSession} {now : ℤ} {token : ValidatedToken}
  {request : IncomingRequest} {sessionId : String}

theorem sessionKey_injective : Function.Injective sessionKey := by
  intro a b h
  have hchars := congrArg String.toList h
  rw [sessionKey, sessionKey, String.toList_append, String.toList_append] at hchars
  exact String.toList_injective (List.append_cancel_left hchars)

/-- What a bind that succeeds stores, and how long. -/
theorem bind_cases (binder : SessionBinder) (now : ℤ) (store : ExpiringStore String BoundSession)
    (token : ValidatedToken) (request : IncomingRequest) :
    (binder.binds now token request = true ∧ ∃ session, session.fingerprint =
        binder.computeFingerprint request token.sessionId ∧ ((effectiveTtl now token).num : ℚ) = effectiveTtl now token ∧
        (binder.bind now store token request).2 =
          store.setex now (1000 * (effectiveTtl now token).num) (sessionKey token.sessionId) session) ∨
      (binder.binds now token request = false ∧ (binder.bind now store token request).2 = store) := by
  unfold binds bind
  cases hvalid : request.valid with
  | false => exact .inr ⟨rfl, rfl⟩
  | true =>
    dsimp only
    rw [if_pos rfl, if_pos rfl]
    cases binder.toISOString now with
    | none => exact .inr ⟨rfl, rfl⟩
    | some boundAt =>
      cases binder.toISOString (now + (effectiveTtl now token * 1000).floor) with
      | none => exact .inr ⟨rfl, rfl⟩
      | some expiresAt =>
        dsimp only
        by_cases hwhole : (effectiveTtl now token).den = 1
        · rw [if_pos hwhole, if_pos hwhole]
          exact .inl ⟨rfl, _, rfl, Rat.coe_int_num_of_den_eq_one hwhole, rfl⟩
        · rw [if_neg hwhole, if_neg hwhole]
          exact .inr ⟨rfl, rfl⟩

/-- The record under the key of a session is that of its last binding, and expires with it. -/
def Records (binder : SessionBinder) (store : ExpiringStore String BoundSession) (last : String → Option Binding) :
    Prop :=
  ∀ sessionId entry, KeyValue.get store (sessionKey sessionId) = some entry → ∃ bound, last sessionId = some bound ∧
    entry.value.fingerprint = binder.computeFingerprint bound.request sessionId ∧
    (entry.expiresAt : ℚ) = bound.now + 1000 * effectiveTtl bound.now bound.token

theorem lastBind_snoc (binder : SessionBinder) (sessionId : String) (events : List SessionCall) (event : SessionCall) :
    binder.lastBind sessionId (events ++ [event]) = match event with
      | .bind now token request =>
        if token.sessionId = sessionId ∧ binder.binds now token request = true then some ⟨now, token, request⟩
        else binder.lastBind sessionId events
      | .verify .. => binder.lastBind sessionId events
      | .destroy destroyed => if destroyed = sessionId then none else binder.lastBind sessionId events := by
  unfold lastBind
  rw [List.foldl_append]
  cases event <;> rfl

theorem records_calls (binder : SessionBinder) (events : List SessionCall) :
    Records binder (binder.calls events) fun sessionId => binder.lastBind sessionId events := by
  induction events using List.reverseRecOn with
  | nil =>
    intro sessionId entry hget
    cases hget
  | append_singleton events event ih =>
    intro sessionId entry hget
    have hcalls : binder.calls (events ++ [event]) = binder.call (binder.calls events) event := List.foldl_concat ..
    rw [hcalls] at hget
    dsimp only
    rw [lastBind_snoc]
    cases event with
    | verify now other request => exact ih sessionId entry hget
    | destroy destroyed =>
      by_cases hsame : destroyed = sessionId
      · subst hsame
        rw [call, destroy, KeyValue.get_del_self] at hget
        cases hget
      · have hkey : sessionKey sessionId ≠ sessionKey destroyed := fun heq => hsame (sessionKey_injective heq).symm
        rw [call, destroy, KeyValue.get_del_of_ne hkey] at hget
        dsimp only
        rw [if_neg hsame]
        exact ih sessionId entry hget
    | bind now token request =>
      dsimp only
      rw [call] at hget
      obtain ⟨hbinds, session, hfingerprint, hwhole, hstore⟩ | ⟨hbinds, hstore⟩ :=
        bind_cases binder now (binder.calls events) token request
      · rw [hstore] at hget
        by_cases hsame : token.sessionId = sessionId
        · subst hsame
          obtain rfl := Option.some.inj (hget.symm.trans (KeyValue.get_set_self _ _ _))
          refine ⟨_, if_pos ⟨rfl, hbinds⟩, hfingerprint, ?_⟩
          push_cast
          rw [hwhole]
        · have hkey : sessionKey sessionId ≠ sessionKey token.sessionId := fun heq =>
            hsame (sessionKey_injective heq).symm
          rw [ExpiringStore.setex, KeyValue.get_set_of_ne hkey] at hget
          rw [if_neg fun h => hsame h.1]
          exact ih sessionId entry hget
      · rw [hstore] at hget
        rw [if_neg (by simp [hbinds])]
        exact ih sessionId entry hget

/-! ## What a verified request shares with the bound one -/

/-- No separator in the fields after the first. -/
def Unpiped (request : IncomingRequest) : Prop :=
  '|' ∉ request.userAgent.toList ∧ '|' ∉ request.tlsFingerprint.toList

instance (request : IncomingRequest) : Decidable (Unpiped request) :=
  inferInstanceAs (Decidable (_ ∧ _))

theorem fingerprintText_inj {request request' : IncomingRequest} (h : Unpiped request) (h' : Unpiped request')
    (htext : fingerprintText request sessionId = fingerprintText request' sessionId) : request = request' := by
  have hchars : ∀ r : IncomingRequest, (fingerprintText r sessionId).toList =
      ((r.ip.toList ++ '|' :: r.userAgent.toList) ++ '|' :: r.tlsFingerprint.toList) ++ '|' :: sessionId.toList := by
    intro r
    simp [fingerprintText]
  have hfields := congrArg String.toList htext
  rw [hchars, hchars] at hfields
  obtain ⟨hrest, htls⟩ := append_cons_inj h.2 h'.2 (List.append_cancel_right hfields)
  obtain ⟨hip, hagent⟩ := append_cons_inj h.1 h'.1 hrest
  obtain ⟨ip, userAgent, tlsFingerprint⟩ := request
  obtain ⟨ip', userAgent', tlsFingerprint'⟩ := request'
  rw [IncomingRequest.mk.injEq]
  exact ⟨String.toList_injective hip, String.toList_injective hagent, String.toList_injective htls⟩

theorem verify_inv {session : BoundSession} (h : binder.verify now store sessionId request = .ok session) :
    store.read now (sessionKey sessionId) = some session ∧
      binder.computeFingerprint request sessionId = session.fingerprint := by
  unfold verify at h
  cases hvalid : request.valid with
  | false =>
    rw [hvalid] at h
    cases h
  | true =>
    rw [hvalid, if_pos rfl] at h
    cases hread : store.read now (sessionKey sessionId) with
    | none =>
      rw [hread] at h
      cases h
    | some found =>
      rw [hread] at h
      dsimp only at h
      by_cases haccepts : binder.acceptsSession found = true
      · by_cases hsame : binder.computeFingerprint request sessionId = found.fingerprint
        · rw [if_pos haccepts, if_pos hsame] at h
          obtain rfl := Except.ok.inj h
          exact ⟨rfl, hsame⟩
        · rw [if_pos haccepts, if_neg hsame] at h
          cases h
      · rw [if_neg haccepts] at h
        cases h

/-- **Session binding.** After any calls a request is verified for a session only if it is the one that the session
was last bound to, not destroyed since, where no field after the first has a separator in it, and for no longer
than the token lived at the bind, or a minute if that is more. -/
theorem verify_only_bound (hsha256 : Function.Injective binder.sha256) (events : List SessionCall)
    {session : BoundSession} (h : binder.verify now (binder.calls events) sessionId request = .ok session) :
    ∃ bound, binder.lastBind sessionId events = some bound ∧
      (Unpiped bound.request → Unpiped request → bound.request = request) ∧
      (now : ℚ) < bound.now + 1000 * max (bound.token.expiresAt - (bound.now / 1000 : ℤ)) 60 := by
  obtain ⟨hread, hfingerprint⟩ := verify_inv h
  obtain ⟨entry, hget, hentry⟩ := Option.bind_eq_some_iff.mp hread
  obtain ⟨hrunning, hvalue⟩ := Option.ite_none_right_eq_some.mp hentry
  obtain ⟨bound, hlast, hbound, hexpires⟩ := records_calls binder events sessionId entry hget
  refine ⟨bound, hlast, fun hpiped hpiped' => ?_, ?_⟩
  · rw [← Option.some.inj hvalue, hbound] at hfingerprint
    exact (fingerprintText_inj hpiped' hpiped (hsha256 hfingerprint)).symm
  · have hbefore : (now : ℚ) < entry.expiresAt := by exact_mod_cast hrunning
    rwa [hexpires] at hbefore

end SessionBinder

/-! ## A session that is verified, and one whose token has expired -/

/-- The real digest of the text below, and the times that occur. -/
def testBinder : SessionBinder where
  sha256 := tableHmac
    [("10.0.0.1|agent|tls|session", "453aff7f7af008c96efb25b42d961e34dd8ae7d1b0b604991bbcc5add29eb3cb")] ""
  toISOString now := KeyValue.get
    [(0, "1970-01-01T00:00:00.000Z"), (60000, "1970-01-01T00:01:00.000Z"), (3600000, "1970-01-01T01:00:00.000Z")] now
  isDatetime text := text.toList.length == 24

theorem testBinder_injective : Function.Injective testBinder.sha256 :=
  tableHmac_injective (by decide +kernel) (by decide +kernel) ""

def tokenUntil (expiresAt : ℚ) : ValidatedToken where
  userId := "user"
  sessionId := "session"
  scope := []
  issuedAt := 0
  expiresAt := expiresAt
  deviceFingerprint := "device"

def browser : IncomingRequest := ⟨"10.0.0.1", "agent", "tls"⟩

def boundUntil (expiresAt : String) : BoundSession where
  sessionId := "session"
  userId := "user"
  fingerprint := "453aff7f7af008c96efb25b42d961e34dd8ae7d1b0b604991bbcc5add29eb3cb"
  boundAt := "1970-01-01T00:00:00.000Z"
  expiresAt := expiresAt

theorem verified_browser : ∃ bound, testBinder.lastBind "session" [.bind 0 (tokenUntil 3600) browser] = some bound ∧
    (SessionBinder.Unpiped bound.request → bound.request = browser) := by
  have hverified : testBinder.verify 1000 (testBinder.calls [.bind 0 (tokenUntil 3600) browser]) "session" browser =
      .ok (boundUntil "1970-01-01T01:00:00.000Z") := by decide +kernel
  obtain ⟨bound, hlast, hsame, -⟩ := SessionBinder.verify_only_bound testBinder_injective _ hverified
  exact ⟨bound, hlast, fun hpiped => hsame hpiped (by decide)⟩

/-- Half a minute after the bind the token has long expired. -/
theorem expired_token_verifies : ∃ (binder : SessionBinder) (token : ValidatedToken) (request : IncomingRequest)
    (bindAt now : ℤ) (session : BoundSession), Function.Injective binder.sha256 ∧
      binder.verify now (binder.calls [.bind bindAt token request]) token.sessionId request = .ok session ∧
      1000 * token.expiresAt < now := by
  refine ⟨testBinder, tokenUntil 1, browser, 0, 30000, boundUntil "1970-01-01T00:01:00.000Z", testBinder_injective,
    ?_, ?_⟩
  · decide +kernel
  · decide +kernel

end SuperAi.Auth
