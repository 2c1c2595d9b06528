import SuperAi.Auth.AuthService
import SuperAi.Foundations.SingleUse

/-! # Whose wallet a sign-in proves

`verifyAndIssueTokens` checks the signature against the address in the request, but the tokens are
for the user whose session holds the nonce. The two agree in every run in which each accepted
request names the wallet of the session's user (`signedIn_bound`); a party that signs another
user's nonce with its own key breaks them apart (`signIn_not_bound`).
-/
namespace SuperAi.Auth
open SuperAi.Foundations
set_option autoImplicit false

variable (scheme : SignatureScheme) (cfg : AuthConfig)

/-! ## Users stay as they were created -/

namespace AuthDb

def Extends (db db' : AuthDb) : Prop :=
  ∀ userId u, db.findUser userId = some u → db'.findUser userId = some u

theorem Extends.of_users_eq {db db' : AuthDb} (h : db'.users = db.users) : db.Extends db' := by
  intro userId u hu
  rwa [findUser, h]

theorem Extends.of_users_append {db db' : AuthDb} {new : List User}
    (h : db'.users = db.users ++ new) : db.Extends db' := by
  intro userId u hu
  have hfound : db.users.find? (fun u => u.id == userId) = some u := hu
  rw [findUser, h, List.find?_append, hfound, Option.some_or]

theorem upsertUserByWallet_extends (db : AuthDb) (address : String) :
    db.Extends (db.upsertUserByWallet address).2 := by
  unfold upsertUserByWallet
  split
  · exact .of_users_eq rfl
  · exact .of_users_append rfl

theorem upsertUserByPhone_extends (db : AuthDb) (phone : String) :
    db.Extends (db.upsertUserByPhone phone).2 := by
  unfold upsertUserByPhone
  split
  · exact .of_users_eq rfl
  · exact .of_users_append rfl

end AuthDb

theorem advance_extends {db db' : AuthDb} {now : ℕ} {call call' : AuthCall}
    (h : advance scheme cfg db now call = some (db', call')) : db.Extends db' := by
  cases call with
  | issueNonce address chain nonce =>
    obtain ⟨rfl, -⟩ : _ = db' ∧ _ := by simpa [advance] using h
    exact db.upsertUserByWallet_extends address
  | verifyPhoneOtpUser phone fresh =>
    obtain ⟨rfl, -⟩ : _ = db' ∧ _ := by simpa [advance] using h
    exact db.upsertUserByPhone_extends phone
  | _ =>
    -- no other operation writes the user table
    refine .of_users_eq ?_
    simp only [advance] at h
    grind [AuthDb.createSession, AuthDb.updateSessions, AuthDb.audit, AuthDb.deleteUnusedOtps,
      AuthDb.createOtp, AuthDb.useOtp]

/-! ## The invariant -/

/-- The signature of `req` was made, over its nonce's challenge, by the key of the wallet of the
user that `tokens` are for. -/
def BoundToSubject (db : AuthDb) (req : VerifyRequest) (tokens : AuthTokens) : Prop :=
  ∃ u w, db.findUser tokens.accessToken.sub = some u ∧ u.primaryWallet = some w ∧
    scheme.SignedByOwner w req.nonce req.signature

theorem BoundToSubject.extends {scheme : SignatureScheme} {db db' : AuthDb} {req : VerifyRequest}
    {tokens : AuthTokens} (h : BoundToSubject scheme db req tokens) (hext : db.Extends db') :
    BoundToSubject scheme db' req tokens := by
  obtain ⟨u, w, hu, hw, hs⟩ := h
  exact ⟨u, w, hext _ _ hu, hw, hs⟩

/-- The calls that already hold tokens for a wallet hold them for the owner of the signing key. -/
def CallBound (db : AuthDb) : AuthCall → Prop
  | .verifyUpdate req _ tokens | .verifyAudit req _ tokens | .signedIn req tokens =>
    BoundToSubject scheme db req tokens
  | _ => True

theorem CallBound.extends {scheme : SignatureScheme} {db db' : AuthDb} {call : AuthCall}
    (h : CallBound scheme db call) (hext : db.Extends db') : CallBound scheme db' call := by
  cases call with
  | verifyUpdate req session tokens => exact BoundToSubject.extends h hext
  | verifyAudit req session tokens => exact BoundToSubject.extends h hext
  | signedIn req tokens => exact BoundToSubject.extends h hext
  | _ => trivial

/-- The request and the session that an event looks up together, if it performs the lookup of
`verifyAndIssueTokens`. -/
def AuthState.matching (s : AuthState) : AuthEvent → Option (VerifyRequest × Session)
  | .op i now =>
    match s.calls[i]? with
    | some (.verify req _) => (s.db.findSessionByNonce req.nonce now).map fun session => (req, session)
    | _ => none
  | _ => none

/-- The request's address names the wallet of the session's user. -/
def OwnWallet (db : AuthDb) (req : VerifyRequest) (session : Session) : Prop :=
  ∃ u ∈ db.findUser session.userId, ∃ w ∈ u.primaryWallet, scheme.SameWallet req.chain req.address w

/-- A signature passes only for a session of the wallet it is checked against. -/
def OwnSession (s : AuthState) (e : AuthEvent) : Prop :=
  ∀ m ∈ s.matching e, scheme.verify m.1.chain m.1.address m.1.nonce m.1.signature = true →
    OwnWallet scheme s.db m.1 m.2

instance (db : AuthDb) (req : VerifyRequest) (session : Session) :
    Decidable (OwnWallet scheme db req session) :=
  inferInstanceAs (Decidable (∃ u ∈ db.findUser session.userId, ∃ w ∈ u.primaryWallet,
    scheme.SameWallet req.chain req.address w))

instance (s : AuthState) (e : AuthEvent) : Decidable (OwnSession scheme s e) :=
  inferInstanceAs (Decidable (∀ m ∈ s.matching e,
    scheme.verify m.1.chain m.1.address m.1.nonce m.1.signature = true →
      OwnWallet scheme s.db m.1 m.2))

theorem advance_callBound {s : AuthState} {i now : ℕ} {call call' : AuthCall} {db' : AuthDb}
    (hguard : OwnSession scheme s (.op i now)) (hcall : s.calls[i]? = some call)
    (hbound : CallBound scheme s.db call)
    (h : advance scheme cfg s.db now call = some (db', call')) : CallBound scheme db' call' := by
  have hext := advance_extends scheme cfg h
  cases call with
  | verify req fresh =>
    simp only [advance] at h
    split at h
    · obtain ⟨-, rfl⟩ : _ ∧ _ = call' := by simpa using h
      trivial
    · rename_i session hsession
      split at h
      · rename_i hverify
        obtain ⟨rfl, rfl⟩ : _ = db' ∧ _ = call' := by simpa using h
        have hmatch : s.matching (.op i now) = some (req, session) := by
          simp [AuthState.matching, hcall, hsession]
        obtain ⟨u, hu, w, hw, hsame⟩ := hguard _ hmatch hverify
        exact ⟨u, w, hu, hw, scheme.verify_signedByOwner hverify hsame⟩
      · obtain ⟨-, rfl⟩ : _ ∧ _ = call' := by simpa using h
        trivial
  | verifyUpdate req session tokens =>
    simp only [advance] at h
    split at h
    · obtain ⟨-, rfl⟩ : _ ∧ _ = call' := by simpa using h
      trivial
    · obtain ⟨-, rfl⟩ : _ ∧ _ = call' := by simpa using h
      exact BoundToSubject.extends hbound hext
  | verifyAudit req session tokens =>
    obtain ⟨-, rfl⟩ : _ ∧ _ = call' := by simpa [advance] using h
    exact BoundToSubject.extends hbound hext
  | _ =>
    -- the other operations never lead to a call that holds wallet tokens
    simp only [advance] at h
    grind [CallBound]

def CallsBound (s : AuthState) : Prop := ∀ call ∈ s.calls, CallBound scheme s.db call

theorem step_callsBound {s s' : AuthState} {e : AuthEvent} (hinv : CallsBound scheme s)
    (hguard : OwnSession scheme s e) (hstep : (authSystem scheme cfg).step s e = some s') :
    CallsBound scheme s' := by
  rcases step_cases scheme cfg hstep with ⟨call, hstart, rfl⟩ | ⟨-, i, call, db', call', hcall, hperforms, rfl⟩
  · intro c hc
    rcases List.mem_append.mp hc with hmem | hnew
    · exact hinv c hmem
    · obtain rfl := List.mem_singleton.mp hnew
      -- a call that has just started holds no tokens
      cases e with
      | op i now => cases hstart
      | reject i => cases hstart
      | _ =>
        obtain rfl := Option.some.inj hstart
        trivial
  · cases hperforms with
    | op hadv =>
      have hold : CallBound scheme s.db call := hinv call (List.mem_of_getElem? hcall)
      apply forall_mem_set
      · exact fun c hc => (hinv c hc).extends (advance_extends scheme cfg hadv)
      · exact advance_callBound scheme cfg hguard hcall hold hadv
    | reject =>
      have hthrew : CallBound scheme s.db (.threw "database operation failed") := trivial
      exact forall_mem_set hinv hthrew _

/-- **Sign-in binds the user** in every run whose accepted requests name the wallet of the user
whose session holds the nonce. -/
theorem signedIn_bound {es : List AuthEvent} {s : AuthState} {req : VerifyRequest}
    {tokens : AuthTokens}
    (hrun : (authSystem scheme cfg).GuardedRun (OwnSession scheme) {} es s)
    (hreturn : .signedIn req tokens ∈ s.calls) : BoundToSubject scheme s.db req tokens := by
  have hinv : CallsBound scheme s :=
    hrun.invariant (fun _ _ _ hinv hguard hstep => step_callsBound scheme cfg hinv hguard hstep)
      (by simp [CallsBound])
  exact hinv _ hreturn

/-! ## Two wallets -/

def alice : String := "FPP21sbqhr2LPjSnJkw5NBetPubeFG4PsQFBxHj8noTq"

def mallory : String := "5Q6Yiuhf868GbyovdgucK3DiUKC3eFyfExP3krKd99qt"

def aliceSignature : String :=
  "2GwnsNk6anxAn2hENEU55jUKtHeg1KzcSvE4VJjydy6XTuyMCqjnCk7N3RRDajLLVmewshjX93VemHhZe8c2mqQ5"

def mallorySignature : String :=
  "5sKS1r52rg2WvSCrEU1tp6mBe8S6qtaqdu9u7CRBnx3ebKbmxpicgHA6q2CMVAPHDAX41dgeSs5y2JYt5Th7CTHa"

def sampleNonce : String := "0f1e2d3c4b5a69788796a5b4c3d2e1f0"

def aliceKey : List UInt8 :=
  [213, 191, 74, 63, 204, 231, 23, 176, 56, 139, 204, 39, 73, 235, 193, 72, 173, 153, 105, 178, 63,
    69, 238, 27, 96, 95, 213, 135, 120, 87, 106, 196]

def malloryKey : List UInt8 :=
  [65, 89, 96, 213, 166, 21, 231, 84, 163, 97, 4, 246, 98, 154, 207, 169, 248, 9, 63, 62, 15, 94,
    167, 82, 125, 149, 8, 91, 113, 16, 184, 179]

def aliceSignatureBytes : List UInt8 :=
  [63, 196, 95, 27, 42, 8, 32, 68, 99, 35, 26, 91, 54, 225, 163, 56, 171, 65, 102, 213, 166, 38, 163,
    100, 207, 176, 101, 176, 92, 201, 168, 126, 65, 42, 114, 161, 146, 246, 130, 84, 150, 61, 224,
    199, 90, 114, 157, 35, 230, 231, 92, 126, 205, 14, 187, 98, 95, 236, 152, 185, 203, 139, 205, 10]

def mallorySignatureBytes : List UInt8 :=
  [243, 117, 203, 149, 74, 204, 181, 242, 154, 0, 227, 74, 115, 95, 151, 111, 161, 68, 54, 136, 42,
    167, 108, 40, 175, 168, 63, 23, 60, 175, 29, 68, 103, 29, 39, 59, 70, 229, 235, 4, 94, 206, 168,
    184, 128, 147, 102, 114, 140, 68, 236, 162, 213, 89, 35, 137, 199, 193, 1, 54, 70, 22, 250, 1]

def sampleDecode (s : String) : Option (List UInt8) :=
  List.lookup s [(alice, aliceKey), (mallory, malloryKey), (aliceSignature, aliceSignatureBytes),
    (mallorySignature, mallorySignatureBytes)]

/-- What the two keys have signed: the same challenge, once each. -/
def sampleVerify (message sig pub : List UInt8) : Bool :=
  message == encode (challenge sampleNonce) &&
    ((pub == aliceKey && sig == aliceSignatureBytes) ||
      (pub == malloryKey && sig == mallorySignatureBytes))

/-- Ed25519 and base58 on the addresses and signatures of the two wallets; no EVM key signs. -/
def sampleScheme : SignatureScheme where
  SolanaKey := List UInt8
  EvmKey := Empty
  bs58decode := sampleDecode
  naclVerify message sig pub := some (sampleVerify message sig pub)
  verifyMessage _ _ := none
  publicKey := id
  address := Empty.elim
  SolanaSigned k message signature :=
    ∃ sig, sampleDecode signature = some sig ∧ sampleVerify (encode message) sig k = true
  EvmSigned k _ _ := k.elim
  nacl_unforgeable _ _ sig pub hdec h := ⟨pub, rfl, sig, hdec, Option.some.inj h⟩
  ethers_unforgeable _ _ _ h := nomatch h

def sampleConfig : AuthConfig where
  sha256 token := "sha256:" ++ token

/-- A nonce for `alice`, and a sign-in with it by the given wallet. -/
def signInRun (address signature : String) : List AuthEvent :=
  [.issueNonce alice .SOLANA sampleNonce, .op 0 0, .op 0 0,
    .verifyAndIssueTokens ⟨address, .SOLANA, signature, sampleNonce⟩ "fresh",
    .op 1 1, .op 1 1, .op 1 1]

def signedInState (address signature : String) : AuthState where
  db :=
    { users := [⟨0, some alice, none⟩]
      sessions := [⟨1, 0, "sha256:fresh", none, 1, 604800001⟩]
      auditLog := [⟨0, "auth.verify", address⟩]
      nextId := 2 }
  calls := [.nonceIssued sampleNonce, .signedIn ⟨address, .SOLANA, signature, sampleNonce⟩
    (signTokens sampleConfig 0 (some address) "fresh")]

theorem signedIn_bound_alice :
    BoundToSubject sampleScheme (signedInState alice aliceSignature).db
      ⟨alice, .SOLANA, aliceSignature, sampleNonce⟩
      (signTokens sampleConfig 0 (some alice) "fresh") :=
  have hrun : (authSystem sampleScheme sampleConfig).GuardedRun (OwnSession sampleScheme) {}
      (signInRun alice aliceSignature) (signedInState alice aliceSignature) :=
    .of_guardedRun (by decide +kernel)
  signedIn_bound sampleScheme sampleConfig hrun (by decide +kernel)

/-- `mallory` signs the challenge of `alice`'s nonce with its own key and receives tokens for
`alice`. -/
theorem signIn_not_bound :
    ¬ ∀ (scheme : SignatureScheme) (cfg : AuthConfig) (es : List AuthEvent) (s : AuthState)
        (req : VerifyRequest) (tokens : AuthTokens),
      (authSystem scheme cfg).run {} es = some s → .signedIn req tokens ∈ s.calls →
        BoundToSubject scheme s.db req tokens := by
  intro h
  obtain ⟨u, w, hu, hw, hsigned⟩ := h sampleScheme sampleConfig (signInRun mallory mallorySignature)
    (signedInState mallory mallorySignature) ⟨mallory, .SOLANA, mallorySignature, sampleNonce⟩
    (signTokens sampleConfig 0 (some mallory) "fresh") (by decide +kernel) (by decide +kernel)
  obtain rfl : ⟨0, some alice, none⟩ = u := Option.some.inj hu
  obtain rfl : alice = w := Option.some.inj hw
  rcases hsigned with ⟨k, hkey, sig, hsig, hver⟩ | ⟨k, -⟩
  · obtain rfl : aliceKey = k := Option.some.inj hkey
    have hbytes : sampleDecode mallorySignature = some mallorySignatureBytes := by decide +kernel
    obtain rfl : mallorySignatureBytes = sig := Option.some.inj (hbytes.symm.trans hsig)
    have hrejected : sampleVerify (encode (challenge sampleNonce)) mallorySignatureBytes aliceKey
        = false := by decide +kernel
    exact Bool.false_ne_true (hrejected.symm.trans hver)
  · exact k.elim

end SuperAi.Auth
