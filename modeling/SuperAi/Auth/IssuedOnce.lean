import SuperAi.Auth.RefreshOnce
import SuperAi.Foundations.Vouchers

/-! # Nonces and phone codes are used once

`verifyAndIssueTokens` and `verifyPhoneOtp` read a row, check it, and consume it in a later update that
does not look at it again. Both are vouchers: as long as no call takes a row that another call has read and
still has to consume, no more calls return tokens for a nonce, or for a phone's code, than it was issued
(`issued_once`). Two calls that both read before the first of them updates break this (`used_twice`).
-/
namespace SuperAi.Auth
open SuperAi.Foundations
set_option autoImplicit false

variable (scheme : SignatureScheme) (cfg : AuthConfig)

/-! ## Rows that calls take -/

inductive AuthRow
  | session (id : ℕ)
  | otp (id : ℕ)
  deriving DecidableEq, Repr

/-- The row that a call has read and has still to consume. -/
def AuthCall.row : AuthCall → Option AuthRow
  | .verifyUpdate _ session _ => some (.session session.id)
  | .verifyPhoneOtpUse record _ => some (.otp record.id)
  | _ => none

/-- The row that an event takes: the one it reads, if its check passes. -/
def AuthState.takes (s : AuthState) : AuthEvent → Option AuthRow
  | .op i now =>
    match s.calls[i]? with
    | some (.verify req _) =>
      if scheme.verify req.chain req.address req.nonce req.signature then
        (s.db.findSessionByNonce req.nonce now).map fun session => .session session.id
      else none
    | some (.verifyPhoneOtp phone otp _) =>
      ((s.db.findOtp (normalizePhone phone) now).filter fun record => record.otpHash = cfg.sha256 otp).map
        fun record => .otp record.id
    | _ => none
  | _ => none

/-- No other call holds the row that an event takes. -/
def TakenAlone (s : AuthState) (e : AuthEvent) : Prop :=
  ∀ row ∈ s.takes scheme cfg e, ∀ call ∈ s.calls, call.row ≠ some row

instance (s : AuthState) (e : AuthEvent) : Decidable (TakenAlone scheme cfg s e) :=
  inferInstanceAs (Decidable (∀ row ∈ s.takes scheme cfg e, ∀ call ∈ s.calls, call.row ≠ some row))

/-! ## Nonces -/

/-- The step stores the nonce. -/
def storesNonce (nonce : String) (s : AuthState) : AuthEvent → Bool
  | .op i _ =>
    match s.calls[i]? with
    | some (.issueNonceSession _ new) => new == nonce
    | _ => false
  | _ => false

/-- The call has returned tokens for the nonce. -/
def signedInWith (nonce : String) : AuthCall → Bool
  | .signedIn req _ => req.nonce == nonce
  | _ => false

def AuthDb.nonces (db : AuthDb) : Vouchers String := db.sessions.map fun s => (s.id, s.nonce)

def heldNonce : AuthCall → Option (ℕ × String)
  | .verifyUpdate req session _ => some (session.id, req.nonce)
  | _ => none

def spentNonce : AuthCall → Option String
  | .verifyAudit req _ _ | .signedIn req _ => some req.nonce
  | _ => none

def NoncesHonoured (s : AuthState) (issued : String → ℕ) : Prop :=
  Honoured heldNonce spentNonce s.db.nonces s.db.nextId s.calls issued

namespace AuthDb

theorem upsertUserByWallet_frame (db : AuthDb) (address : String) :
    (db.upsertUserByWallet address).2.sessions = db.sessions ∧
      (db.upsertUserByWallet address).2.phoneOtps = db.phoneOtps ∧
      db.nextId ≤ (db.upsertUserByWallet address).2.nextId := by
  unfold upsertUserByWallet
  split
  · exact ⟨rfl, rfl, Nat.le_refl _⟩
  · exact ⟨rfl, rfl, Nat.le_succ _⟩

theorem upsertUserByPhone_frame (db : AuthDb) (phone : String) :
    (db.upsertUserByPhone phone).2.sessions = db.sessions ∧
      (db.upsertUserByPhone phone).2.phoneOtps = db.phoneOtps ∧
      db.nextId ≤ (db.upsertUserByPhone phone).2.nextId := by
  unfold upsertUserByPhone
  split
  · exact ⟨rfl, rfl, Nat.le_refl _⟩
  · exact ⟨rfl, rfl, Nat.le_succ _⟩

theorem nonces_updateSessions (db : AuthDb) (where_ : Session → Bool) (data : Session → Session)
    (hdata : ∀ s, (data s).id = s.id ∧ (data s).nonce = s.nonce) :
    (db.updateSessions where_ data).2.nonces = db.nonces := by
  simp only [nonces, updateSessions, List.map_map]
  apply List.map_congr_left
  intro s _
  by_cases h : where_ s = true
  · simp [h, hdata]
  · simp [h]

theorem nonces_clear (db : AuthDb) (id : ℕ) (data : Session → Session)
    (hdata : ∀ s, (data s).id = s.id ∧ (data s).nonce = none) :
    (db.updateSessions (fun s => s.id == id) data).2.nonces = db.nonces.consume id := by
  simp only [nonces, updateSessions, Vouchers.consume, List.map_map]
  apply List.map_congr_left
  intro s _
  by_cases h : s.id = id
  · simp [h, hdata]
  · simp [h]

theorem updateSessions_eq_zero_iff (db : AuthDb) (id : ℕ) (data : Session → Session) :
    (db.updateSessions (fun s => s.id == id) data).1 = 0 ↔ id ∉ db.nonces.map Prod.fst := by
  simp [updateSessions, nonces, List.filter_eq_nil_iff]

theorem latestBy_mem {α : Type} {key : α → ℕ} {l : List α} {a : α} (h : latestBy key l = some a) : a ∈ l := by
  induction l generalizing a with
  | nil => cases h
  | cons b l ih =>
    simp only [latestBy] at h
    cases hrest : latestBy key l with
    | none =>
      rw [hrest] at h
      obtain rfl := Option.some.inj h
      exact List.mem_cons_self
    | some c =>
      rw [hrest] at h
      by_cases hkey : key c ≤ key b
      · obtain rfl : b = a := by simpa [hkey] using h
        exact List.mem_cons_self
      · obtain rfl : c = a := by simpa [hkey] using h
        exact List.mem_cons_of_mem b (ih hrest)

theorem findSessionByNonce_mem {db : AuthDb} {nonce : String} {now : ℕ} {session : Session}
    (h : db.findSessionByNonce nonce now = some session) : (session.id, some nonce) ∈ db.nonces := by
  have hmem := latestBy_mem h
  rw [List.mem_filter, Bool.and_eq_true, beq_iff_eq] at hmem
  exact List.mem_map.mpr ⟨session, hmem.1, by rw [hmem.2.1]⟩

end AuthDb

variable {scheme cfg}
variable {s s' : AuthState} {e : AuthEvent} {issued : String → ℕ}

theorem NoncesHonoured.start (h : NoncesHonoured s issued) {call : AuthCall} (hstart : e.started = some call) :
    NoncesHonoured { s with calls := s.calls ++ [call] } issued := by
  apply Honoured.start h
  all_goals
    cases e with
    | op i now => cases hstart
    | reject i => cases hstart
    | _ =>
      obtain rfl := Option.some.inj hstart
      rfl

/-- An operation that leaves the nonces alone, of a call that does not go on to sign in. -/
theorem NoncesHonoured.quiet (h : NoncesHonoured s issued) {i : ℕ} {call call' : AuthCall} {db' : AuthDb}
    (hcall : s.calls[i]? = some call) (hnonces : db'.nonces = s.db.nonces) (hnext : s.db.nextId ≤ db'.nextId)
    (hheld : heldNonce call' = none) (hspent : spentNonce call' = none ∨ spentNonce call' = spentNonce call) :
    NoncesHonoured { db := db', calls := s.calls.set i call' } issued := by
  have hidle := Honoured.idle h hcall hheld hspent
  exact hidle.drop (hnonces ▸ List.Sublist.refl _) hnext

theorem NoncesHonoured.issue (h : NoncesHonoured s issued) {i now userId : ℕ} {nonce : String}
    (hcall : s.calls[i]? = some (.issueNonceSession userId nonce)) :
    NoncesHonoured
      { db := s.db.createSession userId "pending" (some nonce) now (now + 900000)
        calls := s.calls.set i (.nonceIssued nonce) }
      (fun k => issued k + if storesNonce k s (.op i now) then 1 else 0) := by
  have hidle := (Honoured.idle h hcall (b := .nonceIssued nonce) rfl (.inl rfl)).issue (some nonce)
  have hstores : ∀ k, storesNonce k s (.op i now) = true ↔ some nonce = some k := by
    intro k
    simp [storesNonce, hcall]
  have hnonces : (s.db.createSession userId "pending" (some nonce) now (now + 900000)).nonces =
      s.db.nonces ++ [(s.db.nextId, some nonce)] := by
    simp [AuthDb.nonces, AuthDb.createSession]
  unfold NoncesHonoured
  simp only [hnonces, hstores]
  exact hidle

theorem NoncesHonoured.verify (h : NoncesHonoured s issued) {i now : ℕ} {req : VerifyRequest} {fresh : String}
    {db' : AuthDb} {call' : AuthCall} (hguard : TakenAlone scheme cfg s (.op i now))
    (hcall : s.calls[i]? = some (.verify req fresh))
    (hadvance : advance scheme cfg s.db now (.verify req fresh) = some (db', call')) :
    NoncesHonoured { db := db', calls := s.calls.set i call' } issued := by
  simp only [advance] at hadvance
  cases hfind : s.db.findSessionByNonce req.nonce now with
  | none =>
    rw [hfind] at hadvance
    obtain ⟨rfl, rfl⟩ : s.db = db' ∧ _ = call' := by simpa using hadvance
    exact h.quiet hcall rfl (Nat.le_refl _) rfl (.inl rfl)
  | some session =>
    rw [hfind] at hadvance
    by_cases hverify : scheme.verify req.chain req.address req.nonce req.signature = true
    · obtain ⟨rfl, rfl⟩ : s.db = db' ∧ _ = call' := by simpa [hverify] using hadvance
      have htakes : s.takes scheme cfg (.op i now) = some (.session session.id) := by
        simp [AuthState.takes, hcall, hfind, hverify]
      refine Honoured.take h hcall rfl rfl (AuthDb.findSessionByNonce_mem hfind) fun call hmem k hholds => ?_
      apply hguard _ htakes call hmem
      cases call with
      | verifyUpdate req' session' tokens =>
        have hid : (session'.id, req'.nonce) = (session.id, k) := Option.some.inj hholds
        rw [AuthCall.row, (Prod.mk.inj hid).1]
      | _ => cases hholds
    · obtain ⟨rfl, rfl⟩ : s.db = db' ∧ _ = call' := by simpa [hverify] using hadvance
      exact h.quiet hcall rfl (Nat.le_refl _) rfl (.inl rfl)

theorem NoncesHonoured.verifyUpdate (h : NoncesHonoured s issued) {i now : ℕ} {req : VerifyRequest}
    {session : Session} {tokens : AuthTokens} {db' : AuthDb} {call' : AuthCall}
    (hcall : s.calls[i]? = some (.verifyUpdate req session tokens))
    (hadvance : advance scheme cfg s.db now (.verifyUpdate req session tokens) = some (db', call')) :
    NoncesHonoured { db := db', calls := s.calls.set i call' } issued := by
  have hclear := AuthDb.nonces_clear s.db session.id
    (fun s => { s with nonce := none, refreshHash := cfg.hashToken tokens.refreshToken,
                       expiresAt := now + cfg.refreshTtlMs, lastSeen := now }) fun s => ⟨rfl, rfl⟩
  simp only [advance] at hadvance
  split at hadvance
  · rename_i hzero
    obtain ⟨rfl, rfl⟩ : _ = db' ∧ _ = call' := by simpa using hadvance
    rw [AuthDb.updateSessions_eq_zero_iff] at hzero
    exact h.quiet hcall (hclear.trans (Vouchers.consume_of_not_mem hzero)) (Nat.le_refl _) rfl (.inl rfl)
  · rename_i hone
    obtain ⟨rfl, rfl⟩ : _ = db' ∧ _ = call' := by simpa using hadvance
    rw [AuthDb.updateSessions_eq_zero_iff, not_not] at hone
    have hspend := Honoured.spend h hcall (b := .verifyAudit req session tokens) rfl rfl rfl hone
    unfold NoncesHonoured
    rw [hclear]
    exact hspend

/-- The other operations. -/
theorem advance_nonces_quiet {db db' : AuthDb} {now : ℕ} {call call' : AuthCall}
    (h : advance scheme cfg db now call = some (db', call')) :
    (∃ userId nonce, call = .issueNonceSession userId nonce) ∨ (∃ req fresh, call = .verify req fresh) ∨
      (∃ req session tokens, call = .verifyUpdate req session tokens) ∨
      (∃ userId phone tokens, call = .verifyPhoneOtpSession userId phone tokens) ∨
      db'.nonces = db.nonces ∧ db.nextId ≤ db'.nextId ∧ heldNonce call' = none ∧
        (spentNonce call' = none ∨ spentNonce call' = spentNonce call) := by
  cases call with
  | issueNonceSession userId nonce => exact .inl ⟨userId, nonce, rfl⟩
  | verify req fresh => exact .inr (.inl ⟨req, fresh, rfl⟩)
  | verifyUpdate req session tokens => exact .inr (.inr (.inl ⟨req, session, tokens, rfl⟩))
  | verifyPhoneOtpSession userId phone tokens => exact .inr (.inr (.inr (.inl ⟨userId, phone, tokens, rfl⟩)))
  | issueNonce address chain nonce =>
    obtain ⟨rfl, rfl⟩ : _ = db' ∧ _ = call' := by simpa [advance] using h
    obtain ⟨hsessions, -, hnext⟩ := db.upsertUserByWallet_frame address
    exact .inr (.inr (.inr (.inr ⟨by rw [AuthDb.nonces, hsessions, AuthDb.nonces], hnext, rfl, .inl rfl⟩)))
  | verifyPhoneOtpUser phone fresh =>
    obtain ⟨rfl, rfl⟩ : _ = db' ∧ _ = call' := by simpa [advance] using h
    obtain ⟨hsessions, -, hnext⟩ := db.upsertUserByPhone_frame phone
    exact .inr (.inr (.inr (.inr ⟨by rw [AuthDb.nonces, hsessions, AuthDb.nonces], hnext, rfl, .inl rfl⟩)))
  | refreshUpdate session hash tokens =>
    have hnonces := AuthDb.nonces_updateSessions db (fun s => s.id == session.id && s.refreshHash == hash)
      (fun s => { s with refreshHash := cfg.hashToken tokens.refreshToken, expiresAt := now + cfg.refreshTtlMs,
                         lastSeen := now }) fun s => ⟨rfl, rfl⟩
    refine .inr (.inr (.inr (.inr ?_)))
    simp only [advance] at h
    split at h
    · obtain ⟨rfl, rfl⟩ : _ = db' ∧ _ = call' := by simpa using h
      exact ⟨hnonces, Nat.le_refl _, rfl, .inl rfl⟩
    · obtain ⟨rfl, rfl⟩ : _ = db' ∧ _ = call' := by simpa using h
      exact ⟨hnonces, Nat.le_refl _, rfl, .inl rfl⟩
  | logout token =>
    have hnonces := AuthDb.nonces_updateSessions db (fun s => s.refreshHash == cfg.hashToken token)
      (fun s => { s with refreshHash := "revoked", expiresAt := 0 }) fun s => ⟨rfl, rfl⟩
    refine .inr (.inr (.inr (.inr ?_)))
    simp only [advance] at h
    split at h
    · obtain ⟨rfl, rfl⟩ : _ = db' ∧ _ = call' := by simpa using h
      exact ⟨rfl, Nat.le_refl _, rfl, .inl rfl⟩
    · obtain ⟨rfl, rfl⟩ : _ = db' ∧ _ = call' := by simpa using h
      exact ⟨hnonces, Nat.le_refl _, rfl, .inl rfl⟩
  | _ =>
    -- these write no session row
    refine .inr (.inr (.inr (.inr ?_)))
    simp only [advance] at h
    grind [heldNonce, spentNonce, AuthDb.nonces, AuthDb.audit, AuthDb.deleteUnusedOtps, AuthDb.createOtp, AuthDb.useOtp]

theorem NoncesHonoured.performs (h : NoncesHonoured s issued) {i : ℕ} {call call' : AuthCall} {db' : AuthDb}
    (hguard : TakenAlone scheme cfg s e) (hcall : s.calls[i]? = some call)
    (hperforms : Performs scheme cfg s.db i call e db' call') :
    NoncesHonoured { db := db', calls := s.calls.set i call' }
      (fun k => issued k + if storesNonce k s e then 1 else 0) := by
  cases hperforms with
  | reject => exact h.quiet hcall rfl (Nat.le_refl _) rfl (.inl rfl)
  | @op now db' call' hadvance =>
    by_cases hissue : ∃ userId nonce, call = .issueNonceSession userId nonce
    · obtain ⟨userId, nonce, rfl⟩ := hissue
      obtain ⟨rfl, rfl⟩ : _ = db' ∧ _ = call' := by simpa [advance] using hadvance
      exact h.issue hcall
    · have hstores : ∀ k, storesNonce k s (.op i now) = false := by
        intro k
        cases call with
        | issueNonceSession userId nonce => exact absurd ⟨userId, nonce, rfl⟩ hissue
        | _ => simp [storesNonce, hcall]
      suffices hsame : NoncesHonoured { db := db', calls := s.calls.set i call' } issued by
        simpa [hstores] using hsame
      rcases advance_nonces_quiet hadvance with hissue' | ⟨req, fresh, rfl⟩ | ⟨req, session, tokens, rfl⟩ |
        ⟨userId, phone, tokens, rfl⟩ | ⟨hnonces, hnext, hheld, hspent⟩
      · exact absurd hissue' hissue
      · exact h.verify hguard hcall hadvance
      · exact h.verifyUpdate hcall hadvance
      · obtain ⟨rfl, rfl⟩ : _ = db' ∧ _ = call' := by simpa [advance] using hadvance
        have hnonces : (s.db.createSession userId (cfg.hashToken tokens.refreshToken) none now
            (now + cfg.refreshTtlMs)).nonces = s.db.nonces ++ [(s.db.nextId, none)] := by
          simp [AuthDb.nonces, AuthDb.createSession]
        unfold NoncesHonoured
        rw [hnonces]
        exact (Honoured.idle h hcall rfl (.inl rfl)).issue_none
      · exact h.quiet hcall hnonces hnext hheld hspent

theorem NoncesHonoured.step (h : NoncesHonoured s issued) (hguard : TakenAlone scheme cfg s e)
    (hstep : (authSystem scheme cfg).step s e = some s') :
    NoncesHonoured s' (fun k => issued k + if storesNonce k s e then 1 else 0) := by
  rcases step_cases scheme cfg hstep with ⟨call, hstart, rfl⟩ | ⟨-, i, call, db', call', hcall, hperforms, rfl⟩
  · have hstores : ∀ k, storesNonce k s e = false := by
      intro k
      cases e with
      | op i now => cases hstart
      | _ => rfl
    simpa [hstores] using h.start hstart
  · exact h.performs hguard hcall hperforms

/-! ## Phone codes -/

/-- The step stores the code, by its hash, for the phone. -/
def storesCode (key : String × String) (s : AuthState) : AuthEvent → Bool
  | .op i _ =>
    match s.calls[i]? with
    | some (.requestPhoneOtpCreate phone otpHash) => (phone, otpHash) == key
    | _ => false
  | _ => false

/-- The call has returned tokens for the code, given by its hash, of the phone. -/
def phoneSignedInWith (cfg : AuthConfig) (key : String × String) : AuthCall × AuthCall → Bool
  | (.verifyPhoneOtp phone otp _, .done (some _)) => (normalizePhone phone, cfg.sha256 otp) == key
  | _ => false

def AuthDb.codes (db : AuthDb) : Vouchers (String × String) :=
  db.phoneOtps.map fun o => (o.id, if o.used then none else some (o.phone, o.otpHash))

def heldCode (cfg : AuthConfig) : AuthCall × AuthCall → Option (ℕ × String × String)
  | (.verifyPhoneOtp phone otp _, .verifyPhoneOtpUse record _) => some (record.id, normalizePhone phone, cfg.sha256 otp)
  | _ => none

def spentCode (cfg : AuthConfig) : AuthCall × AuthCall → Option (String × String)
  | (.verifyPhoneOtp phone otp _, .verifyPhoneOtpUser _ _)
  | (.verifyPhoneOtp phone otp _, .verifyPhoneOtpSession _ _ _)
  | (.verifyPhoneOtp phone otp _, .verifyPhoneOtpAudit _ _ _)
  | (.verifyPhoneOtp phone otp _, .done (some _)) => some (normalizePhone phone, cfg.sha256 otp)
  | _ => none

/-- The call still has to use a code. -/
def AuthCall.verifies : AuthCall → Bool
  | .verifyPhoneOtp _ _ _ | .verifyPhoneOtpUse _ _ => true
  | _ => false

/-- What a call of `verifyPhoneOtp` comes to, and that no other call comes to it. -/
inductive PhoneTrace : AuthCall → AuthCall → Prop
  | verify (phone otp fresh : String) : PhoneTrace (.verifyPhoneOtp phone otp fresh) (.verifyPhoneOtp phone otp fresh)
  | use (phone otp fresh : String) (record : PhoneOtp) (fresh' : String) :
      PhoneTrace (.verifyPhoneOtp phone otp fresh) (.verifyPhoneOtpUse record fresh')
  | user (phone otp fresh phone' fresh' : String) :
      PhoneTrace (.verifyPhoneOtp phone otp fresh) (.verifyPhoneOtpUser phone' fresh')
  | session (phone otp fresh : String) (userId : ℕ) (phone' : String) (tokens : AuthTokens) :
      PhoneTrace (.verifyPhoneOtp phone otp fresh) (.verifyPhoneOtpSession userId phone' tokens)
  | audit (phone otp fresh : String) (userId : ℕ) (phone' : String) (tokens : AuthTokens) :
      PhoneTrace (.verifyPhoneOtp phone otp fresh) (.verifyPhoneOtpAudit userId phone' tokens)
  | returned (phone otp fresh : String) (tokens : AuthTokens) :
      PhoneTrace (.verifyPhoneOtp phone otp fresh) (.done (some tokens))
  | threw (start : AuthCall) (message : String) : PhoneTrace start (.threw message)
  | other {start call : AuthCall} (hstart : start.verifies = false) (hcall : call.verifies = false) :
      PhoneTrace start call

theorem heldCode_other {start : AuthCall} (h : start.verifies = false) (call : AuthCall) :
    heldCode cfg (start, call) = none := by
  cases start with
  | verifyPhoneOtp phone otp fresh => cases h
  | _ => rfl

theorem spentCode_other {start : AuthCall} (h : start.verifies = false) (call : AuthCall) :
    spentCode cfg (start, call) = none := by
  cases start with
  | verifyPhoneOtp phone otp fresh => cases h
  | _ => rfl

theorem heldCode_threw (start : AuthCall) (message : String) : heldCode cfg (start, .threw message) = none := by
  cases start <;> rfl

theorem spentCode_threw (start : AuthCall) (message : String) : spentCode cfg (start, .threw message) = none := by
  cases start <;> rfl

structure CodesHonoured (cfg : AuthConfig) (es : List AuthEvent) (s : AuthState) (issued : String × String → ℕ) :
    Prop where
  traced : s.Traced es
  traces : ∀ trace ∈ s.traces es, PhoneTrace trace.1 trace.2
  codes : Honoured (heldCode cfg) (spentCode cfg) s.db.codes s.db.nextId (s.traces es) issued

namespace AuthDb

theorem findOtp_mem {db : AuthDb} {phone : String} {now : ℕ} {record : PhoneOtp}
    (h : db.findOtp phone now = some record) : (record.id, some (phone, record.otpHash)) ∈ db.codes := by
  have hmem := latestBy_mem h
  rw [List.mem_filter, Bool.and_eq_true, Bool.and_eq_true, beq_iff_eq, Bool.not_eq_true'] at hmem
  exact List.mem_map.mpr ⟨record, hmem.1, by simp [hmem.2.1.1, hmem.2.1.2]⟩

theorem codes_deleteUnusedOtps (db : AuthDb) (phone : String) :
    (db.deleteUnusedOtps phone).codes.Sublist db.codes := List.filter_sublist.map _

theorem codes_createOtp (db : AuthDb) (phone otpHash : String) (now : ℕ) :
    (db.createOtp phone otpHash now).codes = db.codes ++ [(db.nextId, some (phone, otpHash))] := by
  simp [codes, createOtp]

theorem codes_useOtp (db : AuthDb) (id : ℕ) : (db.useOtp id).codes = db.codes.consume id := by
  simp only [codes, useOtp, Vouchers.consume, List.map_map]
  apply List.map_congr_left
  intro o _
  by_cases h : o.id = id
  · simp [h]
  · simp [h]

end AuthDb

variable {es : List AuthEvent} {issuedCodes : String × String → ℕ} {start call call' : AuthCall} {db db' : AuthDb}
  {i now : ℕ}

/-- The operations of the other calls. -/
theorem advance_codes_quiet (hcall : call.verifies = false)
    (h : advance scheme cfg db now call = some (db', call')) :
    call'.verifies = false ∧ ((∃ phone otpHash, call = .requestPhoneOtpCreate phone otpHash) ∨
      db'.codes.Sublist db.codes ∧ db.nextId ≤ db'.nextId) := by
  cases call with
  | verifyPhoneOtp phone otp fresh => cases hcall
  | verifyPhoneOtpUse record fresh => cases hcall
  | issueNonce address chain nonce =>
    obtain ⟨rfl, rfl⟩ : _ = db' ∧ _ = call' := by simpa [advance] using h
    obtain ⟨-, hotps, hnext⟩ := db.upsertUserByWallet_frame address
    exact ⟨rfl, .inr ⟨by rw [AuthDb.codes, hotps, AuthDb.codes], hnext⟩⟩
  | verifyPhoneOtpUser phone fresh =>
    obtain ⟨rfl, rfl⟩ : _ = db' ∧ _ = call' := by simpa [advance] using h
    obtain ⟨-, hotps, hnext⟩ := db.upsertUserByPhone_frame phone
    exact ⟨rfl, .inr ⟨by rw [AuthDb.codes, hotps, AuthDb.codes], hnext⟩⟩
  | requestPhoneOtp phone otp =>
    simp only [advance] at h
    split at h
    · obtain ⟨rfl, rfl⟩ : _ = db' ∧ _ = call' := by simpa using h
      exact ⟨rfl, .inr ⟨List.Sublist.refl _, Nat.le_refl _⟩⟩
    · obtain ⟨rfl, rfl⟩ : _ = db' ∧ _ = call' := by simpa using h
      exact ⟨rfl, .inr ⟨db.codes_deleteUnusedOtps _, Nat.le_refl _⟩⟩
  | requestPhoneOtpCreate phone otpHash =>
    obtain ⟨rfl, rfl⟩ : _ = db' ∧ _ = call' := by simpa [advance] using h
    exact ⟨rfl, .inl ⟨phone, otpHash, rfl⟩⟩
  | _ =>
    -- these write no row of a code
    suffices hframe : call'.verifies = false ∧ db'.phoneOtps = db.phoneOtps ∧ db.nextId ≤ db'.nextId by
      refine ⟨hframe.1, .inr ⟨?_, hframe.2.2⟩⟩
      rw [AuthDb.codes, hframe.2.1, AuthDb.codes]
    simp only [advance] at h
    grind [AuthCall.verifies, AuthDb.createSession, AuthDb.updateSessions, AuthDb.audit]

/-- The codes after a step of call number `i`. -/
def PaidAfter (cfg : AuthConfig) (es : List AuthEvent) (s : AuthState) (i : ℕ) (start call' : AuthCall) (db' : AuthDb)
    (issued : String × String → ℕ) : Prop :=
  PhoneTrace start call' ∧
    Honoured (heldCode cfg) (spentCode cfg) db'.codes db'.nextId ((s.traces es).set i (start, call')) issued

theorem CodesHonoured.quiet (h : CodesHonoured cfg es s issuedCodes)
    (hcall : (s.traces es)[i]? = some (start, call)) (htrace : PhoneTrace start call')
    (hcodes : db'.codes.Sublist s.db.codes) (hnext : s.db.nextId ≤ db'.nextId)
    (hheld : heldCode cfg (start, call') = none)
    (hspent : spentCode cfg (start, call') = none ∨ spentCode cfg (start, call') = spentCode cfg (start, call)) :
    PaidAfter cfg es s i start call' db' issuedCodes :=
  ⟨htrace, (h.codes.idle hcall hheld hspent).drop hcodes hnext⟩

theorem CodesHonoured.threw (h : CodesHonoured cfg es s issuedCodes)
    (hcall : (s.traces es)[i]? = some (start, call)) (message : String) :
    PaidAfter cfg es s i start (.threw message) s.db issuedCodes :=
  h.quiet hcall (.threw start message) (List.Sublist.refl _) (Nat.le_refl _) (heldCode_threw start message)
    (.inl (spentCode_threw start message))

theorem calls_of_traces (h : (s.traces es)[i]? = some (start, call)) : s.calls[i]? = some call :=
  (List.getElem?_zip_eq_some.mp h).2

theorem CodesHonoured.verify (h : CodesHonoured cfg es s issuedCodes) {phone otp fresh : String}
    (hguard : TakenAlone scheme cfg s (.op i now))
    (hcall : (s.traces es)[i]? = some (.verifyPhoneOtp phone otp fresh, .verifyPhoneOtp phone otp fresh))
    (hadvance : advance scheme cfg s.db now (.verifyPhoneOtp phone otp fresh) = some (db', call')) :
    PaidAfter cfg es s i (.verifyPhoneOtp phone otp fresh) call' db' issuedCodes := by
  simp only [advance] at hadvance
  cases hfind : s.db.findOtp (normalizePhone phone) now with
  | none =>
    rw [hfind] at hadvance
    obtain ⟨rfl, rfl⟩ : s.db = db' ∧ _ = call' := by simpa using hadvance
    exact h.threw hcall _
  | some record =>
    rw [hfind] at hadvance
    by_cases hhash : record.otpHash = cfg.sha256 otp
    · obtain ⟨rfl, rfl⟩ : s.db = db' ∧ _ = call' := by simpa [hhash] using hadvance
      have htakes : s.takes scheme cfg (.op i now) = some (.otp record.id) := by
        simp [AuthState.takes, calls_of_traces hcall, hfind, hhash, Option.filter]
      have hrow : (record.id, some (normalizePhone phone, cfg.sha256 otp)) ∈ s.db.codes :=
        hhash ▸ AuthDb.findOtp_mem hfind
      refine ⟨.use phone otp fresh record fresh, h.codes.take hcall rfl rfl hrow fun trace hmem k hholds => ?_⟩
      obtain ⟨start', call⟩ := trace
      have hother := hguard _ htakes call (List.of_mem_zip hmem).2
      cases h.traces _ hmem with
      | use phone' otp' fresh' record' =>
        have hid : (record'.id, normalizePhone phone', cfg.sha256 otp') = (record.id, k) := Option.some.inj hholds
        apply hother
        rw [AuthCall.row, (Prod.mk.inj hid).1]
      | threw message => exact absurd hholds (by rw [heldCode_threw]; exact (Option.some_ne_none _).symm)
      | other hstart => exact absurd hholds (by rw [heldCode_other hstart]; exact (Option.some_ne_none _).symm)
      | _ => cases hholds
    · obtain ⟨rfl, rfl⟩ : s.db = db' ∧ _ = call' := by simpa [hhash] using hadvance
      exact h.threw hcall _

theorem CodesHonoured.use (h : CodesHonoured cfg es s issuedCodes) {phone otp fresh fresh' : String}
    {record : PhoneOtp}
    (hcall : (s.traces es)[i]? = some (.verifyPhoneOtp phone otp fresh, .verifyPhoneOtpUse record fresh'))
    (hadvance : advance scheme cfg s.db now (.verifyPhoneOtpUse record fresh') = some (db', call')) :
    PaidAfter cfg es s i (.verifyPhoneOtp phone otp fresh) call' db' issuedCodes := by
  simp only [advance] at hadvance
  by_cases hrow : (s.db.phoneOtps.any fun o => o.id == record.id) = true
  · obtain ⟨rfl, rfl⟩ : _ = db' ∧ _ = call' := by simpa only [if_pos hrow, Option.some.injEq, Prod.mk.injEq] using hadvance
    have hmem : record.id ∈ s.db.codes.map Prod.fst := by
      simpa [AuthDb.codes] using hrow
    refine ⟨.user phone otp fresh record.phone fresh', ?_⟩
    rw [AuthDb.codes_useOtp]
    exact h.codes.spend hcall rfl rfl rfl hmem
  · obtain ⟨rfl, rfl⟩ : _ = db' ∧ _ = call' := by simpa only [if_neg hrow, Option.some.injEq, Prod.mk.injEq] using hadvance
    exact h.threw hcall _

theorem storesCode_eq_false (hcall : s.calls[i]? = some call)
    (hne : ∀ phone otpHash, call ≠ .requestPhoneOtpCreate phone otpHash) (key : String × String) :
    storesCode key s (.op i now) = false := by
  cases call with
  | requestPhoneOtpCreate phone otpHash => exact absurd rfl (hne phone otpHash)
  | _ => simp [storesCode, hcall]

theorem CodesHonoured.other (h : CodesHonoured cfg es s issuedCodes) (hstart : start.verifies = false)
    (hverifies : call.verifies = false) (hcall : (s.traces es)[i]? = some (start, call))
    (hadvance : advance scheme cfg s.db now call = some (db', call')) :
    PaidAfter cfg es s i start call' db' (fun k => issuedCodes k + if storesCode k s (.op i now) then 1 else 0) := by
  have hnone : ∀ call, heldCode cfg (start, call) = none ∧ spentCode cfg (start, call) = none :=
    fun call => ⟨heldCode_other hstart call, spentCode_other hstart call⟩
  by_cases hissue : ∃ phone otpHash, call = .requestPhoneOtpCreate phone otpHash
  · obtain ⟨phone, otpHash, rfl⟩ := hissue
    obtain ⟨rfl, rfl⟩ : _ = db' ∧ _ = call' := by simpa [advance] using hadvance
    have hstores : ∀ k, storesCode k s (.op i now) = true ↔ (phone, otpHash) = k := by
      intro k
      simp [storesCode, calls_of_traces hcall]
    refine ⟨.other hstart rfl, ?_⟩
    have hidle := h.codes.idle hcall (hnone (.sendSms phone)).1 (.inl (hnone _).2)
    have hissued := hidle.issue (some (phone, otpHash))
    rw [AuthDb.codes_createOtp]
    change Honoured _ _ _ (s.db.nextId + 1) _ _
    simpa [hstores] using hissued
  · have hstores : ∀ k, storesCode k s (.op i now) = false :=
      storesCode_eq_false (calls_of_traces hcall) fun phone otpHash heq => hissue ⟨phone, otpHash, heq⟩
    obtain ⟨hverifies', hcreate | ⟨hcodes, hnext⟩⟩ := advance_codes_quiet hverifies hadvance
    · exact absurd hcreate hissue
    · have hquiet := h.quiet hcall (.other hstart hverifies') hcodes hnext (hnone call').1 (.inl (hnone call').2)
      simpa [hstores] using hquiet

theorem PaidAfter.issue_none (h : PaidAfter cfg es s i start call' db' issuedCodes)
    (hstores : ∀ k, storesCode k s e = false) :
    PaidAfter cfg es s i start call' db' (fun k => issuedCodes k + if storesCode k s e then 1 else 0) := by
  simpa [hstores] using h

theorem CodesHonoured.performs (h : CodesHonoured cfg es s issuedCodes) (hguard : TakenAlone scheme cfg s e)
    (hcall : (s.traces es)[i]? = some (start, call)) (hperforms : Performs scheme cfg s.db i call e db' call') :
    PaidAfter cfg es s i start call' db' (fun k => issuedCodes k + if storesCode k s e then 1 else 0) := by
  have htrace : PhoneTrace start call := h.traces _ (List.mem_of_getElem? hcall)
  cases hperforms with
  | reject => exact (h.threw hcall _).issue_none fun _ => rfl
  | @op now db' call' hadvance =>
    cases htrace with
    | other hstart hverifies => exact h.other hstart hverifies hcall hadvance
    | threw message => simp [advance] at hadvance
    | returned phone otp fresh tokens => simp [advance] at hadvance
    | verify phone otp fresh =>
      apply PaidAfter.issue_none _ (storesCode_eq_false (calls_of_traces hcall) fun _ _ => by simp)
      exact h.verify hguard hcall hadvance
    | use phone otp fresh record fresh' =>
      apply PaidAfter.issue_none _ (storesCode_eq_false (calls_of_traces hcall) fun _ _ => by simp)
      exact h.use hcall hadvance
    | user phone otp fresh phone' fresh' =>
      apply PaidAfter.issue_none _ (storesCode_eq_false (calls_of_traces hcall) fun _ _ => by simp)
      obtain ⟨rfl, rfl⟩ : _ = db' ∧ _ = call' := by simpa [advance] using hadvance
      obtain ⟨-, hotps, hnext⟩ := s.db.upsertUserByPhone_frame phone'
      have hcodes : (s.db.upsertUserByPhone phone').2.codes = s.db.codes := by
        rw [AuthDb.codes, hotps, AuthDb.codes]
      exact h.quiet hcall (.session phone otp fresh _ phone' _) (hcodes ▸ List.Sublist.refl _) hnext rfl (.inr rfl)
    | session phone otp fresh userId phone' tokens =>
      apply PaidAfter.issue_none _ (storesCode_eq_false (calls_of_traces hcall) fun _ _ => by simp)
      obtain ⟨rfl, rfl⟩ : _ = db' ∧ _ = call' := by simpa [advance] using hadvance
      exact h.quiet hcall (.audit phone otp fresh userId phone' tokens) (List.Sublist.refl _) (Nat.le_succ _) rfl
        (.inr rfl)
    | audit phone otp fresh userId phone' tokens =>
      apply PaidAfter.issue_none _ (storesCode_eq_false (calls_of_traces hcall) fun _ _ => by simp)
      obtain ⟨rfl, rfl⟩ : _ = db' ∧ _ = call' := by simpa [advance] using hadvance
      exact h.quiet hcall (.returned phone otp fresh tokens) (List.Sublist.refl _) (Nat.le_refl _) rfl (.inr rfl)

theorem CodesHonoured.step (h : CodesHonoured cfg es s issuedCodes) (hguard : TakenAlone scheme cfg s e)
    (hstep : (authSystem scheme cfg).step s e = some s') :
    CodesHonoured cfg (es ++ [e]) s' (fun k => issuedCodes k + if storesCode k s e then 1 else 0) := by
  obtain ⟨htraced, ⟨call, hstart, hdb, htraces⟩ | ⟨-, i, start, call, call', hcall, hperforms, htraces⟩⟩ :=
    traces_cases scheme cfg h.traced hstep
  · have hstores : ∀ k, storesCode k s e = false := by
      intro k
      cases e with
      | op i now => cases hstart
      | _ => rfl
    have hnew : PhoneTrace call call ∧ heldCode cfg (call, call) = none ∧ spentCode cfg (call, call) = none := by
      cases e with
      | op i now => cases hstart
      | reject i => cases hstart
      | verifyPhoneOtp phone otp fresh =>
        obtain rfl := Option.some.inj hstart
        exact ⟨.verify phone otp fresh, rfl, rfl⟩
      | _ =>
        obtain rfl := Option.some.inj hstart
        exact ⟨.other rfl rfl, rfl, rfl⟩
    refine ⟨htraced, fun trace htrace => ?_, ?_⟩
    · rw [htraces, List.mem_append, List.mem_singleton] at htrace
      rcases htrace with hold | rfl
      · exact h.traces trace hold
      · exact hnew.1
    · have hpaid := h.codes.start hnew.2.1 hnew.2.2
      rw [htraces, hdb]
      simpa [hstores] using hpaid
  · obtain ⟨htrace', hpaid⟩ := h.performs hguard hcall hperforms
    refine ⟨htraced, ?_, ?_⟩
    · rw [htraces]
      exact forall_mem_set h.traces htrace' i
    · rw [htraces]
      exact hpaid

/-! ## Runs -/

theorem signedInWith_le (nonce : String) (calls : List AuthCall) :
    calls.countP (signedInWith nonce) ≤ calls.countP fun call => spentNonce call = some nonce := by
  apply List.countP_mono_left
  intro call _ hcall
  cases call with
  | signedIn req tokens => simpa [signedInWith, spentNonce] using hcall
  | _ => cases hcall

theorem phoneSignedInWith_le (cfg : AuthConfig) (key : String × String) (traces : List (AuthCall × AuthCall)) :
    traces.countP (phoneSignedInWith cfg key) ≤ traces.countP fun trace => spentCode cfg trace = some key := by
  apply List.countP_mono_left
  intro trace _ htrace
  unfold phoneSignedInWith at htrace
  split at htrace
  · simpa [spentCode] using htrace
  · cases htrace

/-- **Single use.** In every run in which no call takes a row that another call has read and still has to
consume, the calls that return tokens for a nonce are at most as many as the times it was issued, and so are
those for a code of a phone. -/
theorem issued_once (hrun : (authSystem scheme cfg).GuardedRun (TakenAlone scheme cfg) {} es s) :
    (∀ nonce, s.calls.countP (signedInWith nonce) ≤ (authSystem scheme cfg).count (storesNonce nonce) {} es) ∧
      ∀ phone otp, (s.traces es).countP (phoneSignedInWith cfg (normalizePhone phone, cfg.sha256 otp)) ≤
        (authSystem scheme cfg).count (storesCode (normalizePhone phone, cfg.sha256 otp)) {} es := by
  constructor
  · intro nonce
    have hnonces : NoncesHonoured s fun k => (authSystem scheme cfg).count (storesNonce k) {} es :=
      hrun.counting (I := fun _ issued s => NoncesHonoured s issued)
        (fun _ _ _ _ _ h hguard hstep => h.step hguard hstep) (Honoured.initial _ _ _ _)
    exact (signedInWith_le nonce s.calls).trans (hnonces.spent_le nonce)
  · intro phone otp
    have hcodes : CodesHonoured cfg es s fun k => (authSystem scheme cfg).count (storesCode k) {} es :=
      hrun.counting (I := fun es issued s => CodesHonoured cfg es s issued)
        (fun _ _ _ _ _ h hguard hstep => h.step hguard hstep)
        ⟨rfl, by simp [AuthState.traces], Honoured.initial _ _ _ _⟩
    exact (phoneSignedInWith_le cfg (normalizePhone phone, cfg.sha256 otp) (s.traces es)).trans
      (hcodes.codes.spent_le (normalizePhone phone, cfg.sha256 otp))

/-! ## Two calls with one nonce, and two with one code -/

def sampleOtp : String := "482913"

def otpConfig : AuthConfig where
  sha256 token :=
    if token = sampleOtp then "4a8eec4925826f4b60526d7ac3c0a9b61ef54ac19233bafce2f4a13eb49395d2"
    else sampleSha256 token

def samplePhone : String := "+1 (555) 010-4477"

def aliceRequest : VerifyRequest := ⟨alice, .SOLANA, aliceSignature, sampleNonce⟩

/-- A nonce and a code are issued, and two calls are started with each of them. -/
def issuedRun : List AuthEvent :=
  [.issueNonce alice .SOLANA sampleNonce, .op 0 0, .op 0 0,
    .verifyAndIssueTokens aliceRequest firstToken, .verifyAndIssueTokens aliceRequest secondToken,
    .requestPhoneOtp samplePhone sampleOtp, .op 3 0, .op 3 0, .op 3 0,
    .verifyPhoneOtp samplePhone sampleOtp lostToken, .verifyPhoneOtp samplePhone sampleOtp lateToken]

/-- The second call of each pair reads when the first one has consumed the row. -/
def oneAfterAnother : List AuthEvent :=
  issuedRun ++ [.op 1 1, .op 1 1, .op 2 1, .op 1 1, .op 4 1, .op 4 1, .op 5 1, .op 4 1, .op 4 1, .op 4 1]

/-- Both calls read before one of them consumes the row. -/
def bothRead : List AuthEvent :=
  issuedRun ++ [.op 1 1, .op 2 1, .op 1 1, .op 2 1, .op 1 1, .op 2 1, .op 4 1, .op 5 1, .op 4 1, .op 5 1, .op 4 1,
    .op 5 1, .op 4 1, .op 5 1, .op 4 1, .op 5 1]

def sampleKey : String × String := (normalizePhone samplePhone, otpConfig.sha256 sampleOtp)

theorem issued_once_sample :
    ∃ s, (authSystem sampleScheme otpConfig).run {} oneAfterAnother = some s ∧
      s.calls.countP (signedInWith sampleNonce) ≤
        (authSystem sampleScheme otpConfig).count (storesNonce sampleNonce) {} oneAfterAnother ∧
      (s.traces oneAfterAnother).countP (phoneSignedInWith otpConfig sampleKey) ≤
        (authSystem sampleScheme otpConfig).count (storesCode sampleKey) {} oneAfterAnother := by
  have hsome : ((authSystem sampleScheme otpConfig).guardedRun (TakenAlone sampleScheme otpConfig) {}
      oneAfterAnother).isSome = true := by decide +kernel
  obtain ⟨s, hs⟩ := Option.isSome_iff_exists.mp hsome
  have hrun := StepSystem.GuardedRun.of_guardedRun hs
  have honce := issued_once hrun
  exact ⟨s, hrun.run, honce.1 sampleNonce, honce.2 samplePhone sampleOtp⟩

/-- Two calls return tokens for a nonce that was issued once, and two for a code that was issued once. -/
theorem used_twice :
    (¬ ∀ (scheme : SignatureScheme) (cfg : AuthConfig) (es : List AuthEvent) (s : AuthState),
      (authSystem scheme cfg).run {} es = some s → ∀ nonce,
        s.calls.countP (signedInWith nonce) ≤ (authSystem scheme cfg).count (storesNonce nonce) {} es) ∧
    ¬ ∀ (scheme : SignatureScheme) (cfg : AuthConfig) (es : List AuthEvent) (s : AuthState),
      (authSystem scheme cfg).run {} es = some s → ∀ phone otp,
        (s.traces es).countP (phoneSignedInWith cfg (normalizePhone phone, cfg.sha256 otp)) ≤
          (authSystem scheme cfg).count (storesCode (normalizePhone phone, cfg.sha256 otp)) {} es := by
  have hsome : ((authSystem sampleScheme otpConfig).run {} bothRead).any (fun s =>
      s.calls.countP (signedInWith sampleNonce) == 2 &&
        (s.traces bothRead).countP (phoneSignedInWith otpConfig sampleKey) == 2) = true := by decide +kernel
  obtain ⟨s, hrun, hcounts⟩ := (Option.any_eq_true _ _).mp hsome
  rw [Bool.and_eq_true, beq_iff_eq, beq_iff_eq] at hcounts
  constructor
  · intro hclaim
    have hle := hclaim sampleScheme otpConfig bothRead s hrun sampleNonce
    have hone : (authSystem sampleScheme otpConfig).count (storesNonce sampleNonce) {} bothRead = 1 := by
      decide +kernel
    omega
  · intro hclaim
    have hle := hclaim sampleScheme otpConfig bothRead s hrun samplePhone sampleOtp
    have hone : (authSystem sampleScheme otpConfig).count (storesCode sampleKey) {} bothRead = 1 := by
      decide +kernel
    have htwo := hcounts.2
    unfold sampleKey at hone htwo
    omega

end SuperAi.Auth
