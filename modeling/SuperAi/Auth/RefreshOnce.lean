import SuperAi.Auth.SignIn
import SuperAi.Auth.Traces
import Mathlib.Data.List.Nodup
import Mathlib.Data.Set.Function

/-! # Refresh tokens are exchanged once

`refresh` swaps the hash of its session only where the row still holds the hash it has read, and the hash
of a new token comes into a row only by such a swap. So a hash is used up at most as often as it was put
in place, whatever the order of the operations (`tally_step`), and a row that `logout` has overwritten
holds no token's hash any more.
-/
namespace SuperAi.Auth
open SuperAi.Foundations
set_option autoImplicit false

/-- Events of `refresh` and `logout` calls. -/
def AuthEvent.RefreshOrLogout : AuthEvent → Prop
  | .refresh _ _ | .logout _ | .op _ _ | .reject _ => True
  | _ => False

instance : DecidablePred AuthEvent.RefreshOrLogout
  | .refresh _ _ | .logout _ | .op _ _ | .reject _ => .isTrue trivial
  | .issueNonce _ _ _ | .verifyAndIssueTokens _ _ | .requestPhoneOtp _ _ | .verifyPhoneOtp _ _ _ => .isFalse id

/-- The refresh tokens drawn in a run. -/
def minted (es : List AuthEvent) : List String :=
  es.filterMap fun
    | .refresh _ fresh => some fresh
    | _ => none

variable (scheme : SignatureScheme) (cfg : AuthConfig)

/-- Hashes are 64 hexadecimal digits and do not collide; each token is drawn once, and none is in two rows. -/
structure TokensApart (db : AuthDb) (es : List AuthEvent) : Prop where
  digest : ∀ token, (cfg.sha256 token).length = 64
  collisionFree : Set.InjOn cfg.sha256 {token | token ∈ minted es}
  random : (minted es).Nodup
  oneRow : ∀ token, db.sessions.countP (fun s => s.refreshHash == cfg.hashToken token) ≤ 1
  fresh : ∀ token ∈ minted es, ∀ session ∈ db.sessions, session.refreshHash ≠ cfg.hashToken token

/-! ## Calls of `refresh` and `logout` -/

inductive RefreshTrace : AuthCall → AuthCall → Prop
  | refresh (token fresh : String) : RefreshTrace (.refresh token fresh) (.refresh token fresh)
  | update (token fresh : String) (session : Session) (tokens : AuthTokens) (h : tokens.refreshToken = fresh) :
      RefreshTrace (.refresh token fresh) (.refreshUpdate session (cfg.hashToken token) tokens)
  | audit (token fresh : String) (session : Session) (tokens : AuthTokens) :
      RefreshTrace (.refresh token fresh) (.refreshAudit session tokens)
  | returned (token fresh : String) (tokens : AuthTokens) :
      RefreshTrace (.refresh token fresh) (.done (some tokens))
  | logout (token : String) : RefreshTrace (.logout token) (.logout token)
  | loggedOut (token : String) : RefreshTrace (.logout token) (.done none)
  | threw (start : AuthCall) (message : String) : RefreshTrace start (.threw message)

/-- The call has exchanged a token with this hash. -/
def exchangedHash (hash : String) : AuthCall × AuthCall → Bool
  | (.refresh token _, .refreshAudit _ _) | (.refresh token _, .done (some _)) => cfg.hashToken token == hash
  | _ => false

/-- The call may still bring a token with this hash into a row. -/
def brings (hash : String) : AuthCall × AuthCall → Bool
  | (_, .refresh _ fresh) => cfg.hashToken fresh == hash
  | (_, .refreshUpdate _ _ tokens) => cfg.hashToken tokens.refreshToken == hash
  | _ => false

/-- How many calls of `refresh` with this token have exchanged it. -/
def exchanges (token : String) (es : List AuthEvent) (s : AuthState) : ℕ :=
  (s.traces es).countP fun
    | (.refresh presented _, .refreshAudit _ _) | (.refresh presented _, .done (some _)) => presented == token
    | _ => false

def AuthDb.rowsHolding (db : AuthDb) (hash : String) : ℕ := db.sessions.countP fun s => s.refreshHash == hash

/-- Where a hash can be: used up, in a row, or on the way into one. -/
def tally (hash : String) (es : List AuthEvent) (s : AuthState) : ℕ :=
  (s.traces es).countP (exchangedHash cfg hash) + s.db.rowsHolding hash + (s.traces es).countP (brings cfg hash)

/-! ## Updates of the rows -/

namespace AuthDb

theorem map_sessions_id (sessions : List Session) (where_ : Session → Bool) (data : Session → Session)
    (hdata : ∀ s, (data s).id = s.id) :
    (sessions.map fun s => if where_ s then data s else s).map Session.id = sessions.map Session.id := by
  rw [List.map_map]
  apply List.map_congr_left
  intro s _
  by_cases h : where_ s = true
  · simp [h, hdata]
  · simp [h]

theorem map_sessions_of_none (sessions : List Session) (where_ : Session → Bool) (data : Session → Session)
    (h : ∀ s ∈ sessions, ¬ where_ s = true) :
    (sessions.map fun s => if where_ s then data s else s) = sessions := by
  induction sessions with
  | nil => rfl
  | cons s sessions ih =>
    rw [List.map_cons, if_neg (h s List.mem_cons_self), ih fun t ht => h t (List.mem_cons_of_mem s ht)]

/-- An update of the row with a given id, on condition of its hash, finds no row or one. -/
theorem updateSessions_cases {db : AuthDb} (hids : (db.sessions.map Session.id).Nodup) (id : ℕ) (hash : String)
    (data : Session → Session) :
    (db.updateSessions (fun s => s.id == id && s.refreshHash == hash) data).1 = 0 ∧
        (db.updateSessions (fun s => s.id == id && s.refreshHash == hash) data).2 = db ∨
      ∃ before row after, db.sessions = before ++ row :: after ∧ row.refreshHash = hash ∧
        (db.updateSessions (fun s => s.id == id && s.refreshHash == hash) data).1 ≠ 0 ∧
        (db.updateSessions (fun s => s.id == id && s.refreshHash == hash) data).2.sessions =
          before ++ data row :: after := by
  by_cases hrow : ∃ row ∈ db.sessions, row.id = id ∧ row.refreshHash = hash
  · obtain ⟨row, hmem, rfl, rfl⟩ := hrow
    obtain ⟨before, after, hsplit⟩ := List.append_of_mem hmem
    rw [hsplit, List.map_append, List.map_cons, List.nodup_append, List.nodup_cons] at hids
    have hbefore : ∀ s ∈ before, ¬ ((s.id == row.id && s.refreshHash == row.refreshHash) = true) := by
      intro s hs hmatch
      rw [Bool.and_eq_true, beq_iff_eq] at hmatch
      exact hids.2.2 _ (List.mem_map_of_mem hs) _ List.mem_cons_self hmatch.1
    have hafter : ∀ s ∈ after, ¬ ((s.id == row.id && s.refreshHash == row.refreshHash) = true) := by
      intro s hs hmatch
      rw [Bool.and_eq_true, beq_iff_eq] at hmatch
      exact hids.2.1.1 (hmatch.1 ▸ List.mem_map_of_mem hs)
    refine .inr ⟨before, row, after, hsplit, rfl, ?_, ?_⟩
    · simp [updateSessions, hsplit]
    · simp only [updateSessions, hsplit, List.map_append, List.map_cons]
      rw [map_sessions_of_none before _ _ hbefore, map_sessions_of_none after _ _ hafter]
      simp
  · have hnone : ∀ s ∈ db.sessions, ¬ ((s.id == id && s.refreshHash == hash) = true) := by
      intro s hs hmatch
      rw [Bool.and_eq_true, beq_iff_eq, beq_iff_eq] at hmatch
      exact hrow ⟨s, hs, hmatch⟩
    refine .inl ⟨?_, ?_⟩
    · rw [updateSessions, List.length_eq_zero_iff, List.filter_eq_nil_iff]
      exact hnone
    · simp only [updateSessions, map_sessions_of_none _ _ _ hnone]

/-- A row whose hash changes is revoked, or held the hash of a token before. -/
def RowsFrom (db db' : AuthDb) : Prop :=
  ∀ row' ∈ db'.sessions, ∃ row ∈ db.sessions, row'.id = row.id ∧ (row'.refreshHash = row.refreshHash ∨
    row'.refreshHash = "revoked" ∨ ∃ token, row.refreshHash = cfg.hashToken token)

theorem RowsFrom.refl (db : AuthDb) : RowsFrom cfg db db := fun row hrow => ⟨row, hrow, rfl, .inl rfl⟩

theorem RowsFrom.update (db : AuthDb) (where_ : Session → Bool) (data : Session → Session)
    (hid : ∀ s, (data s).id = s.id)
    (hdata : ∀ s, where_ s = true → (data s).refreshHash = "revoked" ∨ ∃ token, s.refreshHash = cfg.hashToken token) :
    RowsFrom cfg db (db.updateSessions where_ data).2 := by
  intro row' hrow'
  obtain ⟨row, hrow, rfl⟩ := List.mem_map.mp hrow'
  refine ⟨row, hrow, ?_⟩
  by_cases h : where_ row = true
  · simp only [h, if_true]
    exact ⟨hid row, .inr (hdata row h)⟩
  · simp [h]

theorem rowsHolding_logout (db : AuthDb) (token : String) {hash : String} (hhash : hash ≠ "revoked") :
    (db.updateSessions (fun s => s.refreshHash == cfg.hashToken token) fun s =>
      { s with refreshHash := "revoked", expiresAt := 0 }).2.rowsHolding hash ≤ db.rowsHolding hash := by
  unfold rowsHolding updateSessions
  rw [List.countP_map]
  apply List.countP_mono_left
  intro s _ hs
  by_cases h : s.refreshHash = cfg.hashToken token
  · simp [h, Ne.symm hhash] at hs
  · simpa [h] using hs

end AuthDb

/-! ## One step -/

/-- How often the call counts in the tally of the hash. -/
def weight (hash : String) (trace : AuthCall × AuthCall) : ℕ :=
  (if exchangedHash cfg hash trace then 1 else 0) + (if brings cfg hash trace then 1 else 0)

/-- A step of a call moves no hash to a second place. -/
structure Conserves (start call call' : AuthCall) (db db' : AuthDb) : Prop where
  trace : RefreshTrace cfg start call'
  ids : db'.sessions.map Session.id = db.sessions.map Session.id
  rows : db.RowsFrom cfg db'
  places : ∀ hash, hash ≠ "revoked" →
    weight cfg hash (start, call') + db'.rowsHolding hash ≤ weight cfg hash (start, call) + db.rowsHolding hash

theorem weight_threw (hash : String) (start : AuthCall) (message : String) :
    weight cfg hash (start, .threw message) = 0 := by
  cases start <;> rfl

theorem weight_refreshUpdate (hash token fresh : String) (session : Session) (read : String) (tokens : AuthTokens) :
    weight cfg hash (.refresh token fresh, .refreshUpdate session read tokens) =
      if cfg.hashToken tokens.refreshToken == hash then 1 else 0 := Nat.zero_add _

theorem weight_refreshAudit (hash token fresh : String) (session : Session) (tokens : AuthTokens) :
    weight cfg hash (.refresh token fresh, .refreshAudit session tokens) =
      if cfg.hashToken token == hash then 1 else 0 := rfl

theorem weight_loggedOut (hash token : String) : weight cfg hash (.logout token, .done none) = 0 := rfl

variable {scheme cfg}
variable {start call call' : AuthCall} {db db' : AuthDb}

theorem Conserves.threw (start call : AuthCall) (db : AuthDb) (message : String) :
    Conserves cfg start call (.threw message) db db := by
  refine ⟨.threw start message, rfl, .refl cfg db, fun hash _ => ?_⟩
  rw [weight_threw]
  omega

theorem conserves_refresh {token fresh : String} {now : ℕ}
    (h : advance scheme cfg db now (.refresh token fresh) = some (db', call')) :
    Conserves cfg (.refresh token fresh) (.refresh token fresh) call' db db' := by
  simp only [advance] at h
  by_cases hempty : token = ""
  · rw [if_pos hempty] at h
    obtain ⟨rfl, rfl⟩ : db = db' ∧ _ = call' := by simpa using h
    exact .threw _ _ _ _
  · rw [if_neg hempty] at h
    cases hfind : db.findSessionByHash (cfg.hashToken token) with
    | none =>
      rw [hfind] at h
      obtain ⟨rfl, rfl⟩ : db = db' ∧ _ = call' := by simpa using h
      exact .threw _ _ _ _
    | some session =>
      rw [hfind] at h
      by_cases hexpired : session.expiresAt < now
      · obtain ⟨rfl, rfl⟩ : db = db' ∧ _ = call' := by simpa [hexpired] using h
        exact .threw _ _ _ _
      · obtain ⟨rfl, rfl⟩ : db = db' ∧ _ = call' := by simpa [hexpired] using h
        exact ⟨.update token fresh session _ rfl, rfl, .refl cfg db, fun hash _ => le_refl _⟩

theorem conserves_refreshUpdate (hids : (db.sessions.map Session.id).Nodup) {token fresh : String}
    {session : Session} {tokens : AuthTokens} {now : ℕ}
    (h : advance scheme cfg db now (.refreshUpdate session (cfg.hashToken token) tokens) = some (db', call')) :
    Conserves cfg (.refresh token fresh) (.refreshUpdate session (cfg.hashToken token) tokens) call' db db' := by
  have hrows := AuthDb.updateSessions_cases hids session.id (cfg.hashToken token) fun s =>
    { s with refreshHash := cfg.hashToken tokens.refreshToken, expiresAt := now + cfg.refreshTtlMs, lastSeen := now }
  simp only [advance] at h
  rcases hrows with ⟨hzero, hsame⟩ | ⟨before, row, after, hsplit, hhash, hone, hafter⟩
  · rw [if_pos hzero, hsame] at h
    obtain ⟨rfl, rfl⟩ : db = db' ∧ _ = call' := by simpa using h
    exact .threw _ _ _ _
  · rw [if_neg hone] at h
    obtain ⟨rfl, rfl⟩ : _ = db' ∧ _ = call' := by simpa using h
    refine ⟨.audit token fresh session tokens, AuthDb.map_sessions_id _ _ _ fun s => rfl, ?_, fun hash _ => ?_⟩
    · refine AuthDb.RowsFrom.update cfg db _ _ (fun s => ?_) fun s hs => ?_
      · rfl
      · rw [Bool.and_eq_true, beq_iff_eq, beq_iff_eq] at hs
        exact .inr ⟨token, hs.2⟩
    · -- the presented hash leaves the row, and the new one takes its place
      rw [weight_refreshUpdate, weight_refreshAudit]
      unfold AuthDb.rowsHolding
      rw [hafter, hsplit]
      simp only [List.countP_append, List.countP_cons, hhash]
      omega

theorem conserves_logout {token : String} {now : ℕ}
    (h : advance scheme cfg db now (.logout token) = some (db', call')) :
    Conserves cfg (.logout token) (.logout token) call' db db' := by
  simp only [advance] at h
  by_cases hempty : token = ""
  · rw [if_pos hempty] at h
    obtain ⟨rfl, rfl⟩ : db = db' ∧ _ = call' := by simpa using h
    exact ⟨.loggedOut token, rfl, .refl cfg db, fun hash _ => le_refl _⟩
  · rw [if_neg hempty] at h
    obtain ⟨rfl, rfl⟩ : _ = db' ∧ _ = call' := by simpa using h
    refine ⟨.loggedOut token, AuthDb.map_sessions_id _ _ _ fun s => rfl, ?_, fun hash hhash => ?_⟩
    · exact AuthDb.RowsFrom.update cfg db _ _ (fun s => rfl) fun s _ => .inl rfl
    · have hless := AuthDb.rowsHolding_logout cfg db token hhash
      rw [weight_loggedOut]
      omega

theorem RefreshTrace.performs {i : ℕ} {e : AuthEvent} (htrace : RefreshTrace cfg start call)
    (hids : (db.sessions.map Session.id).Nodup) (h : Performs scheme cfg db i call e db' call') :
    Conserves cfg start call call' db db' := by
  cases h with
  | reject => exact .threw _ _ _ _
  | op h =>
    cases htrace with
    | refresh token fresh => exact conserves_refresh h
    | update token fresh session tokens => exact conserves_refreshUpdate hids h
    | audit token fresh session tokens =>
      obtain ⟨rfl, rfl⟩ : _ = db' ∧ _ = call' := by simpa [advance] using h
      exact ⟨.returned token fresh tokens, rfl, .refl cfg db, fun hash _ => le_refl _⟩
    | logout token => exact conserves_logout h
    | returned token fresh tokens => simp [advance] at h
    | loggedOut token => simp [advance] at h
    | threw start message => simp [advance] at h

/-! ## Runs -/

/-- What steps of `refresh` and `logout` calls keep. -/
structure RefreshRun (cfg : AuthConfig) (start : AuthDb) (es : List AuthEvent) (s : AuthState) : Prop where
  traced : s.Traced es
  traces : ∀ trace ∈ s.traces es, RefreshTrace cfg trace.1 trace.2
  ids : (s.db.sessions.map Session.id).Nodup
  places : ∀ hash, hash ≠ "revoked" → tally cfg hash es s ≤
    start.rowsHolding hash + (minted es).countP fun token => cfg.hashToken token == hash

variable {s s' : AuthState} {es : List AuthEvent} {e : AuthEvent}

theorem minted_append (es es' : List AuthEvent) : minted (es ++ es') = minted es ++ minted es' :=
  List.filterMap_append

theorem minted_of_none (h : e.started = none) : minted [e] = [] := by
  cases e with
  | op i now => rfl
  | reject i => rfl
  | _ => cases h

theorem tally_eq (hash : String) (es : List AuthEvent) (s : AuthState) : tally cfg hash es s =
    (s.traces es).countP (exchangedHash cfg hash) + (s.traces es).countP (brings cfg hash) +
      s.db.rowsHolding hash := by
  unfold tally
  omega

/-- A call that starts brings no other hash than that of the token it has drawn. -/
theorem RefreshRun.starts (h : RefreshRun cfg db es s) (hevent : e.RefreshOrLogout) {call : AuthCall}
    (hstart : e.started = some call) (hdb : s'.db = s.db) (htraced : s'.Traced (es ++ [e]))
    (htraces : s'.traces (es ++ [e]) = s.traces es ++ [(call, call)]) : RefreshRun cfg db (es ++ [e]) s' := by
  have hcall : RefreshTrace cfg call call ∧ ∀ hash, weight cfg hash (call, call) =
      (minted [e]).countP fun token => cfg.hashToken token == hash := by
    cases e with
    | refresh token fresh =>
      obtain rfl := Option.some.inj hstart
      refine ⟨.refresh token fresh, fun hash => ?_⟩
      simp [weight, exchangedHash, brings, minted, List.countP_cons]
    | logout token =>
      obtain rfl := Option.some.inj hstart
      exact ⟨.logout token, fun hash => rfl⟩
    | op i now => cases hstart
    | reject i => cases hstart
    | _ => exact hevent.elim
  refine ⟨htraced, ?_, hdb ▸ h.ids, fun hash hhash => ?_⟩
  · intro trace htrace
    rw [htraces, List.mem_append, List.mem_singleton] at htrace
    rcases htrace with hold | rfl
    · exact h.traces trace hold
    · exact hcall.1
  · have hold := h.places hash hhash
    have hnew := hcall.2 hash
    rw [tally_eq] at hold ⊢
    rw [htraces, hdb, minted_append, List.countP_append, List.countP_append, List.countP_append,
      List.countP_singleton, List.countP_singleton, ← hnew, weight]
    omega

theorem RefreshRun.performs (h : RefreshRun cfg db es s) {i : ℕ} (hnone : e.started = none)
    (hcall : (s.traces es)[i]? = some (start, call)) (hperforms : Performs scheme cfg s.db i call e s'.db call')
    (htraced : s'.Traced (es ++ [e])) (htraces : s'.traces (es ++ [e]) = (s.traces es).set i (start, call')) :
    RefreshRun cfg db (es ++ [e]) s' := by
  have hstep : Conserves cfg start call call' s.db s'.db :=
    RefreshTrace.performs (h.traces _ (List.mem_of_getElem? hcall)) h.ids hperforms
  refine ⟨htraced, ?_, hstep.ids ▸ h.ids, fun hash hhash => ?_⟩
  · rw [htraces]
    exact forall_mem_set h.traces hstep.trace i
  · have hold := h.places hash hhash
    have hexchanged := countP_set_eq (exchangedHash cfg hash) hcall (start, call')
    have hbrings := countP_set_eq (brings cfg hash) hcall (start, call')
    have hmove := hstep.places hash hhash
    unfold weight at hmove
    rw [tally_eq] at hold ⊢
    rw [htraces, minted_append, minted_of_none hnone, List.append_nil]
    omega

theorem RefreshRun.step (h : RefreshRun cfg db es s) (hevent : e.RefreshOrLogout)
    (hstep : (authSystem scheme cfg).step s e = some s') : RefreshRun cfg db (es ++ [e]) s' := by
  obtain ⟨htraced, ⟨call, hstart, hdb, htraces⟩ | ⟨hnone, i, start, call, call', hcall, hperforms, htraces⟩⟩ :=
    traces_cases scheme cfg h.traced hstep
  · exact h.starts hevent hstart hdb htraced htraces
  · exact h.performs hnone hcall hperforms htraced htraces

theorem RefreshRun.initial (hids : (db.sessions.map Session.id).Nodup) :
    RefreshRun cfg db [] { db, calls := [] } := by
  refine ⟨rfl, ?_, hids, fun hash _ => ?_⟩
  · simp [AuthState.traces]
  · simp [tally, AuthState.traces]

theorem RefreshRun.run (hids : (db.sessions.map Session.id).Nodup) (hevents : ∀ e ∈ es, e.RefreshOrLogout)
    (h : (authSystem scheme cfg).run { db, calls := [] } es = some s) : RefreshRun cfg db es s := by
  have hrun : (authSystem scheme cfg).GuardedRun (fun _ e => e.RefreshOrLogout) { db, calls := [] } es s :=
    .of_forall h fun e he _ => hevents e he
  exact hrun.history (I := RefreshRun cfg db) (fun _ _ _ _ hs hevent hstep => hs.step hevent hstep)
    (RefreshRun.initial hids)

/-! ## One place for each hash -/

namespace TokensApart

theorem not_revoked (h : TokensApart cfg db es) (token : String) : cfg.hashToken token ≠ "revoked" := by
  intro heq
  have hlength := h.digest token
  rw [show cfg.sha256 token = "revoked" from heq] at hlength
  exact absurd hlength (by decide)

theorem minted_le_one (h : TokensApart cfg db es) (hash : String) :
    (minted es).countP (fun token => cfg.hashToken token == hash) ≤ 1 := by
  have hnodup : ((minted es).map cfg.hashToken).Nodup :=
    List.Nodup.map_on (fun token htoken token' htoken' heq => h.collisionFree htoken htoken' heq) h.random
  have hcount := List.nodup_iff_count_le_one.mp hnodup hash
  rwa [List.count, List.countP_map] at hcount

theorem places_le_one (h : TokensApart cfg db es) (token : String) :
    db.rowsHolding (cfg.hashToken token) +
      (minted es).countP (fun fresh => cfg.hashToken fresh == cfg.hashToken token) ≤ 1 := by
  have hrow := h.oneRow token
  have hminted := h.minted_le_one (cfg.hashToken token)
  by_cases hnew : ∃ fresh ∈ minted es, cfg.hashToken fresh = cfg.hashToken token
  · obtain ⟨fresh, hfresh, heq⟩ := hnew
    have hnone : db.rowsHolding (cfg.hashToken token) = 0 := by
      rw [AuthDb.rowsHolding, List.countP_eq_zero]
      intro session hsession
      simpa [← heq] using h.fresh fresh hfresh session hsession
    omega
  · have hnone : (minted es).countP (fun fresh => cfg.hashToken fresh == cfg.hashToken token) = 0 := by
      rw [List.countP_eq_zero]
      intro fresh hfresh heq
      exact hnew ⟨fresh, hfresh, by simpa using heq⟩
    rw [hnone]
    exact hrow

end TokensApart

theorem exchanges_le_tally (cfg : AuthConfig) (token : String) (es : List AuthEvent) (s : AuthState) :
    exchanges token es s ≤ tally cfg (cfg.hashToken token) es s := by
  have hle : exchanges token es s ≤ (s.traces es).countP (exchangedHash cfg (cfg.hashToken token)) := by
    apply List.countP_mono_left
    intro trace _ htrace
    unfold exchangedHash
    split at htrace
    · simpa using congrArg cfg.hashToken (eq_of_beq htrace)
    · simpa using congrArg cfg.hashToken (eq_of_beq htrace)
    · cases htrace
  unfold tally
  omega

/-! ## After a logout -/

/-- The row of the session holds no token's hash. -/
def Revoked (id : ℕ) (db : AuthDb) : Prop := ∀ row ∈ db.sessions, row.id = id → row.refreshHash = "revoked"

/-- From here on the conditional update of every `refresh` call on the session misses. -/
def NeverRefreshed (scheme : SignatureScheme) (cfg : AuthConfig) (id : ℕ) (s : AuthState) : Prop :=
  ∀ es t, (∀ e ∈ es, e.RefreshOrLogout) → (authSystem scheme cfg).run s es = some t →
    ∀ i now session hash tokens t', t.calls[i]? = some (.refreshUpdate session hash tokens) → session.id = id →
      (authSystem scheme cfg).step t (.op i now) = some t' →
        t'.calls[i]? = some (.threw "Refresh token already rotated")

theorem Revoked.rows {id : ℕ} (h : Revoked id db) (hhash : ∀ token, cfg.hashToken token ≠ "revoked")
    (hrows : db.RowsFrom cfg db') : Revoked id db' := by
  intro row' hrow' hid'
  obtain ⟨row, hrow, hid, hsame | hrevoked | ⟨token, htoken⟩⟩ := hrows row' hrow'
  · rw [hsame, h row hrow (hid ▸ hid')]
  · exact hrevoked
  · exact absurd (htoken.symm.trans (h row hrow (hid ▸ hid'))) (hhash token)

theorem Revoked.step {id : ℕ} (h : Revoked id s.db) (hhash : ∀ token, cfg.hashToken token ≠ "revoked")
    (hrun : RefreshRun cfg db es s) (hstep : (authSystem scheme cfg).step s e = some s') : Revoked id s'.db := by
  obtain ⟨-, ⟨call, -, hdb, -⟩ | ⟨-, i, start, call, call', hcall, hperforms, -⟩⟩ :=
    traces_cases scheme cfg hrun.traced hstep
  · rwa [hdb]
  · have hconserves : Conserves cfg start call call' s.db s'.db :=
      RefreshTrace.performs (hrun.traces _ (List.mem_of_getElem? hcall)) hrun.ids hperforms
    exact h.rows hhash hconserves.rows

theorem Revoked.logout {token : String} {i now : ℕ} {session : Session} (hids : (s.db.sessions.map Session.id).Nodup)
    (hcall : s.calls[i]? = some (.logout token)) (htoken : token ≠ "") (hsession : session ∈ s.db.sessions)
    (hhash : session.refreshHash = cfg.hashToken token)
    (hstep : (authSystem scheme cfg).step s (.op i now) = some s') : Revoked session.id s'.db := by
  obtain rfl : s' = { db := (s.db.updateSessions (fun s => s.refreshHash == cfg.hashToken token) fun s =>
      { s with refreshHash := "revoked", expiresAt := 0 }).2, calls := s.calls.set i (.done none) } := by
    simpa [authSystem, hcall, advance, htoken] using hstep.symm
  intro row' hrow' hid
  obtain ⟨row, hrow, rfl⟩ := List.mem_map.mp hrow'
  by_cases hmatch : row.refreshHash = cfg.hashToken token
  · simp [hmatch]
  · have hsame : row = session := by
      apply List.inj_on_of_nodup_map hids hrow hsession
      simpa [hmatch] using hid
    exact absurd (hsame ▸ hhash) hmatch

theorem Revoked.refreshUpdate {id i now : ℕ} {session : Session} {hash : String} {tokens : AuthTokens}
    (h : Revoked id s.db) (hhash : hash ≠ "revoked") (hcall : s.calls[i]? = some (.refreshUpdate session hash tokens))
    (hid : session.id = id) (hstep : (authSystem scheme cfg).step s (.op i now) = some s') :
    s'.calls[i]? = some (.threw "Refresh token already rotated") := by
  have hnone : s.db.sessions.filter (fun s => s.id == session.id && s.refreshHash == hash) = [] := by
    rw [List.filter_eq_nil_iff]
    intro row hrow hmatch
    rw [Bool.and_eq_true, beq_iff_eq, beq_iff_eq] at hmatch
    exact hhash (hmatch.2 ▸ h row hrow (hmatch.1.trans hid))
  have hlt := (List.getElem?_eq_some_iff.mp hcall).1
  have hcalls : s.calls.set i (.threw "Refresh token already rotated") = s'.calls := by
    simp only [authSystem, hcall, Option.bind_eq_bind, Option.bind_some, advance, AuthDb.updateSessions, hnone,
      List.length_nil, if_true, Option.some.injEq] at hstep
    rw [← hstep]
  rw [← hcalls, List.getElem?_set_self hlt]

theorem neverRefreshed (hapart : ∀ token, cfg.hashToken token ≠ "revoked") (hrun : RefreshRun cfg db es s) {id : ℕ}
    (h : Revoked id s.db) : NeverRefreshed scheme cfg id s := by
  intro es' t hevents hrest i now session hash tokens t' hcall hid hstep
  have hguarded : (authSystem scheme cfg).GuardedRun (fun _ e => e.RefreshOrLogout) s es' t :=
    .of_forall hrest fun e he _ => hevents e he
  obtain ⟨hrun', hrevoked⟩ := hguarded.history (I := fun pre s => RefreshRun cfg db pre s ∧ Revoked id s.db)
    (fun pre s e s' hs hevent hstep => ⟨hs.1.step hevent hstep, hs.2.step hapart hs.1 hstep⟩) ⟨hrun, h⟩
  obtain ⟨start, hstart⟩ : ∃ start, RefreshTrace cfg start (.refreshUpdate session hash tokens) := by
    have hlt := (List.getElem?_eq_some_iff.mp hcall).1
    rw [← hrun'.traced] at hlt
    refine ⟨(starts (es ++ es'))[i], hrun'.traces (_, _) (List.mem_of_getElem? (i := i) ?_)⟩
    rw [AuthState.traces, List.getElem?_zip_eq_some]
    exact ⟨List.getElem?_eq_getElem hlt, hcall⟩
  have hhash : hash ≠ "revoked" := by
    cases hstart with
    | update token => exact hapart token
  exact hrevoked.refreshUpdate hhash hcall hid hstep

/-- **Refresh tokens.** Whatever calls of `refresh` and `logout` there are and however their operations
interleave, each token is exchanged at most once; and from a logout that finds the session of its token on,
no `refresh` call performs its update on that session. -/
theorem refresh_once (hids : (db.sessions.map Session.id).Nodup) (hapart : TokensApart cfg db es)
    (hevents : ∀ e ∈ es, e.RefreshOrLogout) (hrun : (authSystem scheme cfg).run { db, calls := [] } es = some s) :
    (∀ token, exchanges token es s ≤ 1) ∧
      ∀ i now token session s', s.calls[i]? = some (.logout token) → token ≠ "" → session ∈ s.db.sessions →
        session.refreshHash = cfg.hashToken token → (authSystem scheme cfg).step s (.op i now) = some s' →
          NeverRefreshed scheme cfg session.id s' := by
  have hinv : RefreshRun cfg db es s := RefreshRun.run hids hevents hrun
  constructor
  · intro token
    have hplaces := hinv.places (cfg.hashToken token) (hapart.not_revoked token)
    exact (exchanges_le_tally cfg token es s).trans (hplaces.trans (hapart.places_le_one token))
  · intro i now token session s' hcall htoken hsession hhash hstep
    have hnext : RefreshRun cfg db (es ++ [.op i now]) s' := hinv.step trivial hstep
    exact neverRefreshed hapart.not_revoked hnext
      (Revoked.logout hinv.ids hcall htoken hsession hhash hstep)

/-! ## Two refreshes and a logout -/

def firstToken : String := "atUQBw1Z2s2gmjd1Tt8oQiHAWRvULUIdnRRuRVfw3nci9sqHr_GHuF5uqW8Wj924"

def secondToken : String := "mv0Dg_CmV9rHb4aqxbUxh9p4-VUe0pmzsHUNgx7E5BR-kS-2LPbgeLlZUZ4ei9zs"

def lostToken : String := "dOT9nKOKbndt_am4IRMeRCju8OUBk8mO5lO7VuYtMtrZ62MHQzkVGQoCBx2IsJdd"

def lateToken : String := "4fwg3lqlq_VqaF8fA_u-c8mMo_XTRwbEQouSJq7oR4kNpVdUIfd0brudLT8UGl7V"

/-- SHA-256 of these tokens. -/
def sampleSha256 (token : String) : String :=
  if token = firstToken then
    "be713c349bf77ae8250f553957aac01ba856b7000fa249ce4317294580980982"
  else if token = secondToken then
    "cff502d91742c6d06d12d6f338133f5078d8b47d4f06868b3df4b696c075be7f"
  else if token = lostToken then
    "be2fb972905a1f54ba8bbb67b85151d1df16ba6c122aae9594f14a5a9b5b11aa"
  else if token = lateToken then
    "2124cdb27b5bc48c5cb99f96b1c9eab1d408fa25b7a15bd1aec148c4556c238e"
  else String.ofList (List.replicate 64 '0')

def refreshConfig : AuthConfig where
  sha256 := sampleSha256

def refreshDb : AuthDb where
  users := [⟨0, some alice, none⟩]
  sessions := [⟨1, 0, sampleSha256 firstToken, none, 0, 604800000⟩]
  nextId := 2

/-- Two calls read the session with its first token, one of them exchanges it, and a third one has read the
session with the second token when `logout` comes. -/
def refreshRun : List AuthEvent :=
  [.refresh firstToken secondToken, .refresh firstToken lostToken, .op 0 1, .op 1 1, .op 0 2, .op 1 2, .op 0 2,
    .refresh secondToken lateToken, .op 2 3, .logout secondToken]

def refreshState : AuthState where
  db := { refreshDb with
    sessions := [⟨1, 0, sampleSha256 secondToken, none, 2, 604800002⟩]
    auditLog := [⟨0, "auth.refresh", "1"⟩] }
  calls :=
    [.done (some (signTokens refreshConfig 0 none secondToken)), .threw "Refresh token already rotated",
      .refreshUpdate ⟨1, 0, sampleSha256 secondToken, none, 2, 604800002⟩ (sampleSha256 secondToken)
        (signTokens refreshConfig 0 none lateToken), .logout secondToken]

def loggedOutState : AuthState where
  db := { refreshState.db with sessions := [⟨1, 0, "revoked", none, 2, 0⟩] }
  calls := refreshState.calls.set 3 (.done none)

theorem sampleSha256_length (token : String) : (sampleSha256 token).length = 64 := by
  unfold sampleSha256
  split_ifs
  all_goals decide

theorem refresh_once_sample :
    exchanges firstToken refreshRun refreshState ≤ 1 ∧
      NeverRefreshed sampleScheme refreshConfig 1 loggedOutState := by
  have hapart : TokensApart refreshConfig refreshDb refreshRun := by
    refine ⟨sampleSha256_length, ?_, by decide, fun token => ?_, by decide +kernel⟩
    · have hinj : ∀ t ∈ minted refreshRun, ∀ t' ∈ minted refreshRun, sampleSha256 t = sampleSha256 t' → t = t' := by
        decide +kernel
      exact fun t ht t' ht' heq => hinj t ht t' ht' heq
    · exact List.countP_le_length
  have hrun : (authSystem sampleScheme refreshConfig).run { db := refreshDb, calls := [] } refreshRun =
      some refreshState := by decide +kernel
  have hall := refresh_once (by decide) hapart (by decide) hrun
  exact ⟨hall.1 firstToken, hall.2 3 4 secondToken _ loggedOutState (by decide +kernel) (by decide +kernel)
    List.mem_cons_self rfl (by decide +kernel)⟩

end SuperAi.Auth
