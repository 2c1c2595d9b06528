import SuperAi.Wallets.WalletsService
import SuperAi.Foundations.SingleUse
import Mathlib.Data.List.Nodup

/-! # One primary wallet, and only one's own

`create` and `importWallet` decide from a count of the user's wallets that they read before the wallet is
made, and `setPrimary` clears by the user but sets by the id alone. While a user is counted only where the
wallets still to be made leave room, and where none of them is the user's first, each user with a wallet has
one primary wallet and no user has more than the cap (`one_primary`); and while `setPrimary` is called with
one's own wallets, no call changes another user's rows.
-/
namespace SuperAi.Wallets
open SuperAi.Auth SuperAi.Foundations
set_option autoImplicit false

/-! ## Calls on their way -/

/-- The user whose wallet a call still has to make, and the count that it has read. -/
def WalletCall.pending : WalletCall → Option (String × ℕ)
  | .createLabel userId _ _ _ count => some (userId, count)
  | .importExisting count data => some (data.userId, count)
  | .insert count data _ => some (data.userId, count)
  | _ => none

def WalletCall.makesFor (userId : String) (call : WalletCall) : Bool := call.pending.any fun p => p.1 == userId

/-- The user who has made a call that is still running. -/
def WalletCall.caller : WalletCall → Option String
  | .create userId _ _ _ | .createLabel userId _ _ _ _ | .importWallet userId _ _ _ _ _ => some userId
  | .importExisting _ data | .insert _ data _ | .insertAudit data _ => some data.userId
  | .setPrimary userId _ | .list userId => some userId
  | .done | .threw _ => none

namespace WalletState

/-- How many wallets of the user are still to be made. -/
def pending (s : WalletState) (userId : String) : ℕ := s.calls.countP fun call => call.makesFor userId

/-- The user whose wallets an event counts. -/
def counts (s : WalletState) : WalletEvent → Option String
  | .op i _ =>
    match s.calls[i]? with
    | some (.create userId _ _ _) | some (.importWallet userId _ _ _ _ _) => some userId
    | _ => none
  | _ => none

/-- The user and the id of the transaction of `setPrimary`. -/
def promotes (s : WalletState) : WalletEvent → Option (String × ℕ)
  | .op i _ =>
    match s.calls[i]? with
    | some (.setPrimary userId walletId) => some (userId, walletId)
    | _ => none
  | _ => none

def caller (s : WalletState) : WalletEvent → Option String
  | .op i _ | .reject i => (s.calls[i]?).bind WalletCall.caller
  | _ => none

end WalletState

namespace WalletDb

def primaries (db : WalletDb) (userId : String) : ℕ :=
  db.wallets.countP fun w => w.userId = userId ∧ w.isPrimary = true

def rowsOf (db : WalletDb) (userId : String) : List Wallet := db.wallets.filter fun w => w.userId = userId

end WalletDb

/-- A count below the cap leaves room for the wallets that are still to be made, and none of them is the first
one; the wallet that is to be primary is the caller's. -/
def InTurn (cfg : WalletConfig) (s : WalletState) (e : WalletEvent) : Prop :=
  (∀ userId ∈ s.counts e, s.db.count userId < cfg.MAX_WALLETS_PER_USER →
    s.db.count userId + s.pending userId < cfg.MAX_WALLETS_PER_USER ∧
      (s.db.count userId = 0 → s.pending userId = 0)) ∧
  ∀ p ∈ s.promotes e, ∀ w ∈ s.db.wallets, w.id = p.2 → w.userId = p.1

instance (cfg : WalletConfig) (s : WalletState) (e : WalletEvent) : Decidable (InTurn cfg s e) :=
  inferInstanceAs (Decidable ((∀ userId ∈ s.counts e, s.db.count userId < cfg.MAX_WALLETS_PER_USER →
    s.db.count userId + s.pending userId < cfg.MAX_WALLETS_PER_USER ∧
      (s.db.count userId = 0 → s.pending userId = 0)) ∧
    ∀ p ∈ s.promotes e, ∀ w ∈ s.db.wallets, w.id = p.2 → w.userId = p.1))

/-! ## The invariant -/

/-- The wallet to be made is primary if the count was zero. -/
def WalletCall.FirstIsPrimary : WalletCall → Prop
  | .importExisting count data | .insert count data _ => data.isPrimary = (count == 0)
  | _ => True

/-- What guarded steps keep. A call that has counted zero is alone in making a wallet of its user. -/
structure WalletsInv (cfg : WalletConfig) (s : WalletState) : Prop where
  ids : (s.db.wallets.map Wallet.id).Nodup
  bound : ∀ id ∈ s.db.wallets.map Wallet.id, id < s.db.nextId
  cap : ∀ userId, s.db.count userId + s.pending userId ≤ cfg.MAX_WALLETS_PER_USER
  primary : ∀ userId, s.db.primaries userId = if s.db.count userId = 0 then 0 else 1
  first : ∀ call ∈ s.calls, ∀ userId count, call.pending = some (userId, count) →
    (count = 0 → s.db.count userId = 0 ∧ s.pending userId = 1) ∧ (count ≠ 0 → s.db.count userId ≠ 0)
  data : ∀ call ∈ s.calls, call.FirstIsPrimary

variable {cfg : WalletConfig} {s s' : WalletState} {i : ℕ} {call call' : WalletCall} {db' : WalletDb}

theorem pending_set (h : s.calls[i]? = some call) (db' : WalletDb) (call' : WalletCall) (userId : String) :
    WalletState.pending { db := db', calls := s.calls.set i call' } userId +
        (if call.makesFor userId then 1 else 0) =
      s.pending userId + (if call'.makesFor userId then 1 else 0) :=
  countP_set_eq (WalletCall.makesFor userId) h call'

theorem makesFor_of_pending {userId : String} {count : ℕ} (h : call.pending = some (userId, count))
    (userId' : String) : call.makesFor userId' = (userId == userId') := by
  rw [WalletCall.makesFor, h]
  rfl

theorem makesFor_of_none (h : call.pending = none) (userId : String) : call.makesFor userId = false := by
  rw [WalletCall.makesFor, h]
  rfl

theorem pending_pos {userId : String} {count : ℕ} (hcall : call ∈ s.calls)
    (h : call.pending = some (userId, count)) : 0 < s.pending userId := by
  apply List.countP_pos_iff.mpr
  refine ⟨call, hcall, ?_⟩
  rw [makesFor_of_pending h, beq_self_eq_true]

/-- A call that makes no wallet any more, or goes on to make the same one, where no row has come or gone and
each user has as many primary wallets as before. -/
theorem WalletsInv.goes_on (h : WalletsInv cfg s) (hcall : s.calls[i]? = some call)
    (hids : db'.wallets.map Wallet.id = s.db.wallets.map Wallet.id) (hnext : db'.nextId = s.db.nextId)
    (hcount : ∀ userId, db'.count userId = s.db.count userId)
    (hprimary : ∀ userId, db'.primaries userId = s.db.primaries userId)
    (hpending : call'.pending = none ∨ call'.pending = call.pending) (hdata : call'.FirstIsPrimary) :
    WalletsInv cfg { db := db', calls := s.calls.set i call' } := by
  have hless : ∀ userId, WalletState.pending { db := db', calls := s.calls.set i call' } userId ≤ s.pending userId := by
    intro userId
    have hset := pending_set hcall db' call' userId
    rcases hpending with hnone | hsame
    · rw [makesFor_of_none hnone] at hset
      simp only [Bool.false_eq_true, if_false] at hset
      omega
    · rw [WalletCall.makesFor, WalletCall.makesFor, hsame] at hset
      omega
  refine ⟨hids ▸ h.ids, hids ▸ hnext ▸ h.bound, fun userId => ?_, fun userId => ?_, fun c hc userId count hc' => ?_,
    forall_mem_set h.data hdata i⟩
  · have hcap := h.cap userId
    have hle := hless userId
    rw [hcount]
    omega
  · rw [hprimary, hcount]
    exact h.primary userId
  · -- a call that is left still counts itself
    have hpos := pending_pos (s := { db := db', calls := s.calls.set i call' }) hc hc'
    have hle := hless userId
    have hold : (count = 0 → s.db.count userId = 0 ∧ s.pending userId = 1) ∧
        (count ≠ 0 → s.db.count userId ≠ 0) := by
      rcases List.mem_or_eq_of_mem_set hc with hmem | rfl
      · exact h.first c hmem userId count hc'
      · rcases hpending with hnone | hsame
        · rw [hnone] at hc'
          cases hc'
        · exact h.first call (List.mem_of_getElem? hcall) userId count (hsame ▸ hc')
    rw [hcount]
    refine ⟨fun hzero => ?_, hold.2⟩
    obtain ⟨hnone, hone⟩ := hold.1 hzero
    exact ⟨hnone, by omega⟩

/-- The same with all rows as they were. -/
theorem WalletsInv.same_rows (h : WalletsInv cfg s) (hcall : s.calls[i]? = some call)
    (hrows : db'.wallets = s.db.wallets) (hnext : db'.nextId = s.db.nextId)
    (hpending : call'.pending = none ∨ call'.pending = call.pending) (hdata : call'.FirstIsPrimary) :
    WalletsInv cfg { db := db', calls := s.calls.set i call' } := by
  refine h.goes_on hcall (by rw [hrows]) hnext (fun userId => ?_) (fun userId => ?_) hpending hdata
  · rw [WalletDb.count, hrows, WalletDb.count]
  · rw [WalletDb.primaries, hrows, WalletDb.primaries]

theorem WalletsInv.start (h : WalletsInv cfg s) (hnone : call.pending = none) (hdata : call.FirstIsPrimary) :
    WalletsInv cfg { s with calls := s.calls ++ [call] } := by
  have hpending : ∀ userId, WalletState.pending { s with calls := s.calls ++ [call] } userId = s.pending userId := by
    intro userId
    rw [WalletState.pending, List.countP_append, List.countP_singleton, makesFor_of_none hnone]
    rfl
  refine ⟨h.ids, h.bound, fun userId => ?_, h.primary, fun c hc userId count hc' => ?_,
    List.forall_mem_append.mpr ⟨h.data, List.forall_mem_singleton.mpr hdata⟩⟩
  · rw [hpending]
    exact h.cap userId
  · rw [hpending]
    rcases List.mem_append.mp hc with hold | hnew
    · exact h.first c hold userId count hc'
    · rw [List.mem_singleton.mp hnew, hnone] at hc'
      cases hc'

/-- A call has counted the wallets of a user for whom there is room. -/
theorem WalletsInv.counts (h : WalletsInv cfg s) (hcall : s.calls[i]? = some call) (hnone : call.pending = none)
    {userId : String} (hpending : call'.pending = some (userId, s.db.count userId)) (hdata : call'.FirstIsPrimary)
    (hroom : s.db.count userId + s.pending userId < cfg.MAX_WALLETS_PER_USER)
    (hfirst : s.db.count userId = 0 → s.pending userId = 0) :
    WalletsInv cfg { s with calls := s.calls.set i call' } := by
  have hset : ∀ user, WalletState.pending { s with calls := s.calls.set i call' } user =
      s.pending user + (if userId = user then 1 else 0) := by
    intro user
    have hset := pending_set hcall s.db call' user
    rw [makesFor_of_none hnone, makesFor_of_pending hpending] at hset
    simpa using hset
  refine ⟨h.ids, h.bound, fun user => ?_, h.primary, fun c hc user count hc' => ?_, forall_mem_set h.data hdata i⟩
  · rw [hset]
    by_cases huser : userId = user
    · subst huser
      rw [if_pos rfl]
      change s.db.count userId + _ ≤ _
      omega
    · rw [if_neg huser]
      exact h.cap user
  · rw [hset]
    rcases List.mem_or_eq_of_mem_set hc with hmem | rfl
    · obtain ⟨hzero, hsome⟩ := h.first c hmem user count hc'
      refine ⟨fun hcount => ?_, hsome⟩
      obtain ⟨hempty, hone⟩ := hzero hcount
      by_cases huser : userId = user
      · -- the earlier call would have been there when this one counted
        subst huser
        have hidle := hfirst hempty
        omega
      · rw [if_neg huser]
        exact ⟨hempty, hone⟩
    · obtain ⟨rfl, rfl⟩ : userId = user ∧ s.db.count userId = count := by simpa [hpending] using hc'
      rw [if_pos rfl]
      exact ⟨fun hzero => ⟨hzero, by rw [hfirst hzero]⟩, id⟩

/-! ## New rows -/

namespace WalletDb
variable {db : WalletDb} {data : WalletData}

theorem count_createWallet (db : WalletDb) (data : WalletData) (userId : String) :
    (db.createWallet data).count userId = db.count userId + (if data.userId = userId then 1 else 0) := by
  rw [count, createWallet, List.countP_append, List.countP_singleton, count]
  simp

theorem primaries_createWallet (db : WalletDb) (data : WalletData) (userId : String) :
    (db.createWallet data).primaries userId =
      db.primaries userId + (if data.userId = userId ∧ data.isPrimary = true then 1 else 0) := by
  rw [primaries, createWallet, List.countP_append, List.countP_singleton, primaries]
  simp

end WalletDb

/-- The wallet is made. -/
theorem WalletsInv.insert (h : WalletsInv cfg s) {count : ℕ} {data : WalletData} {action : String}
    (hcall : s.calls[i]? = some (.insert count data action)) :
    WalletsInv cfg { db := s.db.createWallet data, calls := s.calls.set i (.insertAudit data action) } := by
  have hmem := List.mem_of_getElem? hcall
  obtain ⟨hzero, hsome⟩ := h.first _ hmem data.userId count rfl
  have hprimary : data.isPrimary = (count == 0) := h.data _ hmem
  have hset : ∀ user, WalletState.pending
      { db := s.db.createWallet data, calls := s.calls.set i (.insertAudit data action) } user +
        (if data.userId = user then 1 else 0) = s.pending user := by
    intro user
    have hset := pending_set hcall (s.db.createWallet data) (.insertAudit data action) user
    have hmakes : WalletCall.makesFor user (.insert count data action) = (data.userId == user) :=
      makesFor_of_pending rfl user
    rw [hmakes, makesFor_of_none rfl] at hset
    simpa using hset
  have hids : (s.db.createWallet data).wallets.map Wallet.id = s.db.wallets.map Wallet.id ++ [s.db.nextId] := by
    rw [WalletDb.createWallet, List.map_append]
    rfl
  refine ⟨?_, fun id hid => ?_, fun user => ?_, fun user => ?_, fun c hc user count' hc' => ?_,
    forall_mem_set h.data (by trivial) i⟩
  · rw [hids, List.nodup_append]
    refine ⟨h.ids, List.nodup_singleton _, fun id hid id' hid' heq => ?_⟩
    have hlt := h.bound id hid
    rw [heq, List.mem_singleton.mp hid'] at hlt
    exact Nat.lt_irrefl _ hlt
  · rw [hids] at hid
    rcases List.mem_append.mp hid with hold | hnew
    · exact Nat.lt_succ_of_lt (h.bound id hold)
    · rw [List.mem_singleton.mp hnew]
      exact Nat.lt_succ_self _
  · have hcap := h.cap user
    have hpending := hset user
    change (s.db.createWallet data).count user + _ ≤ _
    rw [WalletDb.count_createWallet]
    omega
  · change (s.db.createWallet data).primaries user = _
    rw [WalletDb.primaries_createWallet, WalletDb.count_createWallet, h.primary user, hprimary]
    by_cases huser : data.userId = user
    · subst huser
      by_cases hcount : count = 0
      · simp [hcount, (hzero hcount).1]
      · simp [hcount, hsome hcount]
    · simp [huser]
  · have hpos := pending_pos hc hc'
    have hpending := hset user
    rcases List.mem_or_eq_of_mem_set hc with hold | rfl
    · obtain ⟨hzero', hsome'⟩ := h.first c hold user count' hc'
      change (count' = 0 → (s.db.createWallet data).count user = 0 ∧ _) ∧
        (count' ≠ 0 → (s.db.createWallet data).count user ≠ 0)
      rw [WalletDb.count_createWallet]
      refine ⟨fun hcount => ?_, fun hcount => ?_⟩
      · -- it would be the second call that makes a wallet of the user
        obtain ⟨hempty, hone⟩ := hzero' hcount
        by_cases huser : data.userId = user
        · rw [if_pos huser] at hpending
          omega
        · rw [if_neg huser] at hpending ⊢
          omega
      · have hrows := hsome' hcount
        omega
    · cases hc'

/-! ## The primary wallet -/

namespace WalletDb
variable {db : WalletDb} {userId : String} {walletId : ℕ}

theorem makePrimary_wallets (db : WalletDb) (userId : String) (walletId : ℕ) :
    (db.makePrimary userId walletId).wallets = db.wallets.map fun w =>
      { w with isPrimary := if w.id = walletId then true else if w.userId = userId then false else w.isPrimary } := by
  rw [makePrimary, List.map_map]
  apply List.map_congr_left
  intro w _
  by_cases huser : w.userId = userId
  · by_cases hid : w.id = walletId
    · simp [huser, hid]
    · simp [huser, hid]
  · by_cases hid : w.id = walletId
    · simp [huser, hid]
    · simp [huser, hid]

theorem count_makePrimary (db : WalletDb) (userId : String) (walletId : ℕ) (user : String) :
    (db.makePrimary userId walletId).count user = db.count user := by
  rw [count, makePrimary_wallets, List.countP_map, count]
  rfl

/-- Rows of other users stay as they are, if the wallet is one of the user. -/
theorem rowsOf_makePrimary (hown : ∀ w ∈ db.wallets, w.id = walletId → w.userId = userId) {user : String}
    (hne : user ≠ userId) : (db.makePrimary userId walletId).rowsOf user = db.rowsOf user := by
  rw [rowsOf, makePrimary_wallets, rowsOf, List.filter_map]
  have hfilter : db.wallets.filter ((fun w : Wallet => decide (w.userId = user)) ∘ fun w =>
      { w with isPrimary := if w.id = walletId then true else if w.userId = userId then false else w.isPrimary }) =
      db.wallets.filter fun w => w.userId = user := rfl
  rw [hfilter]
  nth_rewrite 2 [← List.map_id (db.wallets.filter fun w => w.userId = user)]
  apply List.map_congr_left
  intro w hw
  obtain ⟨hmem, huser⟩ := List.mem_filter.mp hw
  have huser : w.userId = user := by simpa using huser
  have hid : w.id ≠ walletId := fun hid => hne (huser.symm.trans (hown w hmem hid))
  have hother : w.userId ≠ userId := fun h => hne (huser.symm.trans h)
  simp [hid, hother]

theorem primaries_rowsOf (db : WalletDb) (user : String) :
    db.primaries user = (db.rowsOf user).countP fun w => w.isPrimary := by
  rw [primaries, rowsOf, List.countP_filter]
  apply List.countP_congr
  intro w _
  simp [and_comm]

theorem primaries_makePrimary (hids : (db.wallets.map Wallet.id).Nodup)
    (hown : ∀ w ∈ db.wallets, w.id = walletId → w.userId = userId) (hthere : ∃ w ∈ db.wallets, w.id = walletId) :
    (db.makePrimary userId walletId).primaries userId = 1 := by
  have hcount : db.wallets.countP (fun w => w.id = walletId) = 1 := by
    obtain ⟨w, hw, hid⟩ := hthere
    have hone := List.nodup_iff_count_le_one.mp hids walletId
    have hpos : 0 < db.wallets.countP (fun w => w.id = walletId) :=
      List.countP_pos_iff.mpr ⟨w, hw, by simpa using hid⟩
    rw [List.count, List.countP_map] at hone
    have hsame : db.wallets.countP ((fun id => id == walletId) ∘ Wallet.id) =
        db.wallets.countP fun w => w.id = walletId := by
      apply List.countP_congr
      intro w _
      simp
    omega
  rw [primaries, makePrimary_wallets, List.countP_map, ← hcount]
  apply List.countP_congr
  intro w hw
  by_cases hid : w.id = walletId
  · simp [hid, hown w hw hid]
  · by_cases huser : w.userId = userId
    · simp [hid, huser]
    · simp [hid, huser]

end WalletDb

theorem WalletsInv.setPrimary (h : WalletsInv cfg s) {userId : String} {walletId : ℕ}
    (hcall : s.calls[i]? = some (.setPrimary userId walletId))
    (hown : ∀ w ∈ s.db.wallets, w.id = walletId → w.userId = userId)
    (hthere : ∃ w ∈ s.db.wallets, w.id = walletId) :
    WalletsInv cfg { db := s.db.makePrimary userId walletId, calls := s.calls.set i (.list userId) } := by
  have hids : (s.db.makePrimary userId walletId).wallets.map Wallet.id = s.db.wallets.map Wallet.id := by
    rw [WalletDb.makePrimary_wallets, List.map_map]
    rfl
  refine h.goes_on hcall hids rfl (s.db.count_makePrimary userId walletId) (fun user => ?_) (.inl rfl) trivial
  by_cases huser : user = userId
  · subst huser
    have hcount : s.db.count user ≠ 0 := by
      obtain ⟨w, hw, hid⟩ := hthere
      apply Nat.ne_of_gt
      exact List.countP_pos_iff.mpr ⟨w, hw, by simpa using hown w hw hid⟩
    rw [WalletDb.primaries_makePrimary h.ids hown hthere, h.primary user, if_neg hcount]
  · rw [WalletDb.primaries_rowsOf, WalletDb.rowsOf_makePrimary hown huser, ← WalletDb.primaries_rowsOf]

/-! ## Steps -/

theorem WalletsInv.step {e : WalletEvent} (h : WalletsInv cfg s) (hguard : InTurn cfg s e)
    (hstep : (walletSystem cfg).step s e = some s') : WalletsInv cfg s' := by
  rcases wallet_step_cases hstep with ⟨call, hstart, rfl⟩ | ⟨i, call, db', call', hcall, hnext, rfl⟩
  · cases e with
    | create | importWallet | setPrimary =>
      obtain rfl := Option.some.inj hstart
      exact h.start rfl trivial
    | op | reject => cases hstart
  · cases hnext with
    | reject => exact h.same_rows hcall rfl rfl (.inl rfl) trivial
    | op hadvance =>
      cases advance_cases hadvance with
      | threw | listed => exact h.same_rows hcall rfl rfl (.inl rfl) trivial
      | audited hrows hnext => exact h.same_rows hcall hrows hnext (.inl rfl) trivial
      | @counted userId _ _ _ hroom =>
        have hturn := hguard.1 userId (by simp [WalletState.counts, hcall]) hroom
        exact h.counts hcall rfl rfl trivial hturn.1 hturn.2
      | @imported userId _ _ _ _ _ data hroom huser hprimary =>
        have hturn := hguard.1 userId (by simp [WalletState.counts, hcall]) hroom
        exact h.counts hcall rfl (by rw [WalletCall.pending, huser]) hprimary hturn.1 hturn.2
      | labelled huser hprimary =>
        subst huser
        exact h.same_rows hcall rfl rfl (.inr rfl) hprimary
      | notThere =>
        have hdata : WalletCall.FirstIsPrimary _ := h.data _ (List.mem_of_getElem? hcall)
        exact h.same_rows hcall rfl rfl (.inr rfl) hdata
      | inserted => exact h.insert hcall
      | @promoted userId walletId hthere =>
        have hown := hguard.2 (userId, walletId) (by simp [WalletState.promotes, hcall])
        exact h.setPrimary hcall hown hthere

/-- Rows of other users stay as they are, whatever a call does that does not make another user's wallet
primary. -/
theorem rowsOf_step {e : WalletEvent} {user : String} (hguard : InTurn cfg s e)
    (hstep : (walletSystem cfg).step s e = some s') (hother : s.caller e ≠ some user) :
    s'.db.rowsOf user = s.db.rowsOf user := by
  rcases wallet_step_cases hstep with ⟨call, hstart, rfl⟩ | ⟨i, call, db', call', hcall, hnext, rfl⟩
  · rfl
  · cases hnext with
    | reject => rfl
    | op hadvance =>
      have huser : call.caller ≠ some user := by
        simpa [WalletState.caller, hcall] using hother
      cases advance_cases hadvance with
      | threw | listed | counted | imported | labelled | notThere => rfl
      | audited hrows => exact congrArg (List.filter _) hrows
      | @inserted count data action =>
        have hne : data.userId ≠ user := fun h => huser (congrArg some h)
        change List.filter _ (s.db.wallets ++ [_]) = _
        rw [List.filter_append]
        simp [WalletDb.rowsOf, hne]
      | @promoted userId walletId hthere =>
        have hown := hguard.2 (userId, walletId) (by simp [WalletState.promotes, hcall])
        exact WalletDb.rowsOf_makePrimary hown fun h => huser (congrArg some h.symm)

theorem WalletsInv.empty : WalletsInv cfg {} where
  ids := List.nodup_nil
  bound := fun _ hid => by cases hid
  cap := fun _ => Nat.zero_le _
  primary := fun _ => rfl
  first := fun _ hc => by cases hc
  data := fun _ hc => by cases hc

/-- Every user with a wallet has one primary wallet, no user has more wallets than the cap, and no step of a
call changes the wallets of another user. -/
theorem one_primary {es : List WalletEvent} (h : (walletSystem cfg).GuardedRun (InTurn cfg) {} es s) :
    (∀ userId, 0 < s.db.count userId → s.db.primaries userId = 1) ∧
      (∀ userId, s.db.count userId ≤ cfg.MAX_WALLETS_PER_USER) ∧
        ∀ e s' userId, InTurn cfg s e → (walletSystem cfg).step s e = some s' → s.caller e ≠ some userId →
          s'.db.rowsOf userId = s.db.rowsOf userId := by
  have hinv : WalletsInv cfg s :=
    h.invariant (fun _ _ _ hs hguard hstep => hs.step hguard hstep) WalletsInv.empty
  refine ⟨fun userId hpos => ?_, fun userId => ?_, fun e s' userId hguard hstep hother => ?_⟩
  · rw [hinv.primary, if_neg (Nat.ne_of_gt hpos)]
  · have hcap := hinv.cap userId
    omega
  · exact rowsOf_step hguard hstep hother

def walletConfig : WalletConfig where
  addressOf := fun _ _ => none

/-- The cap is reached by the first wallet. -/
def oneWallet : WalletConfig := { walletConfig with MAX_WALLETS_PER_USER := 1 }

def sealedKey (address : String) : SealedKey := ⟨address, "key", "dek"⟩

def createBy (userId address : String) : WalletEvent := .create userId .SOLANA none (sealedKey address)

/-- One call after another: two wallets of `ann`, one of `bob`, and `ann` makes her second wallet primary. -/
def inTurnRun : List WalletEvent :=
  [createBy "ann" "A1", .op 0 1, .op 0 1, .op 0 1, .op 0 1, createBy "ann" "A2", .op 1 2, .op 1 2, .op 1 2, .op 1 2,
    createBy "bob" "B1", .op 2 3, .op 2 3, .op 2 3, .op 2 3, .setPrimary "ann" 1, .op 3 4]

theorem one_primary_sample : ∃ s, (walletSystem walletConfig).run {} inTurnRun = some s ∧
    s.db.count "ann" = 2 ∧ s.db.primaries "ann" = 1 ∧ s.db.primaries "bob" = 1 ∧ s.db.count "ann" ≤ 100 ∧
      ∀ s', (walletSystem walletConfig).step s (.op 3 5) = some s' → s'.db.rowsOf "bob" = s.db.rowsOf "bob" := by
  have hsome : ((walletSystem walletConfig).guardedRun (InTurn walletConfig) {} inTurnRun).any (fun s =>
      s.db.count "ann" == 2 && s.db.count "bob" == 1 && s.caller (.op 3 5) == some "ann" &&
        decide (InTurn walletConfig s (.op 3 5))) = true := by decide +kernel
  obtain ⟨s, hs, hfacts⟩ := (Option.any_eq_true _ _).mp hsome
  simp only [Bool.and_eq_true, beq_iff_eq, decide_eq_true_eq] at hfacts
  obtain ⟨⟨⟨hann, hbob⟩, hcaller⟩, hturn⟩ := hfacts
  have hrun := StepSystem.GuardedRun.of_guardedRun hs
  obtain ⟨hprimary, hcap, hrows⟩ := one_primary hrun
  refine ⟨s, hrun.run, hann, hprimary "ann" (by omega), hprimary "bob" (by omega), hcap "ann", fun s' hstep => ?_⟩
  exact hrows _ s' "bob" hturn hstep (by rw [hcaller]; decide)

/-- Both calls count before one of them makes its wallet. -/
def bothCount : List WalletEvent :=
  [createBy "ann" "A1", createBy "ann" "A2", .op 0 1, .op 1 1, .op 0 1, .op 1 1, .op 0 1, .op 1 1, .op 0 1, .op 1 1]

/-- `bob` has two wallets, the second of which is not primary; `ann` has one. -/
def threeWallets : List WalletEvent :=
  [createBy "bob" "B1", .op 0 1, .op 0 1, .op 0 1, .op 0 1, createBy "bob" "B2", .op 1 2, .op 1 2, .op 1 2, .op 1 2,
    createBy "ann" "A1", .op 2 3, .op 2 3, .op 2 3, .op 2 3, .setPrimary "ann" 1]

/-- Two overlapping calls leave two primary wallets, or one wallet too many; `setPrimary` reaches the wallet of
another user. -/
theorem primary_not_one :
    (¬ ∀ (cfg : WalletConfig) (es : List WalletEvent) (s : WalletState), (walletSystem cfg).run {} es = some s →
      (∀ call ∈ s.calls, call.caller = none) → ∀ userId, 0 < s.db.count userId → s.db.primaries userId = 1) ∧
    (¬ ∀ (cfg : WalletConfig) (es : List WalletEvent) (s : WalletState), (walletSystem cfg).run {} es = some s →
      (∀ call ∈ s.calls, call.caller = none) → ∀ userId, s.db.count userId ≤ cfg.MAX_WALLETS_PER_USER) ∧
    ¬ ∀ (cfg : WalletConfig) (es : List WalletEvent) (s s' : WalletState) (e : WalletEvent) (userId : String),
      (walletSystem cfg).run {} es = some s → (walletSystem cfg).step s e = some s' → s.caller e ≠ some userId →
        s'.db.rowsOf userId = s.db.rowsOf userId := by
  refine ⟨fun hclaim => ?_, fun hclaim => ?_, fun hclaim => ?_⟩
  · have hsome : ((walletSystem walletConfig).run {} bothCount).any (fun s =>
        decide (∀ call ∈ s.calls, call.caller = none) && decide (0 < s.db.count "ann") &&
          s.db.primaries "ann" == 2) = true := by decide +kernel
    obtain ⟨s, hrun, hfacts⟩ := (Option.any_eq_true _ _).mp hsome
    simp only [Bool.and_eq_true, beq_iff_eq, decide_eq_true_eq] at hfacts
    obtain ⟨⟨hquiet, hpos⟩, htwo⟩ := hfacts
    have hone := hclaim walletConfig bothCount s hrun hquiet "ann" hpos
    omega
  · have hsome : ((walletSystem oneWallet).run {} bothCount).any (fun s =>
        decide (∀ call ∈ s.calls, call.caller = none) &&
          decide (oneWallet.MAX_WALLETS_PER_USER < s.db.count "ann")) = true := by decide +kernel
    obtain ⟨s, hrun, hfacts⟩ := (Option.any_eq_true _ _).mp hsome
    simp only [Bool.and_eq_true, decide_eq_true_eq] at hfacts
    have hcap := hclaim oneWallet bothCount s hrun hfacts.1 "ann"
    omega
  · have hsome : ((walletSystem walletConfig).run {} threeWallets).any (fun s =>
        ((walletSystem walletConfig).step s (.op 3 4)).any fun s' =>
          decide (s.caller (.op 3 4) ≠ some "bob") && decide (s'.db.rowsOf "bob" ≠ s.db.rowsOf "bob")) = true := by
      decide +kernel
    obtain ⟨s, hrun, hnext⟩ := (Option.any_eq_true _ _).mp hsome
    obtain ⟨s', hstep, hfacts⟩ := (Option.any_eq_true _ _).mp hnext
    simp only [Bool.and_eq_true, decide_eq_true_eq] at hfacts
    exact hfacts.2 (hclaim walletConfig threeWallets s s' (.op 3 4) "bob" hrun hstep hfacts.1)

end SuperAi.Wallets
