import SuperAi.Foundations.StepSystem
import SuperAi.Snipe.SnipeSession
import SuperAi.Foundations.SingleUse

/-! # Whose key signs

A snipe is signed by a session and its row is stamped with the wallet of a config. `execute` and every
retry take the user's primary session, whatever wallet the config or the burst row names; a sale takes the
session of the row's wallet and the primary one for want of it, and a manual sale always the primary one,
since it does not read the wallet of the row. So keys and rows agree as long as the primary session is that
of the wallet wherever it signs. When a call signs, a monitor retries or a row is sold is left open here: the
locks, the polls and the triggers only take runs away.
-/
namespace SuperAi.Snipe
open SuperAi.Foundations
set_option autoImplicit false

/-- What of a config goes into a row. -/
structure BuyConfig where
  userId : String
  walletId : String
  deriving DecidableEq, Repr

/-- The columns of a `SnipeTrade` row that tell whose transactions it stands for. -/
structure BuyRow where
  userId : String
  walletId : String
  txHash : String
  deriving DecidableEq, Repr

/-- A transaction that is sent and whose row is still to be recorded. -/
structure SentBuy where
  config : BuyConfig
  sig : String
  burst : Bool
  deriving DecidableEq, Repr

structure Monitor where
  config : BuyConfig
  currentSig : String
  deriving DecidableEq, Repr

structure Desk where
  store : SessionStore := {}
  /-- The burst sessions that callers of `executeBurst` have got. -/
  handed : List (String × HotSession) := []
  /-- The keypair that has signed a transaction. -/
  signers : KeyValue String Keypair := []
  unrecorded : List SentBuy := []
  monitors : List Monitor := []
  rows : List BuyRow := []
  /-- The sales by number of their row, with the keypair that signs. -/
  sales : List (ℕ × Keypair) := []
  deriving DecidableEq

inductive DeskEvent
  | startSession (now : ℤ) (userId walletId : String)
  | stopSession (userId : String)
  | startBurstSessions (now : ℤ) (userId : String) (wallets : List String)
  | stopBurstSessions (userId : String)
  | getBurstSessions (now : ℤ) (userId : String)
  | cleanup (now : ℤ)
  /-- `execute` takes its session, builds, signs and sends. -/
  | execute (now : ℤ) (config : BuyConfig) (sig : String)
  | executeBurst (i : ℕ) (sig : String)
  /-- `recordTrade` for a sent transaction. -/
  | record (i : ℕ) (lands : Bool)
  /-- A monitor sends again after a slippage failure and updates the row. -/
  | retry (i : ℕ) (now : ℤ) (retrySig : String) (lands : Bool)
  | monitorEnds (i : ℕ)
  /-- `executeSell` for a row that a tick has read. -/
  | sell (now : ℤ) (row : ℕ)
  | manualSell (now : ℤ) (row : ℕ)

namespace Desk

/-- A transaction is signed; signatures are not repeated. -/
def sign (sig : String) (session : HotSession) (s : Desk) : Option Desk :=
  if s.signers.get sig = none then some { s with signers := s.signers.set sig session.keypair } else none

def execute (now : ℤ) (config : BuyConfig) (sig : String) (s : Desk) : Option Desk :=
  let (session, store) := s.store.getSession now config.userId
  let s := { s with store := store }
  match session with
  | none => some s
  | some session =>
    (s.sign sig session).map fun s => { s with unrecorded := s.unrecorded ++ [⟨config, sig, false⟩] }

/-- The row is stamped with the wallet of the session, and the monitor does not wait for the row. -/
def executeBurst (sig userId : String) (session : HotSession) (s : Desk) : Option Desk :=
  let config : BuyConfig := ⟨userId, session.walletId⟩
  (s.sign sig session).map fun s =>
    { s with
      unrecorded := s.unrecorded ++ [⟨config, sig, true⟩]
      monitors := s.monitors ++ [⟨config, sig⟩] }

def record (lands : Bool) (sent : SentBuy) (s : Desk) : Desk :=
  if lands then
    { s with
      rows := s.rows ++ [⟨sent.config.userId, sent.config.walletId, sent.sig⟩]
      monitors := if sent.burst then s.monitors else s.monitors ++ [⟨sent.config, sent.sig⟩] }
  else s

/-- The retry is signed by the primary session; a monitor whose update throws is over. -/
def retry (i : ℕ) (now : ℤ) (retrySig : String) (lands : Bool) (monitor : Monitor) (s : Desk) : Option Desk :=
  let (session, store) := s.store.getSession now monitor.config.userId
  let s := { s with store := store }
  match session with
  | none => some { s with monitors := s.monitors.eraseIdx i }
  | some session =>
    (s.sign retrySig session).map fun s =>
      if lands then
        { s with
          rows := s.rows.map fun row => if row.txHash = monitor.currentSig then { row with txHash := retrySig } else row
          monitors := s.monitors.set i { monitor with currentSig := retrySig } }
      else { s with monitors := s.monitors.eraseIdx i }

def executeSell (now : ℤ) (i : ℕ) (userId : String) (walletId : Option String) (s : Desk) : Desk :=
  let (session, store) := s.store.getSessionForWallet now userId walletId
  { s with
    store := store
    sales := s.sales ++ session.toList.map fun session => (i, session.keypair) }

end Desk

def desk : StepSystem Desk DeskEvent where
  step s
    | .startSession now userId walletId => some { s with store := s.store.startSession now userId walletId }
    | .stopSession userId => some { s with store := s.store.stopSession userId }
    | .startBurstSessions now userId wallets =>
      some { s with store := s.store.startBurstSessions now userId wallets }
    | .stopBurstSessions userId => some { s with store := s.store.stopBurstSessions userId }
    | .getBurstSessions now userId =>
      let (sessions, store) := s.store.getBurstSessions now userId
      some { s with store := store, handed := s.handed ++ sessions.map fun session => (userId, session) }
    | .cleanup now => some { s with store := s.store.cleanup now }
    | .execute now config sig => s.execute now config sig
    | .executeBurst i sig => s.handed[i]?.bind fun (userId, session) => s.executeBurst sig userId session
    | .record i lands => s.unrecorded[i]?.map fun sent =>
      Desk.record lands sent { s with unrecorded := s.unrecorded.eraseIdx i }
    | .retry i now retrySig lands => s.monitors[i]?.bind fun monitor => s.retry i now retrySig lands monitor
    | .monitorEnds i => some { s with monitors := s.monitors.eraseIdx i }
    | .sell now i => s.rows[i]?.map fun row => s.executeSell now i row.userId (some row.walletId)
    -- the row is read without its wallet
    | .manualSell now i => s.rows[i]?.map fun row => s.executeSell now i row.userId none

/-! ## Attribution -/

/-- The wallet whose keypair has signed a transaction. -/
def Desk.signerOf (sig : String) (s : Desk) : Option String := (s.signers.get sig).map Keypair.owner

/-- The wallet a row is stamped with. -/
def Desk.walletOf (i : ℕ) (s : Desk) : Option String := s.rows[i]?.map BuyRow.walletId

structure Attributed (s : Desk) : Prop where
  buys : ∀ row ∈ s.rows, s.signerOf row.txHash = some row.walletId
  sales : ∀ sale ∈ s.sales, s.walletOf sale.1 = some sale.2.owner

/-- The primary session, if there is one, is that of the wallet. -/
def PrimaryFor (s : Desk) (now : ℤ) (userId walletId : String) : Prop :=
  ∀ session ∈ (s.store.getSession now userId).1, session.walletId = walletId

/-- Wherever the primary session signs, it is that of the wallet of the config or of the row. -/
def RightSession (s : Desk) : DeskEvent → Prop
  | .execute now config _ => PrimaryFor s now config.userId config.walletId
  | .retry i now _ lands => lands = true → ∀ monitor ∈ s.monitors[i]?,
      PrimaryFor s now monitor.config.userId monitor.config.walletId
  | .sell now i => ∀ row ∈ s.rows[i]?,
      (s.store.getSessionForWallet now row.userId (some row.walletId)).1 = (s.store.getSession now row.userId).1 →
        PrimaryFor s now row.userId row.walletId
  | .manualSell now i => ∀ row ∈ s.rows[i]?, PrimaryFor s now row.userId row.walletId
  | _ => True

instance (s : Desk) (now : ℤ) (userId walletId : String) : Decidable (PrimaryFor s now userId walletId) :=
  inferInstanceAs (Decidable (∀ session ∈ (s.store.getSession now userId).1, session.walletId = walletId))

instance (s : Desk) (e : DeskEvent) : Decidable (RightSession s e) :=
  match e with
  | .execute now config _ => inferInstanceAs (Decidable (PrimaryFor s now config.userId config.walletId))
  | .retry i now _ lands => inferInstanceAs (Decidable (lands = true → ∀ monitor ∈ s.monitors[i]?,
      PrimaryFor s now monitor.config.userId monitor.config.walletId))
  | .sell now i => inferInstanceAs (Decidable (∀ row ∈ s.rows[i]?,
      (s.store.getSessionForWallet now row.userId (some row.walletId)).1 = (s.store.getSession now row.userId).1 →
        PrimaryFor s now row.userId row.walletId))
  | .manualSell now i =>
    inferInstanceAs (Decidable (∀ row ∈ s.rows[i]?, PrimaryFor s now row.userId row.walletId))
  | .startSession .. | .stopSession _ | .startBurstSessions .. | .stopBurstSessions _ | .getBurstSessions ..
  | .cleanup _ | .executeBurst .. | .record .. | .monitorEnds _ => inferInstanceAs (Decidable True)

/-- What the steps keep: sent transactions without a row yet, and the ones that are watched, are attributed
as rows are. -/
structure Traced (s : Desk) : Prop extends Attributed s where
  filed : s.store.Filed
  unrecorded : ∀ sent ∈ s.unrecorded, s.signerOf sent.sig = some sent.config.walletId
  monitors : ∀ monitor ∈ s.monitors, s.signerOf monitor.currentSig = some monitor.config.walletId

variable {s s' : Desk}

theorem traced_empty : Traced {} where
  buys := fun _ h => nomatch h
  sales := fun _ h => nomatch h
  filed := fun _ h => nomatch h
  unrecorded := fun _ h => nomatch h
  monitors := fun _ h => nomatch h

theorem Desk.sign_eq_some {sig : String} {session : HotSession} (h : s.sign sig session = some s') :
    s.signers.get sig = none ∧ s' = { s with signers := s.signers.set sig session.keypair } := by
  unfold Desk.sign at h
  obtain ⟨hfresh, h⟩ := Option.ite_none_right_eq_some.mp h
  exact ⟨hfresh, (Option.some.inj h).symm⟩

theorem signerOf_sign {sig : String} {session : HotSession} (h : s.sign sig session = some s') :
    s'.signerOf sig = some session.walletId := by
  obtain ⟨-, rfl⟩ := Desk.sign_eq_some h
  show (KeyValue.get (s.signers.set sig session.keypair) sig).map Keypair.owner = _
  rw [KeyValue.get_set_self, Option.map_some, session.owned]

/-- A signature that is taken is not given again. -/
theorem signerOf_sign_of_some {sig other walletId : String} {session : HotSession}
    (h : s.sign sig session = some s') (hother : s.signerOf other = some walletId) :
    s'.signerOf other = some walletId := by
  obtain ⟨hfresh, rfl⟩ := Desk.sign_eq_some h
  have hne : other ≠ sig := by
    rintro rfl
    simp [Desk.signerOf, hfresh] at hother
  show (KeyValue.get (s.signers.set sig session.keypair) other).map Keypair.owner = _
  rw [KeyValue.get_set_of_ne hne]
  exact hother

namespace Traced

theorem sessions (h : Traced s) (store : SessionStore) (hstore : store.Filed) : Traced { s with store := store } where
  buys := h.buys
  sales := h.sales
  filed := hstore
  unrecorded := h.unrecorded
  monitors := h.monitors

theorem sign (h : Traced s) {sig : String} {session : HotSession} (hsign : s.sign sig session = some s') :
    Traced s' := by
  have hkeeps : ∀ other walletId, s.signerOf other = some walletId → s'.signerOf other = some walletId :=
    fun _ _ => signerOf_sign_of_some hsign
  obtain ⟨-, rfl⟩ := Desk.sign_eq_some hsign
  exact
    { buys := fun row hrow => hkeeps _ _ (h.buys row hrow)
      sales := h.sales
      filed := h.filed
      unrecorded := fun sent hsent => hkeeps _ _ (h.unrecorded sent hsent)
      monitors := fun monitor hmonitor => hkeeps _ _ (h.monitors monitor hmonitor) }

theorem awaits (h : Traced s) (sent : SentBuy) (hsent : s.signerOf sent.sig = some sent.config.walletId) :
    Traced { s with unrecorded := s.unrecorded ++ [sent] } where
  buys := h.buys
  sales := h.sales
  filed := h.filed
  unrecorded := List.forall_mem_append.mpr ⟨h.unrecorded, List.forall_mem_singleton.mpr hsent⟩
  monitors := h.monitors

theorem watches (h : Traced s) (monitor : Monitor)
    (hmonitor : s.signerOf monitor.currentSig = some monitor.config.walletId) :
    Traced { s with monitors := s.monitors ++ [monitor] } where
  buys := h.buys
  sales := h.sales
  filed := h.filed
  unrecorded := h.unrecorded
  monitors := List.forall_mem_append.mpr ⟨h.monitors, List.forall_mem_singleton.mpr hmonitor⟩

theorem monitorEnds (h : Traced s) (i : ℕ) : Traced { s with monitors := s.monitors.eraseIdx i } where
  buys := h.buys
  sales := h.sales
  filed := h.filed
  unrecorded := h.unrecorded
  monitors := fun monitor hmonitor => h.monitors monitor (List.mem_of_mem_eraseIdx hmonitor)

theorem execute (h : Traced s) {now : ℤ} {config : BuyConfig} {sig : String}
    (hright : PrimaryFor s now config.userId config.walletId) (hstep : s.execute now config sig = some s') :
    Traced s' := by
  unfold Desk.execute at hstep
  have hstore := h.sessions _ (h.filed.getSession now config.userId)
  cases hsession : (s.store.getSession now config.userId).1 with
  | none =>
    simp only [hsession] at hstep
    obtain rfl := Option.some.inj hstep
    exact hstore
  | some session =>
    simp only [hsession] at hstep
    obtain ⟨signed, hsign, rfl⟩ := Option.map_eq_some_iff.mp hstep
    apply (hstore.sign hsign).awaits
    rw [signerOf_sign hsign, hright session hsession]

theorem executeBurst (h : Traced s) {sig userId : String} {session : HotSession}
    (hstep : s.executeBurst sig userId session = some s') : Traced s' := by
  unfold Desk.executeBurst at hstep
  obtain ⟨signed, hsign, rfl⟩ := Option.map_eq_some_iff.mp hstep
  have hsigner := signerOf_sign hsign
  have hsent := (h.sign hsign).awaits ⟨⟨userId, session.walletId⟩, sig, true⟩ hsigner
  exact hsent.watches ⟨⟨userId, session.walletId⟩, sig⟩ hsigner

theorem record (h : Traced s) {i : ℕ} {sent : SentBuy} (hsent : s.unrecorded[i]? = some sent) (lands : Bool) :
    Traced (Desk.record lands sent { s with unrecorded := s.unrecorded.eraseIdx i }) := by
  have hsigner := h.unrecorded sent (List.mem_of_getElem? hsent)
  have hgone : Traced { s with unrecorded := s.unrecorded.eraseIdx i } :=
    { h with unrecorded := fun other hother => h.unrecorded other (List.mem_of_mem_eraseIdx hother) }
  unfold Desk.record
  by_cases hlands : lands = true
  · rw [if_pos hlands]
    have hrow : Traced { s with
        unrecorded := s.unrecorded.eraseIdx i
        rows := s.rows ++ [⟨sent.config.userId, sent.config.walletId, sent.sig⟩] } :=
      { hgone with
        buys := List.forall_mem_append.mpr ⟨h.buys, List.forall_mem_singleton.mpr hsigner⟩
        sales := by
          intro sale hsale
          obtain ⟨row, hget, hwallet⟩ := Option.map_eq_some_iff.mp (h.sales sale hsale)
          have hbound := (List.getElem?_eq_some_iff.mp hget).1
          show Option.map _ (s.rows ++ _)[sale.1]? = _
          rw [List.getElem?_append_left hbound, hget, Option.map_some, hwallet] }
    by_cases hburst : sent.burst = true
    · simpa only [hburst, if_true] using hrow
    · simpa only [if_neg hburst] using hrow.watches ⟨sent.config, sent.sig⟩ hsigner
  · rw [if_neg hlands]
    exact hgone

/-- A row that is given another transaction is that of the monitor's wallet. -/
theorem resent (h : Traced s) {i : ℕ} {monitor : Monitor} {retrySig : String}
    (hmonitor : s.signerOf monitor.currentSig = some monitor.config.walletId)
    (hretry : s.signerOf retrySig = some monitor.config.walletId) :
    Traced { s with
      rows := s.rows.map fun row => if row.txHash = monitor.currentSig then { row with txHash := retrySig } else row
      monitors := s.monitors.set i { monitor with currentSig := retrySig } } where
  buys := by
    intro row hrow
    obtain ⟨before, hbefore, rfl⟩ := List.mem_map.mp hrow
    have hsigner := h.buys before hbefore
    by_cases hown : before.txHash = monitor.currentSig
    · rw [if_pos hown]
      rw [hown, hmonitor] at hsigner
      show s.signerOf retrySig = some before.walletId
      rw [hretry, hsigner]
    · rw [if_neg hown]
      exact hsigner
  sales := by
    intro sale hsale
    rw [← h.sales sale hsale]
    show Option.map _ (s.rows.map _)[sale.1]? = Option.map _ s.rows[sale.1]?
    rw [List.getElem?_map, Option.map_map]
    congr 1
    funext row
    show BuyRow.walletId (if _ then _ else _) = _
    split <;> rfl
  filed := h.filed
  unrecorded := h.unrecorded
  monitors := forall_mem_set h.monitors hretry _

theorem retry (h : Traced s) {i : ℕ} {now : ℤ} {retrySig : String} {lands : Bool} {monitor : Monitor}
    (hmonitor : s.monitors[i]? = some monitor)
    (hright : lands = true → PrimaryFor s now monitor.config.userId monitor.config.walletId)
    (hstep : s.retry i now retrySig lands monitor = some s') : Traced s' := by
  unfold Desk.retry at hstep
  have hstore := h.sessions _ (h.filed.getSession now monitor.config.userId)
  cases hsession : (s.store.getSession now monitor.config.userId).1 with
  | none =>
    simp only [hsession] at hstep
    obtain rfl := Option.some.inj hstep
    exact hstore.monitorEnds i
  | some session =>
    simp only [hsession] at hstep
    obtain ⟨signed, hsign, rfl⟩ := Option.map_eq_some_iff.mp hstep
    have hsigned := hstore.sign hsign
    by_cases hlands : lands = true
    · simp only [hlands, if_true]
      apply hsigned.resent
      · exact signerOf_sign_of_some hsign (h.monitors monitor (List.mem_of_getElem? hmonitor))
      · rw [signerOf_sign hsign, hright hlands session hsession]
    · simp only [hlands]
      exact hsigned.monitorEnds i

/-- A sale is attributed if the session it takes is that of the row's wallet. -/
theorem sells (h : Traced s) {now : ℤ} {i : ℕ} {row : BuyRow} {walletId : Option String}
    (hrow : s.rows[i]? = some row)
    (hright : ∀ session ∈ (s.store.getSessionForWallet now row.userId walletId).1, session.walletId = row.walletId) :
    Traced (s.executeSell now i row.userId walletId) := by
  have hstore := h.sessions _ (h.filed.getSessionForWallet now row.userId walletId)
  refine { hstore with sales := ?_ }
  intro sale hsale
  obtain hsale | hsale := List.mem_append.mp hsale
  · exact h.sales sale hsale
  · obtain ⟨session, hsession, rfl⟩ := List.mem_map.mp hsale
    show Option.map _ s.rows[i]? = some session.keypair.owner
    rw [hrow, Option.map_some, session.owned, hright session (Option.mem_toList.mp hsession)]

/-- One step under `RightSession`. -/
theorem step {e : DeskEvent} (h : Traced s) (hright : RightSession s e) (hstep : desk.step s e = some s') :
    Traced s' := by
  cases e with
  | startSession now userId walletId =>
    obtain rfl := Option.some.inj hstep
    exact h.sessions (s.store.startSession now userId walletId) h.filed
  | stopSession userId =>
    obtain rfl := Option.some.inj hstep
    exact h.sessions (s.store.stopSession userId) h.filed
  | startBurstSessions now userId wallets =>
    obtain rfl := Option.some.inj hstep
    exact h.sessions _ (h.filed.startBurstSessions now userId wallets)
  | stopBurstSessions userId =>
    obtain rfl := Option.some.inj hstep
    exact h.sessions _ (h.filed.stopBurstSessions userId)
  | getBurstSessions now userId =>
    obtain rfl := Option.some.inj hstep
    exact { h.sessions _ (h.filed.getBurstSessions now userId) with }
  | cleanup now =>
    obtain rfl := Option.some.inj hstep
    exact h.sessions _ (h.filed.cleanup now)
  | execute now config sig => exact h.execute hright hstep
  | executeBurst i sig =>
    obtain ⟨⟨userId, session⟩, -, hstep⟩ := Option.bind_eq_some_iff.mp hstep
    exact h.executeBurst hstep
  | record i lands =>
    obtain ⟨sent, hsent, rfl⟩ := Option.map_eq_some_iff.mp hstep
    exact h.record hsent lands
  | retry i now retrySig lands =>
    obtain ⟨monitor, hmonitor, hstep⟩ := Option.bind_eq_some_iff.mp hstep
    exact h.retry hmonitor (fun hlands => hright hlands monitor hmonitor) hstep
  | monitorEnds i =>
    obtain rfl := Option.some.inj hstep
    exact h.monitorEnds i
  | sell now i =>
    obtain ⟨row, hrow, rfl⟩ := Option.map_eq_some_iff.mp hstep
    apply h.sells hrow
    intro session hsession
    obtain hwallet | hprimary := SessionStore.getSessionForWallet_cases h.filed hsession
    · exact (Option.some.inj hwallet).symm
    · exact hright row hrow (hsession.trans hprimary.symm) session hprimary
  | manualSell now i =>
    obtain ⟨row, hrow, rfl⟩ := Option.map_eq_some_iff.mp hstep
    apply h.sells hrow
    -- without a wallet, the session is the primary one
    exact hright row hrow

end Traced

/-- In a run where the primary session is that of the wallet wherever it signs, every transaction of a row,
every retry and every sale is signed by the wallet of the row. -/
theorem attributed {es : List DeskEvent} (h : desk.GuardedRun RightSession {} es s) : Attributed s :=
  (h.invariant (I := Traced) (fun _ _ _ hs hright hstep => hs.step hright hstep) traced_empty).toAttributed

/-- A user with a primary wallet and a burst wallet, a retry of the buy of the first and a sale of each. -/
theorem primary_and_burst_attributed : ∃ s, desk.run {}
    [.startSession 0 "user" "first", .startBurstSessions 0 "user" ["second"], .getBurstSessions 1 "user",
      .execute 2 ⟨"user", "first"⟩ "a", .executeBurst 0 "b", .record 0 true, .record 0 true, .retry 1 3 "c" true,
      .sell 4 1, .manualSell 5 0] = some s ∧ s.rows.length = 2 ∧ s.sales.length = 2 ∧ Attributed s := by
  have hrun : desk.GuardedRun RightSession {}
    [.startSession 0 "user" "first", .startBurstSessions 0 "user" ["second"], .getBurstSessions 1 "user",
      .execute 2 ⟨"user", "first"⟩ "a", .executeBurst 0 "b", .record 0 true, .record 0 true, .retry 1 3 "c" true,
      .sell 4 1, .manualSell 5 0] _ := .of_guardedRun (Option.eq_some_of_isSome (by decide +kernel))
  exact ⟨_, hrun.run, by decide +kernel, by decide +kernel, attributed hrun⟩

/-- The retry of a burst snipe is signed by the primary session. -/
theorem burst_retry_misattributed : ¬ ∀ es s, desk.run {} es = some s → Attributed s := by
  intro h
  have hrun := h [.startSession 0 "user" "first", .startBurstSessions 0 "user" ["second"],
    .getBurstSessions 1 "user", .executeBurst 0 "a", .record 0 true, .retry 0 2 "b" true] _
    (Option.eq_some_of_isSome (by decide +kernel))
  have hbuys := hrun.buys
  revert hbuys
  decide +kernel

end SuperAi.Snipe
