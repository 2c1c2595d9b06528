import SuperAi.Foundations.KeyValue

/-! # Hot sessions

`SnipeSessionService` (`snipe/snipe-session.service.ts`) keeps decrypted keys in memory: one primary session
per user, and one burst session per wallet of a user. A keypair is known here by the wallet whose key it
is. Connections, balances and the group cache are left out.
-/
namespace SuperAi.Snipe
open SuperAi.Foundations
set_option autoImplicit false

structure Keypair where
  owner : String
  deriving DecidableEq, Repr

/-- `WalletsService.withSigningKey`: the decrypted key of the wallet. -/
def withSigningKey (walletId : String) : Keypair := ⟨walletId⟩

structure HotSession where
  keypair : Keypair
  walletId : String
  expiresAt : ℤ
  owned : keypair.owner = walletId
  deriving DecidableEq

def SESSION_TTL_MS : ℤ := 3600000

def HotSession.arm (now : ℤ) (walletId : String) : HotSession :=
  ⟨withSigningKey walletId, walletId, now + SESSION_TTL_MS, rfl⟩

structure SessionStore where
  sessions : KeyValue String HotSession := []
  burstSessions : KeyValue String (KeyValue String HotSession) := []
  deriving DecidableEq

namespace SessionStore

def startSession (now : ℤ) (userId walletId : String) (store : SessionStore) : SessionStore :=
  { store with sessions := store.sessions.set userId (.arm now walletId) }

def stopSession (userId : String) (store : SessionStore) : SessionStore :=
  { store with sessions := store.sessions.del userId }

/-- A wallet with a live session keeps it. -/
def armWallet (now : ℤ) (map : KeyValue String HotSession) (walletId : String) : KeyValue String HotSession :=
  match (map.get walletId).filter (¬ ·.expiresAt < now) with
  | some _ => map
  | none => map.set walletId (.arm now walletId)

def startBurstSessions (now : ℤ) (userId : String) (wallets : List String) (store : SessionStore) : SessionStore :=
  { store with
    burstSessions := store.burstSessions.set userId
      (wallets.foldl (armWallet now) ((store.burstSessions.get userId).getD [])) }

def stopBurstSessions (userId : String) (store : SessionStore) : SessionStore :=
  { store with burstSessions := store.burstSessions.del userId }

/-- A session that has expired is deleted when it is asked for. -/
def getSession (now : ℤ) (userId : String) (store : SessionStore) : Option HotSession × SessionStore :=
  match store.sessions.get userId with
  | none => (none, store)
  | some s => if s.expiresAt < now then (none, store.stopSession userId) else (some s, store)

def getSessionForWallet (now : ℤ) (userId : String) (walletId : Option String) (store : SessionStore) :
    Option HotSession × SessionStore :=
  let burst := (walletId.filter (· ≠ "")).bind fun walletId =>
    ((store.burstSessions.get userId).bind (KeyValue.get · walletId)).filter (now < ·.expiresAt)
  match burst with
  | some s => (some s, store)
  | none => store.getSession now userId

def getBurstSessions (now : ℤ) (userId : String) (store : SessionStore) : List HotSession × SessionStore :=
  match store.burstSessions.get userId with
  | none => ([], store)
  | some map =>
    let live := map.filter fun entry => ¬ entry.2.expiresAt < now
    (live.map Prod.snd, { store with burstSessions := store.burstSessions.set userId live })

def cleanup (now : ℤ) (store : SessionStore) : SessionStore where
  sessions := store.sessions.filter fun entry => ¬ entry.2.expiresAt < now
  burstSessions := (store.burstSessions.map fun entry =>
    (entry.1, entry.2.filter fun e => ¬ e.2.expiresAt < now)).filter fun entry => entry.2 ≠ []

/-! ## Sessions under the key of their wallet -/

/-- Burst sessions are filed under their wallet. -/
def Filed (store : SessionStore) : Prop := ∀ entry ∈ store.burstSessions, ∀ e ∈ entry.2, e.2.walletId = e.1

variable {store : SessionStore} {now : ℤ} {userId : String}

theorem armWallet_filed {map : KeyValue String HotSession} (h : ∀ e ∈ map, e.2.walletId = e.1) (now : ℤ)
    (walletId : String) : ∀ e ∈ armWallet now map walletId, e.2.walletId = e.1 := by
  unfold armWallet
  split
  · exact h
  · intro e he
    obtain rfl | he := List.mem_cons.mp he
    · rfl
    · exact h e (KeyValue.mem_del he)

theorem Filed.startBurstSessions (h : store.Filed) (now : ℤ) (userId : String) (wallets : List String) :
    (store.startBurstSessions now userId wallets).Filed := by
  have hmap : ∀ e ∈ (store.burstSessions.get userId).getD [], e.2.walletId = e.1 := by
    cases hget : store.burstSessions.get userId with
    | none => exact nofun
    | some map => exact h _ (KeyValue.mem_of_get hget)
  have harmed : ∀ (map : KeyValue String HotSession), (∀ e ∈ map, e.2.walletId = e.1) →
      ∀ e ∈ wallets.foldl (armWallet now) map, e.2.walletId = e.1 := by
    induction wallets with
    | nil => exact fun _ hmap => hmap
    | cons walletId wallets ih => exact fun map hmap => ih _ (armWallet_filed hmap now walletId)
  intro entry hentry
  obtain rfl | hentry := List.mem_cons.mp hentry
  · exact harmed _ hmap
  · exact h entry (KeyValue.mem_del hentry)

theorem Filed.stopBurstSessions (h : store.Filed) (userId : String) : (store.stopBurstSessions userId).Filed :=
  fun entry hentry => h entry (KeyValue.mem_del hentry)

theorem getSession_burstSessions (now : ℤ) (userId : String) (store : SessionStore) :
    (store.getSession now userId).2.burstSessions = store.burstSessions := by
  unfold getSession
  split
  · rfl
  · split <;> rfl

theorem Filed.getSession (h : store.Filed) (now : ℤ) (userId : String) : (store.getSession now userId).2.Filed := by
  unfold Filed
  rw [getSession_burstSessions]
  exact h

theorem Filed.getSessionForWallet (h : store.Filed) (now : ℤ) (userId : String) (walletId : Option String) :
    (store.getSessionForWallet now userId walletId).2.Filed := by
  unfold SessionStore.getSessionForWallet
  simp only
  split
  · exact h
  · exact h.getSession now userId

theorem Filed.getBurstSessions (h : store.Filed) (now : ℤ) (userId : String) :
    (store.getBurstSessions now userId).2.Filed := by
  unfold SessionStore.getBurstSessions
  split
  · exact h
  · rename_i map hmap
    intro entry hentry
    obtain rfl | hentry := List.mem_cons.mp hentry
    · exact fun e he => h _ (KeyValue.mem_of_get hmap) e (List.mem_of_mem_filter he)
    · exact h entry (KeyValue.mem_del hentry)

theorem Filed.cleanup (h : store.Filed) (now : ℤ) : (store.cleanup now).Filed := by
  intro entry hentry e he
  obtain ⟨before, hbefore, rfl⟩ := List.mem_map.mp (List.mem_of_mem_filter hentry)
  exact h before hbefore e (List.mem_of_mem_filter he)

/-- The session for a wallet is that of the wallet, unless it is the primary one for want of it. -/
theorem getSessionForWallet_cases {walletId : Option String} {s : HotSession} (h : store.Filed)
    (hs : (store.getSessionForWallet now userId walletId).1 = some s) :
    walletId = some s.walletId ∨ (store.getSession now userId).1 = some s := by
  unfold SessionStore.getSessionForWallet at hs
  simp only at hs
  split at hs
  · rename_i burst hburst
    obtain rfl := Option.some.inj hs
    obtain ⟨w, hw, hfound⟩ := Option.bind_eq_some_iff.mp hburst
    obtain ⟨hfound, -⟩ := Option.filter_eq_some_iff.mp hfound
    obtain ⟨map, hmap, hget⟩ := Option.bind_eq_some_iff.mp hfound
    obtain ⟨hw, -⟩ := Option.filter_eq_some_iff.mp hw
    left
    rw [hw, h _ (KeyValue.mem_of_get hmap) _ (KeyValue.mem_of_get hget)]
  · exact .inr hs

end SessionStore
end SuperAi.Snipe
