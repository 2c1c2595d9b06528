import SuperAi.Foundations.StepSystem
import SuperAi.Snipe.SnipeSession

/-! # The keys of hot sessions

`SnipeSessionService` (`snipe/snipe-session.service.ts`) once more, now for what becomes of the secret keys: each
decryption makes a key of its own, and `secretKey.fill(0)` wipes it. The burst sessions of a user are in a map
object, which a call of `startBurstSessions` holds on to while it decrypts one wallet after another; what other calls
do to the user's sessions meanwhile are steps of their own.
-/
namespace SuperAi.Snipe
open SuperAi.Foundations
set_option autoImplicit false

/-- A session, known by the number of its key. -/
structure KeySession where
  key : ℕ
  expiresAt : ℤ
  deriving DecidableEq, Repr

/-- A call of `startBurstSessions` that has read the user's wallets: the map that it fills, the expiry of its
sessions, and what is left of the wallets; `decrypt` waits for the key of a wallet. -/
inductive BurstStart
  | arm (userId : String) (map : ℕ) (expiresAt : ℤ) (wallets : List String)
  | decrypt (userId : String) (map : ℕ) (expiresAt : ℤ) (walletId : String) (wallets : List String)
  | ended
  deriving DecidableEq, Repr

/-- `burstSessions` has the number of the user's map object. `stored` are the keys of the sessions that were ever put
into `sessions` or into a map object, `wiped` those that were filled with zeros. -/
structure KeyStore where
  clock : ℤ
  sessions : KeyValue String KeySession := []
  burstSessions : KeyValue String ℕ := []
  maps : List (KeyValue String KeySession) := []
  starts : List BurstStart := []
  stored : List ℕ := []
  wiped : List ℕ := []
  deriving DecidableEq, Repr

namespace KeyStore

def setStart (s : KeyStore) (i : ℕ) (start : BurstStart) : KeyStore := { s with starts := s.starts.set i start }

/-- The user's map object, if there is one. -/
def burstMap (s : KeyStore) (userId : String) : Option (KeyValue String KeySession) :=
  (s.burstSessions.get userId).bind fun map => s.maps[map]?

/-- The end of `startSession`: the key has been decrypted. -/
def startSession (s : KeyStore) (userId : String) : KeyStore :=
  { s with
    sessions := s.sessions.set userId ⟨s.stored.length, s.clock + SESSION_TTL_MS⟩
    stored := s.stored ++ [s.stored.length] }

def stopSession (s : KeyStore) (userId : String) : KeyStore :=
  match s.sessions.get userId with
  | none => s
  | some session => { s with sessions := s.sessions.del userId, wiped := s.wiped ++ [session.key] }

/-- A session that has expired is deleted when it is asked for. -/
def getSession (s : KeyStore) (userId : String) : KeyStore :=
  match s.sessions.get userId with
  | none => s
  | some session => if session.expiresAt < s.clock then { s with sessions := s.sessions.del userId } else s

/-- `startBurstSessions`, once it has read the wallets. -/
def startBurst (s : KeyStore) (userId : String) (wallets : List String) : KeyStore :=
  match s.burstSessions.get userId with
  | some map => { s with starts := s.starts ++ [.arm userId map (s.clock + SESSION_TTL_MS) wallets] }
  | none =>
    { s with
      burstSessions := s.burstSessions.set userId s.maps.length
      maps := s.maps ++ [[]]
      starts := s.starts ++ [.arm userId s.maps.length (s.clock + SESSION_TTL_MS) wallets] }

/-- A wallet with a live session is left as it is. -/
def armNext (s : KeyStore) (i : ℕ) (userId : String) (map : ℕ) (expiresAt : ℤ) (walletId : String)
    (wallets : List String) : KeyStore :=
  match (s.maps[map]?.bind (KeyValue.get · walletId)).filter (¬ ·.expiresAt < s.clock) with
  | some _ => s.setStart i (.arm userId map expiresAt wallets)
  | none => s.setStart i (.decrypt userId map expiresAt walletId wallets)

/-- `map.set(w.id, session)` with the key that has been decrypted. -/
def decrypted (s : KeyStore) (i : ℕ) (userId : String) (map : ℕ) (entries : KeyValue String KeySession)
    (expiresAt : ℤ) (walletId : String) (wallets : List String) : KeyStore :=
  { s.setStart i (.arm userId map expiresAt wallets) with
    maps := s.maps.set map (entries.set walletId ⟨s.stored.length, expiresAt⟩)
    stored := s.stored ++ [s.stored.length] }

def keys (map : KeyValue String KeySession) : List ℕ := map.map fun entry => entry.2.key

def stopBurstSessions (s : KeyStore) (userId : String) : KeyStore :=
  match s.burstMap userId with
  | none => s
  | some map => { s with burstSessions := s.burstSessions.del userId, wiped := s.wiped ++ keys map }

def hasExpired (s : KeyStore) (entry : String × KeySession) : Bool := decide (entry.2.expiresAt < s.clock)

/-- The sessions of the user's map that have expired are wiped and deleted. -/
def getBurstSessions (s : KeyStore) (userId : String) : KeyStore :=
  match s.burstSessions.get userId with
  | none => s
  | some map =>
    match s.maps[map]? with
    | none => s
    | some entries =>
      { s with
        maps := s.maps.set map (entries.filter fun entry => !s.hasExpired entry)
        wiped := s.wiped ++ keys (entries.filter s.hasExpired) }

def dropEmpty (s : KeyStore) (userId : String) : KeyStore :=
  if s.burstMap userId = some [] then { s with burstSessions := s.burstSessions.del userId } else s

/-- `cleanup`; a map that it has emptied is dropped. -/
def cleanup (s : KeyStore) : KeyStore :=
  let swept := { s with
    sessions := s.sessions.filter fun entry => !s.hasExpired entry
    wiped := s.wiped ++ keys (s.sessions.filter s.hasExpired) }
  (s.burstSessions.map Prod.fst).foldl (fun s userId => (s.getBurstSessions userId).dropEmpty userId) swept

/-- `onModuleDestroy`. -/
def destroy (s : KeyStore) : KeyStore :=
  { s with
    sessions := []
    burstSessions := []
    wiped := s.wiped ++ s.burstSessions.flatMap fun entry => keys (s.maps[entry.2]?.getD []) }

end KeyStore

/-- `armNext i` looks at the next wallet of a start, `decrypted i` and `decryptFails i` are the answers that it waits
for. -/
inductive KeyEvent
  | startSession (userId : String)
  | stopSession (userId : String)
  | getSession (userId : String)
  | startBurst (userId : String) (wallets : List String)
  | armNext (i : ℕ)
  | decrypted (i : ℕ)
  | decryptFails (i : ℕ)
  | stopBurstSessions (userId : String)
  | getBurstSessions (userId : String)
  | cleanup
  | destroy
  deriving DecidableEq, Repr

def KeyStore.stepAt (s : KeyStore) : KeyEvent → Option KeyStore
  | .startSession userId => some (s.startSession userId)
  | .stopSession userId => some (s.stopSession userId)
  | .getSession userId => some (s.getSession userId)
  | .startBurst userId wallets => if wallets = [] then none else some (s.startBurst userId wallets)
  | .armNext i =>
    s.starts[i]?.bind fun
      | .arm userId map expiresAt (walletId :: wallets) => some (s.armNext i userId map expiresAt walletId wallets)
      | .arm _ _ _ [] => some (s.setStart i .ended)
      | _ => none
  | .decrypted i =>
    s.starts[i]?.bind fun
      | .decrypt userId map expiresAt walletId wallets =>
        s.maps[map]?.map fun entries => s.decrypted i userId map entries expiresAt walletId wallets
      | _ => none
  | .decryptFails i =>
    s.starts[i]?.bind fun
      | .decrypt .. => some (s.setStart i .ended)
      | _ => none
  | .stopBurstSessions userId => some (s.stopBurstSessions userId)
  | .getBurstSessions userId => some (s.getBurstSessions userId)
  | .cleanup => some s.cleanup
  | .destroy => some s.destroy

/-- Each event carries its time; the clock does not go back. -/
def sessionKeys : StepSystem KeyStore (ℤ × KeyEvent) where
  step s e := if s.clock ≤ e.1 then { s with clock := e.1 }.stepAt e.2 else none

end SuperAi.Snipe
