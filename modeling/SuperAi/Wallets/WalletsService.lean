import SuperAi.Auth.WalletVerifier
import SuperAi.Foundations.StepSystem
import Mathlib.Data.List.Basic

/-! # Wallets of a user (`wallets/wallets.service.ts`)

`create`, `importWallet` and `setPrimary` at the granularity of single reads and transactions: a call is a
value of `WalletCall` that says what it does next, and `walletSystem` interleaves any number of calls. The
key of a new wallet and its encryption are drawn by the event that starts the call; the address of an
imported key is given by the libraries of the chains.
-/
namespace SuperAi.Wallets
open SuperAi.Auth SuperAi.Foundations
set_option autoImplicit false

/-- The columns of a wallet that `create` and `importWallet` set. -/
structure WalletData where
  userId : String
  chain : Chain
  address : String
  encryptedKey : String
  encryptedDek : String
  label : String
  isPrimary : Bool
  isImported : Bool
  backedUpAt : Option ℕ
  deriving DecidableEq, Repr

structure Wallet extends WalletData where
  id : ℕ
  deriving DecidableEq, Repr

structure WalletAudit where
  userId : String
  action : String
  target : String
  chain : Chain
  deriving DecidableEq, Repr

structure WalletDb where
  wallets : List Wallet := []
  auditLog : List WalletAudit := []
  nextId : ℕ := 0
  deriving DecidableEq, Repr

/-- `generateKeypair`, with the secret encrypted. -/
structure SealedKey where
  address : String
  encryptedKey : String
  encryptedDek : String
  deriving DecidableEq, Repr

/-- What the service reads from the environment, and the address of a private key. -/
structure WalletConfig where
  MAX_WALLETS_PER_USER : ℕ := 100
  addressOf : Chain → String → Option String

def WalletConfig.capReached (cfg : WalletConfig) : String :=
  "Wallet cap reached (" ++ toString cfg.MAX_WALLETS_PER_USER ++ ")"

/-- A call by what it does next; the last two have ended. -/
inductive WalletCall
  | create (userId : String) (chain : Chain) (label : Option String) (key : SealedKey)
  | createLabel (userId : String) (chain : Chain) (label : Option String) (key : SealedKey) (count : ℕ)
  | importWallet (userId : String) (chain : Chain) (rawKey : String) (label : Option String)
      (encryptedKey encryptedDek : String)
  | importExisting (count : ℕ) (data : WalletData)
  | insert (count : ℕ) (data : WalletData) (action : String)
  | insertAudit (data : WalletData) (action : String)
  | setPrimary (userId : String) (walletId : ℕ)
  | list (userId : String)
  | done
  | threw (message : String)
  deriving DecidableEq, Repr

namespace WalletDb

def count (db : WalletDb) (userId : String) : ℕ := db.wallets.countP fun w => w.userId = userId

def findAddress (db : WalletDb) (userId address : String) : Option Wallet :=
  db.wallets.find? fun w => w.userId == userId && w.address == address

def createWallet (db : WalletDb) (data : WalletData) : WalletDb :=
  { db with wallets := db.wallets ++ [{ toWalletData := data, id := db.nextId }], nextId := db.nextId + 1 }

/-- Both updates of the transaction: none of the user's wallets is primary, then the one with the id is. -/
def makePrimary (db : WalletDb) (userId : String) (walletId : ℕ) : WalletDb :=
  { db with
    wallets := (db.wallets.map fun w => if w.userId = userId then { w with isPrimary := false } else w).map
      fun w => if w.id = walletId then { w with isPrimary := true } else w }

end WalletDb

def defaultLabel (chain : Chain) (chainCount : ℕ) : String :=
  (match chain with
    | .SOLANA => "Solana"
    | .EVM => "EVM") ++ " Wallet " ++ toString (chainCount + 1)

def importLabel (chain : Chain) : String :=
  "Imported " ++
    match chain with
    | .SOLANA => "SOLANA"
    | .EVM => "EVM"

/-- The next operation of a call. -/
def advanceWallet (cfg : WalletConfig) (db : WalletDb) (now : ℕ) : WalletCall → Option (WalletDb × WalletCall)
  | .create userId chain label key =>
    if cfg.MAX_WALLETS_PER_USER ≤ db.count userId then some (db, .threw cfg.capReached)
    else some (db, .createLabel userId chain label key (db.count userId))
  | .createLabel userId chain label key count =>
    let chainCount := db.wallets.countP fun w => w.userId = userId ∧ w.chain = chain
    some (db, .insert count
      { userId, chain, address := key.address, encryptedKey := key.encryptedKey, encryptedDek := key.encryptedDek
        label := label.getD (defaultLabel chain chainCount), isPrimary := count == 0, isImported := false
        backedUpAt := none } "wallet.create")
  | .importWallet userId chain rawKey label encryptedKey encryptedDek =>
    if cfg.MAX_WALLETS_PER_USER ≤ db.count userId then some (db, .threw cfg.capReached)
    else
      match cfg.addressOf chain rawKey with
      | none => some (db, .threw "Invalid private key format")
      | some address =>
        some (db, .importExisting (db.count userId)
          { userId, chain, address, encryptedKey, encryptedDek, label := label.getD (importLabel chain)
            isPrimary := db.count userId == 0, isImported := true, backedUpAt := some now })
  | .importExisting count data =>
    match db.findAddress data.userId data.address with
    | some _ => some (db, .threw "This wallet is already in your account")
    | none => some (db, .insert count data "wallet.import")
  | .insert _ data action =>
    -- @@unique([userId, address])
    match db.findAddress data.userId data.address with
    | some _ => some (db, .threw "Unique constraint failed on the fields: (userId, address)")
    | none => some (db.createWallet data, .insertAudit data action)
  | .insertAudit data action =>
    some ({ db with auditLog := db.auditLog ++ [⟨data.userId, action, data.address, data.chain⟩] }, .done)
  | .setPrimary userId walletId =>
    if db.wallets.any fun w => w.id == walletId then some (db.makePrimary userId walletId, .list userId)
    else some (db, .threw "Record to update not found.")
  | .list _ => some (db, .done)
  | .done | .threw _ => none

/-! ## The service as a step system -/

structure WalletState where
  db : WalletDb := {}
  calls : List WalletCall := []
  deriving DecidableEq, Repr

inductive WalletEvent
  | create (userId : String) (chain : Chain) (label : Option String) (key : SealedKey)
  | importWallet (userId : String) (chain : Chain) (rawKey : String) (label : Option String)
      (encryptedKey encryptedDek : String)
  | setPrimary (userId : String) (walletId : ℕ)
  | op (call now : ℕ)
  | reject (call : ℕ)
  deriving DecidableEq, Repr

def WalletEvent.started : WalletEvent → Option WalletCall
  | create userId chain label key => some (.create userId chain label key)
  | importWallet userId chain rawKey label encryptedKey encryptedDek =>
    some (.importWallet userId chain rawKey label encryptedKey encryptedDek)
  | setPrimary userId walletId => some (.setPrimary userId walletId)
  | op _ _ | reject _ => none

def walletSystem (cfg : WalletConfig) : StepSystem WalletState WalletEvent where
  step s e :=
    match e with
    | .op i now => do
      let call ← s.calls[i]?
      let (db, call') ← advanceWallet cfg s.db now call
      some { db, calls := s.calls.set i call' }
    | .reject i => do
      let call ← s.calls[i]?
      let _ ← advanceWallet cfg s.db 0 call
      some { s with calls := s.calls.set i (.threw "database operation failed") }
    | e => e.started.map fun call => { s with calls := s.calls ++ [call] }

/-- What a step of a call can do: its next operation, or a rejection. -/
inductive WalletStep (cfg : WalletConfig) (db : WalletDb) (i : ℕ) (call : WalletCall) :
    WalletEvent → WalletDb → WalletCall → Prop
  | op {now : ℕ} {db' : WalletDb} {call' : WalletCall} (h : advanceWallet cfg db now call = some (db', call')) :
      WalletStep cfg db i call (.op i now) db' call'
  | reject {after : WalletDb × WalletCall} (h : advanceWallet cfg db 0 call = some after) :
      WalletStep cfg db i call (.reject i) db (.threw "database operation failed")

theorem wallet_step_cases {cfg : WalletConfig} {s s' : WalletState} {e : WalletEvent}
    (h : (walletSystem cfg).step s e = some s') :
    (∃ call, e.started = some call ∧ s' = { s with calls := s.calls ++ [call] }) ∨
      ∃ i call db' call', s.calls[i]? = some call ∧ WalletStep cfg s.db i call e db' call' ∧
        s' = { db := db', calls := s.calls.set i call' } := by
  cases e with
  | op i now =>
    simp only [walletSystem, Option.bind_eq_bind, Option.bind_eq_some_iff] at h
    obtain ⟨call, hcall, ⟨db', call'⟩, hadvance, hs⟩ := h
    exact .inr ⟨i, call, db', call', hcall, .op hadvance, (Option.some.inj hs).symm⟩
  | reject i =>
    simp only [walletSystem, Option.bind_eq_bind, Option.bind_eq_some_iff] at h
    obtain ⟨call, hcall, after, hadvance, hs⟩ := h
    exact .inr ⟨i, call, s.db, _, hcall, .reject hadvance, (Option.some.inj hs).symm⟩
  | _ => exact .inl ⟨_, rfl, (Option.some.inj h).symm⟩

/-- What the next operation of a call can do. -/
inductive Advances (cfg : WalletConfig) (db : WalletDb) (now : ℕ) : WalletCall → WalletDb → WalletCall → Prop
  | threw {call : WalletCall} {message : String} : Advances cfg db now call db (.threw message)
  | counted {userId : String} {chain : Chain} {label : Option String} {key : SealedKey}
      (hroom : db.count userId < cfg.MAX_WALLETS_PER_USER) :
      Advances cfg db now (.create userId chain label key) db (.createLabel userId chain label key (db.count userId))
  | labelled {userId : String} {chain : Chain} {label : Option String} {key : SealedKey} {count : ℕ}
      {data : WalletData} {action : String} (huser : data.userId = userId) (hprimary : data.isPrimary = (count == 0)) :
      Advances cfg db now (.createLabel userId chain label key count) db (.insert count data action)
  | imported {userId rawKey encryptedKey encryptedDek : String} {chain : Chain} {label : Option String}
      {data : WalletData} (hroom : db.count userId < cfg.MAX_WALLETS_PER_USER) (huser : data.userId = userId)
      (hprimary : data.isPrimary = (db.count userId == 0)) :
      Advances cfg db now (.importWallet userId chain rawKey label encryptedKey encryptedDek) db
        (.importExisting (db.count userId) data)
  | notThere {count : ℕ} {data : WalletData} {action : String} :
      Advances cfg db now (.importExisting count data) db (.insert count data action)
  | inserted {count : ℕ} {data : WalletData} {action : String} :
      Advances cfg db now (.insert count data action) (db.createWallet data) (.insertAudit data action)
  | audited {data : WalletData} {action : String} {db' : WalletDb} (hrows : db'.wallets = db.wallets)
      (hnext : db'.nextId = db.nextId) : Advances cfg db now (.insertAudit data action) db' .done
  | promoted {userId : String} {walletId : ℕ} (hthere : ∃ w ∈ db.wallets, w.id = walletId) :
      Advances cfg db now (.setPrimary userId walletId) (db.makePrimary userId walletId) (.list userId)
  | listed {userId : String} : Advances cfg db now (.list userId) db .done

theorem advance_cases {cfg : WalletConfig} {db db' : WalletDb} {now : ℕ} {call call' : WalletCall}
    (h : advanceWallet cfg db now call = some (db', call')) : Advances cfg db now call db' call' := by
  cases call with
  | create userId chain label key =>
    rw [advanceWallet] at h
    by_cases hcap : cfg.MAX_WALLETS_PER_USER ≤ db.count userId
    · rw [if_pos hcap] at h
      cases h
      exact .threw
    · rw [if_neg hcap] at h
      cases h
      exact .counted (Nat.lt_of_not_le hcap)
  | createLabel userId chain label key count =>
    cases h
    exact .labelled rfl rfl
  | importWallet userId chain rawKey label encryptedKey encryptedDek =>
    rw [advanceWallet] at h
    by_cases hcap : cfg.MAX_WALLETS_PER_USER ≤ db.count userId
    · rw [if_pos hcap] at h
      cases h
      exact .threw
    · rw [if_neg hcap] at h
      cases haddress : cfg.addressOf chain rawKey with
      | none =>
        rw [haddress] at h
        cases h
        exact .threw
      | some address =>
        rw [haddress] at h
        cases h
        exact .imported (Nat.lt_of_not_le hcap) rfl rfl
  | importExisting count data =>
    rw [advanceWallet] at h
    cases hfind : db.findAddress data.userId data.address with
    | none =>
      rw [hfind] at h
      cases h
      exact .notThere
    | some w =>
      rw [hfind] at h
      cases h
      exact .threw
  | insert count data action =>
    rw [advanceWallet] at h
    cases hfind : db.findAddress data.userId data.address with
    | none =>
      rw [hfind] at h
      cases h
      exact .inserted
    | some w =>
      rw [hfind] at h
      cases h
      exact .threw
  | insertAudit data action =>
    cases h
    exact .audited rfl rfl
  | setPrimary userId walletId =>
    rw [advanceWallet] at h
    by_cases hthere : (db.wallets.any fun w => w.id == walletId) = true
    · rw [if_pos hthere] at h
      cases h
      exact .promoted (by simpa using hthere)
    · rw [if_neg hthere] at h
      cases h
      exact .threw
  | list userId =>
    cases h
    exact .listed
  | done | threw => cases h

end SuperAi.Wallets
