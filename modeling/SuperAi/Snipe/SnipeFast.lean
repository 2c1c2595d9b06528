import Mathlib.Data.Int.Notation
import SuperAi.Foundations.StepSystem

/-! # Fast snipes

`SnipeFastService.execute` (`snipe/snipe-fast.service.ts`) buys a token once per user and mint: a lock in
memory covers a call up to the record of its broadcast, and a query for a row in status confirmed or broadcast
covers what comes after. `monitorWithRetry` polls for ten seconds, sends again after a slippage failure, and
marks the row failed for all else. Each await is a step of its own: it returns, or it throws. Signatures are
not repeated, so a row is found by the ones of its own snipe only; they are numbered here within the snipe.
-/
namespace SuperAi.Snipe
open SuperAi.Foundations
set_option autoImplicit false

/-- What the chain makes of a transaction that is broadcast. -/
inductive TxFate
  | pending
  | succeeded
  | slippage
  | failed
  deriving DecidableEq, Repr

structure BuyTx where
  sentAt : ℤ
  fate : TxFate := .pending
  deriving DecidableEq, Repr

def BLOCKHASH_VALIDITY_MS : ℤ := 60000

/-- It has bought, or it can still land. -/
def BuyTx.MayBuy (now : ℤ) (tx : BuyTx) : Prop :=
  tx.fate = .succeeded ∨ tx.fate = .pending ∧ now ≤ tx.sentAt + BLOCKHASH_VALIDITY_MS

inductive BuyStatus
  | broadcast
  | confirmed
  | failed
  deriving DecidableEq, Repr

/-- A `SnipeTrade` row; user and mint are those of its snipe. -/
structure SnipeTradeRow where
  txHash : Option ℕ
  status : BuyStatus
  createdAt : ℤ
  deriving DecidableEq, Repr

/-- Where a call of `execute`, and then its monitor, waits. -/
inductive SnipeStage
  /-- Guard 2. -/
  | querying
  /-- The priority fee, the quotes and the swaps. -/
  | building
  | sending (sig0 : ℕ)
  | recording (sig0 : ℕ)
  /-- `recordTrade` after an error. -/
  | noting
  /-- `waitForStatus`. -/
  | waiting (currentSig attempt : ℕ) (since : ℤ)
  | confirming (currentSig : ℕ)
  /-- The query for `alreadyDone`. -/
  | checking (currentSig attempt : ℕ)
  | rebuilding (currentSig attempt : ℕ)
  | resending (currentSig attempt retrySig : ℕ)
  | updating (currentSig attempt retrySig : ℕ)
  /-- `markFailed`. -/
  | failing (currentSig : ℕ)
  | ended
  deriving DecidableEq, Repr

/-- The lock is held. -/
def SnipeStage.locked : SnipeStage → Bool
  | .querying | .building | .sending _ | .recording _ => true
  | _ => false

def CONFIRM_TIMEOUT_MS : ℤ := 10000
def MAX_TOTAL_ATTEMPTS : ℕ := 6

structure FastSnipe where
  userId : String
  mint : String
  startedAt : ℤ
  stage : SnipeStage := .querying
  txs : List BuyTx := []
  row : Option SnipeTradeRow := none
  deriving DecidableEq, Repr

inductive SnipeStep
  /-- A transaction lands. -/
  | lands (sig : ℕ) (fate : TxFate)
  /-- There is no hot session. -/
  | noSession
  /-- A transaction reaches the network. -/
  | sends
  | returns
  | throws
  | timesOut
  deriving DecidableEq, Repr

namespace FastSnipe

def lockKey (n : FastSnipe) : String := n.userId ++ ":" ++ n.mint

/-- `updateMany` of the row with a signature. -/
def updateRow (sig : ℕ) (f : SnipeTradeRow → SnipeTradeRow) (n : FastSnipe) : FastSnipe :=
  { n with row := n.row.map fun row => if row.txHash = some sig then f row else row }

def land (now : ℤ) (sig : ℕ) (fate : TxFate) (n : FastSnipe) : Option FastSnipe :=
  n.txs[sig]?.bind fun tx =>
    if tx.fate = .pending ∧ fate ≠ .pending ∧ now ≤ tx.sentAt + BLOCKHASH_VALIDITY_MS then
      some { n with txs := n.txs.set sig { tx with fate := fate } }
    else none

def sends (now : ℤ) (n : FastSnipe) : Option FastSnipe :=
  let sig := n.txs.length
  let txs := n.txs ++ [{ sentAt := now }]
  match n.stage with
  | .building => some { n with stage := .sending sig, txs := txs }
  | .rebuilding currentSig attempt => some { n with stage := .resending currentSig attempt sig, txs := txs }
  | _ => none

/-- What `waitForStatus` and the branches after it make of a status. -/
def polled (currentSig attempt : ℕ) : TxFate → Option SnipeStage
  | .pending => none
  | .succeeded => some (.confirming currentSig)
  | .slippage => some (.checking currentSig attempt)
  | .failed => some (.failing currentSig)

def returns (now : ℤ) (existingBuy alreadyDone : Bool) (n : FastSnipe) : Option FastSnipe :=
  match n.stage with
  | .querying => some { n with stage := if existingBuy then .ended else .building }
  | .building => none
  | .sending sig0 => some { n with stage := .recording sig0 }
  | .recording sig0 => some { n with stage := .waiting sig0 0 now, row := some ⟨some sig0, .broadcast, now⟩ }
  | .noting => some { n with stage := .ended, row := some ⟨none, .failed, now⟩ }
  | .waiting currentSig attempt _ =>
    n.txs[currentSig]?.bind fun tx => (polled currentSig attempt tx.fate).map fun stage => { n with stage := stage }
  | .confirming currentSig =>
    some { n.updateRow currentSig fun row =>
      if row.status = .broadcast then { row with status := .confirmed } else row with stage := .ended }
  | .checking currentSig attempt =>
    some { n with stage :=
      if alreadyDone || MAX_TOTAL_ATTEMPTS ≤ attempt + 1 then .failing currentSig else .rebuilding currentSig attempt }
  | .rebuilding _ _ => none
  | .resending currentSig attempt retrySig => some { n with stage := .updating currentSig attempt retrySig }
  | .updating currentSig attempt retrySig =>
    some { n.updateRow currentSig fun row =>
      { row with txHash := some retrySig, status := .broadcast } with stage := .waiting retrySig (attempt + 1) now }
  | .failing currentSig =>
    some { n.updateRow currentSig fun row =>
      if row.status = .broadcast then { row with status := .failed } else row with stage := .ended }
  | .ended => none

/-- Where an error leads; one that no one catches ends the call or crashes the monitor. -/
def thrown : SnipeStage → Option SnipeStage
  | .querying => some .ended
  | .building | .sending _ | .recording _ => some .noting
  | .noting => some .ended
  | .waiting _ _ _ => none
  | .confirming _ | .checking _ _ => some .ended
  | .rebuilding currentSig _ | .resending currentSig _ _ => some (.failing currentSig)
  | .updating _ _ _ => some .ended
  | .failing _ => some .ended
  | .ended => none

def timesOut (now : ℤ) (n : FastSnipe) : Option FastSnipe :=
  match n.stage with
  | .waiting currentSig _ since =>
    if since + CONFIRM_TIMEOUT_MS ≤ now then some { n with stage := .failing currentSig } else none
  | _ => none

/-- A step of one snipe, with what its queries would find. -/
def step (now : ℤ) (existingBuy alreadyDone : Bool) (n : FastSnipe) : SnipeStep → Option FastSnipe
  | .lands sig fate => n.land now sig fate
  | .noSession => if n.stage = .querying then some { n with stage := .ended } else none
  | .sends => n.sends now
  | .returns => n.returns now existingBuy alreadyDone
  | .throws => (thrown n.stage).map fun stage => { n with stage := stage }
  | .timesOut => n.timesOut now

end FastSnipe

/-- The service, with the clock. -/
structure SnipeFast where
  now : ℤ := 0
  execLock : List String := []
  snipes : List FastSnipe := []
  deriving DecidableEq, Repr

namespace SnipeFast

/-- Guard 2: a buy of the last five minutes that is confirmed or broadcast. -/
def existingBuy (n : FastSnipe) (s : SnipeFast) : Bool :=
  s.snipes.any fun m => m.userId = n.userId ∧ m.mint = n.mint ∧
    m.row.any fun row => (row.status = .confirmed ∨ row.status = .broadcast) ∧ n.startedAt - 300000 ≤ row.createdAt

def alreadyDone (n : FastSnipe) (s : SnipeFast) : Bool :=
  s.snipes.any fun m => m.userId = n.userId ∧ m.mint = n.mint ∧ m.row.any fun row => row.status = .confirmed

/-- A call that finds the lock taken is over at once. -/
def execute (userId mint : String) (s : SnipeFast) : SnipeFast :=
  let n : FastSnipe := { userId, mint, startedAt := s.now }
  if n.lockKey ∈ s.execLock then s
  else { s with execLock := n.lockKey :: s.execLock, snipes := s.snipes ++ [n] }

/-- A snipe gets on; `finally` takes the key out of the lock. -/
def advance (i : ℕ) (n n' : FastSnipe) (s : SnipeFast) : SnipeFast :=
  { s with
    snipes := s.snipes.set i n'
    execLock := if n.stage.locked && !n'.stage.locked then s.execLock.filter (· ≠ n.lockKey) else s.execLock }

end SnipeFast

inductive SnipeEvent
  | wait (ms : ℕ)
  | execute (userId mint : String)
  | step (i : ℕ) (e : SnipeStep)
  deriving DecidableEq, Repr

def snipeFast : StepSystem SnipeFast SnipeEvent where
  step s
    | .wait ms => some { s with now := s.now + ms }
    | .execute userId mint => some (s.execute userId mint)
    | .step i e => s.snipes[i]?.bind fun n =>
      (n.step s.now (s.existingBuy n) (s.alreadyDone n) e).map fun n' => s.advance i n n'

end SuperAi.Snipe
