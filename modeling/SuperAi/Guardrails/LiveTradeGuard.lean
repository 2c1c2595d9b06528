import SuperAi.Foundations.StepSystem
import SuperAi.Foundations.KeyValue
import SuperAi.Execution.Swap

/-! # The guard of live trades

`LiveTradeGuardService` (`common/live-trade-guard.service.ts`). A check of a buy hits the rate limiter
and then needs the number of the user's LIVE trades: it takes a cached one, or asks the database and
caches the answer when it arrives. What other calls do in the meantime are other steps.
-/
namespace SuperAi.Guardrails
open SuperAi.Foundations SuperAi.Execution
set_option autoImplicit false

def SWAP_WINDOW_MS : ℤ := 60000

def SWAP_MAX : ℕ := 10

def WITHDRAW_WINDOW_MS : ℤ := 3600000

def WITHDRAW_MAX : ℕ := 5

def FIRST_LIVE_TRADE_CAP_USD : ℚ := 100

def FIRST_LIVE_TRADE_COUNT : ℕ := 3

def CAP_CACHE_TTL_MS : ℤ := 60000

inductive RateKind
  | swap
  | withdraw
  deriving DecidableEq, Repr

/-- The errors of the guard with the data of their bodies; the messages are made of the same data. -/
inductive GuardError
  | first_live_trade_cap (capUsd : ℚ) (remaining : ℕ)
  | rate_limit (kind : RateKind) (limit : ℕ) (windowSec waitSec : ℤ)
  deriving DecidableEq, Repr

structure CapEntry where
  liveTradesSoFar : ℕ
  cachedAt : ℤ
  deriving DecidableEq, Repr

/-- The times in a user's bucket, oldest first. -/
abbrev Buckets := KeyValue String (List ℤ)

structure LiveTradeGuard where
  swapBuckets : Buckets := []
  withdrawBuckets : Buckets := []
  capCache : KeyValue String CapEntry := []
  deriving DecidableEq, Repr

/-! ## The rate limit -/

def bucketOf (buckets : Buckets) (userId : String) : List ℤ := (buckets.get userId).getD []

/-- `while (b.ts.length && b.ts[0] < now - windowMs) b.ts.shift()`. -/
def pruned (buckets : Buckets) (userId : String) (now windowMs : ℤ) : List ℤ :=
  (bucketOf buckets userId).dropWhile fun t => decide (t < now - windowMs)

/-- A bucket is pruned in place, also where the hit is refused. -/
def hitRate (buckets : Buckets) (userId : String) (now windowMs : ℤ) (limit : ℕ) (kind : RateKind) :
    Except GuardError Unit × Buckets :=
  let ts := pruned buckets userId now windowMs
  if limit ≤ ts.length then
    (.error (.rate_limit kind limit (windowMs / 1000) ((ts.headD 0 + windowMs - now + 999) / 1000)),
      buckets.set userId ts)
  else (.ok (), buckets.set userId (ts ++ [now]))

/-! ## The cap of the first trades -/

def LiveTradeGuard.cachedCount (guard : LiveTradeGuard) (userId : String) (now : ℤ) : Option ℕ :=
  ((guard.capCache.get userId).filter (now - ·.cachedAt < CAP_CACHE_TTL_MS)).map CapEntry.liveTradesSoFar

def checkCap (liveCount : ℕ) (notionalUsd : ℚ) : Except GuardError Unit :=
  if liveCount < FIRST_LIVE_TRADE_COUNT ∧ FIRST_LIVE_TRADE_CAP_USD < notionalUsd then
    .error (.first_live_trade_cap FIRST_LIVE_TRADE_CAP_USD (FIRST_LIVE_TRADE_COUNT - liveCount))
  else .ok ()

/-! ## Checks under way -/

/-- Where the check of a buy is: it has asked for the number of trades, or the database has counted
them and the answer is on its way. -/
inductive CheckPhase
  | count (userId : String) (notionalUsd : ℚ)
  | store (userId : String) (notionalUsd : ℚ) (count : ℕ)
  | ended
  deriving DecidableEq, Repr

/-- How far a check of a swap has come: it is over, or it waits for the number of trades. -/
inductive CheckAnswer
  | passed
  | refused (error : GuardError)
  | counting
  deriving DecidableEq, Repr

/-- A buy that has passed `checkLiveSwap`, with the number of the user's LIVE trades at that time. -/
structure PassedBuy where
  userId : String
  notionalUsd : ℚ
  recorded : ℕ
  deriving DecidableEq, Repr

/-- `liveTrades` has the user of each LIVE trade row. The hits are those that a rate limit let through. -/
structure GuardState where
  clock : ℤ
  liveTrades : List String := []
  guard : LiveTradeGuard := {}
  calls : List CheckPhase := []
  swapHits : List (String × ℤ) := []
  withdrawHits : List (String × ℤ) := []
  passed : List PassedBuy := []
  deriving DecidableEq, Repr

namespace GuardState

def setPhase (s : GuardState) (i : ℕ) (phase : CheckPhase) : GuardState :=
  { s with calls := s.calls.set i phase }

/-- The end of a buy check that knows the number of trades. -/
def finish (s : GuardState) (userId : String) (notionalUsd : ℚ) (liveCount : ℕ) : CheckAnswer × GuardState :=
  match checkCap liveCount notionalUsd with
  | .ok () => (.passed, { s with passed := s.passed ++ [⟨userId, notionalUsd, s.liveTrades.count userId⟩] })
  | .error e => (.refused e, s)

/-- `checkLiveSwap` up to its first wait. -/
def checkLiveSwap (s : GuardState) (userId : String) (notionalUsd : ℚ) (side : Option Side) :
    CheckAnswer × GuardState :=
  if side = some .sell then (.passed, s)
  else
    match hitRate s.guard.swapBuckets userId s.clock SWAP_WINDOW_MS SWAP_MAX .swap with
    | (.error e, buckets) => (.refused e, { s with guard.swapBuckets := buckets })
    | (.ok (), buckets) =>
      let s := { s with guard.swapBuckets := buckets, swapHits := s.swapHits ++ [(userId, s.clock)] }
      match s.guard.cachedCount userId s.clock with
      | some liveCount => s.finish userId notionalUsd liveCount
      | none => (.counting, { s with calls := s.calls ++ [.count userId notionalUsd] })

def checkLiveWithdraw (s : GuardState) (userId : String) : GuardState :=
  match hitRate s.guard.withdrawBuckets userId s.clock WITHDRAW_WINDOW_MS WITHDRAW_MAX .withdraw with
  | (.error _, buckets) => { s with guard.withdrawBuckets := buckets }
  | (.ok (), buckets) =>
    { s with guard.withdrawBuckets := buckets, withdrawHits := s.withdrawHits ++ [(userId, s.clock)] }

/-- The answer of the database arrives: it is cached, and the check ends. -/
def stored (s : GuardState) (i : ℕ) (userId : String) (notionalUsd : ℚ) (count : ℕ) : GuardState :=
  let s := { s with guard.capCache := s.guard.capCache.set userId ⟨count, s.clock⟩ }
  ((s.setPhase i .ended).finish userId notionalUsd count).2

end GuardState

/-- `counted i` is the count of call `i` in the database, `countFails i` its failure, `stored i` the
arrival of the answer, `record` the insertion of a LIVE trade row. -/
inductive GuardEvent
  | checkLiveSwap (userId : String) (notionalUsd : ℚ) (side : Option Side)
  | counted (i : ℕ)
  | countFails (i : ℕ)
  | stored (i : ℕ)
  | checkLiveWithdraw (userId : String)
  | invalidate (userId : String)
  | record (userId : String)
  deriving DecidableEq, Repr

def GuardState.stepAt (s : GuardState) : GuardEvent → Option GuardState
  | .checkLiveSwap userId notionalUsd side => some (s.checkLiveSwap userId notionalUsd side).2
  | .counted i =>
    s.calls[i]?.bind fun
      | .count userId notionalUsd =>
        some (s.setPhase i (.store userId notionalUsd (s.liveTrades.count userId)))
      | _ => none
  | .countFails i =>
    s.calls[i]?.bind fun
      | .count _ _ => some (s.setPhase i .ended)
      | _ => none
  | .stored i =>
    s.calls[i]?.bind fun
      | .store userId notionalUsd count => some (s.stored i userId notionalUsd count)
      | _ => none
  | .checkLiveWithdraw userId => some (s.checkLiveWithdraw userId)
  | .invalidate userId => some { s with guard.capCache := s.guard.capCache.del userId }
  | .record userId => some { s with liveTrades := s.liveTrades ++ [userId] }

/-- Each event carries its time; the clock does not go back. -/
def liveTradeGuard : StepSystem GuardState (ℤ × GuardEvent) where
  step s e := if s.clock ≤ e.1 then { s with clock := e.1 }.stepAt e.2 else none

end SuperAi.Guardrails
