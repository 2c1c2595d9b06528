import SuperAi.Auth.WalletVerifier
import SuperAi.ExitEngine.ExitEngineService
import Mathlib.Data.List.Dedup

/-! # The holder watcher

`HolderWatchService` (`exit-engine/holder-watch.service.ts`): the snapshots of the ten largest holders, the pending
signals, and a tick, which checks the tokens of open positions, those with the oldest snapshots first. What a tick
reads from outside (the rows in the order of the database, the answers of the RPC and the time they take) is the
step's input. A tick whose query fails checks nothing and is no step here.
-/
namespace SuperAi.ExitEngine
open SuperAi.Auth SuperAi.Foundations
set_option autoImplicit false

structure HolderConfig where
  BATCH : ℕ := 15
  LIVE_ONLY : Bool := false
  DUMP_DROP_PCT : ℚ := 35

structure HolderSnapshot where
  top10Sum : ℚ
  concentrationPct : ℚ
  ts : ℤ
  deriving DecidableEq, Repr

structure HolderSignal where
  reason : ExitReason
  ts : ℤ
  deriving DecidableEq, Repr

structure HolderWatch where
  snapshots : KeyValue String HolderSnapshot := []
  signals : KeyValue String HolderSignal := []
  deriving DecidableEq, Repr

/-- The two calls of one check. `largest` are the amounts of the largest accounts, `none` where the call fails. -/
structure RpcAnswer where
  largest : Option (List (Option ℚ))
  supply : Option ℚ
  deriving DecidableEq, Repr

/-- No accounts come back. -/
def RpcAnswer.failed (answer : RpcAnswer) : Bool := (answer.largest.getD []).isEmpty

def fetchSnapshot (answer : RpcAnswer) (now : ℤ) : Option HolderSnapshot :=
  let accounts := answer.largest.getD []
  if accounts.isEmpty then none
  else
    let top10Sum := ((accounts.take 10).map fun amount => amount.getD 0).sum
    let concentrationPct :=
      match answer.supply with
      | some supply => if 0 < supply then min 100 (top10Sum / supply * 100) else 0
      | none => 0
    some { top10Sum, concentrationPct, ts := now }

namespace HolderWatch

/-- Returns and clears the pending signal of a token. -/
def consumeSignal (w : HolderWatch) (token : String) : Option ExitReason × HolderWatch :=
  match w.signals.get token with
  | none => (none, w)
  | some sig => (some sig.reason, { w with signals := w.signals.del token })

def dropPct (prev snap : HolderSnapshot) : ℚ := (prev.top10Sum - snap.top10Sum) / prev.top10Sum * 100

/-- The first observation only seeds the baseline. -/
def isDump (cfg : HolderConfig) (prev : Option HolderSnapshot) (snap : HolderSnapshot) : Bool :=
  prev.any fun prev => decide (0 < prev.top10Sum ∧ cfg.DUMP_DROP_PCT ≤ dropPct prev snap)

def checkToken (cfg : HolderConfig) (w : HolderWatch) (token : String) (answer : RpcAnswer) (now : ℤ) : HolderWatch :=
  match fetchSnapshot answer now with
  | none => w
  | some snap =>
    { snapshots := w.snapshots.set token snap
      signals :=
        if isDump cfg (w.snapshots.get token) snap then w.signals.set token { reason := .insider_dump, ts := now }
        else w.signals }

/-- `snapshots.get(token)?.ts ?? 0` -/
def lastTs (w : HolderWatch) (token : String) : ℤ := ((w.snapshots.get token).map HolderSnapshot.ts).getD 0

def dueTokens (cfg : HolderConfig) (w : HolderWatch) (rows : List String) : List String :=
  (rows.insertionSort fun a b => w.lastTs a ≤ w.lastTs b).take cfg.BATCH

/-- One check after another, each with the time its answer takes; the watch and the clock after them. -/
def checkTokens (cfg : HolderConfig) (w : HolderWatch) (now : ℤ) : List (String × ℕ × RpcAnswer) → HolderWatch × ℤ
  | [] => (w, now)
  | (token, took, answer) :: checks => checkTokens cfg (w.checkToken cfg token answer (now + took)) (now + took) checks

end HolderWatch

/-! ## Ticks -/

inductive TradeSide
  | buy
  | sell
  deriving DecidableEq, Repr

/-- The columns of a trade that the query of the watcher looks at. -/
structure HolderTrade where
  side : TradeSide := .buy
  tokenOut : String
  chain : Chain := .SOLANA
  mode : TradeMode := .PAPER
  exitAt : Option ℤ := none
  sellStuck : Bool := false
  deriving DecidableEq, Repr

def HolderTrade.watched (cfg : HolderConfig) (trade : HolderTrade) : Bool :=
  trade.side == .buy && trade.exitAt.isNone && !trade.sellStuck && trade.chain == .SOLANA &&
    (!cfg.LIVE_ONLY || trade.mode == .LIVE)

/-- The distinct tokens of open positions. -/
def watchedTokens (cfg : HolderConfig) (trades : List HolderTrade) : List String :=
  ((trades.filter fun trade => trade.watched cfg).map HolderTrade.tokenOut).dedup

def TAKE : ℕ := 500

/-- `pause` is the time since the last tick, `rows` the answer of the database, `answers` those of the RPC. -/
structure HolderTick where
  pause : ℕ
  rows : List String
  answers : List (ℕ × RpcAnswer)

/-- The database answers the distinct tokens in any order, and no more than `TAKE`. -/
def HolderTick.Answers (tick : HolderTick) (tokens : List String) : Prop :=
  tick.rows.Nodup ∧ tick.rows ⊆ tokens ∧ tick.rows.length = min TAKE tokens.length

instance (tick : HolderTick) (tokens : List String) : Decidable (tick.Answers tokens) :=
  inferInstanceAs (Decidable (_ ∧ _ ∧ _))

structure HolderState where
  now : ℤ := 0
  trades : List HolderTrade := []
  watch : HolderWatch := {}

/-- `trades` says that the table has come to hold these rows, `consume` is a call of the exit engine. -/
inductive HolderEvent
  | trades (rows : List HolderTrade)
  | consume (token : String)
  | tick (tick : HolderTick)

def HolderState.due (cfg : HolderConfig) (s : HolderState) (tick : HolderTick) : List String :=
  s.watch.dueTokens cfg tick.rows

def HolderState.tick (cfg : HolderConfig) (s : HolderState) (tick : HolderTick) : HolderState :=
  let (watch, now) := s.watch.checkTokens cfg (s.now + tick.pause) ((s.due cfg tick).zip tick.answers)
  { s with watch, now }

def holderWatch (cfg : HolderConfig) : StepSystem HolderState HolderEvent where
  step s
    | .trades rows => some { s with trades := rows }
    | .consume token => some { s with watch := (s.watch.consumeSignal token).2 }
    | .tick tick =>
      if tick.Answers (watchedTokens cfg s.trades) ∧ tick.answers.length = (s.due cfg tick).length then
        some (s.tick cfg tick)
      else none

end SuperAi.ExitEngine
