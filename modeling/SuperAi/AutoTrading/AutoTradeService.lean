import SuperAi.Auth.WalletVerifier
import SuperAi.Foundations.KeyValue
import SuperAi.Foundations.StepSystem
import Mathlib.Data.Rat.Floor

/-! # The auto-trade book

`AutoTradeService` (`auto-trade/auto-trade.service.ts`) over the tables `AutoPortfolio`, `AutoPosition` and
`AutoTrade` of `schema.prisma`. A call is a list of single reads and transactions; the calls of any number of users
interleave between them. Amounts are exact.
-/
namespace SuperAi.AutoTrading
open SuperAi.Auth SuperAi.Foundations
set_option autoImplicit false

/-! ## Profiles (`token-analysis/profile.config.ts`) -/

structure ProfileStrategy where
  stopLossPct : ℚ
  targets : List ℚ
  maxHoldMs : ℚ
  deriving DecidableEq, Repr

def meme_hunter : ProfileStrategy := ⟨20, [3 / 2, 5 / 2, 5], 14400000⟩

def PROFILES : List (String × ProfileStrategy) :=
  [("meme_hunter", meme_hunter),
    ("degen_sniper", ⟨25, [2, 5, 20], 1800000⟩),
    ("swing_trader", ⟨12, [5 / 4, 3 / 2, 5 / 2], 1209600000⟩),
    ("gem_hunt", ⟨20, [2, 4, 10], 7257600000⟩),
    ("alpha_hunt", ⟨18, [3 / 2, 3, 6], 604800000⟩)]

def resolveProfile (key : String) : ProfileStrategy := (PROFILES.lookup key).getD meme_hunter

/-! ## Rows -/

structure OpenAutoPositionInput where
  userId : String
  tokenAddress : String
  symbol : Option String := none
  name : Option String := none
  chain : Option Chain := none
  profileKey : String := "meme_hunter"
  source : Option String := none
  entryPriceUsd : ℚ
  sizeUsd : ℚ
  scoreAtEntry : ℤ := 0
  verdictAtEntry : String := "MANUAL"
  scoreBreakdown : Option String := none
  takeProfit1Pct : Option ℚ := none
  takeProfit2Pct : Option ℚ := none
  stopLossPct : Option ℚ := none
  maxHoldMinutes : Option ℚ := none
  deriving DecidableEq, Repr

/-- The defaults of the schema are those of a portfolio that is created. -/
structure AutoPortfolio where
  currentBalanceUsd : ℚ := 100000
  realizedPnlUsd : ℚ := 0
  totalTrades : ℕ := 0
  winCount : ℕ := 0
  lossCount : ℕ := 0
  autoEnabled : Bool := false
  takeProfit1Pct : Option ℚ := none
  takeProfit2Pct : Option ℚ := none
  stopLossPct : Option ℚ := none
  maxHoldMinutes : Option ℚ := none
  resetAt : ℤ
  lastTradeAt : Option ℤ := none
  deriving DecidableEq, Repr

structure AutoPosition where
  id : ℕ
  userId : String
  tokenAddress : String
  symbol : Option String
  name : Option String
  chain : Chain
  profileKey : String
  source : String
  openedAt : ℤ
  entryPriceUsd : ℚ
  sizeUsd : ℚ
  tokenAmount : ℚ
  takeProfit1PriceUsd : ℚ
  takeProfit2PriceUsd : ℚ
  stopLossPriceUsd : ℚ
  maxHoldMs : ℚ
  scoreAtEntry : ℤ
  verdictAtEntry : String
  scoreBreakdownJson : Option String
  deriving DecidableEq, Repr

inductive AutoExitReason
  | TP1
  | TP2
  | STOP_LOSS
  | MAX_HOLD
  | MANUAL
  | RUG
  deriving DecidableEq, Repr

structure CloseDecision where
  reason : AutoExitReason
  exitPriceUsd : ℚ
  deriving DecidableEq, Repr

structure AutoTrade where
  userId : String
  tokenAddress : String
  symbol : Option String
  name : Option String
  chain : Chain
  profileKey : String
  source : String
  openedAt : ℤ
  holdMs : ℤ
  entryPriceUsd : ℚ
  exitPriceUsd : ℚ
  sizeUsd : ℚ
  tokenAmount : ℚ
  pnlUsd : ℚ
  pnlPct : ℚ
  exitReason : AutoExitReason
  scoreAtEntry : ℤ
  verdictAtEntry : String
  scoreBreakdownJson : Option String
  deriving DecidableEq, Repr

/-- The row that `openPosition` creates; the exits are the input's, else the portfolio's, else the profile's. -/
def newPosition (input : OpenAutoPositionInput) (portfolio : AutoPortfolio) (id : ℕ) (now : ℤ) : AutoPosition :=
  let strat := resolveProfile input.profileKey
  let mult (pct : ℚ) : ℚ := 1 + pct / 100
  let t1Mult := ((input.takeProfit1Pct.or portfolio.takeProfit1Pct).map mult).getD (strat.targets[0]?.getD (3 / 2))
  let t2Mult := ((input.takeProfit2Pct.or portfolio.takeProfit2Pct).map mult).getD
    ((strat.targets[1]?.or strat.targets[0]?).getD (5 / 2))
  let slPct := (input.stopLossPct.or portfolio.stopLossPct).getD strat.stopLossPct
  { id
    userId := input.userId
    tokenAddress := input.tokenAddress
    symbol := input.symbol
    name := input.name
    chain := input.chain.getD .SOLANA
    profileKey := input.profileKey
    source := input.source.getD "auto_picker"
    openedAt := now
    entryPriceUsd := input.entryPriceUsd
    sizeUsd := input.sizeUsd
    tokenAmount := input.sizeUsd / input.entryPriceUsd
    takeProfit1PriceUsd := input.entryPriceUsd * t1Mult
    takeProfit2PriceUsd := input.entryPriceUsd * t2Mult
    stopLossPriceUsd := input.entryPriceUsd * (1 - slPct / 100)
    maxHoldMs := ((input.maxHoldMinutes.or portfolio.maxHoldMinutes).map (· * 60000)).getD strat.maxHoldMs
    scoreAtEntry := input.scoreAtEntry
    verdictAtEntry := input.verdictAtEntry
    scoreBreakdownJson := input.scoreBreakdown }

/-- The row that `closePosition` creates. -/
def closedTrade (position : AutoPosition) (decision : CloseDecision) (now : ℤ) : AutoTrade where
  userId := position.userId
  tokenAddress := position.tokenAddress
  symbol := position.symbol
  name := position.name
  chain := position.chain
  profileKey := position.profileKey
  source := position.source
  openedAt := position.openedAt
  holdMs := now - position.openedAt
  entryPriceUsd := position.entryPriceUsd
  exitPriceUsd := decision.exitPriceUsd
  sizeUsd := position.sizeUsd
  tokenAmount := position.tokenAmount
  pnlUsd := (decision.exitPriceUsd - position.entryPriceUsd) * position.tokenAmount
  pnlPct := (decision.exitPriceUsd / position.entryPriceUsd - 1) * 100
  exitReason := decision.reason
  scoreAtEntry := position.scoreAtEntry
  verdictAtEntry := position.verdictAtEntry
  scoreBreakdownJson := position.scoreBreakdownJson

abbrev AutoTrade.isWin (trade : AutoTrade) : Prop := 0 < trade.pnlUsd

/-! ## Tables -/

/-- The open positions, one for each user and token. -/
structure PositionTable where
  rows : List AutoPosition := []
  nextId : ℕ := 0
  fresh : ∀ p ∈ rows, p.id < nextId := by simp
  nodup : (rows.map AutoPosition.id).Nodup := by simp
  unique : (rows.map fun p => (p.userId, p.tokenAddress)).Nodup := by simp

namespace PositionTable

def find (t : PositionTable) (id : ℕ) : Option AutoPosition := t.rows.find? fun p => p.id = id

def findToken (t : PositionTable) (userId tokenAddress : String) : Option AutoPosition :=
  t.rows.find? fun p => (p.userId, p.tokenAddress) = (userId, tokenAddress)

/-- Nothing is inserted when there is a row of the user and the token. -/
def insert (t : PositionTable) (input : OpenAutoPositionInput) (portfolio : AutoPortfolio) (now : ℤ) :
    Option PositionTable :=
  if h : (input.userId, input.tokenAddress) ∈ t.rows.map fun p => (p.userId, p.tokenAddress) then none
  else some
    { rows := newPosition input portfolio t.nextId now :: t.rows
      nextId := t.nextId + 1
      fresh := List.forall_mem_cons.mpr ⟨Nat.lt_succ_self _, fun p hp => Nat.lt_succ_of_lt (t.fresh p hp)⟩
      nodup := by
        refine List.nodup_cons.mpr ⟨fun hmem => ?_, t.nodup⟩
        obtain ⟨p, hp, hid⟩ := List.mem_map.mp hmem
        exact absurd (t.fresh p hp) (by rw [hid]; exact lt_irrefl _)
      unique := List.nodup_cons.mpr ⟨h, t.unique⟩ }

def keep (t : PositionTable) (p : AutoPosition → Bool) : PositionTable where
  rows := t.rows.filter p
  nextId := t.nextId
  fresh q hq := t.fresh q (List.mem_of_mem_filter hq)
  nodup := (List.filter_sublist.map AutoPosition.id).nodup t.nodup
  unique := (List.filter_sublist.map _).nodup t.unique

/-- `delete`; none when there is no such row. -/
def delete (t : PositionTable) (id : ℕ) : Option PositionTable :=
  if (t.find id).isSome then some (t.keep fun p => p.id ≠ id) else none

/-- `deleteMany`. -/
def deleteUser (t : PositionTable) (userId : String) : PositionTable := t.keep fun p => p.userId ≠ userId

end PositionTable

structure AutoBook where
  portfolios : KeyValue String AutoPortfolio := []
  positions : PositionTable := {}
  trades : List AutoTrade := []

namespace AutoBook

/-- `create: { userId }`; none when there is one. -/
def createPortfolio (b : AutoBook) (userId : String) (now : ℤ) : Option (AutoPortfolio × AutoBook) :=
  if (b.portfolios.get userId).isSome then none
  else
    let portfolio : AutoPortfolio := { resetAt := now }
    some (portfolio, { b with portfolios := b.portfolios.set userId portfolio })

inductive TxError
  | uniqueViolation
  | recordNotFound
  deriving DecidableEq, Repr

/-- The transaction of `openPosition`, with the portfolio that was read before. -/
def openTx (b : AutoBook) (input : OpenAutoPositionInput) (portfolio : AutoPortfolio) (now : ℤ) :
    Except TxError AutoBook :=
  match b.positions.insert input portfolio now with
  | none => .error .uniqueViolation
  | some positions =>
    match b.portfolios.get input.userId with
    | none => .error .recordNotFound
    | some fresh =>
      .ok { b with
        positions
        portfolios := b.portfolios.set input.userId
          { fresh with currentBalanceUsd := fresh.currentBalanceUsd - input.sizeUsd } }

/-- What a trade adds to the portfolio. -/
def book (portfolio : AutoPortfolio) (trade : AutoTrade) (now : ℤ) : AutoPortfolio :=
  { portfolio with
    currentBalanceUsd := portfolio.currentBalanceUsd + (trade.sizeUsd + trade.pnlUsd)
    realizedPnlUsd := portfolio.realizedPnlUsd + trade.pnlUsd
    totalTrades := portfolio.totalTrades + 1
    winCount := portfolio.winCount + if trade.isWin then 1 else 0
    lossCount := portfolio.lossCount + if trade.isWin then 0 else 1
    lastTradeAt := some now }

/-- The transaction of `closePosition`, with the position that was read before. -/
def closeTx (b : AutoBook) (position : AutoPosition) (trade : AutoTrade) (now : ℤ) : Except TxError AutoBook :=
  match b.positions.delete position.id with
  | none => .error .recordNotFound
  | some positions =>
    match b.portfolios.get position.userId with
    | none => .error .recordNotFound
    | some portfolio =>
      .ok
        { trades := b.trades ++ [trade]
          positions
          portfolios := b.portfolios.set position.userId (book portfolio trade now) }

/-- The transaction of `reset`. -/
def resetTx (b : AutoBook) (userId : String) : AutoBook :=
  { b with positions := b.positions.deleteUser userId, trades := b.trades.filter fun t => t.userId ≠ userId }

/-- The upsert of `reset`. -/
def resetPortfolio (b : AutoBook) (userId : String) (now : ℤ) : AutoBook :=
  let portfolio : AutoPortfolio :=
    match b.portfolios.get userId with
    | none => { resetAt := now }
    | some portfolio =>
      { portfolio with
        autoEnabled := false
        currentBalanceUsd := 100000
        realizedPnlUsd := 0
        totalTrades := 0
        winCount := 0
        lossCount := 0
        resetAt := now
        lastTradeAt := none }
  { b with portfolios := b.portfolios.set userId portfolio }

end AutoBook

/-! ## Calls -/

/-- What a call does next, or what it has come to. -/
inductive AutoCall
  | findPortfolio (input : OpenAutoPositionInput)
  | createPortfolio (input : OpenAutoPositionInput)
  | openTx (input : OpenAutoPositionInput) (portfolio : AutoPortfolio)
  | findExisting (input : OpenAutoPositionInput)
  | findPosition (id : ℕ) (decision : CloseDecision)
  | closeTx (position : AutoPosition) (trade : AutoTrade)
  | resetTx (userId : String)
  | resetPortfolio (userId : String)
  | opened (position : Option AutoPosition)
  | finished
  | failed
  deriving DecidableEq

def AutoCall.over : AutoCall → Bool
  | .opened _ | .finished | .failed => true
  | _ => false

structure AutoDesk where
  book : AutoBook := {}
  calls : List AutoCall := []

inductive AutoStep
  | openPosition (input : OpenAutoPositionInput)
  | closePosition (id : ℕ) (decision : CloseDecision)
  | reset (userId : String)
  | advance (i : ℕ) (now : ℤ)

/-- `openPosition` up to its first read. -/
def startOpen (input : OpenAutoPositionInput) : AutoCall :=
  if input.entryPriceUsd ≤ 0 ∨ input.sizeUsd ≤ 0 then .opened none else .findPortfolio input

/-- The balance guard of `openPosition`. -/
def guardBalance (input : OpenAutoPositionInput) (portfolio : AutoPortfolio) : AutoCall :=
  if portfolio.currentBalanceUsd < input.sizeUsd then .opened none else .openTx input portfolio

/-- The next read or transaction of a call. -/
def AutoCall.advance (b : AutoBook) (now : ℤ) : AutoCall → Option (AutoBook × AutoCall)
  | .findPortfolio input =>
    match b.portfolios.get input.userId with
    | some portfolio => some (b, guardBalance input portfolio)
    | none => some (b, .createPortfolio input)
  | .createPortfolio input =>
    match b.createPortfolio input.userId now with
    | some (portfolio, b) => some (b, guardBalance input portfolio)
    | none => some (b, .failed)
  | .openTx input portfolio =>
    match b.openTx input portfolio now with
    | .ok b => some (b, .opened (b.positions.findToken input.userId input.tokenAddress))
    | .error .uniqueViolation => some (b, .findExisting input)
    | .error .recordNotFound => some (b, .failed)
  | .findExisting input => some (b, .opened (b.positions.findToken input.userId input.tokenAddress))
  | .findPosition id decision =>
    match b.positions.find id with
    | some position => some (b, .closeTx position (closedTrade position decision now))
    | none => some (b, .failed)
  | .closeTx position trade =>
    match b.closeTx position trade now with
    | .ok b => some (b, .finished)
    | .error _ => some (b, .failed)
  | .resetTx userId => some (b.resetTx userId, .resetPortfolio userId)
  | .resetPortfolio userId => some (b.resetPortfolio userId now, .finished)
  | .opened _ | .finished | .failed => none

def AutoDesk.step (s : AutoDesk) : AutoStep → Option AutoDesk
  | .openPosition input => some { s with calls := s.calls ++ [startOpen input] }
  | .closePosition id decision => some { s with calls := s.calls ++ [.findPosition id decision] }
  | .reset userId => some { s with calls := s.calls ++ [.resetTx userId] }
  | .advance i now =>
    (s.calls[i]?).bind fun call =>
      (call.advance s.book now).map fun (book, next) => { book, calls := s.calls.set i next }

def autoTrade : StepSystem AutoDesk AutoStep := ⟨AutoDesk.step⟩

end SuperAi.AutoTrading
