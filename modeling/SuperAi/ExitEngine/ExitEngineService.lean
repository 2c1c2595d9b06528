import SuperAi.Foundations.KeyValue
import SuperAi.Foundations.StepSystem
import SuperAi.ExitEngine.Signals
import Mathlib.Algebra.Order.Floor.Semiring
import Mathlib.Data.Rat.Floor

/-! # The exit engine

`ExitEngineService` (`exit-engine/exit-engine.service.ts`) over any number of buy trades. One step
evaluates one open trade; what it reads from outside (live token data, verdicts, the clock, the
answer of the swap, whether the database takes the row update after a sale) is the step's input.
A read or write that fails before the sale ends the evaluation with nothing sold and is no step
here. `Trade.sales` is not a column: it records the sales that went through.
-/
namespace SuperAi.ExitEngine
open SuperAi.Foundations
set_option autoImplicit false

/-! ## Tiers -/

inductive ExitReason
  | tier_0
  | tier_1
  | tier_2
  | liquidity_drain
  | insider_dump
  | trailing_stop
  | momentum_reversal
  | time_stop
  | thesis_break
  | thesis_break_honeypot
  deriving DecidableEq, Repr

namespace ExitReason

def FULL_EXIT_REASONS : List ExitReason :=
  [trailing_stop, time_stop, liquidity_drain, momentum_reversal, insider_dump]

def isThesisBreak : ExitReason → Bool
  | thesis_break | thesis_break_honeypot => true
  | _ => false

def isFullExit (reason : ExitReason) : Bool :=
  FULL_EXIT_REASONS.contains reason || reason.isThesisBreak

end ExitReason

structure Tier where
  id : ExitReason
  mcapMultiple : ℚ
  sellPct : ℚ
  trailingStop : ℚ
  deriving DecidableEq, Repr

/-- A profile's tiers: in ascending order of their multiples, under ids of their own, and together
the whole position. -/
structure TierTable where
  tiers : List Tier
  ids_nodup : (tiers.map Tier.id).Nodup
  ids_staged : ∀ t ∈ tiers, t.id.isFullExit = false
  multiples_ascend : tiers.Pairwise fun t u => t.mcapMultiple ≤ u.mcapMultiple
  sellPct_pos : ∀ t ∈ tiers, 0 < t.sellPct
  sellPct_sum : (tiers.map Tier.sellPct).sum = 100

namespace PROFILE_TIERS

def degen_sniper : TierTable where
  tiers := [⟨.tier_0, 3, 35, 30⟩, ⟨.tier_1, 8, 30, 20⟩, ⟨.tier_2, 20, 35, 12⟩]
  ids_nodup := by decide
  ids_staged := by decide
  multiples_ascend := by decide +kernel
  sellPct_pos := by decide +kernel
  sellPct_sum := by decide +kernel

def swing_trader : TierTable where
  tiers := [⟨.tier_0, 3 / 2, 55, 20⟩, ⟨.tier_1, 3, 25, 15⟩, ⟨.tier_2, 6, 20, 12⟩]
  ids_nodup := by decide
  ids_staged := by decide
  multiples_ascend := by decide +kernel
  sellPct_pos := by decide +kernel
  sellPct_sum := by decide +kernel

def default : TierTable where
  tiers := [⟨.tier_0, 2, 50, 25⟩, ⟨.tier_1, 5, 25, 20⟩, ⟨.tier_2, 10, 25, 15⟩]
  ids_nodup := by decide
  ids_staged := by decide
  multiples_ascend := by decide +kernel
  sellPct_pos := by decide +kernel
  sellPct_sum := by decide +kernel

end PROFILE_TIERS

/-- The keys every object literal inherits: `PROFILE_TIERS[key]` is then not a tier list. -/
def inheritedKeys : List String :=
  ["constructor", "__defineGetter__", "__defineSetter__", "hasOwnProperty", "__lookupGetter__",
    "__lookupSetter__", "isPrototypeOf", "propertyIsEnumerable", "toString", "valueOf",
    "__proto__", "toLocaleString"]

/-- `getTiers`; `none` is an inherited member of the table object, which has no tier at any index
and no array method. -/
def getTiers (profileKey : Option String) : Option TierTable :=
  let key := profileKey.getD "default"
  if key = "degen_sniper" then some PROFILE_TIERS.degen_sniper
  else if key = "swing_trader" then some PROFILE_TIERS.swing_trader
  else if inheritedKeys.contains key then none
  else some PROFILE_TIERS.default

/-- `tiers[i]` for an integer index, undefined for an inherited member. -/
def tiersOf (profileKey : Option String) : List Tier := ((getTiers profileKey).map TierTable.tiers).getD []

/-! ## Rows and inputs -/

/-- A sale that went through: what the swap was asked for, and the reason. -/
structure Sale where
  reason : ExitReason
  sellFraction : ℚ
  amountIn : ℤ
  notionalUsd : ℚ
  slippageBps : ℕ
  deriving DecidableEq, Repr

inductive TradeMode
  | LIVE
  | PAPER
  deriving DecidableEq, Repr

/-- A buy trade: the columns the engine reads or writes. `amountOut` is what `parseFloat` makes of
the column, `none` where that is not a finite number. -/
structure Trade where
  tokenOut : String
  strategyId : Option String
  mode : TradeMode
  createdAt : ℤ
  amountOut : Option ℚ
  priceUsd : Option ℚ
  entryMcapUsd : Option ℚ := none
  highestMcapSeen : Option ℚ := none
  tiersExecuted : List ℕ := []
  exitReason : Option ExitReason := none
  exitAt : Option ℤ := none
  realizedPnl : Option ℚ := none
  pnlUsd : Option ℚ := none
  realizedProceedsUsd : Option ℚ := none
  holdDurationSec : Option ℤ := none
  sellAttempts : ℕ := 0
  sellStuck : Bool := false
  sales : List Sale := []
  deriving DecidableEq, Repr

structure LiveToken where
  marketCapUsd : Option ℚ := none
  liquidityUsd : Option ℚ := none
  priceChange5m : Option ℚ := none
  deriving DecidableEq, Repr

inductive AiVerdict
  | HIGH_RISK
  | other
  deriving DecidableEq, Repr

/-- What one evaluation reads from outside. `swapResolves` is false also where there is no wallet or
no execution service; `recorded` says that the row update after a sale lands. -/
structure TickInput where
  now : ℤ
  live : Option LiveToken
  intelMcapUsd : Option ℚ := none
  verdictMcapUsd : Option ℚ := none
  latestVerdict : Option (ℤ × AiVerdict) := none
  entryScore : Option ℤ := none
  swapResolves : Bool := true
  recorded : Bool := true
  deriving DecidableEq, Repr

structure ExitConfig where
  liveMode : Bool := false
  thesisBreakFloor : ℤ := 40
  thesisBreakDrop : ℤ := 20
  timeStop48hMovePct : ℚ := 1 / 10
  maxSellAttempts : ℕ := 5
  baseSlippageBps : ℕ := 300
  maxSlippageBps : ℕ := 2500
  volWindowCap : ℕ := 20
  sigCfg : ExitSignalConfig := {}
  sqrt : ℚ → ℚ

def TIME_STOP_48H_SELL_PCT : ℚ := 50

def PRE_TIER_TRAILING_STOP_PCT : ℚ := 30

/-! ## Helpers -/

def soldPct (executed : List ℕ) (tiers : List Tier) : ℚ :=
  (executed.map fun idx => (tiers[idx]?.map Tier.sellPct).getD 0).sum

/-- How much of the original position (%) has not been sold yet. -/
def remainingPositionPct (executed : List ℕ) (tiers : List Tier) : ℚ := max 0 (100 - soldPct executed tiers)

def resolveTrailingStop (executed : List ℕ) (tiers : List Tier) : ℚ :=
  match executed.max? with
  | none => PRE_TIER_TRAILING_STOP_PCT
  | some lastFired => (tiers[lastFired]?.map Tier.trailingStop).getD PRE_TIER_TRAILING_STOP_PCT

def ExitConfig.slippageForAttempt (cfg : ExitConfig) (attempts : ℕ) : ℕ :=
  min cfg.maxSlippageBps (cfg.baseSlippageBps * 2 ^ attempts)

def resolveEntryMcap (inp : TickInput) : Option ℚ :=
  match inp.intelMcapUsd.filter fun m => decide (0 < m) with
  | some m => some m
  | none => inp.verdictMcapUsd.filter fun m => decide (0 < m)

/-- The stored entry market cap, or the fallback where it is missing or zero. -/
def entryMcap (trade : Trade) (inp : TickInput) : Option ℚ :=
  match trade.entryMcapUsd with
  | some e => if e = 0 then resolveEntryMcap inp else some e
  | none => resolveEntryMcap inp

def round (x : ℚ) : ℤ := ⌊x + 1 / 2⌋

/-! ## The exit rules -/

/-- What the rules look at once the market data is there. -/
structure ExitContext where
  tiers : List Tier
  executed : List ℕ
  entryMcap : ℚ
  currentMcap : ℚ
  highestMcap : ℚ
  window : List ℚ
  liqUsd : ℚ
  peakLiq : ℚ
  dumpReason : Option ExitReason
  priceChange5m : Option ℚ
  openSec : ℚ
  latestVerdict : Option (ℤ × AiVerdict)
  entryScore : Option ℤ

structure SellOrder where
  reason : ExitReason
  sellFraction : ℚ
  deriving DecidableEq, Repr

namespace ExitContext
variable (cfg : ExitConfig) (c : ExitContext)

def mcapRatio : ℚ := c.currentMcap / c.entryMcap

def inProfit : Bool := decide (1 < c.mcapRatio)

def remaining : ℚ := remainingPositionPct c.executed c.tiers / 100

def highestMovePct : ℚ := (c.highestMcap - c.entryMcap) / c.entryMcap

def liquidityDrain : Option SellOrder :=
  if 0 < c.liqUsd ∧ liquidityDrainTriggered c.liqUsd c.peakLiq cfg.sigCfg = true then
    some ⟨.liquidity_drain, c.remaining⟩
  else none

def holderDump : Option SellOrder := c.dumpReason.map fun reason => ⟨reason, c.remaining⟩

/-- The first tier that has not fired and whose multiple is reached, with its index. -/
def dueTier : Option (Tier × ℕ) :=
  c.tiers.zipIdx.find? fun (t, i) => !c.executed.contains i && decide (t.mcapMultiple ≤ c.mcapRatio)

def takeProfit : Option SellOrder := c.dueTier.map fun (t, _) => ⟨t.id, t.sellPct / 100⟩

def trailingPct : ℚ :=
  if thinLiquidity c.liqUsd c.currentMcap cfg.sigCfg then cfg.sigCfg.minTrailingPct
  else adaptiveTrailingPct (resolveTrailingStop c.executed c.tiers)
    (realizedVolatilityPct cfg.sqrt c.window) cfg.sigCfg

def trailingStop : Option SellOrder :=
  if c.inProfit = true ∧ 0 < c.highestMcap ∧
      c.currentMcap ≤ c.highestMcap * (1 - c.trailingPct cfg / 100) then
    some ⟨.trailing_stop, c.remaining⟩
  else none

def momentum : Option SellOrder :=
  if momentumReversal c.priceChange5m c.inProfit cfg.sigCfg = true then
    some ⟨.momentum_reversal, c.remaining⟩
  else none

def timeStop72 : Option SellOrder :=
  if 72 * 3600 ≤ c.openSec ∧ c.highestMovePct < cfg.timeStop48hMovePct then
    some ⟨.time_stop, c.remaining⟩
  else none

def timeStop48 : Option SellOrder :=
  if 48 * 3600 ≤ c.openSec ∧ 0 ∉ c.executed ∧ c.highestMovePct < cfg.timeStop48hMovePct then
    some ⟨.time_stop, TIME_STOP_48H_SELL_PCT / 100⟩
  else none

def thesisBreak : Option SellOrder := do
  let (aiScore, aiVerdict) ← c.latestVerdict
  let scoreDrop := c.entryScore.getD aiScore - aiScore
  let honeypot := aiVerdict == .HIGH_RISK
  let scoreFailed := aiScore ≤ cfg.thesisBreakFloor ∧ cfg.thesisBreakDrop ≤ scoreDrop
  if ¬ honeypot ∧ ¬ scoreFailed then none
  else some ⟨if honeypot then .thesis_break_honeypot else .thesis_break, c.remaining⟩

/-- The rules tried before the time stop of 48 hours, in order. -/
def beforeTimeStop48 : Option SellOrder :=
  c.liquidityDrain cfg <|> c.holderDump <|> c.takeProfit <|> c.trailingStop cfg <|> c.momentum cfg
    <|> c.timeStop72 cfg

def decision : Option SellOrder := c.beforeTimeStop48 cfg <|> c.timeStop48 cfg <|> c.thesisBreak cfg

end ExitContext

/-! ## Sell execution -/

def clampFraction (sellFraction : ℚ) : ℚ := min 1 (max 0 sellFraction)

/-- `String(Math.max(1, Math.floor(originalTokenAmt * sellFraction)))`, or the error of an
unusable amount. -/
def sellTokenAmt (trade : Trade) (sellFraction : ℚ) : Option ℤ :=
  match trade.amountOut with
  | some amount => if amount ≤ 0 then none else some (max 1 ⌊amount * sellFraction⌋)
  | none => none

def recordSellFailure (cfg : ExitConfig) (trade : Trade) : Trade :=
  let attempts := trade.sellAttempts + 1
  { trade with sellAttempts := attempts, sellStuck := decide (cfg.maxSellAttempts ≤ attempts) }

def recordSale (table : TierTable) (trade : Trade) (now : ℤ) (reason : ExitReason)
    (sellNotionalUsd entryUsd : ℚ) : Trade :=
  let newExecuted :=
    match table.tiers.findIdx? fun t => t.id == reason with
    | some tierIndex => trade.tiersExecuted ++ [tierIndex]
    | none => trade.tiersExecuted
  let allTiersDone := (List.range table.tiers.length).all newExecuted.contains
  let newProceeds := trade.realizedProceedsUsd.getD 0 + sellNotionalUsd
  let sold := { trade with
    tiersExecuted := newExecuted, realizedProceedsUsd := some newProceeds, sellAttempts := 0 }
  if allTiersDone || reason.isFullExit then
    { sold with
      exitReason := some reason, exitAt := some now
      realizedPnl := some (newProceeds - entryUsd), pnlUsd := some (newProceeds - entryUsd)
      holdDurationSec := some (round ((now - trade.createdAt) / 1000)) }
  else sold

/-- `executeSell`, with the tier list that `getTiers` returned. An inherited member has no
`findIndex`, so that the call throws before the swap. -/
def executeSell (cfg : ExitConfig) (trade : Trade) (inp : TickInput) (mcapRatio : ℚ)
    (order : SellOrder) : Trade :=
  let sellFraction := clampFraction order.sellFraction
  if sellFraction ≤ 0 then trade else
  match getTiers trade.strategyId with
  | none => trade
  | some table =>
    let entryUsd := trade.priceUsd.getD 0
    let sellNotionalUsd := entryUsd * mcapRatio * sellFraction
    match sellTokenAmt trade sellFraction, inp.swapResolves with
    | none, _ | some _, false => recordSellFailure cfg trade
    | some amountIn, true =>
      -- the sale has happened, whether or not the row update lands
      let sale : Sale := ⟨order.reason, sellFraction, amountIn, sellNotionalUsd,
        cfg.slippageForAttempt trade.sellAttempts⟩
      let sold := { trade with sales := trade.sales ++ [sale] }
      if inp.recorded then recordSale table sold inp.now order.reason sellNotionalUsd entryUsd
      else sold

/-! ## Evaluating a trade -/

/-- The rolling state of the engine, by token, and the holder watcher's pending signals. -/
structure EngineMemory where
  mcapWindow : KeyValue String (List ℚ) := []
  peakLiq : KeyValue String ℚ := []
  signals : KeyValue String ExitReason := []
  deriving DecidableEq, Repr

/-- The context of an evaluation, `none` where it returns early for want of data. -/
def exitContext (cfg : ExitConfig) (m : EngineMemory) (trade : Trade) (inp : TickInput) :
    Option ExitContext := do
  let live ← inp.live
  let currentMcap ← live.marketCapUsd.filter fun mcap => decide (0 < mcap)
  let entryMcap ← entryMcap trade inp
  let liqUsd := live.liquidityUsd.getD 0
  some
    { tiers := tiersOf trade.strategyId
      executed := trade.tiersExecuted
      entryMcap, currentMcap
      highestMcap := max (trade.highestMcapSeen.getD entryMcap) currentMcap
      window := pushWindow ((m.mcapWindow.get trade.tokenOut).getD []) currentMcap cfg.volWindowCap
      liqUsd
      peakLiq := max ((m.peakLiq.get trade.tokenOut).getD 0) liqUsd
      dumpReason := m.signals.get trade.tokenOut
      priceChange5m := live.priceChange5m
      openSec := (inp.now - trade.createdAt) / 1000
      latestVerdict := inp.latestVerdict
      entryScore := inp.entryScore }

/-- The memory after an evaluation; the holder signal stays when the liquidity drain comes first. -/
def EngineMemory.after (cfg : ExitConfig) (m : EngineMemory) (token : String) (c : ExitContext) :
    EngineMemory where
  mcapWindow := m.mcapWindow.set token c.window
  peakLiq := m.peakLiq.set token c.peakLiq
  signals := if (c.liquidityDrain cfg).isSome then m.signals else m.signals.del token

def Trade.observe (trade : Trade) (c : ExitContext) : Trade :=
  { trade with entryMcapUsd := some c.entryMcap, highestMcapSeen := some c.highestMcap }

def evaluateTrade (cfg : ExitConfig) (m : EngineMemory) (trade : Trade) (inp : TickInput) :
    EngineMemory × Trade :=
  match exitContext cfg m trade inp with
  | none => (m, trade)
  | some c =>
    (m.after cfg trade.tokenOut c,
      match c.decision cfg with
      | none => trade.observe c
      | some order => executeSell cfg (trade.observe c) inp c.mcapRatio order)

/-! ## The engine as a step system -/

structure EngineState where
  trades : List Trade := []
  memory : EngineMemory := {}
  deriving DecidableEq, Repr

/-- `buy` stores a new trade, `evaluate` evaluates an open one, `dump` is a signal of the holder
watcher, `prune` forgets the tokens that are not listed (a restart forgets all). -/
inductive EngineEvent
  | buy (tokenOut : String) (strategyId : Option String) (mode : TradeMode) (createdAt : ℤ)
      (amountOut priceUsd : Option ℚ)
  | evaluate (trade : ℕ) (inp : TickInput)
  | dump (token : String)
  | prune (active : List String)

def Trade.isOpen (cfg : ExitConfig) (trade : Trade) : Bool :=
  trade.exitAt.isNone && !trade.sellStuck && (cfg.liveMode || trade.mode == .PAPER)

def exitEngine (cfg : ExitConfig) : StepSystem EngineState EngineEvent where
  step s
    | .buy tokenOut strategyId mode createdAt amountOut priceUsd =>
      some { s with
        trades := s.trades ++ [{ tokenOut, strategyId, mode, createdAt, amountOut, priceUsd }] }
    | .evaluate i inp => do
      let trade ← s.trades[i]?
      if trade.isOpen cfg then
        let (memory, trade') := evaluateTrade cfg s.memory trade inp
        some { trades := s.trades.set i trade', memory }
      else none
    | .dump token =>
      some { s with memory.signals := s.memory.signals.set token .insider_dump }
    | .prune active =>
      some { s with
        memory.mcapWindow := s.memory.mcapWindow.filter fun e => active.contains e.1
        memory.peakLiq := s.memory.peakLiq.filter fun e => active.contains e.1 }

end SuperAi.ExitEngine
