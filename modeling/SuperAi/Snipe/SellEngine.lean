import Mathlib.Data.Rat.Floor
import Mathlib.Tactic.Linarith
import Mathlib.Tactic.NormNum

/-! # The sniper's exit engine (`snipe-sell.service.ts`)

`checkPositions` reads the open rows, `evaluateTrade` decides whether a trigger of the row's phase
fires, and `executeSell` claims the row, broadcasts one signed transaction and leaves the rest to
a deferred row update and to `monitorSell`. Prices and multiples are exact rationals. The calls to
the outside are answers given to the functions; a write is a function on the row.
-/
namespace SuperAi.Snipe
set_option autoImplicit false

/-! ## Presets -/

structure SellPreset where
  HARD_SL_PCT : ℚ
  TP1_TRIGGER_PCT : ℚ
  TP1_EXIT_PCT : ℚ
  TIME_DECAY_MS : ℤ
  TIME_DECAY_MIN_PCT : ℚ
  LIQUIDITY_PANIC_PCT : ℚ
  TRAIL_POST_TP1_PCT : ℚ
  TP2_TRIGGER_PCT : ℚ
  TP2_EXIT_PCT : ℚ
  TRAIL_MOONBAG_PCT : ℚ

def CONSERVATIVE : SellPreset where
  HARD_SL_PCT := -30
  TP1_TRIGGER_PCT := 50
  TP1_EXIT_PCT := 50
  TIME_DECAY_MS := 10 * 60000
  TIME_DECAY_MIN_PCT := 20
  LIQUIDITY_PANIC_PCT := -30
  TRAIL_POST_TP1_PCT := 25
  TP2_TRIGGER_PCT := 200
  TP2_EXIT_PCT := 70
  TRAIL_MOONBAG_PCT := 40

def DEFAULT : SellPreset where
  HARD_SL_PCT := -40
  TP1_TRIGGER_PCT := 100
  TP1_EXIT_PCT := 50
  TIME_DECAY_MS := 15 * 60000
  TIME_DECAY_MIN_PCT := 30
  LIQUIDITY_PANIC_PCT := -40
  TRAIL_POST_TP1_PCT := 35
  TP2_TRIGGER_PCT := 300
  TP2_EXIT_PCT := 50
  TRAIL_MOONBAG_PCT := 50

def AGGRESSIVE : SellPreset where
  HARD_SL_PCT := -50
  TP1_TRIGGER_PCT := 150
  TP1_EXIT_PCT := 40
  TIME_DECAY_MS := 20 * 60000
  TIME_DECAY_MIN_PCT := 50
  LIQUIDITY_PANIC_PCT := -50
  TRAIL_POST_TP1_PCT := 50
  TP2_TRIGGER_PCT := 500
  TP2_EXIT_PCT := 60
  TRAIL_MOONBAG_PCT := 60

def resolvePreset (name : String) : SellPreset :=
  if name = "CONSERVATIVE" then CONSERVATIVE
  else if name = "AGGRESSIVE" then AGGRESSIVE
  else DEFAULT

/-! ## The row -/

inductive SellPhase
  | preTp1 | postTp1 | moonbag | closed
  deriving DecidableEq, Repr

inductive SellStatus
  | pending | broadcast | confirmed | failed | skip | partialTp1 | partialTp2 | honeypot
  deriving DecidableEq, Repr

def SellStatus.text : SellStatus → String
  | .pending => "pending"
  | .broadcast => "broadcast"
  | .confirmed => "confirmed"
  | .failed => "failed"
  | .skip => "skip"
  | .partialTp1 => "partial_tp1"
  | .partialTp2 => "partial_tp2"
  | .honeypot => "honeypot"

inductive SellReason
  | tp1 | tp2 | stopLoss | trailingStop | timeDecay | liquidityPanic | topHolderDump | moonbagTrail
  | manual | honeypot
  deriving DecidableEq, Repr

inductive TradeStatus
  | broadcast | confirmed | failed
  deriving DecidableEq, Repr

/-- The columns of a `SnipeTrade` row that the exit engine reads or writes; token amounts are base
units, decimal strings in the source. -/
structure SnipeTrade where
  userId : String
  status : TradeStatus
  amountRaw : ℕ
  outAmount : Option ℕ
  liquidityAtBuyUsd : Option ℚ
  createdAt : ℤ
  sellTxHash : Option String
  sellStatus : Option SellStatus
  sellReason : Option SellReason
  sellAttempts : ℕ
  peakPriceMul : Option ℚ
  sellPhase : Option SellPhase
  deriving DecidableEq

def MAX_SELL_ATTEMPTS : ℕ := 3

def isOpen (trade : SnipeTrade) : Bool :=
  trade.status == .confirmed && trade.outAmount.isSome &&
    match trade.sellStatus with
    | none => true
    | some .failed => decide (trade.sellAttempts < MAX_SELL_ATTEMPTS)
    | some .partialTp1 => true
    | some .partialTp2 => true
    | some _ => false

/-- The `sellPhase` column decides; `sellStatus` only where that column is empty. -/
def derivePhase (trade : SnipeTrade) : SellPhase :=
  match trade.sellPhase with
  | some phase => phase
  | none =>
    match trade.sellStatus with
    | some .confirmed => .closed
    | some .partialTp1 => .postTp1
    | some .partialTp2 => .moonbag
    | _ => .preTp1

def remainingFraction (phase : SellPhase) (preset : SellPreset) : ℚ :=
  match phase with
  | .preTp1 => 1
  | .postTp1 => 1 - preset.TP1_EXIT_PCT / 100
  | .moonbag => (1 - preset.TP1_EXIT_PCT / 100) * (1 - preset.TP2_EXIT_PCT / 100)
  | .closed => 0

/-! ## Sell orders -/

structure SellOrder where
  reason : SellReason
  tokenAmount : ℕ
  fraction : ℚ
  nextPhase : SellPhase
  final : Bool
  deriving DecidableEq

def mathRound (x : ℚ) : ℤ := ⌊x + 1 / 2⌋

def computeSellAmount (outAmount : Option ℕ) (fraction : ℚ) : ℕ :=
  match outAmount with
  | none => 0
  | some total =>
    if 1 ≤ fraction then total
    else total * (mathRound (fraction * 10000)).toNat / 10000

def subtractBaseUnits (a : Option ℕ) (b : ℕ) : ℕ :=
  match a with
  | none => 0
  | some a => if a ≤ b then 0 else a - b

def fireSell (trade : SnipeTrade) (reason : SellReason) (fraction : ℚ) (final : Bool) :
    Option SellOrder :=
  let tokenAmount := computeSellAmount trade.outAmount fraction
  if tokenAmount = 0 then none
  else
    let nextPhase :=
      if final then .closed
      else if reason = .tp1 then .postTp1
      else if reason = .tp2 then .moonbag
      else derivePhase trade
    some { reason, tokenAmount, fraction, nextPhase, final }

/-- The order of a manual sell: the whole amount on record, as a final sale. -/
def manualSell (userId : String) (trade : SnipeTrade) : Except String SellOrder :=
  if trade.userId ≠ userId then throw "Trade not found or access denied"
  else match trade.outAmount with
    | none => throw "No token balance on record — nothing to sell"
    | some outAmount =>
      match trade.sellStatus.filter (· ≠ .failed) with
      | some sellStatus => throw ("Cannot sell — current sellStatus is '" ++ sellStatus.text ++ "'")
      | none =>
        return { reason := .manual, tokenAmount := outAmount, fraction := 1, nextPhase := .closed, final := true }

/-! ## Triggers -/

structure SnipeConfig where
  sellEnabled : Bool
  riskPreset : String

/-- What one tick learns about the mint: the largest amount held of it, the sale value quoted for
that amount, the pool's liquidity, the top holders, the clock. -/
structure Market where
  maxOut : ℕ
  totalSolForMax : Option ℕ
  currentLiqUsd : Option ℚ
  topHolderDumped : Bool
  now : ℤ

def liquidityPanic (preset : SellPreset) (trade : SnipeTrade) (currentLiqUsd : Option ℚ) : Bool :=
  match currentLiqUsd, trade.liquidityAtBuyUsd with
  | some current, some atBuy =>
    decide (0 < atBuy) && decide (current / atBuy < 1 + preset.LIQUIDITY_PANIC_PCT / 100)
  | _, _ => false

def drawdownPct (peak fullPositionMul : ℚ) : ℚ := (peak - fullPositionMul) / peak * 100

/-- The price triggers of a phase: the reason, the fraction to sell and whether the sale is final. -/
def priceTrigger (preset : SellPreset) (phase : SellPhase) (ageMs : ℤ) (peak fullPositionMul : ℚ) :
    Option (SellReason × ℚ × Bool) :=
  let fullPctChange := (fullPositionMul - 1) * 100
  match phase with
  | .preTp1 =>
    if fullPctChange ≤ preset.HARD_SL_PCT then some (.stopLoss, 1, true)
    else if preset.TIME_DECAY_MS ≤ ageMs ∧ (peak - 1) * 100 < preset.TIME_DECAY_MIN_PCT then
      some (.timeDecay, 1, true)
    else if preset.TP1_TRIGGER_PCT ≤ fullPctChange then some (.tp1, preset.TP1_EXIT_PCT / 100, false)
    else none
  | .postTp1 =>
    if 1 < peak ∧ preset.TRAIL_POST_TP1_PCT ≤ drawdownPct peak fullPositionMul then
      some (.trailingStop, 1, true)
    else if preset.TP2_TRIGGER_PCT ≤ fullPctChange then some (.tp2, preset.TP2_EXIT_PCT / 100, false)
    else none
  | .moonbag =>
    if 1 < peak ∧ preset.TRAIL_MOONBAG_PCT ≤ drawdownPct peak fullPositionMul then
      some (.moonbagTrail, 1, true)
    else none
  | .closed => none

/-- The outcome of an evaluation: the trade's entry in the peak map, the peak written to the row
and the order, if a trigger fires. -/
structure Evaluation where
  peaks : Option ℚ
  peakPriceMul : Option ℚ
  order : Option SellOrder

def evaluateTrade (config : Option SnipeConfig) (lamportsPerToken : ℚ) (market : Market)
    (peaks : Option ℚ) (trade : SnipeTrade) : Evaluation :=
  match config, trade.outAmount with
  | some config, some outAmount =>
    let preset := resolvePreset config.riskPreset
    let phase := derivePhase trade
    if config.sellEnabled = false ∨ trade.amountRaw = 0 ∨ phase = .closed then ⟨peaks, none, none⟩
    else if liquidityPanic preset trade market.currentLiqUsd then
      ⟨none, none, fireSell trade .liquidityPanic 1 true⟩
    else if market.topHolderDumped then ⟨none, none, fireSell trade .topHolderDump 1 true⟩
    else
      let priceMul := outAmount * lamportsPerToken / trade.amountRaw
      let fullPositionMul := priceMul / remainingFraction phase preset
      let memPeak := (peaks.or trade.peakPriceMul).getD fullPositionMul
      let peak := max memPeak fullPositionMul
      match priceTrigger preset phase (market.now - trade.createdAt) peak fullPositionMul with
      | none => ⟨some peak, some peak, none⟩
      | some (reason, fraction, final) =>
        ⟨if final then none else some peak, some peak, fireSell trade reason fraction final⟩
  | _, _ => ⟨peaks, none, none⟩

/-! ## Writes to the row -/

namespace SnipeTrade

/-- No signing session: `updateMany … { sellStatus: 'skip' }`. -/
def markSkip (reason : SellReason) (row : SnipeTrade) : SnipeTrade :=
  match row.sellStatus with
  | none => { row with sellStatus := some .skip, sellReason := some reason }
  | some .failed => { row with sellStatus := some .skip, sellReason := some reason }
  | some _ => row

/-- `claimWhere`: manual sells claim from any state. -/
def claimable (reason : SellReason) (row : SnipeTrade) : Bool :=
  reason == .manual ||
    match row.sellStatus with
    | none => true
    | some .failed => true
    | some .partialTp1 => true
    | some .partialTp2 => true
    | some _ => false

def claim (reason : SellReason) (row : SnipeTrade) : SnipeTrade :=
  { row with sellStatus := some .pending, sellReason := some reason }

def releaseClaim (status : SellStatus) (row : SnipeTrade) : SnipeTrade :=
  { row with sellStatus := some status }

/-- The update in the `catch` of `executeSell`. -/
def sellThrew (row : SnipeTrade) : SnipeTrade :=
  { row with sellStatus := some .failed, sellAttempts := row.sellAttempts + 1 }

def markSellFailed (txHash : String) (row : SnipeTrade) : SnipeTrade :=
  { row with sellStatus := some .failed, sellTxHash := some txHash }

/-- Only a final sale is flipped to `confirmed`. -/
def confirmFinal (sig : String) (row : SnipeTrade) : SnipeTrade :=
  if row.sellTxHash = some sig ∧ row.sellStatus = some .broadcast then
    { row with sellStatus := some .confirmed }
  else row

def retried (retrySig : String) (row : SnipeTrade) : SnipeTrade :=
  { row with sellTxHash := some retrySig, sellAttempts := row.sellAttempts + 1 }

def markHoneypot (row : SnipeTrade) : SnipeTrade :=
  { row with sellStatus := some .honeypot, sellReason := some .honeypot }

def recordPeak (peak : ℚ) (row : SnipeTrade) : SnipeTrade :=
  { row with peakPriceMul := some peak }

end SnipeTrade

/-- A broadcast sale whose row update is still to run, with the row as `executeSell` was given it. -/
structure Broadcast where
  sig : String
  order : SellOrder
  trade : SnipeTrade
  deriving DecidableEq

namespace Broadcast

def remainingAfter (b : Broadcast) : ℕ :=
  if b.order.final then 0 else subtractBaseUnits b.trade.outAmount b.order.tokenAmount

def newSellStatus (b : Broadcast) : SellStatus :=
  if b.order.final then .broadcast
  else if b.order.nextPhase = .postTp1 then .partialTp1
  else .partialTp2

/-- The update that `setImmediate` defers: the amount and the phase after the sale, written before
the chain has confirmed it. -/
def record (b : Broadcast) (row : SnipeTrade) : SnipeTrade :=
  { row with
    sellTxHash := some b.sig
    sellStatus := some b.newSellStatus
    sellReason := some b.order.reason
    sellAttempts := row.sellAttempts + 1
    sellPhase := some b.order.nextPhase
    outAmount := some b.remainingAfter }

end Broadcast

/-! ## Orders of either source -/

def saleOrder (preset : SellPreset) (reason : SellReason) (trade : SnipeTrade) : Option SellOrder :=
  match reason with
  | .tp1 => fireSell trade .tp1 (preset.TP1_EXIT_PCT / 100) false
  | .tp2 => fireSell trade .tp2 (preset.TP2_EXIT_PCT / 100) false
  | .manual => (manualSell trade.userId trade).toOption
  | .honeypot => none
  | reason => fireSell trade reason 1 true

theorem priceTrigger_order {preset : SellPreset} {phase : SellPhase} {ageMs : ℤ} {peak mul : ℚ}
    {reason : SellReason} {fraction : ℚ} {final : Bool} (trade : SnipeTrade)
    (h : priceTrigger preset phase ageMs peak mul = some (reason, fraction, final)) :
    fireSell trade reason fraction final = saleOrder preset reason trade := by
  cases phase <;> simp only [priceTrigger] at h
  case closed => cases h
  all_goals
    split_ifs at h <;> cases h <;> rfl

theorem evaluateTrade_order {config : Option SnipeConfig} {lamportsPerToken : ℚ} {market : Market}
    {peaks : Option ℚ} {trade : SnipeTrade} {order : SellOrder}
    (h : (evaluateTrade config lamportsPerToken market peaks trade).order = some order) :
    ∃ preset reason, saleOrder preset reason trade = some order := by
  simp only [evaluateTrade] at h
  split at h
  · rename_i config outAmount hout
    split_ifs at h
    · exact ⟨resolvePreset config.riskPreset, .liquidityPanic, h⟩
    · exact ⟨resolvePreset config.riskPreset, .topHolderDump, h⟩
    · split at h
      · cases h
      · rename_i reason fraction final htrigger
        exact ⟨_, reason, (priceTrigger_order trade htrigger) ▸ h⟩
  · cases h

theorem manualSell_order {userId : String} {trade : SnipeTrade} {order : SellOrder}
    (preset : SellPreset) (h : manualSell userId trade = .ok order) :
    saleOrder preset .manual trade = some order := by
  by_cases huser : trade.userId = userId
  · subst huser
    simp only [saleOrder, h, Except.toOption]
  · simp [manualSell, huser, throw, throwThe, MonadExceptOf.throw] at h

/-- The sale neither sells nor leaves more than the row has. -/
structure SellOrder.Fits (order : SellOrder) (outAmount : Option ℕ) : Prop where
  le : order.tokenAmount ≤ outAmount.getD 0
  all : order.final = true → order.tokenAmount = outAmount.getD 0

theorem computeSellAmount_le (outAmount : Option ℕ) (fraction : ℚ) :
    computeSellAmount outAmount fraction ≤ outAmount.getD 0 := by
  cases outAmount with
  | none => exact Nat.le_refl 0
  | some total =>
    simp only [computeSellAmount, Option.getD_some]
    split_ifs with h
    · exact Nat.le_refl total
    · have hround : mathRound (fraction * 10000) ≤ 10000 := by
        have hlt : fraction * 10000 + 1 / 2 < 10001 := by linarith
        have hfloor : mathRound (fraction * 10000) < 10001 :=
          Int.floor_lt.mpr (by exact_mod_cast hlt)
        omega
      have hbps : (mathRound (fraction * 10000)).toNat ≤ 10000 := by omega
      calc total * (mathRound (fraction * 10000)).toNat / 10000
          ≤ total * 10000 / 10000 := Nat.div_le_div_right (Nat.mul_le_mul_left total hbps)
        _ = total := Nat.mul_div_cancel total (by omega)

@[simp] theorem computeSellAmount_one (outAmount : Option ℕ) :
    computeSellAmount outAmount 1 = outAmount.getD 0 := by
  cases outAmount <;> simp [computeSellAmount]

theorem fireSell_spec {trade : SnipeTrade} {reason : SellReason} {fraction : ℚ} {final : Bool}
    {order : SellOrder} (h : fireSell trade reason fraction final = some order) :
    order.tokenAmount = computeSellAmount trade.outAmount fraction ∧ 0 < order.tokenAmount ∧
      order.reason = reason ∧ order.final = final := by
  simp only [fireSell] at h
  split at h
  · cases h
  · rename_i hne
    cases h
    exact ⟨rfl, Nat.pos_of_ne_zero hne, rfl, rfl⟩

theorem fireSell_fits {trade : SnipeTrade} {reason : SellReason} {fraction : ℚ} {final : Bool}
    {order : SellOrder} (h : fireSell trade reason fraction final = some order)
    (hfinal : final = true → fraction = 1) : order.Fits trade.outAmount := by
  obtain ⟨hamount, -, -, hf⟩ := fireSell_spec h
  refine ⟨hamount ▸ computeSellAmount_le _ _, fun hclosed => ?_⟩
  rw [hamount, hfinal (hf ▸ hclosed), computeSellAmount_one]

theorem manualSell_spec {userId : String} {trade : SnipeTrade} {order : SellOrder}
    (h : manualSell userId trade = .ok order) :
    ∃ outAmount, trade.outAmount = some outAmount ∧
      order = { reason := .manual, tokenAmount := outAmount, fraction := 1, nextPhase := .closed, final := true } := by
  simp only [manualSell, throw, throwThe, MonadExceptOf.throw, pure, Except.pure] at h
  grind

theorem saleOrder_manual {preset : SellPreset} {trade : SnipeTrade} {order : SellOrder}
    (h : saleOrder preset .manual trade = some order) :
    ∃ outAmount, trade.outAmount = some outAmount ∧
      order = { reason := .manual, tokenAmount := outAmount, fraction := 1, nextPhase := .closed, final := true } := by
  cases hm : manualSell trade.userId trade with
  | error e => simp [saleOrder, hm, Except.toOption] at h
  | ok o =>
    obtain rfl : o = order := by simpa [saleOrder, hm, Except.toOption] using h
    exact manualSell_spec hm

theorem saleOrder_fits {preset : SellPreset} {reason : SellReason} {trade : SnipeTrade}
    {order : SellOrder} (h : saleOrder preset reason trade = some order) :
    order.Fits trade.outAmount := by
  cases reason
  case tp1 | tp2 => exact fireSell_fits h (by simp)
  case honeypot => cases h
  case manual =>
    obtain ⟨outAmount, hout, rfl⟩ := saleOrder_manual h
    exact ⟨by simp [hout], fun _ => by simp [hout]⟩
  all_goals exact fireSell_fits h (fun _ => rfl)

/-- The amount sold and the amount left on record are together what the row had. -/
theorem Broadcast.amount_add_remaining {b : Broadcast} (h : b.order.Fits b.trade.outAmount) :
    b.order.tokenAmount + b.remainingAfter = b.trade.outAmount.getD 0 := by
  have hle := h.le
  unfold Broadcast.remainingAfter
  split
  · rename_i hfinal
    rw [h.all hfinal, Nat.add_zero]
  · cases hout : b.trade.outAmount with
    | none =>
      rw [hout] at hle
      simp only [subtractBaseUnits, Option.getD_none] at hle ⊢
      omega
    | some a =>
      rw [hout] at hle
      simp only [subtractBaseUnits, Option.getD_some] at hle ⊢
      split_ifs <;> omega

def boughtRow : SnipeTrade where
  userId := "u"
  status := .confirmed
  amountRaw := 100000000
  outAmount := some 1000
  liquidityAtBuyUsd := none
  createdAt := 0
  sellTxHash := none
  sellStatus := none
  sellReason := none
  sellAttempts := 0
  peakPriceMul := none
  sellPhase := none

end SuperAi.Snipe
