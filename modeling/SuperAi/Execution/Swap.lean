import SuperAi.Foundations.JsonNumber
import SuperAi.Auth.WalletVerifier
import SuperAi.Risk.RiskEngine
import Mathlib.Data.Rat.Floor

/-! # Swaps

`ExecutionService.swap` (`execution/execution.service.ts`). What its collaborators answer (the DEX
clients, the compliance, risk and guardrail checks, the database) is a value of `Answers`, fixed
before the call; an error is a collaborator that throws. `SecurityAuditService.log`,
`LiveTradeGuardService.invalidate` and the queues never make the call fail and are left out, as is
the learning data of a trade.
-/
namespace SuperAi.Execution
open SuperAi.Foundations SuperAi.Auth SuperAi.Risk
set_option autoImplicit false

/-! ## Input and collaborators -/

structure SwapInput where
  userId : String
  walletId : String
  chain : Chain
  tokenIn : String
  tokenOut : String
  amountIn : String
  notionalUsd : ℚ
  slippageBps : ℕ
  riskFlags : List String := []
  orderId : Option String := none
  strategyId : Option String := none
  applyDynamicSizing : Bool := false
  deriving DecidableEq, Repr

inductive TradeMode
  | PAPER
  | LIVE
  deriving DecidableEq, Repr

structure VerdictHistory where
  aiScore : ℤ
  riskFactors : List String
  deriving DecidableEq, Repr

/-- The answer to a request for a transaction; `testnet` is an answer without one. -/
inductive SwapTx
  | testnet
  | transaction
  deriving DecidableEq, Repr

/-- How the signing, sending and confirming of one transaction ends. `threw` is an error on the way;
`landed` says that the chain has confirmed the transaction all the same. -/
inductive SendAnswer
  | confirmed (txHash : String)
  | rejected (slippage : Bool)
  | threw (error : String) (landed : Bool)
  deriving DecidableEq, Repr

structure Answers where
  solPriceUsd : Except String ℚ
  verdict : Except String (Option VerdictHistory)
  uuid : String
  washTrade : Except String Bool
  risk : Except String RiskEvaluation
  guardrails : Except String Bool
  paperMode : Except String (Option Bool)
  liveGuard : Except String Unit
  wallet : Except String (Option String)
  quote : ℕ → Except String String
  swapTx : ℕ → Except String SwapTx
  dstAmount : Option String
  send : ℕ → SendAnswer
  paperQuote : Except String (Option String)
  now : String
  failureAudit : Except String Unit
  failureOrder : Except String Unit
  tradeCreate : Except String Unit
  paperBalance : Except String Unit
  orderUpdate : Except String Unit
  recordOrder : Except String Unit
  recordTrade : Except String Unit
  audit : Except String Unit

/-! ## Quote tokens -/

def QUOTE_TOKENS : List String :=
  ["So11111111111111111111111111111111111111112", "EPjFWdd5AufqSSqeM2qN1xzybapC8G4wEGGkZwyTDt1v",
    "Es9vMFrzaCERmJfrF4H2FYD4KCoNkY11McCe8BenwNYB", "0xc02aaa39b223fe8d0a0e5c4f27ead9083c756cc2",
    "0xa0b86991c6218b36c1d19d4a2e9eb0ce3606eb48", "0xdac17f958d2ee523a2206206994597c13d831ec7"]

inductive Side
  | buy
  | sell
  deriving DecidableEq, Repr

def isQuote (token : String) : Bool := QUOTE_TOKENS.contains token || QUOTE_TOKENS.contains token.toLower

def inferSwapSide (tokenIn tokenOut : String) : Side :=
  if isQuote tokenOut ∧ ¬ isQuote tokenIn then .sell else .buy

/-! ## Sizing -/

/-- The amount that a text stands for, in base units of its token; 0 where `parseFloat` has none. -/
def amountOf (text : String) : ℚ := ((parseFloat text.toList).map JsNumber.toRat).getD 0

/-- `Math.round((notionalUsd / solUsd) * 1e9).toString()` for a positive notional. -/
def lamportsText (notionalUsd solUsd : ℚ) : String :=
  if solUsd = 0 then "Infinity"
  else String.ofList (JsNumber.ofInt ⌊notionalUsd / solUsd * 1000000000 + 1 / 2⌋).text

def normalizeAmountIn (ans : Answers) (input : SwapInput) : Except String SwapInput := do
  let input ←
    if input.amountIn = "" ∧ 0 < input.notionalUsd then
      if input.chain = .SOLANA then do
        let solUsd ← ans.solPriceUsd
        pure { input with amountIn := lamportsText input.notionalUsd solUsd }
      else throw "amountIn is required for EVM trades"
    else pure input
  if input.amountIn = "" then throw "amountIn must not be empty" else pure input

/-- `/low.?liquidity|thin.?liq/i.test(factor)`. -/
def signalsThinLiquidity (factor : String) : Bool :=
  let afterGap (tail cs : List Char) : Bool :=
    tail.isPrefixOf cs ||
      match cs with
      | c :: cs => !([10, 13, 8232, 8233].contains c.toNat) && tail.isPrefixOf cs
      | [] => false
  (factor.toLower.toList.tails).any fun cs =>
    ("low".toList.isPrefixOf cs && afterGap "liquidity".toList (cs.drop 3)) ||
      ("thin".toList.isPrefixOf cs && afterGap "liq".toList (cs.drop 4))

def computeDynamicSize (ans : Answers) (ceiling : ℚ) (riskFlags : List String) : ℚ :=
  match ans.verdict with
  | .error _ => ceiling
  | .ok verdict =>
    let score := (verdict.map VerdictHistory.aiScore).getD 0
    let mult : ℚ := if 90 ≤ score then 1 else if 80 ≤ score then 7 / 10 else if 70 ≤ score then 1 / 2 else 3 / 10
    let mult := if riskFlags.contains "HONEYPOT" then mult * (1 / 2) else mult
    let mult := if riskFlags.contains "newToken" || riskFlags.contains "NEW_TOKEN" then mult * (7 / 10) else mult
    let factors := (verdict.map VerdictHistory.riskFactors).getD []
    let mult := if factors.any signalsThinLiquidity then mult * (7 / 10) else mult
    max (ceiling * (1 / 10)) (min ceiling (ceiling * mult))

/-- The amount was made nonempty before, so that only the notional changes here. -/
def applySizing (ans : Answers) (input : SwapInput) : SwapInput :=
  if input.applyDynamicSizing ∧ 0 < input.notionalUsd then
    { input with notionalUsd := computeDynamicSize ans input.notionalUsd input.riskFlags }
  else input

/-! ## Checks before execution -/

def orderAction (ans : Answers) (input : SwapInput) : PlaceOrderAction where
  instrument := input.tokenIn ++ "-" ++ input.tokenOut
  side := .BUY
  orderType := .MARKET
  quantity := ((parseFloat input.amountIn.toList).map JsNumber.toRat).getD 0
  strategyId := "swap"
  clientOrderId := input.orderId.getD ans.uuid

def riskContext (input : SwapInput) : RiskContext where
  userId := input.userId
  strategyId := "swap"
  portfolio := { positions := [], totalNotional := input.notionalUsd, totalUnrealizedPnl := 0 }

/-- The part of a swap before the risk evaluation: the input as it is then. -/
def prepare (ans : Answers) (input : SwapInput) : Except String SwapInput := do
  let input := applySizing ans (← normalizeAmountIn ans input)
  if ← ans.washTrade then throw "Wash trade detected — swap blocked by compliance"
  pure input

structure Admitted where
  input : SwapInput
  mode : TradeMode
  deriving DecidableEq, Repr

def admission (ans : Answers) (input : SwapInput) : Except String Admitted := do
  let input ← prepare ans input
  if !(← ans.risk).approved then throw "Swap blocked by risk engine"
  if !(← ans.guardrails) then throw "guardrail"
  match ← ans.paperMode with
  | none => throw "User not found"
  | some true => pure ⟨input, .PAPER⟩
  | some false =>
    ans.liveGuard
    pure ⟨input, .LIVE⟩

/-! ## Execution -/

/-- A transaction that the chain has confirmed: a swap, or the transfer to itself that stands for
one on a test network. -/
inductive OnChainTx
  | swap (userId tokenIn tokenOut : String)
  | selfTransfer (userId : String)
  deriving DecidableEq, Repr

structure Fill where
  txHash : String
  outAmount : String
  deriving DecidableEq, Repr

/-- The end of an execution, with the transactions that the chain has confirmed on the way. -/
abbrev Outcome := Except String Fill × List OnChainTx

def sendTx (answer : SendAnswer) (tx : OnChainTx) (outAmount : String) : Outcome :=
  match answer with
  | .confirmed txHash => (.ok ⟨txHash, outAmount⟩, [tx])
  | .rejected _ => (.error "Transaction failed", [])
  | .threw error landed => (.error error, if landed then [tx] else [])

def OnChainTx.ofInput (input : SwapInput) : OnChainTx := .swap input.userId input.tokenIn input.tokenOut

/-- The attempts of a Solana swap from number `attempt` on, `left` of them. An attempt that the chain
rejects for its slippage is followed by the next. -/
def solanaAttempts (ans : Answers) (input : SwapInput) : ℕ → ℕ → Outcome
  | 0, _ => (.error "Slippage exceeded on all attempts", [])
  | left + 1, attempt =>
    match ans.quote attempt, ans.swapTx attempt with
    | .error e, _ | .ok _, .error e => (.error e, [])
    | .ok _, .ok .testnet => (.error "Slippage exceeded on all attempts", [])
    | .ok outAmount, .ok .transaction =>
      if ans.send attempt = .rejected true then solanaAttempts ans input left (attempt + 1)
      else sendTx (ans.send attempt) (.ofInput input) outAmount

def MAX_SWAP_ATTEMPTS : ℕ := 3

def executeSolana (ans : Answers) (input : SwapInput) : Outcome :=
  match ans.wallet, ans.quote 0, ans.swapTx 0 with
  | .error e, _, _ | .ok (some _), .error e, _ | .ok (some _), .ok _, .error e => (.error e, [])
  | .ok none, _, _ => (.error "wallet not found", [])
  | .ok (some _), .ok outAmount, .ok .testnet => sendTx (ans.send 0) (.selfTransfer input.userId) outAmount
  | .ok (some _), .ok _, .ok .transaction => solanaAttempts ans input MAX_SWAP_ATTEMPTS 0

def executeEvm (ans : Answers) (input : SwapInput) : Outcome :=
  match ans.wallet, ans.swapTx 0 with
  | .error e, _ | .ok (some _), .error e => (.error e, [])
  | .ok none, _ => (.error "wallet not found", [])
  | .ok (some _), .ok .testnet =>
    sendTx (ans.send 0) (.selfTransfer input.userId) (ans.dstAmount.getD input.amountIn)
  | .ok (some _), .ok .transaction =>
    sendTx (ans.send 0) (.ofInput input) (ans.dstAmount.getD input.amountIn)

/-- A quote that fails is replaced by a ratio of one to one. -/
def paperAmount (ans : Answers) (input : SwapInput) : String :=
  match ans.paperQuote with
  | .ok outAmount => outAmount.getD input.amountIn
  | .error _ => input.amountIn

def executePaper (ans : Answers) (input : SwapInput) : Outcome :=
  (.ok ⟨"paper-" ++ ans.now, paperAmount ans input⟩, [])

def execute (ans : Answers) (adm : Admitted) : Outcome :=
  match adm.mode, adm.input.chain with
  | .PAPER, _ => executePaper ans adm.input
  | .LIVE, .SOLANA => executeSolana ans adm.input
  | .LIVE, .EVM => executeEvm ans adm.input

/-! ## Recording -/

structure TradeRow where
  userId : String
  orderId : Option String
  chain : Chain
  side : Side
  tokenIn : String
  tokenOut : String
  amountIn : String
  amountOut : String
  priceUsd : ℚ
  mode : TradeMode
  txHash : String
  strategyId : Option String
  deriving DecidableEq, Repr

inductive OrderStatus
  | FILLED
  | FAILED
  deriving DecidableEq, Repr

structure World where
  onChain : List OnChainTx := []
  trades : List TradeRow := []
  paperBalance : KeyValue (String × String) ℤ := []
  orders : KeyValue String OrderStatus := []
  compliance : List (String × PlaceOrderAction) := []
  dna : List String := []
  auditLog : List (String × String) := []
  deriving DecidableEq, Repr

abbrev SwapM := ExceptT String (StateM World)

/-- An awaited write: it takes effect and goes on, or it throws. -/
def awaited (answer : Except String Unit) (effect : World → World) : SwapM Unit :=
  match answer with
  | .ok () => modify effect
  | .error e => throw e

def Admitted.tradeRow (adm : Admitted) (fill : Fill) : TradeRow where
  userId := adm.input.userId
  orderId := adm.input.orderId
  chain := adm.input.chain
  side := inferSwapSide adm.input.tokenIn adm.input.tokenOut
  tokenIn := adm.input.tokenIn
  tokenOut := adm.input.tokenOut
  amountIn := adm.input.amountIn
  amountOut := fill.outAmount
  priceUsd := adm.input.notionalUsd
  mode := adm.mode
  txHash := fill.txHash
  strategyId := adm.input.strategyId.filter (· ≠ "")

/-- What a paper fill adds to the balance, `none` where the amount is not usable. -/
def paperDelta (deltaAmount : String) : Option ℤ :=
  ((parseFloat deltaAmount.toList).map JsNumber.toRat).bind fun parsed =>
    if parsed < 0 then none else some ⌊parsed + 1 / 2⌋

/-- The upsert creates a missing row with `delta`, the update then adds `delta` to the row. -/
def addPaperBalance (key : String × String) (delta : ℤ) (w : World) : World :=
  { w with paperBalance := w.paperBalance.set key ((w.paperBalance.get key).getD delta + delta) }

def updatePaperBalance (ans : Answers) (userId token deltaAmount : String) : SwapM Unit :=
  match paperDelta deltaAmount with
  | none => pure ()
  | some delta => awaited ans.paperBalance (addPaperBalance (userId, token) delta)

def setOrder (orderId : String) (status : OrderStatus) (w : World) : World :=
  { w with orders := w.orders.set orderId status }

def awaitIf (c : Prop) [Decidable c] (m : SwapM Unit) : SwapM Unit := if c then m else pure ()

def updateOrder (answer : Except String Unit) (input : SwapInput) (status : OrderStatus) : SwapM Unit :=
  match input.orderId.filter (· ≠ "") with
  | some orderId => awaited answer (setOrder orderId status)
  | none => pure ()

def recordRest (ans : Answers) (adm : Admitted) (fill : Fill) : SwapM Fill := do
  let input := adm.input
  awaitIf (adm.mode = .PAPER) (updatePaperBalance ans input.userId input.tokenOut fill.outAmount)
  updateOrder ans.orderUpdate input .FILLED
  awaited ans.recordOrder fun w =>
    { w with compliance := w.compliance ++ [(input.userId, orderAction ans input)] }
  awaitIf (inferSwapSide input.tokenIn input.tokenOut = .buy)
    (awaited ans.recordTrade fun w => { w with dna := w.dna ++ [input.userId] })
  awaited ans.audit fun w => { w with auditLog := w.auditLog ++ [(input.userId, "execution.swap")] }
  pure fill

def record (ans : Answers) (adm : Admitted) (fill : Fill) : SwapM Fill := do
  awaited ans.tradeCreate fun w => { w with trades := w.trades ++ [adm.tradeRow fill] }
  recordRest ans adm fill

/-- The handler of a failed execution; it rethrows, or throws the error of its own writes. -/
def recordFailure (ans : Answers) (adm : Admitted) (error : String) : SwapM Fill := do
  awaited ans.failureAudit fun w =>
    { w with auditLog := w.auditLog ++ [(adm.input.userId, "execution.swap.failed")] }
  updateOrder ans.failureOrder adm.input .FAILED
  throw error

def swap (ans : Answers) (input : SwapInput) (w : World) : Except String Fill × World :=
  match admission ans input with
  | .error e => (.error e, w)
  | .ok adm =>
    let (outcome, confirmed) := execute ans adm
    let w := { w with onChain := w.onChain ++ confirmed }
    match outcome with
    | .error e => (recordFailure ans adm e).run w
    | .ok fill => (record ans adm fill).run w

/-! ## A sample call -/

/-- Collaborators that answer as on a paper trade without any trouble. -/
def sampleAnswers : Answers where
  solPriceUsd := .ok 150
  verdict := .ok none
  uuid := "5d3c4f0e-2b1a-4c6d-8e7f-9a0b1c2d3e4f"
  washTrade := .ok false
  risk := .ok ⟨true, .MEDIUM, []⟩
  guardrails := .ok true
  paperMode := .ok (some true)
  liveGuard := .ok ()
  wallet := .ok (some "FPP21sbqhr2LPjSnJkw5NBetPubeFG4PsQFBxHj8noTq")
  quote _ := .ok "1000000"
  swapTx _ := .ok .transaction
  dstAmount := none
  send _ := .confirmed "5sKS1r52rg2WvSCrEU1tp6mB"
  paperQuote := .ok (some "1000000")
  now := "lx2k9p0a"
  failureAudit := .ok ()
  failureOrder := .ok ()
  tradeCreate := .ok ()
  paperBalance := .ok ()
  orderUpdate := .ok ()
  recordOrder := .ok ()
  recordTrade := .ok ()
  audit := .ok ()

def sampleInput (notionalUsd : ℚ) : SwapInput where
  userId := "u1"
  walletId := "w1"
  chain := .SOLANA
  tokenIn := "So11111111111111111111111111111111111111112"
  tokenOut := "DezXAZ8z7PnrnRJjz3wXBoRgixCa6xjnB7YaB1pPB263"
  amountIn := "1000000"
  notionalUsd := notionalUsd
  slippageBps := 100

end SuperAi.Execution
