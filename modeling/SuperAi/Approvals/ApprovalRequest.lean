import SuperAi.Execution.Swap
import SuperAi.Foundations.StepSystem

/-! # Approval requests

One row of `ApprovalRequest` and all that writes it: `ApprovalsService.respond` and `expire`
(`approvals/approvals.service.ts`), the expirer (`approvals/approval-expirer.worker.ts`), and
`handleAutoDecide` and `executeApproved` (`agents/autonomous-trader.worker.ts`). Each access to the
database is a step of its own, as is the swap, and between two of them other calls take theirs. The
notifications, the daily usage and the queue of rejections are left out.
-/
namespace SuperAi.Approvals
open SuperAi.Foundations SuperAi.Auth SuperAi.Execution
set_option autoImplicit false

/-! ## The row -/

inductive ApprovalStatus
  | PENDING
  | APPROVED
  | REJECTED
  | EXPIRED
  deriving DecidableEq, Repr

inductive ApprovalChannel
  | WEB
  | TELEGRAM
  deriving DecidableEq, Repr

inductive RejectCategory
  | TOO_RISKY
  | WRONG_TOKEN
  | BAD_TIMING
  | WRONG_SIZE
  | OTHER
  deriving DecidableEq, Repr

structure TradeIntent where
  chain : String
  tokenIn : String
  tokenOut : String
  amountIn : String
  notionalUsd : ℚ
  slippageBps : ℕ
  walletId : String
  executedTradeId : Option String := none
  deriving DecidableEq, Repr

structure ApprovalRequest where
  userId : String
  strategyId : Option String := none
  tradeIntent : TradeIntent
  status : ApprovalStatus := .PENDING
  expiresAt : ℤ
  respondedAt : Option ℤ := none
  respondedVia : Option ApprovalChannel := none
  rejectReason : Option String := none
  rejectCategory : Option RejectCategory := none
  deriving DecidableEq, Repr

structure RespondOpts where
  rejectCategory : Option RejectCategory := none
  rejectReason : Option String := none
  deriving DecidableEq, Repr

namespace ApprovalRequest
variable (req : ApprovalRequest) (now : ℤ)

/-- The data of the update in `respond`; a reason or category that is not given stays as it is. -/
def respond (accept : Bool) (via : ApprovalChannel) (opts : RespondOpts) : ApprovalRequest :=
  { req with
    status := if accept then .APPROVED else .REJECTED
    respondedAt := some now
    respondedVia := some via
    rejectCategory := if accept then req.rejectCategory else opts.rejectCategory.or req.rejectCategory
    rejectReason :=
      if accept then req.rejectReason else (opts.rejectReason.filter (· ≠ "")).or req.rejectReason }

def expire : ApprovalRequest := { req with status := .EXPIRED, respondedAt := some now }

/-- The update after the swap; `read` is the request as it was before it. -/
def settle (read : ApprovalRequest) (tradeId : String) : ApprovalRequest :=
  { req with
    status := .APPROVED
    respondedAt := some now
    tradeIntent := { read.tradeIntent with executedTradeId := some tradeId } }

def executed : Bool := (req.tradeIntent.executedTradeId.filter (· ≠ "")).isSome

def swapInput : SwapInput where
  userId := req.userId
  walletId := req.tradeIntent.walletId
  chain := if req.tradeIntent.chain = "SOLANA" then .SOLANA else .EVM
  tokenIn := req.tradeIntent.tokenIn
  tokenOut := req.tradeIntent.tokenOut
  amountIn := req.tradeIntent.amountIn
  notionalUsd := req.tradeIntent.notionalUsd
  slippageBps := req.tradeIntent.slippageBps
  strategyId := req.strategyId.filter (· ≠ "")

end ApprovalRequest

/-! ## The calls -/

/-- Where a call is: before the update, the read or the end of the swap that the name tells, or past
its last access. -/
inductive CallPhase
  | respond (accept : Bool) (via : ApprovalChannel) (opts : RespondOpts)
  | expire
  | readConfig
  | reject
  | readIntent
  | swap (read : ApprovalRequest)
  | settle (read : ApprovalRequest) (tradeId : String)
  | returned (req : Option ApprovalRequest)
  | failed
  deriving DecidableEq, Repr

namespace CallPhase

def finished : CallPhase → Bool
  | .returned _ => true
  | .failed => true
  | _ => false

def target : CallPhase → Option ApprovalStatus
  | .respond accept _ _ => some (if accept then .APPROVED else .REJECTED)
  | .expire => some .EXPIRED
  | .reject => some .EXPIRED
  | .settle _ _ => some .APPROVED
  | _ => none

/-- The row after the update of the call. No update looks at the status of the row. -/
def updated (now : ℤ) (req : ApprovalRequest) : CallPhase → Option ApprovalRequest
  | .respond accept via opts => some (req.respond now accept via opts)
  | .expire => some (req.expire now)
  | .reject => some (req.expire now)
  | .settle read tradeId => some (req.settle now read tradeId)
  | _ => none

def answer (req : ApprovalRequest) : CallPhase → Option ApprovalRequest
  | .respond _ _ _ => some req
  | .expire => some req
  | _ => none

def accepts : CallPhase → Bool
  | .respond accept _ _ => accept
  | _ => false

theorem updated_status {phase : CallPhase} {now : ℤ} {req req' : ApprovalRequest}
    (h : phase.updated now req = some req') : phase.target = some req'.status := by
  cases phase <;> simp only [updated, reduceCtorEq] at h <;> obtain rfl := Option.some.inj h <;> rfl

end CallPhase

/-- The row, the calls on it, whether an `execute-approved` job has been added to the queue, and the
swaps that have been started. -/
structure ApprovalState where
  request : ApprovalRequest
  calls : List CallPhase := []
  queued : Bool := false
  swaps : List SwapInput := []
  deriving DecidableEq, Repr

/-- A call starts and reads the row, a call makes its next access or fails at it, or the expirer runs. -/
inductive ApprovalStep
  | respond (userId : String) (accept : Bool) (via : ApprovalChannel) (opts : RespondOpts)
  | expire
  | autoDecide
  | executeApproved
  | expireDue (now : ℤ)
  | readConfig (i : ℕ) (onTimeout : Option String)
  | readIntent (i : ℕ)
  | swapped (i : ℕ) (result : Except String String)
  | update (i : ℕ) (now : ℤ)
  | fails (i : ℕ)

namespace ApprovalState
variable (s : ApprovalState)

def start (phase : CallPhase) : ApprovalState := { s with calls := s.calls ++ [phase] }

def setPhase (i : ℕ) (phase : CallPhase) : ApprovalState := { s with calls := s.calls.set i phase }

def respondChecked (userId : String) (accept : Bool) (via : ApprovalChannel) (opts : RespondOpts) : CallPhase :=
  if s.request.userId ≠ userId then .failed
  else if s.request.status ≠ .PENDING then .returned (some s.request)
  else .respond accept via opts

def expireChecked : CallPhase :=
  if s.request.status ≠ .PENDING then .returned (some s.request) else .expire

def autoDecideChecked : CallPhase :=
  if s.request.status ≠ .PENDING then .returned none else .readConfig

/-- The `updateMany` of the expirer, one command with its own condition. -/
def expireDue (now : ℤ) : ApprovalState :=
  if s.request.status = .PENDING ∧ s.request.expiresAt ≤ now then
    { s with request := s.request.expire now }
  else s

def step : ApprovalStep → Option ApprovalState
  | .respond userId accept via opts => some (s.start (s.respondChecked userId accept via opts))
  | .expire => some (s.start s.expireChecked)
  | .autoDecide => some (s.start s.autoDecideChecked)
  | .executeApproved => if s.queued then some (s.start .readIntent) else none
  | .expireDue now => some (s.expireDue now)
  | .readConfig i onTimeout => do
    let phase ← s.calls[i]?
    match phase with
    | .readConfig => some (s.setPhase i (if onTimeout.getD "reject" = "reject" then .reject else .readIntent))
    | _ => none
  | .readIntent i => do
    let phase ← s.calls[i]?
    match phase with
    | .readIntent =>
      if s.request.executed then some (s.setPhase i (.returned none))
      else some { s.setPhase i (.swap s.request) with swaps := s.swaps ++ [s.request.swapInput] }
    | _ => none
  | .swapped i result => do
    let phase ← s.calls[i]?
    match phase with
    | .swap read =>
      match result with
      | .ok tradeId => some (s.setPhase i (.settle read tradeId))
      | .error _ => some (s.setPhase i (.returned none))
    | _ => none
  | .update i now => do
    let phase ← s.calls[i]?
    let req ← phase.updated now s.request
    some { s.setPhase i (.returned (phase.answer req)) with request := req, queued := s.queued || phase.accepts }
  | .fails i => do
    let phase ← s.calls[i]?
    if phase.finished then none else some (s.setPhase i .failed)

end ApprovalState

def approvals : StepSystem ApprovalState ApprovalStep := ⟨ApprovalState.step⟩

end SuperAi.Approvals
