import SuperAi.Foundations.StepSystem
import Mathlib.Data.Rat.Defs
import Mathlib.Algebra.Order.Ring.Rat

/-! # Orders and their monitor

The job of `startPositionMonitorWorker` (`agents/position-monitor.worker.ts`) reads the open trigger
orders, and takes them one by one: it asks for a price, keeps the peak of a trailing stop, and swaps an
order that triggers. `OrderManagerService` (`execution/order-manager.service.ts`) places and cancels
orders; `ExecutionService.swap` writes the status that an order ends with. Jobs can overlap. The warnings
and price alerts of the job do not touch orders and are left out.
-/
namespace SuperAi.Orders
open SuperAi.Foundations
set_option autoImplicit false

/-! ## Triggers -/

inductive OrderType
  | MARKET
  | LIMIT
  | STOP_LOSS
  | TAKE_PROFIT
  | TRAILING_STOP
  | BRACKET
  | DCA
  deriving DecidableEq, Repr

def TRIGGER_TYPES : List OrderType := [.STOP_LOSS, .TAKE_PROFIT, .TRAILING_STOP, .BRACKET, .LIMIT]

structure TriggerParams where
  stopPrice : Option ℚ := none
  takeProfit : Option ℚ := none
  trailBps : Option ℚ := none
  trailPeak : Option ℚ := none
  slippageBps : Option ℕ := none
  deriving DecidableEq, Repr

/-- Why an order triggers, with the bound in the text of the reason. -/
inductive TriggerReason
  | stop (stopPrice : ℚ)
  | take (takeProfit : ℚ)
  | limit (stopPrice : ℚ)
  | trailing (floor : ℚ)
  | bracketStop
  | bracketTake
  deriving DecidableEq, Repr

def trailingFloor (peak trailBps : ℚ) : ℚ := peak * (1 - trailBps / 10000)

def shouldTrigger (type : OrderType) (price : ℚ) (params : TriggerParams) : Option TriggerReason :=
  match type with
  | .STOP_LOSS => (params.stopPrice.filter (price ≤ ·)).map .stop
  | .TAKE_PROFIT => (params.takeProfit.filter (· ≤ price)).map .take
  | .LIMIT => (params.stopPrice.filter (price ≤ ·)).map .limit
  | .TRAILING_STOP =>
    ((params.trailBps.map (trailingFloor (params.trailPeak.getD price))).filter (price ≤ ·)).map .trailing
  | .BRACKET =>
    if (params.stopPrice.filter (price ≤ ·)).isSome then some .bracketStop
    else if (params.takeProfit.filter (· ≤ price)).isSome then some .bracketTake
    else none
  | .MARKET | .DCA => none

/-- The peak of a trailing stop is raised when the price has risen above it. -/
def trackPeak (type : OrderType) (price : ℚ) (params : TriggerParams) : TriggerParams :=
  if type = .TRAILING_STOP ∧ params.trailBps.isSome ∧ params.trailPeak.getD price < price then
    { params with trailPeak := some price }
  else params

/-- What a job makes of an open order; without a price it skips the order. -/
def monitorTick (type : OrderType) (price : Option ℚ) (params : TriggerParams) :
    Option TriggerReason × TriggerParams :=
  match price with
  | none => (none, params)
  | some price => (shouldTrigger type price params, trackPeak type price params)

/-! ## Orders -/

inductive OrderStatus
  | PENDING
  | ACTIVE
  | FILLED
  | CANCELLED
  | FAILED
  deriving DecidableEq, Repr

/-- The statuses that the monitor looks for. -/
def OrderStatus.isOpen : OrderStatus → Bool
  | .PENDING | .ACTIVE => true
  | .FILLED | .CANCELLED | .FAILED => false

/-- A row; its number in the table is the id. -/
structure Order where
  userId : String
  type : OrderType
  status : OrderStatus := .PENDING
  params : TriggerParams := {}
  deriving DecidableEq, Repr

def Order.isWatched (order : Order) : Bool := order.status.isOpen && TRIGGER_TYPES.contains order.type

/-! ## Jobs and swaps under way -/

/-- How the execution of a swap ends: on chain, on paper, or with an error, after which the transaction may
have landed all the same. -/
inductive Execution
  | confirmed
  | paper
  | failed (landed : Bool)
  deriving DecidableEq, Repr

/-- Where a job is, with the rows that it has still to look at, as it has read them. A swap of an order
waits for its screening (all that comes before the execution), its execution, and then for the update that
marks the order FAILED, or for its trade and the update that marks it FILLED; `landed` is a swap that is on
chain. -/
inductive JobPhase
  | scan (rest : List (ℕ × Order))
  | screen (id : ℕ) (rest : List (ℕ × Order))
  | execute (id : ℕ) (rest : List (ℕ × Order))
  | markFailed (id : ℕ) (landed : Bool) (rest : List (ℕ × Order))
  | create (id : ℕ) (landed : Bool) (rest : List (ℕ × Order))
  | markFilled (id : ℕ) (landed : Bool) (rest : List (ℕ × Order))
  deriving DecidableEq, Repr

/-- `started` has the order of each swap as it starts, `onChain` that of each swap as it lands. -/
structure MonitorState where
  orders : List Order := []
  jobs : List JobPhase := []
  started : List ℕ := []
  onChain : List ℕ := []
  deriving DecidableEq, Repr

namespace MonitorState

def setPhase (s : MonitorState) (i : ℕ) (phase : JobPhase) : MonitorState :=
  { s with jobs := s.jobs.set i phase }

def update (s : MonitorState) (id : ℕ) (f : Order → Order) : MonitorState :=
  { s with orders := s.orders.modify id f }

def setStatus (s : MonitorState) (id : ℕ) (status : OrderStatus) : MonitorState :=
  s.update id fun order => { order with status }

/-- `updateMany` by id and owner. -/
def cancel (s : MonitorState) (userId : String) (id : ℕ) : MonitorState :=
  s.update id fun order => if order.userId = userId then { order with status := .CANCELLED } else order

/-- A raised peak is stored with the params that the job has read. -/
def storePeak (s : MonitorState) (id : ℕ) (read params : TriggerParams) : MonitorState :=
  if params = read then s else s.update id fun order => { order with params }

/-- The job looks at its next row. -/
def next (s : MonitorState) (i : ℕ) (id : ℕ) (order : Order) (rest : List (ℕ × Order)) (price : Option ℚ) :
    MonitorState :=
  let (fire, params) := monitorTick order.type price order.params
  let s := s.storePeak id order.params params
  if fire.isSome then { s.setPhase i (.screen id rest) with started := s.started ++ [id] }
  else s.setPhase i (.scan rest)

def executed (s : MonitorState) (i : ℕ) (id : ℕ) (rest : List (ℕ × Order)) : Execution → MonitorState
  | .confirmed => { s.setPhase i (.create id true rest) with onChain := s.onChain ++ [id] }
  | .paper => s.setPhase i (.create id false rest)
  | .failed true => { s.setPhase i (.markFailed id true rest) with onChain := s.onChain ++ [id] }
  | .failed false => s.setPhase i (.markFailed id false rest)

end MonitorState

/-- `tick rows` is the reading of at most 500 open trigger orders; `aborts i` the error of an update of a
peak, which ends the job. A screening, or a write after the execution, that is not `ok` throws out of the swap,
and the job goes on with the next row. -/
inductive MonitorEvent
  | place (order : Order)
  | cancel (userId : String) (id : ℕ)
  | tick (rows : List ℕ)
  | next (i : ℕ) (price : Option ℚ)
  | aborts (i : ℕ)
  | admitted (i : ℕ) (ok : Bool)
  | executed (i : ℕ) (execution : Execution)
  | markedFailed (i : ℕ) (ok : Bool)
  | created (i : ℕ) (ok : Bool)
  | markedFilled (i : ℕ) (ok : Bool)
  deriving DecidableEq, Repr

def BATCH : ℕ := 500

def MonitorState.isWatched (s : MonitorState) (id : ℕ) : Bool := s.orders[id]?.any Order.isWatched

def positionMonitor : StepSystem MonitorState MonitorEvent where
  step s
    | .place order => if order.status.isOpen then some { s with orders := s.orders ++ [order] } else none
    | .cancel userId id => some (s.cancel userId id)
    | .tick rows =>
      if rows.length ≤ BATCH ∧ rows.Nodup ∧ rows.all s.isWatched then
        some { s with jobs := s.jobs ++ [.scan (rows.filterMap fun id => s.orders[id]?.map (id, ·))] }
      else none
    | .next i price =>
      s.jobs[i]?.bind fun
        | .scan ((id, order) :: rest) => some (s.next i id order rest price)
        | _ => none
    | .aborts i =>
      s.jobs[i]?.bind fun
        | .scan _ => some (s.setPhase i (.scan []))
        | _ => none
    | .admitted i ok =>
      s.jobs[i]?.bind fun
        | .screen id rest => some (s.setPhase i (if ok then .execute id rest else .scan rest))
        | _ => none
    | .executed i execution =>
      s.jobs[i]?.bind fun
        | .execute id rest => some (s.executed i id rest execution)
        | _ => none
    | .markedFailed i ok =>
      s.jobs[i]?.bind fun
        | .markFailed id _ rest =>
          some (if ok then (s.setStatus id .FAILED).setPhase i (.scan rest) else s.setPhase i (.scan rest))
        | _ => none
    | .created i ok =>
      s.jobs[i]?.bind fun
        | .create id landed rest => some (s.setPhase i (if ok then .markFilled id landed rest else .scan rest))
        | _ => none
    | .markedFilled i ok =>
      s.jobs[i]?.bind fun
        | .markFilled id _ rest =>
          some (if ok then (s.setStatus id .FILLED).setPhase i (.scan rest) else s.setPhase i (.scan rest))
        | _ => none

end SuperAi.Orders
