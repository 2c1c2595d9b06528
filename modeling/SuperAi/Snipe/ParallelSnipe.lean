import SuperAi.Foundations.StepSystem
import SuperAi.Foundations.KeyValue
import Mathlib.Data.Int.Notation

/-! # Bursts and paused queues

`ParallelSnipeService` (`snipe/parallel-snipe.service.ts`), as far as the queues are concerned: a burst pauses
the heavy queues (`agents/queues.ts`) and sets a timer of its user to resume them; a new burst of the same user
replaces the timer. The timer's callback resumes one queue after another, and waits for each.
-/
namespace SuperAi.Snipe
open SuperAi.Foundations
set_option autoImplicit false

inductive QueueName
  | DCA
  | STOP_LOSS
  | POSITION_MONITOR
  | COPY_TRADE
  | SNIPE
  | BRIEFING
  | NOTIFICATIONS
  | TELEGRAM_SEND
  | LEARNING_INGEST
  | STRATEGY_SCORER
  | STRATEGY_PERFORMANCE
  | AUTONOMOUS_TRADER
  | APPROVAL_EXPIRER
  | INTENT_EXTRACT_CHAT
  | INTENT_EXTRACT_REJECTION
  | INTENT_RETIRE_STALE
  | CONVERSATION_SUMMARIZE
  | CONVERSATION_IDLE_SWEEP
  | NOTE_EXTRACT
  | NOTE_RETIRE_STALE
  | EPISODE_INGEST
  | EPISODE_OUTCOME
  | CONVICTION_LEARNER
  | HOT_TOKENS_SCAN
  | HOT_TOKENS_REFRESH
  deriving DecidableEq, Repr

/-- `Object.values(QUEUES)`. -/
def QUEUES : List QueueName :=
  [.DCA, .STOP_LOSS, .POSITION_MONITOR, .COPY_TRADE, .SNIPE, .BRIEFING, .NOTIFICATIONS, .TELEGRAM_SEND,
    .LEARNING_INGEST, .STRATEGY_SCORER, .STRATEGY_PERFORMANCE, .AUTONOMOUS_TRADER, .APPROVAL_EXPIRER,
    .INTENT_EXTRACT_CHAT, .INTENT_EXTRACT_REJECTION, .INTENT_RETIRE_STALE, .CONVERSATION_SUMMARIZE,
    .CONVERSATION_IDLE_SWEEP, .NOTE_EXTRACT, .NOTE_RETIRE_STALE, .EPISODE_INGEST, .EPISODE_OUTCOME,
    .CONVICTION_LEARNER, .HOT_TOKENS_SCAN, .HOT_TOKENS_REFRESH]

def KEEP_ALIVE : List QueueName := [.POSITION_MONITOR, .TELEGRAM_SEND]

def PAUSE_QUEUES : List QueueName := QUEUES.filter fun q => !KEEP_ALIVE.contains q

def PAUSE_WINDOW_MS : ℤ := 30000

/-- `MIN_BUY_SOL` and `FEE_HEADROOM_SOL` together, in lamports. -/
def MIN_TOTAL_LAMPORTS : ℕ := 5000000 + 2000000

/-- A session takes part in the burst; a balance that is not known counts as 0. -/
def isFunded (balanceLamports : Option ℕ) : Bool := decide (MIN_TOTAL_LAMPORTS ≤ balanceLamports.getD 0)

/-- A resume command: its queue, its time, and the time of the last burst before it. -/
structure Resume where
  queue : QueueName
  time : ℤ
  lastBurst : Option ℤ
  deriving DecidableEq, Repr

/-- `resumeTimers` has the time at which a user's timer is due, `resuming` what is left to resume of each
callback. -/
structure PauseState where
  clock : ℤ
  paused : List QueueName := []
  resumeTimers : KeyValue String ℤ := []
  resuming : List (List QueueName) := []
  lastBurst : Option ℤ := none
  resumes : List Resume := []
  deriving DecidableEq, Repr

namespace PauseState

/-- The timer of the user is cleared, and a new one set. -/
def scheduleResume (s : PauseState) (userId : String) : PauseState :=
  { s with resumeTimers := s.resumeTimers.set userId (s.clock + PAUSE_WINDOW_MS) }

/-- `burst` with `pauseWorkers`, up to its broadcasts. Without a session it throws, and without a funded one it
returns before the pause. -/
def burst (s : PauseState) (userId : String) (balances : List (Option ℕ)) : PauseState :=
  let s := { s with lastBurst := some s.clock }
  if balances.any isFunded then { s with paused := PAUSE_QUEUES }.scheduleResume userId else s

/-- The callback of a user's timer. -/
def fires (s : PauseState) (userId : String) : PauseState :=
  { s with resuming := s.resuming ++ [PAUSE_QUEUES], resumeTimers := s.resumeTimers.del userId }

def resume (s : PauseState) (i : ℕ) (queue : QueueName) (rest : List QueueName) : PauseState :=
  { s with
    resuming := s.resuming.set i rest
    paused := s.paused.filter (· ≠ queue)
    resumes := s.resumes ++ [⟨queue, s.clock, s.lastBurst⟩] }

end PauseState

/-- A burst comes with the balances of the user's sessions; `fires` is the end of a timer, `resumes i` the next
command of a callback. -/
inductive PauseEvent
  | burst (userId : String) (balances : List (Option ℕ))
  | fires (userId : String)
  | resumes (i : ℕ)
  deriving DecidableEq, Repr

def PauseState.stepAt (s : PauseState) : PauseEvent → Option PauseState
  | .burst userId balances => some (s.burst userId balances)
  | .fires userId => (s.resumeTimers.get userId).bind fun due => if due ≤ s.clock then some (s.fires userId) else none
  | .resumes i =>
    s.resuming[i]?.bind fun
      | queue :: rest => some (s.resume i queue rest)
      | [] => none

/-- Each event carries its time; the clock does not go back. -/
def parallelSnipe : StepSystem PauseState (ℤ × PauseEvent) where
  step s e := if s.clock ≤ e.1 then { s with clock := e.1 }.stepAt e.2 else none

end SuperAi.Snipe
