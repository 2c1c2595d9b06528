import SuperAi.Foundations.StepSystem
import SuperAi.Snipe.ExecuteSell

/-! # Interleaved sales of one row

Ticks of `checkPositions` and calls of `manualSell` each sell from the row as they read it. The
in-memory lock keeps two calls of `executeSell` apart, but it is released when the transaction is
sent and before the deferred update has reduced the amount on record. The engine below takes one
step for each stretch of code between two awaits; its runs oversell only if some claim succeeds
from a stale read (`sold_le_outAmount`).
-/
namespace SuperAi.Snipe
open SuperAi.Foundations
set_option autoImplicit false

/-! ## The engine around one row -/

/-- The await at which a call of `executeSell` stands. -/
inductive Stage
  | skipping | claiming | declined | building | releasing | sending | catching
  deriving DecidableEq, Repr

structure SellCall where
  trade : SnipeTrade
  order : SellOrder
  stage : Stage
  deriving DecidableEq

/-- A write on its way to the row that no call holding the lock awaits. -/
inductive RowWrite
  | record (b : Broadcast)
  | confirmFinal (sig : String)
  | markSellFailed (sig : String)
  | markHoneypot
  | recordPeak (peak : ℚ)
  deriving DecidableEq

namespace RowWrite

def apply : RowWrite → SnipeTrade → SnipeTrade
  | record b => b.record
  | confirmFinal sig => SnipeTrade.confirmFinal sig
  | markSellFailed sig => SnipeTrade.markSellFailed sig
  | markHoneypot => SnipeTrade.markHoneypot
  | recordPeak peak => SnipeTrade.recordPeak peak

def broadcast? : RowWrite → Option Broadcast
  | record b => some b
  | _ => none

theorem keeps_of_broadcast?_eq_none {w : RowWrite} (h : w.broadcast? = none) :
    KeepsPosition w.apply := by
  cases w with
  | record b => cases h
  | confirmFinal sig => exact KeepsPosition.confirmFinal sig
  | markSellFailed sig => exact KeepsPosition.markSellFailed sig
  | markHoneypot => exact KeepsPosition.markHoneypot
  | recordPeak peak => exact KeepsPosition.recordPeak peak

end RowWrite

structure Engine where
  row : SnipeTrade
  peaks : Option ℚ
  noRouteCount : ℕ
  /-- Rows read by ticks that await the market's answers. -/
  ticks : List SnipeTrade
  /-- Rows read by manual sells, with the user that asks. -/
  manuals : List (String × SnipeTrade)
  /-- The call of `executeSell` that holds the lock. -/
  lock : Option SellCall
  pending : List RowWrite
  monitors : List String
  /-- The amounts of all transactions handed to the network. -/
  broadcasts : List ℕ
  /-- Those of them whose row update was lost or never scheduled. -/
  unrecorded : List ℕ
  deriving DecidableEq

/-- The engine after the buy. -/
def Engine.start (row : SnipeTrade) : Engine :=
  ⟨row, none, 0, [], [], none, [], [], [], []⟩

/-- The answer to `sendRawTransaction`: it can also throw although the network has the transaction. -/
inductive SendReply
  | accepted (sig : String) | refused | lost
  deriving DecidableEq, Repr

inductive Event
  /-- A tick reads the open rows; `taken` is whether this one is among the first 200. -/
  | readTick (taken : Bool)
  | evaluate (i : ℕ) (config : Option SnipeConfig) (market : Market) (session : Bool)
  | readManual (userId : String)
  | resumeManual (i : ℕ) (session : Bool)
  | skip (lands : Bool)
  | claim (lands : Bool)
  | build (ok : Bool)
  | release (lands : Bool)
  | send (reply : SendReply)
  | caught (lands : Bool)
  | write (i : ℕ) (lands : Bool)
  | monitorEnds (i : ℕ) (ans : AttemptAnswers)

def HONEYPOT_TICK_THRESHOLD : ℕ := 3

namespace Engine

def readTick (taken : Bool) (s : Engine) : Engine :=
  if isOpen s.row && taken then { s with ticks := s.ticks ++ [s.row] } else { s with peaks := none }

/-- `executeSell` up to its first await: a held lock turns the call away. -/
def enter (trade : SnipeTrade) (order : SellOrder) (session : Bool) (s : Engine) : Engine :=
  match s.lock with
  | some _ => s
  | none => { s with lock := some ⟨trade, order, if session then .claiming else .skipping⟩ }

def noRoute (s : Engine) : Engine :=
  let misses := s.noRouteCount + 1
  if HONEYPOT_TICK_THRESHOLD ≤ misses then
    { s with noRouteCount := misses, pending := s.pending ++ [.markHoneypot] }
  else { s with noRouteCount := misses }

/-- `evaluateMintGroup` and `evaluateTrade`, for this row of the group. -/
def evaluate (config : Option SnipeConfig) (market : Market) (session : Bool) (trade : SnipeTrade)
    (s : Engine) : Engine :=
  if market.maxOut = 0 then s
  else
    match market.totalSolForMax.filter (· ≠ 0) with
    | none => s.noRoute
    | some totalSolForMax =>
      let evaluation := evaluateTrade config (totalSolForMax / market.maxOut) market s.peaks trade
      let peakWrite := evaluation.peakPriceMul.toList.map RowWrite.recordPeak
      let s := { s with noRouteCount := 0, peaks := evaluation.peaks, pending := s.pending ++ peakWrite }
      match evaluation.order with
      | none => s
      | some order => s.enter trade order session

def resumeManual (userId : String) (trade : SnipeTrade) (session : Bool) (s : Engine) : Engine :=
  match manualSell userId trade with
  | .error _ => s
  | .ok order => s.enter trade order session

/-- The claiming `updateMany` of a call. -/
def claim (lands : Bool) (call : SellCall) (s : Engine) : Engine :=
  if !lands then { s with lock := some { call with stage := .catching } }
  else if !s.row.claimable call.order.reason then
    { s with lock := some { call with stage := .declined } }
  else
    { s with row := s.row.claim call.order.reason, lock := some { call with stage := .building } }

/-- Sending, the scheduling of the row update and of the monitor, and the release of the lock. -/
def send (reply : SendReply) (call : SellCall) (s : Engine) : Engine :=
  match reply with
  | .accepted sig =>
    { s with
      lock := none
      pending := s.pending ++ [.record ⟨sig, call.order, call.trade⟩]
      monitors := s.monitors ++ [sig]
      broadcasts := call.order.tokenAmount :: s.broadcasts }
  | .refused => { s with lock := some { call with stage := .catching } }
  | .lost =>
    { s with
      lock := some { call with stage := .catching }
      broadcasts := call.order.tokenAmount :: s.broadcasts
      unrecorded := call.order.tokenAmount :: s.unrecorded }

/-- The call that holds the lock continues with the answer to the write or request it awaits. -/
def proceed (call : SellCall) (s : Engine) : Event → Option Engine
  | .skip lands =>
    if call.stage = .skipping then
      some { s with row := landing lands (SnipeTrade.markSkip call.order.reason) s.row, lock := none }
    else none
  | .claim lands => if call.stage = .claiming then some (s.claim lands call) else none
  | .build ok =>
    match call.stage with
    | .declined => some { s with lock := none }
    | .building => some { s with lock := some { call with stage := if ok then .sending else .releasing } }
    | _ => none
  | .release lands =>
    if call.stage = .releasing then
      some { s with row := landing lands (SnipeTrade.releaseClaim .failed) s.row, lock := none }
    else none
  | .send reply => if call.stage = .sending then some (s.send reply call) else none
  | .caught lands =>
    if call.stage = .catching then
      some { s with row := landing lands SnipeTrade.sellThrew s.row, lock := none }
    else none
  | _ => none

/-- A pending write lands or is lost. -/
def write (lands : Bool) (w : RowWrite) (s : Engine) : Engine :=
  let s := { s with row := landing lands w.apply s.row }
  match w with
  | .markHoneypot => { s with noRouteCount := 0 }
  | .record b =>
    if lands then s else { s with unrecorded := b.order.tokenAmount :: s.unrecorded }
  | _ => s

def monitorWrite (sig : String) (ans : AttemptAnswers) : RowWrite :=
  match pollStatus ans.lastPoll ans.polls with
  | .confirmed => .confirmFinal sig
  | _ => .markSellFailed sig

end Engine

def engine : StepSystem Engine Event where
  step s e :=
    match e with
    | .readTick taken => some (s.readTick taken)
    | .evaluate i config market session =>
      (s.ticks[i]?).map fun trade =>
        Engine.evaluate config market session trade { s with ticks := s.ticks.eraseIdx i }
    | .readManual userId => some { s with manuals := s.manuals ++ [(userId, s.row)] }
    | .resumeManual i session =>
      (s.manuals[i]?).map fun (userId, trade) =>
        Engine.resumeManual userId trade session { s with manuals := s.manuals.eraseIdx i }
    | .write i lands =>
      (s.pending[i]?).map fun w => Engine.write lands w { s with pending := s.pending.eraseIdx i }
    | .monitorEnds i ans =>
      (s.monitors[i]?).map fun sig =>
        { s with monitors := s.monitors.eraseIdx i, pending := s.pending ++ [Engine.monitorWrite sig ans] }
    | e => s.lock.bind fun call => s.proceed call e

/-! ## The code between the awaits, against `executeSell` and `monitorSell` -/

/-- The events of a call that is given these answers. -/
def SellAnswers.events (ans : SellAnswers) (claimable : Bool) : List Event :=
  if !ans.session then [.skip ans.skipLands]
  else if !ans.claimLands then [.claim false, .caught ans.catchLands]
  else if !claimable then [.claim true, .build ans.build]
  else if !ans.build then [.claim true, .build false, .release ans.releaseLands]
  else
    match ans.send with
    | none => [.claim true, .build true, .send .refused, .caught ans.catchLands]
    | some sig => [.claim true, .build true, .send (.accepted sig)]

/-- Undisturbed, a call that has entered goes through `executeSell`. -/
theorem executeSell_run (order : SellOrder) (trade : SnipeTrade) (ans : SellAnswers) (s : Engine)
    (hlock : s.lock = none) :
    ∃ t, engine.run (s.enter trade order ans.session) (ans.events (s.row.claimable order.reason)) =
        some t ∧ t.lock = none ∧ t.row = (executeSell order trade ans s.row).1 ∧
      t.pending = s.pending ++
        ((executeSell order trade ans s.row).2.toList.map fun sent => .record sent.1) := by
  obtain ⟨session, skipLands, claimLands, build, releaseLands, send, catchLands⟩ := ans
  cases session
  · simp [SellAnswers.events, executeSell, Engine.enter, hlock, StepSystem.run, engine, Engine.proceed]
  cases claimLands
  · simp [SellAnswers.events, executeSell, Engine.enter, hlock, StepSystem.run, engine, Engine.proceed,
      Engine.claim]
  cases hclaimable : s.row.claimable order.reason
  · simp [SellAnswers.events, executeSell, Engine.enter, hlock, StepSystem.run, engine, Engine.proceed,
      Engine.claim, hclaimable]
  cases build
  · simp [SellAnswers.events, executeSell, Engine.enter, hlock, StepSystem.run, engine, Engine.proceed,
      Engine.claim, hclaimable]
  cases send <;>
    simp [SellAnswers.events, executeSell, Engine.enter, hlock, StepSystem.run, engine, Engine.proceed,
      Engine.claim, Engine.send, hclaimable]

/-- The write of a monitor in the engine is the write of `monitorSell` with its one bundle. -/
theorem monitorSell_writes (trade : SnipeTrade) (answers : ℕ → AttemptAnswers) (bundle : SellBundle)
    (attempt : ℕ) (sig : String) (hconfirm : (answers attempt).confirmLands = true)
    (hfail : (answers attempt).failLands = true) :
    (monitorSell trade answers [bundle] attempt sig).writes =
      [(Engine.monitorWrite sig (answers attempt)).apply] := by
  simp only [monitorSell, Engine.monitorWrite]
  cases pollStatus (answers attempt).lastPoll (answers attempt).polls with
  | confirmed => simp [hconfirm, RowWrite.apply]
  | slippageFailed | otherFailed | timeout => simp [MonitorRun.fails, hfail, RowWrite.apply]

/-! ## Selling what is left -/

namespace Engine

/-- The broadcasts whose row update is still to come. -/
def unsettled (s : Engine) : List Broadcast := s.pending.filterMap RowWrite.broadcast?

/-- The row accounts for every broadcast so far. -/
def Settled (s : Engine) : Prop := s.unsettled = [] ∧ s.unrecorded = []

instance (s : Engine) : Decidable s.Settled :=
  inferInstanceAs (Decidable (_ ∧ _))

/-- What the row says is left, or will say once the pending update has landed. -/
def left (s : Engine) : ℕ :=
  match s.unsettled with
  | [] => s.row.outAmount.getD 0
  | b :: _ => b.remainingAfter

/-- The order of a call fits the row as it was read; once claimed, the row is still that row. -/
structure CallSound (s : Engine) (call : SellCall) : Prop where
  fits : call.order.Fits call.trade.outAmount
  fresh : call.stage = .building ∨ call.stage = .sending →
    s.Settled ∧ call.trade.outAmount = s.row.outAmount

structure Sound (initial : ℕ) (s : Engine) : Prop where
  total : s.broadcasts.sum ≤ initial
  balance : s.unrecorded = [] → s.broadcasts.sum + s.left ≤ initial
  one : s.unsettled.length ≤ 1
  call : ∀ call, s.lock = some call → s.CallSound call

variable {initial : ℕ} {s t : Engine}

/-- A step that sells nothing and records nothing only has its call to account for. -/
theorem Sound.of_same (h : s.Sound initial) (hb : t.broadcasts = s.broadcasts)
    (hr : t.unrecorded = s.unrecorded) (hu : t.unsettled = s.unsettled)
    (ho : t.row.outAmount = s.row.outAmount) (hcall : ∀ call, t.lock = some call → t.CallSound call) :
    t.Sound initial := by
  have hleft : t.left = s.left := by simp only [left, hu, ho]
  refine ⟨by rw [hb]; exact h.total, fun hnone => ?_, by rw [hu]; exact h.one, hcall⟩
  rw [hb, hleft]
  exact h.balance (hr ▸ hnone)

theorem CallSound.of_same {call : SellCall} (h : s.CallSound call)
    (hr : t.unrecorded = s.unrecorded) (hu : t.unsettled = s.unsettled)
    (ho : t.row.outAmount = s.row.outAmount) : t.CallSound call := by
  refine ⟨h.fits, fun hstage => ?_⟩
  obtain ⟨⟨hsettled, hrecorded⟩, hout⟩ := h.fresh hstage
  exact ⟨⟨hu ▸ hsettled, hr ▸ hrecorded⟩, hout.trans ho.symm⟩

/-- The call goes on, or is over. -/
theorem Sound.of_same_lock (h : s.Sound initial) (hb : t.broadcasts = s.broadcasts)
    (hr : t.unrecorded = s.unrecorded) (hu : t.unsettled = s.unsettled)
    (ho : t.row.outAmount = s.row.outAmount) (hlock : t.lock = s.lock ∨ t.lock = none) :
    t.Sound initial := by
  refine h.of_same hb hr hu ho fun call hcall => ?_
  rcases hlock with hlock | hlock
  · exact (h.call call (hlock ▸ hcall)).of_same hr hu ho
  · rw [hlock] at hcall
    cases hcall

/-- The call moves to a stage at which it holds no claim. -/
theorem Sound.of_same_stage (h : s.Sound initial) (hb : t.broadcasts = s.broadcasts)
    (hr : t.unrecorded = s.unrecorded) (hu : t.unsettled = s.unsettled)
    (ho : t.row.outAmount = s.row.outAmount) {call : SellCall} (hlock : t.lock = some call)
    (hfits : call.order.Fits call.trade.outAmount)
    (hstage : ¬ (call.stage = .building ∨ call.stage = .sending)) : t.Sound initial := by
  refine h.of_same hb hr hu ho fun call' hcall => ?_
  obtain rfl : call = call' := Option.some.inj (hlock.symm.trans hcall)
  exact ⟨hfits, fun hclaimed => absurd hclaimed hstage⟩

/-! ### The steps -/

theorem Sound.enter (h : s.Sound initial) {trade : SnipeTrade} {order : SellOrder} (session : Bool)
    (hfits : order.Fits trade.outAmount) : (s.enter trade order session).Sound initial := by
  unfold Engine.enter
  split
  · exact h
  · refine h.of_same_stage rfl rfl rfl rfl rfl hfits ?_
    cases session <;> simp

theorem Sound.noRoute (h : s.Sound initial) : s.noRoute.Sound initial := by
  unfold Engine.noRoute
  simp only
  split
  · exact h.of_same_lock rfl rfl (by simp [unsettled, RowWrite.broadcast?]) rfl (.inl rfl)
  · exact h.of_same_lock rfl rfl rfl rfl (.inl rfl)

theorem Sound.evaluate (h : s.Sound initial) (config : Option SnipeConfig) (market : Market)
    (session : Bool) (trade : SnipeTrade) :
    (s.evaluate config market session trade).Sound initial := by
  unfold Engine.evaluate
  split
  · exact h
  · split
    · exact h.noRoute
    · rename_i totalSolForMax hquote
      have hpeaks : ∀ peak : Option ℚ,
          (peak.toList.map RowWrite.recordPeak).filterMap RowWrite.broadcast? = [] := by
        intro peak
        cases peak <;> rfl
      simp only
      split
      · exact h.of_same_lock rfl rfl (by simp [unsettled, hpeaks]) rfl (.inl rfl)
      · rename_i order horder
        obtain ⟨preset, reason, hsale⟩ := evaluateTrade_order horder
        refine Sound.enter ?_ session (saleOrder_fits hsale)
        exact h.of_same_lock rfl rfl (by simp [unsettled, hpeaks]) rfl (.inl rfl)

theorem Sound.resumeManual (h : s.Sound initial) (userId : String) (trade : SnipeTrade)
    (session : Bool) : (s.resumeManual userId trade session).Sound initial := by
  unfold Engine.resumeManual
  split
  · exact h
  · rename_i order horder
    exact h.enter session (saleOrder_fits (manualSell_order DEFAULT horder))

/-- A claim may only succeed on a row that accounts for every broadcast, by a call whose read is
still what the row says. -/
def Fresh (s : Engine) (call : SellCall) : Prop :=
  s.row.claimable call.order.reason = true → s.Settled ∧ call.trade.outAmount = s.row.outAmount

instance (s : Engine) (call : SellCall) : Decidable (s.Fresh call) :=
  inferInstanceAs (Decidable (_ → _))

theorem Sound.claim (h : s.Sound initial) {call : SellCall} (hlock : s.lock = some call)
    (lands : Bool) (hfresh : lands = true → s.Fresh call) : (s.claim lands call).Sound initial := by
  have hfits := (h.call call hlock).fits
  unfold Engine.claim
  split_ifs with hlands hclaimable
  · exact h.of_same_stage rfl rfl rfl rfl rfl hfits (by simp)
  · exact h.of_same_stage rfl rfl rfl rfl rfl hfits (by simp)
  · obtain ⟨hsettled, hout⟩ := hfresh (by simpa using hlands) (by simpa using hclaimable)
    refine h.of_same rfl rfl rfl rfl fun call' hcall => ?_
    obtain rfl : { call with stage := .building } = call' := Option.some.inj hcall
    exact ⟨hfits, fun _ => ⟨hsettled, hout⟩⟩

theorem Sound.send (h : s.Sound initial) {call : SellCall} (hlock : s.lock = some call)
    (hstage : call.stage = .sending) (reply : SendReply) : (s.send reply call).Sound initial := by
  have hsound := h.call call hlock
  obtain ⟨⟨hsettled, hrecorded⟩, hout⟩ := hsound.fresh (.inr hstage)
  have hbalance := h.balance hrecorded
  have hleft : s.left = call.trade.outAmount.getD 0 := by simp [left, hsettled, hout]
  cases reply with
  | refused =>
    exact h.of_same_stage rfl rfl rfl rfl rfl hsound.fits (by simp)
  | accepted sig =>
    have hsum := Broadcast.amount_add_remaining (b := ⟨sig, call.order, call.trade⟩) hsound.fits
    have hnext : (s.send (.accepted sig) call).unsettled = [⟨sig, call.order, call.trade⟩] := by
      have hpending : s.pending.filterMap RowWrite.broadcast? = [] := hsettled
      simp [Engine.send, unsettled, hpending, RowWrite.broadcast?]
    have hsold : (s.send (.accepted sig) call).broadcasts.sum =
        call.order.tokenAmount + s.broadcasts.sum := by simp [Engine.send]
    simp only at hsum
    refine ⟨?_, fun _ => ?_, by simp [hnext], fun call' hcall => absurd hcall (by simp [Engine.send])⟩
    · rw [hsold]
      omega
    · rw [hsold, left, hnext]
      simp only
      omega
  | lost =>
    have hle := hsound.fits.le
    refine ⟨?_, fun hnone => absurd hnone (List.cons_ne_nil _ _), h.one, fun call' hcall => ?_⟩
    · simp only [Engine.send, List.sum_cons]
      omega
    · obtain rfl : { call with stage := .catching } = call' := Option.some.inj hcall
      exact ⟨hsound.fits, by simp⟩

theorem filterMap_eraseIdx {i : ℕ} {w : RowWrite} {l : List RowWrite} (hw : l[i]? = some w) :
    (w.broadcast? = none →
      (l.eraseIdx i).filterMap RowWrite.broadcast? = l.filterMap RowWrite.broadcast?) ∧
    ∀ b, w.broadcast? = some b → (l.filterMap RowWrite.broadcast?).length ≤ 1 →
      l.filterMap RowWrite.broadcast? = [b] ∧ (l.eraseIdx i).filterMap RowWrite.broadcast? = [] := by
  obtain ⟨hi, rfl⟩ := List.getElem?_eq_some_iff.mp hw
  have hsplit : l = l.take i ++ l[i] :: l.drop (i + 1) := by
    rw [List.getElem_cons_drop, List.take_append_drop]
  have herase : (l.eraseIdx i).filterMap RowWrite.broadcast? =
      (l.take i).filterMap RowWrite.broadcast? ++ (l.drop (i + 1)).filterMap RowWrite.broadcast? := by
    rw [List.eraseIdx_eq_take_drop_succ, List.filterMap_append]
  have hall : l.filterMap RowWrite.broadcast? = (l.take i).filterMap RowWrite.broadcast? ++
      ([l[i]].filterMap RowWrite.broadcast? ++ (l.drop (i + 1)).filterMap RowWrite.broadcast?) := by
    conv_lhs => rw [hsplit]
    rw [List.filterMap_append, ← List.singleton_append, List.filterMap_append]
  constructor
  · intro hnone
    rw [herase, hall]
    simp [hnone]
  · intro b hb hone
    rw [hall] at hone
    simp only [List.filterMap_cons, hb, List.filterMap_nil, List.length_append, List.length_cons,
      List.length_nil] at hone
    have htake : (l.take i).filterMap RowWrite.broadcast? = [] := List.length_eq_zero_iff.mp (by omega)
    have hdrop : (l.drop (i + 1)).filterMap RowWrite.broadcast? = [] :=
      List.length_eq_zero_iff.mp (by omega)
    rw [herase, hall, htake, hdrop]
    simp [hb]

theorem Sound.write (h : s.Sound initial) {i : ℕ} {w : RowWrite} (hw : s.pending[i]? = some w)
    (lands : Bool) :
    (Engine.write lands w { s with pending := s.pending.eraseIdx i }).Sound initial := by
  obtain ⟨hother, hrecord⟩ := filterMap_eraseIdx hw
  cases hb : w.broadcast? with
  | none =>
    have hrow := ((RowWrite.keeps_of_broadcast?_eq_none hb).landing lands s.row).1
    have hpending := hother hb
    cases w with
    | record b => cases hb
    | confirmFinal | markSellFailed | markHoneypot | recordPeak =>
      exact h.of_same_lock rfl rfl hpending hrow (.inl rfl)
  | some b =>
    obtain rfl : w = .record b := by
      cases w <;> simp_all [RowWrite.broadcast?]
    obtain ⟨hbefore, hafter⟩ := hrecord b rfl h.one
    have hnotclaimed : ∀ call, s.lock = some call →
        ¬ (call.stage = .building ∨ call.stage = .sending) := by
      intro call hcall hstage
      have hsettled := ((h.call call hcall).fresh hstage).1.1
      rw [unsettled, hbefore] at hsettled
      cases hsettled
    have hcall : ∀ call, s.lock = some call → ∀ t : Engine, t.CallSound call := fun call hlock t =>
      ⟨(h.call call hlock).fits, fun hstage => absurd hstage (hnotclaimed call hlock)⟩
    have hleft : s.left = b.remainingAfter := by
      have hunsettled : s.unsettled = [b] := hbefore
      simp [left, hunsettled]
    cases lands with
    | true =>
      refine ⟨h.total, fun hnone => ?_, by simp [Engine.write, unsettled, hafter], fun call hlock => hcall call hlock _⟩
      have hbalance := h.balance hnone
      have hunsettled :
          (Engine.write true (.record b) { s with pending := s.pending.eraseIdx i }).unsettled = [] := hafter
      rw [left, hunsettled]
      rw [hleft] at hbalance
      exact hbalance
    | false =>
      exact ⟨h.total, fun hnone => absurd hnone (List.cons_ne_nil _ _), by simp [Engine.write, unsettled, hafter],
        fun call hlock => hcall call hlock _⟩

/-- The guard of a run: every claim that succeeds is fresh. -/
def FreshClaim (s : Engine) (e : Event) : Prop :=
  match s.lock, e with
  | some call, .claim true => s.Fresh call
  | _, _ => True

instance (s : Engine) (e : Event) : Decidable (s.FreshClaim e) := by
  unfold FreshClaim
  split <;> infer_instance

theorem Sound.proceed (h : s.Sound initial) {call : SellCall} (hlock : s.lock = some call) {e : Event}
    (hguard : s.FreshClaim e) (hstep : s.proceed call e = some t) : t.Sound initial := by
  have hsound := h.call call hlock
  have hkeeps : ∀ {write : SnipeTrade → SnipeTrade} (lands : Bool), KeepsPosition write →
      ({ s with row := landing lands write s.row, lock := none } : Engine).Sound initial :=
    fun lands hwrite => h.of_same_lock rfl rfl rfl (hwrite.landing lands s.row).1 (.inr rfl)
  cases e with
  | skip lands =>
    obtain ⟨-, ⟨⟩⟩ := Option.ite_none_right_eq_some.mp hstep
    exact hkeeps lands (KeepsPosition.markSkip call.order.reason)
  | claim lands =>
    obtain ⟨-, ⟨⟩⟩ := Option.ite_none_right_eq_some.mp hstep
    refine h.claim hlock lands fun hlands => ?_
    subst hlands
    simpa [FreshClaim, hlock] using hguard
  | build ok =>
    simp only [Engine.proceed] at hstep
    split at hstep
    · cases hstep
      exact h.of_same_lock rfl rfl rfl rfl (.inr rfl)
    · rename_i hstage
      cases hstep
      refine h.of_same rfl rfl rfl rfl fun call' hcall => ?_
      obtain rfl := Option.some.inj hcall
      exact ⟨hsound.fits, fun _ => hsound.fresh (.inl hstage)⟩
    · cases hstep
  | release lands =>
    obtain ⟨-, ⟨⟩⟩ := Option.ite_none_right_eq_some.mp hstep
    exact hkeeps lands (KeepsPosition.releaseClaim .failed)
  | send reply =>
    obtain ⟨hstage, ⟨⟩⟩ := Option.ite_none_right_eq_some.mp hstep
    exact h.send hlock hstage reply
  | caught lands =>
    obtain ⟨-, ⟨⟩⟩ := Option.ite_none_right_eq_some.mp hstep
    exact hkeeps lands KeepsPosition.sellThrew
  | _ => cases hstep

/-- **One step.** Under the guard no step sells more than is left. -/
theorem Sound.step (h : s.Sound initial) {e : Event} (hguard : s.FreshClaim e)
    (hstep : engine.step s e = some t) : t.Sound initial := by
  have hproceed : (s.lock.bind fun call => s.proceed call e) = some t → t.Sound initial := by
    intro hbind
    obtain ⟨call, hlock, hcall⟩ := Option.bind_eq_some_iff.mp hbind
    exact h.proceed hlock hguard hcall
  cases e with
  | readTick taken =>
    cases hstep
    unfold Engine.readTick
    split <;> exact h.of_same_lock rfl rfl rfl rfl (.inl rfl)
  | evaluate i config market session =>
    obtain ⟨trade, -, rfl⟩ := Option.map_eq_some_iff.mp hstep
    refine Sound.evaluate ?_ config market session trade
    exact h.of_same_lock rfl rfl rfl rfl (.inl rfl)
  | readManual userId =>
    cases hstep
    exact h.of_same_lock rfl rfl rfl rfl (.inl rfl)
  | resumeManual i session =>
    obtain ⟨⟨userId, trade⟩, -, rfl⟩ := Option.map_eq_some_iff.mp hstep
    refine Sound.resumeManual ?_ userId trade session
    exact h.of_same_lock rfl rfl rfl rfl (.inl rfl)
  | write i lands =>
    obtain ⟨w, hw, rfl⟩ := Option.map_eq_some_iff.mp hstep
    exact h.write hw lands
  | monitorEnds i ans =>
    obtain ⟨sig, -, rfl⟩ := Option.map_eq_some_iff.mp hstep
    refine h.of_same_lock rfl rfl ?_ rfl (.inl rfl)
    have hwrite : (monitorWrite sig ans).broadcast? = none := by
      unfold monitorWrite
      split <;> rfl
    simp [unsettled, hwrite]
  | skip | claim | build | release | send | caught => exact hproceed hstep

theorem sound_start (row : SnipeTrade) : (start row).Sound (row.outAmount.getD 0) where
  total := Nat.zero_le _
  balance _ := by simp [start, left, unsettled]
  one := Nat.zero_le _
  call call hcall := by cases hcall

end Engine

/-- **No oversell while claims are fresh.** In every run in which no claim succeeds from a stale
read, all transactions broadcast for the row sell together at most what it held after the buy. -/
theorem sold_le_outAmount {row : SnipeTrade} {es : List Event} {s : Engine}
    (h : engine.GuardedRun Engine.FreshClaim (Engine.start row) es s) :
    s.broadcasts.sum ≤ row.outAmount.getD 0 :=
  (h.invariant (I := Engine.Sound (row.outAmount.getD 0))
    (fun _ _ _ hs hguard hstep => hs.step hguard hstep) (Engine.sound_start row)).total

/-- The market's answers to a tick, with a quote of `totalSolForMax` for `maxOut` tokens. -/
def quoted (maxOut totalSolForMax : ℕ) (topHolderDumped : Bool) : Market :=
  ⟨maxOut, some totalSolForMax, none, topHolderDumped, 1000⟩

def sellConfig : Option SnipeConfig := some ⟨true, "DEFAULT"⟩

/-- The events of a call whose sale is sent. -/
def sells (sig : String) : List Event :=
  [.claim true, .build true, .send (.accepted sig)]

/-- A take profit, its update, and a trailing stop on a later tick: the position is sold exactly. -/
def takeProfitThenTrail : List Event :=
  [.readTick true, .evaluate 0 sellConfig (quoted 1000 220000000 false) true] ++ sells "s1" ++
    [.write 1 true, .write 0 true, .readTick true,
      .evaluate 0 sellConfig (quoted 500 50000000 false) true] ++ sells "s2"

theorem sold_le_outAmount_takeProfit :
    ∃ s, engine.GuardedRun Engine.FreshClaim (Engine.start boughtRow) takeProfitThenTrail s ∧
      s.broadcasts = [500, 500] ∧ s.broadcasts.sum ≤ 1000 := by
  have hrun : (engine.guardedRun Engine.FreshClaim (Engine.start boughtRow) takeProfitThenTrail).map
      Engine.broadcasts = some [500, 500] := by decide +kernel
  obtain ⟨s, hs, hsold⟩ := Option.map_eq_some_iff.mp hrun
  have hguarded := StepSystem.GuardedRun.of_guardedRun hs
  exact ⟨s, hguarded, hsold, sold_le_outAmount hguarded⟩

/-- Two overlapping ticks read the row; the first takes its profit, and the second, which learns of
a top holder's dump, sells the amount it has read. -/
def overlappingTicks : List Event :=
  [.readTick true, .readTick true, .evaluate 0 sellConfig (quoted 1000 220000000 false) true] ++
    sells "s1" ++ [.write 1 true, .evaluate 0 sellConfig (quoted 1000 220000000 true) true] ++ sells "s2"

theorem oversold :
    ¬ ∀ (row : SnipeTrade) (es : List Event) (s : Engine),
      engine.run (Engine.start row) es = some s → s.broadcasts.sum ≤ row.outAmount.getD 0 := by
  intro hall
  have hrun : (engine.run (Engine.start boughtRow) overlappingTicks).map Engine.broadcasts =
      some [1000, 500] := by decide +kernel
  obtain ⟨s, hs, hsold⟩ := Option.map_eq_some_iff.mp hrun
  have hle := hall boughtRow overlappingTicks s hs
  rw [hsold] at hle
  exact absurd hle (by decide)

end SuperAi.Snipe
