import SuperAi.Snipe.Oversell

/-! # Positions that stay monitored

A row that still holds tokens while no sale of it is under way should be among the rows that
`checkPositions` reads. The engine of one row is run here with the wallet's balance and the fate of its
transactions on chain. A row falls out of the query by a sale without a session (`skip`), by attempts that
were no failures, by a final sale of less than the wallet holds, and by an update that is lost or comes
after that of the monitor; these are all the ways (`keeps_monitored`).
-/
namespace SuperAi.Snipe
open SuperAi.Foundations
set_option autoImplicit false

/-! ## The row and the chain -/

inductive FlightOutcome
  | succeeded | failed | expired
  deriving DecidableEq, Repr

/-- A transaction that the network has been given, under the signature that the service knows of it. -/
structure Flight where
  sig : Option String
  amount : ℕ
  outcome : Option FlightOutcome := none
  deriving DecidableEq

structure Holding where
  engine : Engine
  /-- The tokens of the row that the wallet holds. -/
  balance : ℕ
  flights : List Flight := []
  /-- The sales that could not be built or sent, failed on chain or timed out. -/
  failures : ℕ := 0
  markedHoneypot : Bool := false
  deriving DecidableEq

inductive HoldingEvent
  | engine (e : Event)
  | settle (i : ℕ) (outcome : FlightOutcome)

def RowWrite.isFailure : RowWrite → Bool
  | .markSellFailed _ => true
  | _ => false

namespace Holding

def settled (s : Holding) (sig : String) (outcome : FlightOutcome) : Bool :=
  s.flights.any fun f => f.sig == some sig && f.outcome == some outcome

/-- The monitor sees what the chain has done, or times out. -/
def sees (s : Holding) (sig : String) (ans : AttemptAnswers) : Bool :=
  match pollStatus ans.lastPoll ans.polls with
  | .confirmed => s.settled sig .succeeded
  | .slippageFailed | .otherFailed => s.settled sig .failed
  | .timeout => true

def sent (s : Holding) : Event → List Flight
  | .send (.accepted sig) => s.engine.lock.toList.map fun call => { sig := some sig, amount := call.order.tokenAmount }
  | .send .lost => s.engine.lock.toList.map fun call => { sig := none, amount := call.order.tokenAmount }
  | _ => []

def fails (s : Holding) : Event → Bool
  | .release _ | .caught _ => true
  | .write i _ => s.engine.pending[i]?.any RowWrite.isFailure
  | _ => false

def marks (s : Holding) : Event → Bool
  | .write i true => s.engine.pending[i]? == some .markHoneypot
  | _ => false

def possible (s : Holding) : Event → Bool
  | .monitorEnds i ans => s.engine.monitors[i]?.any fun sig => s.sees sig ans
  | _ => true

/-- The balance after a transaction has landed; one that sells too much cannot succeed. -/
def settle (i : ℕ) (outcome : FlightOutcome) (s : Holding) : Option Holding :=
  match s.flights[i]? with
  | some f =>
    if f.outcome = none ∧ (outcome = .succeeded → f.amount ≤ s.balance) then
      some { s with
        flights := s.flights.set i { f with outcome := some outcome }
        balance := if outcome = .succeeded then s.balance - f.amount else s.balance }
    else none
  | none => none

end Holding

def holdings : StepSystem Holding HoldingEvent where
  step s
    | .engine e =>
      if s.possible e = true then
        (Snipe.engine.step s.engine e).map fun engine =>
          { s with
            engine
            flights := s.flights ++ s.sent e
            failures := s.failures + if s.fails e then 1 else 0
            markedHoneypot := s.markedHoneypot || s.marks e }
      else none
    | .settle i outcome => s.settle i outcome

/-! ## Monitored positions -/

def RowWrite.ofSale : RowWrite → Bool
  | .record _ | .confirmFinal _ | .markSellFailed _ => true
  | .markHoneypot | .recordPeak _ => false

namespace Holding

/-- No call, no update, no monitor and no transaction of a sale is under way. -/
structure Quiet (s : Holding) : Prop where
  lock : s.engine.lock = none
  pending : ∀ w ∈ s.engine.pending, w.ofSale = false
  monitors : s.engine.monitors = []
  flights : ∀ f ∈ s.flights, f.outcome ≠ none

/-- The row sells no more, has failed often enough or is a honeypot. -/
def Excused (s : Holding) : Prop := s.balance = 0 ∨ MAX_SELL_ATTEMPTS ≤ s.failures ∨ s.markedHoneypot = true

instance (s : Holding) : Decidable s.Excused := inferInstanceAs (Decidable (_ ∨ _))

def Monitored (s : Holding) : Prop := s.Quiet → s.Excused ∨ isOpen s.engine.row = true

instance (s : Holding) : Decidable s.Quiet :=
  decidable_of_iff (s.engine.lock = none ∧ (∀ w ∈ s.engine.pending, w.ofSale = false) ∧ s.engine.monitors = [] ∧
      ∀ f ∈ s.flights, f.outcome ≠ none)
    ⟨fun ⟨hlock, hpending, hmonitors, hflights⟩ => ⟨hlock, hpending, hmonitors, hflights⟩,
      fun ⟨hlock, hpending, hmonitors, hflights⟩ => ⟨hlock, hpending, hmonitors, hflights⟩⟩

instance (s : Holding) : Decidable s.Monitored := inferInstanceAs (Decidable (_ → _))

/-! ## Steps that keep a position monitored -/

/-- A failed sale is tried again, or it is the last of as many failures as there are attempts. -/
def Retryable (s : Holding) (attempt : ℕ) : Prop :=
  s.engine.row.sellAttempts + attempt < MAX_SELL_ATTEMPTS ∨ MAX_SELL_ATTEMPTS ≤ s.failures + 1

def Unrecorded (s : Holding) (sig : String) : Prop := ∃ b, RowWrite.record b ∈ s.engine.pending ∧ b.sig = sig

/-- The updates of sales land, those of a sale's monitor after the one that records it, and none
confirms a final sale while the wallet holds tokens. -/
def WriteKept (s : Holding) (lands : Bool) : RowWrite → Prop
  | .record _ => lands = true
  | .confirmFinal sig =>
    ¬ s.Unrecorded sig ∧ ¬ (s.engine.row.sellTxHash = some sig ∧ s.engine.row.sellStatus = some .broadcast)
  | .markSellFailed sig => lands = true ∧ ¬ s.Unrecorded sig ∧ s.Retryable 0
  | .markHoneypot | .recordPeak _ => True

/-- The guard of a run; a row that is excused already may take any step. -/
def Kept (s : Holding) : HoldingEvent → Prop
  | .settle _ _ => True
  | .engine e => s.Excused ∨
    match e with
    | .skip lands => lands = true → s.engine.row.sellStatus ≠ none ∧ s.engine.row.sellStatus ≠ some .failed
    | .release lands => lands = true ∧ s.Retryable 0
    | .caught lands => lands = true ∧ s.Retryable 1
    | .write i lands => ∀ w ∈ s.engine.pending[i]?, s.WriteKept lands w
    | _ => True

instance (s : Holding) (attempt : ℕ) : Decidable (s.Retryable attempt) := inferInstanceAs (Decidable (_ ∨ _))

instance (s : Holding) (sig : String) : Decidable (s.Unrecorded sig) :=
  decidable_of_iff (∃ b ∈ s.engine.unsettled, b.sig = sig) <| by
    have hbroadcast (w : RowWrite) (b : Broadcast) : w.broadcast? = some b ↔ w = .record b := by
      cases w <;> simp [RowWrite.broadcast?]
    simp [Unrecorded, Engine.unsettled, hbroadcast]

instance (s : Holding) (lands : Bool) (w : RowWrite) : Decidable (s.WriteKept lands w) :=
  match w with
  | .record _ => inferInstanceAs (Decidable (_ = _))
  | .confirmFinal _ => inferInstanceAs (Decidable (_ ∧ _))
  | .markSellFailed _ => inferInstanceAs (Decidable (_ ∧ _ ∧ _))
  | .markHoneypot | .recordPeak _ => instDecidableTrue

instance (s : Holding) (e : HoldingEvent) : Decidable (s.Kept e) :=
  match e with
  | .settle _ _ => instDecidableTrue
  | .engine (.skip lands) => inferInstanceAs (Decidable (s.Excused ∨
      (lands = true → s.engine.row.sellStatus ≠ none ∧ s.engine.row.sellStatus ≠ some .failed)))
  | .engine (.release lands) => inferInstanceAs (Decidable (s.Excused ∨ lands = true ∧ s.Retryable 0))
  | .engine (.caught lands) => inferInstanceAs (Decidable (s.Excused ∨ lands = true ∧ s.Retryable 1))
  | .engine (.write i lands) => inferInstanceAs (Decidable (s.Excused ∨
      ∀ w ∈ s.engine.pending[i]?, s.WriteKept lands w))
  | .engine (.readTick _) | .engine (.evaluate _ _ _ _) | .engine (.readManual _) | .engine (.resumeManual _ _)
  | .engine (.claim _) | .engine (.build _) | .engine (.send _) | .engine (.monitorEnds _ _) =>
    inferInstanceAs (Decidable (s.Excused ∨ True))

/-- A call has claimed the row, or has to mark a failure. -/
def Busy (s : Engine) : Prop := ∃ call ∈ s.lock, call.stage ∉ [.skipping, .claiming, .declined]

/-- A monitor will still write for the transaction. -/
def Watched (s : Engine) (sig : String) : Prop :=
  sig ∈ s.monitors ∨ .confirmFinal sig ∈ s.pending ∨ .markSellFailed sig ∈ s.pending

/-- Who will get the row out of the states that the query leaves out. -/
structure Attended (s : Engine) : Prop where
  bought : s.row.status = .confirmed ∧ s.row.outAmount.isSome = true
  claimed : s.row.sellStatus = some .pending → Busy s ∨ ∃ b, RowWrite.record b ∈ s.pending
  broadcast : s.row.sellStatus = some .broadcast → ∃ sig, s.row.sellTxHash = some sig ∧ Watched s sig
  failed : s.row.sellStatus = some .failed → s.row.sellAttempts < MAX_SELL_ATTEMPTS
  others : s.row.sellStatus ≠ some .confirmed ∧ s.row.sellStatus ≠ some .skip ∧ s.row.sellStatus ≠ some .honeypot
  records : ∀ b, RowWrite.record b ∈ s.pending → Watched s b.sig

variable {s t : Holding}

theorem Attended.isOpen_of_quiet (h : Attended s.engine) (hquiet : s.Quiet) : isOpen s.engine.row = true := by
  have hunwatched (sig : String) : ¬ Watched s.engine sig := by
    rintro (hmonitor | hconfirm | hfail)
    · simp [hquiet.monitors] at hmonitor
    · exact nomatch hquiet.pending _ hconfirm
    · exact nomatch hquiet.pending _ hfail
  have hpending : s.engine.row.sellStatus ≠ some .pending := by
    intro hstatus
    obtain ⟨call, hcall, -⟩ | ⟨b, hb⟩ := h.claimed hstatus
    · simp [hquiet.lock] at hcall
    · exact nomatch hquiet.pending _ hb
  have hbroadcast : s.engine.row.sellStatus ≠ some .broadcast := by
    intro hstatus
    obtain ⟨sig, -, hwatched⟩ := h.broadcast hstatus
    exact hunwatched sig hwatched
  obtain ⟨hstatus, hout⟩ := h.bought
  obtain ⟨hconfirmed, hskip, hhoneypot⟩ := h.others
  unfold isOpen
  rw [hstatus, hout]
  cases hsell : s.engine.row.sellStatus with
  | none => rfl
  | some status =>
    cases status with
    | pending => exact absurd hsell hpending
    | broadcast => exact absurd hsell hbroadcast
    | confirmed => exact absurd hsell hconfirmed
    | skip => exact absurd hsell hskip
    | honeypot => exact absurd hsell hhoneypot
    | failed => simpa using h.failed hsell
    | partialTp1 => rfl
    | partialTp2 => rfl

theorem excused_step {e : HoldingEvent} (h : s.Excused) (hstep : holdings.step s e = some t) : t.Excused := by
  cases e with
  | engine e =>
    obtain ⟨-, hstep⟩ := Option.ite_none_right_eq_some.mp hstep
    obtain ⟨engine, -, rfl⟩ := Option.map_eq_some_iff.mp hstep
    obtain hsold | hfailed | hmarked := h
    · exact .inl hsold
    · exact .inr (.inl (Nat.le_add_right_of_le hfailed))
    · exact .inr (.inr (by simp [hmarked]))
  | settle i outcome =>
    simp only [holdings, settle] at hstep
    split at hstep
    · obtain ⟨-, hstep⟩ := Option.ite_none_right_eq_some.mp hstep
      obtain rfl := Option.some.inj hstep
      obtain hsold | hrest := h
      · left
        show (if outcome = .succeeded then s.balance - _ else s.balance) = 0
        split_ifs <;> omega
      · exact .inr hrest
    · exact nomatch hstep

theorem settle_engine {i : ℕ} {outcome : FlightOutcome} (hstep : holdings.step s (.settle i outcome) = some t) :
    t.engine = s.engine := by
  simp only [holdings, settle] at hstep
  split at hstep
  · obtain ⟨-, hstep⟩ := Option.ite_none_right_eq_some.mp hstep
    obtain rfl := Option.some.inj hstep
    rfl
  · exact nomatch hstep

/-! ### Steps of the engine -/

section attended
variable {u v : Engine}

theorem Watched.mono {sig : String} (h : Watched u sig) (hmonitors : ∀ sig ∈ u.monitors, sig ∈ v.monitors)
    (hpending : ∀ w ∈ u.pending, w.ofSale = true → w ∈ v.pending) : Watched v sig :=
  h.imp (hmonitors sig) (Or.imp (hpending _ · rfl) (hpending _ · rfl))

/-- A step that touches at most the peak of the row and drops nobody who attends to it. -/
theorem Attended.of_same (h : Attended u) {peak : Option ℚ} (hrow : v.row = { u.row with peakPriceMul := peak })
    (hbusy : Busy u → Busy v) (hwatched : ∀ sig, u.row.sellTxHash = some sig ∧ u.row.sellStatus = some .broadcast ∨
      (∃ b, RowWrite.record b ∈ v.pending ∧ b.sig = sig) → Watched u sig → Watched v sig)
    (hrecords : ∀ b, RowWrite.record b ∈ v.pending ↔ RowWrite.record b ∈ u.pending) : Attended v where
  bought := by
    rw [hrow]
    exact h.bought
  claimed hstatus := by
    rw [hrow] at hstatus
    exact (h.claimed hstatus).imp hbusy fun ⟨b, hb⟩ => ⟨b, (hrecords b).mpr hb⟩
  broadcast hstatus := by
    rw [hrow] at hstatus ⊢
    obtain ⟨sig, hsig, hsigw⟩ := h.broadcast hstatus
    exact ⟨sig, hsig, hwatched sig (.inl ⟨hsig, hstatus⟩) hsigw⟩
  failed hstatus := by
    rw [hrow] at hstatus ⊢
    exact h.failed hstatus
  others := by
    rw [hrow]
    exact h.others
  records b hb := hwatched b.sig (.inr ⟨b, hb, rfl⟩) (h.records b ((hrecords b).mp hb))

/-- The lock changes hands, and a call that has claimed the row keeps it. -/
theorem Attended.of_lock (h : Attended u) (hrow : v.row = u.row) (hbusy : Busy u → Busy v)
    (hpending : v.pending = u.pending) (hmonitors : v.monitors = u.monitors) : Attended v := by
  refine h.of_same (hrow.trans rfl) hbusy (fun sig _ hsig => ?_) fun b => by rw [hpending]
  unfold Watched
  rwa [hpending, hmonitors]

theorem Attended.enter (h : Attended u) (trade : SnipeTrade) (order : SellOrder) (session : Bool) :
    Attended (u.enter trade order session) := by
  unfold Engine.enter
  split
  · exact h
  · rename_i hlock
    refine h.of_lock rfl (fun hbusy => ?_) rfl rfl
    obtain ⟨call, hcall, -⟩ := hbusy
    simp [hlock] at hcall

theorem Attended.evaluate (h : Attended u) (config : Option SnipeConfig) (market : Market) (session : Bool)
    (trade : SnipeTrade) : Attended (u.evaluate config market session trade) := by
  unfold Engine.evaluate
  split
  · exact h
  · split
    · unfold Engine.noRoute
      simp only
      split
      · exact h.of_same rfl id (fun _ _ hsig => hsig.mono (fun _ h => h) fun _ hw _ => List.mem_append_left _ hw) (by simp)
      · exact h.of_lock rfl id rfl rfl
    · rename_i totalSolForMax hquote
      generalize evaluateTrade config (totalSolForMax / market.maxOut) market u.peaks trade = evaluation
      have hpeak : Attended { u with
          noRouteCount := 0, peaks := evaluation.peaks,
          pending := u.pending ++ evaluation.peakPriceMul.toList.map RowWrite.recordPeak } := by
        refine h.of_same rfl id (fun _ _ hsig => hsig.mono (fun _ h => h) fun _ hw _ => List.mem_append_left _ hw) ?_
        simp
      simp only
      split
      · exact hpeak
      · exact hpeak.enter trade _ session

theorem Attended.resumeManual (h : Attended u) (userId : String) (trade : SnipeTrade) (session : Bool) :
    Attended (u.resumeManual userId trade session) := by
  unfold Engine.resumeManual
  split
  · exact h
  · exact h.enter trade _ session

theorem not_busy {call : SellCall} (hlock : u.lock = some call) (hstage : call.stage ∈ [.skipping, .claiming, .declined]) :
    ¬ Busy u := by
  rintro ⟨call', hcall', hbusy⟩
  obtain rfl : call = call' := Option.some.inj (hlock.symm.trans hcall')
  exact hbusy hstage

/-- The row is marked as failed, to be tried again. -/
theorem Attended.failed_row (h : Attended u) (hbought : v.row.status = u.row.status)
    (hout : v.row.outAmount = u.row.outAmount) (hstatus : v.row.sellStatus = some .failed)
    (hattempts : v.row.sellAttempts < MAX_SELL_ATTEMPTS)
    (hrecords : ∀ b, RowWrite.record b ∈ v.pending → Watched v b.sig) : Attended v where
  bought := by
    rw [hbought, hout]
    exact h.bought
  claimed hpending := by simp [hstatus] at hpending
  broadcast hbroadcast := by simp [hstatus] at hbroadcast
  failed _ := hattempts
  others := by simp [hstatus]
  records := hrecords

/-! The steps of the call that holds the lock -/

theorem Attended.claim (h : Attended u) (hidle : ¬ Busy u) (lands : Bool) (call : SellCall) :
    Attended (u.claim lands call) := by
  unfold Engine.claim
  split_ifs
  · exact h.of_lock rfl (fun hbusy => absurd hbusy hidle) rfl rfl
  · exact h.of_lock rfl (fun hbusy => absurd hbusy hidle) rfl rfl
  · exact ⟨h.bought, fun _ => .inl ⟨_, rfl, by simp⟩, by simp [SnipeTrade.claim], by simp [SnipeTrade.claim],
      by simp [SnipeTrade.claim], h.records⟩

theorem Attended.send (h : Attended u) (reply : SendReply) (call : SellCall) : Attended (u.send reply call) := by
  cases reply with
  | accepted sig =>
    have hmono : ∀ sig', Watched u sig' → Watched (u.send (.accepted sig) call) sig' := fun _ hsig =>
      hsig.mono (fun _ hm => List.mem_append_left _ hm) fun _ hw _ => List.mem_append_left _ hw
    refine ⟨h.bought, fun _ => .inr ⟨_, List.mem_append_right _ (List.mem_singleton_self _)⟩, fun hstatus => ?_,
      h.failed, h.others, fun b hb => ?_⟩
    · obtain ⟨sig', hsig', hwatched⟩ := h.broadcast hstatus
      exact ⟨sig', hsig', hmono sig' hwatched⟩
    · obtain hold | hnew := List.mem_append.mp hb
      · exact hmono _ (h.records b hold)
      · obtain rfl := RowWrite.record.inj (List.mem_singleton.mp hnew)
        exact .inl (List.mem_append_right _ (List.mem_singleton_self _))
  | refused => exact h.of_lock rfl (fun _ => ⟨_, rfl, by simp⟩) rfl rfl
  | lost => exact h.of_lock rfl (fun _ => ⟨_, rfl, by simp⟩) rfl rfl

theorem mem_eraseIdx_of_ne {α : Type} {l : List α} {i : ℕ} {a b : α} (ha : l[i]? = some a) (hb : b ∈ l)
    (hne : b ≠ a) : b ∈ l.eraseIdx i := by
  obtain ⟨j, hj⟩ := List.mem_iff_getElem?.mp hb
  refine List.mem_eraseIdx_iff_getElem?.mpr ⟨j, fun heq => ?_, hj⟩
  subst heq
  exact hne (Option.some.inj (hj.symm.trans ha))

theorem Watched.eraseIdx {sig : String} {i : ℕ} {w : RowWrite} (h : Watched u sig) (hw : u.pending[i]? = some w)
    (hconfirm : w ≠ .confirmFinal sig) (hfail : w ≠ .markSellFailed sig) (hmonitors : v.monitors = u.monitors)
    (hpending : v.pending = u.pending.eraseIdx i) : Watched v sig := by
  unfold Watched
  rw [hmonitors, hpending]
  exact h.imp_right (Or.imp (mem_eraseIdx_of_ne hw · hconfirm.symm) (mem_eraseIdx_of_ne hw · hfail.symm))

/-- An update is done that records nothing, and whose transaction neither the row nor a record still waits for. -/
theorem Attended.drop (h : Attended u) {i : ℕ} {w : RowWrite} {peak : Option ℚ} (hw : u.pending[i]? = some w)
    (hrow : v.row = { u.row with peakPriceMul := peak }) (hlock : v.lock = u.lock)
    (hpending : v.pending = u.pending.eraseIdx i) (hmonitors : v.monitors = u.monitors)
    (hrecord : ∀ b, w ≠ .record b)
    (hsig : ∀ sig, w = .confirmFinal sig ∨ w = .markSellFailed sig →
      ¬ (u.row.sellTxHash = some sig ∧ u.row.sellStatus = some .broadcast) ∧
        ¬ ∃ b, RowWrite.record b ∈ u.pending ∧ b.sig = sig) : Attended v := by
  have hrecords (b : Broadcast) : RowWrite.record b ∈ v.pending ↔ RowWrite.record b ∈ u.pending := by
    rw [hpending]
    exact ⟨List.mem_of_mem_eraseIdx, fun hb => mem_eraseIdx_of_ne hw hb (hrecord b).symm⟩
  refine h.of_same hrow (fun hbusy => ?_) (fun sig hwaiting hwatched => ?_) hrecords
  · unfold Busy
    rwa [hlock]
  · have hother : ¬ (w = .confirmFinal sig ∨ w = .markSellFailed sig) := by
      intro heq
      obtain ⟨hbroadcast, hunrecorded⟩ := hsig sig heq
      obtain hrowsig | ⟨b, hb, hbsig⟩ := hwaiting
      · exact hbroadcast hrowsig
      · exact hunrecorded ⟨b, (hrecords b).mp hb, hbsig⟩
    exact hwatched.eraseIdx hw (fun heq => hother (.inl heq)) (fun heq => hother (.inr heq)) hmonitors hpending

theorem Attended.drop_other (h : Attended u) {i : ℕ} {w : RowWrite} {peak : Option ℚ}
    (hw : u.pending[i]? = some w) (hother : w.ofSale = false) (hrow : v.row = { u.row with peakPriceMul := peak })
    (hlock : v.lock = u.lock) (hpending : v.pending = u.pending.eraseIdx i) (hmonitors : v.monitors = u.monitors) :
    Attended v := by
  refine h.drop hw hrow hlock hpending hmonitors (fun b heq => ?_) fun sig heq => ?_
  · simp [heq, RowWrite.ofSale] at hother
  · obtain heq | heq := heq <;> simp [heq, RowWrite.ofSale] at hother

/-- The row is recorded as the sale has left it. -/
theorem Attended.record (h : Attended u) {i : ℕ} {b : Broadcast} (hw : u.pending[i]? = some (.record b))
    (hrow : v.row = b.record u.row) (hpending : v.pending = u.pending.eraseIdx i)
    (hmonitors : v.monitors = u.monitors) : Attended v where
  bought := by
    rw [hrow]
    exact ⟨h.bought.1, rfl⟩
  claimed hstatus := by
    rw [hrow] at hstatus
    have hnew : b.newSellStatus = .pending := Option.some.inj hstatus
    unfold Broadcast.newSellStatus at hnew
    split_ifs at hnew
  broadcast _ := by
    rw [hrow]
    exact ⟨b.sig, rfl, (h.records b (List.mem_of_getElem? hw)).eraseIdx hw (fun heq => nomatch heq)
      (fun heq => nomatch heq) hmonitors hpending⟩
  failed hstatus := by
    rw [hrow] at hstatus
    have hnew : b.newSellStatus = .failed := Option.some.inj hstatus
    unfold Broadcast.newSellStatus at hnew
    split_ifs at hnew
  others := by
    rw [hrow]
    simp only [Broadcast.record, Broadcast.newSellStatus]
    split_ifs <;> simp
  records b' hb' := by
    rw [hpending] at hb'
    exact (h.records b' (List.mem_of_mem_eraseIdx hb')).eraseIdx hw (fun heq => nomatch heq)
      (fun heq => nomatch heq) hmonitors hpending

/-- The monitor is done, and its update takes its place. -/
theorem Attended.monitorEnds (h : Attended u) {i : ℕ} {sig : String} (hsig : u.monitors[i]? = some sig)
    (ans : AttemptAnswers) :
    Attended { u with
      monitors := u.monitors.eraseIdx i, pending := u.pending ++ [Engine.monitorWrite sig ans] } := by
  have hwrite : Engine.monitorWrite sig ans = .confirmFinal sig ∨ Engine.monitorWrite sig ans = .markSellFailed sig := by
    unfold Engine.monitorWrite
    split <;> simp
  refine h.of_same rfl id (fun sig' _ hwatched => ?_) fun b => ?_
  · obtain hmonitor | hpending := hwatched
    · by_cases heq : sig' = sig
      · subst heq
        right
        obtain hwrite | hwrite := hwrite <;> simp [hwrite]
      · exact .inl (mem_eraseIdx_of_ne hsig hmonitor heq)
    · right
      exact hpending.imp (List.mem_append_left _) (List.mem_append_left _)
  · obtain hwrite | hwrite := hwrite <;> simp [hwrite]

end attended

/-- What a pending update of the row leaves. -/
theorem attended_write {i : ℕ} {w : RowWrite} {lands : Bool} (h : Attended s.engine)
    (hw : s.engine.pending[i]? = some w) (hguard : s.WriteKept lands w) :
    Excused { s with
      engine := Engine.write lands w { s.engine with pending := s.engine.pending.eraseIdx i }
      flights := s.flights ++ s.sent (.write i lands)
      failures := s.failures + if s.fails (.write i lands) then 1 else 0
      markedHoneypot := s.markedHoneypot || s.marks (.write i lands) } ∨
      Attended (Engine.write lands w { s.engine with pending := s.engine.pending.eraseIdx i }) := by
  cases w with
  | record b =>
    obtain rfl : lands = true := hguard
    exact .inr (h.record hw rfl rfl rfl)
  | recordPeak peak =>
    right
    cases lands with
    | true => exact h.drop_other hw rfl rfl rfl rfl rfl
    | false => exact h.drop_other hw rfl rfl rfl rfl rfl
  | markHoneypot =>
    cases lands with
    | true => exact .inl (.inr (.inr (by simp [marks, hw])))
    | false => exact .inr (h.drop_other hw rfl rfl rfl rfl rfl)
  | confirmFinal sig =>
    obtain ⟨hunrecorded, hbroadcast⟩ := hguard
    have hrow : landing lands (SnipeTrade.confirmFinal sig) s.engine.row = s.engine.row := by
      cases lands with
      | true => exact if_neg hbroadcast
      | false => rfl
    right
    refine h.drop hw hrow rfl rfl rfl (fun _ heq => nomatch heq) fun sig' hsig => ?_
    obtain heq | heq := hsig
    · obtain rfl := RowWrite.confirmFinal.inj heq
      exact ⟨hbroadcast, hunrecorded⟩
    · exact nomatch heq
  | markSellFailed sig =>
    obtain ⟨rfl, hunrecorded, hretry⟩ := hguard
    obtain hfew | hmany := hretry
    · right
      refine h.failed_row rfl rfl rfl hfew fun b hb => ?_
      have hb' : RowWrite.record b ∈ s.engine.pending := List.mem_of_mem_eraseIdx hb
      refine (h.records b hb').eraseIdx hw (fun heq => nomatch heq) (fun heq => ?_) rfl rfl
      exact hunrecorded ⟨b, hb', (RowWrite.markSellFailed.inj heq).symm⟩
    · left
      right
      left
      simpa [fails, hw, RowWrite.isFailure] using hmany

/-- What a step of the engine leaves attended, or excused by what it counts. -/
theorem attended_step {e : Event} (h : Attended s.engine) (hnot : ¬ s.Excused) (hguard : s.Kept (.engine e))
    (hstep : holdings.step s (.engine e) = some t) : t.Excused ∨ Attended t.engine := by
  obtain ⟨-, hmap⟩ := Option.ite_none_right_eq_some.mp hstep
  obtain ⟨engine, hengine, rfl⟩ := Option.map_eq_some_iff.mp hmap
  replace hguard := hguard.resolve_left hnot
  cases e with
  | readTick taken =>
    cases hengine
    right
    unfold Engine.readTick
    split
    · exact h.of_lock rfl id rfl rfl
    · exact h.of_lock rfl id rfl rfl
  | evaluate i config market session =>
    obtain ⟨trade, -, rfl⟩ := Option.map_eq_some_iff.mp hengine
    right
    refine Attended.evaluate ?_ config market session trade
    exact h.of_lock rfl id rfl rfl
  | readManual userId =>
    cases hengine
    exact .inr (h.of_lock rfl id rfl rfl)
  | resumeManual i session =>
    obtain ⟨⟨userId, trade⟩, -, rfl⟩ := Option.map_eq_some_iff.mp hengine
    right
    refine Attended.resumeManual ?_ userId trade session
    exact h.of_lock rfl id rfl rfl
  | write i lands =>
    obtain ⟨w, hw, rfl⟩ := Option.map_eq_some_iff.mp hengine
    exact attended_write h hw (hguard w hw)
  | monitorEnds i ans =>
    obtain ⟨sig, hsig, rfl⟩ := Option.map_eq_some_iff.mp hengine
    exact .inr (h.monitorEnds hsig ans)
  | skip lands =>
    obtain ⟨call, hlock, hcall⟩ := Option.bind_eq_some_iff.mp hengine
    obtain ⟨hstage, ⟨⟩⟩ := Option.ite_none_right_eq_some.mp hcall
    have hnone : Attended { s.engine with lock := none } :=
      h.of_lock rfl (fun hbusy => absurd hbusy (not_busy hlock (by simp [hstage]))) rfl rfl
    cases lands with
    | false => exact .inr hnone
    | true =>
      obtain ⟨hnull, hfailed⟩ := hguard rfl
      have hsame : s.engine.row.markSkip call.order.reason = s.engine.row := by
        unfold SnipeTrade.markSkip
        split
        · rename_i hstatus
          exact absurd hstatus hnull
        · rename_i hstatus
          exact absurd hstatus hfailed
        · rfl
      right
      show Attended { s.engine with row := s.engine.row.markSkip call.order.reason, lock := none }
      rw [hsame]
      exact hnone
  | claim lands =>
    obtain ⟨call, hlock, hcall⟩ := Option.bind_eq_some_iff.mp hengine
    obtain ⟨hstage, ⟨⟩⟩ := Option.ite_none_right_eq_some.mp hcall
    exact .inr (h.claim (not_busy hlock (by simp [hstage])) lands call)
  | build ok =>
    obtain ⟨call, hlock, hcall⟩ := Option.bind_eq_some_iff.mp hengine
    simp only [Engine.proceed] at hcall
    right
    split at hcall
    · rename_i hstage
      cases hcall
      exact h.of_lock rfl (fun hbusy => absurd hbusy (not_busy hlock (by simp [hstage]))) rfl rfl
    · cases hcall
      exact h.of_lock rfl (fun _ => ⟨_, rfl, by cases ok <;> simp⟩) rfl rfl
    · cases hcall
  | release lands =>
    obtain ⟨call, hlock, hcall⟩ := Option.bind_eq_some_iff.mp hengine
    obtain ⟨hstage, ⟨⟩⟩ := Option.ite_none_right_eq_some.mp hcall
    obtain ⟨rfl, hretry⟩ := hguard
    obtain hfew | hmany := hretry
    · exact .inr (h.failed_row rfl rfl rfl hfew h.records)
    · exact .inl (.inr (.inl hmany))
  | send reply =>
    obtain ⟨call, hlock, hcall⟩ := Option.bind_eq_some_iff.mp hengine
    obtain ⟨hstage, ⟨⟩⟩ := Option.ite_none_right_eq_some.mp hcall
    exact .inr (h.send reply call)
  | caught lands =>
    obtain ⟨call, hlock, hcall⟩ := Option.bind_eq_some_iff.mp hengine
    obtain ⟨hstage, ⟨⟩⟩ := Option.ite_none_right_eq_some.mp hcall
    obtain ⟨rfl, hretry⟩ := hguard
    obtain hfew | hmany := hretry
    · exact .inr (h.failed_row rfl rfl rfl hfew h.records)
    · exact .inl (.inr (.inl hmany))

end Holding

/-- **Monitored positions.** In every run whose steps keep a position monitored, the row of a position that
is quiet is among those that `checkPositions` reads. -/
theorem keeps_monitored {row : SnipeTrade} {outAmount : ℕ} {es : List HoldingEvent} {s : Holding}
    (hbought : row.status = .confirmed) (hout : row.outAmount = some outAmount) (hunsold : row.sellStatus = none)
    (hrun : holdings.GuardedRun Holding.Kept ⟨Engine.start row, outAmount, [], 0, false⟩ es s) : s.Monitored := by
  have hstart : Holding.Attended (Engine.start row) :=
    ⟨⟨hbought, by simp [Engine.start, hout]⟩, by simp [Engine.start, hunsold], by simp [Engine.start, hunsold],
      by simp [Engine.start, hunsold], by simp [Engine.start, hunsold], fun b hb => absurd hb List.not_mem_nil⟩
  have hend := hrun.invariant (I := fun t => t.Excused ∨ Holding.Attended t.engine) (fun t e t' h hguard hstep => ?_)
    (.inr hstart)
  · exact fun hquiet => hend.imp_right fun h => h.isOpen_of_quiet hquiet
  · obtain hexcused | hattended := h
    · exact .inl (Holding.excused_step hexcused hstep)
    · by_cases hexcused : t.Excused
      · exact .inl (Holding.excused_step hexcused hstep)
      · cases e with
        | engine e => exact Holding.attended_step hattended hexcused hguard hstep
        | settle i outcome =>
          right
          rwa [Holding.settle_engine hstep]

def boughtHolding : Holding := ⟨Engine.start boughtRow, 1000, [], 0, false⟩

/-- A monitor that finds its transaction confirmed, or never finds it. -/
def monitored (confirmed : Bool) : AttemptAnswers where
  polls := if confirmed then [some (some ⟨true, none⟩)] else [some none]
  lastPoll := some none
  confirmLands := true
  failLands := true
  withinWindow := false
  session := true
  rebuild := true
  send := none
  retryLands := true

/-- A take profit whose transaction expires unseen. -/
def expiredTakeProfit : List HoldingEvent :=
  ([Event.readTick true, .evaluate 0 sellConfig (quoted 1000 220000000 false) true] ++ sells "s1" ++
    [Event.write 0 true, Event.write 0 true]).map .engine ++
    [.settle 0 .expired, .engine (.monitorEnds 0 (monitored false)), .engine (.write 0 true)]

theorem expired_sale_monitored : ∃ s, holdings.run boughtHolding expiredTakeProfit = some s ∧ s.Quiet ∧ s.failures = 1 ∧
    s.Monitored := by
  have hrun : holdings.GuardedRun Holding.Kept boughtHolding expiredTakeProfit _ :=
    .of_guardedRun (Option.eq_some_of_isSome (by decide +kernel))
  exact ⟨_, hrun.run, by decide +kernel, by decide +kernel, keeps_monitored rfl rfl rfl hrun⟩

/-- A stop loss fires while the session has expired. -/
def skippedSale : List HoldingEvent :=
  [.engine (.readTick true), .engine (.evaluate 0 sellConfig (quoted 1000 220000000 false) false), .engine (.skip true)]

theorem skipped_position_abandoned : ¬ ∀ (row : SnipeTrade) (outAmount : ℕ) (es : List HoldingEvent) (s : Holding),
    row.status = .confirmed → row.outAmount = some outAmount → row.sellStatus = none →
    holdings.run ⟨Engine.start row, outAmount, [], 0, false⟩ es = some s → s.Monitored := by
  intro h
  have hmonitored := h boughtRow 1000 skippedSale _ rfl rfl rfl (Option.eq_some_of_isSome (by decide +kernel))
  revert hmonitored
  decide +kernel

end SuperAi.Snipe
