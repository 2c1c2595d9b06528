import SuperAi.Foundations.StepSystem
import SuperAi.Foundations.Tally
import SuperAi.Snipe.Oversell

/-! # Marking honeypots

`evaluateMintGroup` counts the quotes of a mint that come back as null, and marks the rows that the tick
has read when three have been counted since the last price. `fetchSellQuote` answers null to whatever is
not a price, ticks overlap, and the marking is an update without a condition. The rows below are those of
one mint; the sales of a row appear as their writes, in any order.
-/
namespace SuperAi.Snipe
open SuperAi.Foundations
set_option autoImplicit false

/-! ## Quotes -/

/-- What Jupiter answers to a quote: `noRoute` is the refusal that says that there is no route. -/
inductive JupiterAnswer
  | price (outAmount : ℕ)
  | noRoute
  | httpError (status : ℕ)
  | timeout
  deriving DecidableEq, Repr

def fetchSellQuote : JupiterAnswer → Option ℕ
  | .price outAmount => if outAmount = 0 then none else some outAmount
  | .noRoute => none
  | .httpError _ => none
  | .timeout => none

/-! ## The writes of a sale -/

inductive SaleWrite
  | skip (reason : SellReason)
  | claim (reason : SellReason)
  | release
  | threw
  | record (b : Broadcast)
  | confirmFinal (sig : String)
  | markSellFailed (sig : String)
  | recordPeak (peak : ℚ)
  deriving DecidableEq

def SaleWrite.apply (row : SnipeTrade) : SaleWrite → SnipeTrade
  | .skip reason => row.markSkip reason
  | .claim reason => if row.claimable reason then row.claim reason else row
  | .release => row.releaseClaim .failed
  | .threw => row.sellThrew
  | .record b => b.record row
  | .confirmFinal sig => row.confirmFinal sig
  | .markSellFailed sig => row.markSellFailed sig
  | .recordPeak peak => row.recordPeak peak

/-! ### Against the engine of one row -/

theorem Engine.enter_row (trade : SnipeTrade) (order : SellOrder) (session : Bool) (s : Engine) :
    (s.enter trade order session).row = s.row := by
  unfold Engine.enter
  split <;> rfl

theorem Engine.evaluate_row (config : Option SnipeConfig) (market : Market) (session : Bool) (trade : SnipeTrade)
    (s : Engine) : (s.evaluate config market session trade).row = s.row := by
  unfold Engine.evaluate Engine.noRoute
  split
  · rfl
  · split
    · simp only
      split <;> rfl
    · simp only
      split
      · rfl
      · exact Engine.enter_row _ _ _ _

theorem Engine.resumeManual_row (userId : String) (trade : SnipeTrade) (session : Bool) (s : Engine) :
    (s.resumeManual userId trade session).row = s.row := by
  unfold Engine.resumeManual
  split
  · rfl
  · exact Engine.enter_row _ _ _ _

theorem Engine.write_row (w : RowWrite) (lands : Bool) (s : Engine) :
    (s.write lands w).row = landing lands w.apply s.row := by
  cases w with
  | record b => cases lands <;> rfl
  | confirmFinal | markSellFailed | markHoneypot | recordPeak => rfl

/-- Whatever the engine does to its row is a marking or the write of a sale. -/
theorem engine_row {s t : Engine} {e : Event} (hstep : engine.step s e = some t) :
    t.row = s.row ∨ t.row = s.row.markHoneypot ∨ ∃ w : SaleWrite, t.row = w.apply s.row := by
  have hland : ∀ {lands : Bool} {write : SnipeTrade → SnipeTrade} {u : Engine} (w : SaleWrite),
      write s.row = w.apply s.row → u.row = landing lands write s.row →
      u.row = s.row ∨ u.row = s.row.markHoneypot ∨ ∃ w : SaleWrite, u.row = w.apply s.row := by
    intro lands write u w hw hu
    cases lands with
    | false => exact .inl hu
    | true => exact .inr (.inr ⟨w, hu.trans hw⟩)
  have hproceed : (s.lock.bind fun call => s.proceed call e) = some t →
      t.row = s.row ∨ t.row = s.row.markHoneypot ∨ ∃ w : SaleWrite, t.row = w.apply s.row := by
    intro hbind
    obtain ⟨call, hlock, hcall⟩ := Option.bind_eq_some_iff.mp hbind
    cases e with
    | skip lands =>
      obtain ⟨-, ⟨⟩⟩ := Option.ite_none_right_eq_some.mp hcall
      exact hland (.skip call.order.reason) rfl rfl
    | claim lands =>
      obtain ⟨-, ⟨⟩⟩ := Option.ite_none_right_eq_some.mp hcall
      unfold Engine.claim
      split_ifs with hlands hclaimable
      · exact .inl rfl
      · exact .inl rfl
      · have hclaim : s.row.claimable call.order.reason = true := by simpa using hclaimable
        exact .inr (.inr ⟨.claim call.order.reason, (if_pos hclaim).symm⟩)
    | build ok =>
      simp only [Engine.proceed] at hcall
      split at hcall <;> cases hcall <;> exact .inl rfl
    | release lands =>
      obtain ⟨-, ⟨⟩⟩ := Option.ite_none_right_eq_some.mp hcall
      exact hland .release rfl rfl
    | send reply =>
      obtain ⟨-, ⟨⟩⟩ := Option.ite_none_right_eq_some.mp hcall
      cases reply <;> exact .inl rfl
    | caught lands =>
      obtain ⟨-, ⟨⟩⟩ := Option.ite_none_right_eq_some.mp hcall
      exact hland .threw rfl rfl
    | _ => cases hcall
  cases e with
  | readTick taken =>
    cases hstep
    unfold Engine.readTick
    split <;> exact .inl rfl
  | evaluate i config market session =>
    obtain ⟨trade, -, rfl⟩ := Option.map_eq_some_iff.mp hstep
    exact .inl (Engine.evaluate_row _ _ _ _ _)
  | readManual userId =>
    cases hstep
    exact .inl rfl
  | resumeManual i session =>
    obtain ⟨⟨userId, trade⟩, -, rfl⟩ := Option.map_eq_some_iff.mp hstep
    exact .inl (Engine.resumeManual_row _ _ _ _)
  | write i lands =>
    obtain ⟨w, -, rfl⟩ := Option.map_eq_some_iff.mp hstep
    have hrow := Engine.write_row w lands { s with pending := s.pending.eraseIdx i }
    cases w with
    | record b => exact hland (.record b) rfl hrow
    | confirmFinal sig => exact hland (.confirmFinal sig) rfl hrow
    | markSellFailed sig => exact hland (.markSellFailed sig) rfl hrow
    | recordPeak peak => exact hland (.recordPeak peak) rfl hrow
    | markHoneypot =>
      cases lands with
      | false => exact .inl hrow
      | true => exact .inr (.inl hrow)
  | monitorEnds i ans =>
    obtain ⟨sig, -, rfl⟩ := Option.map_eq_some_iff.mp hstep
    exact .inl rfl
  | skip | claim | build | release | send | caught => exact hproceed hstep

/-! ## The rows of a mint -/

/-- A marking that has landed on a row: the row's `sellStatus` before it, and the answers by then. -/
structure Marked where
  row : ℕ
  sellStatus : Option SellStatus
  answers : List JupiterAnswer
  deriving DecidableEq, Repr

structure MintGroup where
  rows : List SnipeTrade
  /-- The rows read by ticks whose quote is not answered. -/
  ticks : List (List ℕ) := []
  /-- The mint's entry in `noRouteCount`, as the answers that it counts. -/
  tally : Tally JupiterAnswer (List ℕ) := {}
  marking : List (List ℕ) := []
  marked : List Marked := []
  deriving DecidableEq

inductive MintEvent
  /-- A tick reads open rows of the mint and asks for their quote. -/
  | read (group : List ℕ)
  | answer (i : ℕ) (a : JupiterAnswer)
  /-- `evaluateMintGroup` goes on, once the liquidity and the holders are known too. -/
  | evaluate (i : ℕ)
  | mark (i : ℕ) (lands : Bool)
  | sale (i : ℕ) (w : SaleWrite)

namespace MintGroup

def evaluate (i k : ℕ) (group : List ℕ) (s : MintGroup) : MintGroup :=
  match s.tally.answers[k]?.bind fetchSellQuote with
  | none =>
    let tally := s.tally.count i k
    { s with
      tally
      marking := if HONEYPOT_TICK_THRESHOLD ≤ tally.counted.length then s.marking ++ [group] else s.marking }
  | some _ => { s with tally := s.tally.reset i }

/-- `markHoneypot`: the update, and the reset of the counter after it. -/
def mark (lands : Bool) (group : List ℕ) (s : MintGroup) : MintGroup :=
  { s with
    rows := if lands then s.rows.mapIdx fun i row => if i ∈ group then row.markHoneypot else row else s.rows
    tally := { s.tally with counted := [] }
    marked := s.marked ++ if lands then group.filterMap fun i =>
      s.rows[i]?.map fun row => ⟨i, row.sellStatus, s.tally.answers⟩ else [] }

end MintGroup

def mintGroup : StepSystem MintGroup MintEvent where
  step s
    | .read group =>
      if group ≠ [] ∧ ∀ i ∈ group, (s.rows[i]?.any isOpen) = true then some { s with ticks := s.ticks ++ [group] }
      else none
    | .answer i a => s.ticks[i]?.map fun group =>
      { s with ticks := s.ticks.eraseIdx i, tally := s.tally.answer a group }
    | .evaluate i => s.tally.waiting[i]?.map fun (k, group) => s.evaluate i k group
    | .mark i lands => s.marking[i]?.map fun group => MintGroup.mark lands group { s with marking := s.marking.eraseIdx i }
    | .sale i w => s.rows[i]?.map fun row => { s with rows := s.rows.set i (w.apply row) }

/-! ## Justified markings -/

/-- Jupiter has said in a row that there is no route, and no sale of the row is under way or has gone through. -/
structure Marked.Justified (m : Marked) : Prop where
  streak : Streak (· = JupiterAnswer.noRoute) m.answers HONEYPOT_TICK_THRESHOLD
  free : m.sellStatus ≠ some .pending ∧ m.sellStatus ≠ some .broadcast ∧ m.sellStatus ≠ some .confirmed

structure MarkedWell (s : MintGroup) : Prop where
  recorded : ∀ i row, s.rows[i]? = some row → row.sellStatus = some .honeypot → ∃ m ∈ s.marked, m.row = i
  justified : ∀ m ∈ s.marked, m.Justified

/-- An automatic sale could claim the row, or the row has been given up. -/
def SnipeTrade.free (row : SnipeTrade) : Bool :=
  row.claimable .stopLoss || row.sellStatus == some .skip || row.sellStatus == some .honeypot

theorem SnipeTrade.free_iff (row : SnipeTrade) : row.free = true ↔
    row.sellStatus ≠ some .pending ∧ row.sellStatus ≠ some .broadcast ∧ row.sellStatus ≠ some .confirmed := by
  unfold SnipeTrade.free SnipeTrade.claimable
  cases row.sellStatus with
  | none => simp
  | some status => cases status <;> simp

/-- A null quote is counted only where it says that there is no route and keeps the count one of quotes in
a row, and a marking lands only on rows that a sale could claim or that are given up. -/
def Orderly (s : MintGroup) : MintEvent → Prop
  | .evaluate i => ∀ entry ∈ s.tally.waiting[i]?, s.tally.answers[entry.1]?.bind fetchSellQuote = none →
      s.tally.InTurn (· = .noRoute) entry.1
  | .mark i true => ∀ group ∈ s.marking[i]?, ∀ j ∈ group, ∀ row ∈ s.rows[j]?, row.free = true
  | _ => True

structure MintSound (s : MintGroup) : Prop where
  well : MarkedWell s
  ordered : s.tally.Ordered (· = .noRoute)
  marking : s.marking ≠ [] → Streak (· = .noRoute) s.tally.answers HONEYPOT_TICK_THRESHOLD

theorem SaleWrite.honeypot_of_apply {row : SnipeTrade} {w : SaleWrite}
    (h : (w.apply row).sellStatus = some .honeypot) : row.sellStatus = some .honeypot := by
  cases w with
  | skip reason =>
    change (row.markSkip reason).sellStatus = _ at h
    unfold SnipeTrade.markSkip at h
    split at h
    · exact nomatch h
    · exact nomatch h
    · exact h
  | claim reason =>
    change (if row.claimable reason then row.claim reason else row).sellStatus = _ at h
    split at h
    · exact nomatch h
    · exact h
  | release => exact nomatch h
  | threw => exact nomatch h
  | record b =>
    have hstatus : b.newSellStatus = .honeypot := Option.some.inj h
    unfold Broadcast.newSellStatus at hstatus
    split_ifs at hstatus
  | confirmFinal sig =>
    change (row.confirmFinal sig).sellStatus = _ at h
    unfold SnipeTrade.confirmFinal at h
    split at h
    · exact nomatch h
    · exact h
  | markSellFailed sig => exact nomatch h
  | recordPeak peak => exact h

variable {s s' : MintGroup}

theorem MintSound.evaluate (h : MintSound s) {i k : ℕ} {group : List ℕ}
    (hi : s.tally.waiting[i]? = some (k, group)) (hguard : Orderly s (.evaluate i)) :
    MintSound (s.evaluate i k group) := by
  unfold MintGroup.evaluate
  split
  · rename_i hnull
    have hordered := h.ordered.count hi (hguard _ hi hnull)
    refine ⟨⟨h.well.recorded, h.well.justified⟩, hordered, fun hne => ?_⟩
    by_cases hmany : HONEYPOT_TICK_THRESHOLD ≤ (s.tally.count i k).counted.length
    · exact hordered.streak (by decide) hmany
    · apply h.marking
      simpa [hmany] using hne
  · exact ⟨⟨h.well.recorded, h.well.justified⟩, h.ordered.reset hi, h.marking⟩

theorem MintSound.mark (h : MintSound s) {i : ℕ} {group : List ℕ} {lands : Bool}
    (hi : s.marking[i]? = some group) (hguard : Orderly s (.mark i lands)) :
    MintSound (MintGroup.mark lands group { s with marking := s.marking.eraseIdx i }) := by
  have hstreak : Streak (· = .noRoute) s.tally.answers HONEYPOT_TICK_THRESHOLD :=
    h.marking (List.ne_nil_of_mem (List.mem_of_getElem? hi))
  refine ⟨⟨fun j row hrow hhoneypot => ?_, fun m hm => ?_⟩, h.ordered.clear, fun _ => hstreak⟩
  · cases lands with
    | false =>
      obtain ⟨m, hm, hrowm⟩ := h.well.recorded j row hrow hhoneypot
      exact ⟨m, List.mem_append_left _ hm, hrowm⟩
    | true =>
      simp only [MintGroup.mark, if_true, List.getElem?_mapIdx] at hrow
      obtain ⟨before, hbefore, hrow⟩ := Option.map_eq_some_iff.mp hrow
      by_cases hj : j ∈ group
      · refine ⟨⟨j, before.sellStatus, s.tally.answers⟩, List.mem_append_right _ ?_, rfl⟩
        exact List.mem_filterMap.mpr ⟨j, hj, by simp [hbefore]⟩
      · rw [if_neg hj] at hrow
        obtain ⟨m, hm, hrowm⟩ := h.well.recorded j before hbefore (hrow ▸ hhoneypot)
        exact ⟨m, List.mem_append_left _ hm, hrowm⟩
  · obtain hold | hnew := List.mem_append.mp hm
    · exact h.well.justified m hold
    · cases lands with
      | false => exact nomatch hnew
      | true =>
        obtain ⟨j, hj, hmap⟩ := List.mem_filterMap.mp hnew
        obtain ⟨row, hrow, rfl⟩ := Option.map_eq_some_iff.mp hmap
        exact ⟨hstreak, row.free_iff.mp (hguard group hi j hj row hrow)⟩

theorem MintSound.step (h : MintSound s) {e : MintEvent} (hguard : Orderly s e)
    (hstep : mintGroup.step s e = some s') : MintSound s' := by
  cases e with
  | read group =>
    obtain ⟨-, hs'⟩ := Option.ite_none_right_eq_some.mp hstep
    obtain rfl := Option.some.inj hs'
    exact ⟨⟨h.well.recorded, h.well.justified⟩, h.ordered, h.marking⟩
  | answer i a =>
    obtain ⟨group, -, rfl⟩ := Option.map_eq_some_iff.mp hstep
    exact ⟨⟨h.well.recorded, h.well.justified⟩, h.ordered.answer a group, fun hne => (h.marking hne).append [a]⟩
  | evaluate i =>
    obtain ⟨⟨k, group⟩, hi, rfl⟩ := Option.map_eq_some_iff.mp hstep
    exact h.evaluate hi hguard
  | mark i lands =>
    obtain ⟨group, hi, rfl⟩ := Option.map_eq_some_iff.mp hstep
    exact h.mark hi hguard
  | sale i w =>
    obtain ⟨row, hrow, rfl⟩ := Option.map_eq_some_iff.mp hstep
    refine ⟨⟨fun j row' hrow' hhoneypot => ?_, h.well.justified⟩, h.ordered, h.marking⟩
    by_cases hij : i = j
    · subst hij
      have hlt := (List.getElem?_eq_some_iff.mp hrow).1
      obtain rfl : w.apply row = row' := by simpa [List.getElem?_set, hlt] using hrow'
      exact h.well.recorded i row hrow (SaleWrite.honeypot_of_apply hhoneypot)
    · rw [List.getElem?_set_ne hij] at hrow'
      exact h.well.recorded j row' hrow' hhoneypot

/-- **Honeypots.** Every marking of an orderly run is justified. -/
theorem markedWell {rows : List SnipeTrade} {es : List MintEvent} (hrows : ∀ row ∈ rows, row.sellStatus ≠ some .honeypot)
    (hrun : mintGroup.GuardedRun Orderly { rows } es s) : MarkedWell s := by
  have hstart : MintSound { rows } := by
    refine ⟨⟨fun i row hrow hhoneypot => absurd hhoneypot (hrows row (List.mem_of_getElem? hrow)), nofun⟩, ?_, nofun⟩
    exact ⟨nofun, List.nodup_nil, nofun, List.nodup_nil, nofun, nofun⟩
  exact (hrun.invariant (fun _ _ _ h hguard hstep => h.step hguard hstep) hstart).well

instance (s : MintGroup) (e : MintEvent) : Decidable (Orderly s e) :=
  match e with
  | .evaluate i => inferInstanceAs (Decidable (∀ entry ∈ s.tally.waiting[i]?,
      s.tally.answers[entry.1]?.bind fetchSellQuote = none → s.tally.InTurn (· = .noRoute) entry.1))
  | .mark i true => inferInstanceAs (Decidable (∀ group ∈ s.marking[i]?, ∀ j ∈ group, ∀ row ∈ s.rows[j]?, row.free = true))
  | .mark _ false | .read _ | .answer _ _ | .sale _ _ => instDecidableTrue

/-- Three ticks one after the other get the answers, and the row is marked. -/
def threeTicks (answers : List JupiterAnswer) : List MintEvent :=
  answers.flatMap (fun a => [.read [0], .answer 0 a, .evaluate 0]) ++ [.mark 0 true]

theorem noRoutes_markedWell : ∃ s, mintGroup.run { rows := [boughtRow] } (threeTicks [.noRoute, .noRoute, .noRoute]) =
    some s ∧ s.marked.length = 1 ∧ MarkedWell s := by
  have hrun : mintGroup.GuardedRun Orderly { rows := [boughtRow] } (threeTicks [.noRoute, .noRoute, .noRoute]) _ :=
    .of_guardedRun (Option.eq_some_of_isSome (by decide +kernel))
  exact ⟨_, hrun.run, by decide +kernel, markedWell (by decide) hrun⟩

/-- Three quotes that time out mark the row. -/
theorem timeouts_mark_row : ¬ ∀ (rows : List SnipeTrade) (es : List MintEvent) (s : MintGroup),
    (∀ row ∈ rows, row.sellStatus ≠ some .honeypot) → mintGroup.run { rows } es = some s → MarkedWell s := by
  intro h
  have hrun : (mintGroup.run { rows := [boughtRow] } (threeTicks [.timeout, .timeout, .timeout])).map
      MintGroup.marked = some [⟨0, none, [.timeout, .timeout, .timeout]⟩] := by decide +kernel
  obtain ⟨s, hs, hmarked⟩ := Option.map_eq_some_iff.mp hrun
  have hjustified := (h [boughtRow] _ s (by decide) hs).justified ⟨0, none, [.timeout, .timeout, .timeout]⟩
    (by rw [hmarked]; exact List.mem_singleton_self _)
  obtain ⟨j, hj⟩ := hjustified.streak
  obtain ⟨a, ha, rfl⟩ := hj 0 (by decide)
  exact absurd (List.mem_of_getElem? ha) (by decide)

end SuperAi.Snipe
