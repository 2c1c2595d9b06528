import SuperAi.Foundations.InTurn
import SuperAi.Foundations.StepSystem
import SuperAi.Output.DuplicateDetector

/-! # Duplicate checks over the shipped adapter

`bootstrap.ts` hands the detector a `RedisAdapter` (`rate-limit/redis.adapter.ts`) whose `set` takes a key and a
value and no expiry, so that a mark stays. Every check reads and writes in two steps, between which other checks
take theirs. The checks let through one order of each window exactly as long as no check reads past a twin that
has still to leave its mark, and none finds the mark of a twin that is a window old (`suppressed_iff`).
-/
namespace SuperAi.Output
open SuperAi.Foundations SuperAi.Risk
set_option autoImplicit false

/-- `RedisAdapter`: the third argument that the detector gives to `set` is dropped. -/
def shippedAdapter : DedupAdapter (KeyValue String String) where
  get store _ key := store.get key
  set store _ key value _ := store.set key value

/-! ## Checks in steps -/

inductive DedupPhase
  | reading
  | storing
  | returned (result : DuplicateCheckResult)
  deriving DecidableEq, Repr

/-- A check of an order, which was submitted at a time in milliseconds. -/
structure DedupCall where
  order : PlaceOrderAction
  submittedAt : ℤ
  phase : DedupPhase := .reading
  deriving DecidableEq, Repr

structure DedupState where
  store : KeyValue String String := []
  calls : List DedupCall := []
  deriving DecidableEq, Repr

inductive DedupEvent
  | submit (order : PlaceOrderAction) (now : ℤ)
  | read (i : ℕ) (now : ℤ)
  | store (i : ℕ) (now : ℤ)

section
variable (detector : DuplicateDetector)

def afterRead : Option String → DedupPhase
  | some existing => .returned { isDuplicate := true, originalOrderId := some existing }
  | none => .storing

def dedupStep (s : DedupState) : DedupEvent → Option DedupState
  | .submit order now => some { s with calls := s.calls ++ [{ order := order, submittedAt := now }] }
  | .read i now => do
    let call ← s.calls[i]?
    if call.phase = .reading then
      let phase := afterRead (shippedAdapter.get s.store now (detector.redisKey call.order))
      some { s with calls := s.calls.set i { call with phase := phase } }
    else none
  | .store i now => do
    let call ← s.calls[i]?
    if call.phase = .storing then
      some
        { store := shippedAdapter.set s.store now (detector.redisKey call.order) call.order.clientOrderId
            detector.config.dedupWindowSeconds
          calls := s.calls.set i { call with phase := .returned { isDuplicate := false } } }
    else none

def dedupSystem : StepSystem DedupState DedupEvent := ⟨dedupStep detector⟩

end

namespace DedupPhase

/-- The check has found nothing. -/
def accepted : DedupPhase → Bool
  | .reading => false
  | .storing => true
  | .returned result => !result.isDuplicate

def flagged : DedupPhase → Bool
  | .returned result => result.isDuplicate
  | _ => false

end DedupPhase

section
variable (detector : DuplicateDetector)

def Twins (a b : DedupCall) : Prop := detector.computeDedupKey a.order = detector.computeDedupKey b.order

/-- The two were submitted less than the window apart. -/
def WithinWindow (a b : DedupCall) : Prop :=
  a.submittedAt < b.submittedAt + detector.windowMs ∧ b.submittedAt < a.submittedAt + detector.windowMs

/-- Of the twins of one window at most one is accepted, and a flagged order has an accepted twin that is
younger than the window. -/
structure ExactSuppression (calls : List DedupCall) : Prop where
  apart : ∀ (i j : ℕ) (a b : DedupCall), calls[i]? = some a → calls[j]? = some b → i ≠ j → a.phase.accepted = true →
    b.phase.accepted = true → Twins detector a b → ¬ WithinWindow detector a b
  fresh : ∀ call ∈ calls, call.phase.flagged = true → ∃ twin ∈ calls, twin.phase.accepted = true ∧
    Twins detector call twin ∧ call.submittedAt < twin.submittedAt + detector.windowMs

/-- For a check that finds no mark no twin of the same window has still to leave one, and a check that finds a
mark comes less than the window after an accepted twin. -/
def ReadInTime (calls : List DedupCall) (call : DedupCall) : Option String → Prop
  | none => ∀ twin ∈ calls, twin.phase = .storing → Twins detector call twin → ¬ WithinWindow detector call twin
  | some _ => ∃ twin ∈ calls, twin.phase.accepted = true ∧ Twins detector call twin ∧
      call.submittedAt < twin.submittedAt + detector.windowMs

def ReadsInTime (s : DedupState) : DedupEvent → Prop
  | .read i _ => ∀ call ∈ s.calls[i]?, ReadInTime detector s.calls call (s.store.get (detector.redisKey call.order))
  | _ => True

instance (a b : DedupCall) : Decidable (Twins detector a b) :=
  inferInstanceAs (Decidable (detector.computeDedupKey a.order = detector.computeDedupKey b.order))

instance (a b : DedupCall) : Decidable (WithinWindow detector a b) :=
  inferInstanceAs (Decidable (_ ∧ _))

instance (calls : List DedupCall) (call : DedupCall) : (found : Option String) →
    Decidable (ReadInTime detector calls call found)
  | none => inferInstanceAs (Decidable (∀ twin ∈ calls, _))
  | some _ => inferInstanceAs (Decidable (∃ twin ∈ calls, _))

instance (s : DedupState) : (e : DedupEvent) → Decidable (ReadsInTime detector s e)
  | .read i _ => inferInstanceAs (Decidable (∀ call ∈ s.calls[i]?, _))
  | .submit .. => isTrue trivial
  | .store .. => isTrue trivial

/-- Checks that have returned without a duplicate have left their marks. -/
def Marked (s : DedupState) : Prop :=
  ∀ call ∈ s.calls, call.phase.accepted = true → call.phase = .storing ∨
    (s.store.get (detector.redisKey call.order)).isSome = true

end

section
variable {detector : DuplicateDetector} {s s' : DedupState} {a b : DedupCall} {i : ℕ}

/-- A check on its own: its two steps are `DuplicateDetector.check`. -/
theorem check_alone (detector : DuplicateDetector) (s : DedupState) (order : PlaceOrderAction) (now : ℤ) :
    let check := detector.check shippedAdapter now s.store (.PlaceOrder order)
    let done := { s with
      store := check.2, calls := s.calls ++ [{ order, submittedAt := now, phase := .returned check.1 }] }
    (dedupSystem detector).run s [.submit order now, .read s.calls.length now] = some done ∨
      (dedupSystem detector).run s [.submit order now, .read s.calls.length now, .store s.calls.length now] =
        some done := by
  dsimp only
  unfold DuplicateDetector.check
  cases hread : shippedAdapter.get s.store now (detector.redisKey order) with
  | some existing =>
    refine .inl ?_
    simp [StepSystem.run, dedupSystem, dedupStep, hread, afterRead]
  | none =>
    refine .inr ?_
    simp [StepSystem.run, dedupSystem, dedupStep, hread, afterRead]

theorem ExactSuppression.snoc {calls : List DedupCall} (h : ExactSuppression detector calls)
    (haccepted : a.phase.accepted = false) (hflagged : a.phase.flagged = false) :
    ExactSuppression detector (calls ++ [a]) := by
  constructor
  · intro j k b c hb hc hne hbaccepted hcaccepted
    obtain hb | ⟨-, rfl⟩ := getElem?_snoc hb
    · obtain hc | ⟨-, rfl⟩ := getElem?_snoc hc
      · exact h.apart j k b c hb hc hne hbaccepted hcaccepted
      · simp [haccepted] at hcaccepted
    · simp [haccepted] at hbaccepted
  · intro call hcall hflag
    obtain hold | hnew := List.mem_append.mp hcall
    · obtain ⟨twin, hmem, hrest⟩ := h.fresh call hold hflag
      exact ⟨twin, List.mem_append_left _ hmem, hrest⟩
    · obtain rfl := List.mem_singleton.mp hnew
      simp [hflagged] at hflag

/-- A call moves on, and what it adds to the accepted or flagged ones keeps the suppression exact. -/
theorem ExactSuppression.set {calls : List DedupCall} (h : ExactSuppression detector calls)
    (ha : calls[i]? = some a) (hkept : a.phase.accepted = true → b.phase.accepted = true)
    (horder : b.order = a.order) (htime : b.submittedAt = a.submittedAt)
    (hapart : b.phase.accepted = true → a.phase.accepted = false → ∀ twin ∈ calls, twin.phase.accepted = true →
      Twins detector a twin → ¬ WithinWindow detector a twin)
    (hfresh : b.phase.flagged = true → a.phase.flagged = false → ∃ twin ∈ calls, twin.phase.accepted = true ∧
      Twins detector a twin ∧ a.submittedAt < twin.submittedAt + detector.windowMs) :
    ExactSuppression detector (calls.set i b) := by
  have hlength : i < calls.length := (List.getElem?_eq_some_iff.mp ha).1
  -- The moved call against an accepted one that was there.
  have hother : ∀ k c, calls[k]? = some c → k ≠ i → b.phase.accepted = true → c.phase.accepted = true →
      Twins detector a c → ¬ WithinWindow detector a c := by
    intro k c hc hne hb hcaccepted htwins
    cases hbefore : a.phase.accepted with
    | true => exact h.apart i k a c ha hc hne.symm hbefore hcaccepted htwins
    | false => exact hapart hb hbefore c (List.mem_of_getElem? hc) hcaccepted htwins
  have htwins : ∀ c, Twins detector b c ↔ Twins detector a c := fun c => by unfold Twins; rw [horder]
  have hwindow : ∀ c, WithinWindow detector b c ↔ WithinWindow detector a c := fun c => by
    unfold WithinWindow; rw [htime]
  have hmoved : ∀ twin ∈ calls, twin.phase.accepted = true → ∃ twin' ∈ calls.set i b, twin'.phase.accepted = true ∧
      twin'.order = twin.order ∧ twin'.submittedAt = twin.submittedAt := by
    intro twin hmem haccepted
    obtain ⟨j, hj⟩ := List.mem_iff_getElem?.mp hmem
    by_cases hji : j = i
    · subst hji
      obtain rfl := Option.some.inj (hj.symm.trans ha)
      exact ⟨b, List.mem_of_getElem? (List.getElem?_set_self hlength), hkept haccepted, horder, htime⟩
    · refine ⟨twin, List.mem_of_getElem? (?_ : (calls.set i b)[j]? = some twin), haccepted, rfl, rfl⟩
      rw [List.getElem?_set_ne (Ne.symm hji), hj]
  constructor
  · intro j k c d hc hd hne hcaccepted hdaccepted htwin hwithin
    obtain ⟨rfl, rfl⟩ | hcold := getElem?_set_cases ha hc
    · obtain ⟨rfl, -⟩ | hdold := getElem?_set_cases ha hd
      · exact hne rfl
      · exact hother k d hdold hne.symm hcaccepted hdaccepted ((htwins d).mp htwin) ((hwindow d).mp hwithin)
    · obtain ⟨rfl, rfl⟩ | hdold := getElem?_set_cases ha hd
      · exact hother j c hcold hne hdaccepted hcaccepted ((htwins c).mp htwin.symm)
          ((hwindow c).mp ⟨hwithin.2, hwithin.1⟩)
      · exact h.apart j k c d hcold hdold hne hcaccepted hdaccepted htwin hwithin
  · intro call hcall hflag
    have hyoung : ∃ twin ∈ calls, twin.phase.accepted = true ∧ Twins detector call twin ∧
        call.submittedAt < twin.submittedAt + detector.windowMs := by
      obtain hold | rfl := List.mem_or_eq_of_mem_set hcall
      · exact h.fresh call hold hflag
      · cases hbefore : a.phase.flagged with
        | true =>
          obtain ⟨twin, hmem, haccepted, htwin, htime'⟩ := h.fresh a (List.mem_of_getElem? ha) hbefore
          exact ⟨twin, hmem, haccepted, (htwins twin).mpr htwin, by rw [htime]; exact htime'⟩
        | false =>
          obtain ⟨twin, hmem, haccepted, htwin, htime'⟩ := hfresh hflag hbefore
          exact ⟨twin, hmem, haccepted, (htwins twin).mpr htwin, by rw [htime]; exact htime'⟩
    obtain ⟨twin, hmem, haccepted, htwin, htime'⟩ := hyoung
    obtain ⟨twin', hmem', haccepted', horder', htime''⟩ := hmoved twin hmem haccepted
    refine ⟨twin', hmem', haccepted', ?_, by rw [htime'']; exact htime'⟩
    unfold Twins
    rw [horder']
    exact htwin

/-! ## Steps -/

theorem dedupStep_submit {order : PlaceOrderAction} {now : ℤ}
    (h : (dedupSystem detector).step s (.submit order now) = some s') :
    s' = { s with calls := s.calls ++ [{ order := order, submittedAt := now }] } :=
  (Option.some.inj h).symm

theorem dedupStep_read {now : ℤ} (h : (dedupSystem detector).step s (.read i now) = some s') :
    ∃ call, s.calls[i]? = some call ∧ call.phase = .reading ∧
      s' =
        { s with
          calls := s.calls.set i { call with phase := afterRead (s.store.get (detector.redisKey call.order)) } } := by
  obtain ⟨call, hcall, hrest⟩ := Option.bind_eq_some_iff.mp h
  obtain ⟨hphase, hstate⟩ := Option.ite_none_right_eq_some.mp hrest
  exact ⟨call, hcall, hphase, (Option.some.inj hstate).symm⟩

theorem dedupStep_store {now : ℤ} (h : (dedupSystem detector).step s (.store i now) = some s') :
    ∃ call, s.calls[i]? = some call ∧ call.phase = .storing ∧
      s' =
        { store := s.store.set (detector.redisKey call.order) call.order.clientOrderId
          calls := s.calls.set i { call with phase := .returned { isDuplicate := false } } } := by
  obtain ⟨call, hcall, hrest⟩ := Option.bind_eq_some_iff.mp h
  obtain ⟨hphase, hstate⟩ := Option.ite_none_right_eq_some.mp hrest
  exact ⟨call, hcall, hphase, (Option.some.inj hstate).symm⟩

theorem marked_step {e : DedupEvent} (h : Marked detector s) (hstep : (dedupSystem detector).step s e = some s') :
    Marked detector s' := by
  cases e with
  | submit order now =>
    rw [dedupStep_submit hstep]
    intro call hcall haccepted
    obtain hold | hnew := List.mem_append.mp hcall
    · exact h call hold haccepted
    · obtain rfl := List.mem_singleton.mp hnew
      cases haccepted
  | read i now =>
    obtain ⟨call, hcall, -, rfl⟩ := dedupStep_read hstep
    intro c hc haccepted
    obtain hold | rfl := List.mem_or_eq_of_mem_set hc
    · exact h c hold haccepted
    · cases hread : s.store.get (detector.redisKey call.order) with
      | none => exact .inl rfl
      | some existing =>
        rw [hread] at haccepted
        cases haccepted
  | store i now =>
    obtain ⟨call, hcall, -, rfl⟩ := dedupStep_store hstep
    intro c hc haccepted
    by_cases hkey : detector.redisKey c.order = detector.redisKey call.order
    · refine .inr ?_
      rw [hkey, KeyValue.get_set_self]
      rfl
    · obtain hold | rfl := List.mem_or_eq_of_mem_set hc
      · rw [KeyValue.get_set_of_ne hkey]
        exact h c hold haccepted
      · exact absurd rfl hkey

/-- Where a check finds no mark, an accepted twin has still to leave one. -/
theorem storing_of_unmarked (h : Marked detector s) (hb : b ∈ s.calls) (haccepted : b.phase.accepted = true)
    (htwins : Twins detector a b) (hread : s.store.get (detector.redisKey a.order) = none) : b.phase = .storing := by
  obtain hstoring | hmark := h b hb haccepted
  · exact hstoring
  · rw [← DuplicateDetector.redisKey_eq_iff.mpr htwins, hread] at hmark
    cases hmark

theorem exactSuppression_step {e : DedupEvent} (hmarked : Marked detector s)
    (h : ExactSuppression detector s.calls) (hguard : ReadsInTime detector s e)
    (hstep : (dedupSystem detector).step s e = some s') : ExactSuppression detector s'.calls := by
  cases e with
  | submit order now =>
    rw [dedupStep_submit hstep]
    exact h.snoc rfl rfl
  | read i now =>
    obtain ⟨call, hcall, hphase, rfl⟩ := dedupStep_read hstep
    have hread := hguard call hcall
    refine h.set hcall (fun haccepted => ?_) rfl rfl ?_ ?_
    · rw [hphase] at haccepted
      cases haccepted
    · intro haccepted _ twin hmem htwin htwins
      cases hget : s.store.get (detector.redisKey call.order) with
      | none =>
        rw [hget] at hread
        exact hread twin hmem (storing_of_unmarked hmarked hmem htwin htwins hget) htwins
      | some existing =>
        rw [hget] at haccepted
        cases haccepted
    · intro hflag _
      cases hget : s.store.get (detector.redisKey call.order) with
      | none =>
        rw [hget] at hflag
        cases hflag
      | some existing =>
        rw [hget] at hread
        exact hread
  | store i now =>
    obtain ⟨call, hcall, hphase, rfl⟩ := dedupStep_store hstep
    refine h.set hcall (fun _ => rfl) rfl rfl (fun _ hbefore => ?_) (fun hflag _ => ?_)
    · rw [hphase] at hbefore
      cases hbefore
    · cases hflag

/-- A read out of time is one too many, or one flagged for nothing, at once. -/
theorem not_exactSuppression_step {e : DedupEvent} (hguard : ¬ ReadsInTime detector s e)
    (hstep : (dedupSystem detector).step s e = some s') : ¬ ExactSuppression detector s'.calls := by
  cases e with
  | submit order now => exact absurd trivial hguard
  | store i now => exact absurd trivial hguard
  | read i now =>
    obtain ⟨call, hcall, hphase, rfl⟩ := dedupStep_read hstep
    intro hexact
    apply hguard
    intro other hother
    obtain rfl := Option.some.inj (hcall.symm.trans hother)
    have hself : (s.calls.set i { call with phase := afterRead (s.store.get (detector.redisKey call.order)) })[i]? =
        some { call with phase := afterRead (s.store.get (detector.redisKey call.order)) } :=
      List.getElem?_set_self (List.getElem?_eq_some_iff.mp hcall).1
    cases hget : s.store.get (detector.redisKey call.order) with
    | none =>
      rw [hget] at hself hexact
      intro twin hmem hstoring htwins hwithin
      obtain ⟨j, hj⟩ := List.mem_iff_getElem?.mp hmem
      have hne : i ≠ j := by
        intro heq
        subst heq
        obtain rfl := Option.some.inj (hcall.symm.trans hj)
        rw [hphase] at hstoring
        cases hstoring
      have hjset : (s.calls.set i { call with phase := afterRead none })[j]? = some twin := by
        rw [List.getElem?_set_ne hne, hj]
      exact hexact.apart i j _ twin hself hjset hne rfl (by rw [hstoring]; rfl) htwins hwithin
    | some existing =>
      rw [hget] at hself hexact
      obtain ⟨twin, hmem, haccepted, htwins, htime⟩ := hexact.fresh _ (List.mem_of_getElem? hself) rfl
      obtain hold | rfl := List.mem_or_eq_of_mem_set hmem
      · exact ⟨twin, hold, haccepted, htwins, htime⟩
      · cases haccepted

/-- **Exact suppression.** Over the shipped adapter a run suppresses duplicates exactly, in every state that it
reaches, if and only if every one of its checks reads in time. -/
theorem suppressed_iff (detector : DuplicateDetector) {events : List DedupEvent} {t : DedupState}
    (h : (dedupSystem detector).run {} events = some t) :
    (dedupSystem detector).GuardedRun (ReadsInTime detector) {} events t ↔
      ∀ before after u, events = before ++ after → (dedupSystem detector).run {} before = some u →
        ExactSuppression detector u.calls := by
  refine StepSystem.GuardedRun.iff_forall_reached
    (fun s => Marked detector s ∧ ExactSuppression detector s.calls) (fun s => ExactSuppression detector s.calls)
    ?_ (fun s hs => hs.2) ?_ h ⟨?_, ?_⟩
  · rintro s e s' ⟨hmarked, hexact⟩ hguard hstep
    exact ⟨marked_step hmarked hstep, exactSuppression_step hmarked hexact hguard hstep⟩
  · intro s e s' _ hguard hstep
    exact not_exactSuppression_step hguard hstep
  · intro call hcall
    cases hcall
  · constructor
    · intro i j a b ha
      cases ha
    · intro call hcall
      cases hcall

end

/-! ## An order that comes again, within the window and after it -/

def marketBuy : PlaceOrderAction where
  instrument := "BTC-USDT"
  side := .BUY
  orderType := .MARKET
  quantity := 1
  strategyId := "grid"
  clientOrderId := "00000000-0000-4000-8000-000000000001"

def plainDetector : DuplicateDetector where
  sha256 := id
  numberText _ := ""

def returnedAt (submittedAt : ℤ) (result : DuplicateCheckResult) : DedupCall where
  order := marketBuy
  submittedAt := submittedAt
  phase := .returned result

theorem repeated_at_once : ∃ t, (dedupSystem plainDetector).run {}
      [.submit marketBuy 0, .read 0 0, .store 0 1, .submit marketBuy 1000, .read 1 1000] = some t ∧
    ExactSuppression plainDetector t.calls := by
  obtain ⟨t, ht⟩ := Option.isSome_iff_exists.mp (show ((dedupSystem plainDetector).guardedRun
    (ReadsInTime plainDetector) {} [.submit marketBuy 0, .read 0 0, .store 0 1, .submit marketBuy 1000,
      .read 1 1000]).isSome = true by decide +kernel)
  have hrun := (StepSystem.GuardedRun.of_guardedRun ht).run
  exact ⟨t, hrun, (suppressed_iff plainDetector hrun).mp (.of_guardedRun ht) _ [] t (List.append_nil _).symm hrun⟩

/-- The mark of the first order is still there when the window has long passed. -/
theorem stale_mark_flags : ∃ (detector : DuplicateDetector) (events : List DedupEvent) (t : DedupState),
    (dedupSystem detector).run {} events = some t ∧ ¬ ExactSuppression detector t.calls := by
  obtain ⟨t, hrun, hcalls⟩ := Option.map_eq_some_iff.mp (show ((dedupSystem plainDetector).run {}
    [.submit marketBuy 0, .read 0 0, .store 0 1, .submit marketBuy 61000, .read 1 61000]).map DedupState.calls =
      some [returnedAt 0 { isDuplicate := false },
        returnedAt 61000 { isDuplicate := true, originalOrderId := some marketBuy.clientOrderId }] by decide +kernel)
  refine ⟨plainDetector, _, t, hrun, fun hexact => ?_⟩
  rw [hcalls] at hexact
  obtain ⟨twin, hmem, haccepted, -, htime⟩ := hexact.fresh _ (List.mem_cons_of_mem _ List.mem_cons_self) rfl
  rw [List.mem_cons, List.mem_singleton] at hmem
  obtain rfl | rfl := hmem
  · exact absurd htime (by decide)
  · cases haccepted

/-- Two checks of one order that both read before the first of them has left its mark. -/
theorem race_accepts_both : ∃ (detector : DuplicateDetector) (events : List DedupEvent) (t : DedupState),
    (dedupSystem detector).run {} events = some t ∧ ¬ ExactSuppression detector t.calls := by
  obtain ⟨t, hrun, hcalls⟩ := Option.map_eq_some_iff.mp (show ((dedupSystem plainDetector).run {}
    [.submit marketBuy 0, .submit marketBuy 0, .read 0 0, .read 1 0, .store 0 1, .store 1 1]).map DedupState.calls =
      some [returnedAt 0 { isDuplicate := false }, returnedAt 0 { isDuplicate := false }] by decide +kernel)
  refine ⟨plainDetector, _, t, hrun, fun hexact => ?_⟩
  rw [hcalls] at hexact
  exact hexact.apart 0 1 _ _ rfl rfl (by decide) rfl rfl rfl (by decide)

end SuperAi.Output
