import SuperAi.Orders.PositionMonitor
import SuperAi.Foundations.SingleUse

/-! # One execution of an order

The monitor swaps what it has read, whatever has happened to the order since, and no write of a status
looks at the one before. So an order is executed once, and keeps its last status, if a swap starts only
while the order is open and no other swap of it is under way, if no order is cancelled during its swap or
after its end, and if the writes after an execution that has landed succeed.
-/
namespace SuperAi.Orders
open SuperAi.Foundations
set_option autoImplicit false

/-! ## The property and its condition -/

namespace JobPhase

/-- The job is swapping the order. -/
def swaps (id : ℕ) : JobPhase → Bool
  | .scan _ => false
  | .screen k _ | .execute k _ | .markFailed k _ _ | .create k _ _ | .markFilled k _ _ => k == id

/-- The swap of the job has landed on chain. -/
def hasLanded : JobPhase → Bool
  | .scan _ | .screen _ _ | .execute _ _ => false
  | .markFailed _ landed _ | .create _ landed _ | .markFilled _ landed _ => landed

end JobPhase

namespace MonitorState

def status (s : MonitorState) (id : ℕ) : Option OrderStatus := s.orders[id]?.map Order.status

def isOpen (s : MonitorState) (id : ℕ) : Bool := (s.status id).any OrderStatus.isOpen

def isClosed (s : MonitorState) (id : ℕ) : Bool := (s.status id).any fun status => !status.isOpen

end MonitorState

/-- The condition on the steps of a run. -/
def Careful (s : MonitorState) : MonitorEvent → Prop
  | .next i price => ∀ id order rest, s.jobs[i]? = some (.scan ((id, order) :: rest)) →
      (monitorTick order.type price order.params).1.isSome →
      s.isOpen id = true ∧ ∀ phase ∈ s.jobs, phase.swaps id = false
  | .cancel _ id => (∀ status ∈ s.status id, status.isOpen ∨ status = .CANCELLED) ∧
      ∀ phase ∈ s.jobs, phase.swaps id = false
  | .markedFailed i false | .created i false | .markedFilled i false =>
    ∀ phase ∈ s.jobs[i]?, phase.hasLanded = false
  | .markedFailed _ true | .created _ true | .markedFilled _ true | .place _ | .tick _ | .aborts _
  | .admitted _ _ | .executed _ _ => True

/-- A closed order keeps its status, and no swap of it starts. -/
def KeepsClosed (s t : MonitorState) : Prop :=
  ∀ id status, s.status id = some status → status.isOpen = false →
    t.status id = some status ∧ t.started.count id = s.started.count id

/-! ## The invariant -/

/-- An order has at most one swap, which finds it open, and has been executed only if it is closed or if that
swap has landed. -/
structure Settled (s : MonitorState) : Prop where
  one : ∀ id, OneBusy (JobPhase.swaps id) s.jobs
  opened : ∀ id, ∀ phase ∈ s.jobs, phase.swaps id = true → s.isOpen id = true
  once : ∀ id, s.onChain.count id ≤ 1
  fresh : ∀ id, s.isClosed id = false → (∀ phase ∈ s.jobs, phase.swaps id = true → phase.hasLanded = false) →
    s.onChain.count id = 0

variable {s s' t u : MonitorState} {i id k : ℕ} {phase phase' : JobPhase} {e : MonitorEvent}

@[simp] theorem JobPhase.swaps_scan (rest : List (ℕ × Order)) : (JobPhase.scan rest).swaps id = false := rfl

theorem JobPhase.swaps_unique (phase : JobPhase) (hk : phase.swaps k = true) (hid : phase.swaps id = true) :
    k = id := by
  cases phase with
  | scan rest => cases hk
  | screen m rest => exact (beq_iff_eq.mp hk).symm.trans (beq_iff_eq.mp hid)
  | execute m rest => exact (beq_iff_eq.mp hk).symm.trans (beq_iff_eq.mp hid)
  | markFailed m landed rest => exact (beq_iff_eq.mp hk).symm.trans (beq_iff_eq.mp hid)
  | create m landed rest => exact (beq_iff_eq.mp hk).symm.trans (beq_iff_eq.mp hid)
  | markFilled m landed rest => exact (beq_iff_eq.mp hk).symm.trans (beq_iff_eq.mp hid)

theorem isClosed_of_isOpen (h : s.isOpen id = true) : s.isClosed id = false := by
  unfold MonitorState.isOpen at h
  unfold MonitorState.isClosed
  cases hstatus : s.status id with
  | none => rfl
  | some status =>
    rw [hstatus] at h
    have hopen : status.isOpen = true := h
    simp [hopen]

theorem isClosed_of_status {status : OrderStatus} (h : s.status id = some status) (hend : status.isOpen = false) :
    s.isClosed id = true := by
  unfold MonitorState.isClosed
  rw [h]
  simp [hend]

/-! ## Writes -/

theorem status_update_self (s : MonitorState) (id : ℕ) (f : Order → Order) :
    (s.update id f).status id = s.orders[id]?.map fun order => (f order).status := by
  unfold MonitorState.status MonitorState.update
  rw [List.getElem?_modify]
  simp only [if_true, Option.map_eq_map, Option.map_map]
  rfl

theorem status_update_of_ne (f : Order → Order) (h : k ≠ id) : (s.update id f).status k = s.status k := by
  unfold MonitorState.status MonitorState.update
  rw [List.getElem?_modify]
  simp only [if_neg (Ne.symm h), Option.map_eq_map, Option.map_id']

theorem status_update_of_eq (s : MonitorState) (id : ℕ) {f : Order → Order}
    (h : ∀ order, (f order).status = order.status) (k : ℕ) : (s.update id f).status k = s.status k := by
  by_cases hk : k = id
  · subst hk
    rw [status_update_self]
    simp only [h]
    rfl
  · exact status_update_of_ne f hk

theorem status_setStatus (h : s.isOpen id = true) (status : OrderStatus) :
    (s.setStatus id status).status id = some status := by
  unfold MonitorState.setStatus
  rw [status_update_self]
  unfold MonitorState.isOpen MonitorState.status at h
  cases horder : s.orders[id]? with
  | none =>
    rw [horder] at h
    cases h
  | some order => rfl

theorem status_place (s : MonitorState) (order : Order) (h : k < s.orders.length) :
    { s with orders := s.orders ++ [order] }.status k = s.status k := by
  unfold MonitorState.status
  dsimp only
  rw [List.getElem?_append_left h]

namespace Settled

theorem initial (orders : List Order) : Settled { orders } where
  one _ := OneBusy.of_idle nofun
  opened _ := nofun
  once _ := Nat.zero_le 1
  fresh _ _ _ := rfl

/-- A job goes on with the same order or with none, and the orders keep their statuses. -/
theorem move (h : Settled s) (hcall : s.jobs[i]? = some phase) (hjobs : s'.jobs = s.jobs.set i phase')
    (hstatus : ∀ k, s'.status k = s.status k) (hchain : s'.onChain = s.onChain)
    (hswaps : ∀ k, phase'.swaps k = true → phase.swaps k = true)
    (hlanded : phase.hasLanded = true → phase'.hasLanded = true ∧ ∀ k, phase'.swaps k = phase.swaps k) :
    Settled s' where
  one k := by
    rw [hjobs]
    exact (h.one k).set hcall fun hbusy => .inl (hswaps k hbusy)
  opened k p hp hk := by
    unfold MonitorState.isOpen
    rw [hstatus]
    rw [hjobs] at hp
    rcases List.mem_or_eq_of_mem_set hp with hold | rfl
    · exact h.opened k p hold hk
    · exact h.opened k phase (List.mem_of_getElem? hcall) (hswaps k hk)
  once k := by
    rw [hchain]
    exact h.once k
  fresh k hopen hnone := by
    rw [hchain]
    unfold MonitorState.isClosed at hopen
    rw [hstatus] at hopen
    apply h.fresh k hopen
    intro p hp hk
    rw [hjobs] at hnone
    rcases eq_or_mem_set hcall hp phase' with rfl | hstays
    · by_contra hland
      obtain ⟨hland', hsame⟩ := hlanded (Bool.of_not_eq_false hland)
      have hmem : phase' ∈ s.jobs.set i phase' := List.mem_set (List.getElem?_eq_some_iff.mp hcall).1 phase'
      rw [hnone phase' hmem ((hsame k).trans hk)] at hland'
      cases hland'
    · exact hnone p hstays hk

/-- A job without a swap on chain goes on to none. -/
theorem idle (h : Settled s) (hcall : s.jobs[i]? = some phase) (rest : List (ℕ × Order))
    (hland : phase.hasLanded = false) : Settled (s.setPhase i (.scan rest)) := by
  refine h.move hcall rfl (fun _ => rfl) rfl (fun _ hk => nomatch hk) fun htrue => ?_
  rw [hland] at htrue
  cases htrue

theorem tick (h : Settled s) (rows : List (ℕ × Order)) : Settled { s with jobs := s.jobs ++ [.scan rows] } where
  one k := (h.one k).append nofun
  opened k p hp hk := by
    rcases List.mem_append.mp hp with hold | hnew
    · exact h.opened k p hold hk
    · rw [List.mem_singleton.mp hnew] at hk
      cases hk
  once := h.once
  fresh k hopen hnone := h.fresh k hopen fun p hp => hnone p (List.mem_append_left _ hp)

theorem place (h : Settled s) (order : Order) : Settled { s with orders := s.orders ++ [order] } where
  one := h.one
  opened k p hp hk := by
    have hopen := h.opened k p hp hk
    have hlt : k < s.orders.length := by
      by_contra hge
      unfold MonitorState.isOpen MonitorState.status at hopen
      rw [List.getElem?_eq_none (Nat.le_of_not_lt hge)] at hopen
      cases hopen
    unfold MonitorState.isOpen at hopen ⊢
    rw [status_place s order hlt]
    exact hopen
  once := h.once
  fresh k hopen hnone := by
    refine h.fresh k ?_ hnone
    by_cases hlt : k < s.orders.length
    · unfold MonitorState.isClosed at hopen ⊢
      rwa [status_place s order hlt] at hopen
    · unfold MonitorState.isClosed MonitorState.status
      rw [List.getElem?_eq_none (Nat.le_of_not_lt hlt)]
      rfl

/-- A swap starts. -/
theorem start (h : Settled s) {rest rest' : List (ℕ × Order)} (hcall : s.jobs[i]? = some (.scan rest))
    (hopen : s.isOpen id = true) (hfree : ∀ phase ∈ s.jobs, phase.swaps id = false) (started : List ℕ) :
    Settled { s.setPhase i (.screen id rest') with started } where
  one k := by
    apply (h.one k).set hcall
    intro hk
    have heq : id = k := beq_iff_eq.mp hk
    subst heq
    exact .inr hfree
  opened k p hp hk := by
    rcases List.mem_or_eq_of_mem_set hp with hold | rfl
    · exact h.opened k p hold hk
    · have heq : id = k := beq_iff_eq.mp hk
      subst heq
      exact hopen
  once := h.once
  fresh k hclosed hnone := by
    apply h.fresh k hclosed
    intro p hp hk
    rcases eq_or_mem_set hcall hp (.screen id rest') with rfl | hstays
    · cases hk
    · exact hnone p hstays hk

/-- The swap of an order lands: until now there was none. -/
theorem land (h : Settled s) (hcall : s.jobs[i]? = some phase) (hswaps : phase.swaps id = true)
    (hland : phase.hasLanded = false) (hsame : ∀ k, phase'.swaps k = phase.swaps k)
    (hland' : phase'.hasLanded = true) :
    Settled { s.setPhase i phase' with onChain := s.onChain ++ [id] } where
  one k := by
    apply (h.one k).set hcall
    rw [hsame k]
    exact .inl
  opened k p hp hk := by
    rcases List.mem_or_eq_of_mem_set hp with hold | rfl
    · exact h.opened k p hold hk
    · exact h.opened k phase (List.mem_of_getElem? hcall) ((hsame k).symm.trans hk)
  once k := by
    have hmem : phase ∈ s.jobs := List.mem_of_getElem? hcall
    show (s.onChain ++ [id]).count k ≤ 1
    rw [List.count_append]
    by_cases hk : k = id
    · subst hk
      have hzero : s.onChain.count k = 0 := by
        apply h.fresh k (isClosed_of_isOpen (h.opened k phase hmem hswaps))
        intro p hp hpk
        obtain ⟨j, hj⟩ := List.mem_iff_getElem?.mp hp
        obtain rfl : j = i := h.one k j i p phase hj hcall hpk hswaps
        rw [Option.some.inj (hj.symm.trans hcall)]
        exact hland
      have hone : [k].count k ≤ [k].length := List.count_le_length
      rw [List.length_singleton] at hone
      omega
    · have hnew : [id].count k = 0 := List.count_eq_zero.mpr fun hmem => hk (List.mem_singleton.mp hmem)
      have hone := h.once k
      omega
  fresh k hclosed hnone := by
    show (s.onChain ++ [id]).count k = 0
    by_cases hk : k = id
    · subst hk
      have hmem : phase' ∈ s.jobs.set i phase' := List.mem_set (List.getElem?_eq_some_iff.mp hcall).1 phase'
      rw [hnone phase' hmem ((hsame k).trans hswaps)] at hland'
      cases hland'
    · have hnew : [id].count k = 0 := List.count_eq_zero.mpr fun hmem => hk (List.mem_singleton.mp hmem)
      rw [List.count_append, hnew]
      apply h.fresh k hclosed
      intro p hp hpk
      rcases eq_or_mem_set hcall hp phase' with rfl | hstays
      · exact hland
      · exact hnone p hstays hpk

/-- The swap of an order ends, and closes it. -/
theorem close (h : Settled s) (hcall : s.jobs[i]? = some phase) (hswaps : phase.swaps id = true)
    {status : OrderStatus} (hend : status.isOpen = false) (rest : List (ℕ × Order)) :
    Settled ((s.setStatus id status).setPhase i (.scan rest)) where
  one k := (h.one k).set hcall fun hk => nomatch hk
  opened k p hp hk := by
    have hother : k ≠ id := by
      rintro rfl
      rcases (h.one k).mem_set hcall hswaps hp with rfl | hidle
      · cases hk
      · rw [hidle] at hk
        cases hk
    have hopen : s.isOpen k = true := by
      rcases List.mem_or_eq_of_mem_set hp with hold | rfl
      · exact h.opened k p hold hk
      · cases hk
    unfold MonitorState.isOpen at hopen ⊢
    rw [← hopen]
    exact congrArg _ (status_update_of_ne _ hother)
  once := h.once
  fresh k hclosed hnone := by
    have hopen := h.opened id phase (List.mem_of_getElem? hcall) hswaps
    by_cases hk : k = id
    · subst hk
      have htrue : (s.setStatus k status).isClosed k = true :=
        isClosed_of_status (status_setStatus hopen status) hend
      exact absurd (htrue.symm.trans hclosed) (by decide)
    · have hsame : (s.setStatus id status).status k = s.status k := status_update_of_ne _ hk
      apply h.fresh k ((congrArg (fun st => Option.any _ st) hsame).symm.trans hclosed)
      intro p hp hpk
      rcases eq_or_mem_set hcall hp (.scan rest) with rfl | hstays
      · exact absurd (p.swaps_unique hpk hswaps) hk
      · exact hnone p hstays hpk

/-- The state matters through the jobs, the statuses and what is on chain. -/
theorem of_eq (h : Settled s) (hjobs : s'.jobs = s.jobs) (hstatus : ∀ k, s'.status k = s.status k)
    (hchain : s'.onChain = s.onChain) : Settled s' where
  one k := hjobs ▸ h.one k
  opened k p hp hk := by
    unfold MonitorState.isOpen
    rw [hstatus]
    rw [hjobs] at hp
    exact h.opened k p hp hk
  once k := hchain ▸ h.once k
  fresh k hclosed hnone := by
    unfold MonitorState.isClosed at hclosed
    rw [hstatus] at hclosed
    rw [hjobs] at hnone
    rw [hchain]
    exact h.fresh k hclosed hnone

theorem cancel (h : Settled s) (userId : String) (hfree : ∀ phase ∈ s.jobs, phase.swaps id = false) :
    Settled (s.cancel userId id) where
  one := h.one
  opened k p hp hk := by
    have hother : k ≠ id := by
      rintro rfl
      rw [hfree p hp] at hk
      cases hk
    have hopen := h.opened k p hp hk
    unfold MonitorState.isOpen at hopen ⊢
    rw [← hopen]
    exact congrArg _ (status_update_of_ne _ hother)
  once := h.once
  fresh k hclosed hnone := by
    refine h.fresh k ?_ hnone
    unfold MonitorState.isClosed at hclosed ⊢
    by_cases hk : k = id
    · subst hk
      unfold MonitorState.cancel at hclosed
      rw [status_update_self] at hclosed
      unfold MonitorState.status
      cases horder : s.orders[k]? with
      | none => rfl
      | some order =>
        rw [horder] at hclosed
        by_cases howner : order.userId = userId
        · simp [howner, OrderStatus.isOpen] at hclosed
        · simpa [howner] using hclosed
    · exact (congrArg _ (status_update_of_ne _ hk)).symm.trans hclosed

end Settled

/-! ## Steps -/

/-- What each event does, and the phase that it finds its job in. -/
inductive MonitorMove (s : MonitorState) : MonitorEvent → MonitorState → Prop
  | place (order : Order) : MonitorMove s (.place order) { s with orders := s.orders ++ [order] }
  | cancel (userId : String) (id : ℕ) : MonitorMove s (.cancel userId id) (s.cancel userId id)
  | tick (rows : List ℕ) (read : List (ℕ × Order)) :
    MonitorMove s (.tick rows) { s with jobs := s.jobs ++ [.scan read] }
  | next {i id : ℕ} {order : Order} {rest : List (ℕ × Order)} (price : Option ℚ)
    (hcall : s.jobs[i]? = some (.scan ((id, order) :: rest))) :
    MonitorMove s (.next i price) (s.next i id order rest price)
  | aborts {i : ℕ} {rest : List (ℕ × Order)} (hcall : s.jobs[i]? = some (.scan rest)) :
    MonitorMove s (.aborts i) (s.setPhase i (.scan []))
  | admitted {i id : ℕ} {rest : List (ℕ × Order)} (ok : Bool) (hcall : s.jobs[i]? = some (.screen id rest)) :
    MonitorMove s (.admitted i ok) (s.setPhase i (if ok then .execute id rest else .scan rest))
  | executed {i id : ℕ} {rest : List (ℕ × Order)} (execution : Execution)
    (hcall : s.jobs[i]? = some (.execute id rest)) :
    MonitorMove s (.executed i execution) (s.executed i id rest execution)
  | markedFailed {i id : ℕ} {landed : Bool} {rest : List (ℕ × Order)} (ok : Bool)
    (hcall : s.jobs[i]? = some (.markFailed id landed rest)) : MonitorMove s (.markedFailed i ok)
      (if ok then (s.setStatus id .FAILED).setPhase i (.scan rest) else s.setPhase i (.scan rest))
  | created {i id : ℕ} {landed : Bool} {rest : List (ℕ × Order)} (ok : Bool)
    (hcall : s.jobs[i]? = some (.create id landed rest)) :
    MonitorMove s (.created i ok) (s.setPhase i (if ok then .markFilled id landed rest else .scan rest))
  | markedFilled {i id : ℕ} {landed : Bool} {rest : List (ℕ × Order)} (ok : Bool)
    (hcall : s.jobs[i]? = some (.markFilled id landed rest)) : MonitorMove s (.markedFilled i ok)
      (if ok then (s.setStatus id .FILLED).setPhase i (.scan rest) else s.setPhase i (.scan rest))

theorem monitorMove_of_step (hstep : positionMonitor.step s e = some s') : MonitorMove s e s' := by
  cases e with
  | place order =>
    obtain ⟨-, hplaced⟩ := Option.ite_none_right_eq_some.mp hstep
    obtain rfl := Option.some.inj hplaced
    exact .place order
  | cancel userId id =>
    obtain rfl := Option.some.inj hstep
    exact .cancel userId id
  | tick rows =>
    obtain ⟨-, hread⟩ := Option.ite_none_right_eq_some.mp hstep
    obtain rfl := Option.some.inj hread
    exact .tick rows _
  | next i price =>
    obtain ⟨phase, hcall, hphase⟩ := Option.bind_eq_some_iff.mp hstep
    cases phase with
    | scan rows =>
      cases rows with
      | nil => cases hphase
      | cons row rest =>
        obtain rfl := Option.some.inj hphase
        exact .next price hcall
    | _ => cases hphase
  | aborts i =>
    obtain ⟨phase, hcall, hphase⟩ := Option.bind_eq_some_iff.mp hstep
    cases phase with
    | scan rows =>
      obtain rfl := Option.some.inj hphase
      exact .aborts hcall
    | _ => cases hphase
  | admitted i ok =>
    obtain ⟨phase, hcall, hphase⟩ := Option.bind_eq_some_iff.mp hstep
    cases phase with
    | screen id rest =>
      obtain rfl := Option.some.inj hphase
      exact .admitted ok hcall
    | _ => cases hphase
  | executed i execution =>
    obtain ⟨phase, hcall, hphase⟩ := Option.bind_eq_some_iff.mp hstep
    cases phase with
    | execute id rest =>
      obtain rfl := Option.some.inj hphase
      exact .executed execution hcall
    | _ => cases hphase
  | markedFailed i ok =>
    obtain ⟨phase, hcall, hphase⟩ := Option.bind_eq_some_iff.mp hstep
    cases phase with
    | markFailed id landed rest =>
      obtain rfl := Option.some.inj hphase
      exact .markedFailed ok hcall
    | _ => cases hphase
  | created i ok =>
    obtain ⟨phase, hcall, hphase⟩ := Option.bind_eq_some_iff.mp hstep
    cases phase with
    | create id landed rest =>
      obtain rfl := Option.some.inj hphase
      exact .created ok hcall
    | _ => cases hphase
  | markedFilled i ok =>
    obtain ⟨phase, hcall, hphase⟩ := Option.bind_eq_some_iff.mp hstep
    cases phase with
    | markFilled id landed rest =>
      obtain rfl := Option.some.inj hphase
      exact .markedFilled ok hcall
    | _ => cases hphase

theorem storePeak_status (s : MonitorState) (id : ℕ) (read params : TriggerParams) (k : ℕ) :
    (s.storePeak id read params).status k = s.status k := by
  unfold MonitorState.storePeak
  split
  · rfl
  · exact status_update_of_eq s id (f := fun order => { order with params }) (fun _ => rfl) k

@[simp] theorem storePeak_jobs (s : MonitorState) (id : ℕ) (read params : TriggerParams) :
    (s.storePeak id read params).jobs = s.jobs := by
  unfold MonitorState.storePeak
  split <;> rfl

@[simp] theorem storePeak_onChain (s : MonitorState) (id : ℕ) (read params : TriggerParams) :
    (s.storePeak id read params).onChain = s.onChain := by
  unfold MonitorState.storePeak
  split <;> rfl

@[simp] theorem storePeak_started (s : MonitorState) (id : ℕ) (read params : TriggerParams) :
    (s.storePeak id read params).started = s.started := by
  unfold MonitorState.storePeak
  split <;> rfl

namespace Settled

theorem next (h : Settled s) {order : Order} {rest : List (ℕ × Order)} {price : Option ℚ}
    (hcall : s.jobs[i]? = some (.scan ((id, order) :: rest)))
    (hguard : (monitorTick order.type price order.params).1.isSome →
      s.isOpen id = true ∧ ∀ phase ∈ s.jobs, phase.swaps id = false) :
    Settled (s.next i id order rest price) := by
  have hpeak : Settled (s.storePeak id order.params (monitorTick order.type price order.params).2) :=
    h.of_eq (storePeak_jobs ..) (storePeak_status s id _ _) (storePeak_onChain ..)
  have hcall' : (s.storePeak id order.params (monitorTick order.type price order.params).2).jobs[i]? =
      some (.scan ((id, order) :: rest)) := by rw [storePeak_jobs, hcall]
  unfold MonitorState.next
  dsimp only
  split
  · rename_i hfire
    obtain ⟨hopen, hfree⟩ := hguard hfire
    refine hpeak.start hcall' ?_ ?_ _
    · unfold MonitorState.isOpen
      rw [storePeak_status]
      exact hopen
    · rw [storePeak_jobs]
      exact hfree
  · exact hpeak.idle hcall' rest rfl

theorem executed (h : Settled s) {rest : List (ℕ × Order)} (hcall : s.jobs[i]? = some (.execute id rest))
    (execution : Execution) : Settled (s.executed i id rest execution) := by
  have hid : (JobPhase.execute id rest).swaps id = true := beq_self_eq_true id
  cases execution with
  | confirmed => exact h.land hcall hid rfl (fun _ => rfl) rfl
  | paper => exact h.move hcall rfl (fun _ => rfl) rfl (fun _ hk => hk) nofun
  | failed landed =>
    cases landed with
    | true => exact h.land hcall hid rfl (fun _ => rfl) rfl
    | false => exact h.move hcall rfl (fun _ => rfl) rfl (fun _ hk => hk) nofun

theorem step (h : Settled s) (hguard : Careful s e) (hstep : positionMonitor.step s e = some s') : Settled s' := by
  cases monitorMove_of_step hstep with
  | place order => exact h.place order
  | cancel userId id => exact h.cancel userId hguard.2
  | tick rows read => exact h.tick read
  | next price hcall => exact h.next hcall (hguard _ _ _ hcall)
  | aborts hcall => exact h.idle hcall [] rfl
  | admitted ok hcall =>
    cases ok with
    | true => exact h.move hcall rfl (fun _ => rfl) rfl (fun _ hk => hk) nofun
    | false => exact h.idle hcall _ rfl
  | executed execution hcall => exact h.executed hcall execution
  | markedFailed ok hcall =>
    cases ok with
    | true => exact h.close hcall (beq_self_eq_true _) rfl _
    | false => exact h.idle hcall _ (hguard _ hcall)
  | created ok hcall =>
    cases ok with
    | true => exact h.move hcall rfl (fun _ => rfl) rfl (fun _ hk => hk) fun hland => ⟨hland, fun _ => rfl⟩
    | false => exact h.idle hcall _ (hguard _ hcall)
  | markedFilled ok hcall =>
    cases ok with
    | true => exact h.close hcall (beq_self_eq_true _) rfl _
    | false => exact h.idle hcall _ (hguard _ hcall)

end Settled

/-! ## Closed orders -/

namespace KeepsClosed

theorem refl (s : MonitorState) : KeepsClosed s s := fun _ _ hstatus _ => ⟨hstatus, rfl⟩

theorem trans (h : KeepsClosed s t) (h' : KeepsClosed t u) : KeepsClosed s u := by
  intro id status hstatus hend
  obtain ⟨hfirst, hcount⟩ := h id status hstatus hend
  obtain ⟨hsecond, hcount'⟩ := h' id status hfirst hend
  exact ⟨hsecond, hcount'.trans hcount⟩

theorem of_status (hstatus : ∀ k, t.status k = s.status k) (hstarted : t.started = s.started) :
    KeepsClosed s t := by
  intro id status hid _
  exact ⟨(hstatus id).trans hid, by rw [hstarted]⟩

/-- A write to an order that is open. -/
theorem of_open (hopen : s.isOpen id = true) (hstatus : ∀ k, k ≠ id → t.status k = s.status k)
    (hstarted : ∀ k, k ≠ id → t.started.count k = s.started.count k) : KeepsClosed s t := by
  intro k status hk hend
  by_cases hkid : k = id
  · subst hkid
    exact absurd ((isClosed_of_status hk hend).symm.trans (isClosed_of_isOpen hopen)) (by decide)
  · exact ⟨(hstatus k hkid).trans hk, hstarted k hkid⟩

theorem place (order : Order) : KeepsClosed s { s with orders := s.orders ++ [order] } := by
  intro id status hid _
  have hlt : id < s.orders.length := by
    by_contra hge
    unfold MonitorState.status at hid
    rw [List.getElem?_eq_none (Nat.le_of_not_lt hge)] at hid
    cases hid
  exact ⟨(status_place s order hlt).trans hid, rfl⟩

theorem cancel (userId : String) (hguard : ∀ status ∈ s.status id, status.isOpen ∨ status = .CANCELLED) :
    KeepsClosed s (s.cancel userId id) := by
  intro k status hk hend
  refine ⟨?_, rfl⟩
  by_cases hkid : k = id
  · subst hkid
    have hcancelled : status = .CANCELLED := by
      rcases hguard status hk with hopen | hdone
      · rw [hend] at hopen
        cases hopen
      · exact hdone
    unfold MonitorState.cancel
    rw [status_update_self]
    obtain ⟨order, horder, rfl⟩ := Option.map_eq_some_iff.mp hk
    rw [horder]
    by_cases howner : order.userId = userId
    · simp [howner, hcancelled]
    · simp [howner]
  · exact (status_update_of_ne _ hkid).trans hk

theorem next {order : Order} {rest : List (ℕ × Order)} {price : Option ℚ}
    (hguard : (monitorTick order.type price order.params).1.isSome → s.isOpen id = true) :
    KeepsClosed s (s.next i id order rest price) := by
  have hpeak := storePeak_status s id order.params (monitorTick order.type price order.params).2
  unfold MonitorState.next
  dsimp only
  split
  · rename_i hfire
    refine of_open (hguard hfire) (fun k _ => hpeak k) fun k hk => ?_
    show ((s.storePeak id order.params _).started ++ [id]).count k = _
    have hnew : [id].count k = 0 := List.count_eq_zero.mpr fun hmem => hk (List.mem_singleton.mp hmem)
    rw [List.count_append, hnew, storePeak_started]
    rfl
  · exact of_status hpeak (storePeak_started ..)

/-- The end of a swap closes an order that was open. -/
theorem close {status : OrderStatus} {rest : List (ℕ × Order)} (h : Settled s) (hcall : s.jobs[i]? = some phase)
    (hswaps : phase.swaps id = true) : KeepsClosed s ((s.setStatus id status).setPhase i (.scan rest)) :=
  of_open (h.opened id phase (List.mem_of_getElem? hcall) hswaps) (fun _ hk => status_update_of_ne _ hk) fun _ _ => rfl

theorem step (h : Settled s) (hguard : Careful s e) (hstep : positionMonitor.step s e = some s') :
    KeepsClosed s s' := by
  cases monitorMove_of_step hstep with
  | place order => exact place order
  | cancel userId id => exact cancel userId hguard.1
  | tick rows read => exact of_status (fun _ => rfl) rfl
  | next price hcall => exact next fun hfire => (hguard _ _ _ hcall hfire).1
  | aborts hcall => exact of_status (fun _ => rfl) rfl
  | admitted ok hcall => exact of_status (fun _ => rfl) rfl
  | executed execution hcall =>
    cases execution with
    | confirmed => exact of_status (fun _ => rfl) rfl
    | paper => exact of_status (fun _ => rfl) rfl
    | failed landed => cases landed <;> exact of_status (fun _ => rfl) rfl
  | markedFailed ok hcall =>
    cases ok with
    | true => exact close h hcall (beq_self_eq_true _)
    | false => exact of_status (fun _ => rfl) rfl
  | created ok hcall => exact of_status (fun _ => rfl) rfl
  | markedFilled ok hcall =>
    cases ok with
    | true => exact close h hcall (beq_self_eq_true _)
    | false => exact of_status (fun _ => rfl) rfl

theorem run {steps : List MonitorEvent} (h : Settled s) (hrun : positionMonitor.GuardedRun Careful s steps t) :
    Settled t ∧ KeepsClosed s t := by
  refine hrun.invariant (I := fun u => Settled u ∧ KeepsClosed s u) ?_ ⟨h, refl s⟩
  rintro u e u' ⟨hsettled, hkeeps⟩ hguard hstep
  exact ⟨hsettled.step hguard hstep, hkeeps.trans (step hsettled hguard hstep)⟩

end KeepsClosed

/-! ## Runs -/

/-- **One execution.** In a careful run every order is executed on chain at most once, and once its status is
FILLED, CANCELLED or FAILED it stays so and no swap of the order starts any more. -/
theorem executedOnce {orders : List Order} {steps : List MonitorEvent}
    (hrun : positionMonitor.GuardedRun Careful { orders } steps t) :
    (∀ id, t.onChain.count id ≤ 1) ∧
      ∀ pre post s, steps = pre ++ post → positionMonitor.run { orders } pre = some s → KeepsClosed s t := by
  have hinitial := Settled.initial orders
  refine ⟨(KeepsClosed.run hinitial hrun).1.once, ?_⟩
  rintro pre post s rfl hpre
  obtain ⟨u, hfirst, hsecond⟩ := hrun.split
  obtain rfl := Option.some.inj (hpre.symm.trans hfirst.run)
  exact (KeepsClosed.run (KeepsClosed.run hinitial hfirst).1 hsecond).2

/-! ## Two runs -/

instance (s : MonitorState) : (e : MonitorEvent) → Decidable (Careful s e)
  | .next i price =>
    match h : s.jobs[i]? with
    | some (.scan ((id, order) :: rest)) =>
      decidable_of_iff ((monitorTick order.type price order.params).1.isSome →
          s.isOpen id = true ∧ ∀ phase ∈ s.jobs, phase.swaps id = false)
        ⟨fun hsafe id' order' rest' hother => by
          obtain ⟨⟨rfl, rfl⟩, rfl⟩ : (id = id' ∧ order = order') ∧ rest = rest' := by
            simpa using h.symm.trans hother
          exact hsafe, fun hsafe => hsafe id order rest h⟩
    | some (.scan []) | some (.screen _ _) | some (.execute _ _) | some (.markFailed _ _ _)
    | some (.create _ _ _) | some (.markFilled _ _ _) | none =>
      .isTrue fun _ _ _ hother => by rw [h] at hother; cases hother
  | .cancel _ id => inferInstanceAs (Decidable ((∀ status ∈ s.status id, status.isOpen ∨ status = .CANCELLED) ∧
      ∀ phase ∈ s.jobs, phase.swaps id = false))
  | .markedFailed i false | .created i false | .markedFilled i false =>
    inferInstanceAs (Decidable (∀ phase ∈ s.jobs[i]?, phase.hasLanded = false))
  | .markedFailed _ true | .created _ true | .markedFilled _ true | .place _ | .tick _ | .aborts _
  | .admitted _ _ | .executed _ _ => inferInstanceAs (Decidable True)

/-- Two stop-loss orders of one user. -/
def sampleOrders : List Order :=
  [{ userId := "u1", type := .STOP_LOSS, params := { stopPrice := some 10 } },
    { userId := "u1", type := .STOP_LOSS, params := { stopPrice := some 5 } }]

/-- The first order is filled and the second one cancelled; a later tick finds nothing to do. -/
def carefulSteps : List MonitorEvent :=
  [.tick [0, 1], .next 0 (some 9), .admitted 0 true, .executed 0 .confirmed, .created 0 true,
    .markedFilled 0 true, .next 0 (some 9), .cancel "u1" 1, .tick []]

theorem carefulSteps_executedOnce : ∃ t, positionMonitor.run { orders := sampleOrders } carefulSteps = some t ∧
    t.status 0 = some .FILLED ∧ (∀ id, t.onChain.count id ≤ 1) ∧
      ∀ pre post s, carefulSteps = pre ++ post → positionMonitor.run { orders := sampleOrders } pre = some s →
        KeepsClosed s t := by
  have hmap : (positionMonitor.guardedRun Careful { orders := sampleOrders } carefulSteps).map
      (fun t => t.status 0) = some (some .FILLED) := by decide +kernel
  obtain ⟨t, ht, hstatus⟩ := Option.map_eq_some_iff.mp hmap
  have hrun := StepSystem.GuardedRun.of_guardedRun ht
  exact ⟨t, hrun.run, hstatus, executedOnce hrun⟩

/-- The trade of the first swap is not written, and the next tick swaps the order again. -/
def lostTradeSteps : List MonitorEvent :=
  [.tick [0, 1], .next 0 (some 9), .admitted 0 true, .executed 0 .confirmed, .created 0 false,
    .tick [0, 1], .next 1 (some 9), .admitted 1 true, .executed 1 .confirmed]

theorem order_executed_twice : ¬ ∀ (orders : List Order) (steps : List MonitorEvent) (t : MonitorState),
    positionMonitor.run { orders } steps = some t →
    (∀ id, t.onChain.count id ≤ 1) ∧
      ∀ pre post s, steps = pre ++ post → positionMonitor.run { orders } pre = some s → KeepsClosed s t := by
  intro h
  have hmap : (positionMonitor.run { orders := sampleOrders } lostTradeSteps).map
      (fun t => t.onChain.count 0) = some 2 := by decide +kernel
  obtain ⟨t, ht, hcount⟩ := Option.map_eq_some_iff.mp hmap
  have hone := (h sampleOrders lostTradeSteps t ht).1 0
  rw [hcount] at hone
  omega

end SuperAi.Orders
