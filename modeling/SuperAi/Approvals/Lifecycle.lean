import SuperAi.Approvals.ApprovalRequest

/-! # The lifecycle of an approval request

All calls but the expirer look at the status in one access and write it in a later one, whatever it
has become in between. A request keeps the status with which it has left PENDING exactly in the
runs in which no update overwrites another status than PENDING and its own (`lifecycle_iff`); the runs
with one call at a time are among them (`guarded_of_oneAtATime`).
-/
namespace SuperAi.Approvals
open SuperAi.Foundations SuperAi.Execution
set_option autoImplicit false

/-! ## The property and its condition -/

/-- Along a run on the request: it has left PENDING after any update, and what it has then become it
stays. -/
structure Lifecycle (request : ApprovalRequest) (steps : List ApprovalStep) : Prop where
  leaves : ∀ pre i now post s, steps = pre ++ .update i now :: post →
    approvals.run { request } (pre ++ [.update i now]) = some s → s.request.status ≠ .PENDING
  stays : ∀ pre mid post s t, steps = pre ++ mid ++ post → approvals.run { request } pre = some s →
    approvals.run s mid = some t → s.request.status ≠ .PENDING → t.request.status = s.request.status

/-- The update of a call finds the request PENDING, or sets the status that it has. -/
def Unchallenged (s : ApprovalState) : ApprovalStep → Prop
  | .update i _ => ∀ phase, s.calls[i]? = some phase →
      s.request.status = .PENDING ∨ phase.target = some s.request.status
  | _ => True

/-! ## What a step does -/

namespace CallPhase

/-- The call has found the request PENDING and is on its way to act on that. -/
def undecided : CallPhase → Bool
  | .respond _ _ _ => true
  | .expire => true
  | .readConfig => true
  | .reject => true
  | _ => false

def executes : CallPhase → Bool
  | .readIntent => true
  | .swap _ => true
  | .settle _ _ => true
  | _ => false

end CallPhase

namespace ApprovalStep

def starts : ApprovalStep → Bool
  | .respond _ _ _ _ => true
  | .expire => true
  | .autoDecide => true
  | .executeApproved => true
  | _ => false

/-- A step with which something new begins, the one command of the expirer included. -/
def enters : ApprovalStep → Bool
  | .expireDue _ => true
  | e => e.starts

end ApprovalStep

/-- What each step does, and the phase that it finds its call in. -/
inductive Stepped (s : ApprovalState) : ApprovalStep → ApprovalState → Prop
  | respond (userId : String) (accept : Bool) (via : ApprovalChannel) (opts : RespondOpts) :
    Stepped s (.respond userId accept via opts) (s.start (s.respondChecked userId accept via opts))
  | expire : Stepped s .expire (s.start s.expireChecked)
  | autoDecide : Stepped s .autoDecide (s.start s.autoDecideChecked)
  | executeApproved (queued : s.queued = true) : Stepped s .executeApproved (s.start .readIntent)
  | expireDue (now : ℤ) : Stepped s (.expireDue now) (s.expireDue now)
  | readConfig {i : ℕ} (onTimeout : Option String) (call : s.calls[i]? = some .readConfig) :
    Stepped s (.readConfig i onTimeout)
      (s.setPhase i (if onTimeout.getD "reject" = "reject" then .reject else .readIntent))
  | found {i : ℕ} (call : s.calls[i]? = some .readIntent) :
    Stepped s (.readIntent i) (s.setPhase i (.returned none))
  | started {i : ℕ} (call : s.calls[i]? = some .readIntent) (fresh : s.request.executed = false) :
    Stepped s (.readIntent i) { s.setPhase i (.swap s.request) with swaps := s.swaps ++ [s.request.swapInput] }
  | made {i : ℕ} {read : ApprovalRequest} (tradeId : String) (call : s.calls[i]? = some (.swap read)) :
    Stepped s (.swapped i (.ok tradeId)) (s.setPhase i (.settle read tradeId))
  | threw {i : ℕ} {read : ApprovalRequest} (error : String) (call : s.calls[i]? = some (.swap read)) :
    Stepped s (.swapped i (.error error)) (s.setPhase i (.returned none))
  | update {i : ℕ} {now : ℤ} {phase : CallPhase} {req : ApprovalRequest} (call : s.calls[i]? = some phase)
    (updated : phase.updated now s.request = some req) : Stepped s (.update i now)
      { s.setPhase i (.returned (phase.answer req)) with
        request := req, queued := s.queued || phase.accepts }
  | fails {i : ℕ} {phase : CallPhase} (call : s.calls[i]? = some phase) (unfinished : phase.finished = false) :
    Stepped s (.fails i) (s.setPhase i .failed)

/-- The four kinds of steps, with what the later ones rely on. -/
inductive Effect (s : ApprovalState) : ApprovalStep → ApprovalState → Prop
  | start {e : ApprovalStep} {phase : CallPhase} (starts : e.starts = true)
      (fresh : phase.undecided = true → s.request.status = .PENDING)
      (job : phase.executes = true → s.queued = true) : Effect s e (s.start phase)
  | move {e : ApprovalStep} {i : ℕ} {phase phase' : CallPhase} {swaps : List SwapInput}
      (call : s.calls[i]? = some phase) (undecided : phase'.undecided = true → phase.undecided = true)
      (executes : phase'.executes = true → phase.undecided = true ∨ phase.executes = true)
      (unfinished : phase.finished = false) : Effect s e { s.setPhase i phase' with swaps := swaps }
  | update {i : ℕ} {now : ℤ} {phase : CallPhase} {req : ApprovalRequest} (call : s.calls[i]? = some phase)
      (updated : phase.updated now s.request = some req) : Effect s (.update i now)
        { s.setPhase i (.returned (phase.answer req)) with
          request := req, queued := s.queued || phase.accepts }
  | expireDue (now : ℤ) : Effect s (.expireDue now) (s.expireDue now)

variable {s s' t : ApprovalState} {e : ApprovalStep}

theorem undecided_respondChecked {userId : String} {accept : Bool} {via : ApprovalChannel} {opts : RespondOpts}
    (h : (s.respondChecked userId accept via opts).undecided = true) : s.request.status = .PENDING := by
  unfold ApprovalState.respondChecked at h
  split at h
  · cases h
  · split at h
    · cases h
    · rename_i hpending
      exact not_not.mp hpending

theorem executes_respondChecked (userId : String) (accept : Bool) (via : ApprovalChannel) (opts : RespondOpts) :
    (s.respondChecked userId accept via opts).executes = false := by
  unfold ApprovalState.respondChecked
  split
  · rfl
  · split <;> rfl

theorem undecided_expireChecked (h : s.expireChecked.undecided = true) : s.request.status = .PENDING := by
  unfold ApprovalState.expireChecked at h
  split at h
  · cases h
  · rename_i hpending
    exact not_not.mp hpending

theorem undecided_autoDecideChecked (h : s.autoDecideChecked.undecided = true) :
    s.request.status = .PENDING := by
  unfold ApprovalState.autoDecideChecked at h
  split at h
  · cases h
  · rename_i hpending
    exact not_not.mp hpending

theorem stepped_of_step (h : approvals.step s e = some s') : Stepped s e s' := by
  change s.step e = some s' at h
  cases e with
  | respond userId accept via opts =>
    obtain rfl := Option.some.inj h
    exact .respond userId accept via opts
  | expire =>
    obtain rfl := Option.some.inj h
    exact .expire
  | autoDecide =>
    obtain rfl := Option.some.inj h
    exact .autoDecide
  | executeApproved =>
    obtain ⟨hqueued, hstart⟩ := Option.ite_none_right_eq_some.mp h
    obtain rfl := Option.some.inj hstart
    exact .executeApproved hqueued
  | expireDue now =>
    obtain rfl := Option.some.inj h
    exact .expireDue now
  | readConfig i onTimeout =>
    obtain ⟨phase, hcall, hphase⟩ := Option.bind_eq_some_iff.mp h
    cases phase with
    | readConfig =>
      obtain rfl := Option.some.inj hphase
      exact .readConfig onTimeout hcall
    | _ => cases hphase
  | readIntent i =>
    obtain ⟨phase, hcall, hphase⟩ := Option.bind_eq_some_iff.mp h
    cases phase with
    | readIntent =>
      dsimp only at hphase
      split at hphase
      · obtain rfl := Option.some.inj hphase
        exact .found hcall
      · rename_i hfresh
        obtain rfl := Option.some.inj hphase
        exact .started hcall (Bool.eq_false_iff.mpr hfresh)
    | _ => cases hphase
  | swapped i result =>
    obtain ⟨phase, hcall, hphase⟩ := Option.bind_eq_some_iff.mp h
    cases phase with
    | swap read =>
      cases result with
      | ok tradeId =>
        obtain rfl := Option.some.inj hphase
        exact .made tradeId hcall
      | error error =>
        obtain rfl := Option.some.inj hphase
        exact .threw error hcall
    | _ => cases hphase
  | update i now =>
    obtain ⟨phase, hcall, hphase⟩ := Option.bind_eq_some_iff.mp h
    obtain ⟨req, hupdated, hreq⟩ := Option.bind_eq_some_iff.mp hphase
    obtain rfl := Option.some.inj hreq
    exact .update hcall hupdated
  | fails i =>
    obtain ⟨phase, hcall, hphase⟩ := Option.bind_eq_some_iff.mp h
    obtain ⟨hunfinished, hfailed⟩ := Option.ite_none_left_eq_some.mp hphase
    obtain rfl := Option.some.inj hfailed
    exact .fails hcall (Bool.eq_false_iff.mpr hunfinished)

theorem step_effect (h : approvals.step s e = some s') : Effect s e s' := by
  cases stepped_of_step h with
  | respond userId accept via opts =>
    refine .start rfl undecided_respondChecked fun hexecutes => ?_
    rw [executes_respondChecked] at hexecutes
    cases hexecutes
  | expire =>
    refine .start rfl undecided_expireChecked fun hexecutes => ?_
    unfold ApprovalState.expireChecked at hexecutes
    split at hexecutes <;> cases hexecutes
  | autoDecide =>
    refine .start rfl undecided_autoDecideChecked fun hexecutes => ?_
    unfold ApprovalState.autoDecideChecked at hexecutes
    split at hexecutes <;> cases hexecutes
  | executeApproved queued => exact .start rfl nofun fun _ => queued
  | expireDue now => exact .expireDue now
  | readConfig onTimeout call => exact .move call (fun _ => rfl) (fun _ => .inl rfl) rfl
  | found call => exact .move call nofun nofun rfl
  | started call fresh => exact .move call nofun (fun _ => .inr rfl) rfl
  | made tradeId call => exact .move call nofun (fun _ => .inr rfl) rfl
  | threw error call => exact .move call nofun nofun rfl
  | update call updated => exact .update call updated
  | fails call unfinished => exact .move call nofun nofun unfinished

/-! ## The status along a run -/

theorem target_ne_pending (phase : CallPhase) : phase.target ≠ some .PENDING := by
  cases phase with
  | respond accept via opts => cases accept <;> exact nofun
  | _ => exact nofun

theorem update_spec {i : ℕ} {now : ℤ} (h : approvals.step s (.update i now) = some s') :
    ∃ phase, s.calls[i]? = some phase ∧ phase.target = some s'.request.status := by
  obtain ⟨phase, hcall, hphase⟩ := Option.bind_eq_some_iff.mp h
  obtain ⟨req, hupdated, hreq⟩ := Option.bind_eq_some_iff.mp hphase
  obtain rfl := Option.some.inj hreq
  exact ⟨phase, hcall, CallPhase.updated_status hupdated⟩

theorem update_leaves {i : ℕ} {now : ℤ} (h : approvals.step s (.update i now) = some s') :
    s'.request.status ≠ .PENDING := by
  obtain ⟨phase, -, htarget⟩ := update_spec h
  intro hpending
  rw [hpending] at htarget
  exact target_ne_pending phase htarget

/-- A request that is not PENDING any more keeps its status in an unchallenged step. -/
theorem status_kept (hleft : s.request.status ≠ .PENDING) (hguard : Unchallenged s e)
    (h : approvals.step s e = some s') : s'.request.status = s.request.status := by
  cases step_effect h with
  | start _ _ _ => rfl
  | move _ _ _ _ => rfl
  | expireDue now =>
    rw [ApprovalState.expireDue, if_neg (fun hdue => hleft hdue.1)]
  | @update i now phase req call updated =>
    have htarget := (hguard phase call).resolve_left hleft
    rw [CallPhase.updated_status updated] at htarget
    exact Option.some.inj htarget

theorem status_kept_run {steps : List ApprovalStep} (hleft : s.request.status ≠ .PENDING)
    (hrun : approvals.GuardedRun Unchallenged s steps t) : t.request.status = s.request.status := by
  refine hrun.invariant (I := fun u => u.request.status = s.request.status) ?_ rfl
  intro u e u' hu hguard hstep
  rw [← hu]
  refine status_kept ?_ hguard hstep
  rw [hu]
  exact hleft

theorem lifecycle_of_unchallenged {request : ApprovalRequest} {steps : List ApprovalStep}
    (hguarded : approvals.GuardedRun Unchallenged { request } steps t) : Lifecycle request steps := by
  have hguard := (StepSystem.GuardedRun.iff_forall_steps hguarded.run).mp hguarded
  constructor
  · intro pre i now post s _ hpre
    rw [approvals.run_append] at hpre
    obtain ⟨u, -, hu⟩ := Option.bind_eq_some_iff.mp hpre
    obtain ⟨u', hstep, hnil⟩ := Option.bind_eq_some_iff.mp hu
    obtain rfl := Option.some.inj hnil
    exact update_leaves hstep
  · intro pre mid post s u hsteps hpre hmid hleft
    refine status_kept_run hleft ((StepSystem.GuardedRun.iff_forall_steps hmid).mpr ?_)
    intro before e after v hsplit hbefore
    refine hguard (pre ++ before) e (after ++ post) v ?_ ?_
    · rw [hsteps, hsplit]
      simp
    · rw [approvals.run_append, hpre]
      exact hbefore

/-- **Lifecycle.** The runs along which the request keeps its lifecycle are those in which every update
finds it PENDING, or sets the status that it has. -/
theorem lifecycle_iff {request : ApprovalRequest} {steps : List ApprovalStep}
    (hrun : approvals.run { request } steps = some t) :
    Lifecycle request steps ↔ approvals.GuardedRun Unchallenged { request } steps t := by
  refine ⟨fun hlife => ?_, lifecycle_of_unchallenged⟩
  rw [StepSystem.GuardedRun.iff_forall_steps hrun]
  intro pre e post s hsteps hpre
  cases e with
  | update i now =>
    intro phase hcall
    by_cases hleft : s.request.status = .PENDING
    · exact .inl hleft
    · -- the update is a step of the run, after which the status is still the same
      obtain ⟨s', hstep⟩ : ∃ s', approvals.step s (.update i now) = some s' := by
        rw [hsteps, approvals.run_append, hpre, Option.bind_some] at hrun
        obtain ⟨s', hstep, -⟩ := Option.bind_eq_some_iff.mp hrun
        exact ⟨s', hstep⟩
      have hmid : approvals.run s [.update i now] = some s' := by
        rw [approvals.run_cons hstep, StepSystem.run_nil]
      have hsame := hlife.stays pre [.update i now] post s s' (by simpa using hsteps) hpre hmid hleft
      obtain ⟨phase', hcall', htarget⟩ := update_spec hstep
      obtain rfl : phase' = phase := Option.some.inj (hcall'.symm.trans hcall)
      rw [hsame] at htarget
      exact .inr htarget
  | _ => trivial

/-! ## One call at a time -/

/-- Nothing begins while a call is under way. -/
def OneAtATime (s : ApprovalState) (e : ApprovalStep) : Prop :=
  e.enters = true → ∀ phase ∈ s.calls, phase.finished = true

/-- At most one call is under way, and what it has found still holds. -/
structure Alone (s : ApprovalState) : Prop where
  one : ∀ (i j : ℕ) (p q : CallPhase), s.calls[i]? = some p → s.calls[j]? = some q →
    p.finished = false → q.finished = false → i = j
  undecided : ∀ phase ∈ s.calls, phase.undecided = true → s.request.status = .PENDING
  executes : ∀ phase ∈ s.calls, phase.executes = true →
    s.request.status = .PENDING ∨ s.request.status = .APPROVED
  job : s.queued = true → s.request.status = .APPROVED

namespace CallPhase
variable {phase : CallPhase}

theorem undecided_of_finished (h : phase.finished = true) : phase.undecided = false := by
  cases phase <;> first | rfl | cases h

theorem executes_of_finished (h : phase.finished = true) : phase.executes = false := by
  cases phase <;> first | rfl | cases h

theorem unfinished_of_target {status : ApprovalStatus} (h : phase.target = some status) :
    phase.finished = false := by
  cases phase <;> first | rfl | cases h

theorem target_of_accepts (h : phase.accepts = true) : phase.target = some .APPROVED := by
  cases phase with
  | respond accept via opts =>
    obtain rfl : accept = true := h
    rfl
  | _ => cases h

theorem target_cases {status : ApprovalStatus} (h : phase.target = some status) :
    phase.undecided = true ∨ phase.executes = true ∧ status = .APPROVED := by
  cases phase with
  | settle read tradeId => exact .inr ⟨rfl, (Option.some.inj h).symm⟩
  | respond accept via opts => exact .inl rfl
  | expire => exact .inl rfl
  | reject => exact .inl rfl
  | _ => cases h

end CallPhase

namespace Alone

theorem of_finished (hfinished : ∀ phase ∈ s.calls, phase.finished = true)
    (hjob : s.queued = true → s.request.status = .APPROVED) : Alone s where
  one i j p q hp _ hunfinished _ := by
    rw [hfinished p (List.mem_of_getElem? hp)] at hunfinished
    cases hunfinished
  undecided phase hmem hundecided := by
    rw [CallPhase.undecided_of_finished (hfinished phase hmem)] at hundecided
    cases hundecided
  executes phase hmem hexecutes := by
    rw [CallPhase.executes_of_finished (hfinished phase hmem)] at hexecutes
    cases hexecutes
  job := hjob

theorem others (h : Alone s) {i j : ℕ} {phase other : CallPhase} (hcall : s.calls[i]? = some phase)
    (hunfinished : phase.finished = false) (hother : s.calls[j]? = some other) (hne : j ≠ i) :
    other.finished = true := by
  by_contra hfinished
  exact hne (h.one j i other phase hother hcall (Bool.eq_false_iff.mpr hfinished) hunfinished)

theorem set_cases (h : Alone s) {i j : ℕ} {phase phase' other : CallPhase} (hcall : s.calls[i]? = some phase)
    (hunfinished : phase.finished = false) (hother : (s.calls.set i phase')[j]? = some other) :
    j = i ∧ other = phase' ∨ other.finished = true := by
  rw [List.getElem?_set] at hother
  by_cases hj : i = j
  · rw [if_pos hj] at hother
    obtain ⟨-, hsome⟩ := Option.ite_none_right_eq_some.mp hother
    exact .inl ⟨hj.symm, (Option.some.inj hsome).symm⟩
  · rw [if_neg hj] at hother
    exact .inr (h.others hcall hunfinished hother (Ne.symm hj))

theorem start (h : Alone s) {phase : CallPhase} (hfinished : ∀ phase ∈ s.calls, phase.finished = true)
    (hfresh : phase.undecided = true → s.request.status = .PENDING)
    (hexecutes : phase.executes = true → s.queued = true) : Alone (s.start phase) := by
  have hlast : ∀ (j : ℕ) (p : CallPhase), (s.calls ++ [phase])[j]? = some p → p.finished = false →
      j = s.calls.length := by
    intro j p hp hunfinished
    by_contra hne
    have hold : s.calls[j]? = some p := by
      rcases Nat.lt_or_gt_of_ne hne with hlt | hgt
      · rwa [List.getElem?_append_left hlt] at hp
      · rw [List.getElem?_eq_none (by simp; omega)] at hp
        cases hp
    rw [hfinished p (List.mem_of_getElem? hold)] at hunfinished
    cases hunfinished
  constructor
  · intro i j p q hp hq hunfinished hunfinished'
    rw [hlast i p hp hunfinished, hlast j q hq hunfinished']
  · intro p hmem hundecided
    rcases List.mem_append.mp hmem with hold | hnew
    · exact h.undecided p hold hundecided
    · obtain rfl := List.mem_singleton.mp hnew
      exact hfresh hundecided
  · intro p hmem hexec
    rcases List.mem_append.mp hmem with hold | hnew
    · exact h.executes p hold hexec
    · obtain rfl := List.mem_singleton.mp hnew
      exact .inr (h.job (hexecutes hexec))
  · exact h.job

theorem move (h : Alone s) {i : ℕ} {phase phase' : CallPhase} {swaps : List SwapInput}
    (hcall : s.calls[i]? = some phase) (hundecided : phase'.undecided = true → phase.undecided = true)
    (hexecutes : phase'.executes = true → phase.undecided = true ∨ phase.executes = true)
    (hunfinished : phase.finished = false) : Alone { s.setPhase i phase' with swaps := swaps } := by
  have hphase : phase ∈ s.calls := List.mem_of_getElem? hcall
  constructor
  · intro j k p q hp hq hp' hq'
    rcases h.set_cases hcall hunfinished hp with ⟨rfl, -⟩ | hfinished
    · rcases h.set_cases hcall hunfinished hq with ⟨rfl, -⟩ | hfinished
      · rfl
      · rw [hfinished] at hq'
        cases hq'
    · rw [hfinished] at hp'
      cases hp'
  · intro p hmem hp
    rcases List.mem_or_eq_of_mem_set hmem with hold | rfl
    · exact h.undecided p hold hp
    · exact h.undecided phase hphase (hundecided hp)
  · intro p hmem hp
    rcases List.mem_or_eq_of_mem_set hmem with hold | rfl
    · exact h.executes p hold hp
    · rcases hexecutes hp with hphase' | hphase'
      · exact .inl (h.undecided phase hphase hphase')
      · exact h.executes phase hphase hphase'
  · exact h.job

theorem update_target (h : Alone s) {phase : CallPhase} {status : ApprovalStatus} (hmem : phase ∈ s.calls)
    (htarget : phase.target = some status) :
    s.request.status = .PENDING ∨ s.request.status = .APPROVED ∧ status = .APPROVED := by
  rcases CallPhase.target_cases htarget with hundecided | ⟨hexecutes, happroved⟩
  · exact .inl (h.undecided phase hmem hundecided)
  · exact (h.executes phase hmem hexecutes).imp_right fun hstatus => ⟨hstatus, happroved⟩

theorem unchallenged (h : Alone s) (hstep : approvals.step s e = some s') : Unchallenged s e := by
  cases e with
  | update i now =>
    intro phase hcall
    obtain ⟨phase', hcall', htarget⟩ := update_spec hstep
    obtain rfl : phase' = phase := Option.some.inj (hcall'.symm.trans hcall)
    refine (h.update_target (List.mem_of_getElem? hcall) htarget).imp_right ?_
    rintro ⟨hstatus, happroved⟩
    rw [htarget, hstatus, happroved]
  | _ => trivial

theorem step (h : Alone s) (hguard : OneAtATime s e) (hstep : approvals.step s e = some s') : Alone s' := by
  cases step_effect hstep with
  | start starts fresh job =>
    have henters : e.enters = true := by
      cases e <;> first | rfl | cases starts
    exact h.start (hguard henters) fresh job
  | move call undecided executes unfinished => exact h.move call undecided executes unfinished
  | @update i now phase req call updated =>
    have htarget := CallPhase.updated_status updated
    have hmem : phase ∈ s.calls := List.mem_of_getElem? call
    refine of_finished ?_ fun hqueued => ?_
    · intro p hp
      obtain ⟨j, hj⟩ := List.mem_iff_getElem?.mp hp
      rcases h.set_cases call (CallPhase.unfinished_of_target htarget) hj with ⟨-, rfl⟩ | hfinished
      · rfl
      · exact hfinished
    · rcases Bool.or_eq_true_iff.mp hqueued with hold | haccepts
      · rcases h.update_target hmem htarget with hpending | ⟨-, happroved⟩
        · rw [h.job hold] at hpending
          cases hpending
        · exact happroved
      · rw [CallPhase.target_of_accepts haccepts] at htarget
        exact (Option.some.inj htarget).symm
  | expireDue now =>
    have hfinished : ∀ phase ∈ s.calls, phase.finished = true := hguard rfl
    unfold ApprovalState.expireDue
    split
    · rename_i hdue
      refine of_finished hfinished fun hqueued => ?_
      rw [h.job hqueued] at hdue
      cases hdue.1
    · exact h

end Alone

theorem guarded_of_oneAtATime {request : ApprovalRequest} {steps : List ApprovalStep}
    (hrun : approvals.GuardedRun OneAtATime { request } steps t) :
    approvals.GuardedRun Unchallenged { request } steps t := by
  have hinitial : Alone { request } := Alone.of_finished (by simp) (by simp)
  refine hrun.mono_of_invariant (I := Alone) ?_ hinitial
  intro s e s' halone hguard hstep
  exact ⟨halone.step hguard hstep, halone.unchallenged hstep⟩

instance (s : ApprovalState) (e : ApprovalStep) : Decidable (OneAtATime s e) :=
  inferInstanceAs (Decidable (e.enters = true → ∀ phase ∈ s.calls, phase.finished = true))

/-! ## Two runs -/

def sampleRequest : ApprovalRequest where
  userId := "u1"
  tradeIntent :=
    { chain := "SOLANA"
      tokenIn := "So11111111111111111111111111111111111111112"
      tokenOut := "DezXAZ8z7PnrnRJjz3wXBoRgixCa6xjnB7YaB1pPB263"
      amountIn := "1000000"
      notionalUsd := 100
      slippageBps := 100
      walletId := "w1" }
  expiresAt := 60

/-- The user accepts, and the job that this adds makes the swap. -/
def acceptedInTime : List ApprovalStep :=
  [.respond "u1" true .WEB {}, .update 0 10, .executeApproved, .readIntent 1, .swapped 1 (.ok "t1"),
    .update 1 20, .expireDue 70, .autoDecide]

theorem acceptedInTime_lifecycle : Lifecycle sampleRequest acceptedInTime := by
  have hsome : (approvals.guardedRun OneAtATime { request := sampleRequest } acceptedInTime).isSome = true := by
    decide +kernel
  obtain ⟨t, ht⟩ := Option.isSome_iff_exists.mp hsome
  have hrun := StepSystem.GuardedRun.of_guardedRun ht
  exact (lifecycle_iff hrun.run).mpr (guarded_of_oneAtATime hrun)

/-- The timeout starts the swap, and the user rejects the request while it is made. -/
def rejectedDuringSwap : List ApprovalStep :=
  [.autoDecide, .readConfig 0 (some "execute"), .readIntent 0, .respond "u1" false .TELEGRAM {}, .update 1 61]

theorem rejected_request_approved : ¬ ∀ (request : ApprovalRequest) (steps : List ApprovalStep)
    (t : ApprovalState), approvals.run { request } steps = some t → Lifecycle request steps := by
  intro h
  obtain ⟨s, t, hs, ht, hrejected, happroved⟩ : ∃ s t,
      approvals.run { request := sampleRequest } rejectedDuringSwap = some s ∧
        approvals.run s [.swapped 0 (.ok "t1"), .update 0 62] = some t ∧
          s.request.status = .REJECTED ∧ t.request.status = .APPROVED :=
    ⟨_, _, rfl, rfl, rfl, rfl⟩
  have hrun : approvals.run { request := sampleRequest }
      (rejectedDuringSwap ++ [.swapped 0 (.ok "t1"), .update 0 62]) = some t := by
    rw [approvals.run_append, hs]
    exact ht
  have hstays := (h sampleRequest _ t hrun).stays rejectedDuringSwap _ [] s t (List.append_nil _).symm hs ht
  rw [hrejected, happroved] at hstays
  exact nomatch hstays nofun

end SuperAi.Approvals
