import SuperAi.Approvals.Lifecycle
import SuperAi.Foundations.SingleUse

/-! # One execution of an approval request

`executeApproved` looks for the id of a trade in the stored intent, makes the swap and stores the id
of its trade only then. The status it never looks at. So a request is executed once if no other swap
for it is under way or lost when the intent is read, and never against the user's will if the request
is not REJECTED then.
-/
namespace SuperAi.Approvals
open SuperAi.Foundations SuperAi.Execution
set_option autoImplicit false

/-! ## The property and its condition -/

namespace ApprovalStep

/-- The swap of a call throws: it has not been made. -/
def throws : ApprovalStep → Bool
  | .swapped _ (.error _) => true
  | _ => false

def tradeId : ApprovalStep → Option String
  | .swapped _ (.ok tradeId) => some tradeId
  | _ => none

end ApprovalStep

namespace CallPhase

/-- From the start of the swap to the update that stores its trade. -/
def swapping : CallPhase → Bool
  | .swap _ => true
  | .settle _ _ => true
  | _ => false

end CallPhase

variable {s s' t : ApprovalState} {e : ApprovalStep}

def StartsSwap (s : ApprovalState) : ApprovalStep → Prop
  | .readIntent _ => s.request.executed = false
  | _ => False

/-- The user's rejection reaches the row. -/
def RecordsRejection (s : ApprovalState) : ApprovalStep → Prop
  | .update i _ => ∃ via opts, s.calls[i]? = some (.respond false via opts)
  | _ => False

/-- Along a run on the request: of the swaps that were started all but one have thrown, and none was
started after a rejection. -/
structure ExecutedOnce (request : ApprovalRequest) (steps : List ApprovalStep) : Prop where
  once : ∀ pre post s, steps = pre ++ post → approvals.run { request } pre = some s →
    s.swaps.length ≤ pre.countP ApprovalStep.throws + 1
  approved : ∀ pre e mid f post s t, steps = pre ++ e :: (mid ++ f :: post) →
    approvals.run { request } pre = some s → RecordsRejection s e →
      approvals.run { request } (pre ++ e :: mid) = some t → ¬ StartsSwap t f

/-- A call starts a swap only of a request that is not REJECTED and that no other call is swapping; no
call is lost between its swap and its update; and no update overwrites REJECTED. -/
def Exclusive (s : ApprovalState) : ApprovalStep → Prop
  | .readIntent _ => s.request.executed = false →
      s.request.status ≠ .REJECTED ∧ ∀ phase ∈ s.calls, phase.swapping = false
  | .fails i => ∀ phase ∈ s.calls[i]?, phase.swapping = false
  | .update i _ => s.request.status = .REJECTED → ∀ phase ∈ s.calls[i]?, phase.target = some .REJECTED
  | _ => True

/-! ## Swaps that are started, made and stored -/

/-- How a step changes the swaps, the calls that swap and the row. -/
inductive SwapEffect (s : ApprovalState) : ApprovalStep → ApprovalState → Prop
  | other {e : ApprovalStep} {s' : ApprovalState} (swaps : s'.swaps = s.swaps)
      (executed : s'.request.executed = s.request.executed)
      (swapping : s'.calls.countP CallPhase.swapping = s.calls.countP CallPhase.swapping)
      (settling : ∀ read tradeId, .settle read tradeId ∈ s'.calls →
        .settle read tradeId ∈ s.calls ∨ e.tradeId = some tradeId)
      (made : e.throws = false) : SwapEffect s e s'
  | lost {i : ℕ} {phase : CallPhase} (call : s.calls[i]? = some phase) (swapping : phase.swapping = true) :
      SwapEffect s (.fails i) (s.setPhase i .failed)
  | started {i : ℕ} (call : s.calls[i]? = some .readIntent) (fresh : s.request.executed = false) :
      SwapEffect s (.readIntent i)
        { s.setPhase i (.swap s.request) with swaps := s.swaps ++ [s.request.swapInput] }
  | threw {i : ℕ} {read : ApprovalRequest} {error : String} (call : s.calls[i]? = some (.swap read)) :
      SwapEffect s (.swapped i (.error error)) (s.setPhase i (.returned none))
  | stored {i : ℕ} {now : ℤ} {read : ApprovalRequest} {tradeId : String}
      (call : s.calls[i]? = some (.settle read tradeId)) : SwapEffect s (.update i now)
        { s.setPhase i (.returned none) with
          request := s.request.settle now read tradeId, queued := s.queued || false }

namespace SwapEffect

theorem start {phase : CallPhase} (hphase : phase.swapping = false) (hmade : e.throws = false) :
    SwapEffect s e (s.start phase) := by
  refine .other rfl rfl ?_ (fun read tradeId hmem => ?_) hmade
  · change (s.calls ++ [phase]).countP CallPhase.swapping = _
    rw [List.countP_append, List.countP_singleton, hphase]
    rfl
  · rcases List.mem_append.mp hmem with hold | hnew
    · exact .inl hold
    · rw [← List.mem_singleton.mp hnew] at hphase
      cases hphase

/-- A call goes on without starting or ending a swap. -/
theorem move {i : ℕ} {phase phase' : CallPhase} (hcall : s.calls[i]? = some phase)
    (hswapping : phase'.swapping = phase.swapping)
    (hsettling : ∀ read tradeId, phase' = .settle read tradeId → e.tradeId = some tradeId)
    (hmade : e.throws = false) : SwapEffect s e (s.setPhase i phase') := by
  refine .other rfl rfl (countP_set_of_eq _ hcall hswapping) (fun read tradeId hmem => ?_) hmade
  rcases List.mem_or_eq_of_mem_set hmem with hold | hnew
  · exact .inl hold
  · exact .inr (hsettling read tradeId hnew.symm)

end SwapEffect

theorem swapping_respondChecked (userId : String) (accept : Bool) (via : ApprovalChannel) (opts : RespondOpts) :
    (s.respondChecked userId accept via opts).swapping = false := by
  unfold ApprovalState.respondChecked
  split
  · rfl
  · split <;> rfl

theorem executed_of_updated {phase : CallPhase} {now : ℤ} {req : ApprovalRequest}
    (hupdated : phase.updated now s.request = some req) (hphase : phase.swapping = false) :
    req.executed = s.request.executed := by
  cases phase with
  | settle read tradeId => cases hphase
  | respond accept via opts =>
    obtain rfl := Option.some.inj hupdated
    rfl
  | expire =>
    obtain rfl := Option.some.inj hupdated
    rfl
  | reject =>
    obtain rfl := Option.some.inj hupdated
    rfl
  | _ => cases hupdated

theorem swap_effect (h : approvals.step s e = some s') : SwapEffect s e s' := by
  cases stepped_of_step h with
  | respond userId accept via opts => exact .start (swapping_respondChecked userId accept via opts) rfl
  | expire =>
    refine .start ?_ rfl
    unfold ApprovalState.expireChecked
    split <;> rfl
  | autoDecide =>
    refine .start ?_ rfl
    unfold ApprovalState.autoDecideChecked
    split <;> rfl
  | executeApproved queued => exact .start rfl rfl
  | expireDue now =>
    unfold ApprovalState.expireDue
    split
    · exact .other rfl rfl rfl (fun _ _ hmem => .inl hmem) rfl
    · exact .other rfl rfl rfl (fun _ _ hmem => .inl hmem) rfl
  | readConfig onTimeout call =>
    refine .move call ?_ (fun read tradeId hsettle => ?_) rfl
    · split <;> rfl
    · split at hsettle <;> cases hsettle
  | found call => exact .move call rfl (fun _ _ hsettle => nomatch hsettle) rfl
  | started call fresh => exact .started call fresh
  | made tradeId call =>
    refine .move call rfl (fun read' tradeId' hsettle => ?_) rfl
    obtain ⟨-, rfl⟩ := CallPhase.settle.inj hsettle
    rfl
  | threw error call => exact .threw call
  | @update i now phase req call updated =>
    cases hswap : phase.swapping with
    | true =>
      cases phase with
      | settle read tradeId =>
        obtain rfl := Option.some.inj updated
        exact .stored call
      | swap read => cases updated
      | _ => cases hswap
    | false =>
      refine .other rfl (executed_of_updated updated hswap)
        (countP_set_of_eq _ call hswap.symm) (fun read tradeId hmem => ?_) rfl
      rcases List.mem_or_eq_of_mem_set hmem with hold | hnew
      · exact .inl hold
      · cases hnew
  | @fails i phase call unfinished =>
    cases hswap : phase.swapping with
    | true => exact .lost call hswap
    | false => exact .move call hswap.symm (fun _ _ hsettle => nomatch hsettle) rfl

/-! ## At most one swap -/

/-- After a history of steps: a swap that was started is under way, stored or has thrown, and at most
one of them is under way or stored. -/
structure SwapsOnce (history : List ApprovalStep) (s : ApprovalState) : Prop where
  counted : s.swaps.length ≤ history.countP ApprovalStep.throws +
    (s.calls.countP CallPhase.swapping + s.request.executed.toNat)
  one : s.calls.countP CallPhase.swapping + s.request.executed.toNat ≤ 1
  named : ∀ read tradeId, .settle read tradeId ∈ s.calls → tradeId ≠ ""

theorem executed_settle (req read : ApprovalRequest) (now : ℤ) {tradeId : String} (h : tradeId ≠ "") :
    (req.settle now read tradeId).executed = true := by
  simp [ApprovalRequest.executed, ApprovalRequest.settle, Option.filter, h]

namespace SwapsOnce
variable {history : List ApprovalStep}

theorem initial (request : ApprovalRequest) : SwapsOnce [] { request } where
  counted := Nat.zero_le _
  one := by
    change 0 + request.executed.toNat ≤ 1
    have hle := request.executed.toNat_le
    omega
  named _ _ hmem := by cases hmem

theorem named_set (h : SwapsOnce history s) {i : ℕ} {phase : CallPhase}
    (hphase : ∀ read tradeId, phase ≠ .settle read tradeId) (read : ApprovalRequest) (tradeId : String)
    (hmem : .settle read tradeId ∈ s.calls.set i phase) : tradeId ≠ "" := by
  rcases List.mem_or_eq_of_mem_set hmem with hold | hnew
  · exact h.named read tradeId hold
  · exact absurd hnew.symm (hphase read tradeId)

theorem step (h : SwapsOnce history s) (hid : e.tradeId ≠ some "") (hguard : Exclusive s e)
    (hstep : approvals.step s e = some s') : SwapsOnce (history ++ [e]) s' := by
  cases swap_effect hstep with
  | other swaps executed swapping settling made =>
    constructor
    · rw [swaps, executed, swapping, List.countP_append, List.countP_singleton, made]
      exact h.counted
    · rw [executed, swapping]
      exact h.one
    · intro read tradeId hmem
      rcases settling read tradeId hmem with hold | hnew
      · exact h.named read tradeId hold
      · rintro rfl
        exact hid hnew
  | lost call swapping =>
    rw [hguard _ call] at swapping
    cases swapping
  | @started i call fresh =>
    obtain ⟨-, hfree⟩ := hguard fresh
    have hnone : s.calls.countP CallPhase.swapping = 0 :=
      List.countP_eq_zero.mpr fun phase hmem => by simp [hfree phase hmem]
    have hcount : (s.calls.set i (.swap s.request)).countP CallPhase.swapping + 0 =
        s.calls.countP CallPhase.swapping + 1 := countP_set_eq CallPhase.swapping call (.swap s.request)
    have hcounted := h.counted
    rw [hnone, fresh] at hcounted
    constructor
    · change (s.swaps ++ [s.request.swapInput]).length ≤ (history ++ [ApprovalStep.readIntent i]).countP _ +
        ((s.calls.set i (.swap s.request)).countP _ + s.request.executed.toNat)
      rw [List.length_append, List.length_singleton, List.countP_append, fresh]
      simp only [Bool.toNat_false] at hcounted ⊢
      omega
    · change (s.calls.set i (.swap s.request)).countP _ + s.request.executed.toNat ≤ 1
      rw [fresh, Bool.toNat_false]
      omega
    · exact h.named_set (fun _ _ hsettle => nomatch hsettle)
  | @threw i read error call =>
    have hcount : (s.calls.set i (.returned none)).countP CallPhase.swapping + 1 =
        s.calls.countP CallPhase.swapping + 0 := countP_set_eq CallPhase.swapping call (.returned none)
    have hcounted := h.counted
    have hone := h.one
    constructor
    · change s.swaps.length ≤ (history ++ [ApprovalStep.swapped i (.error error)]).countP _ +
        ((s.calls.set i (.returned none)).countP _ + s.request.executed.toNat)
      have hthrows : (ApprovalStep.swapped i (.error error)).throws = true := rfl
      rw [List.countP_append, List.countP_singleton, if_pos hthrows]
      omega
    · change (s.calls.set i (.returned none)).countP _ + s.request.executed.toNat ≤ 1
      omega
    · exact h.named_set (fun _ _ hsettle => nomatch hsettle)
  | @stored i now read tradeId call =>
    have hcount : (s.calls.set i (.returned none)).countP CallPhase.swapping + 1 =
        s.calls.countP CallPhase.swapping + 0 := countP_set_eq CallPhase.swapping call (.returned none)
    have hexecuted := executed_settle s.request read now (h.named read tradeId (List.mem_of_getElem? call))
    have hcounted := h.counted
    have hone := h.one
    constructor
    · change s.swaps.length ≤ (history ++ [ApprovalStep.update i now]).countP _ +
        ((s.calls.set i (.returned none)).countP _ + (s.request.settle now read tradeId).executed.toNat)
      rw [List.countP_append, hexecuted, Bool.toNat_true]
      omega
    · change (s.calls.set i (.returned none)).countP _ +
        (s.request.settle now read tradeId).executed.toNat ≤ 1
      rw [hexecuted, Bool.toNat_true]
      omega
    · exact h.named_set (fun _ _ hsettle => nomatch hsettle)

end SwapsOnce

/-! ## No swap after a rejection -/

theorem rejected_of_recordsRejection (hrecords : RecordsRejection s e) (h : approvals.step s e = some s') :
    s'.request.status = .REJECTED := by
  cases e with
  | update i now =>
    obtain ⟨via, opts, hcall⟩ := hrecords
    obtain ⟨phase, hcall', htarget⟩ := update_spec h
    obtain rfl : CallPhase.respond false via opts = phase := Option.some.inj (hcall.symm.trans hcall')
    exact (Option.some.inj htarget).symm
  | _ => cases hrecords

theorem rejected_kept (hrejected : s.request.status = .REJECTED) (hguard : Exclusive s e)
    (h : approvals.step s e = some s') : s'.request.status = .REJECTED := by
  have hunchallenged : Unchallenged s e := by
    cases e with
    | update i now =>
      intro phase hcall
      rw [hrejected]
      exact .inr (hguard hrejected phase hcall)
    | _ => trivial
  have hleft : s.request.status ≠ .PENDING := by
    rw [hrejected]
    exact nofun
  rw [status_kept hleft hunchallenged h, hrejected]

theorem not_startsSwap (hrejected : s.request.status = .REJECTED) (hguard : Exclusive s e) :
    ¬ StartsSwap s e := by
  cases e with
  | readIntent i =>
    intro hfresh
    exact (hguard hfresh).1 hrejected
  | _ => exact fun h => h

/-! ## The runs -/

/-- **One execution.** A run whose steps are exclusive makes at most one swap for the request, and
none after a rejection. The ids of trades are those of new rows. -/
theorem executed_once {request : ApprovalRequest} {steps : List ApprovalStep}
    (hids : ∀ e ∈ steps, e.tradeId ≠ some "")
    (hrun : approvals.GuardedRun Exclusive { request } steps t) : ExecutedOnce request steps := by
  constructor
  · intro pre post s hsteps hpre
    obtain ⟨u, hfirst, -⟩ := (hsteps ▸ hrun).split
    obtain rfl : u = s := Option.some.inj (hfirst.run.symm.trans hpre)
    have honce := hfirst.history (I := fun history u =>
      (∀ e ∈ history, e.tradeId ≠ some "") → SwapsOnce history u)
      (fun history v e v' hv hguard hstep hhistory => by
        refine (hv fun f hf => hhistory f (List.mem_append_left _ hf)).step ?_ hguard hstep
        exact hhistory e (List.mem_append_right _ List.mem_cons_self))
      (fun _ => SwapsOnce.initial request)
    have hswaps := honce fun e he => hids e (by rw [hsteps]; exact List.mem_append_left _ he)
    have hcounted := hswaps.counted
    have hone := hswaps.one
    rw [List.nil_append] at hcounted
    omega
  · intro pre e mid f post s u hsteps hpre hrecords hmid
    obtain ⟨s₁, hfirst, hrest⟩ := (hsteps ▸ hrun).split
    obtain rfl : s₁ = s := Option.some.inj (hfirst.run.symm.trans hpre)
    cases hrest with
    | @cons _ s₂ _ _ _ guard step rest =>
      obtain ⟨s₃, hmiddle, hlast⟩ := rest.split
      have hrejected : s₃.request.status = .REJECTED :=
        hmiddle.invariant (I := fun v => v.request.status = .REJECTED)
          (fun _ _ _ hv hguard hstep => rejected_kept hv hguard hstep)
          (rejected_of_recordsRejection hrecords step)
      obtain rfl : s₃ = u := by
        rw [approvals.run_append, hpre, Option.bind_some, approvals.run_cons step, hmiddle.run] at hmid
        exact Option.some.inj hmid
      cases hlast with
      | cons guard' _ _ => exact not_startsSwap hrejected guard'

/-! ## Two runs -/

instance (s : ApprovalState) : (e : ApprovalStep) → Decidable (Exclusive s e)
  | .readIntent _ => inferInstanceAs (Decidable (s.request.executed = false →
      s.request.status ≠ .REJECTED ∧ ∀ phase ∈ s.calls, phase.swapping = false))
  | .fails i => inferInstanceAs (Decidable (∀ phase ∈ s.calls[i]?, phase.swapping = false))
  | .update i _ => inferInstanceAs (Decidable (s.request.status = .REJECTED →
      ∀ phase ∈ s.calls[i]?, phase.target = some .REJECTED))
  | .respond _ _ _ _ | .expire | .autoDecide | .executeApproved | .expireDue _ | .readConfig _ _
  | .swapped _ _ => inferInstanceAs (Decidable True)

/-- The job of an acceptance is delivered again after it has ended. -/
def redelivered : List ApprovalStep := acceptedInTime ++ [.executeApproved, .readIntent 3]

theorem redelivered_executedOnce : ExecutedOnce sampleRequest redelivered := by
  have hsome : (approvals.guardedRun Exclusive { request := sampleRequest } redelivered).isSome = true := by
    decide +kernel
  obtain ⟨t, ht⟩ := Option.isSome_iff_exists.mp hsome
  exact executed_once (by decide) (StepSystem.GuardedRun.of_guardedRun ht)

/-- The timeout makes a swap whose update fails, and the user then accepts the request, still PENDING. -/
def updateLost : List ApprovalStep :=
  [.autoDecide, .readConfig 0 (some "execute"), .readIntent 0, .swapped 0 (.ok "t1"), .fails 0,
    .respond "u1" true .WEB {}, .update 1 61, .executeApproved, .readIntent 2]

theorem request_executed_twice : ¬ ∀ (request : ApprovalRequest) (steps : List ApprovalStep)
    (t : ApprovalState), approvals.run { request } steps = some t → ExecutedOnce request steps := by
  intro h
  obtain ⟨t, ht, htwice⟩ : ∃ t, approvals.run { request := sampleRequest } updateLost = some t ∧
      ¬ t.swaps.length ≤ updateLost.countP ApprovalStep.throws + 1 := ⟨_, rfl, by decide⟩
  exact htwice ((h sampleRequest updateLost t ht).once updateLost [] t (List.append_nil _).symm ht)

end SuperAi.Approvals
