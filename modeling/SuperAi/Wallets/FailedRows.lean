import SuperAi.Wallets.BulkTransfers

/-! # Failed rows

One `catch` makes a failed row of every error, and `sendNative` can throw after its transaction has been
broadcast. A failed row has moved nothing, and can be run again, exactly where no such error leaves a
transaction that can still land.
-/
namespace SuperAi.Wallets
set_option autoImplicit false

variable {spec : ChainSpec} {jobs : List TransferJob} {rpc rpc' : ℕ → RpcAnswer} {out out' : List Attempt}

/-- An error comes after the broadcast, and the transaction can still land. -/
def RpcAnswer.LostTrack (rpc : RpcAnswer) : Prop :=
  rpc.key = .ok () ∧ rpc.prepare = .ok () ∧
    match rpc.submit with
    | .rejected _ => False
    | .unanswered _ => True
    | .accepted _ => ∃ e, rpc.confirm = .unknown e

/-- The jobs whose row has failed. -/
def failedJobs (jobs : List TransferJob) (out : List Attempt) : List TransferJob :=
  ((jobs.zip out).filter fun p => p.2.row.status == .failed).map Prod.fst

/-- How often an address is paid, counting what can still land. -/
def paidTo (address : String) (out : List Attempt) : ℕ :=
  out.countP fun a => a.row.address == address && a.broadcast == .live

/-- A failed row has moved nothing, and running the failed rows again pays each job once at most. -/
structure FailedMovesNothing (spec : ChainSpec) (jobs : List TransferJob) (rpc : ℕ → RpcAnswer) : Prop where
  failed : ∀ out, runTransfers spec jobs rpc = .ok out →
    ∀ a ∈ out, a.row.status = .failed → a.broadcast ≠ .live
  rerun : ∀ out rpc' out', runTransfers spec jobs rpc = .ok out →
    runTransfers spec (failedJobs jobs out) rpc' = .ok out' →
      ∀ address, paidTo address out + paidTo address out' ≤ jobs.countP fun job => job.toAddress == address

/-! ## One transfer -/

theorem sendNative_lost (rpc : RpcAnswer) :
    ((∃ e, (sendNative rpc).1 = .error e) ∧ (sendNative rpc).2 = .live) ↔ rpc.LostTrack := by
  obtain ⟨key, prepare, submit, confirm⟩ := rpc
  unfold sendNative RpcAnswer.LostTrack
  cases key with
  | error e => simp
  | ok key =>
    cases prepare with
    | error e => simp
    | ok prepare =>
      cases submit with
      | rejected e => simp
      | unanswered e => simp
      | accepted txHash => cases confirm <;> simp

/-! ## All rows -/

theorem attempt_mem {a : Attempt} (hout : out = jobs.zipIdx.map (attempt spec rpc)) :
    a ∈ out ↔ ∃ i job, jobs[i]? = some job ∧ a = attempt spec rpc (job, i) := by
  subst hout
  constructor
  · intro ha
    obtain ⟨⟨job, i⟩, hjob, rfl⟩ := List.mem_map.mp ha
    exact ⟨i, job, List.mem_zipIdx_iff_getElem?.mp hjob, rfl⟩
  · rintro ⟨i, job, hjob, rfl⟩
    exact List.mem_map_of_mem (List.mem_zipIdx_iff_getElem?.mpr hjob)

theorem not_lostTrack (hout : out = jobs.zipIdx.map (attempt spec rpc)) :
    (∀ a ∈ out, a.row.status = .failed → a.broadcast ≠ .live) ↔ ∀ i < jobs.length, ¬ (rpc i).LostTrack := by
  constructor
  · intro hall i hi hlost
    obtain ⟨herror, hlive⟩ := (sendNative_lost (rpc i)).mpr hlost
    have hmem := (attempt_mem hout).mpr ⟨i, jobs[i], List.getElem?_eq_getElem hi, rfl⟩
    exact hall _ hmem (attempt_failed.mpr herror) hlive
  · intro hnone a ha hfailed hlive
    obtain ⟨i, job, hjob, rfl⟩ := (attempt_mem hout).mp ha
    have hi : i < jobs.length := (List.getElem?_eq_some_iff.mp hjob).1
    exact hnone i hi ((sendNative_lost (rpc i)).mp ⟨attempt_failed.mp hfailed, hlive⟩)

/-! ## Running the failed rows again -/

theorem attempt_address (spec : ChainSpec) (rpc : ℕ → RpcAnswer) (job : TransferJob × ℕ) :
    (attempt spec rpc job).row.address = job.1.toAddress := by
  unfold attempt
  dsimp only
  split <;> rfl

theorem paidTo_le (hout : out = jobs.zipIdx.map (attempt spec rpc)) (address : String) :
    paidTo address out ≤ jobs.countP fun job => job.toAddress == address := by
  have haddress : jobs.zipIdx.countP (fun p => p.1.toAddress == address) =
      jobs.countP fun job => job.toAddress == address := by
    conv_rhs => rw [← List.zipIdx_map_fst 0 jobs, List.countP_map]
    rfl
  unfold paidTo
  rw [hout, List.countP_map, ← haddress]
  apply List.countP_mono_left
  intro p _ hp
  simp only [Function.comp_apply, attempt_address, Bool.and_eq_true] at hp
  exact hp.1

/-- A job is paid in a row that has not failed, or it is run again. -/
theorem paidTo_add_failed (numbered : List (TransferJob × ℕ))
    (hnone : ∀ p ∈ numbered, (attempt spec rpc p).row.status = .failed → (attempt spec rpc p).broadcast ≠ .live)
    (address : String) :
    paidTo address (numbered.map (attempt spec rpc)) +
        (failedJobs (numbered.map Prod.fst) (numbered.map (attempt spec rpc))).countP
          (fun job => job.toAddress == address) ≤
      (numbered.map Prod.fst).countP fun job => job.toAddress == address := by
  induction numbered with
  | nil => exact Nat.le_refl 0
  | cons p numbered ih =>
    have hrest := ih fun q hq => hnone q (List.mem_cons_of_mem _ hq)
    have hp := hnone p List.mem_cons_self
    unfold paidTo failedJobs at hrest ⊢
    simp only [List.map_cons, List.zip_cons_cons, List.countP_cons, attempt_address, List.filter_cons]
    by_cases hfailed : (attempt spec rpc p).row.status = .failed
    · have hdead : ((attempt spec rpc p).broadcast == .live) = false := by simpa using hp hfailed
      simp only [hfailed, hdead, beq_self_eq_true, if_true, List.map_cons, List.countP_cons, Bool.and_false,
        Bool.false_eq_true, if_false]
      omega
    · have hsent : ((attempt spec rpc p).row.status == .failed) = false := by simpa using hfailed
      simp only [hsent, Bool.false_eq_true, if_false]
      by_cases hto : (p.1.toAddress == address) = true
      · simp only [hto, Bool.true_and, if_true]
        split <;> omega
      · simp only [hto, Bool.false_and, Bool.false_eq_true, if_false]
        omega

/-- **Failed rows.** A failed row has moved nothing, and running the failed rows again pays no job twice, exactly
when the call is refused for its length or no transfer gets an error after a broadcast that can still land. -/
theorem failedMovesNothing_iff (spec : ChainSpec) (jobs : List TransferJob) (rpc : ℕ → RpcAnswer) :
    FailedMovesNothing spec jobs rpc ↔
      MAX_BULK_TRANSFERS < jobs.length ∨ ∀ i < jobs.length, ¬ (rpc i).LostTrack := by
  constructor
  · intro h
    by_cases hlong : MAX_BULK_TRANSFERS < jobs.length
    · exact .inl hlong
    · have hok : runTransfers spec jobs rpc = .ok (jobs.zipIdx.map (attempt spec rpc)) := by
        rw [runTransfers_eq, if_neg hlong]
      exact .inr ((not_lostTrack rfl).mp (h.failed _ hok))
  · intro hcond
    have hnone : ∀ out, runTransfers spec jobs rpc = .ok out →
        ∀ a ∈ out, a.row.status = .failed → a.broadcast ≠ .live := by
      intro out hrun
      obtain ⟨hlength, hout⟩ := runTransfers_ok hrun
      rcases hcond with hlong | hcond
      · omega
      · exact (not_lostTrack hout).mpr hcond
    refine ⟨hnone, fun out rpc' out' hrun hrerun address => ?_⟩
    obtain ⟨-, rfl⟩ := runTransfers_ok hrun
    obtain ⟨-, hout'⟩ := runTransfers_ok hrerun
    have hagain := paidTo_le hout' address
    have hfirst := paidTo_add_failed jobs.zipIdx
      (fun p hp => hnone _ hrun (attempt spec rpc p) (List.mem_map_of_mem hp)) address
    rw [List.zipIdx_map_fst] at hfirst
    omega

/-! ## Two transfers -/

def sampleSpec : ChainSpec := ⟨"solana", .SOLANA, "Solana", "SOL", 9, "https://solscan.io/tx/"⟩

def sampleJobs : List TransferJob := [⟨"w1", "addressA", "w2", 1 / 10⟩, ⟨"w1", "addressB", "w3", 1 / 10⟩]

/-- The transaction of the second job lands, but the wait for it times out. -/
def timedOut : ℕ → RpcAnswer
  | 1 => { submit := .accepted "sig1", confirm := .unknown "Transaction was not confirmed in 30.00 seconds" }
  | _ => { submit := .accepted "sig0", confirm := .confirmed }

theorem timedOut_row_moves : ¬ ∀ (spec : ChainSpec) (jobs : List TransferJob) (rpc : ℕ → RpcAnswer),
    FailedMovesNothing spec jobs rpc := by
  intro h
  have hok : runTransfers sampleSpec sampleJobs timedOut =
      .ok (sampleJobs.zipIdx.map (attempt sampleSpec timedOut)) := by
    rw [runTransfers_eq, if_neg (by decide)]
  have hnone := (not_lostTrack rfl).mp ((h sampleSpec sampleJobs timedOut).failed _ hok)
  exact hnone 1 (by decide) ⟨rfl, rfl, _, rfl⟩

end SuperAi.Wallets
