import SuperAi.Wallets.Collect
import SuperAi.Foundations.Passes
import Mathlib.Tactic.Linarith
import Mathlib.Tactic.Positivity

/-! # The gas reserve of a sweep

A row that is not blocked moves the balance above the reserve, so that it can pay for itself when the
reserve is at least the fee. A reserve that the caller gives is taken as it is, and a gas price of zero, or none,
is a fee of zero with a reserve of zero.
-/
namespace SuperAi.Wallets
open SuperAi.Foundations SuperAi.Auth
set_option autoImplicit false

variable {env : CollectEnv} {input : CollectInput} {r : ResolvedCollect} {plan : TransferPlan}

/-! ## The property and its condition -/

def TransferPlanRow.PaysForItself (row : TransferPlanRow) : Prop :=
  0 < row.amount ∧ 0 < row.estimatedFee ∧ row.amount + row.estimatedFee ≤ row.balanceBefore

/-- The transfers that a call has attempted: from which wallet, and how much. -/
def attempted (result : Except String CollectResult) : List (String × ℚ) :=
  match result with
  | .ok result => result.results.map fun a => (a.row.walletId, a.row.amount)
  | .error _ => []

/-- The rows of the plan that are not blocked can pay for themselves, and they are what is attempted once the call
is confirmed and within the rate limit. -/
structure ReservesGas (env : CollectEnv) (input : CollectInput) (rpc : ℕ → RpcAnswer) : Prop where
  rows : ∀ plan, planCollect env input = .ok plan → ∀ row ∈ actionableRows plan.rows, row.PaysForItself
  execute : ∀ plan, planCollect env input = .ok plan → input.confirm = true → env.checkLiveWithdraw = .ok () →
    attempted (executeCollect env input rpc) = (actionableRows plan.rows).map fun r => (r.walletId, r.amount)

/-- The sources that hold more than the reserve. -/
def sweepable (env : CollectEnv) (input : CollectInput) (r : ResolvedCollect) : List WalletRow :=
  r.sources.filter fun s => reserveOf input r.spec (estimateFee env r.spec) < balanceOf env r.spec s

/-- On an EVM chain the fee endpoint fails or names a price above zero. -/
def FeeQuoted (env : CollectEnv) (spec : ChainSpec) : Prop :=
  spec.family = .EVM → ∀ fee ∈ env.feeData spec, 0 < fee.price

/-- Where there is something to sweep: a quoted fee, a floor of the caller that covers it, and no more transfers than
one call runs. -/
def Affordable (env : CollectEnv) (input : CollectInput) : Prop :=
  ∀ r, resolveCollect env input = .ok r → sweepable env input r ≠ [] →
    (FeeQuoted env r.spec ∧ ∀ floor ∈ input.leaveBehind, estimateFee env r.spec ≤ floor) ∧
      (input.confirm = true → env.checkLiveWithdraw = .ok () →
        (sweepable env input r).length ≤ MAX_BULK_TRANSFERS)

/-! ## Fees -/

theorem estimateFee_pos_iff (env : CollectEnv) (spec : ChainSpec) :
    0 < estimateFee env spec ↔ FeeQuoted env spec := by
  unfold estimateFee FeeQuoted
  cases hfamily : spec.family with
  | SOLANA => simp
  | EVM =>
    cases hfee : env.feeData spec with
    | none => simp
    | some fee =>
      have hscale : (0 : ℚ) < 10 ^ spec.nativeDecimals := by positivity
      simp only [forall_const, Option.mem_def, Option.some.injEq, forall_eq']
      rw [div_pos_iff_of_pos_right hscale, Nat.cast_pos]
      omega

theorem fee_le_reserve_iff (hpos : 0 < estimateFee env r.spec) :
    estimateFee env r.spec ≤ reserveOf input r.spec (estimateFee env r.spec) ↔
      ∀ floor ∈ input.leaveBehind, estimateFee env r.spec ≤ floor := by
  unfold reserveOf
  cases input.leaveBehind with
  | some floor => simp
  | none =>
    have hcovered : estimateFee env r.spec ≤ defaultReserve r.spec (estimateFee env r.spec) := by
      unfold defaultReserve
      cases hfamily : r.spec.family with
      | SOLANA =>
        unfold estimateFee SOL_RESERVE
        rw [hfamily]
        norm_num
      | EVM =>
        unfold GAS_BUFFER
        dsimp only
        linarith
    simpa using hcovered

/-! ## Rows -/

theorem planRow_blocked {spec : ChainSpec} {price feePer reserve balance : ℚ} {wallet : WalletRow} :
    (planRow spec price feePer reserve balance wallet).blocked.isNone = decide (reserve < balance) := by
  unfold planRow
  dsimp only
  by_cases hlt : reserve < balance
  · rw [if_neg (by linarith)]
    simp [hlt]
  · rw [if_pos (by linarith)]
    split <;> simp [hlt]

/-- Above the reserve, a row pays for itself when the reserve covers a fee that is there. -/
theorem planRow_paysForItself {spec : ChainSpec} {price feePer reserve balance : ℚ} {wallet : WalletRow}
    (hlt : reserve < balance) :
    (planRow spec price feePer reserve balance wallet).PaysForItself ↔ 0 < feePer ∧ feePer ≤ reserve := by
  have hmax : max 0 (balance - reserve) = balance - reserve := max_eq_right (by linarith)
  unfold planRow TransferPlanRow.PaysForItself
  dsimp only
  rw [hmax]
  constructor
  · rintro ⟨-, hfee, hle⟩
    exact ⟨hfee, by linarith⟩
  · rintro ⟨hfee, hle⟩
    exact ⟨by linarith, hfee, by linarith⟩

theorem actionableRows_planRows (env : CollectEnv) (input : CollectInput) (r : ResolvedCollect) :
    actionableRows (planRows env input r) = (sweepable env input r).map fun s =>
      planRow r.spec ((env.nativePrice r.spec).getD 0) (estimateFee env r.spec)
        (reserveOf input r.spec (estimateFee env r.spec)) (balanceOf env r.spec s) s := by
  unfold actionableRows planRows sweepable
  dsimp only
  rw [List.filter_map]
  congr 1
  apply List.filter_congr
  intro s _
  exact planRow_blocked

theorem rows_payForThemselves_iff (env : CollectEnv) (input : CollectInput) (r : ResolvedCollect) :
    (∀ row ∈ actionableRows (planRows env input r), row.PaysForItself) ↔
      (sweepable env input r ≠ [] →
        FeeQuoted env r.spec ∧ ∀ floor ∈ input.leaveBehind, estimateFee env r.spec ≤ floor) := by
  have hrow : ∀ s ∈ sweepable env input r, (planRow r.spec ((env.nativePrice r.spec).getD 0)
      (estimateFee env r.spec) (reserveOf input r.spec (estimateFee env r.spec)) (balanceOf env r.spec s)
      s).PaysForItself ↔ FeeQuoted env r.spec ∧ ∀ floor ∈ input.leaveBehind, estimateFee env r.spec ≤ floor := by
    intro s hs
    have hlt := of_decide_eq_true (List.mem_filter.mp hs).2
    rw [planRow_paysForItself hlt, ← estimateFee_pos_iff]
    exact and_congr_right fun hpos => fee_le_reserve_iff hpos
  rw [actionableRows_planRows]
  constructor
  · intro hall hne
    obtain ⟨s, hs⟩ := List.exists_mem_of_ne_nil _ hne
    exact (hrow s hs).mp (hall _ (List.mem_map_of_mem hs))
  · intro hcond row hmem
    obtain ⟨s, hs, rfl⟩ := List.mem_map.mp hmem
    exact (hrow s hs).mpr (hcond (List.ne_nil_of_mem hs))

/-! ## Plans and their execution -/

theorem planCollect_ok (h : planCollect env input = .ok plan) :
    ∃ r, resolveCollect env input = .ok r ∧ plan.rows = planRows env input r ∧
      (plan.fatal = none ↔ actionableRows plan.rows ≠ []) := by
  obtain ⟨r, hr, hplan⟩ := bind_eq_ok.mp h
  obtain rfl := Except.ok.inj hplan
  refine ⟨r, hr, rfl, ?_⟩
  dsimp only
  rw [ne_eq, ← List.length_eq_zero_iff]
  split
  · simp [*]
  · simp [*]

theorem attempted_runTransfers {spec : ChainSpec} {jobs : List TransferJob} {rpc : ℕ → RpcAnswer}
    {out : List Attempt} (h : runTransfers spec jobs rpc = .ok out) :
    out.map (fun a => (a.row.walletId, a.row.amount)) = jobs.map fun job => (job.fromWalletId, job.amount) := by
  obtain ⟨-, rfl⟩ := runTransfers_ok h
  conv_rhs => rw [← List.zipIdx_map_fst 0 jobs]
  rw [List.map_map, List.map_map]
  apply List.map_congr_left
  intro job _
  unfold attempt
  dsimp only [Function.comp_apply]
  split <;> rfl

theorem attempted_executeCollect (rpc : ℕ → RpcAnswer) (hplan : planCollect env input = .ok plan)
    (hconfirm : input.confirm = true) (hlimit : env.checkLiveWithdraw = .ok ()) :
    attempted (executeCollect env input rpc) =
      if MAX_BULK_TRANSFERS < (actionableRows plan.rows).length then []
      else (actionableRows plan.rows).map fun r => (r.walletId, r.amount) := by
  obtain ⟨r, -, -, hfatal⟩ := planCollect_ok hplan
  have hexec : executeCollect env input rpc = plan.fatal.elim (plan.run rpc) .error := by
    unfold executeCollect
    rw [hconfirm, hlimit, hplan]
    dsimp only [bind, Except.bind]
    cases hf : plan.fatal with
    | some fatal => rfl
    | none => rfl
  have hlength : plan.jobs.length = (actionableRows plan.rows).length := List.length_map _
  rw [hexec]
  cases hf : plan.fatal with
  | some fatal =>
    have hnil : actionableRows plan.rows = [] := by
      by_contra hne
      rw [hfatal.mpr hne] at hf
      cases hf
    rw [hnil]
    rfl
  | none =>
    change attempted (plan.run rpc) = _
    unfold TransferPlan.run
    cases hrun : runTransfers plan.spec plan.jobs rpc with
    | error e =>
      rw [runTransfers_eq, hlength] at hrun
      split at hrun
      · rename_i hlong
        rw [if_pos hlong]
        rfl
      · cases hrun
    | ok out =>
      obtain ⟨hle, -⟩ := runTransfers_ok hrun
      rw [if_neg (by omega)]
      change out.map (fun a => (a.row.walletId, a.row.amount)) = _
      rw [attempted_runTransfers hrun]
      unfold TransferPlan.jobs
      rw [List.map_map]
      rfl

/-- **Gas reserve.** For every input, every set of balances and every answer of the fee endpoint: the rows of a sweep
pay for themselves and are what is attempted, exactly under `Affordable`. -/
theorem reservesGas_iff (env : CollectEnv) (input : CollectInput) (rpc : ℕ → RpcAnswer) :
    ReservesGas env input rpc ↔ Affordable env input := by
  have hplanned : ∀ r, resolveCollect env input = .ok r → ∃ plan, planCollect env input = .ok plan ∧
      plan.rows = planRows env input r := by
    intro r hr
    unfold planCollect
    rw [hr]
    exact ⟨_, rfl, rfl⟩
  have hlength : ∀ r, (actionableRows (planRows env input r)).length = (sweepable env input r).length := by
    intro r
    rw [actionableRows_planRows, List.length_map]
  constructor
  · intro h r hr hne
    obtain ⟨plan, hplan, hrows⟩ := hplanned r hr
    have hpays := h.rows plan hplan
    rw [hrows] at hpays
    refine ⟨(rows_payForThemselves_iff env input r).mp hpays hne, fun hconfirm hlimit => ?_⟩
    have hattempted := h.execute plan hplan hconfirm hlimit
    rw [attempted_executeCollect rpc hplan hconfirm hlimit, hrows, hlength] at hattempted
    by_contra hlong
    rw [if_pos (Nat.lt_of_not_le hlong), actionableRows_planRows] at hattempted
    have hnil : sweepable env input r = [] := by simpa using hattempted.symm
    exact hne hnil
  · intro h
    constructor
    · intro plan hplan
      obtain ⟨r, hr, hrows, -⟩ := planCollect_ok hplan
      rw [hrows]
      exact (rows_payForThemselves_iff env input r).mpr fun hne => (h r hr hne).1
    · intro plan hplan hconfirm hlimit
      obtain ⟨r, hr, hrows, -⟩ := planCollect_ok hplan
      rw [attempted_executeCollect rpc hplan hconfirm hlimit, hrows, hlength]
      by_cases hne : sweepable env input r = []
      · rw [if_neg (by rw [hne]; exact Nat.not_lt_zero _)]
      · rw [if_neg (Nat.not_lt_of_le ((h r hr hne).2 hconfirm hlimit))]

/-! ## A sweep without a fee -/

def sampleEnv (feeData : Option FeeData) : CollectEnv where
  wallets := [⟨"w1", "u1", "0xaa", none, .EVM⟩, ⟨"w2", "u1", "0xbb", none, .EVM⟩]
  resolveChain _ := none
  solana := ⟨"solana", .SOLANA, "Solana", "SOL", 9, "https://solscan.io/tx/"⟩
  ethereum := ⟨"ethereum", .EVM, "Ethereum", "ETH", 18, "https://etherscan.io/tx/"⟩
  nativePrice _ := some 3000
  feeData _ := feeData
  nativeBalance _ _ := some 1
  checkLiveWithdraw := .ok ()

/-- The gas price is missing: the whole balance is to be sent, free of charge. -/
theorem missing_gas_price_reserves_nothing : ¬ ∀ (env : CollectEnv) (input : CollectInput) (rpc : ℕ → RpcAnswer),
    ReservesGas env input rpc := by
  intro h
  let env := sampleEnv (some ⟨none, none⟩)
  have hplan : ∃ plan, planCollect env { userId := "u1", toWalletId := "w1" } = .ok plan ∧
      ∃ row ∈ actionableRows plan.rows, row.estimatedFee = 0 := by
    refine ⟨_, rfl, ?_⟩
    decide +kernel
  obtain ⟨plan, hplan, row, hrow, hzero⟩ := hplan
  have hpays := (h env { userId := "u1", toWalletId := "w1" } fun _ => ⟨.ok (), .ok (), .accepted "h", .confirmed⟩).rows
    plan hplan row hrow
  have hpos := hpays.2.1
  rw [hzero] at hpos
  exact lt_irrefl 0 hpos

end SuperAi.Wallets
