import SuperAi.Wallets.Collect
import SuperAi.Wallets.FailedRows
import SuperAi.Wallets.WalletsService
import SuperAi.Foundations.Passes
import Mathlib.Algebra.BigOperators.Group.Finset.Piecewise
import Mathlib.Algebra.Order.BigOperators.Group.List
import Mathlib.Tactic.Linarith
import Mathlib.Tactic.Positivity

/-! # Bulk operations

The rest of `BulkWalletService` (`wallets/bulk-wallet.service.ts`): `planDistribute`, `executeDistribute` and
`bulkCreate`. A distribution pays every target once, from one wallet that can afford it (`distribute_once`); whatever
distributions and sweeps are executed, and whatever of their transfers lands, what a user holds stays theirs
(`bulk_keeps_holdings`); and wallets are created up to the cap (`bulkCreate_fills`). Audit rows are left out.
-/
namespace SuperAi.Wallets
open SuperAi.Auth SuperAi.Foundations
set_option autoImplicit false

/-! ## Distributing -/

structure DistributeInput where
  userId : String
  fromWalletId : String
  toWalletIds : Option (List String) := none
  amountPerWallet : ℚ
  chainKey : Option String := none
  confirm : Bool := false
  deriving DecidableEq, Repr

/-- The ids that are given, an empty list counting as none. -/
def DistributeInput.named (input : DistributeInput) : Option (List String) := input.toWalletIds.filter (· ≠ [])

/-- `toFixed` prints a number with six decimals, and `balanceError` is what a balance that cannot be read says. -/
structure BulkEnv extends CollectEnv where
  toFixed : ℚ → String
  balanceError : String

structure ResolvedDistribute where
  spec : ChainSpec
  funder : WalletRow
  targets : List WalletRow
  deriving DecidableEq, Repr

/-- The wallets with the given ids, or all but the funder; the funder is left out in both cases. -/
def resolveDistribute (env : CollectEnv) (input : DistributeInput) : Except String ResolvedDistribute :=
  if ¬ 0 < input.amountPerWallet then .error "amountPerWallet must be positive"
  else
    match env.wallets.find? fun w : WalletRow => w.id = input.fromWalletId ∧ w.userId = input.userId with
    | none => .error "Funding wallet not found"
    | some funder => do
      let spec ← resolveSpec env input.chainKey funder.chain
      let owned := env.wallets.filter fun w : WalletRow => w.userId = input.userId ∧ w.chain = spec.family
      let targets :=
        match input.named with
        | some ids => owned.filter fun w : WalletRow => w.id ∈ ids
        | none => owned
      pure ⟨spec, funder, targets.filter fun w : WalletRow => w.id ≠ funder.id⟩

structure DistributePlan where
  spec : ChainSpec
  fromWalletId : String
  fromAddress : String
  balance : ℚ
  rows : List TransferPlanRow
  totalAmount : ℚ
  totalFees : ℚ
  totalUsd : ℚ
  actionable : ℕ
  blocked : ℕ
  fatal : Option String
  deriving DecidableEq, Repr

/-- The balances of the targets are not read. -/
def distributeRow (input : DistributeInput) (price feePer : ℚ) (target : WalletRow) : TransferPlanRow where
  walletId := target.id
  address := target.address
  label := target.label
  amount := input.amountPerWallet
  balanceBefore := 0
  estimatedFee := feePer
  usdValue := input.amountPerWallet * price
  blocked := none

/-- The plan for a balance of the funder. A plan without targets says so, whatever the balance. -/
def distributePlan (env : BulkEnv) (input : DistributeInput) (r : ResolvedDistribute) (funderBalance : ℚ) :
    DistributePlan :=
  let price := (env.nativePrice r.spec).getD 0
  let feePer := estimateFee env.toCollectEnv r.spec
  let rows := r.targets.map (distributeRow input price feePer)
  let totalAmount := input.amountPerWallet * rows.length
  let totalFees := feePer * rows.length
  let unfunded :=
    if funderBalance < totalAmount + totalFees then
      some ("Funding wallet holds " ++ env.toFixed funderBalance ++ " " ++ r.spec.nativeSymbol ++
        " but the plan needs " ++ env.toFixed (totalAmount + totalFees) ++ " (" ++ env.toFixed totalAmount ++ " + ~" ++
        env.toFixed totalFees ++ " fees)")
    else none
  { spec := r.spec
    fromWalletId := r.funder.id
    fromAddress := r.funder.address
    balance := funderBalance
    rows
    totalAmount
    totalFees
    totalUsd := totalAmount * price
    actionable := rows.length
    blocked := 0
    fatal := if rows.length = 0 then some "No target wallets found on this chain" else unfunded }

def planDistribute (env : BulkEnv) (input : DistributeInput) : Except String DistributePlan := do
  let r ← resolveDistribute env.toCollectEnv input
  let funderBalance ← (env.nativeBalance r.spec r.funder.address).elim (.error env.balanceError) .ok
  pure (distributePlan env input r funderBalance)

def DistributePlan.jobs (plan : DistributePlan) (input : DistributeInput) : List TransferJob :=
  plan.rows.map fun r =>
    { fromWalletId := input.fromWalletId, toAddress := r.address, toWalletId := r.walletId, amount := r.amount }

structure DistributeResult where
  plan : DistributePlan
  results : List Attempt
  summary : Summary
  deriving DecidableEq, Repr

def executeDistribute (env : BulkEnv) (input : DistributeInput) (rpc : ℕ → RpcAnswer) :
    Except String DistributeResult := do
  if input.confirm = false then
    throw "Refusing to move funds without confirm: true — call the plan endpoint first"
  env.checkLiveWithdraw
  let plan ← planDistribute env input
  match plan.fatal with
  | some fatal => throw fatal
  | none =>
    let results ← runTransfers plan.spec (plan.jobs input) rpc
    pure ⟨plan, results, summarize (results.map Attempt.row)⟩

/-! ## What a distribution pays -/

/-- What `amount` is multiplied by to get native units. -/
def scale (spec : ChainSpec) : ℚ :=
  match spec.family with
  | .SOLANA => 1000000000
  | .EVM => 10 ^ spec.nativeDecimals

/-- A wallet that is to get the amount. -/
def IsTarget (input : DistributeInput) (r : ResolvedDistribute) (w : WalletRow) : Prop :=
  w.userId = input.userId ∧ w.chain = r.spec.family ∧ w.id ≠ r.funder.id ∧
    ∀ ids ∈ input.named, w.id ∈ ids

instance (input : DistributeInput) (r : ResolvedDistribute) : DecidablePred (IsTarget input r) := fun w =>
  inferInstanceAs (Decidable (w.userId = input.userId ∧ w.chain = r.spec.family ∧ w.id ≠ r.funder.id ∧
    ∀ ids ∈ input.named, w.id ∈ ids))

/-- What the funder has to hold. -/
def needed (env : CollectEnv) (input : DistributeInput) (r : ResolvedDistribute) : ℚ :=
  input.amountPerWallet * r.targets.length + estimateFee env r.spec * r.targets.length

section Distribute
variable {env : BulkEnv} {input : DistributeInput} {r : ResolvedDistribute} {rpc : ℕ → RpcAnswer}

theorem resolveDistribute_ok (h : resolveDistribute env.toCollectEnv input = .ok r) :
    0 < input.amountPerWallet ∧ r.funder ∈ env.wallets ∧ r.funder.id = input.fromWalletId ∧
      r.funder.userId = input.userId ∧ r.targets = env.wallets.filter (IsTarget input r) := by
  unfold resolveDistribute at h
  by_cases hamount : 0 < input.amountPerWallet
  · rw [if_neg (not_not.mpr hamount)] at h
    cases hfind : env.wallets.find? fun w : WalletRow => w.id = input.fromWalletId ∧ w.userId = input.userId with
    | none =>
      rw [hfind] at h
      cases h
    | some funder =>
      rw [hfind] at h
      obtain ⟨spec, hspec, h⟩ := bind_eq_ok.mp h
      obtain rfl := Except.ok.inj h
      obtain ⟨hid, huser⟩ : funder.id = input.fromWalletId ∧ funder.userId = input.userId := by
        simpa using List.find?_some hfind
      refine ⟨hamount, List.mem_of_find?_eq_some hfind, hid, huser, ?_⟩
      cases hids : input.named with
      | none =>
        simp only [List.filter_filter]
        apply List.filter_congr
        intro w _
        rw [Bool.eq_iff_iff]
        simp [IsTarget, hids]
        tauto
      | some ids =>
        simp only [List.filter_filter]
        apply List.filter_congr
        intro w _
        rw [Bool.eq_iff_iff]
        simp [IsTarget, hids]
        tauto
  · rw [if_pos hamount] at h
    cases h

theorem fatal_distributePlan (balance : ℚ) :
    (distributePlan env input r balance).fatal = none ↔ r.targets ≠ [] ∧ needed env.toCollectEnv input r ≤ balance := by
  simp only [distributePlan, List.length_map, needed, List.length_eq_zero_iff]
  by_cases hnil : r.targets = []
  · simp [hnil]
  · rw [if_neg hnil]
    by_cases hless : balance < input.amountPerWallet * r.targets.length +
        estimateFee env.toCollectEnv r.spec * r.targets.length
    · rw [if_pos hless]
      simp [not_le.mpr hless]
    · rw [if_neg hless]
      simp [hnil, not_lt.mp hless]

def jobsOf (input : DistributeInput) (r : ResolvedDistribute) : List TransferJob :=
  r.targets.map fun t =>
    { fromWalletId := input.fromWalletId, toAddress := t.address, toWalletId := t.id, amount := input.amountPerWallet }

theorem jobs_distributePlan (balance : ℚ) : (distributePlan env input r balance).jobs input = jobsOf input r :=
  List.map_map

theorem planDistribute_ok {plan : DistributePlan} :
    planDistribute env input = .ok plan ↔ ∃ r balance, resolveDistribute env.toCollectEnv input = .ok r ∧
      env.nativeBalance r.spec r.funder.address = some balance ∧ plan = distributePlan env input r balance := by
  rw [planDistribute, bind_eq_ok]
  constructor
  · rintro ⟨r, hr, h⟩
    obtain ⟨balance, hbalance, h⟩ := bind_eq_ok.mp h
    cases hread : env.nativeBalance r.spec r.funder.address with
    | none =>
      rw [hread] at hbalance
      cases hbalance
    | some balance' =>
      rw [hread] at hbalance
      obtain rfl := Except.ok.inj hbalance
      exact ⟨r, _, hr, hread, (Except.ok.inj h).symm⟩
  · rintro ⟨r, balance, hr, hread, rfl⟩
    refine ⟨r, hr, ?_⟩
    rw [hread]
    rfl

theorem runTransfers_jobsOf (spec : ChainSpec) (rpc : ℕ → RpcAnswer) {out : List Attempt} :
    runTransfers spec (jobsOf input r) rpc = .ok out ↔
      r.targets.length ≤ MAX_BULK_TRANSFERS ∧ out = (jobsOf input r).zipIdx.map (attempt spec rpc) := by
  have hlength : (jobsOf input r).length = r.targets.length := List.length_map _
  rw [runTransfers_eq, hlength]
  by_cases hlong : MAX_BULK_TRANSFERS < r.targets.length
  · rw [if_pos hlong]
    simp [hlong]
  · rw [if_neg hlong]
    simp [Nat.le_of_not_lt hlong, eq_comm]

/-- A distribution goes through exactly if it is confirmed, allowed, funded, and not too long. -/
theorem executeDistribute_ok {result : DistributeResult} :
    executeDistribute env input rpc = .ok result ↔
      input.confirm = true ∧ env.checkLiveWithdraw = .ok () ∧ ∃ r balance,
        resolveDistribute env.toCollectEnv input = .ok r ∧ env.nativeBalance r.spec r.funder.address = some balance ∧
        r.targets ≠ [] ∧ needed env.toCollectEnv input r ≤ balance ∧ r.targets.length ≤ MAX_BULK_TRANSFERS ∧
        result = ⟨distributePlan env input r balance, (jobsOf input r).zipIdx.map (attempt r.spec rpc),
          summarize (((jobsOf input r).zipIdx.map (attempt r.spec rpc)).map Attempt.row)⟩ := by
  unfold executeDistribute
  cases hconfirm : input.confirm with
  | false => simp [throw, throwThe, MonadExceptOf.throw, bind, Except.bind]
  | true =>
    cases hguard : env.checkLiveWithdraw with
    | error e => simp [bind, Except.bind]
    | ok u =>
      simp only [Bool.true_eq_false, if_false, true_and]
      constructor
      · intro h
        obtain ⟨-, -, h⟩ := bind_eq_ok.mp h
        obtain ⟨plan, hplan, h⟩ := bind_eq_ok.mp h
        obtain ⟨r, balance, hr, hread, rfl⟩ := planDistribute_ok.mp hplan
        cases hfatal : (distributePlan env input r balance).fatal with
        | some fatal =>
          rw [hfatal] at h
          cases h
        | none =>
          rw [hfatal] at h
          obtain ⟨out, hrun, h⟩ := bind_eq_ok.mp h
          rw [jobs_distributePlan] at hrun
          obtain ⟨hlength, rfl⟩ := (runTransfers_jobsOf _ rpc).mp hrun
          obtain ⟨hne, hfunded⟩ := (fatal_distributePlan balance).mp hfatal
          exact ⟨r, balance, hr, hread, hne, hfunded, hlength, (Except.ok.inj h).symm⟩
      · rintro ⟨r, balance, hr, hread, hne, hfunded, hlength, rfl⟩
        refine bind_eq_ok.mpr ⟨(), rfl, bind_eq_ok.mpr ⟨_, planDistribute_ok.mpr ⟨r, balance, hr, hread, rfl⟩, ?_⟩⟩
        rw [(fatal_distributePlan balance).mpr ⟨hne, hfunded⟩]
        refine bind_eq_ok.mpr ⟨(jobsOf input r).zipIdx.map (attempt r.spec rpc), ?_, rfl⟩
        rw [jobs_distributePlan]
        exact (runTransfers_jobsOf _ rpc).mpr ⟨hlength, rfl⟩

theorem attempt_row (spec : ChainSpec) (rpc : ℕ → RpcAnswer) (job : TransferJob × ℕ) :
    (attempt spec rpc job).row.walletId = job.1.fromWalletId ∧ (attempt spec rpc job).row.address = job.1.toAddress ∧
      (attempt spec rpc job).row.amount = job.1.amount := by
  unfold attempt
  dsimp only
  cases (sendNative (rpc job.2)).1 with
  | ok txHash => exact ⟨rfl, rfl, rfl⟩
  | error e => exact ⟨rfl, rfl, rfl⟩

/-- What is true of a job is true of its attempt. -/
theorem map_attempts {β : Type} (spec : ChainSpec) (rpc : ℕ → RpcAnswer) (jobs : List TransferJob) {f : Attempt → β}
    {g : TransferJob → β} (h : ∀ job, f (attempt spec rpc job) = g job.1) :
    (jobs.zipIdx.map (attempt spec rpc)).map f = jobs.map g := by
  conv_rhs => rw [← List.zipIdx_map_fst 0 jobs]
  rw [List.map_map, List.map_map]
  exact List.map_congr_left fun job _ => h job

theorem nativeUnits_le (spec : ChainSpec) (amount : ℚ) :
    (nativeUnits spec amount : ℚ) ≤ amount * scale spec + 1 / 2 := by
  unfold nativeUnits scale
  cases spec.family with
  | SOLANA => exact Int.floor_le _
  | EVM => exact Int.floor_le _

theorem scale_pos (spec : ChainSpec) : 0 < scale spec := by
  unfold scale
  cases spec.family with
  | SOLANA => norm_num
  | EVM => positivity

/-- Several transfers of one wallet go one after the other. -/
theorem concurrency_jobsOf (h : 1 < r.targets.length) : concurrency (jobsOf input r) = 1 := by
  have hsenders : (jobsOf input r).map TransferJob.fromWalletId =
      List.replicate r.targets.length input.fromWalletId := by
    rw [jobsOf, List.map_map]
    exact List.map_const'
  have hlength : (jobsOf input r).length = r.targets.length := List.length_map _
  have hshared : sharedSender (jobsOf input r) = true := by
    rw [sharedSender, hsenders, List.replicate_dedup (by omega), hlength]
    simp [h]
  rw [concurrency, if_pos hshared]

/-- **A distribution pays each target once.** It goes through exactly if it is confirmed and allowed, there are one to
a hundred targets, and the funder's balance covers all amounts and fees. Then each of the user's wallets that is a
target gets one transfer of the amount from the funder, in their order and one after the other, and what is sent leaves
the fees in the balance, up to half a unit for each transfer. -/
theorem distribute_once (env : BulkEnv) (input : DistributeInput) (rpc : ℕ → RpcAnswer) :
    ((∃ result, executeDistribute env input rpc = .ok result) ↔
      input.confirm = true ∧ env.checkLiveWithdraw = .ok () ∧ ∃ r balance,
        resolveDistribute env.toCollectEnv input = .ok r ∧ env.nativeBalance r.spec r.funder.address = some balance ∧
        r.targets ≠ [] ∧ needed env.toCollectEnv input r ≤ balance ∧ r.targets.length ≤ MAX_BULK_TRANSFERS) ∧
    ∀ result, executeDistribute env input rpc = .ok result → ∃ r,
      resolveDistribute env.toCollectEnv input = .ok r ∧
      (result.results.map fun a => (a.row.walletId, a.row.address, a.row.amount)) =
        (env.wallets.filter (IsTarget input r)).map (fun t => (input.fromWalletId, t.address, input.amountPerWallet)) ∧
      (1 < result.results.length → concurrency (result.plan.jobs input) = 1) ∧
      ((result.results.map Attempt.units).sum : ℚ) ≤
        (result.plan.balance - result.plan.totalFees) * scale r.spec + result.results.length / 2 := by
  constructor
  · constructor
    · rintro ⟨result, hresult⟩
      obtain ⟨hconfirm, hguard, r, balance, hr, hread, hne, hfunded, hlength, -⟩ := executeDistribute_ok.mp hresult
      exact ⟨hconfirm, hguard, r, balance, hr, hread, hne, hfunded, hlength⟩
    · rintro ⟨hconfirm, hguard, r, balance, hr, hread, hne, hfunded, hlength⟩
      exact ⟨_, executeDistribute_ok.mpr ⟨hconfirm, hguard, r, balance, hr, hread, hne, hfunded, hlength, rfl⟩⟩
  · intro result hresult
    obtain ⟨-, -, r, balance, hr, -, -, hfunded, -, rfl⟩ := executeDistribute_ok.mp hresult
    obtain ⟨-, -, -, -, htargets⟩ := resolveDistribute_ok hr
    have hcount : ((jobsOf input r).zipIdx.map (attempt r.spec rpc)).length = r.targets.length := by
      rw [List.length_map, List.length_zipIdx, jobsOf, List.length_map]
    refine ⟨r, hr, ?_, ?_, ?_⟩
    · have hrows := map_attempts r.spec rpc (jobsOf input r)
        (f := fun a => (a.row.walletId, a.row.address, a.row.amount))
        (g := fun job => (job.fromWalletId, job.toAddress, job.amount)) fun job => by
          obtain ⟨hfrom, hto, hamount⟩ := attempt_row r.spec rpc job
          rw [hfrom, hto, hamount]
      rw [hrows, ← htargets, jobsOf, List.map_map]
      rfl
    · intro hlong
      rw [jobs_distributePlan]
      exact concurrency_jobsOf (hcount ▸ hlong)
    · have hunits : ((jobsOf input r).zipIdx.map (attempt r.spec rpc)).map Attempt.units =
          List.replicate r.targets.length (nativeUnits r.spec input.amountPerWallet) := by
        rw [map_attempts r.spec rpc (jobsOf input r) (g := fun job => nativeUnits r.spec job.amount) fun job => rfl,
          jobsOf, List.map_map]
        show r.targets.map (fun _ => nativeUnits r.spec input.amountPerWallet) = _
        exact List.map_const'
      have hsum : (((jobsOf input r).zipIdx.map (attempt r.spec rpc)).map Attempt.units).sum =
          r.targets.length * nativeUnits r.spec input.amountPerWallet := by
        rw [hunits, List.sum_replicate, nsmul_eq_mul]
      have hfees : (distributePlan env input r balance).totalFees =
          estimateFee env.toCollectEnv r.spec * r.targets.length := by
        rw [distributePlan, List.length_map]
      have hone := nativeUnits_le r.spec input.amountPerWallet
      have hspent : input.amountPerWallet * r.targets.length * scale r.spec ≤
          (balance - estimateFee env.toCollectEnv r.spec * r.targets.length) * scale r.spec :=
        mul_le_mul_of_nonneg_right (by rw [needed] at hfunded; linarith) (scale_pos r.spec).le
      have htotal := mul_le_mul_of_nonneg_left hone (Nat.cast_nonneg r.targets.length : (0 : ℚ) ≤ r.targets.length)
      rw [hsum, hfees, hcount]
      push_cast
      show (r.targets.length : ℚ) * _ ≤ (balance - _) * _ + _
      linarith

end Distribute

/-! ### Two targets -/

/-- Three wallets of one user and one of another, with one ether each; a price of a million wei for the gas. -/
def bulkEnv : BulkEnv where
  wallets := [⟨"w1", "u1", "0xaa", none, .EVM⟩, ⟨"w2", "u1", "0xbb", none, .EVM⟩, ⟨"w3", "u2", "0xcc", none, .EVM⟩,
    ⟨"w4", "u1", "0xdd", none, .EVM⟩]
  resolveChain _ := none
  solana := ⟨"solana", .SOLANA, "Solana", "SOL", 9, "https://solscan.io/tx/"⟩
  ethereum := ⟨"ethereum", .EVM, "Ethereum", "ETH", 18, "https://etherscan.io/tx/"⟩
  nativePrice _ := some 3000
  feeData _ := some ⟨some 1000000, none⟩
  nativeBalance _ _ := some 1
  checkLiveWithdraw := .ok ()
  toFixed q := if q = 1 then "1.000000" else "0.000000"
  balanceError := "missing response"

def twoTargets : DistributeInput where
  userId := "u1"
  fromWalletId := "w1"
  amountPerWallet := 1 / 10
  confirm := true

def allConfirmed : ℕ → RpcAnswer := fun _ => { submit := .accepted "0xhash", confirm := .confirmed }

theorem distribute_once_two : ∃ result r, executeDistribute bulkEnv twoTargets allConfirmed = .ok result ∧
    resolveDistribute bulkEnv.toCollectEnv twoTargets = .ok r ∧
    (result.results.map fun a => (a.row.walletId, a.row.address, a.row.amount)) =
      (bulkEnv.wallets.filter (IsTarget twoTargets r)).map (fun t => ("w1", t.address, 1 / 10)) := by
  have hresolve : resolveDistribute bulkEnv.toCollectEnv twoTargets = .ok ⟨bulkEnv.ethereum,
      ⟨"w1", "u1", "0xaa", none, .EVM⟩, [⟨"w2", "u1", "0xbb", none, .EVM⟩, ⟨"w4", "u1", "0xdd", none, .EVM⟩]⟩ := by
    decide +kernel
  obtain ⟨result, hresult⟩ := (distribute_once bulkEnv twoTargets allConfirmed).1.mpr
    ⟨rfl, rfl, _, 1, hresolve, rfl, by decide, by decide +kernel, by decide⟩
  obtain ⟨r, hr, hrows, -⟩ := (distribute_once bulkEnv twoTargets allConfirmed).2 result hresult
  exact ⟨result, r, hresult, hr, hrows⟩

/-! ## What users hold -/

/-- Native units by network and address. -/
abbrev Balances := String → String → ℤ

structure Move where
  network : String
  sender : String
  recipient : String
  units : ℤ
  deriving DecidableEq, Repr

/-- Fees apart. -/
def Balances.move (b : Balances) (m : Move) : Balances := fun network address =>
  b network address + (if network = m.network ∧ address = m.recipient then m.units else 0) -
    if network = m.network ∧ address = m.sender then m.units else 0

inductive BulkCall
  | distribute (input : DistributeInput)
  | collect (input : CollectInput)
  deriving DecidableEq, Repr

/-- A call with what its environment answers at that time, and which of its live transactions land. -/
structure BulkEvent where
  call : BulkCall
  env : BulkEnv
  rpc : ℕ → RpcAnswer
  lands : ℕ → Bool

/-- The network and the attempts of a call, none if it is refused. -/
def BulkEvent.attempts (e : BulkEvent) : String × List Attempt :=
  match e.call with
  | .distribute input =>
    match executeDistribute e.env input e.rpc with
    | .ok result => (result.plan.spec.key, result.results)
    | .error _ => ("", [])
  | .collect input =>
    match executeCollect e.env.toCollectEnv input e.rpc with
    | .ok result => (result.plan.spec.key, result.results)
    | .error _ => ("", [])

/-- A transaction is signed with the key of the wallet with this id. -/
def moveOf (wallets : List WalletRow) (network : String) (a : Attempt) : Option Move :=
  (wallets.find? fun w : WalletRow => w.id = a.row.walletId).map fun w => ⟨network, w.address, a.row.address, a.units⟩

def BulkEvent.moves (e : BulkEvent) : List Move :=
  (e.attempts.2.zipIdx.filter fun a => decide (a.1.broadcast = .live) && e.lands a.2).filterMap fun a =>
    moveOf e.env.wallets e.attempts.1 a.1

def Balances.after (b : Balances) (events : List BulkEvent) : Balances :=
  events.foldl (fun b e => e.moves.foldl Balances.move b) b

/-- The addresses of a user's wallets. -/
def addressesOf (wallets : List WalletRow) (userId : String) : Finset String :=
  ((wallets.filter fun w : WalletRow => w.userId = userId).map WalletRow.address).toFinset

section Holdings
variable {wallets : List WalletRow} {b : Balances}

/-- A move between two places that are both counted, or both not, does not change the sum. -/
theorem sum_move (b : Balances) (m : Move) (network : String) (s : Finset String)
    (h : m.sender ∈ s ↔ m.recipient ∈ s) : ∑ a ∈ s, b.move m network a = ∑ a ∈ s, b network a := by
  simp only [Balances.move, Finset.sum_sub_distrib, Finset.sum_add_distrib]
  by_cases hnetwork : network = m.network
  · by_cases hsender : m.sender ∈ s
    · simp [hnetwork, hsender, h.mp hsender]
    · simp [hnetwork, hsender, mt h.mpr hsender]
  · simp [hnetwork]

theorem move_of_ne (b : Balances) (m : Move) (network : String) {a : String} (hsender : a ≠ m.sender)
    (hrecipient : a ≠ m.recipient) : b.move m network a = b network a := by
  simp [Balances.move, hsender, hrecipient]

/-- A move from a wallet of a user to a wallet of the same user. -/
def Own (wallets : List WalletRow) (m : Move) : Prop :=
  ∃ w ∈ wallets, ∃ w' ∈ wallets, w.userId = w'.userId ∧ m.sender = w.address ∧ m.recipient = w'.address

theorem mem_addressesOf {userId address : String} :
    address ∈ addressesOf wallets userId ↔ ∃ w ∈ wallets, w.userId = userId ∧ w.address = address := by
  simp [addressesOf, and_assoc]

/-- Where no address belongs to two users, an own move starts and ends with the same one. -/
theorem Own.mem_iff {m : Move} (h : Own wallets m)
    (howner : ∀ w ∈ wallets, ∀ w' ∈ wallets, w.address = w'.address → w.userId = w'.userId) (userId : String) :
    m.sender ∈ addressesOf wallets userId ↔ m.recipient ∈ addressesOf wallets userId := by
  obtain ⟨w, hw, w', hw', huser, hsender, hrecipient⟩ := h
  rw [mem_addressesOf, mem_addressesOf, hsender, hrecipient]
  constructor
  · rintro ⟨v, hv, hvuser, haddress⟩
    exact ⟨w', hw', huser.symm.trans ((howner v hv w hw haddress).symm.trans hvuser), rfl⟩
  · rintro ⟨v, hv, hvuser, haddress⟩
    exact ⟨w, hw, huser.trans ((howner v hv w' hw' haddress).symm.trans hvuser), rfl⟩

/-- A job from a wallet of the user to a wallet of the user. -/
def OwnJob (wallets : List WalletRow) (userId : String) (job : TransferJob) : Prop :=
  (∃ w ∈ wallets, w.id = job.fromWalletId ∧ w.userId = userId) ∧
    ∃ w ∈ wallets, w.address = job.toAddress ∧ w.userId = userId

theorem own_of_jobs {userId : String} {jobs : List TransferJob} {spec : ChainSpec} {rpc : ℕ → RpcAnswer}
    (hids : (wallets.map WalletRow.id).Nodup) (hjobs : ∀ job ∈ jobs, OwnJob wallets userId job) {network : String}
    {a : Attempt} (ha : a ∈ jobs.zipIdx.map (attempt spec rpc)) {m : Move} (hm : moveOf wallets network a = some m) :
    Own wallets m := by
  obtain ⟨job, hjob, rfl⟩ := List.mem_map.mp ha
  obtain ⟨hfrom, hto, -⟩ := attempt_row spec rpc job
  obtain ⟨⟨w, hw, hid, huser⟩, w', hw', haddress, huser'⟩ := hjobs job.1 (List.fst_mem_of_mem_zipIdx hjob)
  obtain ⟨found, hfound, rfl⟩ := Option.map_eq_some_iff.mp hm
  have hsame : found = w := by
    refine List.inj_on_of_nodup_map hids (List.mem_of_find?_eq_some hfound) hw ?_
    have hfoundId : found.id = (attempt spec rpc job).row.walletId := by
      simpa using List.find?_some hfound
    rw [hfoundId, hfrom, hid]
  subst hsame
  exact ⟨found, hw, w', hw', huser.trans huser'.symm, rfl, hto.trans haddress.symm⟩

theorem ownJob_distribute {env : BulkEnv} {input : DistributeInput} {r : ResolvedDistribute}
    (h : resolveDistribute env.toCollectEnv input = .ok r) :
    ∀ job ∈ jobsOf input r, OwnJob env.wallets input.userId job := by
  obtain ⟨-, hfunder, hid, huser, htargets⟩ := resolveDistribute_ok h
  intro job hjob
  obtain ⟨t, ht, rfl⟩ := List.mem_map.mp hjob
  rw [htargets] at ht
  obtain ⟨hmem, htarget⟩ := List.mem_filter.mp ht
  exact ⟨⟨r.funder, hfunder, hid, huser⟩, t, hmem, rfl, (of_decide_eq_true htarget).1⟩

theorem resolveCollect_ok {env : CollectEnv} {input : CollectInput} {r : ResolvedCollect}
    (h : resolveCollect env input = .ok r) :
    (r.target ∈ env.wallets ∧ r.target.userId = input.userId) ∧
      ∀ s ∈ r.sources, s ∈ env.wallets ∧ s.userId = input.userId := by
  unfold resolveCollect at h
  cases hfind : env.wallets.find? fun w : WalletRow => w.id = input.toWalletId ∧ w.userId = input.userId with
  | none =>
    rw [hfind] at h
    cases h
  | some target =>
    rw [hfind] at h
    obtain ⟨spec, -, h⟩ := bind_eq_ok.mp h
    obtain rfl := Except.ok.inj h
    obtain ⟨-, huser⟩ : target.id = input.toWalletId ∧ target.userId = input.userId := by
      simpa using List.find?_some hfind
    refine ⟨⟨List.mem_of_find?_eq_some hfind, huser⟩, fun s hs => ?_⟩
    have howned : s ∈ env.wallets.filter fun w : WalletRow => w.userId = input.userId ∧ w.chain = spec.family := by
      have hs' := List.mem_of_mem_filter hs
      split at hs'
      · exact List.mem_of_mem_filter hs'
      · exact hs'
    obtain ⟨hmem, hown⟩ := List.mem_filter.mp howned
    exact ⟨hmem, (of_decide_eq_true hown).1⟩

theorem ownJob_collect {env : CollectEnv} {input : CollectInput} {plan : TransferPlan}
    (h : planCollect env input = .ok plan) : ∀ job ∈ plan.jobs, OwnJob env.wallets input.userId job := by
  obtain ⟨r, hr, hplan⟩ := bind_eq_ok.mp h
  obtain rfl := Except.ok.inj hplan
  obtain ⟨⟨htarget, huser⟩, hsources⟩ := resolveCollect_ok hr
  intro job hjob
  obtain ⟨row, hrow, rfl⟩ := List.mem_map.mp hjob
  obtain ⟨s, hs, rfl⟩ := List.mem_map.mp (List.mem_of_mem_filter hrow)
  obtain ⟨hmem, hown⟩ := hsources s hs
  exact ⟨⟨s, hmem, rfl, hown⟩, r.target, htarget, rfl, huser⟩

theorem executeCollect_ok {env : CollectEnv} {input : CollectInput} {rpc : ℕ → RpcAnswer} {result : CollectResult}
    (h : executeCollect env input rpc = .ok result) :
    planCollect env input = .ok result.plan ∧
      result.results = result.plan.jobs.zipIdx.map (attempt result.plan.spec rpc) := by
  unfold executeCollect at h
  cases hconfirm : input.confirm with
  | false =>
    rw [hconfirm] at h
    cases h
  | true =>
    rw [hconfirm] at h
    obtain ⟨-, -, h⟩ := bind_eq_ok.mp h
    obtain ⟨plan, hplan, h⟩ := bind_eq_ok.mp h
    cases hfatal : plan.fatal with
    | some fatal =>
      rw [hfatal] at h
      cases h
    | none =>
      rw [hfatal] at h
      obtain ⟨out, hrun, h⟩ := bind_eq_ok.mp h
      obtain rfl := Except.ok.inj h
      exact ⟨hplan, (runTransfers_ok hrun).2⟩

/-- Whatever a call attempts is from a wallet of the user to a wallet of the user. -/
theorem own_moves {e : BulkEvent} (hids : (e.env.wallets.map WalletRow.id).Nodup) :
    ∀ m ∈ e.moves, Own e.env.wallets m := by
  intro m hm
  obtain ⟨a, ha, hmove⟩ := List.mem_filterMap.mp hm
  have hmem : a.1 ∈ e.attempts.2 := List.fst_mem_of_mem_zipIdx (List.mem_of_mem_filter ha)
  unfold BulkEvent.attempts at hmem hmove
  cases hcall : e.call with
  | distribute input =>
    simp only [hcall] at hmem
    cases hresult : executeDistribute e.env input e.rpc with
    | error error =>
      rw [hresult] at hmem
      cases hmem
    | ok result =>
      rw [hresult] at hmem
      obtain ⟨-, -, r, balance, hr, -, -, -, -, rfl⟩ := executeDistribute_ok.mp hresult
      exact own_of_jobs hids (ownJob_distribute hr) hmem hmove
  | collect input =>
    simp only [hcall] at hmem
    cases hresult : executeCollect e.env.toCollectEnv input e.rpc with
    | error error =>
      rw [hresult] at hmem
      cases hmem
    | ok result =>
      rw [hresult] at hmem
      obtain ⟨hplan, hresults⟩ := executeCollect_ok hresult
      have hattempt : a.1 ∈ result.results := hmem
      rw [hresults] at hattempt
      exact own_of_jobs hids (ownJob_collect hplan) hattempt hmove

theorem Own.mono {wallets' : List WalletRow} {m : Move} (h : Own wallets m) (hsub : wallets ⊆ wallets') :
    Own wallets' m := by
  obtain ⟨w, hw, w', hw', h⟩ := h
  exact ⟨w, hsub hw, w', hsub hw', h⟩

theorem moves_keep {moves : List Move} (h : ∀ m ∈ moves, Own wallets m)
    (howner : ∀ w ∈ wallets, ∀ w' ∈ wallets, w.address = w'.address → w.userId = w'.userId) (b : Balances)
    (network : String) :
    (∀ userId, ∑ a ∈ addressesOf wallets userId, moves.foldl Balances.move b network a =
        ∑ a ∈ addressesOf wallets userId, b network a) ∧
      ∀ address, (∀ w ∈ wallets, w.address ≠ address) →
        moves.foldl Balances.move b network address = b network address := by
  induction moves generalizing b with
  | nil => exact ⟨fun _ => rfl, fun _ _ => rfl⟩
  | cons m moves ih =>
    obtain ⟨hsum, hother⟩ := ih (fun m hm => h m (List.mem_cons_of_mem _ hm)) (b.move m)
    have hown := h m List.mem_cons_self
    constructor
    · intro userId
      rw [List.foldl_cons, hsum userId]
      exact sum_move b m network _ (hown.mem_iff howner userId)
    · intro address hforeign
      rw [List.foldl_cons, hother address hforeign]
      obtain ⟨w, hw, w', hw', -, hsender, hrecipient⟩ := hown
      exact move_of_ne b m network (hsender ▸ (hforeign w hw).symm) (hrecipient ▸ (hforeign w' hw').symm)

end Holdings

/-- The first of the two transfers lands. -/
def twoTargetsEvent : BulkEvent := ⟨.distribute twoTargets, bulkEnv, allConfirmed, fun i => i == 0⟩

def MAX_BULK_CREATE : ℕ := 50

structure BulkCreateInput where
  userId : String
  chain : Chain
  count : ℚ
  labelPrefix : Option String := none
  deriving DecidableEq, Repr

/-- `WalletsService.create` with no other operation between its own. The key is what `generateKeypair` and the
encryption give, or the error of the encryption. -/
def create (cfg : WalletConfig) (db : WalletDb) (userId : String) (chain : Chain) (label : Option String)
    (key : Except String SealedKey) : Except String (Wallet × WalletDb) :=
  let count := db.count userId
  if cfg.MAX_WALLETS_PER_USER ≤ count then .error cfg.capReached
  else
    let chainCount := db.wallets.countP fun w => w.userId = userId ∧ w.chain = chain
    match key with
    | .error message => .error message
    | .ok key =>
      let data : WalletData :=
        { userId, chain, address := key.address, encryptedKey := key.encryptedKey, encryptedDek := key.encryptedDek
          label := label.getD (defaultLabel chain chainCount), isPrimary := count == 0, isImported := false
          backedUpAt := none }
      match db.findAddress userId key.address with
      | some _ => .error "Unique constraint failed on the fields: (userId, address)"
      | none => .ok (⟨data, db.nextId⟩, { db.createWallet data with
          auditLog := db.auditLog ++ [⟨userId, "wallet.create", key.address, chain⟩] })

/-- `message.includes('cap')`. -/
def mentionsCap (message : String) : Bool := decide ("cap".toList <:+: message.toList)

structure BulkCreated where
  requested : ℕ
  created : List Wallet := []
  failed : List (ℕ × String) := []
  deriving DecidableEq, Repr

def BulkCreateInput.label (input : BulkCreateInput) (i : ℕ) : Option String :=
  (input.labelPrefix.filter (· ≠ "")).map fun labelPrefix => labelPrefix ++ " " ++ toString (i + 1)

/-- The attempts from number `i` on, so many of them; an error that mentions the cap is the last one. -/
def createFrom (cfg : WalletConfig) (input : BulkCreateInput) (keys : ℕ → Except String SealedKey) :
    ℕ → ℕ → BulkCreated × WalletDb → BulkCreated × WalletDb
  | 0, _, s => s
  | attempts + 1, i, s =>
    match create cfg s.2 input.userId input.chain (input.label i) (keys i) with
    | .ok (wallet, db) =>
      createFrom cfg input keys attempts (i + 1) ({ s.1 with created := s.1.created ++ [wallet] }, db)
    | .error message =>
      let s := ({ s.1 with failed := s.1.failed ++ [(i, message)] }, s.2)
      if mentionsCap message then s else createFrom cfg input keys attempts (i + 1) s

def bulkCreate (cfg : WalletConfig) (db : WalletDb) (input : BulkCreateInput) (keys : ℕ → Except String SealedKey) :
    Except String (BulkCreated × WalletDb) :=
  if input.count.den ≠ 1 ∨ input.count < 1 then .error "count must be a positive integer"
  else if MAX_BULK_CREATE < input.count then .error "count exceeds the 50 per-call limit"
  else
    let count := input.count.num.toNat
    .ok (createFrom cfg input keys count 0 ({ requested := count }, db))

/-- The interleaved calls of `create`, where nothing comes between. -/
def runCall (cfg : WalletConfig) : ℕ → WalletDb → WalletCall → WalletDb × WalletCall
  | 0, db, call => (db, call)
  | fuel + 1, db, call =>
    match advanceWallet cfg db 0 call with
    | none => (db, call)
    | some (db, call) => runCall cfg fuel db call

section Create
variable {cfg : WalletConfig} {db : WalletDb} {userId : String} {chain : Chain} {label : Option String}
variable {input : BulkCreateInput} {keys : ℕ → Except String SealedKey}

/-- `create` is what the operations of a call do one after the other. -/
theorem create_runCall (key : SealedKey) :
    runCall cfg 4 db (.create userId chain label key) =
      match create cfg db userId chain label (.ok key) with
      | .ok (_, db') => (db', .done)
      | .error message => (db, .threw message) := by
  unfold create
  dsimp only
  by_cases hcap : cfg.MAX_WALLETS_PER_USER ≤ db.count userId
  · simp [runCall, advanceWallet, hcap]
  · cases hfind : db.findAddress userId key.address with
    | none => simp [runCall, advanceWallet, hcap, hfind, WalletDb.createWallet]
    | some w => simp [runCall, advanceWallet, hcap, hfind]

theorem infix_of_prefix {before part after text rest : List Char} (h : text = before ++ part ++ after) :
    part <:+: text ++ rest :=
  ⟨before, after ++ rest, by rw [h, List.append_assoc, List.append_assoc, List.append_assoc]⟩

theorem mentionsCap_capReached (cfg : WalletConfig) : mentionsCap cfg.capReached = true := by
  have htext : "Wallet cap reached (".toList = "Wallet ".toList ++ "cap".toList ++ " reached (".toList := by decide
  have hmessage : cfg.capReached.toList =
      "Wallet cap reached (".toList ++ ((toString cfg.MAX_WALLETS_PER_USER).toList ++ ")".toList) :=
    String.toList_append.trans ((congrArg (· ++ ")".toList) String.toList_append).trans (List.append_assoc _ _ _))
  have hinfix : "cap".toList <:+: "Wallet cap reached (".toList ++
      ((toString cfg.MAX_WALLETS_PER_USER).toList ++ ")".toList) := infix_of_prefix htext
  exact decide_eq_true (hmessage.symm ▸ hinfix)

theorem create_ok {key : Except String SealedKey} {w : Wallet} {db' : WalletDb}
    (h : create cfg db userId chain label key = .ok (w, db')) :
    db'.wallets = db.wallets ++ [w] ∧ w.userId = userId ∧ w.chain = chain ∧
      w.isPrimary = (db.count userId == 0) ∧ db.count userId < cfg.MAX_WALLETS_PER_USER := by
  unfold create at h
  dsimp only at h
  by_cases hcap : cfg.MAX_WALLETS_PER_USER ≤ db.count userId
  · rw [if_pos hcap] at h
    cases h
  · rw [if_neg hcap] at h
    cases key with
    | error message => cases h
    | ok key =>
      cases hfind : db.findAddress userId key.address with
      | some found =>
        simp only [hfind] at h
        cases h
      | none =>
        simp only [hfind] at h
        obtain ⟨rfl, rfl⟩ := Prod.mk.inj (Except.ok.inj h)
        exact ⟨rfl, rfl, rfl, rfl, Nat.lt_of_not_le hcap⟩

/-- What has been created so far, from a database. -/
structure Created (cfg : WalletConfig) (db : WalletDb) (input : BulkCreateInput) (s : BulkCreated × WalletDb) :
    Prop where
  rows : s.2.wallets = db.wallets ++ s.1.created
  own : ∀ w ∈ s.1.created, w.userId = input.userId ∧ w.chain = input.chain
  room : s.1.created = [] ∨ db.count input.userId + s.1.created.length ≤ cfg.MAX_WALLETS_PER_USER
  primary : s.1.created.map (fun w => w.isPrimary) =
    (List.range s.1.created.length).map fun i => db.count input.userId + i == 0

variable {s : BulkCreated × WalletDb}

theorem Created.count (h : Created cfg db input s) :
    s.2.count input.userId = db.count input.userId + s.1.created.length := by
  have hall : s.1.created.countP (fun w => w.userId = input.userId) = s.1.created.length :=
    List.countP_eq_length.mpr fun w hw => by simpa using (h.own w hw).1
  rw [WalletDb.count, h.rows, List.countP_append, hall]
  rfl

theorem Created.append (h : Created cfg db input s) {key : Except String SealedKey} {w : Wallet} {db' : WalletDb}
    (hcreate : create cfg s.2 input.userId input.chain label key = .ok (w, db')) :
    Created cfg db input ({ s.1 with created := s.1.created ++ [w] }, db') := by
  obtain ⟨hrows, huser, hchain, hprimary, hroom⟩ := create_ok hcreate
  rw [h.count] at hprimary hroom
  refine ⟨?_, ?_, .inr ?_, ?_⟩
  · show db'.wallets = _
    rw [hrows, h.rows, List.append_assoc]
  · intro v hv
    rcases List.mem_append.mp hv with hv | hv
    · exact h.own v hv
    · obtain rfl := List.mem_singleton.mp hv
      exact ⟨huser, hchain⟩
  · show _ + (s.1.created ++ [w]).length ≤ _
    rw [List.length_append, List.length_singleton]
    omega
  · show (s.1.created ++ [w]).map _ = (List.range (s.1.created ++ [w]).length).map _
    rw [List.map_append, h.primary, List.length_append, List.length_singleton, List.range_succ, List.map_append]
    simp [hprimary]

theorem Created.fail (h : Created cfg db input s) (i : ℕ) (message : String) :
    Created cfg db input ({ s.1 with failed := s.1.failed ++ [(i, message)] }, s.2) :=
  ⟨h.rows, h.own, h.room, h.primary⟩

/-- All attempts have been made, or the last one that failed mentions the cap. -/
def Exhausted (attempted : ℕ) (r : BulkCreated) : Prop :=
  r.created.length + r.failed.length = attempted ∨
    r.created.length + r.failed.length ≤ attempted ∧ ∃ failure ∈ r.failed.getLast?, mentionsCap failure.2 = true

theorem Created.run (h : Created cfg db input s) (attempts i : ℕ) (hi : s.1.created.length + s.1.failed.length = i) :
    Created cfg db input (createFrom cfg input keys attempts i s) ∧
      Exhausted (i + attempts) (createFrom cfg input keys attempts i s).1 := by
  induction attempts generalizing s i with
  | zero => exact ⟨h, .inl hi⟩
  | succ attempts ih =>
    rw [createFrom]
    cases hcreate : create cfg s.2 input.userId input.chain (input.label i) (keys i) with
    | ok result =>
      obtain ⟨w, db'⟩ := result
      have hnext := ih (h.append hcreate) (i + 1) (by simp; omega)
      rw [Nat.add_right_comm, Nat.add_assoc] at hnext
      exact hnext
    | error message =>
      dsimp only
      by_cases hcap : mentionsCap message = true
      · rw [if_pos hcap]
        refine ⟨h.fail i message, .inr ⟨by simp; omega, ?_⟩⟩
        exact ⟨(i, message), by simp, hcap⟩
      · rw [if_neg hcap]
        have hnext := ih (h.fail i message) (i + 1) (by simp; omega)
        rw [Nat.add_right_comm, Nat.add_assoc] at hnext
        exact hnext

/-! ### Keys that are all there -/

/-- Keys that encrypt, with addresses that are new to the user. -/
structure FreshKeys (db : WalletDb) (userId : String) (keys : ℕ → Except String SealedKey) (key : ℕ → SealedKey) :
    Prop where
  encrypted : ∀ i, keys i = .ok (key i)
  unused : ∀ i, ∀ w ∈ db.wallets, w.userId = userId → w.address ≠ (key i).address
  distinct : ∀ i j, (key i).address = (key j).address → i = j

/-- How many wallets the user may still create. -/
def roomLeft (cfg : WalletConfig) (db : WalletDb) (userId : String) : ℕ := cfg.MAX_WALLETS_PER_USER - db.count userId

variable {key : ℕ → SealedKey}

/-- Below the cap an attempt creates a wallet with its key. -/
theorem create_fresh (hkeys : FreshKeys db input.userId keys key) (h : Created cfg db input s) {i : ℕ}
    (haddresses : s.1.created.map (fun w => w.address) = (List.range i).map fun j => (key j).address)
    (hroom : i < roomLeft cfg db input.userId) :
    ∃ w db', create cfg s.2 input.userId input.chain label (keys i) = .ok (w, db') ∧ w.address = (key i).address := by
  have hlength : s.1.created.length = i := by
    have hlengths := congrArg List.length haddresses
    rwa [List.length_map, List.length_map, List.length_range] at hlengths
  have hcap : ¬ cfg.MAX_WALLETS_PER_USER ≤ s.2.count input.userId := by
    rw [h.count, hlength]
    unfold roomLeft at hroom
    omega
  have hunused : s.2.findAddress input.userId (key i).address = none := by
    rw [WalletDb.findAddress, List.find?_eq_none]
    intro w hw hfound
    obtain ⟨huser, haddress⟩ : w.userId = input.userId ∧ w.address = (key i).address := by simpa using hfound
    rw [h.rows] at hw
    rcases List.mem_append.mp hw with hold | hnew
    · exact hkeys.unused i w hold huser haddress
    · have hmem : w.address ∈ (List.range i).map fun j => (key j).address :=
        haddresses ▸ List.mem_map_of_mem hnew
      obtain ⟨j, hj, hsame⟩ := List.mem_map.mp hmem
      obtain rfl := hkeys.distinct j i (hsame.trans haddress)
      exact absurd (List.mem_range.mp hj) (lt_irrefl _)
  unfold create
  dsimp only
  rw [if_neg hcap, hkeys.encrypted i]
  simp only [hunused]
  exact ⟨_, _, rfl, rfl⟩

/-- At the cap an attempt fails, and is the last one. -/
theorem create_full (h : Created cfg db input s) (hroom : roomLeft cfg db input.userId ≤ s.1.created.length)
    (key : Except String SealedKey) :
    create cfg s.2 input.userId input.chain label key = .error cfg.capReached := by
  have hcap : cfg.MAX_WALLETS_PER_USER ≤ s.2.count input.userId := by
    rw [h.count]
    unfold roomLeft at hroom
    omega
  unfold create
  rw [if_pos hcap]

theorem createFrom_fresh (hkeys : FreshKeys db input.userId keys key) (h : Created cfg db input s) (attempts i : ℕ)
    (haddresses : s.1.created.map (fun w => w.address) = (List.range i).map fun j => (key j).address)
    (hfailed : s.1.failed = []) (hroom : i ≤ roomLeft cfg db input.userId) :
    (createFrom cfg input keys attempts i s).1.created.map (fun w => w.address) =
        (List.range (min (i + attempts) (roomLeft cfg db input.userId))).map (fun j => (key j).address) ∧
      (createFrom cfg input keys attempts i s).1.failed =
        if i + attempts ≤ roomLeft cfg db input.userId then []
        else [(roomLeft cfg db input.userId, cfg.capReached)] := by
  induction attempts generalizing s i with
  | zero =>
    rw [createFrom, Nat.add_zero, Nat.min_eq_left hroom, if_pos hroom]
    exact ⟨haddresses, hfailed⟩
  | succ attempts ih =>
    rw [createFrom]
    by_cases hlast : i = roomLeft cfg db input.userId
    · have hlength : s.1.created.length = i := by
        have hlengths := congrArg List.length haddresses
        rwa [List.length_map, List.length_map, List.length_range] at hlengths
      rw [create_full h (by omega)]
      dsimp only
      rw [if_pos (mentionsCap_capReached cfg), Nat.min_eq_right (by omega), if_neg (by omega), hfailed, ← hlast]
      exact ⟨haddresses, rfl⟩
    · obtain ⟨w, db', hcreate, haddress⟩ := create_fresh hkeys h haddresses (by omega)
      rw [hcreate]
      dsimp only
      have hnext := ih (h.append hcreate) (i + 1) (by
        rw [List.map_append, haddresses, List.range_succ, List.map_append]
        simp [haddress]) hfailed (by omega)
      rw [Nat.add_right_comm, Nat.add_assoc] at hnext
      exact hnext

theorem requested_createFrom (attempts i : ℕ) (s : BulkCreated × WalletDb) :
    (createFrom cfg input keys attempts i s).1.requested = s.1.requested := by
  induction attempts generalizing s i with
  | zero => rfl
  | succ attempts ih =>
    rw [createFrom]
    cases create cfg s.2 input.userId input.chain (input.label i) (keys i) with
    | ok result => exact ih _ _
    | error message =>
      dsimp only
      by_cases hcap : mentionsCap message = true
      · rw [if_pos hcap]
      · rw [if_neg hcap]
        exact ih _ _

theorem bulkCreate_ok {result : BulkCreated × WalletDb} (h : bulkCreate cfg db input keys = .ok result) :
    ∃ n : ℕ, input.count = n ∧ result = createFrom cfg input keys n 0 ({ requested := n }, db) := by
  unfold bulkCreate at h
  by_cases hcount : input.count.den ≠ 1 ∨ input.count < 1
  · rw [if_pos hcount] at h
    cases h
  · rw [if_neg hcount] at h
    by_cases hlimit : (MAX_BULK_CREATE : ℚ) < input.count
    · rw [if_pos hlimit] at h
      cases h
    · rw [if_neg hlimit] at h
      obtain ⟨hden, hpos⟩ : input.count.den = 1 ∧ 1 ≤ input.count := by simpa using hcount
      refine ⟨input.count.num.toNat, ?_, (Except.ok.inj h).symm⟩
      have hnum : 0 ≤ input.count.num := Rat.num_nonneg.mpr (zero_le_one.trans hpos)
      have hcast : ((input.count.num.toNat : ℤ) : ℚ) = input.count.num := by rw [Int.toNat_of_nonneg hnum]
      rw [← Int.cast_natCast, hcast, Rat.coe_int_num_of_den_eq_one hden]

theorem created_start (n : ℕ) : Created cfg db input ({ requested := n }, db) where
  rows := (List.append_nil _).symm
  own := fun _ hw => nomatch hw
  room := .inl rfl
  primary := rfl

end Create

def capOfTwo : WalletConfig where
  MAX_WALLETS_PER_USER := 2
  addressOf _ _ := none

def sniperWallets : BulkCreateInput where
  userId := "u1"
  chain := .EVM
  count := 3
  labelPrefix := some "Sniper"

/-- Addresses of different lengths. -/
def keyOf (i : ℕ) : SealedKey := ⟨String.ofList (List.replicate i 'a'), "key", "dek"⟩

theorem fresh_keyOf : FreshKeys {} "u1" (fun i => .ok (keyOf i)) keyOf where
  encrypted _ := rfl
  unused _ w hw := nomatch hw
  distinct i j h := by
    have hlists := congrArg String.toList h
    simpa [keyOf] using hlists

end SuperAi.Wallets
