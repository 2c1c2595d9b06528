import SuperAi.Auth.WalletVerifier
import Mathlib.Data.Rat.Floor
import Mathlib.Data.List.Basic

/-! # Bulk transfers

`BulkWalletService.runTransfers` and `sendNative` (`wallets/bulk-wallet.service.ts`). What the key store and
the node answer for a transfer is a value of `RpcAnswer`, and an answer can also be an error. `broadcast` says
what becomes of the transaction behind the answer.
-/
namespace SuperAi.Wallets
open SuperAi.Auth
set_option autoImplicit false

/-! ## Chains and jobs -/

/-- The entries of the chain registry that transfers use; `explorerTx` is the prefix of `explorerTxUrl`. -/
structure ChainSpec where
  key : String
  family : Chain
  displayName : String
  nativeSymbol : String
  nativeDecimals : ℕ
  explorerTx : String
  deriving DecidableEq, Repr

def MAX_BULK_TRANSFERS : ℕ := 100

def TRANSFER_CONCURRENCY : ℕ := 4

structure TransferJob where
  fromWalletId : String
  toAddress : String
  toWalletId : String
  amount : ℚ
  deriving DecidableEq, Repr

/-- The integer amount of the transfer: lamports, or the units of `parseUnits(amount.toFixed(d), d)`. -/
def nativeUnits (spec : ChainSpec) (amount : ℚ) : ℤ :=
  match spec.family with
  | .SOLANA => ⌊amount * 1000000000 + 1 / 2⌋
  | .EVM => ⌊amount * 10 ^ spec.nativeDecimals + 1 / 2⌋

/-! ## One transfer -/

/-- How a node takes a signed transaction; `unanswered` is one that it broadcasts while its answer is lost. -/
inductive SubmitAnswer
  | rejected (error : String)
  | accepted (txHash : String)
  | unanswered (error : String)
  deriving DecidableEq, Repr

/-- How the wait for a confirmation ends: confirmed, executed with an error, no longer valid, or with an error
that leaves it open (a timeout, a lost connection). -/
inductive ConfirmAnswer
  | confirmed
  | reverted (error : String)
  | expired (error : String)
  | unknown (error : String)
  deriving DecidableEq, Repr

/-- `key` is the decryption by `withSigningKey`, `prepare` the making of the transaction: its address, its
amount, its fees, the recent blockhash or the nonce. -/
structure RpcAnswer where
  key : Except String Unit := .ok ()
  prepare : Except String Unit := .ok ()
  submit : SubmitAnswer
  confirm : ConfirmAnswer
  deriving DecidableEq

/-- What there is of the transaction: nothing, one that moves nothing and cannot land, or one that is on chain
or can still get there. -/
inductive Broadcast
  | nothing
  | dead
  | live
  deriving DecidableEq, Repr

/-- `sendNative`, and what it has broadcast. -/
def sendNative (rpc : RpcAnswer) : Except String String × Broadcast :=
  match rpc.key, rpc.prepare, rpc.submit with
  | .error e, _, _ => (.error e, .nothing)
  | .ok (), .error e, _ => (.error e, .nothing)
  | .ok (), .ok (), .rejected e => (.error e, .nothing)
  | .ok (), .ok (), .unanswered e => (.error e, .live)
  | .ok (), .ok (), .accepted txHash =>
    match rpc.confirm with
    | .confirmed => (.ok txHash, .live)
    | .reverted e => (.error e, .dead)
    | .expired e => (.error e, .dead)
    | .unknown e => (.error e, .live)

inductive TransferStatus
  | sent
  | failed
  | skipped
  deriving DecidableEq, Repr

structure TransferResultRow where
  walletId : String
  address : String
  amount : ℚ
  status : TransferStatus
  txHash : Option String := none
  explorerUrl : Option String := none
  error : Option String := none
  deriving DecidableEq, Repr

/-- A row of the result, with the units and the fate of its transaction. -/
structure Attempt where
  row : TransferResultRow
  units : ℤ
  broadcast : Broadcast
  deriving DecidableEq, Repr

/-- The body of a wave: every error of `sendNative` makes a failed row. -/
def attempt (spec : ChainSpec) (rpc : ℕ → RpcAnswer) (job : TransferJob × ℕ) : Attempt where
  row :=
    match (sendNative (rpc job.2)).1 with
    | .ok txHash =>
      { walletId := job.1.fromWalletId, address := job.1.toAddress, amount := job.1.amount, status := .sent
        txHash := some txHash, explorerUrl := some (spec.explorerTx ++ txHash) }
    | .error e =>
      { walletId := job.1.fromWalletId, address := job.1.toAddress, amount := job.1.amount, status := .failed
        error := some e }
  units := nativeUnits spec job.1.amount
  broadcast := (sendNative (rpc job.2)).2

/-! ## Waves -/

def sharedSender (jobs : List TransferJob) : Bool :=
  (jobs.map TransferJob.fromWalletId).dedup.length == 1 && decide (1 < jobs.length)

def concurrency (jobs : List TransferJob) : ℕ := if sharedSender jobs then 1 else TRANSFER_CONCURRENCY

/-- Slices of `size` jobs, `fuel` of them at most. -/
def waves {α : Type} (size : ℕ) : ℕ → List α → List (List α)
  | 0, _ => []
  | fuel + 1, jobs => if jobs.isEmpty then [] else jobs.take size :: waves size fuel (jobs.drop size)

/-- The answer for each job is found under its number. -/
def runTransfers (spec : ChainSpec) (jobs : List TransferJob) (rpc : ℕ → RpcAnswer) : Except String (List Attempt) :=
  if MAX_BULK_TRANSFERS < jobs.length then .error "Refusing more than 100 transfers in one call"
  else .ok ((waves (concurrency jobs) jobs.length jobs.zipIdx).flatMap fun wave => wave.map (attempt spec rpc))

structure Summary where
  total : ℕ
  sent : ℕ
  failed : ℕ
  skipped : ℕ
  totalAmount : ℚ
  deriving DecidableEq, Repr

def summarize (rows : List TransferResultRow) : Summary where
  total := rows.length
  sent := rows.countP fun r => r.status == .sent
  failed := rows.countP fun r => r.status == .failed
  skipped := rows.countP fun r => r.status == .skipped
  totalAmount := ((rows.filter fun r => r.status == .sent).map TransferResultRow.amount).sum

/-! ## Every job is attempted once -/

theorem waves_flatten {α : Type} {size : ℕ} (hsize : 0 < size) (fuel : ℕ) (jobs : List α)
    (hfuel : jobs.length ≤ fuel) : (waves size fuel jobs).flatten = jobs := by
  induction fuel generalizing jobs with
  | zero =>
    have hnil : jobs = [] := List.length_eq_zero_iff.mp (by omega)
    rw [hnil]
    rfl
  | succ fuel ih =>
    cases jobs with
    | nil => rfl
    | cons job jobs =>
      have hrest : ((job :: jobs).drop size).length ≤ fuel := by
        rw [List.length_drop]
        omega
      change (job :: jobs).take size ++ (waves size fuel ((job :: jobs).drop size)).flatten = _
      rw [ih _ hrest, List.take_append_drop]

theorem concurrency_pos (jobs : List TransferJob) : 0 < concurrency jobs := by
  unfold concurrency TRANSFER_CONCURRENCY
  split <;> omega

theorem runTransfers_eq (spec : ChainSpec) (jobs : List TransferJob) (rpc : ℕ → RpcAnswer) :
    runTransfers spec jobs rpc = if MAX_BULK_TRANSFERS < jobs.length then
        .error "Refusing more than 100 transfers in one call"
      else .ok (jobs.zipIdx.map (attempt spec rpc)) := by
  unfold runTransfers
  have hlength : jobs.zipIdx.length ≤ jobs.length := by rw [List.length_zipIdx]
  have hflatten := waves_flatten (concurrency_pos jobs) jobs.length jobs.zipIdx hlength
  rw [List.flatMap_def, ← List.map_flatten, hflatten]

theorem runTransfers_ok {spec : ChainSpec} {jobs : List TransferJob} {rpc : ℕ → RpcAnswer} {out : List Attempt}
    (h : runTransfers spec jobs rpc = .ok out) :
    jobs.length ≤ MAX_BULK_TRANSFERS ∧ out = jobs.zipIdx.map (attempt spec rpc) := by
  rw [runTransfers_eq] at h
  split at h
  · cases h
  · rename_i hlength
    exact ⟨Nat.le_of_not_lt hlength, (Except.ok.inj h).symm⟩

theorem attempt_failed {spec : ChainSpec} {rpc : ℕ → RpcAnswer} {job : TransferJob × ℕ} :
    (attempt spec rpc job).row.status = .failed ↔ ∃ e, (sendNative (rpc job.2)).1 = .error e := by
  unfold attempt
  dsimp only
  cases (sendNative (rpc job.2)).1 with
  | ok txHash => simp
  | error e => simp

end SuperAi.Wallets
