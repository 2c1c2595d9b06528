import SuperAi.Wallets.BulkTransfers

/-! # Sweeps

`planCollect` and `executeCollect` of `BulkWalletService` (`wallets/bulk-wallet.service.ts`). A plan leaves a
reserve in every wallet: what the caller asks for, or else a constant on Solana and the estimated fee with a
buffer on an EVM chain. The answers of the database, the price service and the nodes are in `CollectEnv`.
-/
namespace SuperAi.Wallets
open SuperAi.Auth
set_option autoImplicit false

def GAS_BUFFER : ℚ := 3 / 2

def SOL_RESERVE : ℚ := 2 / 1000

/-! ## Input and surroundings -/

structure CollectInput where
  userId : String
  fromWalletIds : Option (List String) := none
  toWalletId : String
  chainKey : Option String := none
  leaveBehind : Option ℚ := none
  confirm : Bool := false
  deriving DecidableEq, Repr

structure WalletRow where
  id : String
  userId : String
  address : String
  label : Option String
  chain : Chain
  deriving DecidableEq, Repr

/-- `getFeeData`; the fields that a chain does not have are null. -/
structure FeeData where
  maxFeePerGas : Option ℕ
  gasPrice : Option ℕ
  deriving DecidableEq, Repr

/-- The wallets are in the order of their creation. An answer is `none` where it is an error, or where the
service is not there. -/
structure CollectEnv where
  wallets : List WalletRow
  resolveChain : String → Option ChainSpec
  solana : ChainSpec
  ethereum : ChainSpec
  nativePrice : ChainSpec → Option ℚ
  feeData : ChainSpec → Option FeeData
  nativeBalance : ChainSpec → String → Option ℚ
  checkLiveWithdraw : Except String Unit

def familyName : Chain → String
  | .SOLANA => "SOLANA"
  | .EVM => "EVM"

/-- Without a network the family decides, and an EVM wallet is taken to be on Ethereum. -/
def resolveSpec (env : CollectEnv) (chainKey : Option String) (family : Chain) : Except String ChainSpec :=
  match chainKey.filter (· ≠ "") with
  | some key =>
    match env.resolveChain key with
    | none => .error ("Unknown network '" ++ key ++ "'")
    | some spec =>
      if spec.family = family then .ok spec
      else .error ("Network '" ++ spec.key ++ "' is " ++ familyName spec.family ++ " but the wallet is " ++
        familyName family)
  | none => .ok (match family with | .SOLANA => env.solana | .EVM => env.ethereum)

structure ResolvedCollect where
  spec : ChainSpec
  target : WalletRow
  sources : List WalletRow
  deriving DecidableEq, Repr

/-- The wallets with the given ids, or all but the target; the target is left out in both cases. -/
def resolveCollect (env : CollectEnv) (input : CollectInput) : Except String ResolvedCollect :=
  match env.wallets.find? fun w : WalletRow => w.id = input.toWalletId ∧ w.userId = input.userId with
  | none => .error "Destination wallet not found"
  | some target => do
    let spec ← resolveSpec env input.chainKey target.chain
    let owned := env.wallets.filter fun w : WalletRow => w.userId = input.userId ∧ w.chain = spec.family
    let sources :=
      match input.fromWalletIds.filter (· ≠ []) with
      | some ids => owned.filter fun w : WalletRow => w.id ∈ ids
      | none => owned
    pure ⟨spec, target, sources.filter fun w : WalletRow => w.id ≠ target.id⟩

/-! ## Fees and reserves -/

/-- `fee.maxFeePerGas ?? fee.gasPrice ?? 0n`. -/
def FeeData.price (fee : FeeData) : ℕ := fee.maxFeePerGas.getD (fee.gasPrice.getD 0)

/-- An estimate that fails is replaced by a pessimistic constant. -/
def estimateFee (env : CollectEnv) (spec : ChainSpec) : ℚ :=
  match spec.family with
  | .SOLANA => 5 / 1000000
  | .EVM =>
    match env.feeData spec with
    | some fee => ((fee.price * 21000 : ℕ) : ℚ) / 10 ^ spec.nativeDecimals
    | none => 5 / 10000

def defaultReserve (spec : ChainSpec) (feePer : ℚ) : ℚ :=
  match spec.family with
  | .SOLANA => SOL_RESERVE
  | .EVM => feePer * GAS_BUFFER

def reserveOf (input : CollectInput) (spec : ChainSpec) (feePer : ℚ) : ℚ :=
  input.leaveBehind.getD (defaultReserve spec feePer)

def balanceOf (env : CollectEnv) (spec : ChainSpec) (wallet : WalletRow) : ℚ :=
  (env.nativeBalance spec wallet.address).getD 0

/-! ## Plans -/

inductive BlockReason
  | emptyWallet
  | belowReserve (balance reserve : ℚ) (nativeSymbol : String)
  deriving DecidableEq, Repr

structure TransferPlanRow where
  walletId : String
  address : String
  label : Option String
  amount : ℚ
  balanceBefore : ℚ
  estimatedFee : ℚ
  usdValue : ℚ
  blocked : Option BlockReason
  deriving DecidableEq, Repr

structure TransferPlan where
  spec : ChainSpec
  toWalletId : String
  toAddress : String
  rows : List TransferPlanRow
  totalAmount : ℚ
  totalFees : ℚ
  totalUsd : ℚ
  actionable : ℕ
  blocked : ℕ
  fatal : Option String
  deriving DecidableEq, Repr

def planRow (spec : ChainSpec) (price feePer reserve balance : ℚ) (wallet : WalletRow) : TransferPlanRow where
  walletId := wallet.id
  address := wallet.address
  label := wallet.label
  amount := max 0 (balance - reserve)
  balanceBefore := balance
  estimatedFee := feePer
  usdValue := max 0 (balance - reserve) * price
  blocked :=
    if balance - reserve ≤ 0 then
      if balance ≤ 0 then some .emptyWallet else some (.belowReserve balance reserve spec.nativeSymbol)
    else none

/-- The rows that are not blocked. -/
def actionableRows (rows : List TransferPlanRow) : List TransferPlanRow := rows.filter fun r => r.blocked.isNone

def planRows (env : CollectEnv) (input : CollectInput) (r : ResolvedCollect) : List TransferPlanRow :=
  let feePer := estimateFee env r.spec
  r.sources.map fun s => planRow r.spec ((env.nativePrice r.spec).getD 0) feePer (reserveOf input r.spec feePer)
    (balanceOf env r.spec s) s

def planCollect (env : CollectEnv) (input : CollectInput) : Except String TransferPlan := do
  let r ← resolveCollect env input
  let rows := planRows env input r
  let actionable := actionableRows rows
  pure
    { spec := r.spec
      toWalletId := r.target.id
      toAddress := r.target.address
      rows
      totalAmount := (actionable.map TransferPlanRow.amount).sum
      totalFees := actionable.length * estimateFee env r.spec
      totalUsd := (actionable.map TransferPlanRow.usdValue).sum
      actionable := actionable.length
      blocked := rows.length - actionable.length
      fatal :=
        if actionable.length = 0 then
          some "Nothing to collect — every wallet is empty or below the gas reserve"
        else none }

/-! ## Execution -/

def TransferPlan.jobs (plan : TransferPlan) : List TransferJob :=
  (actionableRows plan.rows).map fun r =>
    { fromWalletId := r.walletId, toAddress := plan.toAddress, toWalletId := plan.toWalletId, amount := r.amount }

structure CollectResult where
  plan : TransferPlan
  results : List Attempt
  summary : Summary
  deriving DecidableEq, Repr

def TransferPlan.run (plan : TransferPlan) (rpc : ℕ → RpcAnswer) : Except String CollectResult := do
  let results ← runTransfers plan.spec plan.jobs rpc
  pure ⟨plan, results, summarize (results.map Attempt.row)⟩

/-- The plan is made again; the audit row never makes the call fail. -/
def executeCollect (env : CollectEnv) (input : CollectInput) (rpc : ℕ → RpcAnswer) : Except String CollectResult := do
  if input.confirm = false then
    throw "Refusing to move funds without confirm: true — call the plan endpoint first"
  env.checkLiveWithdraw
  let plan ← planCollect env input
  match plan.fatal with
  | some fatal => throw fatal
  | none => plan.run rpc

end SuperAi.Wallets
