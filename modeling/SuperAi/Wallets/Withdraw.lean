import SuperAi.Wallets.WalletsService
import SuperAi.Wallets.BulkTransfers
import SuperAi.Wallets.KmsService
import SuperAi.Guardrails.LiveTradeGuard
import SuperAi.Foundations.JsonNumber

/-! # Withdrawals (`WalletsService.withdraw`)

A withdrawal passes the rate limit, opens the key of the wallet, sends a transaction and writes the audit log.
The chains' libraries are parameters, and what the node and the database answer is an argument; `broadcast`
says what becomes of the transaction, as for bulk transfers.
-/
namespace SuperAi.Wallets
open SuperAi.Auth SuperAi.Foundations SuperAi.Guardrails
set_option autoImplicit false

/-- The body of the request, with the bound that is validated. -/
structure WithdrawDto where
  toAddress : String
  tokenMint : String
  amount : JsNumber
  amount_nonneg : 0 ≤ amount.toRat

inductive Asset
  | native
  | token (id : String)
  deriving DecidableEq, Repr

/-- What a transaction moves, in units of its asset. -/
structure Transfer where
  sender : String
  recipient : String
  asset : Asset
  units : ℤ
  deriving DecidableEq, Repr

/-- The key store, the address of a secret key, and `ethers.parseEther`, which can throw. -/
structure WithdrawEnv where
  kms : KmsService
  addressOf : Chain → List UInt8 → String
  parseEther : List Char → Except String ℤ

/-- What the node answers, and the database to the audit row. -/
structure WithdrawAnswers where
  prepare : Except String Unit := .ok ()
  submit : SubmitAnswer
  confirm : ConfirmAnswer
  audit : Except String Unit := .ok ()
  deriving DecidableEq

def WithdrawAnswers.rpc (answers : WithdrawAnswers) : RpcAnswer :=
  { prepare := answers.prepare, submit := answers.submit, confirm := answers.confirm }

/-- A sender's answer, the transfer that it has signed and the fate of it. -/
structure Sent where
  answer : Except String String
  transfer : Option Transfer
  broadcast : Broadcast

def send (answers : WithdrawAnswers) (transfer : Transfer) : Sent where
  answer := (sendNative answers.rpc).1
  transfer := some transfer
  broadcast := (sendNative answers.rpc).2

inductive WithdrawError
  | guard (e : GuardError)
  | forbidden
  | failed (message : String)
  deriving DecidableEq, Repr

/-- The row with the action `wallet.withdraw`. -/
structure WithdrawAudit where
  userId : String
  action : String
  target : String
  toAddress : String
  tokenMint : String
  amount : JsNumber
  txHash : String
  deriving DecidableEq

structure WithdrawOutcome where
  answer : Except WithdrawError (String × Chain)
  withdrawBuckets : Buckets
  transfer : Option Transfer := none
  broadcast : Broadcast := .nothing
  auditLog : Option WithdrawAudit := none

def findWallet (wallets : List Wallet) (userId : String) (walletId : ℕ) : Option Wallet :=
  wallets.find? fun w => w.id == walletId && w.userId == userId

namespace WithdrawEnv
variable (env : WithdrawEnv) (answers : WithdrawAnswers)

def openKey (wallet : Wallet) : Except String (List UInt8) :=
  env.kms.decrypt { ciphertext := wallet.encryptedKey, encryptedDek := wallet.encryptedDek }

def withdrawSolana (secret : List UInt8) (toAddress _mint : String) (amount : JsNumber) : Sent :=
  send answers
    { sender := env.addressOf .SOLANA secret, recipient := toAddress, asset := .native
      units := ⌊amount.toRat * 1000000000 + 1 / 2⌋ }

def withdrawEvm (secret : List UInt8) (toAddress _tokenAddress : String) (amount : JsNumber) : Sent :=
  match env.parseEther amount.text with
  | .error e => { answer := .error e, transfer := none, broadcast := .nothing }
  | .ok value =>
    send answers { sender := env.addressOf .EVM secret, recipient := toAddress, asset := .native, units := value }

def sendFrom (wallet : Wallet) (key : List UInt8) (dto : WithdrawDto) : Sent :=
  match wallet.chain with
  | .SOLANA => env.withdrawSolana answers key dto.toAddress dto.tokenMint dto.amount
  | .EVM => env.withdrawEvm answers key dto.toAddress dto.tokenMint dto.amount

/-- The rest of the `try` once the sender has answered: an error of its own or of the audit row is thrown. -/
def recordWithdraw (buckets : Buckets) (userId : String) (wallet : Wallet) (dto : WithdrawDto) (sent : Sent) :
    WithdrawOutcome :=
  match sent.answer, answers.audit with
  | .error e, _ | .ok _, .error e =>
    { answer := .error (.failed e), withdrawBuckets := buckets, transfer := sent.transfer, broadcast := sent.broadcast }
  | .ok txHash, .ok () =>
    { answer := .ok (txHash, wallet.chain), withdrawBuckets := buckets, transfer := sent.transfer
      broadcast := sent.broadcast
      auditLog := some
        { userId, action := "wallet.withdraw", target := wallet.address, toAddress := dto.toAddress
          tokenMint := dto.tokenMint, amount := dto.amount, txHash } }

def withdraw (wallets : List Wallet) (buckets : Buckets) (now : ℤ) (userId : String) (walletId : ℕ)
    (dto : WithdrawDto) : WithdrawOutcome :=
  match hitRate buckets userId now WITHDRAW_WINDOW_MS WITHDRAW_MAX .withdraw with
  | (.error e, buckets) => { answer := .error (.guard e), withdrawBuckets := buckets }
  | (.ok (), buckets) =>
    match findWallet wallets userId walletId with
    | none => { answer := .error .forbidden, withdrawBuckets := buckets }
    | some wallet =>
      match env.openKey wallet with
      | .error e => { answer := .error (.failed e), withdrawBuckets := buckets }
      | .ok key => recordWithdraw answers buckets userId wallet dto (env.sendFrom answers wallet key dto)

end WithdrawEnv

/-! ## The transaction of a sender -/

/-- The chain's integer amount of the coins; ether that cannot be parsed has none. -/
def WithdrawEnv.unitsOf (env : WithdrawEnv) (chain : Chain) (amount : JsNumber) : Except String ℤ :=
  match chain with
  | .SOLANA => .ok ⌊amount.toRat * 1000000000 + 1 / 2⌋
  | .EVM => env.parseEther amount.text

/-- The transfer that both senders sign: coins of the chain. -/
def WithdrawEnv.coins (env : WithdrawEnv) (wallet : Wallet) (key : List UInt8) (dto : WithdrawDto) (units : ℤ) :
    Transfer where
  sender := env.addressOf wallet.chain key
  recipient := dto.toAddress
  asset := .native
  units := units

theorem sendFrom_eq (env : WithdrawEnv) (answers : WithdrawAnswers) (wallet : Wallet) (key : List UInt8)
    (dto : WithdrawDto) :
    env.sendFrom answers wallet key dto =
      match env.unitsOf wallet.chain dto.amount with
      | .error e => { answer := .error e, transfer := none, broadcast := .nothing }
      | .ok units => send answers (env.coins wallet key dto units) := by
  unfold WithdrawEnv.sendFrom WithdrawEnv.unitsOf WithdrawEnv.coins
  cases wallet.chain with
  | SOLANA => rfl
  | EVM =>
    dsimp only
    unfold WithdrawEnv.withdrawEvm
    cases env.parseEther dto.amount.text with
    | error e => rfl
    | ok value => rfl

end SuperAi.Wallets
