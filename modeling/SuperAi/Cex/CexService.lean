import SuperAi.Wallets.KmsService

/-! # Exchange connections (`cex/cex.service.ts`)

`connect` seals an API key and a secret and keeps them in the one row of the user and the exchange;
`fetchBalance` opens them again and asks the exchange. The request to the exchange stands for what is done
with them there.
-/
namespace SuperAi.Cex
open SuperAi.Wallets
set_option autoImplicit false

inductive Exchange
  | BINANCE
  | BYBIT
  | OKX
  deriving DecidableEq, Repr

structure CexConnection where
  userId : String
  exchange : Exchange
  encryptedApiKey : String
  encryptedSecret : String
  encryptedDek : String
  deriving DecidableEq, Repr

/-- A call of `connect` with what its two encryptions draw. -/
structure ConnectCall where
  userId : String
  exchange : Exchange
  apiKey : String
  secret : String
  passphrase : Option String
  keyDraw : EncryptDraw
  secretDraw : EncryptDraw
  deriving DecidableEq, Repr

/-- `Buffer.from(s)`. -/
def bufferFrom (s : String) : List UInt8 := s.toUTF8.toList

/-- An absent passphrase and an empty one are not joined. -/
def secretPayload (secret : String) (passphrase : Option String) : String :=
  match passphrase with
  | some passphrase => if passphrase = "" then secret else secret ++ "::" ++ passphrase
  | none => secret

/-- `s.split('::')`. -/
def splitColons : List Char → List (List Char)
  | [] => [[]]
  | ':' :: ':' :: rest => [] :: splitColons rest
  | c :: rest =>
    match splitColons rest with
    | [] => [[c]]
    | word :: words => (c :: word) :: words

/-- The credentials with which an exchange is asked. -/
inductive BalanceRequest
  | binanceBalances (apiKey secret : String)
  | bybitBalances (apiKey secret : String)
  | okxBalances (apiKey secret passphrase : String)
  deriving DecidableEq, Repr

/-- The service, with the decoding of a buffer by `toString`. -/
structure CexService where
  kms : KmsService
  bufferToString : List UInt8 → String

namespace CexService
variable (service : CexService)

def connect (connections : List CexConnection) (call : ConnectCall) : Except String (List CexConnection) := do
  let k ← service.kms.encrypt call.keyDraw (bufferFrom call.apiKey)
  let s ← service.kms.encrypt call.secretDraw (bufferFrom (secretPayload call.secret call.passphrase))
  if connections.any fun c => c.userId == call.userId && c.exchange == call.exchange then
    return connections.map fun c =>
      if c.userId == call.userId && c.exchange == call.exchange then
        { c with encryptedApiKey := k.ciphertext, encryptedSecret := s.ciphertext, encryptedDek := k.encryptedDek }
      else c
  else
    return connections ++ [{
      userId := call.userId
      exchange := call.exchange
      encryptedApiKey := k.ciphertext
      encryptedSecret := s.ciphertext
      encryptedDek := k.encryptedDek }]

/-- Calls one after another; one that throws leaves the rows. -/
def connectAll (connections : List CexConnection) : List ConnectCall → List CexConnection
  | [] => connections
  | call :: calls =>
    match service.connect connections call with
    | .ok connections' => connectAll connections' calls
    | .error _ => connectAll connections calls

def fetchBalance (conn : CexConnection) : Except String BalanceRequest := do
  let apiKey ← service.kms.decrypt { ciphertext := conn.encryptedApiKey, encryptedDek := conn.encryptedDek }
  let secretRaw ← service.kms.decrypt { ciphertext := conn.encryptedSecret, encryptedDek := conn.encryptedDek }
  match conn.exchange with
  | .BINANCE => return .binanceBalances (service.bufferToString apiKey) (service.bufferToString secretRaw)
  | .BYBIT => return .bybitBalances (service.bufferToString apiKey) (service.bufferToString secretRaw)
  | .OKX =>
    match splitColons (service.bufferToString secretRaw).toList with
    | secret :: passphrase :: _ =>
      return .okxBalances (service.bufferToString apiKey) (String.ofList secret) (String.ofList passphrase)
    | [secret] => return .okxBalances (service.bufferToString apiKey) (String.ofList secret) ""
    | [] => return .okxBalances (service.bufferToString apiKey) "" ""

end CexService
end SuperAi.Cex
