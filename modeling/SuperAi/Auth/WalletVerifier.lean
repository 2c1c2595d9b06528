import Mathlib.Tactic.Basic

/-! # Wallet signatures over sign-in challenges

`WalletVerifier.verify` and `WalletVerifier.challenge` (`auth/wallet-verifier.ts`). The base58
decoder, the Ed25519 verifier and `ethers.verifyMessage` come from packages outside the
repository, so they are fields of a `SignatureScheme`, together with what sign-in relies on: a
signature that verifies was made by the private key behind the public key it verifies under.
-/
namespace SuperAi.Auth
set_option autoImplicit false

inductive Chain
  | SOLANA
  | EVM
  deriving DecidableEq, Repr

def encode (message : String) : List UInt8 := message.toUTF8.toList

/-- The signature packages. `none` is a thrown error; `SolanaSigned k m s` says that the signature
string `s` was made by the private key `k` over the message `m`, and `EvmSigned` likewise. -/
structure SignatureScheme where
  SolanaKey : Type
  EvmKey : Type
  bs58decode : String → Option (List UInt8)
  naclVerify : List UInt8 → List UInt8 → List UInt8 → Option Bool
  verifyMessage : String → String → Option String
  publicKey : SolanaKey → List UInt8
  address : EvmKey → String
  SolanaSigned : SolanaKey → String → String → Prop
  EvmSigned : EvmKey → String → String → Prop
  nacl_unforgeable : ∀ (message signature : String) (sig pub : List UInt8),
    bs58decode signature = some sig → naclVerify (encode message) sig pub = some true →
      ∃ k, publicKey k = pub ∧ SolanaSigned k message signature
  ethers_unforgeable : ∀ message signature recovered : String,
    verifyMessage message signature = some recovered →
      ∃ k, address k = recovered ∧ EvmSigned k message signature

def challenge (nonce : String) : String := "QWAI Sign-In\nNonce: " ++ nonce

namespace SignatureScheme
variable (scheme : SignatureScheme)

/-- `WalletVerifier.verify`; every thrown error is caught and answers `false`. -/
def verify (chain : Chain) (address nonce signature : String) : Bool :=
  match chain with
  | .SOLANA =>
    match scheme.bs58decode signature, scheme.bs58decode address with
    | some sig, some pub => (scheme.naclVerify (encode (challenge nonce)) sig pub).getD false
    | _, _ => false
  | .EVM =>
    match scheme.verifyMessage (challenge nonce) signature with
    | some recovered => recovered.toLower == address.toLower
    | none => false

/-- Two address strings name one wallet of the chain: base58 of the same public key on Solana,
the same hexadecimal address up to letter case on EVM chains. -/
def SameWallet (chain : Chain) (a b : String) : Prop :=
  match chain with
  | .SOLANA => scheme.bs58decode a = scheme.bs58decode b
  | .EVM => a.toLower = b.toLower

instance (chain : Chain) (a b : String) : Decidable (scheme.SameWallet chain a b) :=
  match chain with
  | .SOLANA => inferInstanceAs (Decidable (scheme.bs58decode a = scheme.bs58decode b))
  | .EVM => inferInstanceAs (Decidable (a.toLower = b.toLower))

/-- The signature was made over this nonce's challenge by the private key of `wallet`. -/
def SignedByOwner (wallet nonce signature : String) : Prop :=
  (∃ k, scheme.bs58decode wallet = some (scheme.publicKey k) ∧
    scheme.SolanaSigned k (challenge nonce) signature) ∨
  ∃ k, (scheme.address k).toLower = wallet.toLower ∧
    scheme.EvmSigned k (challenge nonce) signature

theorem verify_solana {address nonce signature : String}
    (h : scheme.verify .SOLANA address nonce signature = true) :
    ∃ k, scheme.bs58decode address = some (scheme.publicKey k) ∧
      scheme.SolanaSigned k (challenge nonce) signature := by
  simp only [verify] at h
  split at h
  · rename_i sig pub hsig hpub
    cases hv : scheme.naclVerify (encode (challenge nonce)) sig pub with
    | none => simp [hv] at h
    | some b =>
      obtain rfl : b = true := by simpa [hv] using h
      obtain ⟨k, hk, hs⟩ := scheme.nacl_unforgeable _ _ _ _ hsig hv
      exact ⟨k, by rw [hpub, hk], hs⟩
  · simp at h

theorem verify_evm {address nonce signature : String}
    (h : scheme.verify .EVM address nonce signature = true) :
    ∃ k, (scheme.address k).toLower = address.toLower ∧
      scheme.EvmSigned k (challenge nonce) signature := by
  simp only [verify] at h
  split at h
  · rename_i recovered hrec
    obtain ⟨k, hk, hs⟩ := scheme.ethers_unforgeable _ _ _ hrec
    exact ⟨k, by rw [hk]; exact beq_iff_eq.mp h, hs⟩
  · simp at h

/-- What an accepted signature proves: the key of every wallet that the request's address names
made it over the challenge. It says nothing about any other address. -/
theorem verify_signedByOwner {chain : Chain} {address wallet nonce signature : String}
    (h : scheme.verify chain address nonce signature = true)
    (hw : scheme.SameWallet chain address wallet) :
    scheme.SignedByOwner wallet nonce signature := by
  cases chain with
  | SOLANA =>
    obtain ⟨k, hk, hs⟩ := scheme.verify_solana h
    have hdec : scheme.bs58decode address = scheme.bs58decode wallet := hw
    exact .inl ⟨k, by rw [← hdec, hk], hs⟩
  | EVM =>
    obtain ⟨k, hk, hs⟩ := scheme.verify_evm h
    have hlow : address.toLower = wallet.toLower := hw
    exact .inr ⟨k, by rw [hk, hlow], hs⟩

end SignatureScheme
end SuperAi.Auth
