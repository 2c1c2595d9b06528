import SuperAi.Foundations.Base64

/-! # Envelope encryption (`wallets/kms.service.ts`)

Each call of `encrypt` seals its plaintext under a data key of its own, which travels beside it, wrapped by
AWS KMS or, where that is not configured, under a key from the environment. The ciphers, the hash and AWS
are parameters; what a call draws (data key, initialization vectors) is an argument.
-/
namespace SuperAi.Wallets
open SuperAi.Foundations
set_option autoImplicit false

/-- `node:crypto` and the KMS client. AES-256-GCM gives a tag and a ciphertext; `none` is a thrown error. -/
structure Crypto where
  gcmSeal (key iv plaintext : List UInt8) : List UInt8 × List UInt8
  gcmOpen (key iv tag ciphertext : List UInt8) : Option (List UInt8)
  sha256 (text : String) : List UInt8
  kmsDecrypt (blob : List UInt8) : Option (List UInt8)

/-- The service with what it reads from the environment. -/
structure KmsService where
  crypto : Crypto
  kms : Bool
  isTestnet : Bool
  allowUnsafeLocalKms : Bool
  jwtSecret : Option String

structure EnvelopeCiphertext where
  ciphertext : String
  encryptedDek : String
  deriving DecidableEq, Repr

/-- What a call draws: its data key, which AWS gives together with `blob`, and the vectors. -/
structure EncryptDraw where
  dataKey : List UInt8
  blob : List UInt8
  wrapIv : List UInt8
  iv : List UInt8
  deriving DecidableEq, Repr

namespace Crypto
variable (crypto : Crypto)

/-- Vector, tag and ciphertext as one text. -/
def pack (key iv plaintext : List UInt8) : String :=
  let (tag, enc) := crypto.gcmSeal key iv plaintext
  toBase64 (iv ++ tag ++ enc)

def unpack (key : List UInt8) (text : String) : Option (List UInt8) :=
  let buf := fromBase64 text
  crypto.gcmOpen key (buf.take 12) ((buf.drop 12).take 16) (buf.drop 28)

theorem unpack_pack {key key' iv plaintext : List UInt8} (hiv : iv.length = 12)
    (htag : (crypto.gcmSeal key iv plaintext).1.length = 16) :
    crypto.unpack key' (crypto.pack key iv plaintext) =
      crypto.gcmOpen key' iv (crypto.gcmSeal key iv plaintext).1 (crypto.gcmSeal key iv plaintext).2 := by
  simp only [unpack, pack, fromBase64_toBase64, List.append_assoc]
  rw [List.take_left' hiv, List.drop_left' hiv, List.take_left' htag]
  have hlength : (iv ++ (crypto.gcmSeal key iv plaintext).1).length = 28 := by
    rw [List.length_append, hiv, htag]
  rw [← List.append_assoc, List.drop_left' hlength]

end Crypto

namespace KmsService
variable (s : KmsService)

def masterKey : List UInt8 := s.crypto.sha256 (s.jwtSecret.getD "dev")

def localWrap (key wrapIv : List UInt8) : String := s.crypto.pack s.masterKey wrapIv key

def localUnwrap (b64 : String) : Option (List UInt8) := s.crypto.unpack s.masterKey b64

def generateDataKey (draw : EncryptDraw) : Except String (List UInt8 × String) :=
  if s.kms then .ok (draw.dataKey, toBase64 draw.blob)
  else if !s.isTestnet && !s.allowUnsafeLocalKms then
    .error "[KMS] Refused to generate data key: mainnet without AWS_KMS_KEY_ID"
  else .ok (draw.dataKey, s.localWrap draw.dataKey draw.wrapIv)

def unwrapDataKey (encryptedDek : String) : Except String (List UInt8) :=
  if s.kms then
    match s.crypto.kmsDecrypt (fromBase64 encryptedDek) with
    | some key => .ok key
    | none => .error "InvalidCiphertextException"
  else
    match s.localUnwrap encryptedDek with
    | some key => .ok key
    | none => .error "Unsupported state or unable to authenticate data"

def encrypt (draw : EncryptDraw) (plaintext : List UInt8) : Except String EnvelopeCiphertext := do
  let (dataKey, encryptedDek) ← s.generateDataKey draw
  return { ciphertext := s.crypto.pack dataKey draw.iv plaintext, encryptedDek }

def decrypt (envelope : EnvelopeCiphertext) : Except String (List UInt8) := do
  let dataKey ← s.unwrapDataKey envelope.encryptedDek
  match s.crypto.unpack dataKey envelope.ciphertext with
  | some plaintext => return plaintext
  | none => throw "Unsupported state or unable to authenticate data"

/-! ## Decryption of what was encrypted -/

/-- A call of `encrypt`. -/
abbrev Encryption := EncryptDraw × List UInt8

/-- What the first call has sealed does not come open with the data key of the second one. -/
def ClosedTo (a b : Encryption) : Prop :=
  ∀ ea eb, s.encrypt a.1 a.2 = .ok ea → s.encrypt b.1 b.2 = .ok eb →
    ∃ message, s.decrypt { ciphertext := ea.ciphertext, encryptedDek := eb.encryptedDek } = .error message

/-- `decrypt` gives back the plaintext of each of these calls for the ciphertext and the encrypted data key
of the call, and throws for the ciphertext of one and the encrypted data key of another. -/
structure ExactOn (calls : List Encryption) : Prop where
  own : ∀ a ∈ calls, ∀ envelope, s.encrypt a.1 a.2 = .ok envelope → s.decrypt envelope = .ok a.2
  other : calls.Pairwise fun a b => s.ClosedTo a b ∧ s.ClosedTo b a

/-- The tag and the ciphertext of a call. -/
def sealed (a : Encryption) : List UInt8 × List UInt8 := s.crypto.gcmSeal a.1.dataKey a.1.iv a.2

/-- What the ciphers do on these calls: vectors and tags have their lengths, each data key can be unwrapped and
opens what it has sealed, and no data key opens what another one has sealed. -/
structure SoundOn (calls : List Encryption) : Prop where
  iv : ∀ a ∈ calls, a.1.iv.length = 12
  tag : ∀ a ∈ calls, (s.sealed a).1.length = 16
  unwraps : ∀ a ∈ calls, ∀ dek, s.generateDataKey a.1 = .ok (a.1.dataKey, dek) →
    s.unwrapDataKey dek = .ok a.1.dataKey
  opens : ∀ a ∈ calls, s.crypto.gcmOpen a.1.dataKey a.1.iv (s.sealed a).1 (s.sealed a).2 = some a.2
  apart : calls.Pairwise fun a b =>
    s.crypto.gcmOpen b.1.dataKey a.1.iv (s.sealed a).1 (s.sealed a).2 = none ∧
      s.crypto.gcmOpen a.1.dataKey b.1.iv (s.sealed b).1 (s.sealed b).2 = none

variable {s} {calls : List Encryption} {a b : Encryption}

theorem encrypt_eq_ok {draw : EncryptDraw} {plaintext : List UInt8} {envelope : EnvelopeCiphertext}
    (h : s.encrypt draw plaintext = .ok envelope) :
    s.generateDataKey draw = .ok (draw.dataKey, envelope.encryptedDek) ∧
      envelope.ciphertext = s.crypto.pack draw.dataKey draw.iv plaintext := by
  unfold encrypt generateDataKey at h
  unfold generateDataKey
  by_cases hkms : s.kms = true
  · simp only [hkms, if_true] at h ⊢
    cases h
    exact ⟨rfl, rfl⟩
  · by_cases hrefused : (!s.isTestnet && !s.allowUnsafeLocalKms) = true
    · simp only [hkms, hrefused, if_true] at h
      cases h
    · simp only [hkms, hrefused] at h ⊢
      cases h
      exact ⟨rfl, rfl⟩

/-- The ciphertext of one call with the encrypted data key of one. -/
theorem SoundOn.decrypt (h : s.SoundOn calls) (ha : a ∈ calls) (hb : b ∈ calls) {ea eb : EnvelopeCiphertext}
    (hea : s.encrypt a.1 a.2 = .ok ea) (heb : s.encrypt b.1 b.2 = .ok eb) :
    s.decrypt { ciphertext := ea.ciphertext, encryptedDek := eb.encryptedDek } =
      (s.crypto.gcmOpen b.1.dataKey a.1.iv (s.sealed a).1 (s.sealed a).2).elim
        (.error "Unsupported state or unable to authenticate data") .ok := by
  have hkey : s.unwrapDataKey eb.encryptedDek = .ok b.1.dataKey := h.unwraps b hb _ (encrypt_eq_ok heb).1
  have hopen : s.crypto.unpack b.1.dataKey ea.ciphertext =
      s.crypto.gcmOpen b.1.dataKey a.1.iv (s.sealed a).1 (s.sealed a).2 := by
    rw [(encrypt_eq_ok hea).2]
    exact s.crypto.unpack_pack (h.iv a ha) (h.tag a ha)
  rw [← hopen]
  simp only [KmsService.decrypt, hkey]
  cases hunpack : s.crypto.unpack b.1.dataKey ea.ciphertext with
  | none => simp [hunpack, Bind.bind, Except.bind, throw, throwThe, MonadExceptOf.throw]
  | some plaintext => simp [hunpack, Bind.bind, Except.bind, pure, Except.pure]

theorem SoundOn.exactOn (h : s.SoundOn calls) : s.ExactOn calls := by
  constructor
  · intro a ha envelope henvelope
    have hdecrypt := h.decrypt ha ha henvelope henvelope
    rw [h.opens a ha] at hdecrypt
    exact hdecrypt
  · refine List.Pairwise.imp_of_mem (fun {a b} ha hb hapart => ⟨?_, ?_⟩) h.apart
    · intro ea eb hea heb
      have hdecrypt := h.decrypt ha hb hea heb
      rw [hapart.1] at hdecrypt
      exact ⟨_, hdecrypt⟩
    · intro eb ea heb hea
      have hdecrypt := h.decrypt hb ha heb hea
      rw [hapart.2] at hdecrypt
      exact ⟨_, hdecrypt⟩

end KmsService
end SuperAi.Wallets
