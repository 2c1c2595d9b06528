import SuperAi.Cex.CexService

/-! # Stored credentials are not recovered

The row of a connection has one column for an encrypted data key, and `connect` puts that of the API key
into it. The secret was sealed under another data key, so that `fetchBalance` throws for every row
(`credentials_lost`), whatever the exchange and the credentials.
-/
namespace SuperAi.Cex
open SuperAi.Wallets SuperAi.Wallets.KmsService SuperAi.Foundations
set_option autoImplicit false

/-- The request with the credentials that were given to the call. -/
def ConnectCall.request (call : ConnectCall) : BalanceRequest :=
  match call.exchange with
  | .BINANCE => .binanceBalances call.apiKey call.secret
  | .BYBIT => .bybitBalances call.apiKey call.secret
  | .OKX => .okxBalances call.apiKey call.secret (call.passphrase.getD "")

/-- The encryptions of a call: the API key, then the secret. -/
def ConnectCall.encryptions (call : ConnectCall) : List Encryption :=
  [(call.keyDraw, bufferFrom call.apiKey),
    (call.secretDraw, bufferFrom (secretPayload call.secret call.passphrase))]

/-- No later call is for the same user and exchange. -/
def LastConnect (calls : List ConnectCall) (call : ConnectCall) : Prop :=
  ∃ before after, calls = before ++ call :: after ∧
    ∀ c ∈ after, ¬ (c.userId = call.userId ∧ c.exchange = call.exchange)

/-- The row of the user and the exchange gives back the credentials of the call. -/
def Recovered (service : CexService) (connections : List CexConnection) (call : ConnectCall) : Prop :=
  ∃ conn ∈ connections, conn.userId = call.userId ∧ conn.exchange = call.exchange ∧
    service.fetchBalance conn = .ok call.request

/-- The row holds the secret of a call beside the data key of its API key. -/
def StoredBy (service : CexService) (call : ConnectCall) (conn : CexConnection) : Prop :=
  ∃ k s, service.kms.encrypt call.keyDraw (bufferFrom call.apiKey) = .ok k ∧
    service.kms.encrypt call.secretDraw (bufferFrom (secretPayload call.secret call.passphrase)) = .ok s ∧
    conn.encryptedSecret = s.ciphertext ∧ conn.encryptedDek = k.encryptedDek

variable {service : CexService} {calls : List ConnectCall}

theorem connect_stores {connections connections' : List CexConnection} {call : ConnectCall}
    (h : service.connect connections call = .ok connections') :
    ∀ conn ∈ connections', conn ∈ connections ∨ StoredBy service call conn := by
  unfold CexService.connect at h
  cases hk : service.kms.encrypt call.keyDraw (bufferFrom call.apiKey) with
  | error message =>
    rw [hk] at h
    cases h
  | ok k =>
    rw [hk] at h
    cases hs : service.kms.encrypt call.secretDraw (bufferFrom (secretPayload call.secret call.passphrase)) with
    | error message =>
      rw [hs] at h
      cases h
    | ok s =>
      rw [hs] at h
      simp only [Bind.bind, Except.bind, pure, Except.pure] at h
      intro conn hconn
      split at h
      · obtain rfl := Except.ok.inj h
        obtain ⟨old, hold, rfl⟩ := List.mem_map.mp hconn
        split
        · exact .inr ⟨k, s, hk, hs, rfl, rfl⟩
        · exact .inl hold
      · obtain rfl := Except.ok.inj h
        rcases List.mem_append.mp hconn with hold | hnew
        · exact .inl hold
        · obtain rfl := List.mem_singleton.mp hnew
          exact .inr ⟨k, s, hk, hs, rfl, rfl⟩

theorem connectAll_stores (connections : List CexConnection) :
    ∀ conn ∈ service.connectAll connections calls,
      conn ∈ connections ∨ ∃ call ∈ calls, StoredBy service call conn := by
  induction calls generalizing connections with
  | nil => exact fun conn hconn => .inl hconn
  | cons call calls ih =>
    intro conn hconn
    unfold CexService.connectAll at hconn
    cases hconnect : service.connect connections call with
    | error message =>
      rw [hconnect] at hconn
      exact (ih connections conn hconn).imp_right fun ⟨c, hc, hstored⟩ => ⟨c, List.mem_cons_of_mem call hc, hstored⟩
    | ok connections' =>
      rw [hconnect] at hconn
      rcases ih connections' conn hconn with hold | ⟨c, hc, hstored⟩
      · rcases connect_stores hconnect conn hold with hold | hstored
        · exact .inl hold
        · exact .inr ⟨call, List.mem_cons_self, hstored⟩
      · exact .inr ⟨c, List.mem_cons_of_mem call hc, hstored⟩

theorem fetchBalance_throws (hexact : service.kms.ExactOn (calls.flatMap ConnectCall.encryptions)) {call : ConnectCall}
    (hcall : call ∈ calls) {conn : CexConnection} (hstored : StoredBy service call conn) :
    ∃ message, service.fetchBalance conn = .error message := by
  obtain ⟨k, s, hk, hs, hsecret, hdek⟩ := hstored
  -- the two encryptions of the call are two calls
  have hpair := (List.pairwise_flatMap.mp hexact.other).1 call hcall
  have hclosed := ((List.pairwise_cons.mp hpair).1 _ List.mem_cons_self).2
  obtain ⟨message, hthrows⟩ := hclosed s k hs hk
  rw [← hsecret, ← hdek] at hthrows
  unfold CexService.fetchBalance
  rw [hthrows]
  cases service.kms.decrypt { ciphertext := conn.encryptedApiKey, encryptedDek := conn.encryptedDek } with
  | error message' => exact ⟨message', rfl⟩
  | ok apiKey => exact ⟨message, rfl⟩

theorem fetchBalance_connected (hexact : service.kms.ExactOn (calls.flatMap ConnectCall.encryptions))
    {conn : CexConnection} (hconn : conn ∈ service.connectAll [] calls) :
    ∃ message, service.fetchBalance conn = .error message := by
  rcases connectAll_stores [] conn hconn with hnil | ⟨c, hc, hstored⟩
  · cases hnil
  · exact fetchBalance_throws hexact hc hstored

/-- **Credentials.** Whatever calls of `connect` there have been, for whichever exchanges and with whichever
credentials: the credentials of the last one for a user and an exchange are not recovered. -/
theorem credentials_lost (hexact : service.kms.ExactOn (calls.flatMap ConnectCall.encryptions)) :
    ∀ call, LastConnect calls call → ¬ Recovered service (service.connectAll [] calls) call := by
  intro call _ hrecovered
  obtain ⟨conn, hconn, -, -, hfetch⟩ := hrecovered
  obtain ⟨message, hthrows⟩ := fetchBalance_connected hexact hconn
  rw [hthrows] at hfetch
  cases hfetch

/-! ## One connection -/

/-- What AES-256-GCM makes of one plaintext. -/
structure Sealing where
  key : List UInt8
  iv : List UInt8
  plaintext : List UInt8
  tag : List UInt8
  ciphertext : List UInt8
  deriving DecidableEq, Repr

def masterKeyOfDev : List UInt8 := fromBase64 "7yYOmqPGc68kDReiZgSANhqOCB0f/soqXtDjIZ/BhWc="

def keyDraw : EncryptDraw where
  dataKey := fromBase64 "KvipEEs/ZO1kDYx+KY0tSA8Do2EMvCszR0Mh7FkCSkg="
  blob := []
  wrapIv := fromBase64 "HTy/jtOE19eg3o8j"
  iv := fromBase64 "pvPS3/oIUjYMiA4k"

def secretDraw : EncryptDraw where
  dataKey := fromBase64 "LB7mg3IhWxzgZEJrXNvU7yWBrODdOyH6K+J/NkgnJC4="
  blob := []
  wrapIv := fromBase64 "yYi5gAYA/SGtdiAx"
  iv := fromBase64 "havHcBwB/HJMHdkr"

def okxConnect : ConnectCall where
  userId := "u1"
  exchange := .OKX
  apiKey := "bg_4f7c1a90"
  secret := "Q7vX2mTz"
  passphrase := some "harbor-21"
  keyDraw := keyDraw
  secretDraw := secretDraw

/-- The values of AES-256-GCM in the run. -/
def sealings : List Sealing :=
  [⟨keyDraw.dataKey, keyDraw.iv, bufferFrom "bg_4f7c1a90", fromBase64 "mg5S51y9VX5NBbjCfs0A6A==",
      fromBase64 "TK81OmQQGAQbhW0="⟩,
    ⟨masterKeyOfDev, keyDraw.wrapIv, keyDraw.dataKey, fromBase64 "kR7glAL9x2jpFNS/tXer/g==",
      fromBase64 "YkrhR3DGhQsoRoTEhf3kQxaXwuT1yozQamfEfoiEzPo="⟩,
    ⟨secretDraw.dataKey, secretDraw.iv, bufferFrom "Q7vX2mTz::harbor-21", fromBase64 "B4fCM6jTB53WV4s3JS4tCw==",
      fromBase64 "XSrE6ON31tbRmtrvBWUYJwBcjg=="⟩,
    ⟨masterKeyOfDev, secretDraw.wrapIv, secretDraw.dataKey, fromBase64 "D+haEFBkuwmWy+iBQ0NJtA==",
      fromBase64 "edrLNq1Qn3jP5RHH3nLrXoGYhXxsjvNQXBoQMG8poSE="⟩]

def sampleCrypto : Crypto where
  gcmSeal key iv plaintext :=
    ((sealings.find? fun s => s.key == key && s.iv == iv && s.plaintext == plaintext).map fun s =>
      (s.tag, s.ciphertext)).getD ([], [])
  gcmOpen key iv tag ciphertext :=
    (sealings.find? fun s => s.key == key && s.iv == iv && s.tag == tag && s.ciphertext == ciphertext).map
      Sealing.plaintext
  sha256 text := if text = "dev" then masterKeyOfDev else []
  kmsDecrypt _ := none

/-- A service on a test network, without AWS and without a secret in the environment. -/
def sampleService : CexService where
  kms := ⟨sampleCrypto, false, true, false, none⟩
  bufferToString bytes := String.ofList (bytes.map fun b => Char.ofNat b.toNat)

theorem sampleService_exactOn : sampleService.kms.ExactOn ([okxConnect].flatMap ConnectCall.encryptions) := by
  apply SoundOn.exactOn
  constructor
  · decide +kernel
  · decide +kernel
  · intro a ha dek hdek
    simp only [List.flatMap_cons, List.flatMap_nil, List.append_nil, ConnectCall.encryptions, List.mem_cons,
      List.not_mem_nil, or_false] at ha
    rcases ha with rfl | rfl
    · obtain rfl : sampleService.kms.localWrap keyDraw.dataKey keyDraw.wrapIv = dek := by
        cases hdek
        rfl
      decide +kernel
    · obtain rfl : sampleService.kms.localWrap secretDraw.dataKey secretDraw.wrapIv = dek := by
        cases hdek
        rfl
      decide +kernel
  · decide +kernel
  · decide +kernel

theorem lastConnect_okx : LastConnect [okxConnect] okxConnect := ⟨[], [], rfl, by simp⟩

theorem credentials_lost_okx :
    ¬ Recovered sampleService (sampleService.connectAll [] [okxConnect]) okxConnect :=
  credentials_lost sampleService_exactOn okxConnect lastConnect_okx

/-- The credentials of this connection are not recovered. -/
theorem okx_not_recovered :
    ¬ ∀ (service : CexService) (calls : List ConnectCall) (call : ConnectCall),
      service.kms.ExactOn (calls.flatMap ConnectCall.encryptions) → LastConnect calls call →
        Recovered service (service.connectAll [] calls) call := by
  intro hclaim
  obtain ⟨conn, hconn, -, -, hfetch⟩ := hclaim sampleService [okxConnect] okxConnect sampleService_exactOn lastConnect_okx
  obtain ⟨message, hthrows⟩ := fetchBalance_connected sampleService_exactOn hconn
  rw [hthrows] at hfetch
  cases hfetch

end SuperAi.Cex
