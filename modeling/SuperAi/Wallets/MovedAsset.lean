import SuperAi.Wallets.Withdraw
import SuperAi.Wallets.FailedRows

/-! # What a withdrawal moves

Both senders leave the token of the request unread and move coins of the chain, while the audit row repeats
the request. A withdrawal moves what was asked for, and nothing where it throws, exactly when the token stands
for the coin of the chain, the amount is a whole number of lamports on Solana, and neither the node nor the
database fails once the transaction can land (`movesRequested_iff`).
-/
namespace SuperAi.Wallets
open SuperAi.Auth SuperAi.Foundations SuperAi.Guardrails
set_option autoImplicit false

/-! ## The requested transfer -/

def unitsPerCoin : Chain → ℚ
  | .SOLANA => 1000000000
  | .EVM => 10 ^ 18

/-- The transfer that a request asks of a wallet, where `identifies` says what a token id stands for. -/
structure Transfer.Fulfils (identifies : Chain → String → Asset) (wallet : Wallet) (dto : WithdrawDto)
    (t : Transfer) : Prop where
  sender : t.sender = wallet.address
  recipient : t.recipient = dto.toAddress
  asset : t.asset = identifies wallet.chain dto.tokenMint
  units : (t.units : ℚ) = dto.amount.toRat * unitsPerCoin wallet.chain

structure WithdrawAudit.Describes (identifies : Chain → String → Asset) (chain : Chain) (txHash : String)
    (t : Transfer) (row : WithdrawAudit) : Prop where
  target : row.target = t.sender
  toAddress : row.toAddress = t.recipient
  tokenMint : identifies chain row.tokenMint = t.asset
  amount : row.amount.toRat * unitsPerCoin chain = t.units
  txHash : row.txHash = txHash

/-- A withdrawal that returns has moved what was asked for and says so in the log; one that throws has moved
nothing. -/
structure MovesRequested (identifies : Chain → String → Asset) (wallets : List Wallet) (userId : String)
    (walletId : ℕ) (dto : WithdrawDto) (out : WithdrawOutcome) : Prop where
  returned : ∀ txHash chain, out.answer = .ok (txHash, chain) →
    ∃ wallet t row, findWallet wallets userId walletId = some wallet ∧ wallet.chain = chain ∧
      out.broadcast = .live ∧ out.transfer = some t ∧ t.Fulfils identifies wallet dto ∧
        out.auditLog = some row ∧ row.Describes identifies chain txHash t
  threw : ∀ e, out.answer = .error e → out.broadcast ≠ .live

/-! ## What the key store and the libraries do -/

/-- A stored key opens to the secret key of the stored address, as `create` and `importWallet` store the two. -/
def WithdrawEnv.KeysMatch (env : WithdrawEnv) (wallets : List Wallet) : Prop :=
  ∀ w ∈ wallets, ∀ key, env.openKey w = .ok key → env.addressOf w.chain key = w.address

/-- `parseEther` throws on the text of a number, or gives its wei exactly. -/
def WithdrawEnv.ParsesEther (env : WithdrawEnv) : Prop :=
  ∀ (amount : JsNumber) (value : ℤ), env.parseEther amount.text = .ok value →
    (value : ℚ) = amount.toRat * unitsPerCoin .EVM

/-! ## The condition -/

/-- A withdrawal comes as far as the node: with this wallet, its key, and this many units. -/
structure ReachesNode (env : WithdrawEnv) (wallets : List Wallet) (buckets : Buckets) (now : ℤ) (userId : String)
    (walletId : ℕ) (dto : WithdrawDto) (wallet : Wallet) (key : List UInt8) (units : ℤ) : Prop where
  rate : (hitRate buckets userId now WITHDRAW_WINDOW_MS WITHDRAW_MAX .withdraw).1 = .ok ()
  found : findWallet wallets userId walletId = some wallet
  opened : env.openKey wallet = .ok key
  priced : env.unitsOf wallet.chain dto.amount = .ok units

def RpcAnswer.Confirms (rpc : RpcAnswer) (txHash : String) : Prop :=
  rpc.key = .ok () ∧ rpc.prepare = .ok () ∧ rpc.submit = .accepted txHash ∧ rpc.confirm = .confirmed

/-- Lamports are rounded; wei are not. -/
def WholeUnits (chain : Chain) (amount : JsNumber) : Prop :=
  match chain with
  | .SOLANA => ∃ n : ℤ, amount.toRat * 1000000000 = n
  | .EVM => True

/-- Where the withdrawal comes as far as the node: no error comes after a broadcast that can still land, and a
confirmed transaction is recorded, is of the asset that was asked for, and of the exact amount. -/
def MovesNative (env : WithdrawEnv) (answers : WithdrawAnswers) (identifies : Chain → String → Asset)
    (wallets : List Wallet) (buckets : Buckets) (now : ℤ) (userId : String) (walletId : ℕ) (dto : WithdrawDto) : Prop :=
  ∀ wallet key units, ReachesNode env wallets buckets now userId walletId dto wallet key units →
    ¬ answers.rpc.LostTrack ∧ ∀ txHash, answers.rpc.Confirms txHash →
      answers.audit = .ok () ∧ identifies wallet.chain dto.tokenMint = .native ∧ WholeUnits wallet.chain dto.amount

variable {env : WithdrawEnv} {answers : WithdrawAnswers} {identifies : Chain → String → Asset} {wallets : List Wallet}
  {buckets : Buckets} {now : ℤ} {userId : String} {walletId : ℕ} {dto : WithdrawDto} {wallet : Wallet}

theorem sendNative_ok (rpc : RpcAnswer) (txHash : String) :
    (sendNative rpc).1 = .ok txHash ↔ rpc.Confirms txHash := by
  obtain ⟨key, prepare, submit, confirm⟩ := rpc
  unfold sendNative RpcAnswer.Confirms
  cases key with
  | error e => simp
  | ok key =>
    cases prepare with
    | error e => simp
    | ok prepare =>
      cases submit with
      | rejected e => simp
      | unanswered e => simp
      | accepted txHash => cases confirm <;> simp

theorem RpcAnswer.Confirms.live {rpc : RpcAnswer} {txHash : String} (h : rpc.Confirms txHash) :
    (sendNative rpc).2 = .live := by
  obtain ⟨hkey, hprepare, hsubmit, hconfirm⟩ := h
  unfold sendNative
  rw [hkey, hprepare, hsubmit, hconfirm]

theorem floor_add_half (n : ℤ) : ⌊(n : ℚ) + 1 / 2⌋ = n := by
  rw [Int.floor_intCast_add]
  norm_num

theorem unitsOf_exact (hparse : env.ParsesEther) {chain : Chain} {amount : JsNumber} {units : ℤ}
    (hunits : env.unitsOf chain amount = .ok units) :
    (units : ℚ) = amount.toRat * unitsPerCoin chain ↔ WholeUnits chain amount := by
  cases chain with
  | SOLANA =>
    obtain rfl := Except.ok.inj hunits
    constructor
    · intro hexact
      exact ⟨_, hexact.symm⟩
    · rintro ⟨n, hn⟩
      rw [unitsPerCoin, hn, floor_add_half]
  | EVM =>
    have hexact := hparse amount units hunits
    simp [hexact, WholeUnits]

theorem findWallet_mem (h : findWallet wallets userId walletId = some wallet) : wallet ∈ wallets :=
  List.mem_of_find?_eq_some h

/-! ## The outcome -/

theorem withdraw_reaches {key : List UInt8} {units : ℤ}
    (h : ReachesNode env wallets buckets now userId walletId dto wallet key units) :
    env.withdraw answers wallets buckets now userId walletId dto =
      WithdrawEnv.recordWithdraw answers (hitRate buckets userId now WITHDRAW_WINDOW_MS WITHDRAW_MAX .withdraw).2
        userId wallet dto (send answers (env.coins wallet key dto units)) := by
  have hsend := sendFrom_eq env answers wallet key dto
  rw [h.priced] at hsend
  have hrate := h.rate
  unfold WithdrawEnv.withdraw
  cases hhit : hitRate buckets userId now WITHDRAW_WINDOW_MS WITHDRAW_MAX .withdraw with
  | mk result after =>
    rw [hhit] at hrate
    cases hrate
    rw [h.found]
    dsimp only
    rw [h.opened]
    dsimp only
    rw [hsend]

/-- A withdrawal that does not come as far as the node throws, and there is no transaction. -/
theorem withdraw_stopped (answers : WithdrawAnswers) (h : ∀ wallet key units,
      ¬ ReachesNode env wallets buckets now userId walletId dto wallet key units) :
    (∃ e, (env.withdraw answers wallets buckets now userId walletId dto).answer = .error e) ∧
      (env.withdraw answers wallets buckets now userId walletId dto).broadcast = .nothing := by
  unfold WithdrawEnv.withdraw
  cases hhit : hitRate buckets userId now WITHDRAW_WINDOW_MS WITHDRAW_MAX .withdraw with
  | mk result after =>
    cases result with
    | error e => exact ⟨⟨_, rfl⟩, rfl⟩
    | ok =>
      have hrate : (hitRate buckets userId now WITHDRAW_WINDOW_MS WITHDRAW_MAX .withdraw).1 = .ok () := by rw [hhit]
      dsimp only
      cases hfind : findWallet wallets userId walletId with
      | none => exact ⟨⟨_, rfl⟩, rfl⟩
      | some wallet =>
        dsimp only
        cases hopen : env.openKey wallet with
        | error e => exact ⟨⟨_, rfl⟩, rfl⟩
        | ok key =>
          dsimp only
          rw [sendFrom_eq]
          cases hunits : env.unitsOf wallet.chain dto.amount with
          | error e => exact ⟨⟨_, rfl⟩, rfl⟩
          | ok units => exact absurd ⟨hrate, hfind, hopen, hunits⟩ (h wallet key units)

theorem recordWithdraw_broadcast (answers : WithdrawAnswers) (buckets : Buckets) (userId : String) (wallet : Wallet)
    (dto : WithdrawDto) (sent : Sent) :
    (WithdrawEnv.recordWithdraw answers buckets userId wallet dto sent).broadcast = sent.broadcast := by
  unfold WithdrawEnv.recordWithdraw
  split <;> rfl

theorem recordWithdraw_threw (buckets : Buckets) (userId : String) (wallet : Wallet) (dto : WithdrawDto) (t : Transfer)
    (h : (∃ e, (sendNative answers.rpc).1 = .error e) ∨ ∃ e, answers.audit = .error e) :
    ∃ e, (WithdrawEnv.recordWithdraw answers buckets userId wallet dto (send answers t)).answer = .error e := by
  unfold WithdrawEnv.recordWithdraw send
  dsimp only
  cases hsent : (sendNative answers.rpc).1 with
  | error e => exact ⟨_, rfl⟩
  | ok txHash =>
    cases haudit : answers.audit with
    | error e => exact ⟨_, rfl⟩
    | ok => simp [hsent, haudit] at h

theorem recordWithdraw_returned {t : Transfer} {txHash : String} (hsent : (sendNative answers.rpc).1 = .ok txHash)
    (haudit : answers.audit = .ok ()) :
    WithdrawEnv.recordWithdraw answers buckets userId wallet dto (send answers t) =
      { answer := .ok (txHash, wallet.chain), withdrawBuckets := buckets, transfer := some t
        broadcast := (sendNative answers.rpc).2
        auditLog := some
          { userId, action := "wallet.withdraw", target := wallet.address, toAddress := dto.toAddress
            tokenMint := dto.tokenMint, amount := dto.amount, txHash } } := by
  unfold WithdrawEnv.recordWithdraw send
  rw [hsent, haudit]

/-! ## Exactly when the requested asset is moved -/

theorem MovesNative.movesRequested (hkeys : env.KeysMatch wallets) (hparse : env.ParsesEther)
    (h : MovesNative env answers identifies wallets buckets now userId walletId dto) :
    MovesRequested identifies wallets userId walletId dto
      (env.withdraw answers wallets buckets now userId walletId dto) := by
  by_cases hnode : ∃ wallet key units, ReachesNode env wallets buckets now userId walletId dto wallet key units
  · obtain ⟨wallet, key, units, hreach⟩ := hnode
    obtain ⟨hlost, hrecorded⟩ := h wallet key units hreach
    rw [withdraw_reaches hreach]
    cases hsent : (sendNative answers.rpc).1 with
    | error e =>
      constructor
      · intro txHash chain hreturned
        obtain ⟨e', hthrew⟩ := recordWithdraw_threw (hitRate buckets userId now WITHDRAW_WINDOW_MS WITHDRAW_MAX
          .withdraw).2 userId wallet dto (env.coins wallet key dto units) (.inl ⟨e, hsent⟩)
        rw [hthrew] at hreturned
        cases hreturned
      · intro _ _ hlive
        rw [recordWithdraw_broadcast] at hlive
        exact hlost ((sendNative_lost _).mp ⟨⟨e, hsent⟩, hlive⟩)
    | ok txHash =>
      have hconfirms := (sendNative_ok _ _).mp hsent
      obtain ⟨haudit, hnative, hwhole⟩ := hrecorded txHash hconfirms
      have hsender := hkeys wallet (findWallet_mem hreach.found) key hreach.opened
      have hexact := (unitsOf_exact hparse hreach.priced).mpr hwhole
      rw [recordWithdraw_returned hsent haudit]
      constructor
      · intro txHash' chain hreturned
        cases hreturned
        exact ⟨wallet, _, _, hreach.found, rfl, hconfirms.live, rfl, ⟨hsender, rfl, hnative.symm, hexact⟩, rfl,
          ⟨hsender.symm, rfl, hnative, hexact.symm, rfl⟩⟩
      · intro e hthrew
        cases hthrew
  · obtain ⟨⟨e, hthrew⟩, hnothing⟩ := withdraw_stopped answers
      fun wallet key units hreach => hnode ⟨wallet, key, units, hreach⟩
    constructor
    · intro txHash chain hreturned
      rw [hthrew] at hreturned
      cases hreturned
    · intro _ _ hlive
      rw [hnothing] at hlive
      cases hlive

theorem MovesRequested.movesNative (hparse : env.ParsesEther)
    (h : MovesRequested identifies wallets userId walletId dto
      (env.withdraw answers wallets buckets now userId walletId dto)) :
    MovesNative env answers identifies wallets buckets now userId walletId dto := by
  intro wallet key units hreach
  rw [withdraw_reaches hreach] at h
  have hthrows : (∃ e, (sendNative answers.rpc).1 = .error e) ∨ (∃ e, answers.audit = .error e) →
      (sendNative answers.rpc).2 ≠ .live := by
    intro herror hlive
    obtain ⟨e, hthrew⟩ := recordWithdraw_threw (hitRate buckets userId now WITHDRAW_WINDOW_MS WITHDRAW_MAX
      .withdraw).2 userId wallet dto (env.coins wallet key dto units) herror
    exact h.threw e hthrew (by rw [recordWithdraw_broadcast]; exact hlive)
  constructor
  · intro hlost
    obtain ⟨herror, hlive⟩ := (sendNative_lost _).mpr hlost
    exact hthrows (.inl herror) hlive
  · intro txHash hconfirms
    cases haudit : answers.audit with
    | error e => exact absurd hconfirms.live (hthrows (.inr ⟨e, haudit⟩))
    | ok =>
      have hsent := (sendNative_ok _ _).mpr hconfirms
      rw [recordWithdraw_returned hsent haudit] at h
      obtain ⟨wallet', t, row, hfound, -, -, htransfer, hfulfils, -, -⟩ := h.returned txHash wallet.chain rfl
      obtain rfl := Option.some.inj (hfound.symm.trans hreach.found)
      obtain rfl := Option.some.inj htransfer
      exact ⟨rfl, hfulfils.asset.symm, (unitsOf_exact hparse hreach.priced).mp hfulfils.units⟩

/-- **The moved asset.** A withdrawal that returns has moved the requested amount of the requested asset and logged
it, and one that throws has moved nothing, exactly where the asset is the coin of the chain in whole units and
nothing fails once the transaction can land. -/
theorem movesRequested_iff (hkeys : env.KeysMatch wallets) (hparse : env.ParsesEther) :
    MovesRequested identifies wallets userId walletId dto
        (env.withdraw answers wallets buckets now userId walletId dto) ↔
      MovesNative env answers identifies wallets buckets now userId walletId dto :=
  ⟨fun h => h.movesNative hparse, fun h => h.movesRequested hkeys hparse⟩

/-! ## Half a coin, and half a token -/

def NATIVE_PLACEHOLDER : String := "native"

/-- The mint of a holding row. -/
def holdingAsset (_ : Chain) (mint : String) : Asset := if mint = NATIVE_PLACEHOLDER then .native else .token mint

/-- AWS unwraps every data key to the one that opens every ciphertext. -/
def openCrypto : Crypto where
  gcmSeal := fun _ _ plaintext => ([], plaintext)
  gcmOpen := fun key _ _ _ => if key = [7] then some [1, 2, 3] else none
  sha256 := fun _ => []
  kmsDecrypt := fun _ => some [7]

/-- Wei of a printed number, where they are whole. -/
def exactEther (text : List Char) : Except String ℤ :=
  match parseNumber text with
  | some (amount, []) =>
    if (amount.toRat * unitsPerCoin .EVM).den = 1 then .ok (amount.toRat * unitsPerCoin .EVM).num
    else .error "too many decimals for format"
  | _ => .error "invalid FixedNumber string value"

def withdrawEnv : WithdrawEnv where
  kms := ⟨openCrypto, true, false, false, none⟩
  addressOf := fun _ _ => "A1"
  parseEther := exactEther

def annsWallet : Wallet where
  userId := "ann"
  chain := .SOLANA
  address := "A1"
  encryptedKey := "key"
  encryptedDek := "dek"
  label := "Solana Wallet 1"
  isPrimary := true
  isImported := false
  backedUpAt := none
  id := 0

def half : JsNumber := .ofDigits false (natDigits 5) 0

theorem half_toRat : half.toRat = 1 / 2 := by
  have hlength : (natDigits 5).length = 1 := by simp [natDigits]
  rw [half, JsNumber.toRat_ofDigits, digitsNat_natDigits, hlength]
  norm_num

def withdrawHalf (tokenMint : String) : WithdrawDto where
  toAddress := "B1"
  tokenMint := tokenMint
  amount := half
  amount_nonneg := by rw [half_toRat]; norm_num

def confirmedAnswers : WithdrawAnswers := { submit := .accepted "sig1", confirm := .confirmed }

theorem withdrawEnv_keysMatch : withdrawEnv.KeysMatch [annsWallet] := by
  intro w hw key _
  rw [List.mem_singleton.mp hw]
  rfl

theorem withdrawEnv_parsesEther : withdrawEnv.ParsesEther := by
  intro amount value hvalue
  change exactEther amount.text = .ok value at hvalue
  have hread : parseNumber (amount.text ++ []) = some (amount, []) := parseNumber_text amount (by simp [EndsNumber])
  rw [List.append_nil] at hread
  unfold exactEther at hvalue
  rw [hread] at hvalue
  dsimp only at hvalue
  by_cases hwhole : (amount.toRat * unitsPerCoin .EVM).den = 1
  · rw [if_pos hwhole] at hvalue
    cases hvalue
    exact Rat.coe_int_num_of_den_eq_one hwhole
  · rw [if_neg hwhole] at hvalue
    cases hvalue

theorem withdrawHalf_reaches (tokenMint : String) :
    ReachesNode withdrawEnv [annsWallet] [] 0 "ann" 0 (withdrawHalf tokenMint) annsWallet [1, 2, 3]
      ⌊half.toRat * 1000000000 + 1 / 2⌋ where
  rate := rfl
  found := rfl
  opened := rfl
  priced := rfl

theorem withdraw_half_coin :
    MovesRequested holdingAsset [annsWallet] "ann" 0 (withdrawHalf NATIVE_PLACEHOLDER)
        (withdrawEnv.withdraw confirmedAnswers [annsWallet] [] 0 "ann" 0 (withdrawHalf NATIVE_PLACEHOLDER)) ∧
      (withdrawEnv.withdraw confirmedAnswers [annsWallet] [] 0 "ann" 0
        (withdrawHalf NATIVE_PLACEHOLDER)).answer = .ok ("sig1", .SOLANA) := by
  constructor
  · apply (movesRequested_iff withdrawEnv_keysMatch withdrawEnv_parsesEther).mpr
    intro wallet key units hreach
    obtain rfl := Option.some.inj (hreach.found.symm.trans (withdrawHalf_reaches NATIVE_PLACEHOLDER).found)
    refine ⟨fun hlost => ?_, fun txHash _ => ⟨rfl, rfl, 500000000, ?_⟩⟩
    · obtain ⟨e, he⟩ := hlost.2.2
      cases he
    · change half.toRat * 1000000000 = _
      rw [half_toRat]
      norm_num
  · rw [withdraw_reaches (withdrawHalf_reaches NATIVE_PLACEHOLDER)]
    rfl

/-- The mint of USDC. -/
def usdcMint : String := "EPjFWdd5AufqSSqeM2qN1xzybapC8G4wEGGkZwyTDt1v"

/-- Half a USDC is asked for, and half a SOL is sent. -/
theorem half_usdc_moves_sol :
    ¬ ∀ (env : WithdrawEnv) (answers : WithdrawAnswers) (wallets : List Wallet) (buckets : Buckets) (now : ℤ)
      (userId : String) (walletId : ℕ) (dto : WithdrawDto), env.KeysMatch wallets → env.ParsesEther →
        MovesRequested holdingAsset wallets userId walletId dto
          (env.withdraw answers wallets buckets now userId walletId dto) := by
  intro hclaim
  have hmoves := hclaim withdrawEnv confirmedAnswers [annsWallet] [] 0 "ann" 0 (withdrawHalf usdcMint)
    withdrawEnv_keysMatch withdrawEnv_parsesEther
  rw [withdraw_reaches (withdrawHalf_reaches usdcMint)] at hmoves
  obtain ⟨wallet, t, row, hfound, -, -, htransfer, hfulfils, -, -⟩ := hmoves.returned "sig1" .SOLANA rfl
  obtain rfl := Option.some.inj hfound
  obtain rfl := Option.some.inj htransfer
  have hasset := hfulfils.asset
  change Asset.native = holdingAsset .SOLANA usdcMint at hasset
  have hother : holdingAsset .SOLANA usdcMint ≠ .native := by decide +kernel
  exact hother hasset.symm

end SuperAi.Wallets
