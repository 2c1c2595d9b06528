import SuperAi.Snipe.SellEngine

/-! # One sale, from the claim to the end of its monitor

`executeSell` returns as soon as the transaction is handed to the network. What follows is
`setImmediate`d: the update of the row, not awaited, and `monitorSell`, which polls the chain and
retries with the next bundle. `executeSell` always passes a single bundle.
-/
namespace SuperAi.Snipe
set_option autoImplicit false

/-- Whether an awaited write reaches the database is an answer of the environment. -/
def landing (lands : Bool) (write : SnipeTrade → SnipeTrade) (row : SnipeTrade) : SnipeTrade :=
  if lands then write row else row

structure SellBundle where
  tokenAmount : ℕ
  slippageBps : ℕ
  deriving DecidableEq

def pickInitialSellSlippageBps (liquidityAtBuyUsd : Option ℚ) : ℕ :=
  let liq := liquidityAtBuyUsd.getD 0
  if 50000 ≤ liq then 500
  else if 10000 ≤ liq then 1000
  else if 5000 ≤ liq then 2000
  else 5000

def initialSlippageBps (reason : SellReason) (trade : SnipeTrade) : ℕ :=
  if reason = .liquidityPanic ∨ reason = .topHolderDump then 5000
  else pickInitialSellSlippageBps trade.liquidityAtBuyUsd

/-! ## `executeSell` -/

structure SellAnswers where
  session : Bool
  skipLands : Bool
  /-- `false`: the claiming `updateMany` throws. -/
  claimLands : Bool
  build : Bool
  releaseLands : Bool
  /-- The signature of the accepted transaction; `none`: sending throws. -/
  send : Option String
  catchLands : Bool

/-- The row after the awaited part of `executeSell`, and the broadcast it leaves behind. The `trade`
is the row as the caller read it. -/
def executeSell (order : SellOrder) (trade : SnipeTrade) (ans : SellAnswers) (row : SnipeTrade) :
    SnipeTrade × Option (Broadcast × SellBundle) :=
  if !ans.session then (landing ans.skipLands (SnipeTrade.markSkip order.reason) row, none)
  else if !ans.claimLands then (landing ans.catchLands SnipeTrade.sellThrew row, none)
  else if !row.claimable order.reason then (row, none)
  else
    let claimed := row.claim order.reason
    if !ans.build then (landing ans.releaseLands (SnipeTrade.releaseClaim .failed) claimed, none)
    else
      match ans.send with
      | none => (landing ans.catchLands SnipeTrade.sellThrew claimed, none)
      | some sig => (claimed, some (⟨sig, order, trade⟩,
          ⟨order.tokenAmount, initialSlippageBps order.reason trade⟩))

/-! ## `pollStatus` -/

inductive TxError
  | slippage | other
  deriving DecidableEq, Repr

structure SignatureStatus where
  landed : Bool
  err : Option TxError
  deriving DecidableEq

/-- One answer of `getSignatureStatuses`: `none` is an RPC error, `some none` an unknown signature. -/
abbrev PollResponse := Option (Option SignatureStatus)

inductive PollStatus
  | confirmed | slippageFailed | otherFailed | timeout
  deriving DecidableEq, Repr

/-- The polls up to the deadline, then one search of the transaction history. -/
def pollStatus (last : PollResponse) : List PollResponse → PollStatus
  | [] =>
    match last with
    | some (some ⟨_, none⟩) => .confirmed
    | _ => .timeout
  | some (some ⟨true, none⟩) :: _ => .confirmed
  | some (some ⟨true, some .slippage⟩) :: _ => .slippageFailed
  | some (some ⟨true, some .other⟩) :: _ => .otherFailed
  | _ :: rest => pollStatus last rest

/-! ## `monitorSell` -/

structure AttemptAnswers where
  polls : List PollResponse
  lastPoll : PollResponse
  confirmLands : Bool
  failLands : Bool
  /-- Less than `BLOCKHASH_SAFE_WINDOW_MS` has passed. -/
  withinWindow : Bool
  session : Bool
  rebuild : Bool
  send : Option String
  retryLands : Bool

inductive MonitorEnd
  | confirmed | slippageFailed | sessionExpired | requoteFailed | otherFailed | timeout
  | crashed | noBundle
  deriving DecidableEq, Repr

/-- The writes of a monitor in their order, the amounts it broadcasts again, and its exit. -/
structure MonitorRun where
  writes : List (SnipeTrade → SnipeTrade)
  resent : List ℕ
  ending : MonitorEnd

def MonitorRun.fails (lands : Bool) (sig : String) (ending : MonitorEnd) : MonitorRun :=
  ⟨if lands then [SnipeTrade.markSellFailed sig] else [], [], ending⟩

/-- A retry that is sent; what follows it is not reached when the update of the row throws. -/
def MonitorRun.retried (amount : ℕ) (retrySig : String) (lands : Bool) (next : MonitorRun) :
    MonitorRun :=
  if lands then ⟨SnipeTrade.retried retrySig :: next.writes, amount :: next.resent, next.ending⟩
  else ⟨[], [amount], .crashed⟩

def monitorSell (trade : SnipeTrade) (answers : ℕ → AttemptAnswers) :
    List SellBundle → ℕ → String → MonitorRun
  | [], _, _ => ⟨[], [], .noBundle⟩
  | _ :: rest, attempt, sig =>
    let ans := answers attempt
    match pollStatus ans.lastPoll ans.polls with
    | .confirmed =>
      if ans.confirmLands then ⟨[SnipeTrade.confirmFinal sig], [], .confirmed⟩
      else ⟨[], [], .crashed⟩
    | .otherFailed => MonitorRun.fails ans.failLands sig .otherFailed
    | .timeout => MonitorRun.fails ans.failLands sig .timeout
    | .slippageFailed =>
      match rest.head? with
      | none => MonitorRun.fails ans.failLands sig .slippageFailed
      | some nextBundle =>
        if ans.withinWindow then
          match ans.send with
          | none => ⟨[], [], .crashed⟩
          | some retrySig =>
            MonitorRun.retried nextBundle.tokenAmount retrySig ans.retryLands
              (monitorSell trade answers rest (attempt + 1) retrySig)
        else if !ans.session then MonitorRun.fails ans.failLands sig .sessionExpired
        else if !ans.rebuild then MonitorRun.fails ans.failLands sig .requoteFailed
        else
          match ans.send with
          | none => MonitorRun.fails ans.failLands sig .requoteFailed
          -- the fresh bundle is built for the whole `trade.outAmount`, partial sale or not
          | some retrySig =>
            MonitorRun.retried (trade.outAmount.getD 0) retrySig ans.retryLands
              (monitorSell trade answers rest (attempt + 1) retrySig)

/-! ## What the writes leave alone -/

/-- A write that touches neither the amount nor the phase. -/
def KeepsPosition (write : SnipeTrade → SnipeTrade) : Prop :=
  ∀ row, (write row).outAmount = row.outAmount ∧ (write row).sellPhase = row.sellPhase

namespace KeepsPosition

theorem markSkip (reason : SellReason) : KeepsPosition (SnipeTrade.markSkip reason) := by
  intro row
  unfold SnipeTrade.markSkip
  split <;> exact ⟨rfl, rfl⟩

theorem claim (reason : SellReason) : KeepsPosition (SnipeTrade.claim reason) :=
  fun _ => ⟨rfl, rfl⟩

theorem releaseClaim (status : SellStatus) : KeepsPosition (SnipeTrade.releaseClaim status) :=
  fun _ => ⟨rfl, rfl⟩

theorem sellThrew : KeepsPosition SnipeTrade.sellThrew :=
  fun _ => ⟨rfl, rfl⟩

theorem markSellFailed (sig : String) : KeepsPosition (SnipeTrade.markSellFailed sig) :=
  fun _ => ⟨rfl, rfl⟩

theorem confirmFinal (sig : String) : KeepsPosition (SnipeTrade.confirmFinal sig) := by
  intro row
  unfold SnipeTrade.confirmFinal
  split <;> exact ⟨rfl, rfl⟩

theorem retried (sig : String) : KeepsPosition (SnipeTrade.retried sig) :=
  fun _ => ⟨rfl, rfl⟩

theorem markHoneypot : KeepsPosition SnipeTrade.markHoneypot :=
  fun _ => ⟨rfl, rfl⟩

theorem recordPeak (peak : ℚ) : KeepsPosition (SnipeTrade.recordPeak peak) :=
  fun _ => ⟨rfl, rfl⟩

theorem landing {write : SnipeTrade → SnipeTrade} (h : KeepsPosition write) (lands : Bool) :
    KeepsPosition (landing lands write) := by
  intro row
  cases lands with
  | true => exact h row
  | false => exact ⟨rfl, rfl⟩

theorem foldl {writes : List (SnipeTrade → SnipeTrade)} (h : ∀ w ∈ writes, KeepsPosition w) :
    KeepsPosition fun row => writes.foldl (fun r w => w r) row := by
  intro row
  induction writes generalizing row with
  | nil => exact ⟨rfl, rfl⟩
  | cons w ws ih =>
    obtain ⟨hout, hphase⟩ := h w List.mem_cons_self row
    have hrest := ih (fun w' hw' => h w' (List.mem_cons_of_mem w hw')) (w row)
    exact ⟨hrest.1.trans hout, hrest.2.trans hphase⟩

end KeepsPosition

theorem executeSell_keeps (order : SellOrder) (trade : SnipeTrade) (ans : SellAnswers) :
    KeepsPosition fun row => (executeSell order trade ans row).1 := by
  intro row
  have hclaim := KeepsPosition.claim order.reason row
  simp only [executeSell]
  split_ifs with hsession hclaims hclaimable hbuild
  · exact (KeepsPosition.markSkip order.reason).landing _ row
  · exact KeepsPosition.sellThrew.landing _ row
  · exact ⟨rfl, rfl⟩
  · have hrelease := (KeepsPosition.releaseClaim .failed).landing ans.releaseLands
      (row.claim order.reason)
    exact ⟨hrelease.1.trans hclaim.1, hrelease.2.trans hclaim.2⟩
  · cases ans.send with
    | none =>
      have hthrew := KeepsPosition.sellThrew.landing ans.catchLands (row.claim order.reason)
      exact ⟨hthrew.1.trans hclaim.1, hthrew.2.trans hclaim.2⟩
    | some sig => exact hclaim

theorem MonitorRun.fails_keeps (lands : Bool) (sig : String) (ending : MonitorEnd) :
    ∀ w ∈ (MonitorRun.fails lands sig ending).writes, KeepsPosition w := by
  intro w hw
  cases lands with
  | true =>
    obtain rfl : w = SnipeTrade.markSellFailed sig := by simpa [MonitorRun.fails] using hw
    exact KeepsPosition.markSellFailed sig
  | false => simp [MonitorRun.fails] at hw

theorem MonitorRun.retried_keeps {amount : ℕ} {sig : String} {lands : Bool} {next : MonitorRun}
    (h : ∀ w ∈ next.writes, KeepsPosition w) :
    ∀ w ∈ (MonitorRun.retried amount sig lands next).writes, KeepsPosition w := by
  intro w hw
  cases lands with
  | true =>
    rcases List.mem_cons.mp hw with rfl | hw
    · exact KeepsPosition.retried sig
    · exact h w hw
  | false => simp [MonitorRun.retried] at hw

/-- **No exit of the monitor restores the position.** This holds of any number of bundles. -/
theorem monitorSell_keeps (trade : SnipeTrade) (answers : ℕ → AttemptAnswers)
    (bundles : List SellBundle) (attempt : ℕ) (sig : String) :
    ∀ w ∈ (monitorSell trade answers bundles attempt sig).writes, KeepsPosition w := by
  induction bundles generalizing attempt sig with
  | nil => simp [monitorSell]
  | cons bundle rest ih =>
    simp only [monitorSell]
    split
    · split
      · simpa using KeepsPosition.confirmFinal sig
      · simp
    · exact MonitorRun.fails_keeps _ _ _
    · exact MonitorRun.fails_keeps _ _ _
    · split
      · exact MonitorRun.fails_keeps _ _ _
      · split_ifs
        · split
          · simp
          · exact MonitorRun.retried_keeps (ih _ _)
        · exact MonitorRun.fails_keeps _ _ _
        · exact MonitorRun.fails_keeps _ _ _
        · split
          · exact MonitorRun.fails_keeps _ _ _
          · exact MonitorRun.retried_keeps (ih _ _)

/-- With the one bundle it is given, the monitor never broadcasts again. -/
theorem monitorSell_single (trade : SnipeTrade) (answers : ℕ → AttemptAnswers)
    (bundle : SellBundle) (attempt : ℕ) (sig : String) :
    (monitorSell trade answers [bundle] attempt sig).resent = [] := by
  simp only [monitorSell]
  split
  · split <;> rfl
  all_goals rfl

end SuperAi.Snipe
