import SuperAi.Snipe.ExecuteSell

/-! # A sale that fails on chain is not rolled back

The row update deferred by `executeSell` writes the reduced amount and the next phase before the
chain has confirmed anything; a comment there says that `monitorSell` reverts it. No write of the
monitor does (`monitorSell_keeps`), so a broadcast sale that fails keeps its amount and its phase
only where the deferred update itself was lost or changed nothing (`rollsBack_iff`).
-/
namespace SuperAi.Snipe
set_option autoImplicit false

/-! ## The life of a sale -/

structure SaleAnswers where
  sell : SellAnswers
  monitor : ℕ → AttemptAnswers
  /-- The deferred row update, which is not awaited, reaches the database. -/
  recordLands : Bool
  /-- How many of the monitor's writes it comes after. -/
  recordAt : ℕ

def SaleAnswers.writes (ans : SaleAnswers) (b : Broadcast) (run : MonitorRun) :
    List (SnipeTrade → SnipeTrade) :=
  run.writes.take ans.recordAt ++ landing ans.recordLands b.record :: run.writes.drop ans.recordAt

/-- The row when trigger `reason` has fired on it and everything that follows has ended, and how the
monitor of the broadcast transaction ended, if one was broadcast. -/
def sale (preset : SellPreset) (reason : SellReason) (ans : SaleAnswers) (row : SnipeTrade) :
    SnipeTrade × Option MonitorEnd :=
  match saleOrder preset reason row with
  | none => (row, none)
  | some order =>
    match executeSell order row ans.sell row with
    | (row', none) => (row', none)
    | (row', some (b, primaryBundle)) =>
      let run := monitorSell b.trade ans.monitor [primaryBundle] 0 b.sig
      ((ans.writes b run).foldl (fun r w => w r) row', some run.ending)

/-- The monitor ended and the chain has not executed the sale; only after a timeout can the chain
(`landed`) have executed it all the same. -/
def MonitorEnd.Unconfirmed (landed : Bool) : MonitorEnd → Prop
  | .confirmed => False
  | .slippageFailed => True
  | .sessionExpired => True
  | .requoteFailed => True
  | .otherFailed => True
  | .timeout => landed = false
  | .crashed => False
  | .noBundle => False

def RollsBack (preset : SellPreset) (reason : SellReason) (ans : SaleAnswers) (landed : Bool)
    (row : SnipeTrade) : Prop :=
  ∀ ending, (sale preset reason ans row).2 = some ending → ending.Unconfirmed landed →
    (sale preset reason ans row).1.outAmount = row.outAmount ∧
      (sale preset reason ans row).1.sellPhase = row.sellPhase

/-! ## When the position is lost -/

/-- The trigger has an order for the row, and the answers let it be broadcast. -/
def Broadcasts (preset : SellPreset) (reason : SellReason) (ans : SellAnswers) (row : SnipeTrade) :
    Prop :=
  (saleOrder preset reason row).isSome ∧ ans.session = true ∧ ans.claimLands = true ∧
    row.claimable reason = true ∧ ans.build = true ∧ ans.send.isSome

/-- The chain rejects the transaction, or it is dropped. -/
def FailsOnChain (ans : AttemptAnswers) (landed : Bool) : Prop :=
  match pollStatus ans.lastPoll ans.polls with
  | .confirmed => False
  | .slippageFailed => True
  | .otherFailed => True
  | .timeout => landed = false

def SoldOut (row : SnipeTrade) : Prop :=
  row.outAmount = some 0 ∧ row.sellPhase = some .closed

theorem saleOrder_reason {preset : SellPreset} {reason : SellReason} {trade : SnipeTrade}
    {order : SellOrder} (h : saleOrder preset reason trade = some order) :
    order.reason = reason := by
  cases reason
  case honeypot => cases h
  case manual =>
    obtain ⟨outAmount, -, rfl⟩ := saleOrder_manual h
    rfl
  all_goals exact (fireSell_spec h).2.2.1

/-- An order has something to sell, or it is the manual sale of an empty position. -/
theorem saleOrder_amount {preset : SellPreset} {reason : SellReason} {trade : SnipeTrade}
    {order : SellOrder} (h : saleOrder preset reason trade = some order) :
    0 < order.tokenAmount ∨ trade.outAmount = some 0 ∧ order.nextPhase = .closed ∧ order.final = true := by
  cases reason
  case honeypot => cases h
  case manual =>
    obtain ⟨outAmount, hout, rfl⟩ := saleOrder_manual h
    cases outAmount with
    | zero => exact .inr ⟨hout, rfl, rfl⟩
    | succ n => exact .inl (Nat.succ_pos n)
  all_goals exact .inl (fireSell_spec h).2.1

/-- The deferred update changes the position of every row that is not sold out. -/
theorem record_position {preset : SellPreset} {reason : SellReason} {row : SnipeTrade}
    {order : SellOrder} (h : saleOrder preset reason row = some order) (sig : String) :
    (some (Broadcast.mk sig order row).remainingAfter = row.outAmount ∧
      some order.nextPhase = row.sellPhase) ↔ SoldOut row := by
  have hsum := Broadcast.amount_add_remaining (b := ⟨sig, order, row⟩) (saleOrder_fits h)
  constructor
  · rintro ⟨hout, hphase⟩
    rw [← hout, Option.getD_some] at hsum
    rcases saleOrder_amount h with hpos | ⟨hzero, hclosed, -⟩
    · simp only at hsum
      omega
    · exact ⟨hzero, by rw [← hphase, hclosed]⟩
  · rintro ⟨hzero, hclosed⟩
    rw [hzero, Option.getD_some] at hsum
    rcases saleOrder_amount h with hpos | ⟨-, hnext, -⟩
    · simp only at hsum
      omega
    · refine ⟨?_, by rw [hnext, hclosed]⟩
      rw [hzero, Nat.eq_zero_of_add_eq_zero_left hsum]

/-! ## The life of a sale, by cases -/

theorem executeSell_broadcast {order : SellOrder} {trade row row' : SnipeTrade} {ans : SellAnswers}
    {b : Broadcast} {bundle : SellBundle}
    (h : executeSell order trade ans row = (row', some (b, bundle))) :
    b.order = order ∧ b.trade = trade ∧ ans.session = true ∧ ans.claimLands = true ∧
      row.claimable order.reason = true ∧ ans.build = true ∧ ans.send.isSome := by
  simp only [executeSell] at h
  split_ifs at h with hsession hclaims hclaimable hbuild
  · simp at h
  · simp at h
  · simp at h
  · simp at h
  · split at h
    · simp at h
    · rename_i sig hsend
      cases h
      exact ⟨rfl, rfl, by simpa using hsession, by simpa using hclaims, by simpa using hclaimable,
        by simpa using hbuild, by simp [hsend]⟩

theorem executeSell_silent {order : SellOrder} {trade row row' : SnipeTrade} {ans : SellAnswers}
    (h : executeSell order trade ans row = (row', none)) :
    ¬ (ans.session = true ∧ ans.claimLands = true ∧ row.claimable order.reason = true ∧
      ans.build = true ∧ ans.send.isSome) := by
  rintro ⟨hsession, hclaims, hclaimable, hbuild, hsend⟩
  obtain ⟨sig, hsig⟩ := Option.isSome_iff_exists.mp hsend
  simp [executeSell, hsession, hclaims, hclaimable, hbuild, hsig] at h

/-- The exit of the monitor is what the polls say; a lost `confirmed` update only crashes it. -/
theorem monitorSell_unconfirmed (trade : SnipeTrade) (answers : ℕ → AttemptAnswers)
    (bundle : SellBundle) (sig : String) (landed : Bool) :
    (monitorSell trade answers [bundle] 0 sig).ending.Unconfirmed landed ↔
      FailsOnChain (answers 0) landed := by
  simp only [monitorSell, FailsOnChain]
  cases pollStatus (answers 0).lastPoll (answers 0).polls with
  | confirmed => cases (answers 0).confirmLands <;> exact Iff.rfl
  | slippageFailed => exact Iff.rfl
  | otherFailed => exact Iff.rfl
  | timeout => exact Iff.rfl

/-- What is left of the position is decided by the deferred update alone. -/
theorem writes_position (ans : SaleAnswers) (b : Broadcast) {run : MonitorRun}
    (h : ∀ w ∈ run.writes, KeepsPosition w) (row : SnipeTrade) :
    let after := (ans.writes b run).foldl (fun r w => w r) row
    after.outAmount = (if ans.recordLands then some b.remainingAfter else row.outAmount) ∧
      after.sellPhase = (if ans.recordLands then some b.order.nextPhase else row.sellPhase) := by
  have hbefore : KeepsPosition _ :=
    KeepsPosition.foldl fun w hw => h w (List.mem_of_mem_take (i := ans.recordAt) hw)
  have hafter : KeepsPosition _ :=
    KeepsPosition.foldl fun w hw => h w (List.mem_of_mem_drop (i := ans.recordAt) hw)
  simp only [SaleAnswers.writes, List.foldl_append, List.foldl_cons]
  rw [(hafter _).1, (hafter _).2]
  cases ans.recordLands with
  | true => exact ⟨rfl, rfl⟩
  | false => exact hbefore row

/-- **When a sale is rolled back.** The position is as before the sale, for every row, trigger and
outcome, unless the sale is broadcast, fails on chain, and its deferred row update lands on a row
that was not sold out. -/
theorem rollsBack_iff (preset : SellPreset) (reason : SellReason) (ans : SaleAnswers)
    (landed : Bool) (row : SnipeTrade) :
    RollsBack preset reason ans landed row ↔
      ¬ (Broadcasts preset reason ans.sell row ∧ FailsOnChain (ans.monitor 0) landed ∧
        ans.recordLands = true ∧ ¬ SoldOut row) := by
  cases horder : saleOrder preset reason row with
  | none => simp [RollsBack, sale, horder, Broadcasts]
  | some order =>
    have hreason := saleOrder_reason horder
    obtain ⟨row', broadcast, hexec⟩ : ∃ row' broadcast,
        executeSell order row ans.sell row = (row', broadcast) := ⟨_, _, rfl⟩
    have hkeeps := executeSell_keeps order row ans.sell row
    simp only [hexec] at hkeeps
    cases broadcast with
    | none =>
      have hsilent := executeSell_silent hexec
      rw [hreason] at hsilent
      simp only [RollsBack, sale, horder, hexec, Broadcasts]
      simp [hsilent]
    | some bb =>
      obtain ⟨b, bundle⟩ := bb
      obtain ⟨rfl, rfl, hanswers⟩ := executeSell_broadcast hexec
      rw [hreason] at hanswers
      have hpos := writes_position ans b (monitorSell_keeps b.trade ans.monitor [bundle] 0 b.sig) row'
      have hchain := monitorSell_unconfirmed b.trade ans.monitor bundle b.sig landed
      have hrecord := record_position horder b.sig
      have hbroadcasts : Broadcasts preset reason ans.sell b.trade := ⟨by simp [horder], hanswers⟩
      simp only at hpos
      simp only [RollsBack, sale, horder, hexec, Option.some.injEq, forall_eq', hpos, hchain,
        hbroadcasts, true_and, not_and, not_not]
      cases ans.recordLands with
      | true => simpa using imp_congr_right fun _ => hrecord
      | false => simpa using fun _ => hkeeps

/-! ## What a failed final sale leaves behind -/

theorem evaluateTrade_closed (config : Option SnipeConfig) (lamportsPerToken : ℚ) (market : Market)
    (peaks : Option ℚ) {trade : SnipeTrade} (h : derivePhase trade = .closed) :
    (evaluateTrade config lamportsPerToken market peaks trade).order = none := by
  simp only [evaluateTrade]
  split
  · simp [h]
  · rfl

/-- Once the update of a final sale has landed, no later tick sells from the row again, whether or
not the chain has executed the sale. -/
theorem final_sale_stranded {preset : SellPreset} {reason : SellReason} {ans : SaleAnswers}
    {row : SnipeTrade} {order : SellOrder} (horder : saleOrder preset reason row = some order)
    (hclosed : order.nextPhase = .closed) (hsale : Broadcasts preset reason ans.sell row)
    (hlands : ans.recordLands = true) (config : Option SnipeConfig) (lamportsPerToken : ℚ)
    (market : Market) (peaks : Option ℚ) :
    (evaluateTrade config lamportsPerToken market peaks (sale preset reason ans row).1).order =
      none := by
  apply evaluateTrade_closed
  obtain ⟨-, hanswers⟩ := hsale
  rw [← saleOrder_reason horder] at hanswers
  obtain ⟨row', broadcast, hexec⟩ : ∃ row' broadcast,
      executeSell order row ans.sell row = (row', broadcast) := ⟨_, _, rfl⟩
  cases broadcast with
  | none => exact absurd hanswers (executeSell_silent hexec)
  | some bb =>
    obtain ⟨b, bundle⟩ := bb
    obtain ⟨rfl, rfl, -⟩ := executeSell_broadcast hexec
    have hpos := writes_position ans b (monitorSell_keeps b.trade ans.monitor [bundle] 0 b.sig) row'
    simp only [hlands, if_true] at hpos
    simp only [sale, horder, hexec, derivePhase, hpos.2]
    exact hclosed

/-! ## A take-profit sale rejected for its slippage -/

/-- The sale is sent, the chain rejects it for its slippage, every write lands. -/
def slippageAnswers : SaleAnswers where
  sell := ⟨true, true, true, true, true, some "5s1", true⟩
  monitor := fun _ => ⟨[some none, some (some ⟨true, some .slippage⟩)], some none, true, true, true, true, true, none, true⟩
  recordLands := true
  recordAt := 0

theorem tp1_not_rolled_back :
    ¬ RollsBack DEFAULT .tp1 slippageAnswers false boughtRow ∧
      (sale DEFAULT .tp1 slippageAnswers boughtRow).1.outAmount = some 500 ∧
      (sale DEFAULT .tp1 slippageAnswers boughtRow).1.sellPhase = some .postTp1 := by
  have hsale : (sale DEFAULT .tp1 slippageAnswers boughtRow).1.outAmount = some 500 ∧
      (sale DEFAULT .tp1 slippageAnswers boughtRow).1.sellPhase = some .postTp1 ∧
      (sale DEFAULT .tp1 slippageAnswers boughtRow).2 = some .slippageFailed := by decide +kernel
  obtain ⟨hout, hphase, hending⟩ := hsale
  refine ⟨fun h => ?_, hout, hphase⟩
  have hsame := (h _ hending trivial).1
  rw [hout] at hsame
  exact absurd hsame (by decide)

end SuperAi.Snipe
