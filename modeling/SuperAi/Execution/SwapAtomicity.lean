import SuperAi.Execution.Swap

/-! # What a rejected swap leaves behind

A swap that rejects is atomic if the chain has confirmed no swap for it and no paper trade and no
paper balance has changed. After the execution, `swap` awaits up to six further writes outside any
handler, and a transaction whose sending or confirming throws may have landed; these are all the
ways in which atomicity fails (`swap_atomic_iff`).
-/
namespace SuperAi.Execution
open SuperAi.Foundations SuperAi.Risk
set_option autoImplicit false

def OnChainTx.isSwap : OnChainTx → Bool
  | .swap _ _ _ => true
  | .selfTransfer _ => false

/-- What callers take a rejection to mean: none of this has changed. -/
def World.sold (w : World) : List OnChainTx × List TradeRow × KeyValue (String × String) ℤ :=
  (w.onChain.filter OnChainTx.isSwap, w.trades.filter fun t => t.mode == .PAPER, w.paperBalance)

def SwapAtomic (ans : Answers) (input : SwapInput) (w : World) : Prop :=
  (∃ e, (swap ans input w).1 = .error e) → (swap ans input w).2.sold = w.sold

/-! ## The ways in which it fails -/

def Failed (answer : Except String Unit) : Prop := ∃ e, answer = .error e

def FailsAfterTrade (ans : Answers) (adm : Admitted) (outAmount : String) : Prop :=
  (adm.mode = .PAPER ∧ (paperDelta outAmount).isSome = true ∧ Failed ans.paperBalance) ∨
    ((adm.input.orderId.filter (· ≠ "")).isSome = true ∧ Failed ans.orderUpdate) ∨
    Failed ans.recordOrder ∨
    (inferSwapSide adm.input.tokenIn adm.input.tokenOut = .buy ∧ Failed ans.recordTrade) ∨
    Failed ans.audit

/-- From attempt `i` to attempt `k` every quote and every transaction is delivered, and the chain
rejects the transactions before the last one for their slippage. -/
def Attempts (ans : Answers) (i k : ℕ) : Prop :=
  (∀ j, i ≤ j → j ≤ k → (∃ outAmount, ans.quote j = .ok outAmount) ∧ ans.swapTx j = .ok .transaction) ∧
    ∀ j, i ≤ j → j < k → ans.send j = .rejected true

/-- A live swap gets as far as sending its transaction number `k`. -/
def Sends (ans : Answers) (input : SwapInput) (k : ℕ) : Prop :=
  (∃ address, ans.wallet = .ok (some address)) ∧
    match input.chain with
    | .SOLANA => k < MAX_SWAP_ATTEMPTS ∧ Attempts ans 0 k
    | .EVM => k = 0 ∧ ans.swapTx 0 = .ok .transaction

/-- The pattern of answers under which an admitted swap is executed and still rejects: a live swap
whose transaction has landed while its sending or confirming, or a later write, throws; a paper
swap one of whose writes after the trade record throws. -/
def Exposed (ans : Answers) (adm : Admitted) : Prop :=
  match adm.mode with
  | .LIVE => ∃ k, Sends ans adm.input k ∧ ((∃ e, ans.send k = .threw e true) ∨
      (∃ txHash, ans.send k = .confirmed txHash) ∧
        (Failed ans.tradeCreate ∨ FailsAfterTrade ans adm (paperAmount ans adm.input)))
  | .PAPER => ans.tradeCreate = .ok () ∧ FailsAfterTrade ans adm (paperAmount ans adm.input)

/-! ## Live executions -/

theorem solanaAttempts_of_sends {ans : Answers} {input : SwapInput} {k : ℕ}
    (hsend : ans.send k ≠ .rejected true) (left i : ℕ) (hik : i ≤ k) (hkl : k < i + left)
    (h : Attempts ans i k) :
    ∃ out, solanaAttempts ans input left i = sendTx (ans.send k) (.ofInput input) out := by
  induction left generalizing i with
  | zero => omega
  | succ left ih =>
    obtain ⟨⟨out, hquote⟩, htx⟩ := h.1 i le_rfl hik
    simp only [solanaAttempts, hquote, htx]
    rcases Nat.eq_or_lt_of_le hik with rfl | hlt
    · exact ⟨out, if_neg hsend⟩
    · rw [if_pos (h.2 i le_rfl hlt)]
      exact ih (i + 1) hlt (by omega)
        ⟨fun j hj => h.1 j (by omega), fun j hj => h.2 j (by omega)⟩

theorem sends_of_solanaAttempts {ans : Answers} {input : SwapInput} {tx : OnChainTx} (left i : ℕ)
    (h : tx ∈ (solanaAttempts ans input left i).2) :
    ∃ k, i ≤ k ∧ k < i + left ∧ Attempts ans i k ∧
      ∃ out, solanaAttempts ans input left i = sendTx (ans.send k) (.ofInput input) out := by
  induction left generalizing i with
  | zero => simp [solanaAttempts] at h
  | succ left ih =>
    rw [solanaAttempts] at h ⊢
    split at h
    · simp at h
    · simp at h
    · simp at h
    · rename_i outAmount hquote htx
      by_cases hretry : ans.send i = .rejected true
      · rw [if_pos hretry] at h
        obtain ⟨k, hik, hkl, hk, hrun⟩ := ih (i + 1) h
        refine ⟨k, by omega, by omega, ⟨fun j hij hjk => ?_, fun j hij hjk => ?_⟩, ?_⟩
        · rcases Nat.eq_or_lt_of_le hij with rfl | hlt
          · exact ⟨⟨outAmount, hquote⟩, htx⟩
          · exact hk.1 j hlt hjk
        · rcases Nat.eq_or_lt_of_le hij with rfl | hlt
          · exact hretry
          · exact hk.2 j hlt hjk
        · simpa only [hquote, htx, if_pos hretry] using hrun
      · refine ⟨i, le_rfl, by omega, ⟨fun j hij hji => ?_, fun j hij hji => by omega⟩, outAmount, ?_⟩
        · obtain rfl : i = j := by omega
          exact ⟨⟨outAmount, hquote⟩, htx⟩
        · rw [if_neg hretry]

theorem execute_of_sends {ans : Answers} {adm : Admitted} {k : ℕ} (hlive : adm.mode = .LIVE)
    (h : Sends ans adm.input k) (hsend : ans.send k ≠ .rejected true) :
    ∃ out, execute ans adm = sendTx (ans.send k) (.ofInput adm.input) out := by
  obtain ⟨⟨address, hwallet⟩, hchain⟩ := h
  unfold execute
  cases hc : adm.input.chain with
  | SOLANA =>
    rw [hc] at hchain
    obtain ⟨hk, hattempts⟩ := hchain
    obtain ⟨⟨out, hquote⟩, htx⟩ := hattempts.1 0 le_rfl (Nat.zero_le k)
    simp only [hlive, executeSolana, hwallet, hquote, htx]
    exact solanaAttempts_of_sends hsend MAX_SWAP_ATTEMPTS 0 (Nat.zero_le k) (by omega) hattempts
  | EVM =>
    rw [hc] at hchain
    obtain ⟨rfl, htx⟩ := hchain
    simp only [hlive, executeEvm, hwallet, htx]
    exact ⟨_, rfl⟩

theorem sendTx_mem {answer : SendAnswer} {tx tx' : OnChainTx} {out : String}
    (h : tx' ∈ (sendTx answer tx out).2) : tx' = tx := by
  unfold sendTx at h
  split at h
  · exact List.mem_singleton.mp h
  · simp at h
  · split at h
    · exact List.mem_singleton.mp h
    · simp at h

theorem sends_of_execute {ans : Answers} {adm : Admitted} {tx : OnChainTx} (hlive : adm.mode = .LIVE)
    (h : tx ∈ (execute ans adm).2) (hswap : tx.isSwap = true) :
    ∃ k, Sends ans adm.input k ∧
      ∃ out, execute ans adm = sendTx (ans.send k) (.ofInput adm.input) out := by
  unfold execute at h ⊢
  unfold Sends
  cases hc : adm.input.chain with
  | SOLANA =>
    simp only [hlive, hc] at h ⊢
    unfold executeSolana at h ⊢
    split at h
    · simp at h
    · simp at h
    · simp at h
    · simp at h
    · rw [sendTx_mem h] at hswap
      exact nomatch hswap
    · rename_i address outAmount hwallet hquote htx
      obtain ⟨k, -, hkl, hk, out, hrun⟩ := sends_of_solanaAttempts MAX_SWAP_ATTEMPTS 0 h
      exact ⟨k, ⟨⟨address, hwallet⟩, by omega, hk⟩, out, by simpa only [hwallet, hquote, htx] using hrun⟩
  | EVM =>
    simp only [hlive, hc] at h ⊢
    unfold executeEvm at h ⊢
    split at h
    · simp at h
    · simp at h
    · simp at h
    · rw [sendTx_mem h] at hswap
      exact nomatch hswap
    · rename_i address hwallet htx
      exact ⟨0, ⟨⟨address, hwallet⟩, rfl, htx⟩, _, rfl⟩

/-- A transaction of a live swap has landed, and what then has to hold of its fill does. -/
theorem landed_iff {ans : Answers} {adm : Admitted} (hlive : adm.mode = .LIVE) {Q : Prop} :
    ((∃ tx ∈ (execute ans adm).2, tx.isSwap = true) ∧ ∀ fill, (execute ans adm).1 = .ok fill → Q) ↔
      ∃ k, Sends ans adm.input k ∧ ((∃ e, ans.send k = .threw e true) ∨
        (∃ txHash, ans.send k = .confirmed txHash) ∧ Q) := by
  constructor
  · rintro ⟨⟨tx, htx, hswap⟩, hQ⟩
    obtain ⟨k, hk, out, hrun⟩ := sends_of_execute hlive htx hswap
    rw [hrun] at htx hQ
    refine ⟨k, hk, ?_⟩
    cases hsend : ans.send k with
    | confirmed txHash =>
      rw [hsend] at hQ
      exact .inr ⟨⟨txHash, rfl⟩, hQ _ rfl⟩
    | rejected slippage => simp [hsend, sendTx] at htx
    | threw e landed =>
      rw [hsend] at htx
      cases landed with
      | true => exact .inl ⟨e, rfl⟩
      | false => simp [sendTx] at htx
  · rintro ⟨k, hk, ⟨e, hsend⟩ | ⟨⟨txHash, hsend⟩, hQ⟩⟩
    · obtain ⟨out, hrun⟩ := execute_of_sends hlive hk (by rw [hsend]; exact nofun)
      rw [hrun, hsend]
      exact ⟨⟨_, List.mem_singleton_self _, rfl⟩, fun fill h => nomatch h⟩
    · obtain ⟨out, hrun⟩ := execute_of_sends hlive hk (by rw [hsend]; exact nofun)
      rw [hrun, hsend]
      exact ⟨⟨_, List.mem_singleton_self _, rfl⟩, fun _ _ => hQ⟩

/-! ## Sequences of awaited writes -/

section awaited
variable {α β γ : Type}

theorem run_bind (m : SwapM α) (f : α → SwapM β) (w : World) : (m >>= f).run w =
    match m.run w with
    | (.ok a, w') => (f a).run w'
    | (.error e, w') => (.error e, w') := by
  show (ExceptT.bindCont f (m.run w).1).run (m.run w).2 = _
  cases h : m.run w with
  | mk r w' => cases r <;> rfl

/-- The sequence throws exactly under `P`, whatever the state. -/
def Rejects (m : SwapM α) (P : Prop) : Prop := ∀ w, (∃ e, (m.run w).1 = .error e) ↔ P

theorem Rejects.pure (a : α) : Rejects (pure a) False := fun w => by
  simp only [iff_false, not_exists]
  exact fun e h => nomatch h

theorem Rejects.bind {m : SwapM α} {f : α → SwapM β} {P Q : Prop} (hm : Rejects m P)
    (hf : ∀ a, Rejects (f a) Q) : Rejects (m >>= f) (P ∨ Q) := fun w => by
  have hP := hm w
  rw [run_bind]
  rcases hrun : m.run w with ⟨r, w'⟩
  rw [hrun] at hP
  cases r with
  | error e =>
    have hthrown : P := hP.mp ⟨e, rfl⟩
    exact ⟨fun _ => .inl hthrown, fun _ => ⟨e, rfl⟩⟩
  | ok a =>
    have hnot : ¬ P := fun h => by simpa using hP.mpr h
    simpa [hnot] using hf a w'

theorem Rejects.awaited (answer : Except String Unit) (effect : World → World) :
    Rejects (awaited answer effect) (Failed answer) := fun w => by
  cases answer with
  | ok u =>
    constructor
    · rintro ⟨e, h⟩
      exact nomatch h
    · rintro ⟨e, h⟩
      exact nomatch h
  | error e => exact ⟨fun _ => ⟨e, rfl⟩, fun _ => ⟨e, rfl⟩⟩

theorem Rejects.awaitIf {c : Prop} [Decidable c] {m : SwapM Unit} {P : Prop} (h : Rejects m P) :
    Rejects (awaitIf c m) (c ∧ P) := by
  by_cases hc : c
  · simpa [Execution.awaitIf, hc] using h
  · simpa [Execution.awaitIf, hc] using Rejects.pure ()

theorem Rejects.updateOrder (answer : Except String Unit) (input : SwapInput) (status : OrderStatus) :
    Rejects (updateOrder answer input status)
      ((input.orderId.filter (· ≠ "")).isSome = true ∧ Failed answer) := by
  unfold Execution.updateOrder
  cases input.orderId.filter (· ≠ "") with
  | none => simpa using Rejects.pure ()
  | some orderId => simpa using Rejects.awaited answer _

def Keeps (f : World → γ) (m : SwapM α) : Prop := ∀ w, f (m.run w).2 = f w

theorem Keeps.pure (f : World → γ) (a : α) : Keeps f (pure a) := fun _ => rfl

theorem Keeps.throw (f : World → γ) (e : String) : Keeps f (throw e : SwapM α) := fun _ => rfl

theorem Keeps.bind {f : World → γ} {m : SwapM α} {k : α → SwapM β} (hm : Keeps f m)
    (hk : ∀ a, Keeps f (k a)) : Keeps f (m >>= k) := fun w => by
  have hfirst := hm w
  rw [run_bind]
  rcases hrun : m.run w with ⟨r, w'⟩
  rw [hrun] at hfirst
  cases r with
  | error e => exact hfirst
  | ok a => exact (hk a w').trans hfirst

theorem Keeps.awaited {f : World → γ} (answer : Except String Unit) {effect : World → World}
    (h : ∀ w, f (effect w) = f w) : Keeps f (awaited answer effect) := fun w => by
  cases answer with
  | ok u => exact h w
  | error e => rfl

theorem Keeps.awaitIf {f : World → γ} {c : Prop} [Decidable c] {m : SwapM Unit} (h : c → Keeps f m) :
    Keeps f (awaitIf c m) := by
  by_cases hc : c
  · simpa [Execution.awaitIf, hc] using h hc
  · simpa [Execution.awaitIf, hc] using Keeps.pure f ()

theorem Keeps.updateOrder {f : World → γ} (answer : Except String Unit) (input : SwapInput)
    (status : OrderStatus) (h : ∀ orderId w, f (setOrder orderId status w) = f w) :
    Keeps f (updateOrder answer input status) := by
  unfold Execution.updateOrder
  cases input.orderId.filter (· ≠ "") with
  | none => exact Keeps.pure f ()
  | some orderId => exact Keeps.awaited answer (h orderId)

end awaited

/-! ## Recording a fill -/

theorem rejects_updatePaperBalance (ans : Answers) (userId token amount : String) :
    Rejects (updatePaperBalance ans userId token amount)
      ((paperDelta amount).isSome = true ∧ Failed ans.paperBalance) := by
  unfold updatePaperBalance
  cases paperDelta amount with
  | none => simpa using Rejects.pure ()
  | some delta => simpa using Rejects.awaited ans.paperBalance _

theorem rejects_recordRest (ans : Answers) (adm : Admitted) (fill : Fill) :
    Rejects (recordRest ans adm fill) (FailsAfterTrade ans adm fill.outAmount) := by
  have haudit : Rejects (awaited ans.audit (fun w => { w with
      auditLog := w.auditLog ++ [(adm.input.userId, "execution.swap")] }) >>= fun _ => pure fill)
      (Failed ans.audit) := by
    simpa using (Rejects.awaited ans.audit _).bind fun _ => Rejects.pure fill
  exact (rejects_updatePaperBalance ans _ _ _).awaitIf.bind fun _ =>
    (Rejects.updateOrder ans.orderUpdate adm.input .FILLED).bind fun _ =>
      (Rejects.awaited ans.recordOrder _).bind fun _ =>
        (Rejects.awaited ans.recordTrade _).awaitIf.bind fun _ => haudit

theorem rejects_record (ans : Answers) (adm : Admitted) (fill : Fill) :
    Rejects (record ans adm fill) (Failed ans.tradeCreate ∨ FailsAfterTrade ans adm fill.outAmount) :=
  (Rejects.awaited ans.tradeCreate _).bind fun _ => rejects_recordRest ans adm fill

theorem recordRest_keeps {γ : Type} {f : World → γ} (ans : Answers) (adm : Admitted) (fill : Fill)
    (hbalance : adm.mode = .PAPER → ∀ key delta w, f (addPaperBalance key delta w) = f w)
    (horders : ∀ orderId status w, f (setOrder orderId status w) = f w)
    (hrest : ∀ w compliance dna auditLog, f { w with compliance, dna, auditLog } = f w) :
    Keeps f (recordRest ans adm fill) := by
  refine (Keeps.awaitIf fun hpaper => ?_).bind fun _ => ?_
  · unfold updatePaperBalance
    cases paperDelta fill.outAmount with
    | none => exact Keeps.pure f ()
    | some delta => exact Keeps.awaited ans.paperBalance (hbalance hpaper _ delta)
  refine (Keeps.updateOrder _ _ _ fun orderId w => horders orderId _ w).bind fun _ => ?_
  refine (Keeps.awaited _ fun w => hrest w _ w.dna w.auditLog).bind fun _ => ?_
  refine (Keeps.awaitIf fun _ => Keeps.awaited _ fun w => hrest w w.compliance _ w.auditLog).bind fun _ => ?_
  exact (Keeps.awaited _ fun w => hrest w w.compliance w.dna _).bind fun _ => Keeps.pure f fill

theorem recordRest_keeps_trades (ans : Answers) (adm : Admitted) (fill : Fill) :
    Keeps World.trades (recordRest ans adm fill) :=
  recordRest_keeps ans adm fill (fun _ _ _ _ => rfl) (fun _ _ _ => rfl) fun _ _ _ _ => rfl

theorem record_keeps_sold (ans : Answers) {adm : Admitted} (fill : Fill) (hlive : adm.mode = .LIVE) :
    Keeps World.sold (record ans adm fill) := by
  have hrow : (adm.tradeRow fill).mode = .LIVE := hlive
  refine (Keeps.awaited ans.tradeCreate fun w => ?_).bind fun _ =>
    recordRest_keeps ans adm fill (fun hpaper => ?_) (fun _ _ _ => rfl) fun _ _ _ _ => rfl
  · simp [World.sold, hrow]
  · rw [hlive] at hpaper
    exact nomatch hpaper

theorem recordFailure_keeps_sold (ans : Answers) (adm : Admitted) (e : String) :
    Keeps World.sold (recordFailure ans adm e) := by
  refine Keeps.bind ?_ fun _ => Keeps.bind ?_ fun _ => Keeps.throw World.sold e
  · exact Keeps.awaited ans.failureAudit fun _ => rfl
  · exact Keeps.updateOrder ans.failureOrder adm.input .FAILED fun _ _ => rfl

theorem recordFailure_rejects (ans : Answers) (adm : Admitted) (error : String) (w : World) :
    ∃ e, ((recordFailure ans adm error).run w).1 = .error e := by
  have hthrow : Rejects (throw error : SwapM Fill) True := fun w => ⟨fun _ => trivial, fun _ => ⟨error, rfl⟩⟩
  refine ((Rejects.awaited ans.failureAudit _).bind (fun _ =>
    (Rejects.updateOrder ans.failureOrder adm.input .FAILED).bind fun _ => hthrow) w).mpr ?_
  exact .inr (.inr trivial)

/-! ## Swaps -/

theorem execute_paper {ans : Answers} {adm : Admitted} (hpaper : adm.mode = .PAPER) :
    execute ans adm = (.ok ⟨"paper-" ++ ans.now, paperAmount ans adm.input⟩, []) := by
  simp only [execute, hpaper]
  rfl

theorem failsAfterTrade_live {ans : Answers} {adm : Admitted} (hlive : adm.mode = .LIVE)
    (out out' : String) : FailsAfterTrade ans adm out ↔ FailsAfterTrade ans adm out' := by
  simp [FailsAfterTrade, hlive]

theorem swap_admitted {ans : Answers} {input : SwapInput} {adm : Admitted} {w : World}
    (h : admission ans input = .ok adm) : swap ans input w =
      let w' := { w with onChain := w.onChain ++ (execute ans adm).2 }
      match (execute ans adm).1 with
      | .error e => (recordFailure ans adm e).run w'
      | .ok fill => (record ans adm fill).run w' := by
  unfold swap
  cases hadmission : admission ans input with
  | error e => simp [hadmission] at h
  | ok adm' =>
    obtain rfl : adm' = adm := Except.ok.inj (hadmission.symm.trans h)
    rfl

theorem swap_atomic_live {ans : Answers} {input : SwapInput} {adm : Admitted} {w : World}
    (h : admission ans input = .ok adm) (hlive : adm.mode = .LIVE) :
    SwapAtomic ans input w ↔ ¬ Exposed ans adm := by
  -- the transactions of the call are the only change that counts
  have hsold : ∀ w' : World, w' = { w with onChain := w.onChain ++ (execute ans adm).2 } →
      (w'.sold = w.sold ↔ ¬ ∃ tx ∈ (execute ans adm).2, tx.isSwap = true) := by
    rintro w' rfl
    simp [World.sold, List.filter_append]
  unfold SwapAtomic Exposed
  rw [swap_admitted h]
  simp only [hlive]
  rw [← landed_iff hlive]
  cases hfill : (execute ans adm).1 with
  | error e =>
    simp only [recordFailure_rejects, recordFailure_keeps_sold ans adm e _, forall_const, hsold _ rfl]
    simp
  | ok fill =>
    simp only [rejects_record ans adm fill _, record_keeps_sold ans fill hlive _, hsold _ rfl,
      failsAfterTrade_live hlive fill.outAmount (paperAmount ans adm.input), Except.ok.injEq, forall_eq']
    rw [imp_not_comm, not_and]

theorem swap_atomic_paper {ans : Answers} {input : SwapInput} {adm : Admitted} {w : World}
    (h : admission ans input = .ok adm) (hpaper : adm.mode = .PAPER) :
    SwapAtomic ans input w ↔ ¬ Exposed ans adm := by
  obtain ⟨fill, hfill, hout⟩ : ∃ fill, execute ans adm = (.ok fill, []) ∧
      fill.outAmount = paperAmount ans adm.input := ⟨_, execute_paper hpaper, rfl⟩
  have hrow : (adm.tradeRow fill).mode = .PAPER := hpaper
  unfold SwapAtomic Exposed
  rw [swap_admitted h]
  simp only [hpaper, hfill, List.append_nil, ← hout]
  cases hcreate : ans.tradeCreate with
  | error e =>
    have hrun : (record ans adm fill).run w = (.error e, w) := by
      rw [record, run_bind, hcreate]
      rfl
    simp [hrun]
  | ok u =>
    -- the trade row is there, whatever happens to the later writes
    have hrun : (record ans adm fill).run w
        = (recordRest ans adm fill).run { w with trades := w.trades ++ [adm.tradeRow fill] } := by
      rw [record, run_bind, hcreate]
      rfl
    have hsold : ((recordRest ans adm fill).run { w with trades := w.trades ++ [adm.tradeRow fill] }).2.sold
        ≠ w.sold := by
      intro heq
      have htrades := congrArg (fun x => x.2.1.length) heq
      simp only [World.sold, recordRest_keeps_trades ans adm fill _] at htrades
      simp [List.filter_append, hrow] at htrades
    rw [hrun, rejects_recordRest ans adm fill]
    simp [hsold]

/-- The failures that break atomicity: those of a swap that passes its checks and is exposed. -/
def SwapExposed (ans : Answers) (input : SwapInput) : Prop :=
  ∃ adm, admission ans input = .ok adm ∧ Exposed ans adm

/-- **Swap atomicity.** For every input, every pattern of answers and every state. -/
theorem swap_atomic_iff (ans : Answers) (input : SwapInput) (w : World) :
    SwapAtomic ans input w ↔ ¬ SwapExposed ans input := by
  cases hadm : admission ans input with
  | error e =>
    have hswap : swap ans input w = (.error e, w) := by
      rw [swap, hadm]
    simp [SwapAtomic, SwapExposed, hswap, hadm]
  | ok adm =>
    have hexposed : SwapExposed ans input ↔ Exposed ans adm := by
      simp [SwapExposed, hadm]
    rw [hexposed]
    cases hmode : adm.mode with
    | LIVE => exact swap_atomic_live hadm hmode
    | PAPER => exact swap_atomic_paper hadm hmode

/-- A live purchase that the chain has confirmed, whose DNA record cannot be written. -/
theorem swap_not_atomic : ¬ ∀ (ans : Answers) (input : SwapInput) (w : World), SwapAtomic ans input w := by
  intro h
  have hsame := h { sampleAnswers with paperMode := .ok (some false), recordTrade := .error "timeout" }
    (sampleInput 100) {} ⟨"timeout", by decide +kernel⟩
  revert hsame
  decide +kernel

end SuperAi.Execution
