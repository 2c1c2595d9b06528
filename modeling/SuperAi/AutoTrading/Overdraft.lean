import SuperAi.AutoTrading.Conservation

/-! # The balance guard

`openPosition` compares the size with a balance that it has read, and takes the size off whatever the balance is
when it commits. While the balance at the commit is no lower than the one that was read, no opening overdraws it
(`opens_covered`).
-/
namespace SuperAi.AutoTrading
open SuperAi.Foundations
set_option autoImplicit false

def AutoBook.balanceOf (b : AutoBook) (userId : String) : ℚ := (b.portfolioOf userId).currentBalanceUsd

/-- A position that is opened leaves no balance negative that was not. -/
def NoOverdraft (s : AutoDesk) : AutoStep → Prop
  | .advance i now =>
    match s.calls[i]? with
    | some (.openTx input portfolio) => ∀ book ∈ (s.book.openTx input portfolio now).toOption, ∀ userId,
        0 ≤ s.book.balanceOf userId → 0 ≤ book.balanceOf userId
    | _ => True
  | _ => True

/-- A call that opens a position now finds a balance of at least what it has read. -/
def AutoCall.KeepsBalance (b : AutoBook) (now : ℤ) : AutoCall → Prop
  | .openTx input portfolio =>
    (b.openTx input portfolio now).toOption.isSome = true → portfolio.currentBalanceUsd ≤ b.balanceOf input.userId
  | _ => True

instance (b : AutoBook) (now : ℤ) : (call : AutoCall) → Decidable (call.KeepsBalance b now)
  | .openTx _ _ => inferInstanceAs (Decidable (_ → _))
  | .findPortfolio _ | .createPortfolio _ | .findExisting _ | .findPosition _ _ | .closeTx _ _ | .resetTx _
  | .resetPortfolio _ | .opened _ | .finished | .failed => isTrue trivial

/-- A position is opened when the balance is at least what the call has read. -/
def BalanceKept (s : AutoDesk) : AutoStep → Prop
  | .advance i now => ∀ call ∈ s.calls[i]?, call.KeepsBalance s.book now
  | _ => True

instance (s : AutoDesk) : (e : AutoStep) → Decidable (BalanceKept s e)
  | .advance i now => inferInstanceAs (Decidable (∀ call ∈ s.calls[i]?, call.KeepsBalance s.book now))
  | .openPosition _ | .closePosition _ _ | .reset _ => isTrue trivial

/-- The guard has been passed with the balance that was read. -/
def AutoCall.Covered : AutoCall → Prop
  | .openTx input portfolio => input.sizeUsd ≤ portfolio.currentBalanceUsd
  | _ => True

theorem guardBalance_covered (input : OpenAutoPositionInput) (portfolio : AutoPortfolio) :
    (guardBalance input portfolio).Covered := by
  unfold guardBalance
  by_cases hlow : portfolio.currentBalanceUsd < input.sizeUsd
  · rw [if_pos hlow]
    trivial
  · rw [if_neg hlow]
    exact not_lt.mp hlow

theorem advance_covered {b b' : AutoBook} {now : ℤ} {call next : AutoCall}
    (h : call.advance b now = some (b', next)) : next.Covered := by
  cases call with
  | findPortfolio input =>
    simp only [AutoCall.advance] at h
    split at h
    · obtain ⟨-, rfl⟩ := Prod.mk.inj (Option.some.inj h)
      exact guardBalance_covered _ _
    · obtain ⟨-, rfl⟩ := Prod.mk.inj (Option.some.inj h)
      trivial
  | createPortfolio input =>
    simp only [AutoCall.advance] at h
    split at h
    · obtain ⟨-, rfl⟩ := Prod.mk.inj (Option.some.inj h)
      exact guardBalance_covered _ _
    · obtain ⟨-, rfl⟩ := Prod.mk.inj (Option.some.inj h)
      trivial
  | openTx input portfolio =>
    simp only [AutoCall.advance] at h
    split at h
    all_goals
      obtain ⟨-, rfl⟩ := Prod.mk.inj (Option.some.inj h)
      trivial
  | findPosition id decision =>
    simp only [AutoCall.advance] at h
    split at h
    all_goals
      obtain ⟨-, rfl⟩ := Prod.mk.inj (Option.some.inj h)
      trivial
  | closeTx position trade =>
    simp only [AutoCall.advance] at h
    split at h
    all_goals
      obtain ⟨-, rfl⟩ := Prod.mk.inj (Option.some.inj h)
      trivial
  | findExisting input =>
    obtain ⟨-, rfl⟩ := Prod.mk.inj (Option.some.inj h)
    trivial
  | resetTx userId =>
    obtain ⟨-, rfl⟩ := Prod.mk.inj (Option.some.inj h)
    trivial
  | resetPortfolio userId =>
    obtain ⟨-, rfl⟩ := Prod.mk.inj (Option.some.inj h)
    trivial
  | opened position => cases h
  | finished => cases h
  | failed => cases h

def CallsCovered (s : AutoDesk) : Prop := ∀ call ∈ s.calls, call.Covered

theorem CallsCovered.step {s s' : AutoDesk} (h : CallsCovered s) {e : AutoStep} (hstep : autoTrade.step s e = some s') :
    CallsCovered s' := by
  cases e with
  | openPosition input =>
    obtain rfl := Option.some.inj hstep
    refine List.forall_mem_append.mpr ⟨h, List.forall_mem_singleton.mpr ?_⟩
    unfold startOpen
    split
    · trivial
    · trivial
  | closePosition id decision =>
    obtain rfl := Option.some.inj hstep
    exact List.forall_mem_append.mpr ⟨h, List.forall_mem_singleton.mpr (by trivial)⟩
  | reset userId =>
    obtain rfl := Option.some.inj hstep
    exact List.forall_mem_append.mpr ⟨h, List.forall_mem_singleton.mpr (by trivial)⟩
  | advance i now =>
    obtain ⟨call, hcall, hnext⟩ := Option.bind_eq_some_iff.mp hstep
    obtain ⟨⟨book, next⟩, hadvance, rfl⟩ := Option.map_eq_some_iff.mp hnext
    exact forall_mem_set h (advance_covered hadvance) i

/-- What is opened costs no more than the balance that was read, and that is still there. -/
theorem noOverdraft_of_kept {s : AutoDesk} (h : CallsCovered s) {e : AutoStep} (hkept : BalanceKept s e) :
    NoOverdraft s e := by
  cases e with
  | advance i now =>
    unfold NoOverdraft
    dsimp only
    split
    · rename_i input portfolio hcall
      intro book hbook userId hbalance
      have htx : s.book.openTx input portfolio now = .ok book := by
        cases hr : s.book.openTx input portfolio now with
        | error e => simp [hr, Except.toOption] at hbook
        | ok committed => simpa [hr, Except.toOption] using hbook
      have hread : portfolio.currentBalanceUsd ≤ s.book.balanceOf input.userId :=
        hkept (.openTx input portfolio) hcall (by rw [htx]; rfl)
      have hsize : input.sizeUsd ≤ portfolio.currentBalanceUsd := h _ (List.mem_of_getElem? hcall)
      have hledger : book.balanceOf userId =
          if userId = input.userId then s.book.balanceOf userId - input.sizeUsd else s.book.balanceOf userId := by
        have hopened := congrArg Ledger.balance (ledger_openTx htx userId)
        by_cases hu : userId = input.userId
        · rw [if_pos hu] at hopened ⊢
          exact hopened
        · rw [if_neg hu] at hopened ⊢
          exact hopened
      rw [hledger]
      by_cases hu : userId = input.userId
      · rw [if_pos hu, hu]
        linarith
      · rw [if_neg hu]
        exact hbalance
    · trivial
  | openPosition input => trivial
  | closePosition id decision => trivial
  | reset userId => trivial

/-- In a run in which positions are opened while the balance is at least what was read, none overdraws it. -/
theorem opens_covered {es : List AutoStep} {s : AutoDesk} (hrun : autoTrade.GuardedRun BalanceKept {} es s) :
    autoTrade.GuardedRun NoOverdraft {} es s :=
  hrun.mono_of_invariant (fun _ _ _ h hkept hstep => ⟨h.step hstep, noOverdraft_of_kept h hkept⟩)
    fun _ hcall => absurd hcall List.not_mem_nil

/-! ## Two runs -/

def openFor (tokenAddress : String) (sizeUsd : ℚ) : OpenAutoPositionInput :=
  { userId := "ann", tokenAddress, entryPriceUsd := 1, sizeUsd }

/-- The second call reads the balance when the first position has been paid for. -/
def oneByOne : List AutoStep :=
  [.openPosition (openFor "a" 60000), .openPosition (openFor "b" 40000), .advance 0 0, .advance 0 0, .advance 0 1,
    .advance 1 2, .advance 1 3]

theorem oneByOne_covered :
    ∃ s, autoTrade.run {} oneByOne = some s ∧ autoTrade.GuardedRun NoOverdraft {} oneByOne s := by
  have hsome : (autoTrade.guardedRun BalanceKept {} oneByOne).isSome = true := by decide +kernel
  obtain ⟨s, hs⟩ := Option.isSome_iff_exists.mp hsome
  have hrun := StepSystem.GuardedRun.of_guardedRun hs
  exact ⟨s, hrun.run, opens_covered hrun⟩

/-- Both calls have read the whole balance when the first position is paid for. -/
def bothRead : List AutoStep :=
  [.openPosition (openFor "a" 60000), .openPosition (openFor "b" 60000), .advance 0 0, .advance 0 0, .advance 1 0,
    .advance 0 1]

/-- The second opening leaves the balance at -20000. -/
theorem bothRead_overdrawn : ¬ ∀ (es : List AutoStep) (s : AutoDesk), autoTrade.run {} es = some s →
    autoTrade.GuardedRun NoOverdraft {} es s := by
  intro h
  have hsome : (autoTrade.run {} (bothRead ++ [.advance 1 2])).isSome = true := by decide +kernel
  have hany : (autoTrade.run {} bothRead).any (fun u => decide
      (u.calls[1]? = some (.openTx (openFor "b" 60000) { resetAt := 0 }) ∧ 0 ≤ u.book.balanceOf "ann" ∧
        (u.book.openTx (openFor "b" 60000) { resetAt := 0 } 2).toOption.any
          (fun book => decide (book.balanceOf "ann" < 0)) = true)) = true := by decide +kernel
  obtain ⟨s, hs⟩ := Option.isSome_iff_exists.mp hsome
  obtain ⟨u, hu, hbefore⟩ := (Option.any_eq_true _ _).mp hany
  obtain ⟨hcall, hbalance, hafter⟩ := of_decide_eq_true hbefore
  obtain ⟨book, hbook, hnegative⟩ := (Option.any_eq_true _ _).mp hafter
  have hno : NoOverdraft u (.advance 1 2) :=
    (StepSystem.GuardedRun.iff_forall_steps hs).mp (h _ s hs) bothRead (.advance 1 2) [] u rfl hu
  unfold NoOverdraft at hno
  dsimp only at hno
  rw [hcall] at hno
  exact absurd (hno book hbook "ann" hbalance) (not_le.mpr (of_decide_eq_true hnegative))

end SuperAi.AutoTrading
