import SuperAi.Execution.SwapAtomicity
import SuperAi.Foundations.Passes
import Mathlib.Tactic.Linarith
import Mathlib.Tactic.FieldSimp
import Mathlib.Algebra.Order.Ring.Abs

/-! # Dynamic sizing

`swap` fills in a missing amount before it sizes the notional, and would recompute the amount only if
it were still missing then. So the sized notional is the price of the trade, and the amount is that of
the unsized input whatever the size is.
-/
namespace SuperAi.Execution
open SuperAi.Foundations SuperAi.Auth SuperAi.Risk
set_option autoImplicit false

variable {ans : Answers} {input : SwapInput} {adm : Admitted}

/-! ## The size -/

/-- The share of the ceiling that the verdict and the risk flags leave. -/
def sizeShare (ans : Answers) (riskFlags : List String) : ℚ := computeDynamicSize ans 1 riskFlags

theorem computeDynamicSize_eq (ans : Answers) {ceiling : ℚ} (hpos : 0 < ceiling) (riskFlags : List String) :
    computeDynamicSize ans ceiling riskFlags = ceiling * sizeShare ans riskFlags := by
  unfold sizeShare computeDynamicSize
  split
  · simp
  · simp only [mul_max_of_nonneg _ _ hpos.le, mul_min_of_nonneg _ _ hpos.le, one_mul, mul_one]

theorem sizeShare_le_one (ans : Answers) (riskFlags : List String) : sizeShare ans riskFlags ≤ 1 := by
  unfold sizeShare computeDynamicSize
  split
  · exact le_refl 1
  · apply max_le
    · norm_num
    · exact min_le_left _ _

/-- Nothing speaks against the full size. -/
def FullSize (ans : Answers) (riskFlags : List String) : Prop :=
  ∀ verdict, ans.verdict = .ok verdict →
    90 ≤ (verdict.map VerdictHistory.aiScore).getD 0 ∧ "HONEYPOT" ∉ riskFlags ∧
      "newToken" ∉ riskFlags ∧ "NEW_TOKEN" ∉ riskFlags ∧
      ∀ factor ∈ (verdict.map VerdictHistory.riskFactors).getD [], ¬ signalsThinLiquidity factor

section Reduction
variable {c : Prop} [Decidable c] {m k : ℚ}

theorem reduced_le_one (hm : m ≤ 1) (hk0 : 0 < k) (hk : k < 1) : (if c then m * k else m) ≤ 1 := by
  split
  · nlinarith
  · exact hm

theorem one_le_reduced_iff (hm : m ≤ 1) (hk0 : 0 < k) (hk : k < 1) :
    1 ≤ (if c then m * k else m) ↔ 1 ≤ m ∧ ¬ c := by
  by_cases hc : c
  · simp only [hc, if_true, not_true_eq_false, and_false, iff_false, not_le]
    nlinarith
  · simp [hc]

end Reduction

/-- The multiplier only gets smaller from the tier of the score on. -/
theorem sizeShare_eq_one_iff (ans : Answers) (riskFlags : List String) :
    sizeShare ans riskFlags = 1 ↔ FullSize ans riskFlags := by
  unfold sizeShare computeDynamicSize FullSize
  cases hverdict : ans.verdict with
  | error e => simp
  | ok verdict =>
    simp only [Except.ok.injEq, forall_eq']
    have htier (score : ℤ) : (if 90 ≤ score then (1 : ℚ) else if 80 ≤ score then 7 / 10
        else if 70 ≤ score then 1 / 2 else 3 / 10) ≤ 1 := by
      split_ifs <;> norm_num
    have hfull (score : ℤ) : 1 ≤ (if 90 ≤ score then (1 : ℚ) else if 80 ≤ score then 7 / 10
        else if 70 ≤ score then 1 / 2 else 3 / 10) ↔ 90 ≤ score := by
      split_ifs <;> norm_num <;> omega
    have hmax (m : ℚ) : max (1 * (1 / 10)) (min 1 (1 * m)) = 1 ↔ 1 ≤ m := by
      rw [one_mul, one_mul]
      constructor
      · intro h
        by_contra hm
        rw [min_eq_right (not_le.mp hm).le] at h
        grind
      · intro hm
        rw [min_eq_left hm]
        norm_num
    have hhalf : (0 : ℚ) < 1 / 2 ∧ (1 : ℚ) / 2 < 1 := by norm_num
    have hmost : (0 : ℚ) < 7 / 10 ∧ (7 : ℚ) / 10 < 1 := by norm_num
    have hflag := reduced_le_one (c := riskFlags.contains "HONEYPOT" = true)
      (htier ((verdict.map VerdictHistory.aiScore).getD 0)) hhalf.1 hhalf.2
    rw [hmax, one_le_reduced_iff (reduced_le_one hflag hmost.1 hmost.2) hmost.1 hmost.2,
      one_le_reduced_iff hflag hmost.1 hmost.2, one_le_reduced_iff (htier _) hhalf.1 hhalf.2, hfull]
    simp [and_assoc]

/-! ## The amount -/

/-- The amount of the swap without sizing. -/
def unsizedAmount (ans : Answers) (input : SwapInput) : Except String String :=
  (normalizeAmountIn ans { input with applyDynamicSizing := false }).map SwapInput.amountIn

/-- Normalizing only fills in the amount, and does it the same way with sizing and without. -/
theorem normalizeAmountIn_eq (ans : Answers) (input : SwapInput) :
    normalizeAmountIn ans input =
      (unsizedAmount ans input).map fun amount => { input with amountIn := amount } := by
  unfold unsizedAmount normalizeAmountIn
  by_cases hempty : input.amountIn = "" ∧ 0 < input.notionalUsd
  · by_cases hchain : input.chain = .SOLANA
    · cases hsol : ans.solPriceUsd with
      | error e => simp [hempty, hchain, bind, Except.bind, Except.map]
      | ok solUsd =>
        simp only [hempty, hchain, bind, Except.bind, pure, Except.pure, if_true, and_self]
        split <;> simp_all [Except.map, throw, throwThe, MonadExceptOf.throw]
    · simp [hempty, hchain, bind, Except.bind, Except.map, throw, throwThe, MonadExceptOf.throw]
  · simp only [hempty, bind, Except.bind, pure, Except.pure, if_false]
    split <;> simp_all [Except.map, throw, throwThe, MonadExceptOf.throw]

theorem admission_input (h : admission ans input = .ok adm) :
    ∃ normalized, normalizeAmountIn ans input = .ok normalized ∧ adm.input = applySizing ans normalized := by
  obtain ⟨prepared, hprepared, h⟩ := bind_eq_ok.mp h
  obtain ⟨normalized, hnormalized, hchecked⟩ := bind_eq_ok.mp hprepared
  refine ⟨normalized, hnormalized, ?_⟩
  simp only [bind, Except.bind, pure, Except.pure, throw, throwThe, MonadExceptOf.throw] at h hchecked
  obtain rfl : applySizing ans normalized = prepared := by grind
  -- of the checks that follow only the mode is kept
  repeat' split at h
  all_goals cases h
  all_goals rfl

/-! ## The trade -/

theorem recordFailure_keeps_trades (ans : Answers) (adm : Admitted) (e : String) :
    Keeps World.trades (recordFailure ans adm e) := by
  refine Keeps.bind ?_ fun _ => Keeps.bind ?_ fun _ => Keeps.throw World.trades e
  · exact Keeps.awaited ans.failureAudit fun _ => rfl
  · exact Keeps.updateOrder ans.failureOrder adm.input .FAILED fun _ _ => rfl

/-- The trade that a swap records has the notional of its input. -/
theorem swap_trades (h : admission ans input = .ok adm) {w : World} {row : TradeRow}
    (hrow : row ∈ (swap ans input w).2.trades) : row ∈ w.trades ∨ row.priceUsd = adm.input.notionalUsd := by
  rw [swap_admitted h] at hrow
  cases hfill : (execute ans adm).1 with
  | error e =>
    rw [hfill] at hrow
    exact .inl (by simpa only [recordFailure_keeps_trades ans adm e _] using hrow)
  | ok fill =>
    simp only [hfill, record, run_bind] at hrow
    cases hcreate : ans.tradeCreate with
    | error e =>
      rw [hcreate] at hrow
      exact .inl hrow
    | ok u =>
      have hrest := recordRest_keeps_trades ans adm fill
        { w with onChain := w.onChain ++ (execute ans adm).2, trades := w.trades ++ [adm.tradeRow fill] }
      rw [hcreate] at hrow
      change row ∈ ((recordRest ans adm fill).run _).2.trades at hrow
      rw [hrest, List.mem_append, List.mem_singleton] at hrow
      refine hrow.imp_right fun heq => ?_
      rw [heq]
      rfl

/-- The amount is the unsized one in proportion to the notional, up to one unit, and the sized notional is
the price of the trade. -/
structure SizedTo (ans : Answers) (input : SwapInput) (adm : Admitted) (unsized : String) (size : ℚ) : Prop where
  amount : |amountOf adm.input.amountIn - amountOf unsized * size / input.notionalUsd| ≤ 1
  price : ∀ w, ∀ row ∈ (swap ans input w).2.trades, row ∈ w.trades ∨ row.priceUsd = size

/-- **Dynamic sizing.** The amount stays that of the unsized input, so that it is in proportion to the
size only where the size is full, or the amount too small for the difference to count. -/
theorem sized_iff {unsized : String} (hsizing : input.applyDynamicSizing = true) (hpos : 0 < input.notionalUsd)
    (hadm : admission ans input = .ok adm) (hunsized : unsizedAmount ans input = .ok unsized) :
    SizedTo ans input adm unsized (computeDynamicSize ans input.notionalUsd input.riskFlags) ↔
      |amountOf unsized| * (1 - sizeShare ans input.riskFlags) ≤ 1 := by
  obtain ⟨normalized, hnormalized, hinput⟩ := admission_input hadm
  rw [normalizeAmountIn_eq, hunsized] at hnormalized
  obtain rfl : { input with amountIn := unsized } = normalized := Except.ok.inj hnormalized
  rw [applySizing, if_pos ⟨hsizing, hpos⟩] at hinput
  have hgap : amountOf unsized - amountOf unsized * computeDynamicSize ans input.notionalUsd input.riskFlags
      / input.notionalUsd = amountOf unsized * (1 - sizeShare ans input.riskFlags) := by
    rw [computeDynamicSize_eq ans hpos]
    field_simp
  have hshare := sub_nonneg.mpr (sizeShare_le_one ans input.riskFlags)
  constructor
  · intro h
    have hamount := h.amount
    rw [hinput, hgap, abs_mul, abs_of_nonneg hshare] at hamount
    exact hamount
  · intro h
    refine ⟨?_, fun w row hrow => ?_⟩
    · rw [hinput, hgap, abs_mul, abs_of_nonneg hshare]
      exact h
    · have hprice := swap_trades hadm hrow
      rw [hinput] at hprice
      exact hprice

/-- A sample swap that is to be sized. -/
def sizedInput (amountIn : String) (notionalUsd : ℚ) : SwapInput :=
  { sampleInput notionalUsd with amountIn, applyDynamicSizing := true }

/-- A verdict that allows the full size. -/
def highScore : Answers := { sampleAnswers with verdict := .ok (some ⟨95, []⟩) }

theorem highScore_sized :
    ∃ adm, admission highScore (sizedInput "" 150) = .ok adm ∧
      SizedTo highScore (sizedInput "" 150) adm "1000000000" (computeDynamicSize highScore 150 []) :=
  ⟨⟨{ sizedInput "1000000000" 150 with notionalUsd := 150 }, .PAPER⟩, by decide +kernel,
    (sized_iff (by decide) (by decide) (by decide +kernel) (by decide +kernel)).mpr (by decide +kernel)⟩

/-- Without a verdict a notional of 150 is sized to 45, and the amount is still that of one SOL. -/
theorem unsized_amount_kept : ¬ ∀ (ans : Answers) (input : SwapInput) (adm : Admitted) (unsized : String),
    input.chain = .SOLANA → input.applyDynamicSizing = true → 0 < input.notionalUsd →
    admission ans input = .ok adm → unsizedAmount ans input = .ok unsized →
    SizedTo ans input adm unsized (computeDynamicSize ans input.notionalUsd input.riskFlags) := by
  intro h
  have hsized := h sampleAnswers (sizedInput "" 150)
    ⟨{ sizedInput "1000000000" 150 with notionalUsd := 45 }, .PAPER⟩ "1000000000"
    rfl rfl (by decide) (by decide +kernel) (by decide +kernel)
  have hamount := hsized.amount
  revert hamount
  decide +kernel

end SuperAi.Execution
