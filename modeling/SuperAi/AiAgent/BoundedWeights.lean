import SuperAi.AiAgent.ConvictionLearner

/-! # Learned weights within their bounds

A step is clamped, renormalised, cut to the band of `MAX_STEP` around the old weights, and renormalised again. The
last of these always gives weights that add up to one; they keep to the band and to the range of the clamp exactly if
the clamped step does when it is renormalised (`nextWeights_bounded_iff`), and then the cut does nothing.
-/
namespace SuperAi.AiAgent
open SuperAi.Foundations
set_option autoImplicit false

/-- What an applied step gives. -/
structure BoundedStep (before after : ConvictionWeightVector) : Prop where
  sum : total after = 1
  range : ∀ k, WEIGHT_CLAMP_LO ≤ after k ∧ after k ≤ WEIGHT_CLAMP_HI
  step : ∀ k, |after k - before k| ≤ MAX_STEP

/-- Renormalising the clamped step moves no weight further than the cap, or out of the range. -/
def StepFits (cfg : LearnerConfig) (w : ConvictionWeightVector) (labeled : List LabeledTrade) : Prop :=
  let r := gradientStep cfg w labeled
  ∀ k, |r k / total r - w k| ≤ MAX_STEP ∧ WEIGHT_CLAMP_LO ≤ r k / total r ∧ r k / total r ≤ WEIGHT_CLAMP_HI

instance (cfg : LearnerConfig) (w : ConvictionWeightVector) (labeled : List LabeledTrade) :
    Decidable (StepFits cfg w labeled) := inferInstanceAs (Decidable (∀ _, _))

/-! ## One step -/

section Step
variable (cfg : LearnerConfig) {w : ConvictionWeightVector} (labeled : List LabeledTrade)

theorem total_eq_sum (w : ConvictionWeightVector) : total w = ∑ k, w k := by
  simp [total, Finset.univ, Fintype.elems, add_assoc]

theorem sum_pos {x : ConvictionWeightVector} (h : ∀ k, 0 < x k) : 0 < ∑ k, x k :=
  Finset.sum_pos (fun k _ => h k) ⟨.security, Finset.mem_univ _⟩

theorem renormalize_eq {x : ConvictionWeightVector} (h : ∀ k, 0 < x k) : renormalize x = normalized x := by
  unfold renormalize
  rw [total_eq_sum, if_neg (not_le.mpr (sum_pos h))]
  rfl

theorem within_iff {x : ConvictionWeightVector} : Within w MAX_STEP x ↔ ∀ k, |x k - w k| ≤ MAX_STEP := by
  apply forall_congr'
  intro k
  rw [abs_sub_le_iff]
  constructor
  · rintro ⟨hlo, hhi⟩
    exact ⟨by linarith, by linarith⟩
  · rintro ⟨hhi, hlo⟩
    exact ⟨by linarith, by linarith⟩

theorem learningRate_mem (n : ℕ) : 0 ≤ learningRate cfg n ∧ learningRate cfg n ≤ MAX_STEP := by
  have hsqrt : 0 ≤ cfg.sqrt (n / 100) := cfg.sqrt_nonneg _ (div_nonneg (Nat.cast_nonneg n) (by norm_num))
  have hcap : (0 : ℚ) ≤ MAX_STEP := by
    unfold MAX_STEP
    norm_num
  exact ⟨le_min hcap (mul_nonneg (by norm_num) hsqrt), min_le_left _ _⟩

theorem edge_mem (k : ConvictionKey) : -1 ≤ computeEdgeVector labeled k ∧ computeEdgeVector labeled k ≤ 1 :=
  ⟨le_clamp, clamp_le (by norm_num)⟩

theorem gradientStep_pos (w : ConvictionWeightVector) (k : ConvictionKey) : 0 < gradientStep cfg w labeled k := by
  have hlo : 0 < WEIGHT_CLAMP_LO := by
    unfold WEIGHT_CLAMP_LO
    norm_num
  exact hlo.trans_le le_clamp

variable (hw : ∀ k, WEIGHT_CLAMP_LO ≤ w k ∧ w k ≤ WEIGHT_CLAMP_HI)
include hw

theorem gradientStep_within : Within w MAX_STEP (gradientStep cfg w labeled) := by
  intro k
  obtain ⟨hrate, hcap⟩ := learningRate_mem cfg labeled.length
  obtain ⟨hlo, hhi⟩ := edge_mem labeled k
  have hup : learningRate cfg labeled.length * computeEdgeVector labeled k ≤ learningRate cfg labeled.length * 1 :=
    mul_le_mul_of_nonneg_left hhi hrate
  have hdown : learningRate cfg labeled.length * -1 ≤ learningRate cfg labeled.length * computeEdgeVector labeled k :=
    mul_le_mul_of_nonneg_left hlo hrate
  exact clamp_within (hw k).1 (hw k).2 (hrate.trans hcap) ⟨by linarith, by linarith⟩

theorem banded_step_pos (k : ConvictionKey) :
    0 < banded w MAX_STEP (normalized (gradientStep cfg w labeled)) k :=
  banded_pos (gradientStep_within cfg labeled hw) (gradientStep_pos cfg labeled w)
    (normalized_pos (gradientStep_pos cfg labeled w)) k

theorem nextWeights_eq : nextWeights cfg w labeled =
    normalized (banded w MAX_STEP (normalized (gradientStep cfg w labeled))) := by
  rw [nextWeights, renormalize_eq (gradientStep_pos cfg labeled w), renormalize_eq (banded_step_pos cfg labeled hw)]

/-- The weights add up to one, whatever has been cut. -/
theorem total_nextWeights : total (nextWeights cfg w labeled) = 1 := by
  rw [total_eq_sum, nextWeights_eq cfg labeled hw, sum_normalized (sum_pos (banded_step_pos cfg labeled hw)).ne']

/-- **One step.** It is within the bounds exactly if the renormalised clamped step is. -/
theorem nextWeights_bounded_iff : BoundedStep w (nextWeights cfg w labeled) ↔ StepFits cfg w labeled := by
  have hpos := gradientStep_pos cfg labeled w
  have hsum : ∑ k, normalized (gradientStep cfg w labeled) k = 1 := sum_normalized (sum_pos hpos).ne'
  have hnext := nextWeights_eq cfg labeled hw
  have hband : Within w MAX_STEP (nextWeights cfg w labeled) ↔
      Within w MAX_STEP (normalized (gradientStep cfg w labeled)) := by
    rw [hnext]
    exact within_normalized_banded_iff hpos (gradientStep_within cfg labeled hw)
  have hkept (h : Within w MAX_STEP (normalized (gradientStep cfg w labeled))) :
      nextWeights cfg w labeled = normalized (gradientStep cfg w labeled) := by
    rw [hnext, normalized_banded hsum h]
  have hfits : StepFits cfg w labeled ↔ Within w MAX_STEP (normalized (gradientStep cfg w labeled)) ∧
      ∀ k, WEIGHT_CLAMP_LO ≤ normalized (gradientStep cfg w labeled) k ∧
        normalized (gradientStep cfg w labeled) k ≤ WEIGHT_CLAMP_HI := by
    rw [within_iff, ← forall_and]
    simp only [StepFits, total_eq_sum]
    rfl
  rw [hfits]
  constructor
  · intro hbounded
    have hin := hband.mp (within_iff.mpr hbounded.step)
    refine ⟨hin, ?_⟩
    rw [← hkept hin]
    exact hbounded.range
  · rintro ⟨hin, hrange⟩
    refine ⟨total_nextWeights cfg labeled hw, ?_, within_iff.mp (hband.mpr hin)⟩
    rw [hkept hin]
    exact hrange

end Step

/-! ## Calls -/

section Calls
variable {cfg : LearnerConfig}

/-- A call leaves the weights, or applies the next ones. -/
theorem recomputeWeights_cases (cfg : LearnerConfig) (t : LearnerTables) (i : RecomputeInput) :
    ((∀ before after edge n, (recomputeWeights cfg t i).1 ≠ .applied before after edge n) ∧
      (recomputeWeights cfg t i).2.rows = t.rows) ∨
    ∃ edge n row, row.weights = nextWeights cfg (t.weightsOf i.userId) (loadLabeledTrades i.trades) ∧
      (recomputeWeights cfg t i).1 = .applied (t.weightsOf i.userId) row.weights edge n ∧
      (recomputeWeights cfg t i).2.rows = t.rows.set i.userId row := by
  unfold recomputeWeights
  dsimp only
  split_ifs
  · left
    exact ⟨by simp, rfl⟩
  · left
    exact ⟨by simp, rfl⟩
  · left
    exact ⟨by simp, rfl⟩
  · left
    exact ⟨by simp, rfl⟩
  · left
    exact ⟨by simp, rfl⟩
  · right
    exact ⟨_, _, _, rfl, rfl, rfl⟩

theorem weightsOf_set {t t' : LearnerTables} {userId : String} {row : UserConvictionWeights}
    (h : t'.rows = t.rows.set userId row) (other : String) :
    t'.weightsOf other = if other = userId then row.weights else t.weightsOf other := by
  unfold LearnerTables.weightsOf
  rw [h]
  by_cases hother : other = userId
  · rw [if_pos hother, hother, KeyValue.get_set_self]
    rfl
  · rw [if_neg hother, KeyValue.get_set_of_ne hother]

def RecomputeResult.Bounded : RecomputeResult → Prop
  | .applied before after _ _ => BoundedStep before after
  | _ => True

/-- A step that is applied fits. -/
def AppliedFits (cfg : LearnerConfig) (s : Learner) : LearnerStep → Prop
  | .recomputeWeights input =>
    match (recomputeWeights cfg s.tables input).1 with
    | .applied _ _ _ _ => StepFits cfg (s.tables.weightsOf input.userId) (loadLabeledTrades input.trades)
    | _ => True
  | .reset _ => True

instance (cfg : LearnerConfig) (s : Learner) (e : LearnerStep) : Decidable (AppliedFits cfg s e) := by
  unfold AppliedFits
  cases e with
  | recomputeWeights input =>
    dsimp only
    split
    · infer_instance
    · infer_instance
  | reset userId => exact isTrue trivial

/-- Every applied step is within the bounds, and so are the weights of every user. -/
structure Learner.Bounded (s : Learner) : Prop where
  results : ∀ result ∈ s.results, result.Bounded
  sum : ∀ userId, total (s.tables.weightsOf userId) = 1
  range : ∀ userId k, WEIGHT_CLAMP_LO ≤ s.tables.weightsOf userId k ∧ s.tables.weightsOf userId k ≤ WEIGHT_CLAMP_HI

theorem default_sum : total DEFAULT_CONVICTION_WEIGHTS = 1 := by
  norm_num [total, DEFAULT_CONVICTION_WEIGHTS]

theorem default_range (k : ConvictionKey) :
    WEIGHT_CLAMP_LO ≤ DEFAULT_CONVICTION_WEIGHTS k ∧ DEFAULT_CONVICTION_WEIGHTS k ≤ WEIGHT_CLAMP_HI := by
  unfold WEIGHT_CLAMP_LO WEIGHT_CLAMP_HI
  cases k
  all_goals norm_num [DEFAULT_CONVICTION_WEIGHTS]

end Calls

/-! ## Runs -/

section Runs
variable {cfg : LearnerConfig} {s s' : Learner}

namespace Learner.Bounded

theorem initial : Learner.Bounded {} where
  results _ h := absurd h List.not_mem_nil
  sum _ := default_sum
  range _ := default_range

/-- The weights of one user are replaced. -/
theorem replace (h : s.Bounded) {tables : LearnerTables} {userId : String} {row : UserConvictionWeights}
    (hrows : tables.rows = s.tables.rows.set userId row) (hsum : total row.weights = 1)
    (hrange : ∀ k, WEIGHT_CLAMP_LO ≤ row.weights k ∧ row.weights k ≤ WEIGHT_CLAMP_HI)
    {results : List RecomputeResult} (hresults : ∀ result ∈ results, result.Bounded) :
    Learner.Bounded { tables, results } where
  results := hresults
  sum other := by
    dsimp only
    rw [weightsOf_set hrows]
    by_cases hother : other = userId
    · rwa [if_pos hother]
    · rw [if_neg hother]
      exact h.sum other
  range other := by
    dsimp only
    rw [weightsOf_set hrows]
    by_cases hother : other = userId
    · rwa [if_pos hother]
    · rw [if_neg hother]
      exact h.range other

theorem recomputeWeights (h : s.Bounded) {input : RecomputeInput}
    (hfits : AppliedFits cfg s (.recomputeWeights input)) :
    Learner.Bounded
      { tables := (AiAgent.recomputeWeights cfg s.tables input).2
        results := s.results ++ [(AiAgent.recomputeWeights cfg s.tables input).1] } := by
  unfold AppliedFits at hfits
  dsimp only at hfits
  obtain ⟨hskipped, hrows⟩ | ⟨edge, n, row, hweights, happlied, hrows⟩ := recomputeWeights_cases cfg s.tables input
  · have hresult : (AiAgent.recomputeWeights cfg s.tables input).1.Bounded := by
      cases hr : (AiAgent.recomputeWeights cfg s.tables input).1 with
      | applied before after edge n => exact absurd hr (hskipped before after edge n)
      | _ => trivial
    have hsame : ∀ userId, (AiAgent.recomputeWeights cfg s.tables input).2.weightsOf userId =
        s.tables.weightsOf userId := by
      intro userId
      unfold LearnerTables.weightsOf
      rw [hrows]
    refine ⟨List.forall_mem_append.mpr ⟨h.results, List.forall_mem_singleton.mpr hresult⟩, fun userId => ?_,
      fun userId => ?_⟩
    · rw [hsame]
      exact h.sum userId
    · rw [hsame]
      exact h.range userId
  · rw [happlied] at hfits
    have hstep : BoundedStep (s.tables.weightsOf input.userId) row.weights := by
      rw [hweights]
      exact (nextWeights_bounded_iff cfg _ (h.range input.userId)).mpr hfits
    apply h.replace hrows hstep.sum hstep.range
    rw [happlied]
    exact List.forall_mem_append.mpr ⟨h.results, List.forall_mem_singleton.mpr hstep⟩

theorem step (h : s.Bounded) {e : LearnerStep} (hfits : AppliedFits cfg s e)
    (hstep : (learner cfg).step s e = some s') : s'.Bounded := by
  cases e with
  | recomputeWeights input =>
    obtain rfl := Option.some.inj hstep
    exact h.recomputeWeights hfits
  | reset userId =>
    obtain rfl := Option.some.inj hstep
    exact h.replace rfl default_sum default_range h.results

/-- A step that does not fit is returned as it is. -/
theorem not_bounded_of_step (h : s.Bounded) {e : LearnerStep} (hbreaks : ¬ AppliedFits cfg s e)
    (hstep : (learner cfg).step s e = some s') : ¬ s'.Bounded := by
  intro hbounded
  apply hbreaks
  cases e with
  | recomputeWeights input =>
    obtain rfl := Option.some.inj hstep
    unfold AppliedFits
    dsimp only
    obtain ⟨hskipped, -⟩ | ⟨edge, n, row, hweights, happlied, -⟩ := recomputeWeights_cases cfg s.tables input
    · split
      · rename_i before after edge n hr
        exact absurd hr (hskipped before after edge n)
      · trivial
    · rw [happlied]
      have hresult := hbounded.results (AiAgent.recomputeWeights cfg s.tables input).1
        (List.mem_append_right _ (List.mem_singleton.mpr rfl))
      rw [happlied] at hresult
      change BoundedStep _ row.weights at hresult
      rw [hweights] at hresult
      exact (nextWeights_bounded_iff cfg _ (h.range input.userId)).mp hresult
  | reset userId => trivial

end Learner.Bounded

/-- In a run of any length the learned weights stay within their bounds exactly if each applied step fits. -/
theorem bounded_iff {es : List LearnerStep} (hrun : (learner cfg).run {} es = some s) :
    (learner cfg).GuardedRun (AppliedFits cfg) {} es s ↔
      ∀ pre post u, es = pre ++ post → (learner cfg).run {} pre = some u → u.Bounded :=
  StepSystem.GuardedRun.iff_forall_reached Learner.Bounded Learner.Bounded
    (fun _ _ _ h hfits hstep => h.step hfits hstep) (fun _ h => h)
    (fun _ _ _ h hbreaks hstep => h.not_bounded_of_step hbreaks hstep) hrun .initial

end Runs

/-! ## Two histories -/

/-- `Math.sqrt` on squares. -/
def sqrtOfSquare : LearnerConfig where
  sqrt x := Nat.sqrt x.num.toNat / Nat.sqrt x.den
  sqrt_nonneg _ _ := div_nonneg (Nat.cast_nonneg _) (Nat.cast_nonneg _)

/-- A trade that made 1 USD, with this breakdown and the price change of its first hour. -/
def sampleTrade (security others : ℤ) (priceDeltaPct : ℤ) : TradeRow :=
  let num (n : ℤ) : JsonValue := .num (JsNumber.ofInt n)
  { convictionBreakdown := .obj [("security", num security), ("holders", num others), ("liquidity", num others),
      ("sentiment", num others), ("momentum", num others), ("convictionTotal", num 5)]
    outcome1h := some (.obj [("priceDeltaPct", num priceDeltaPct)])
    pnlUsd := some 1 }

def recomputeWith (trades : List TradeRow) : LearnerStep :=
  .recomputeWeights { userId := "ann", trigger := .manual, flag := true, enabled := some true, trades, now := 0 }

/-- The first weight gains what the others lose. -/
def evenHistory : List TradeRow := List.replicate 12 (sampleTrade 1 0 5) ++
  (List.replicate 6 (sampleTrade 0 1 (-5)) ++ List.replicate 18 (sampleTrade 0 0 (-5)))

theorem evenHistory_bounded : ∃ s, (learner sqrtOfSquare).run {} [recomputeWith evenHistory, .reset "ann"] = some s ∧
    s.Bounded := by
  have hsome : ((learner sqrtOfSquare).guardedRun (AppliedFits sqrtOfSquare) {}
      [recomputeWith evenHistory, .reset "ann"]).isSome = true := by decide +kernel
  obtain ⟨s, hs⟩ := Option.isSome_iff_exists.mp hsome
  have hguarded := StepSystem.GuardedRun.of_guardedRun hs
  exact ⟨s, hguarded.run, (bounded_iff hguarded.run).mp hguarded _ [] s (List.append_nil _).symm hguarded.run⟩

/-- The losers have all of the last four factors, the winner has none. -/
def onesidedHistory : List TradeRow := sampleTrade 0 0 5 :: List.replicate 24 (sampleTrade 0 1 (-5))

/-- An applied step that moves the first weight further than the cap. -/
def RecomputeResult.exceeds : RecomputeResult → Bool
  | .applied before after _ _ => decide (MAX_STEP < |after .security - before .security|)
  | _ => false

/-- The first weight goes from 0.3 to 14/39. -/
theorem onesidedHistory_exceeds : ¬ ∀ (cfg : LearnerConfig) (es : List LearnerStep) (s : Learner),
    (learner cfg).run {} es = some s → s.Bounded := by
  intro h
  have hany : ((learner sqrtOfSquare).run {} [recomputeWith onesidedHistory]).any
      (fun s => s.results.any RecomputeResult.exceeds) = true := by decide +kernel
  obtain ⟨s, hs, hresults⟩ := (Option.any_eq_true _ _).mp hany
  obtain ⟨result, hresult, hexceeds⟩ := List.any_eq_true.mp hresults
  have hbounded : result.Bounded := (h sqrtOfSquare _ s hs).results result hresult
  cases result with
  | applied before after edge n =>
    have hcap : |after .security - before .security| ≤ MAX_STEP := BoundedStep.step hbounded .security
    exact absurd hcap (not_le.mpr (of_decide_eq_true hexceeds))
  | _ => cases hexceeds

end SuperAi.AiAgent
