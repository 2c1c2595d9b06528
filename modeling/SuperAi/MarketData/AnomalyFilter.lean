import SuperAi.Foundations.RecentEntries
import SuperAi.MarketData.MarketDataGuard
import Mathlib.Algebra.Order.BigOperators.Group.List
import Mathlib.Data.List.Induction
import Mathlib.Analysis.Real.Sqrt
import Mathlib.Tactic.FieldSimp

/-! # Which prices are anomalous

A run of `AnomalyFilter.check` (`market-data/anomaly.filter.ts`) over the window that it keeps in Redis, in exact
arithmetic. A price is anomalous if it is more than the configured number of standard deviations away from the mean
of the window, except that a window of equal prices lets every price through (`anomalous_iff_deviates`).
-/
namespace SuperAi.MarketData
open SuperAi.Foundations
set_option autoImplicit false

variable {K : Type} [Field K] [LinearOrder K] [IsStrictOrderedRing K]

/-- `AnomalyFilter.check`. -/
def checkAnomaly (guard : MarketDataGuard K) (s : FeedStore K) (instrument : String) (price : K) :
    FeedStore K × AnomalyFilterResult K :=
  (s.pushPrice guard.config instrument price, anomalyOf guard (s.window instrument) price)

/-- The store after checks of one price after another. -/
def afterChecks (guard : MarketDataGuard K) (checks : List (String × K)) : FeedStore K :=
  checks.foldl (fun s check => (checkAnomaly guard s check.1 check.2).1) {}

/-- What `Math.sqrt` gives in exact arithmetic. -/
def IsSqrt (sqrt : K → K) : Prop := ∀ x, 0 ≤ x → 0 ≤ sqrt x ∧ sqrt x * sqrt x = x

/-! ## Mean and spread -/

def mean (W : List K) : K := W.sum / W.length

def variance (W : List K) : K := (W.map fun v => (v - mean W) * (v - mean W)).sum / W.length

def stdDev (sqrt : K → K) (W : List K) : K := sqrt (variance W)

/-- The price is more than the configured number of standard deviations away from the mean of at least two. -/
def Deviates (guard : MarketDataGuard K) (W : List K) (price : K) : Prop :=
  2 ≤ W.length ∧ guard.config.anomalyStdDevMultiplier * stdDev guard.sqrt W < |price - mean W|

/-- At least two prices, all of them equal, and a different one. -/
def OffFlat (W : List K) (price : K) : Prop := 2 ≤ W.length ∧ ∃ level, (∀ v ∈ W, v = level) ∧ price ≠ level

omit [LinearOrder K] [IsStrictOrderedRing K] in
theorem foldl_add_eq_sum (f : K → K) (W : List K) (start : K) :
    W.foldl (fun sum v => sum + f v) start = start + (W.map f).sum := by
  induction W generalizing start with
  | nil => simp
  | cons v W ih => rw [List.foldl_cons, ih, List.map_cons, List.sum_cons, add_assoc]

theorem sum_squares_nonneg (f : K → K) (W : List K) : 0 ≤ (W.map fun v => f v * f v).sum := by
  apply List.sum_nonneg
  intro x hx
  obtain ⟨v, -, rfl⟩ := List.mem_map.mp hx
  exact mul_self_nonneg _

theorem sum_squares_eq_zero (f : K → K) {W : List K} (h : (W.map fun v => f v * f v).sum = 0) :
    ∀ v ∈ W, f v = 0 := by
  induction W with
  | nil => simp
  | cons a W ih =>
    rw [List.map_cons, List.sum_cons] at h
    have hhead := mul_self_nonneg (f a)
    have htail := sum_squares_nonneg f W
    have hzero : f a * f a = 0 := by linarith
    have hrest : (W.map fun v => f v * f v).sum = 0 := by linarith
    intro v hv
    obtain rfl | hmem := List.mem_cons.mp hv
    · exact mul_self_eq_zero.mp hzero
    · exact ih hrest v hmem

theorem variance_nonneg (W : List K) : 0 ≤ variance W :=
  div_nonneg (sum_squares_nonneg _ W) (Nat.cast_nonneg _)

theorem mean_of_flat {W : List K} {level : K} (h : ∀ v ∈ W, v = level) (hne : W ≠ []) : mean W = level := by
  have hlength : (W.length : K) ≠ 0 := Nat.cast_ne_zero.mpr (by simpa using hne)
  rw [mean, List.eq_replicate_of_mem h, List.sum_replicate, List.length_replicate, nsmul_eq_mul]
  field_simp

/-- There is no spread exactly in a window of equal prices. -/
theorem variance_eq_zero_iff {W : List K} (hne : W ≠ []) : variance W = 0 ↔ ∃ level, ∀ v ∈ W, v = level := by
  have hlength : (W.length : K) ≠ 0 := Nat.cast_ne_zero.mpr (by simpa using hne)
  constructor
  · intro h
    have hsum : (W.map fun v => (v - mean W) * (v - mean W)).sum = 0 := by
      unfold variance at h
      exact (div_eq_zero_iff.mp h).resolve_right hlength
    exact ⟨mean W, fun v hv => sub_eq_zero.mp (sum_squares_eq_zero (fun v => v - mean W) hsum v hv)⟩
  · rintro ⟨level, hlevel⟩
    have hmean := mean_of_flat hlevel hne
    have hmap : (W.map fun v => (v - mean W) * (v - mean W)) = W.map fun _ => 0 := by
      apply List.map_congr_left
      intro v hv
      rw [hmean, hlevel v hv, sub_self, zero_mul]
    rw [variance, hmap]
    simp

theorem stdDev_eq_zero_iff {sqrt : K → K} (hsqrt : IsSqrt sqrt) {W : List K} (hne : W ≠ []) :
    stdDev sqrt W = 0 ↔ ∃ level, ∀ v ∈ W, v = level := by
  rw [← variance_eq_zero_iff hne, stdDev]
  obtain ⟨-, hsquare⟩ := hsqrt _ (variance_nonneg W)
  constructor
  · intro h
    rw [← hsquare, h, zero_mul]
  · intro h
    rw [h] at hsquare ⊢
    exact mul_self_eq_zero.mp hsquare

/-! ## One check -/

theorem absolute_eq_abs (x : K) : absolute x = |x| := by
  unfold absolute
  rw [Nat.cast_zero]
  by_cases h : x < 0
  · rw [if_pos h, abs_of_neg h, zero_sub]
  · rw [if_neg h, abs_of_nonneg (not_lt.mp h)]

theorem anomalyOf_eq (guard : MarketDataGuard K) {W : List K} (h : 2 ≤ W.length) (price : K) :
    (anomalyOf guard W price).anomalous = true ↔ guard.config.anomalyStdDevMultiplier <
      if stdDev guard.sqrt W = 0 then 0 else |price - mean W| / stdDev guard.sqrt W := by
  have hmean : W.foldl (fun sum v => sum + v) ((0 : ℕ) : K) / W.length = mean W := by
    rw [foldl_add_eq_sum fun v => v, Nat.cast_zero, zero_add, List.map_id', mean]
  have hvariance : W.foldl (fun sum v => sum + (v - mean W) * (v - mean W)) ((0 : ℕ) : K) / W.length = variance W := by
    rw [foldl_add_eq_sum fun v => (v - mean W) * (v - mean W), Nat.cast_zero, zero_add, variance]
  unfold anomalyOf
  rw [if_neg (Nat.not_lt.mpr h)]
  dsimp only
  rw [hmean, hvariance, decide_eq_true_eq, absolute_eq_abs, Nat.cast_zero]
  rfl

/-- A check decides as it should, except for a price that is off a flat window. -/
theorem anomalyOf_iff {guard : MarketDataGuard K} (hsqrt : IsSqrt guard.sqrt)
    (hmultiplier : 0 < guard.config.anomalyStdDevMultiplier) (W : List K) (price : K) :
    ((anomalyOf guard W price).anomalous = true ↔ Deviates guard W price) ↔ ¬ OffFlat W price := by
  by_cases hlength : 2 ≤ W.length
  · have hne : W ≠ [] := by
      rintro rfl
      simp at hlength
    rw [anomalyOf_eq guard hlength]
    by_cases hflat : stdDev guard.sqrt W = 0
    · obtain ⟨level, hlevel⟩ := (stdDev_eq_zero_iff hsqrt hne).mp hflat
      have hoff : OffFlat W price ↔ price ≠ level := by
        constructor
        · rintro ⟨-, level', hlevel', hprice⟩ rfl
          obtain ⟨v, hv⟩ := List.exists_mem_of_ne_nil W hne
          exact hprice ((hlevel v hv).symm.trans (hlevel' v hv))
        · exact fun hprice => ⟨hlength, level, hlevel, hprice⟩
      have hdeviates : Deviates guard W price ↔ price ≠ level := by
        rw [Deviates, hflat, mul_zero, mean_of_flat hlevel hne, abs_pos, sub_ne_zero]
        exact and_iff_right hlength
      rw [if_pos hflat, hoff, hdeviates]
      simp [not_lt.mpr (le_of_lt hmultiplier)]
    · have hspread : 0 < stdDev guard.sqrt W :=
        lt_of_le_of_ne (hsqrt _ (variance_nonneg W)).1 (Ne.symm hflat)
      have hnot : ¬ OffFlat W price := by
        rintro ⟨-, level, hlevel, -⟩
        exact hflat ((stdDev_eq_zero_iff hsqrt hne).mpr ⟨level, hlevel⟩)
      rw [if_neg hflat, lt_div_iff₀ hspread]
      simp only [hnot, not_false_eq_true, iff_true, Deviates]
      exact (and_iff_right hlength).symm
  · have hfew : (anomalyOf guard W price).anomalous = false := by
      rw [anomalyOf, if_pos (Nat.lt_of_not_le hlength)]
    simp [hfew, Deviates, OffFlat, hlength]

/-! ## Runs -/

/-- The last prices of the instrument, latest first, as many as the window has room for. -/
def lastPrices (guard : MarketDataGuard K) (checks : List (String × K)) (instrument : String) : List K :=
  ((checks.filter fun check => check.1 == instrument).map Prod.snd).reverse.take guard.config.anomalyWindowSize

omit [IsStrictOrderedRing K] in
theorem window_afterChecks (guard : MarketDataGuard K) (checks : List (String × K)) (instrument : String) :
    (afterChecks guard checks).window instrument = lastPrices guard checks instrument := by
  unfold lastPrices
  induction checks using List.reverseRecOn with
  | nil => simp [afterChecks, FeedStore.window]
  | append_singleton checks check ih =>
    obtain ⟨checked, price⟩ := check
    have hstep : afterChecks guard (checks ++ [(checked, price)]) =
        (afterChecks guard checks).pushPrice guard.config checked price := by
      rw [afterChecks, List.foldl_append]
      rfl
    rw [hstep, List.filter_append, List.map_append, List.reverse_append]
    by_cases hsame : checked = instrument
    · subst hsame
      rw [FeedStore.window_pushPrice_self, ih]
      simp only [List.filter_cons, beq_self_eq_true, if_true, List.filter_nil, List.map_cons, List.map_nil,
        List.reverse_singleton, List.singleton_append]
      exact take_cons_take _ _ _
    · rw [FeedStore.window_pushPrice_of_ne _ _ _ (Ne.symm hsame), ih]
      simp [hsame]

/-- **Price anomalies.** After any checks, with `W` the last prices of the instrument, a price is found anomalous
exactly when it deviates from `W`, unless `W` is flat and the price is off it; and the stored window is never longer
than configured. -/
theorem anomalous_iff_deviates {guard : MarketDataGuard K} (hsqrt : IsSqrt guard.sqrt)
    (hmultiplier : 0 < guard.config.anomalyStdDevMultiplier) (checks : List (String × K)) (instrument : String)
    (price : K) :
    (((checkAnomaly guard (afterChecks guard checks) instrument price).2.anomalous = true ↔
          Deviates guard (lastPrices guard checks instrument) price) ↔
        ¬ OffFlat (lastPrices guard checks instrument) price) ∧
      ((afterChecks guard checks).window instrument).length ≤ guard.config.anomalyWindowSize := by
  unfold checkAnomaly
  rw [window_afterChecks]
  exact ⟨anomalyOf_iff hsqrt hmultiplier _ _, List.length_take_le _ _⟩

/-! ## Prices around a hundred -/

noncomputable def realGuard : MarketDataGuard ℝ where
  config :=
    { feedConsensusDivergenceThresholdPercent := 15 / 10
      anomalyStdDevMultiplier := 3
      anomalyWindowSize := 5 }
  sqrt := Real.sqrt
  ed25519 _ _ _ := true
  isDatetime _ := true

theorem isSqrt_sqrt : IsSqrt Real.sqrt := fun x hx => ⟨Real.sqrt_nonneg x, Real.mul_self_sqrt hx⟩

theorem spreadWindow_checked :
    (checkAnomaly realGuard (afterChecks realGuard [("BTC-USDT", 99), ("BTC-USDT", 101)]) "BTC-USDT" 200).2.anomalous =
        true ↔
      Deviates realGuard [101, 99] 200 := by
  have hlast : lastPrices realGuard [("BTC-USDT", 99), ("BTC-USDT", 101)] "BTC-USDT" = [101, 99] := by
    simp [lastPrices, realGuard]
  have hiff := @anomalous_iff_deviates _ _ _ _ realGuard isSqrt_sqrt (by norm_num [realGuard])
    [("BTC-USDT", 99), ("BTC-USDT", 101)] "BTC-USDT" 200
  rw [hlast] at hiff
  refine hiff.1.mpr ?_
  rintro ⟨-, level, hlevel, -⟩
  have hfirst : (101 : ℝ) = level := hlevel 101 (by simp)
  have hsecond : (99 : ℝ) = level := hlevel 99 (by simp)
  linarith

/-- After a hundred twice, two hundred is let through. -/
theorem flatWindow_missed :
    ¬ ((checkAnomaly realGuard (afterChecks realGuard [("BTC-USDT", 100), ("BTC-USDT", 100)]) "BTC-USDT"
        200).2.anomalous = true ↔ Deviates realGuard [100, 100] 200) := by
  have hwindow : (afterChecks realGuard [("BTC-USDT", 100), ("BTC-USDT", 100)]).window "BTC-USDT" = [100, 100] := by
    rw [window_afterChecks]
    simp [lastPrices, realGuard]
  unfold checkAnomaly
  rw [hwindow, anomalyOf_iff isSqrt_sqrt (by norm_num [realGuard]), not_not]
  exact ⟨by simp, 100, by simp, by norm_num⟩

end SuperAi.MarketData
