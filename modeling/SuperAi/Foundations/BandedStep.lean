import Mathlib.Algebra.BigOperators.Field
import Mathlib.Algebra.Order.BigOperators.Group.Finset
import Mathlib.Algebra.Order.Field.Basic
import Mathlib.Tactic.Linarith

/-! # Steps of weights that are normalized, cut to a band, and normalized again

Weights over a finite type in an ordered field. A step `r` that stays within `d` of the old weights `w` is divided
by its sum, cut to the band of width `d` around `w`, and divided by its sum once more. The last division undoes the
cut unless there is nothing to cut: the result is in the band exactly if the normalized step is
(`within_normalized_banded_iff`).
-/
namespace SuperAi.Foundations
set_option autoImplicit false

universe u v

section Clamp
variable {K : Type v} [LinearOrder K] {x lo hi : K}

def clamp (x lo hi : K) : K := max lo (min hi x)

theorem le_clamp : lo ≤ clamp x lo hi := le_max_left _ _

theorem clamp_le (h : lo ≤ hi) : clamp x lo hi ≤ hi := max_le h (min_le_left _ _)

theorem clamp_eq_self (hlo : lo ≤ x) (hhi : x ≤ hi) : clamp x lo hi = x := by
  rw [clamp, min_eq_right hhi, max_eq_right hlo]

theorem clamp_of_le (hlo : lo ≤ hi) (hhi : hi ≤ x) : clamp x lo hi = hi := by
  rw [clamp, min_eq_left hhi, max_eq_right hlo]

theorem clamp_of_ge (hlo : x ≤ lo) (h : lo ≤ hi) : clamp x lo hi = lo := by
  rw [clamp, min_eq_right (hlo.trans h), max_eq_left hlo]

end Clamp

variable {ι : Type u} {K : Type v} [Field K]

def normalized [Fintype ι] (x : ι → K) : ι → K := fun i => x i / ∑ j, x j

theorem sum_normalized [Fintype ι] {x : ι → K} (h : ∑ i, x i ≠ 0) : ∑ i, normalized x i = 1 := by
  unfold normalized
  rw [← Finset.sum_div, div_self h]

variable [LinearOrder K]

def banded (w : ι → K) (d : K) (x : ι → K) : ι → K := fun i => clamp (x i) (w i - d) (w i + d)

def Within (w : ι → K) (d : K) (x : ι → K) : Prop := ∀ i, w i - d ≤ x i ∧ x i ≤ w i + d

/-- What is in the band, and adds up to one, is left as it is. -/
theorem normalized_banded [Fintype ι] {w x : ι → K} {d : K} (hsum : ∑ i, x i = 1) (h : Within w d x) :
    normalized (banded w d x) = x := by
  have hbanded : banded w d x = x := funext fun i => clamp_eq_self (h i).1 (h i).2
  rw [hbanded]
  funext i
  rw [normalized, hsum, div_one]

theorem banded_pos {w r x : ι → K} {d : K} (hstep : Within w d r) (hr : ∀ i, 0 < r i) (hx : ∀ i, 0 < x i) (i : ι) :
    0 < banded w d x i :=
  lt_max_of_lt_right (lt_min ((hr i).trans_le (hstep i).2) (hx i))

variable [IsStrictOrderedRing K]

/-- Clamping to bounds that hold of `w` leaves a step from `w` no longer than it was. -/
theorem clamp_within {x lo hi d w : K} (hlo : lo ≤ w) (hhi : w ≤ hi) (hd : 0 ≤ d) (hx : w - d ≤ x ∧ x ≤ w + d) :
    w - d ≤ clamp x lo hi ∧ clamp x lo hi ≤ w + d := by
  constructor
  · exact le_max_of_le_right (le_min (by linarith) hx.1)
  · exact max_le (by linarith) (min_le_of_right_le hx.2)

variable [Fintype ι] {w r : ι → K} {d : K}

theorem normalized_pos {x : ι → K} (h : ∀ i, 0 < x i) (i : ι) : 0 < normalized x i :=
  div_pos (h i) (Finset.sum_pos (fun j _ => h j) ⟨i, Finset.mem_univ i⟩)

/-- A weight that the normalization lifts out of the band is still above it in the end. -/
theorem above_of_above (hr : ∀ i, 0 < r i) (hstep : Within w d r) {i : ι} (hi : w i + d < normalized r i) :
    w i + d < normalized (banded w d (normalized r)) i := by
  have hsum : 0 < ∑ j, r j := Finset.sum_pos (fun j _ => hr j) ⟨i, Finset.mem_univ i⟩
  have hsmall : ∑ j, r j < 1 := by
    have hlt : r i < r i / ∑ j, r j := lt_of_le_of_lt (hstep i).2 hi
    rw [lt_div_iff₀ hsum] at hlt
    by_contra hge
    have hle : r i * 1 ≤ r i * ∑ j, r j := mul_le_mul_of_nonneg_left (not_lt.mp hge) (hr i).le
    linarith
  have hlift (j : ι) : r j ≤ normalized r j := by
    rw [normalized, le_div_iff₀ hsum]
    exact mul_le_of_le_one_right (hr j).le hsmall.le
  have hcut (j : ι) : banded w d (normalized r) j ≤ normalized r j :=
    max_le ((hstep j).1.trans (hlift j)) (min_le_right _ _)
  have hband : w i - d ≤ w i + d := (hstep i).1.trans (hstep i).2
  have hcutI : banded w d (normalized r) i = w i + d := clamp_of_le hband hi.le
  have hpos (j : ι) : 0 < banded w d (normalized r) j := banded_pos hstep hr (normalized_pos hr) j
  have htotal : ∑ j, banded w d (normalized r) j < 1 := by
    rw [← sum_normalized hsum.ne']
    apply Finset.sum_lt_sum (fun j _ => hcut j)
    exact ⟨i, Finset.mem_univ i, by rw [hcutI]; exact hi⟩
  have htotalPos : 0 < ∑ j, banded w d (normalized r) j :=
    Finset.sum_pos (fun j _ => hpos j) ⟨i, Finset.mem_univ i⟩
  change w i + d < banded w d (normalized r) i / _
  rw [hcutI, lt_div_iff₀ htotalPos]
  have hpositive : 0 < w i + d := (hr i).trans_le (hstep i).2
  exact mul_lt_of_lt_one_right hpositive htotal

/-- A weight that the normalization pushes below the band is still below it in the end. -/
theorem below_of_below (hr : ∀ i, 0 < r i) (hstep : Within w d r) {i : ι} (hi : normalized r i < w i - d) :
    normalized (banded w d (normalized r)) i < w i - d := by
  have hsum : 0 < ∑ j, r j := Finset.sum_pos (fun j _ => hr j) ⟨i, Finset.mem_univ i⟩
  have hlarge : 1 < ∑ j, r j := by
    have hlt : r i / ∑ j, r j < r i := lt_of_lt_of_le hi (hstep i).1
    rw [div_lt_iff₀ hsum] at hlt
    by_contra hle
    have hge : r i * ∑ j, r j ≤ r i * 1 := mul_le_mul_of_nonneg_left (not_lt.mp hle) (hr i).le
    linarith
  have hlower (j : ι) : normalized r j ≤ r j := by
    rw [normalized, div_le_iff₀ hsum]
    exact le_mul_of_one_le_right (hr j).le hlarge.le
  have hcut (j : ι) : normalized r j ≤ banded w d (normalized r) j :=
    le_max_of_le_right (le_min ((hlower j).trans (hstep j).2) (le_refl _))
  have hband : w i - d ≤ w i + d := (hstep i).1.trans (hstep i).2
  have hcutI : banded w d (normalized r) i = w i - d := clamp_of_ge hi.le hband
  have htotal : 1 < ∑ j, banded w d (normalized r) j := by
    rw [← sum_normalized hsum.ne']
    apply Finset.sum_lt_sum (fun j _ => hcut j)
    exact ⟨i, Finset.mem_univ i, by rw [hcutI]; exact hi⟩
  change banded w d (normalized r) i / _ < w i - d
  rw [hcutI, div_lt_iff₀ (zero_lt_one.trans htotal)]
  have hpositive : 0 < w i - d := (normalized_pos hr i).trans hi
  exact lt_mul_of_one_lt_right hpositive htotal

/-- **Banded steps.** The result is in the band exactly if the normalized step is. -/
theorem within_normalized_banded_iff (hr : ∀ i, 0 < r i) (hstep : Within w d r) :
    Within w d (normalized (banded w d (normalized r))) ↔ Within w d (normalized r) := by
  constructor
  · intro h i
    constructor
    · by_contra hlt
      exact absurd (h i).1 (not_le.mpr (below_of_below hr hstep (not_le.mp hlt)))
    · by_contra hlt
      exact absurd (h i).2 (not_le.mpr (above_of_above hr hstep (not_le.mp hlt)))
  · intro h i
    have hsum : ∑ j, r j ≠ 0 := (Finset.sum_pos (fun j _ => hr j) ⟨i, Finset.mem_univ i⟩).ne'
    rw [normalized_banded (sum_normalized hsum) h]
    exact h i

end SuperAi.Foundations
