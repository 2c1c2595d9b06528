import Mathlib.Algebra.BigOperators.Group.Finset.Piecewise
import Mathlib.Algebra.BigOperators.Ring.Finset
import Mathlib.Algebra.Order.BigOperators.Group.Finset
import Mathlib.Algebra.Order.Field.Basic
import Mathlib.Algebra.Order.Field.Rat
import Mathlib.Data.List.Sort
import Mathlib.Tactic.FieldSimp
import Mathlib.Tactic.Linarith
import Mathlib.Tactic.Ring
import SuperAi.Foundations.KeyValue

/-! # Statistics of events

The symmetric chi-squared distance of two non-negative weightings of a finite set: it is at most the sum of both
totals, what it lacks of that sum at one place being the common part of the weights there.

And a pass over timed events of several keys that adds up the time from each event to the last one of its key. The gaps
of a key make up the span from its first event to its last, whatever lies in between (`sum_gaps`), so for events in the
order of their times the sum does not depend on how simultaneous events are ordered (`sum_gaps_perm`).
-/
namespace SuperAi.Foundations
set_option autoImplicit false

universe u v

/-! ## Chi-squared distance -/

section ChiSquared
variable {ι : Type u} {K : Type v} [Field K] [LinearOrder K] [IsStrictOrderedRing K]

/-- What one place adds. -/
def chiTerm (a b : K) : K := if 0 < a + b then (a - b) ^ 2 / (a + b) else 0

def chiSquared (s : Finset ι) (p q : ι → K) : K := ∑ i ∈ s, chiTerm (p i) (q i)

section Term
variable {a b : K}

theorem chiTerm_self (a : K) : chiTerm a a = 0 := by
  rw [chiTerm, sub_self]
  simp

omit [IsStrictOrderedRing K] in
/-- A place of one weighting alone adds its weight. -/
theorem chiTerm_zero (ha : 0 ≤ a) : chiTerm a 0 = a := by
  rw [chiTerm, add_zero, sub_zero]
  by_cases h : 0 < a
  · rw [if_pos h, sq, mul_self_div_self]
  · rw [if_neg h]
    exact le_antisymm ha (not_lt.mp h)

theorem chiTerm_nonneg (a b : K) : 0 ≤ chiTerm a b := by
  rw [chiTerm]
  by_cases h : 0 < a + b
  · rw [if_pos h]
    exact div_nonneg (sq_nonneg _) h.le
  · rw [if_neg h]

/-- What a place lacks of the sum of its weights is their common part. -/
theorem chiTerm_add (ha : 0 ≤ a) (hb : 0 ≤ b) :
    chiTerm a b + (if 0 < a + b then 4 * a * b / (a + b) else 0) = a + b := by
  rw [chiTerm]
  by_cases h : 0 < a + b
  · rw [if_pos h, if_pos h, ← add_div, div_eq_iff h.ne']
    ring
  · have hzero : a + b = 0 := le_antisymm (not_lt.mp h) (add_nonneg ha hb)
    rw [if_neg h, if_neg h, hzero, add_zero]

theorem common_nonneg (ha : 0 ≤ a) (hb : 0 ≤ b) : 0 ≤ if 0 < a + b then 4 * a * b / (a + b) else 0 := by
  by_cases h : 0 < a + b
  · rw [if_pos h]
    exact div_nonneg (mul_nonneg (mul_nonneg zero_le_four ha) hb) h.le
  · rw [if_neg h]

theorem chiTerm_le (ha : 0 ≤ a) (hb : 0 ≤ b) : chiTerm a b ≤ a + b := by
  have hsum := chiTerm_add ha hb
  have hcommon := common_nonneg ha hb
  linarith

end Term

section Sum
variable {s : Finset ι} {p q : ι → K}

theorem chiSquared_self (s : Finset ι) (p : ι → K) : chiSquared s p p = 0 :=
  Finset.sum_eq_zero fun i _ => chiTerm_self (p i)

theorem chiSquared_nonneg (s : Finset ι) (p q : ι → K) : 0 ≤ chiSquared s p q :=
  Finset.sum_nonneg fun i _ => chiTerm_nonneg (p i) (q i)

theorem chiSquared_le (hp : ∀ i ∈ s, 0 ≤ p i) (hq : ∀ i ∈ s, 0 ≤ q i) :
    chiSquared s p q ≤ ∑ i ∈ s, p i + ∑ i ∈ s, q i := by
  rw [← Finset.sum_add_distrib]
  exact Finset.sum_le_sum fun i hi => chiTerm_le (hp i hi) (hq i hi)

/-- All the weight of the second at one place, where the first has a share of its own. -/
theorem chiSquared_single [DecidableEq ι] (hp : ∀ i ∈ s, 0 ≤ p i) (hsum : ∑ i ∈ s, p i = 1) {i : ι} (hi : i ∈ s) :
    chiSquared s p (Pi.single i 1) = 2 * ((1 - p i) / (1 + p i)) := by
  have hpos : 0 < p i + 1 := add_pos_of_nonneg_of_pos (hp i hi) zero_lt_one
  have hothers : ∑ j ∈ s.erase i, chiTerm (p j) ((Pi.single i 1 : ι → K) j) = ∑ j ∈ s.erase i, p j := by
    refine Finset.sum_congr rfl fun j hj => ?_
    obtain ⟨hne, hmem⟩ := Finset.mem_erase.mp hj
    rw [Pi.single_eq_of_ne hne, chiTerm_zero (hp j hmem)]
  have hrest : ∑ j ∈ s.erase i, p j = 1 - p i := by
    rw [← hsum, ← Finset.add_sum_erase s p hi, add_sub_cancel_left]
  rw [chiSquared, ← Finset.add_sum_erase s _ hi, hothers, hrest, Pi.single_eq_same, chiTerm, if_pos hpos,
    add_comm 1 (p i)]
  field_simp
  ring

end Sum

end ChiSquared

/-! ## Gaps between events of one key -/

section Gaps
variable {α : Type u} {κ : Type v} [DecidableEq κ]

structure Gaps (κ : Type v) where
  last : KeyValue κ ℚ := []
  sum : ℚ := 0
  count : ℕ := 0

section
variable (key : α → κ) (time : α → ℚ)

def Gaps.add (g : Gaps κ) (a : α) : Gaps κ :=
  match g.last.get (key a) with
  | some prev => ⟨g.last.set (key a) (time a), g.sum + (time a - prev), g.count + 1⟩
  | none => ⟨g.last.set (key a) (time a), g.sum, g.count⟩

def gaps (l : List α) : Gaps κ := l.foldl (Gaps.add key time) {}

/-- The times of a key. -/
def timesOf (k : κ) (l : List α) : List ℚ := (l.filter fun a => key a = k).map time

def span (times : List ℚ) : ℚ := times.getLast?.getD 0 - times.head?.getD 0

variable {key time}

theorem gaps_concat (l : List α) (a : α) : gaps key time (l ++ [a]) = (gaps key time l).add key time a := by
  rw [gaps, List.foldl_append]
  rfl

theorem timesOf_concat (k : κ) (l : List α) (a : α) :
    timesOf key time k (l ++ [a]) = timesOf key time k l ++ if key a = k then [time a] else [] := by
  rw [timesOf, List.filter_append, List.map_append, List.filter_singleton]
  by_cases h : key a = k <;> simp [h, timesOf]

theorem span_concat (times : List ℚ) (t : ℚ) :
    span (times ++ [t]) = span times + times.getLast?.elim 0 fun prev => t - prev := by
  cases times with
  | nil => simp [span]
  | cons first rest =>
    have hlast : (first :: rest).getLast? = some ((first :: rest).getLast (List.cons_ne_nil _ _)) :=
      List.getLast?_eq_some_getLast _
    rw [span, span, hlast, List.getLast?_concat, List.cons_append, List.head?_cons, List.head?_cons, Option.elim_some,
      Option.getD_some, Option.getD_some, Option.getD_some]
    ring

theorem last_gaps (l : List α) (k : κ) : (gaps key time l).last.get k = (timesOf key time k l).getLast? := by
  induction l using List.reverseRecOn generalizing k with
  | nil => rfl
  | append_singleton l a ih =>
    have hlast : ((gaps key time l).add key time a).last = (gaps key time l).last.set (key a) (time a) := by
      unfold Gaps.add
      split <;> rfl
    rw [gaps_concat, timesOf_concat, hlast]
    by_cases h : key a = k
    · subst h
      rw [KeyValue.get_set_self, if_pos rfl, List.getLast?_concat]
    · rw [KeyValue.get_set_of_ne (Ne.symm h), if_neg h, List.append_nil, ih]

theorem add_sum (g : Gaps κ) (a : α) :
    (g.add key time a).sum = g.sum + (g.last.get (key a)).elim 0 fun prev => time a - prev := by
  unfold Gaps.add
  split
  · rename_i prev hprev
    rw [hprev, Option.elim_some]
  · rename_i hnone
    rw [hnone, Option.elim_none, add_zero]

/-- The gaps of each key make up its span. -/
theorem sum_gaps {s : Finset κ} (l : List α) (h : ∀ a ∈ l, key a ∈ s) :
    (gaps key time l).sum = ∑ k ∈ s, span (timesOf key time k l) := by
  induction l using List.reverseRecOn with
  | nil => simp [gaps, timesOf, span]
  | append_singleton l a ih =>
    have hmem : key a ∈ s := h a (by simp)
    have hspan : ∀ k ∈ s, span (timesOf key time k (l ++ [a])) = span (timesOf key time k l) +
        if key a = k then (timesOf key time k l).getLast?.elim 0 fun prev => time a - prev else 0 := by
      intro k _
      rw [timesOf_concat]
      by_cases hk : key a = k
      · rw [if_pos hk, if_pos hk, span_concat]
      · rw [if_neg hk, if_neg hk, List.append_nil, add_zero]
    rw [gaps_concat, add_sum, ih fun b hb => h b (List.mem_append_left _ hb), Finset.sum_congr rfl hspan,
      Finset.sum_add_distrib, Finset.sum_ite_eq, if_pos hmem, last_gaps]

/-- Each event but the first of its key closes a gap. -/
theorem count_gaps (l : List α) : (gaps key time l).count + (l.map key).toFinset.card = l.length := by
  induction l using List.reverseRecOn with
  | nil => rfl
  | append_singleton l a ih =>
    have hseen : (gaps key time l).last.get (key a) = none ↔ key a ∉ (l.map key).toFinset := by
      rw [last_gaps, List.getLast?_eq_none_iff, timesOf, List.map_eq_nil_iff, List.filter_eq_nil_iff, List.mem_toFinset,
        List.mem_map]
      constructor
      · rintro hnone ⟨b, hb, heq⟩
        exact hnone b hb (by simpa using heq)
      · intro hnone b hb heq
        exact hnone ⟨b, hb, by simpa using heq⟩
    have hkeys : ((l ++ [a]).map key).toFinset = insert (key a) (l.map key).toFinset := by
      ext k
      simp
    rw [gaps_concat, hkeys, List.length_append, List.length_singleton]
    unfold Gaps.add
    split
    · rename_i prev hprev
      have hmem : key a ∈ (l.map key).toFinset := by
        by_contra hnot
        rw [hseen.mpr hnot] at hprev
        cases hprev
      rw [Finset.insert_eq_of_mem hmem]
      dsimp only
      omega
    · rename_i hnone
      rw [Finset.card_insert_of_notMem (hseen.mp hnone)]
      dsimp only
      omega

variable {l l' : List α}

theorem timesOf_perm (h : l.Perm l') (hl : l.Pairwise fun a b => time a ≤ time b)
    (hl' : l'.Pairwise fun a b => time a ≤ time b) (k : κ) : timesOf key time k l = timesOf key time k l' := by
  have hsorted : ∀ {m : List α}, m.Pairwise (fun a b => time a ≤ time b) →
      (timesOf key time k m).Pairwise (· ≤ ·) := fun hm => List.pairwise_map.mpr (hm.filter _)
  exact ((h.filter _).map time).eq_of_pairwise' (hsorted hl) (hsorted hl')

theorem sum_gaps_perm (h : l.Perm l') (hl : l.Pairwise fun a b => time a ≤ time b)
    (hl' : l'.Pairwise fun a b => time a ≤ time b) : (gaps key time l).sum = (gaps key time l').sum := by
  rw [sum_gaps (s := (l.map key).toFinset) l fun a ha => List.mem_toFinset.mpr (List.mem_map_of_mem ha),
    sum_gaps (s := (l.map key).toFinset) l' fun a ha =>
      List.mem_toFinset.mpr (List.mem_map_of_mem (h.mem_iff.mpr ha))]
  exact Finset.sum_congr rfl fun k _ => by rw [timesOf_perm h hl hl']

theorem count_gaps_perm (h : l.Perm l') : (gaps key time l).count = (gaps key time l').count := by
  have hkeys : (l.map key).toFinset = (l'.map key).toFinset := List.toFinset_eq_of_perm _ _ (h.map key)
  have hl : (gaps key time l).count + (l.map key).toFinset.card = l.length := count_gaps l
  have hl' : (gaps key time l').count + (l'.map key).toFinset.card = l'.length := count_gaps l'
  have hlength := h.length_eq
  rw [hkeys] at hl
  omega

end

end Gaps
end SuperAi.Foundations
