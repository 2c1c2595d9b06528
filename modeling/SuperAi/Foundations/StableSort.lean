import Mathlib.Algebra.Order.Field.Rat
import Mathlib.Data.List.Sort

/-! # Sorting with a comparator

`Array.prototype.sort` with a comparator: stable, and `b` may not come before `a` where `0 ≤ cmp b a`. A comparator
whose answers are those of a total preorder gives a sorted list (`pairwise_sort`); the least and the greatest value of a
key then stand at the ends.
-/
namespace SuperAi.Foundations
set_option autoImplicit false

universe u

section Comparators
variable {α : Type u}

def sort (cmp : α → α → ℚ) (l : List α) : List α := l.mergeSort fun a b => decide (0 ≤ cmp b a)

theorem sort_perm (cmp : α → α → ℚ) (l : List α) : (sort cmp l).Perm l := List.mergeSort_perm l _

@[simp] theorem mem_sort {cmp : α → α → ℚ} {l : List α} {a : α} : a ∈ sort cmp l ↔ a ∈ l := (sort_perm cmp l).mem_iff

/-- The answers are those of a total preorder. -/
structure Consistent (cmp : α → α → ℚ) : Prop where
  total : ∀ a b, 0 ≤ cmp b a ∨ 0 ≤ cmp a b
  trans : ∀ a b c, 0 ≤ cmp b a → 0 ≤ cmp c b → 0 ≤ cmp c a

theorem pairwise_sort {cmp : α → α → ℚ} (h : Consistent cmp) (l : List α) :
    (sort cmp l).Pairwise fun a b => 0 ≤ cmp b a := by
  have htrans : ∀ a b c : α, decide (0 ≤ cmp b a) = true → decide (0 ≤ cmp c b) = true →
      decide (0 ≤ cmp c a) = true := by
    intro a b c hab hbc
    exact decide_eq_true (h.trans a b c (of_decide_eq_true hab) (of_decide_eq_true hbc))
  have htotal : ∀ a b : α, (decide (0 ≤ cmp b a) || decide (0 ≤ cmp a b)) = true := by
    intro a b
    simpa using h.total a b
  exact (List.pairwise_mergeSort htrans htotal l).imp fun hab => of_decide_eq_true hab

theorem sort_of_pairwise {cmp : α → α → ℚ} {l : List α} (h : l.Pairwise fun a b => 0 ≤ cmp b a) : sort cmp l = l :=
  List.mergeSort_of_pairwise (h.imp decide_eq_true)

/-! ## Sorting by a number -/

variable (key : α → ℚ)

theorem consistent_rising : Consistent fun a b : α => key a - key b where
  total a b := by
    simp only [sub_nonneg]
    exact le_total (key a) (key b)
  trans a b c hab hbc := by
    simp only [sub_nonneg] at hab hbc ⊢
    exact hab.trans hbc

theorem consistent_falling : Consistent fun a b : α => key b - key a where
  total a b := by
    simp only [sub_nonneg]
    exact le_total (key b) (key a)
  trans a b c hab hbc := by
    simp only [sub_nonneg] at hab hbc ⊢
    exact hbc.trans hab

variable {key} {l : List α} {a : α}

theorem le_of_head_sort (h : (sort (fun a b => key a - key b) l).head? = some a) : ∀ b ∈ l, key a ≤ key b := by
  intro b hb
  have hsorted := pairwise_sort (consistent_rising key) l
  obtain ⟨rest, hrest⟩ := List.head?_eq_some_iff.mp h
  have hmem : b ∈ a :: rest := hrest ▸ mem_sort.mpr hb
  rw [hrest] at hsorted
  cases List.mem_cons.mp hmem with
  | inl heq => exact le_of_eq (congrArg key heq.symm)
  | inr hin => exact sub_nonneg.mp ((List.pairwise_cons.mp hsorted).1 b hin)

theorem le_of_getLast_sort (h : (sort (fun a b => key a - key b) l).getLast? = some a) : ∀ b ∈ l, key b ≤ key a := by
  intro b hb
  have hsorted := pairwise_sort (consistent_rising key) l
  obtain ⟨start, hstart⟩ := List.getLast?_eq_some_iff.mp h
  have hmem : b ∈ start ++ [a] := hstart ▸ mem_sort.mpr hb
  rw [hstart] at hsorted
  cases List.mem_append.mp hmem with
  | inl hin => exact sub_nonneg.mp ((List.pairwise_append.mp hsorted).2.2 b hin a (List.mem_singleton.mpr rfl))
  | inr hlast => exact le_of_eq (congrArg key (List.mem_singleton.mp hlast))

end Comparators

/-- The ends of a list of distinct values differ. -/
theorem head_ne_getLast {α β : Type u} {f : α → β} {l : List α} (hnodup : (l.map f).Nodup) (hlen : 2 ≤ l.length)
    {a b : α} (ha : l.head? = some a) (hb : l.getLast? = some b) : f a ≠ f b := by
  obtain ⟨rest, rfl⟩ := List.head?_eq_some_iff.mp ha
  have hrest : rest ≠ [] := fun hnil => by simp [hnil] at hlen
  have hmem : b ∈ rest := by
    rw [List.getLast?_cons_of_ne_nil hrest] at hb
    exact List.mem_of_getLast? hb
  intro heq
  have hfresh := (List.nodup_cons.mp hnodup).1
  exact hfresh (List.mem_map.mpr ⟨b, hmem, heq.symm⟩)

end SuperAi.Foundations
