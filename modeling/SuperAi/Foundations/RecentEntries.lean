import Mathlib.Data.List.Basic

/-! # The latest entries

Lists that get a new entry in front and are cut to a length, as `lpush` and `ltrim` do: what such a list holds, and how
many of its entries have a property that all later ones have with an earlier one.
-/
namespace SuperAi.Foundations
set_option autoImplicit false

universe u
variable {α : Type u}

/-- To cut a list before it gets an entry makes no difference. -/
theorem take_cons_take (n : ℕ) (a : α) (l : List α) : (a :: l.take n).take n = (a :: l).take n := by
  cases n with
  | zero => rfl
  | succ n => rw [List.take_succ_cons, List.take_succ_cons, List.take_take, Nat.min_eq_left (Nat.le_succ n)]

/-- Where whatever has the property comes first, a part has as many that have it as it can. -/
theorem countP_take {p : α → Bool} {l : List α} (h : l.Pairwise fun a b => p b = true → p a = true) (n : ℕ) :
    (l.take n).countP p = min n (l.countP p) := by
  induction l generalizing n with
  | nil => simp
  | cons a l ih =>
    obtain ⟨hfirst, hrest⟩ := List.pairwise_cons.mp h
    cases n with
    | zero => simp
    | succ n =>
      rw [List.take_succ_cons]
      by_cases ha : p a = true
      · rw [List.countP_cons_of_pos ha, List.countP_cons_of_pos ha, ih hrest]
        omega
      · have hnone : ∀ b ∈ l, ¬ p b = true := fun b hb hpb => ha (hfirst b hb hpb)
        rw [List.countP_cons_of_neg ha, List.countP_cons_of_neg ha, List.countP_eq_zero.mpr hnone,
          List.countP_eq_zero.mpr fun b hb => hnone b (List.mem_of_mem_take hb), Nat.min_zero]

end SuperAi.Foundations
