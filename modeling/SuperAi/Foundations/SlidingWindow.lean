import Mathlib.Data.List.TakeWhile
import Mathlib.Data.Int.Notation
import Mathlib.Tactic.Basic

/-! # Sliding windows

A limiter keeps the times of the hits that it has let through, drops those from the front that are
older than its window, and lets one more hit through while fewer than `limit` are kept. Then no
half-open interval of the length of the window has more than `limit` hits.
-/
namespace SuperAi.Foundations.SlidingWindow
set_option autoImplicit false

/-- How many of the hits are in the half-open interval of length `window` from `start` on. -/
def hitsIn (window : ℤ) (hits : List ℤ) (start : ℤ) : ℕ :=
  hits.countP fun t => decide (start ≤ t) && decide (t < start + window)

/-- The kept times without those at the front that are older than the window. -/
def prune (window now : ℤ) (kept : List ℤ) : List ℤ := kept.dropWhile fun t => decide (t < now - window)

/-- The times kept are the last of the `hits`; those dropped from them have left the window. -/
structure Limited (window : ℤ) (limit : ℕ) (clock : ℤ) (hits kept : List ℤ) : Prop where
  split : ∃ dropped, hits = dropped ++ kept ∧ ∀ t ∈ dropped, t < clock - window
  bounded : ∀ start, hitsIn window hits start ≤ limit

variable {window clock now start : ℤ} {limit : ℕ} {hits kept : List ℤ}

theorem hitsIn_append (hits later : List ℤ) :
    hitsIn window (hits ++ later) start = hitsIn window hits start + hitsIn window later start :=
  List.countP_append

theorem hitsIn_eq_zero (h : ∀ t ∈ hits, t < start) : hitsIn window hits start = 0 := by
  apply List.countP_eq_zero.mpr
  intro t ht
  have hlt := h t ht
  simp only [Bool.and_eq_true, decide_eq_true_eq, not_and]
  omega

theorem hitsIn_singleton_of_not (h : ¬ (start ≤ now ∧ now < start + window)) :
    hitsIn window [now] start = 0 := by
  apply List.countP_eq_zero.mpr
  intro t ht
  rw [List.mem_singleton.mp ht]
  simpa using h

namespace Limited

theorem nil : Limited window limit clock [] [] where
  split := ⟨[], rfl, nofun⟩
  bounded _ := Nat.zero_le limit

theorem later (h : Limited window limit clock hits kept) (hle : clock ≤ now) :
    Limited window limit now hits kept where
  split := by
    obtain ⟨dropped, hhits, hold⟩ := h.split
    refine ⟨dropped, hhits, fun t ht => ?_⟩
    have hlt := hold t ht
    omega
  bounded := h.bounded

theorem prune (h : Limited window limit now hits kept) :
    Limited window limit now hits (prune window now kept) where
  split := by
    obtain ⟨dropped, hhits, hold⟩ := h.split
    refine ⟨dropped ++ kept.takeWhile fun t => decide (t < now - window), ?_, ?_⟩
    · rw [List.append_assoc]
      unfold SlidingWindow.prune
      rw [List.takeWhile_append_dropWhile, hhits]
    · intro t ht
      rcases List.mem_append.mp ht with hdropped | htaken
      · exact hold t hdropped
      · have hold := List.mem_takeWhile_imp htaken
        exact of_decide_eq_true hold
  bounded := h.bounded

/-- A hit is let through: the hits of an interval that holds it are all kept. -/
theorem hit (h : Limited window limit now hits kept) (hroom : kept.length < limit) :
    Limited window limit now (hits ++ [now]) (kept ++ [now]) where
  split := by
    obtain ⟨dropped, hhits, hold⟩ := h.split
    exact ⟨dropped, by rw [hhits, List.append_assoc], hold⟩
  bounded start := by
    rw [hitsIn_append]
    by_cases hin : start ≤ now ∧ now < start + window
    · obtain ⟨dropped, hhits, hold⟩ := h.split
      have hdropped : hitsIn window dropped start = 0 := by
        apply hitsIn_eq_zero
        intro t ht
        have hlt := hold t ht
        omega
      have hkept : hitsIn window kept start ≤ kept.length := List.countP_le_length
      have hnew : hitsIn window [now] start ≤ [now].length := List.countP_le_length
      rw [List.length_singleton] at hnew
      rw [hhits, hitsIn_append]
      omega
    · rw [hitsIn_singleton_of_not hin]
      exact h.bounded start

end Limited
end SuperAi.Foundations.SlidingWindow
