import Mathlib.Data.Finset.Card
import Mathlib.Data.List.Sort

/-! # Oldest first

Rounds that pick the `n` oldest of some rows, where a row that is served becomes younger than those left out and one
that is picked but not served keeps its age. A row that a number of rounds leave out has had fewer than all rows
before it, each once, apart from those that were picked in vain (`LeftOut.bound`).
-/
namespace SuperAi.Foundations
set_option autoImplicit false

universe u v

variable {α : Type u} {β : Type v} [LinearOrder β]

/-- Of the rows, `picked` are the oldest by their keys, as many as `n` if there are that many. -/
structure OldestFirst (key : α → β) (n : ℕ) (rows picked : Finset α) : Prop where
  subset : picked ⊆ rows
  oldest : ∀ a ∈ picked, ∀ b ∈ rows, b ∉ picked → key a ≤ key b
  full : ∀ b ∈ rows, b ∉ picked → n ≤ picked.card

/-- Of those that get an answer each, the ones whose answer is good. -/
def served {γ : Type v} (picked : List α) (answers : List γ) (good : γ → Bool) : List α :=
  ((picked.zip answers).filter fun pair => good pair.2).map Prod.fst

section Served
variable {γ : Type v} {picked : List α} {answers : List γ} {good : γ → Bool}

theorem mem_served {a : α} : a ∈ served picked answers good ↔ ∃ b, (a, b) ∈ picked.zip answers ∧ good b = true := by
  simp [served]

theorem served_sublist (h : answers.length = picked.length) (good : γ → Bool) :
    (served picked answers good).Sublist picked := by
  have hsub : (served picked answers good).Sublist ((picked.zip answers).map Prod.fst) :=
    List.filter_sublist.map Prod.fst
  rwa [List.map_fst_zip h.ge] at hsub

theorem length_picked (h : answers.length = picked.length) (good : γ → Bool) :
    picked.length = (served picked answers good).length + answers.countP fun b => !good b := by
  have hanswers : (picked.zip answers).map Prod.snd = answers := List.map_snd_zip h.le
  have hpicked : (picked.zip answers).length = picked.length := by rw [List.length_zip, h, min_self]
  have htotal := List.length_eq_countP_add_countP (fun pair : α × γ => good pair.2) (l := picked.zip answers)
  have hbad : answers.countP (fun b => !good b) = (picked.zip answers).countP fun pair => !good pair.2 := by
    rw [← hanswers, List.countP_map, hanswers]
    rfl
  have hnot : (fun pair : α × γ => decide ¬good pair.2 = true) = fun pair => !good pair.2 := by
    funext pair
    simp
  rw [hnot, hpicked] at htotal
  rw [hbad, served, List.length_map, ← List.countP_eq_length_filter]
  omega

end Served

namespace OldestFirst
variable {key key' : α → β} {n : ℕ} {rows rows' picked served : Finset α} {x : α}

/-- The rows that are no younger than `x`. -/
def ahead (key : α → β) (rows : Finset α) (x : α) : Finset α := {a ∈ rows | key a ≤ key x}

theorem mem_ahead {a : α} : a ∈ ahead key rows x ↔ a ∈ rows ∧ key a ≤ key x := Finset.mem_filter

theorem picked_subset (h : OldestFirst key n rows picked) (hx : x ∈ rows) (hout : x ∉ picked) :
    picked ⊆ ahead key rows x :=
  fun a ha => mem_ahead.mpr ⟨h.subset ha, h.oldest a ha x hx hout⟩

variable [DecidableEq α]

theorem of_sorted {l sorted : List α} (hnodup : l.Nodup) (hperm : sorted.Perm l)
    (hsorted : sorted.Pairwise fun a b => key a ≤ key b) :
    OldestFirst key n l.toFinset (sorted.take n).toFinset where
  subset a ha := List.mem_toFinset.mpr (hperm.subset (List.mem_of_mem_take (List.mem_toFinset.mp ha)))
  oldest a ha b hb hout := by
    rw [List.mem_toFinset] at ha hb hout
    have hmem := hperm.symm.subset hb
    rw [← List.take_append_drop n sorted] at hmem hsorted
    have hdrop := (List.mem_append.mp hmem).resolve_left hout
    exact (List.pairwise_append.mp hsorted).2.2 a ha b hdrop
  full b hb hout := by
    rw [List.mem_toFinset] at hb hout
    have htake : (sorted.take n).Nodup := (hperm.symm.nodup hnodup).sublist (List.take_sublist n sorted)
    rw [List.toFinset_card_of_nodup htake, List.length_take]
    apply le_min (le_refl n)
    by_contra hshort
    rw [List.take_of_length_le (not_le.mp hshort).le] at hout
    exact hout (hperm.symm.subset hb)

/-- A row that is left out has `n` others ahead of it. -/
theorem card_ahead (h : OldestFirst key n rows picked) (hx : x ∈ rows) (hout : x ∉ picked) :
    n + 1 ≤ (ahead key rows x).card := by
  have hself : x ∈ ahead key rows x := mem_ahead.mpr ⟨hx, le_refl _⟩
  have hinsert : insert x picked ⊆ ahead key rows x := Finset.insert_subset hself (h.picked_subset hx hout)
  have hcard := Finset.card_le_card hinsert
  rw [Finset.card_insert_of_notMem hout] at hcard
  have hfull := h.full x hx hout
  omega

/-- Of the rows that are left, those that were served are younger than `x` was, and the others are as old as before. -/
structure Renews (x : α) (key key' : α → β) (rows' served : Finset α) : Prop where
  fresh : ∀ a ∈ rows', a ∈ served → key x < key' a
  kept : ∀ a ∈ rows', a ∉ served → key' a = key a

/-- Those that were served are no longer ahead. -/
theorem card_ahead_next (h : OldestFirst key n rows picked) (hx : x ∈ rows) (hout : x ∉ picked)
    (hserved : served ⊆ picked) (hrenews : Renews x key key' rows' served) (hstay : rows' ⊆ rows) (hx' : x ∈ rows') :
    (ahead key' rows' x).card + served.card ≤ (ahead key rows x).card := by
  have hxkey : key' x = key x := hrenews.kept x hx' fun hin => hout (hserved hin)
  have hnext : ahead key' rows' x ⊆ ahead key rows x \ served := by
    intro a ha
    obtain ⟨hrow, hle⟩ := mem_ahead.mp ha
    rw [hxkey] at hle
    have hold : a ∉ served := fun hin => absurd hle (not_le.mpr (hrenews.fresh a hrow hin))
    rw [hrenews.kept a hrow hold] at hle
    exact Finset.mem_sdiff.mpr ⟨mem_ahead.mpr ⟨hstay hrow, hle⟩, hold⟩
  have hcard := Finset.card_le_card hnext
  rw [Finset.card_sdiff_of_subset (hserved.trans (h.picked_subset hx hout))] at hcard
  have hle := Finset.card_le_card (hserved.trans (h.picked_subset hx hout))
  omega

/-- Rounds one after another, none of which picks `x`. At most `missed` are picked in vain before the last round. -/
inductive LeftOut (n : ℕ) (x : α) : (α → β) → Finset α → ℕ → ℕ → Prop
  | last {key : α → β} {rows picked : Finset α} (pick : OldestFirst key n rows picked) (mem : x ∈ rows)
      (out : x ∉ picked) : LeftOut n x key rows 1 0
  | round {key key' : α → β} {rows rows' picked served : Finset α} {rounds missed vain : ℕ}
      (pick : OldestFirst key n rows picked) (mem : x ∈ rows) (out : x ∉ picked) (sub : served ⊆ picked)
      (count : picked.card ≤ served.card + vain) (renews : Renews x key key' rows' served) (stay : rows' ⊆ rows)
      (rest : LeftOut n x key' rows' rounds missed) : LeftOut n x key rows (rounds + 1) (vain + missed)

omit [DecidableEq α] in
theorem LeftOut.mem_rows {rounds missed : ℕ} (h : LeftOut n x key rows rounds missed) : x ∈ rows := by
  cases h with
  | last _ mem _ => exact mem
  | round _ mem _ _ _ _ _ _ => exact mem

theorem LeftOut.bound_ahead {rounds missed : ℕ} (h : LeftOut n x key rows rounds missed) :
    rounds * n + 1 ≤ (ahead key rows x).card + missed := by
  induction h with
  | last pick mem out =>
    have hcard := pick.card_ahead mem out
    omega
  | round pick mem out sub count renews stay rest ih =>
    have hnext := pick.card_ahead_next mem out sub renews stay rest.mem_rows
    have hfull := pick.full _ mem out
    rw [Nat.succ_mul]
    omega

/-- **Coverage.** Rounds that leave a row out are few, or many were picked in vain. -/
theorem LeftOut.bound {rounds missed : ℕ} (h : LeftOut n x key rows rounds missed) :
    rounds * n + 1 ≤ rows.card + missed := by
  have hahead := h.bound_ahead
  have hle : (ahead key rows x).card ≤ rows.card := Finset.card_filter_le _ _
  omega

end OldestFirst
end SuperAi.Foundations
