import Mathlib.Data.Finset.Card
import Mathlib.Data.List.Pairwise
import Mathlib.Data.List.TakeWhile

/-! # Keys in the order of their last touch

`touches` are the keys touched so far, the last one first; `keys` are the ones that are kept, the one touched last at
the end, where the first makes room. The keys behind a key have all been touched since it was (`Recency`), so that many
keys have been touched since the first (`Recency.card_of_first`). If no key is lost but the first, those touched since
a key are all behind it (`KeepsLater`).
-/
namespace SuperAi.Foundations
set_option autoImplicit false

universe u v
variable {κ : Type u} [DecidableEq κ]

/-- The other keys touched since a key was. -/
def touchedSince (key : κ) (touches : List κ) : List κ := touches.takeWhile fun k => k ≠ key

theorem touchedSince_self (key : κ) (touches : List κ) : touchedSince key (key :: touches) = [] := by
  simp [touchedSince]

theorem touchedSince_of_ne {key k : κ} (h : k ≠ key) (touches : List κ) :
    touchedSince key (k :: touches) = k :: touchedSince key touches := by
  simp [touchedSince, h]

theorem ne_of_mem_touchedSince {key k : κ} {touches : List κ} (h : k ∈ touchedSince key touches) : k ≠ key := by
  simpa using List.mem_takeWhile_imp (p := fun k => decide (k ≠ key)) h

theorem mem_filter_ne {key k : κ} {keys : List κ} : (k ∈ keys.filter fun k => k ≠ key) ↔ k ∈ keys ∧ k ≠ key := by
  simp

/-- Of two keys only one has been touched since the other was. -/
theorem touchedSince_asymm {key k : κ} {touches : List κ} (h : k ∈ touchedSince key touches) :
    key ∉ touchedSince k touches := by
  induction touches with
  | nil => exact absurd h List.not_mem_nil
  | cons t touches ih =>
    by_cases hkey : t = key
    · subst hkey
      rw [touchedSince_self] at h
      exact absurd h List.not_mem_nil
    · by_cases hk : t = k
      · subst hk
        rw [touchedSince_self]
        exact List.not_mem_nil
      · rw [touchedSince_of_ne hkey] at h
        rw [touchedSince_of_ne hk]
        obtain heq | hmem := List.mem_cons.mp h
        · exact absurd heq.symm hk
        · intro hback
          obtain heq | hback := List.mem_cons.mp hback
          · exact hkey heq.symm
          · exact ih hmem hback

structure Recency (keys touches : List κ) : Prop where
  nodup : keys.Nodup
  order : keys.Pairwise fun a b => b ∈ touchedSince a touches

/-- No key is missing of those touched since another. -/
def KeepsLater (keys touches : List κ) : Prop := ∀ k ∈ keys, ∀ k' ∈ touchedSince k touches, k' ∈ keys

section Recency
variable {keys keys' touches : List κ}

theorem Recency.nil (touches : List κ) : Recency [] touches := ⟨List.nodup_nil, List.Pairwise.nil⟩

theorem Recency.sublist (h : Recency keys touches) (hsub : keys'.Sublist keys) : Recency keys' touches :=
  ⟨h.nodup.sublist hsub, h.order.sublist hsub⟩

/-- A key that is touched goes to the end. -/
theorem Recency.touch (h : Recency keys touches) (key : κ) :
    Recency (keys.filter (fun k => k ≠ key) ++ [key]) (key :: touches) where
  nodup := by
    apply List.Nodup.append (h.nodup.sublist List.filter_sublist) (List.nodup_singleton _)
    intro k hk hkey
    exact (mem_filter_ne.mp hk).2 (List.mem_singleton.mp hkey)
  order := by
    rw [List.pairwise_append]
    refine ⟨?_, List.pairwise_singleton _ _, ?_⟩
    · apply (h.order.sublist List.filter_sublist).imp_of_mem
      intro a b ha _ hab
      rw [touchedSince_of_ne (mem_filter_ne.mp ha).2.symm]
      exact List.mem_cons_of_mem _ hab
    · intro a ha b hb
      obtain rfl := List.mem_singleton.mp hb
      rw [touchedSince_of_ne (mem_filter_ne.mp ha).2.symm]
      exact List.mem_cons_self

theorem Recency.card_of_first {first : κ} (h : Recency (first :: keys) touches) :
    keys.length ≤ (touchedSince first touches).toFinset.card := by
  obtain ⟨hbehind, -⟩ := List.pairwise_cons.mp h.order
  have hsubset : keys.toFinset ⊆ (touchedSince first touches).toFinset := by
    intro k hk
    exact List.mem_toFinset.mpr (hbehind k (List.mem_toFinset.mp hk))
  rw [← List.toFinset_card_of_nodup (List.nodup_cons.mp h.nodup).2]
  exact Finset.card_le_card hsubset

theorem card_touchedSince_le (key k : κ) (h : key ≠ k) (touches : List κ) :
    (touchedSince k touches).toFinset.card ≤ (touchedSince k (key :: touches)).toFinset.card := by
  rw [touchedSince_of_ne h, List.toFinset_cons]
  exact Finset.card_le_card (Finset.subset_insert _ _)

/-- What has been touched since another stands behind it, in any order that the entries keep. -/
theorem Recency.rel {α : Type v} {f : α → κ} {R : α → α → Prop} {entries : List α}
    (h : Recency (entries.map f) touches) (hR : entries.Pairwise R) {a b : α} (ha : a ∈ entries) (hb : b ∈ entries)
    (hlater : f b ∈ touchedSince (f a) touches) : R a b := by
  have horder := List.pairwise_map.mp h.order
  induction entries with
  | nil => cases ha
  | cons e entries ih =>
    obtain ⟨hbehind, hrest⟩ := List.pairwise_cons.mp horder
    obtain ⟨hfirst, hRrest⟩ := List.pairwise_cons.mp hR
    obtain rfl | hae := List.mem_cons.mp ha
    · obtain rfl | hbe := List.mem_cons.mp hb
      · exact absurd rfl (ne_of_mem_touchedSince hlater)
      · exact hfirst b hbe
    · obtain rfl | hbe := List.mem_cons.mp hb
      · exact absurd (hbehind a hae) (touchedSince_asymm hlater)
      · exact ih (h.sublist (List.sublist_cons_self _ _)) hRrest hae hbe hrest

theorem KeepsLater.touch (h : KeepsLater keys touches) (key : κ) :
    KeepsLater (keys.filter (fun k => k ≠ key) ++ [key]) (key :: touches) := by
  intro k hk k' hk'
  by_cases hkey : k' = key
  · rw [hkey]
    exact List.mem_append_right _ List.mem_cons_self
  · obtain hold | hnew := List.mem_append.mp hk
    · obtain ⟨hmem, hne⟩ := List.mem_filter.mp hold
      rw [touchedSince_of_ne (of_decide_eq_true hne).symm] at hk'
      obtain heq | hlater := List.mem_cons.mp hk'
      · exact absurd heq hkey
      · exact List.mem_append_left _ (mem_filter_ne.mpr ⟨h k hmem k' hlater, hkey⟩)
    · rw [List.mem_singleton.mp hnew, touchedSince_self] at hk'
      exact absurd hk' List.not_mem_nil

/-- The first key goes, and no other has been kept for longer. -/
theorem KeepsLater.tail (h : KeepsLater keys touches) (hrecency : Recency keys touches) :
    KeepsLater keys.tail touches := by
  cases keys with
  | nil => exact h
  | cons first rest =>
    intro k hk k' hk'
    obtain rfl | hrest := List.mem_cons.mp (h k (List.mem_cons_of_mem _ hk) k' hk')
    · obtain ⟨hbehind, -⟩ := List.pairwise_cons.mp hrecency.order
      exact absurd (hbehind k hk) (touchedSince_asymm hk')
    · exact hrest

theorem KeepsLater.card_lt (h : KeepsLater keys touches) {key : κ} (hkey : key ∈ keys) :
    (touchedSince key touches).toFinset.card < keys.length := by
  have hsubset : (touchedSince key touches).toFinset ⊆ keys.toFinset.erase key := by
    intro k hk
    have hlater := List.mem_toFinset.mp hk
    exact Finset.mem_erase.mpr ⟨ne_of_mem_touchedSince hlater, List.mem_toFinset.mpr (h key hkey k hlater)⟩
  have hcard := Finset.card_le_card hsubset
  rw [Finset.card_erase_of_mem (List.mem_toFinset.mpr hkey)] at hcard
  have hpos : 0 < keys.toFinset.card := Finset.card_pos.mpr ⟨key, List.mem_toFinset.mpr hkey⟩
  have hle := List.toFinset_card_le keys
  omega

end Recency

end SuperAi.Foundations
