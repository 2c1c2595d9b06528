import Mathlib.Data.List.InsertIdx
import Mathlib.Data.Finset.Card
import Mathlib.Data.Finset.Max
import Mathlib.Order.Interval.Finset.Nat

/-! # Counting answers in a row

A tally counts the misses among answers that are handled one at a time, and is reset by any other
answer. The answers can be handled in another order than the one in which they were given. What has
been counted was given in a row if each count is that of a miss, finds only misses among the earlier
answers still waiting, and comes after no later answer that was handled as something else.
-/
namespace SuperAi.Foundations
set_option autoImplicit false

universe u v

/-- The answers given so far, the numbers of those still to be handled with what is waiting for them,
and the numbers counted since the last reset. -/
structure Tally (α : Type u) (β : Type v) where
  answers : List α := []
  waiting : List (ℕ × β) := []
  counted : List ℕ := []
  deriving DecidableEq

/-- There are `n` answers in a row that satisfy `miss`. -/
def Streak {α : Type u} (miss : α → Prop) (answers : List α) (n : ℕ) : Prop :=
  ∃ j, ∀ i < n, ∃ a, answers[j + i]? = some a ∧ miss a

theorem Streak.append {α : Type u} {miss : α → Prop} {answers : List α} {n : ℕ} (h : Streak miss answers n)
    (later : List α) : Streak miss (answers ++ later) n := by
  obtain ⟨j, hj⟩ := h
  refine ⟨j, fun i hi => ?_⟩
  obtain ⟨a, ha, hmiss⟩ := hj i hi
  have hlt := (List.getElem?_eq_some_iff.mp ha).1
  exact ⟨a, by rw [List.getElem?_append_left hlt, ha], hmiss⟩

namespace Tally
variable {α : Type u} {β : Type v} {miss : α → Prop} {t : Tally α β} {n : ℕ}

def answer (t : Tally α β) (a : α) (b : β) : Tally α β :=
  { t with answers := t.answers ++ [a], waiting := t.waiting ++ [(t.answers.length, b)] }

/-- Answer number `k` has stopped waiting at place `i` and is counted. -/
def count (t : Tally α β) (i k : ℕ) : Tally α β :=
  { t with waiting := t.waiting.eraseIdx i, counted := t.counted ++ [k] }

def reset (t : Tally α β) (i : ℕ) : Tally α β := { t with waiting := t.waiting.eraseIdx i, counted := [] }

def Waits (t : Tally α β) (k : ℕ) : Prop := k ∈ t.waiting.map Prod.fst

def Misses (miss : α → Prop) (t : Tally α β) (k : ℕ) : Prop := ∀ a ∈ t.answers[k]?, miss a

/-- Counting answer number `k` keeps the count one of answers in a row. -/
structure InTurn (miss : α → Prop) (t : Tally α β) (k : ℕ) : Prop where
  self : t.Misses miss k
  earlier : ∀ j < k, t.Waits j → t.Misses miss j
  later : ∀ j < t.answers.length, k < j → ¬ t.Waits j → t.Misses miss j

instance [DecidablePred miss] (k : ℕ) : Decidable (t.InTurn miss k) :=
  haveI (j : ℕ) : Decidable (t.Waits j) := inferInstanceAs (Decidable (_ ∈ _))
  haveI (j : ℕ) : Decidable (t.Misses miss j) := inferInstanceAs (Decidable (∀ a ∈ t.answers[j]?, miss a))
  decidable_of_iff (t.Misses miss k ∧ (∀ j < k, t.Waits j → t.Misses miss j) ∧
      ∀ j < t.answers.length, k < j → ¬ t.Waits j → t.Misses miss j)
    ⟨fun ⟨hself, hearlier, hlater⟩ => ⟨hself, hearlier, hlater⟩, fun ⟨hself, hearlier, hlater⟩ => ⟨hself, hearlier, hlater⟩⟩

structure Ordered (miss : α → Prop) (t : Tally α β) : Prop where
  given : ∀ k, t.Waits k → k < t.answers.length
  waitOnce : (t.waiting.map Prod.fst).Nodup
  handled : ∀ k ∈ t.counted, k < t.answers.length ∧ ¬ t.Waits k
  countOnce : t.counted.Nodup
  earlier : ∀ k ∈ t.counted, ∀ j < k, t.Waits j → t.Misses miss j
  later : ∀ k ∈ t.counted, ∀ j < t.answers.length, k ≤ j → ¬ t.Waits j → t.Misses miss j

/-! ## Steps -/

theorem waits_answer {a : α} {b : β} {k : ℕ} : (t.answer a b).Waits k ↔ t.Waits k ∨ k = t.answers.length := by
  simp [Waits, answer]

theorem misses_answer {a : α} {b : β} {k : ℕ} (h : k < t.answers.length) :
    (t.answer a b).Misses miss k ↔ t.Misses miss k := by
  simp [Misses, answer, List.getElem?_append_left h]

theorem waits_eraseIdx {i k : ℕ} {b : β} (hnodup : (t.waiting.map Prod.fst).Nodup)
    (hi : t.waiting[i]? = some (k, b)) (j : ℕ) :
    j ∈ (t.waiting.eraseIdx i).map Prod.fst ↔ t.Waits j ∧ j ≠ k := by
  obtain ⟨hlen, hget⟩ := List.getElem?_eq_some_iff.mp hi
  have hlen' : i < (t.waiting.map Prod.fst).length := by rwa [List.length_map]
  have hk : (t.waiting.map Prod.fst)[i] = k := by rw [List.getElem_map, hget]
  rw [← List.eraseIdx_map, ← hnodup.erase_getElem i hlen', hk, hnodup.mem_erase_iff]
  exact and_comm

theorem Ordered.answer (h : t.Ordered miss) (a : α) (b : β) : (t.answer a b).Ordered miss := by
  have hlen : (t.answer a b).answers.length = t.answers.length + 1 := by simp [Tally.answer]
  refine ⟨fun k hk => ?_, ?_, fun k hk => ?_, h.countOnce, fun k hk j hj hwaits => ?_, fun k hk j hj hkj hwaits => ?_⟩
  · rw [hlen]
    obtain hold | rfl := waits_answer.mp hk
    · exact Nat.lt_succ_of_lt (h.given k hold)
    · exact Nat.lt_succ_self _
  · have hfresh : ¬ t.Waits t.answers.length := fun hw => absurd (h.given _ hw) (lt_irrefl _)
    simp only [Tally.answer, List.map_append, List.map_cons, List.map_nil]
    exact List.nodup_append_comm.mp (List.nodup_cons.mpr ⟨hfresh, h.waitOnce⟩)
  · obtain ⟨hlt, hnot⟩ := h.handled k hk
    rw [hlen, waits_answer]
    exact ⟨by omega, fun hw => hw.elim hnot (by omega)⟩
  · have hkt := (h.handled k hk).1
    have hjt : j < t.answers.length := by omega
    rw [misses_answer hjt]
    refine h.earlier k hk j hj ((waits_answer.mp hwaits).resolve_right (by omega))
  · rw [waits_answer, not_or] at hwaits
    have hjt : j < t.answers.length := by omega
    rw [misses_answer hjt]
    exact h.later k hk j hjt hkj hwaits.1

theorem Ordered.reset (h : t.Ordered miss) {i k : ℕ} {b : β} (hi : t.waiting[i]? = some (k, b)) :
    (t.reset i).Ordered miss where
  given j hj := h.given j ((waits_eraseIdx h.waitOnce hi j).mp hj).1
  waitOnce := by
    have hsub := (List.eraseIdx_sublist t.waiting i).map Prod.fst
    exact hsub.nodup h.waitOnce
  handled := nofun
  countOnce := List.nodup_nil
  earlier := nofun
  later := nofun

theorem Ordered.clear (h : t.Ordered miss) : { t with counted := [] }.Ordered miss where
  given := h.given
  waitOnce := h.waitOnce
  handled := nofun
  countOnce := List.nodup_nil
  earlier := nofun
  later := nofun

theorem Ordered.count (h : t.Ordered miss) {i k : ℕ} {b : β} (hi : t.waiting[i]? = some (k, b))
    (hturn : t.InTurn miss k) : (t.count i k).Ordered miss := by
  have hwaits (j : ℕ) : (t.count i k).Waits j ↔ t.Waits j ∧ j ≠ k := waits_eraseIdx h.waitOnce hi j
  have hk : t.Waits k := List.mem_map.mpr ⟨_, List.mem_of_getElem? hi, rfl⟩
  refine ⟨fun j hj => h.given j ((hwaits j).mp hj).1, ?_, fun j hj => ?_, ?_, fun j hj l hl hw => ?_,
    fun j hj l hlen hl hw => ?_⟩
  · exact ((List.eraseIdx_sublist t.waiting i).map Prod.fst).nodup h.waitOnce
  · rw [hwaits]
    obtain hold | rfl := List.mem_append.mp hj |>.imp_right List.mem_singleton.mp
    · obtain ⟨hlt, hnot⟩ := h.handled j hold
      exact ⟨hlt, fun hw => hnot hw.1⟩
    · exact ⟨h.given j hk, fun hw => hw.2 rfl⟩
  · have hfresh : k ∉ t.counted := fun hmem => (h.handled k hmem).2 hk
    exact List.nodup_append_comm.mp (List.nodup_cons.mpr ⟨hfresh, h.countOnce⟩)
  · have hl' := ((hwaits l).mp hw).1
    obtain hold | rfl := List.mem_append.mp hj |>.imp_right List.mem_singleton.mp
    · exact h.earlier j hold l hl hl'
    · exact hturn.earlier l hl hl'
  · -- what has been handled by now is the new count or was handled before
    by_cases hlk : l = k
    · subst hlk
      exact hturn.self
    · have hl' : ¬ t.Waits l := fun hw' => hw ((hwaits l).mpr ⟨hw', hlk⟩)
      obtain hold | rfl := List.mem_append.mp hj |>.imp_right List.mem_singleton.mp
      · exact h.later j hold l hlen hl hl'
      · exact hturn.later l hlen (lt_of_le_of_ne hl (Ne.symm hlk)) hl'

/-- **Streaks.** What has been counted was given in a row. -/
theorem Ordered.streak (h : t.Ordered miss) (hpos : 0 < n) (hn : n ≤ t.counted.length) :
    Streak miss t.answers n := by
  have hne : t.counted.toFinset.Nonempty := by
    rw [List.toFinset_nonempty_iff]
    rintro hnil
    simp [hnil] at hn
    omega
  obtain ⟨least, hleast, hmin⟩ := t.counted.toFinset.exists_min_image id hne
  obtain ⟨greatest, hgreatest, hmax⟩ := t.counted.toFinset.exists_max_image id hne
  rw [List.mem_toFinset] at hleast hgreatest
  have hspan : t.counted.length ≤ greatest + 1 - least := by
    rw [← List.toFinset_card_of_nodup h.countOnce, ← Nat.card_Icc]
    apply Finset.card_le_card
    intro k hk
    exact Finset.mem_Icc.mpr ⟨hmin k hk, hmax k hk⟩
  refine ⟨least, fun i hi => ?_⟩
  have hlen := (h.handled greatest hgreatest).1
  have hlt : least + i < t.answers.length := by omega
  refine ⟨t.answers[least + i], List.getElem?_eq_getElem hlt, ?_⟩
  have hmiss : t.Misses miss (least + i) := by
    by_cases hwaits : t.Waits (least + i)
    · have hother : least + i ≠ greatest := fun heq => (h.handled greatest hgreatest).2 (heq ▸ hwaits)
      exact h.earlier greatest hgreatest _ (by omega) hwaits
    · exact h.later least hleast _ hlt (Nat.le_add_right least i) hwaits
  exact hmiss _ (List.getElem?_eq_getElem hlt)

end Tally
end SuperAi.Foundations
