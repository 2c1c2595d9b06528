import Mathlib.Data.List.Basic
import Mathlib.Logic.Function.Basic
import SuperAi.Foundations.SingleUse

/-! # Calls in turn

Calls that start only when every call before them is idle again. All but the last one of the list are then
idle, and a step is one of the last call (`LastOnly`), so that what is to be kept of the list comes down to what
an idle call and the last one keep.

Things in flight are a list too, each with an owner or with none. An owner starts something only while it is not busy,
and is busy until its thing has landed or been given up. Then what is in flight and who is busy agree (`Single`),
whatever happens in between.
-/
namespace SuperAi.Foundations
set_option autoImplicit false

universe u v
variable {α : Type u} {running : α → Bool} {calls : List α} {i : ℕ} {a b c : α}

/-- A call that starts, or one from before. -/
theorem getElem?_snoc (h : (calls ++ [a])[i]? = some c) :
    calls[i]? = some c ∨ (i = calls.length ∧ c = a) := by
  by_cases hold : i < calls.length
  · rw [List.getElem?_append_left hold] at h
    exact .inl h
  · rw [List.getElem?_append_right (Nat.le_of_not_lt hold)] at h
    obtain ⟨hindex, rfl⟩ := List.getElem?_eq_some_iff.mp h
    rw [List.length_singleton] at hindex
    exact .inr ⟨by omega, by simp⟩

/-- The call that has made a step, or another one. -/
theorem getElem?_set_cases {j : ℕ} (ha : calls[i]? = some a) (h : (calls.set i b)[j]? = some c) :
    (j = i ∧ c = b) ∨ calls[j]? = some c := by
  by_cases hj : j = i
  · subst hj
    rw [List.getElem?_set_self (List.getElem?_eq_some_iff.mp ha).1] at h
    exact .inl ⟨rfl, (Option.some.inj h).symm⟩
  · rw [List.getElem?_set_ne (Ne.symm hj)] at h
    exact .inr h

/-- No call but the last one is running. -/
def LastOnly (running : α → Bool) (calls : List α) : Prop :=
  ∀ i c, calls[i]? = some c → running c = true → i + 1 = calls.length

namespace LastOnly

theorem nil : LastOnly running [] := fun i c h => by simp at h

theorem snoc (hidle : ∀ c ∈ calls, running c = false) (a : α) : LastOnly running (calls ++ [a]) := by
  intro i c h hrunning
  obtain hold | ⟨rfl, -⟩ := getElem?_snoc h
  · rw [hidle c (List.mem_of_getElem? hold)] at hrunning
    cases hrunning
  · rw [List.length_append, List.length_singleton]

theorem set (h : LastOnly running calls) (ha : calls[i]? = some a) (hrunning : running a = true) (b : α) :
    LastOnly running (calls.set i b) := by
  intro j c hc hbusy
  rw [List.length_set]
  obtain ⟨rfl, -⟩ | hold := getElem?_set_cases ha hc
  · exact h j a ha hrunning
  · exact h j c hold hbusy

theorem eq_of_running (h : LastOnly running calls) (ha : calls[i]? = some a) (hrunning : running a = true) {j : ℕ}
    (hc : calls[j]? = some c) (hbusy : running c = true) : j = i ∧ c = a := by
  have hi := h i a ha hrunning
  have hj := h j c hc hbusy
  obtain rfl : j = i := by omega
  exact ⟨rfl, Option.some.inj (hc.symm.trans ha)⟩

theorem eq_or_idle (h : LastOnly running calls) (ha : calls[i]? = some a) (hrunning : running a = true)
    (hc : c ∈ calls) : c = a ∨ running c = false := by
  obtain ⟨j, hj⟩ := List.mem_iff_getElem?.mp hc
  cases hbusy : running c with
  | true => exact .inl (h.eq_of_running ha hrunning hj hbusy).2
  | false => exact .inr rfl

/-- A step of the last call keeps what holds of idle calls. -/
theorem forall_mem_set (h : LastOnly running calls) (ha : calls[i]? = some a) (hrunning : running a = true)
    {P : α → Prop} (hidle : ∀ c, running c = false → P c) (hb : P b) : ∀ c ∈ calls.set i b, P c := by
  intro c hc
  obtain ⟨j, hj⟩ := List.mem_iff_getElem?.mp hc
  obtain ⟨rfl, rfl⟩ | hold := getElem?_set_cases ha hj
  · exact hb
  · cases hbusy : running c with
    | false => exact hidle c hbusy
    | true =>
      obtain ⟨rfl, -⟩ := h.eq_of_running ha hrunning hold hbusy
      rw [List.getElem?_set_self (List.getElem?_eq_some_iff.mp ha).1] at hj
      obtain rfl := Option.some.inj hj
      exact hb

end LastOnly

/-! ## At most one thing in flight for each owner -/

section InFlight
variable {κ : Type v} [DecidableEq κ]

def flights (owner : α → Option κ) (l : List α) (k : κ) : ℕ := l.countP fun a => owner a == some k

/-- A busy owner has one thing in flight, and an owner that is not busy has none. -/
def Single (owner : α → Option κ) (busy : κ → Bool) (l : List α) : Prop :=
  ∀ k, flights owner l k = if busy k then 1 else 0

theorem countP_eraseIdx_eq (p : α → Bool) {l : List α} {i : ℕ} {a : α} (h : l[i]? = some a) :
    (l.eraseIdx i).countP p + (if p a then 1 else 0) = l.countP p := by
  induction l generalizing i with
  | nil => simp at h
  | cons b l ih =>
    cases i with
    | zero =>
      obtain rfl : b = a := by simpa using h
      rw [List.eraseIdx_zero, List.tail_cons, List.countP_cons]
    | succ i =>
      have hrest := ih (show l[i]? = some a by simpa using h)
      simp only [List.eraseIdx_cons_succ, List.countP_cons]
      omega

namespace Single
variable {owner : α → Option κ} {busy : κ → Bool} {l : List α} {k : κ}

theorem nil : Single owner (fun _ => false) [] := fun _ => rfl

theorem one (h : Single owner busy l) (k : κ) : flights owner l k ≤ 1 := by
  rw [h k]
  split <;> omega

theorem busy_of_mem (h : Single owner busy l) (ha : a ∈ l) (hk : owner a = some k) : busy k = true := by
  have hpos : 0 < flights owner l k := List.countP_pos_iff.mpr ⟨a, ha, by simp [hk]⟩
  rw [h k] at hpos
  by_contra hfree
  simp [hfree] at hpos

theorem start (h : Single owner busy l) (hk : owner a = some k) (hfree : busy k = false) :
    Single owner (Function.update busy k true) (l ++ [a]) := by
  intro j
  rw [flights, List.countP_append, List.countP_singleton]
  have hj := h j
  rw [flights] at hj
  by_cases hjk : j = k
  · subst hjk
    simp [hj, hfree, hk]
  · have hne : ¬ owner a = some j := by
      rw [hk]
      exact fun heq => hjk (Option.some.inj heq).symm
    simp [hj, hjk, hne]

theorem finish (h : Single owner busy l) (ha : l[i]? = some a) (hk : owner a = some k) :
    Single owner (Function.update busy k false) (l.eraseIdx i) := by
  intro j
  have hj := h j
  have hcount := countP_eraseIdx_eq (fun a => owner a == some j) ha
  rw [flights] at hj ⊢
  by_cases hjk : j = k
  · subst hjk
    have hone : (if busy j = true then 1 else 0) ≤ 1 := by split <;> omega
    simp only [hk, beq_self_eq_true, if_true] at hcount
    rw [Function.update_self]
    simp only [Bool.false_eq_true, if_false]
    omega
  · have hne : ¬ owner a = some j := by
      rw [hk]
      exact fun heq => hjk (Option.some.inj heq).symm
    rw [Function.update_of_ne hjk, ← hj]
    simpa [hne] using hcount

theorem replace (h : Single owner busy l) (ha : l[i]? = some a) (hb : owner b = owner a) :
    Single owner busy (l.set i b) := by
  intro j
  have hcount := countP_set_eq (fun a => owner a == some j) ha b
  rw [← h j, flights, flights]
  simp only [hb] at hcount
  omega

/-- The thing stays in flight, but nobody waits for it any more. -/
theorem release (h : Single owner busy l) (ha : l[i]? = some a) (hk : owner a = some k) (hb : owner b = none) :
    Single owner (Function.update busy k false) (l.set i b) := by
  intro j
  have hj := h j
  have hcount := countP_set_eq (fun a => owner a == some j) ha b
  rw [flights] at hj ⊢
  by_cases hjk : j = k
  · subst hjk
    have hone : (if busy j = true then 1 else 0) ≤ 1 := by split <;> omega
    simp only [hk, hb, beq_self_eq_true, if_true, Option.none_beq_some, Bool.false_eq_true, if_false] at hcount
    rw [Function.update_self]
    simp only [Bool.false_eq_true, if_false]
    omega
  · have hne : ¬ owner a = some j := by
      rw [hk]
      exact fun heq => hjk (Option.some.inj heq).symm
    rw [Function.update_of_ne hjk, ← hj]
    simpa [hne, hb] using hcount

/-- An owner leaves, and what it had in flight belongs to nobody. -/
theorem disown (h : Single owner busy l) (k : κ) (clear : α → α) (hclear : ∀ a, owner (clear a) = none) :
    Single owner (Function.update busy k false) (l.map fun a => if owner a = some k then clear a else a) := by
  intro j
  rw [flights, List.countP_map]
  by_cases hjk : j = k
  · subst hjk
    rw [Function.update_self, if_neg Bool.false_ne_true, List.countP_eq_zero]
    intro a _ ha
    by_cases heq : owner a = some j
    · simp [heq, hclear] at ha
    · simp [heq] at ha
  · rw [Function.update_of_ne hjk, ← h j, flights]
    apply List.countP_congr
    intro a _
    by_cases heq : owner a = some k
    · simp [heq, hclear, Ne.symm hjk]
    · simp [heq]

theorem eq_of_owner (h : Single owner busy l) (ha : a ∈ l) (hb : b ∈ l) (hak : owner a = some k)
    (hbk : owner b = some k) : a = b := by
  have hone := h.one k
  rw [flights, List.countP_eq_length_filter] at hone
  have ha' : a ∈ l.filter fun a => owner a == some k := List.mem_filter.mpr ⟨ha, by simp [hak]⟩
  have hb' : b ∈ l.filter fun a => owner a == some k := List.mem_filter.mpr ⟨hb, by simp [hbk]⟩
  match hlist : l.filter fun a => owner a == some k with
  | [] => simp [hlist] at ha'
  | [c] =>
    rw [hlist, List.mem_singleton] at ha' hb'
    rw [ha', hb']
  | _ :: _ :: _ =>
    rw [hlist, List.length_cons, List.length_cons] at hone
    omega

/-- What one owner has in flight is taken out, and nothing else. -/
theorem remove (h : Single owner busy l) (p : α → Bool) (hp : ∀ a ∈ l, p a = true ↔ owner a ≠ some k) :
    Single owner (Function.update busy k false) (l.filter p) := by
  intro j
  rw [flights, List.countP_filter]
  by_cases hjk : j = k
  · subst hjk
    rw [Function.update_self, if_neg Bool.false_ne_true, List.countP_eq_zero]
    intro a ha hboth
    rw [Bool.and_eq_true, beq_iff_eq] at hboth
    exact (hp a ha).mp hboth.2 hboth.1
  · rw [Function.update_of_ne hjk, ← h j, flights]
    apply List.countP_congr
    intro a ha
    by_cases hj : owner a = some j
    · have hkept : p a = true := (hp a ha).mpr (by rw [hj]; simpa using hjk)
      simp [hj, hkept]
    · simp [hj]

end Single

end InFlight
end SuperAi.Foundations
