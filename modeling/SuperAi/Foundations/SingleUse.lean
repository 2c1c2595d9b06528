import Mathlib.Data.List.Basic
import Mathlib.Tactic.Basic

/-! # Things that can be used once

Concurrent calls that check for a thing, and use it up later, in another step. Between its check and
its use a call holds the thing; if no call comes to hold it while another one does, and none once it
has been used up, it is used at most once (`AtMostOnce`). The calls are kept in a list, and a step
changes one of them.
-/
namespace SuperAi.Foundations
set_option autoImplicit false

universe u

/-- How many calls hold the thing and how many have used it, while it is or is not there to be
taken. -/
structure AtMostOnce (available : Prop) (holding used : ℕ) : Prop where
  one : holding + used ≤ 1
  gone : available → used = 0

namespace AtMostOnce
variable {available available' : Prop} {holding used : ℕ}

theorem initial (available : Prop) : AtMostOnce available 0 0 := ⟨by omega, fun _ => rfl⟩

theorem take (h : AtMostOnce available holding used) (havailable : available) (hfree : holding = 0) :
    AtMostOnce available (holding + 1) used := by
  have hused : used = 0 := h.gone havailable
  exact ⟨by omega, h.gone⟩

theorem use (h : AtMostOnce available (holding + 1) used) (hgone : ¬ available') :
    AtMostOnce available' holding (used + 1) := by
  have hone := h.one
  exact ⟨by omega, fun havailable => absurd havailable hgone⟩

/-- The thing can be lost, but it does not come back. -/
theorem lose (h : AtMostOnce available holding used) (himp : available' → available) :
    AtMostOnce available' holding used :=
  ⟨h.one, fun havailable => h.gone (himp havailable)⟩

end AtMostOnce

/-! ## Counting calls -/

variable {α : Type u}

theorem countP_set_eq (p : α → Bool) {calls : List α} {i : ℕ} {a : α} (h : calls[i]? = some a) (b : α) :
    (calls.set i b).countP p + (if p a then 1 else 0) = calls.countP p + (if p b then 1 else 0) := by
  induction calls generalizing i with
  | nil => simp at h
  | cons c calls ih =>
    cases i with
    | zero =>
      obtain rfl : c = a := by simpa using h
      simp only [List.set_cons_zero, List.countP_cons]
      omega
    | succ i =>
      have hrest := ih (show calls[i]? = some a by simpa using h)
      simp only [List.set_cons_succ, List.countP_cons]
      omega

/-- A step that leaves a call on the same side of a property leaves the count. -/
theorem countP_set_of_eq (p : α → Bool) {calls : List α} {i : ℕ} {a b : α} (h : calls[i]? = some a)
    (hab : p b = p a) : (calls.set i b).countP p = calls.countP p := by
  have hset := countP_set_eq p h b
  rw [hab] at hset
  omega

/-- A step of one call leaves the others in the list. -/
theorem eq_or_mem_set {calls : List α} {i : ℕ} {a c : α} (h : calls[i]? = some a) (hc : c ∈ calls) (b : α) :
    c = a ∨ c ∈ calls.set i b := by
  obtain ⟨j, hj⟩ := List.mem_iff_getElem?.mp hc
  by_cases hji : j = i
  · subst hji
    exact .inl (Option.some.inj (hj.symm.trans h))
  · right
    apply List.mem_of_getElem? (i := j)
    rw [List.getElem?_set_ne (Ne.symm hji)]
    exact hj

/-- A step of one call is about no third one. -/
theorem mem_set_iff {calls : List α} {i : ℕ} {a b c : α} (h : calls[i]? = some a) (ha : c ≠ a) (hb : c ≠ b) :
    c ∈ calls.set i b ↔ c ∈ calls := by
  constructor
  · intro hc
    exact (List.mem_or_eq_of_mem_set hc).resolve_right hb
  · intro hc
    exact (eq_or_mem_set h hc b).resolve_left ha

theorem eq_or_mem_eraseIdx {calls : List α} {i : ℕ} {b c : α} (hc : c ∈ calls.set i b) :
    c = b ∨ c ∈ calls.eraseIdx i := by
  induction calls generalizing i with
  | nil => simp at hc
  | cons a calls ih =>
    cases i with
    | zero => exact List.mem_cons.mp hc
    | succ i =>
      obtain rfl | hrest := List.mem_cons.mp hc
      · exact .inr List.mem_cons_self
      · obtain hb | hmem := ih hrest
        · exact .inl hb
        · exact .inr (List.mem_cons_of_mem _ hmem)

theorem forall_mem_set {P : α → Prop} {calls : List α} (h : ∀ c ∈ calls, P c) {b : α} (hb : P b) (i : ℕ) :
    ∀ c ∈ calls.set i b, P c := by
  intro c hc
  rcases List.mem_or_eq_of_mem_set hc with hold | rfl
  · exact h c hold
  · exact hb

/-- The calls that hold the thing, and those that have used it, are what `AtMostOnce` asks for. -/
def CallsUseOnce (holds used : α → Bool) (available : Prop) (calls : List α) : Prop :=
  AtMostOnce available (calls.countP holds) (calls.countP used)

namespace CallsUseOnce
variable {holds used : α → Bool} {available available' : Prop} {calls : List α} {i : ℕ} {a b : α}

theorem nil (available : Prop) : CallsUseOnce holds used available [] := AtMostOnce.initial available

theorem used_le_one (h : CallsUseOnce holds used available calls) : calls.countP used ≤ 1 := by
  have hone := AtMostOnce.one h
  omega

theorem lose (h : CallsUseOnce holds used available calls) (himp : available' → available) :
    CallsUseOnce holds used available' calls := AtMostOnce.lose h himp

theorem start (h : CallsUseOnce holds used available calls) (hholds : holds a = false)
    (hused : used a = false) : CallsUseOnce holds used available (calls ++ [a]) := by
  unfold CallsUseOnce
  rw [List.countP_append, List.countP_append, List.countP_singleton, List.countP_singleton, hholds, hused]
  exact h

/-- A step that changes neither what the call holds nor what it has used. -/
theorem moves (h : CallsUseOnce holds used available calls) (ha : calls[i]? = some a)
    (hholds : holds b = holds a) (hused : used b = used a) :
    CallsUseOnce holds used available (calls.set i b) := by
  unfold CallsUseOnce
  rw [countP_set_of_eq holds ha hholds, countP_set_of_eq used ha hused]
  exact h

theorem takes (h : CallsUseOnce holds used available calls) (ha : calls[i]? = some a)
    (hholds : holds b = true) (hused : used b = used a) (havailable : available)
    (hfree : ∀ c ∈ calls, holds c = false) : CallsUseOnce holds used available (calls.set i b) := by
  have hnone : calls.countP holds = 0 :=
    List.countP_eq_zero.mpr fun c hc => by simp [hfree c hc]
  have hcount := countP_set_eq holds ha b
  rw [hholds, hfree a (List.mem_of_getElem? ha)] at hcount
  have hholding : (calls.set i b).countP holds = calls.countP holds + 1 := hcount
  unfold CallsUseOnce
  rw [hholding, countP_set_of_eq used ha hused]
  exact AtMostOnce.take h havailable hnone

theorem uses (h : CallsUseOnce holds used available calls) (ha : calls[i]? = some a)
    (hholdsA : holds a = true) (husedA : used a = false) (hholds : holds b = false)
    (hused : used b = true) (hgone : ¬ available') :
    CallsUseOnce holds used available' (calls.set i b) := by
  have hholding := countP_set_eq holds ha b
  have husing := countP_set_eq used ha b
  simp only [hholdsA, husedA, hholds, hused, if_true, Bool.false_eq_true, if_false, Nat.add_zero]
    at hholding husing
  unfold CallsUseOnce at h ⊢
  rw [← hholding] at h
  rw [husing]
  exact AtMostOnce.use h hgone

/-- A call that holds the thing, or has used it, ends with nothing. -/
theorem ends (h : CallsUseOnce holds used available calls) (ha : calls[i]? = some a)
    (hholds : holds b = false) (hused : used b = false) :
    CallsUseOnce holds used available (calls.set i b) := by
  have hholding := countP_set_eq holds ha b
  have husing := countP_set_eq used ha b
  have hone := h.one
  simp only [hholds, hused, Bool.false_eq_true, if_false, Nat.add_zero] at hholding husing
  refine ⟨by omega, fun havailable => ?_⟩
  have hgone := h.gone havailable
  omega

end CallsUseOnce

/-! ## One call at a time -/

/-- No two calls of the list are `busy`. -/
def OneBusy (busy : α → Bool) (calls : List α) : Prop :=
  ∀ (i j : ℕ) (a b : α), calls[i]? = some a → calls[j]? = some b → busy a = true → busy b = true → i = j

namespace OneBusy
variable {busy : α → Bool} {calls : List α} {i : ℕ} {a b c : α}

theorem of_idle (h : ∀ a ∈ calls, busy a = false) : OneBusy busy calls := by
  intro i j a b ha _ hbusy _
  rw [h a (List.mem_of_getElem? ha)] at hbusy
  cases hbusy

theorem append (h : OneBusy busy calls) (hnew : busy a = true → ∀ b ∈ calls, busy b = false) :
    OneBusy busy (calls ++ [a]) := by
  have hold : ∀ (i : ℕ) (b : α), (calls ++ [a])[i]? = some b → calls[i]? = some b ∨ i = calls.length ∧ b = a := by
    intro i b hb
    by_cases hi : i < calls.length
    · left
      rwa [List.getElem?_append_left hi] at hb
    · right
      obtain ⟨hlt, hget⟩ := List.getElem?_eq_some_iff.mp hb
      simp only [List.length_append, List.length_singleton] at hlt
      have hlast : i = calls.length := by omega
      subst hlast
      exact ⟨rfl, by simpa using hget.symm⟩
  intro i j b c hb hc hbusy hbusy'
  rcases hold i b hb with hi | ⟨hi, rfl⟩
  · rcases hold j c hc with hj | ⟨-, rfl⟩
    · exact h i j b c hi hj hbusy hbusy'
    · rw [hnew hbusy' b (List.mem_of_getElem? hi)] at hbusy
      cases hbusy
  · rcases hold j c hc with hj | ⟨hj, -⟩
    · rw [hnew hbusy c (List.mem_of_getElem? hj)] at hbusy'
      cases hbusy'
    · omega

/-- The call that is busy is the only one. -/
theorem others (h : OneBusy busy calls) (ha : calls[i]? = some a) (hbusy : busy a = true) {j : ℕ}
    (hb : calls[j]? = some b) (hne : j ≠ i) : busy b = false := by
  by_contra hother
  exact hne (h j i b a hb ha (Bool.of_not_eq_false hother) hbusy)

theorem set_cases (h : OneBusy busy calls) (ha : calls[i]? = some a) (hbusy : busy a = true) {j : ℕ}
    (hc : (calls.set i b)[j]? = some c) : j = i ∧ c = b ∨ busy c = false := by
  by_cases hj : j = i
  · subst hj
    rw [List.getElem?_set_self (List.getElem?_eq_some_iff.mp ha).1] at hc
    exact .inl ⟨rfl, (Option.some.inj hc).symm⟩
  · rw [List.getElem?_set_ne (Ne.symm hj)] at hc
    exact .inr (h.others ha hbusy hc hj)

theorem mem_set (h : OneBusy busy calls) (ha : calls[i]? = some a) (hbusy : busy a = true)
    (hc : c ∈ calls.set i b) : c = b ∨ busy c = false := by
  obtain ⟨j, hj⟩ := List.mem_iff_getElem?.mp hc
  exact (h.set_cases ha hbusy hj).imp_left And.right

theorem set (h : OneBusy busy calls) (ha : calls[i]? = some a)
    (hb : busy b = true → busy a = true ∨ ∀ c ∈ calls, busy c = false) : OneBusy busy (calls.set i b) := by
  intro j k c d hc hd hbusy hbusy'
  by_cases hj : j = i
  · by_cases hk : k = i
    · rw [hj, hk]
    · subst hj
      rw [List.getElem?_set_self (List.getElem?_eq_some_iff.mp ha).1] at hc
      rw [List.getElem?_set_ne (Ne.symm hk)] at hd
      obtain rfl := Option.some.inj hc
      rcases hb hbusy with hcall | hidle
      · exact h j k a d ha hd hcall hbusy'
      · rw [hidle d (List.mem_of_getElem? hd)] at hbusy'
        cases hbusy'
  · rw [List.getElem?_set_ne (Ne.symm hj)] at hc
    by_cases hk : k = i
    · subst hk
      rw [List.getElem?_set_self (List.getElem?_eq_some_iff.mp ha).1] at hd
      obtain rfl := Option.some.inj hd
      rcases hb hbusy' with hcall | hidle
      · exact h j k c a hc ha hbusy hcall
      · rw [hidle c (List.mem_of_getElem? hc)] at hbusy
        cases hbusy
    · rw [List.getElem?_set_ne (Ne.symm hk)] at hd
      exact h j k c d hc hd hbusy hbusy'

end OneBusy
end SuperAi.Foundations
