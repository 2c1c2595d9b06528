import SuperAi.Foundations.SingleUse
import Mathlib.Data.List.Nodup

/-! # Vouchers

A voucher is a row of a store that is good for a key until it is consumed. Concurrent calls read a voucher
and consume it in a later step, without looking at it again. If no call reads a voucher that another one
still holds, the calls that have spent a key are at most the vouchers that were issued for it
(`Honoured.spent_le`), also when vouchers are dropped from the store in between.
-/
namespace SuperAi.Foundations
set_option autoImplicit false

universe u v

variable {α : Type u} {κ : Type v} [DecidableEq κ]

/-- Rows with their number and, until they are consumed, with what they are good for. -/
abbrev Vouchers (κ : Type v) := List (ℕ × Option κ)

namespace Vouchers

/-- The vouchers that are good for `k`. -/
def live (store : Vouchers κ) (k : κ) : ℕ := store.countP fun row => row.2 = some k

def consume (store : Vouchers κ) (id : ℕ) : Vouchers κ :=
  store.map fun row => if row.1 = id then (row.1, none) else row

omit [DecidableEq κ] in
theorem consume_ids (store : Vouchers κ) (id : ℕ) : (store.consume id).map Prod.fst = store.map Prod.fst := by
  unfold consume
  rw [List.map_map]
  apply List.map_congr_left
  intro row _
  by_cases h : row.1 = id
  · simp [h]
  · simp [h]

omit [DecidableEq κ] in
theorem consume_of_not_mem {store : Vouchers κ} {id : ℕ} (h : id ∉ store.map Prod.fst) : store.consume id = store := by
  induction store with
  | nil => rfl
  | cons row store ih =>
    rw [List.map_cons, List.mem_cons, not_or] at h
    have hrest : consume store id = store := ih h.2
    unfold consume at hrest ⊢
    rw [List.map_cons, if_neg (Ne.symm h.1), hrest]

theorem live_append (store new : Vouchers κ) (k : κ) : live (store ++ new) k = store.live k + live new k :=
  List.countP_append

theorem live_le_of_sublist {store store' : Vouchers κ} (h : store'.Sublist store) (k : κ) :
    store'.live k ≤ store.live k := h.countP_le

theorem live_consume_le (store : Vouchers κ) (id : ℕ) (k : κ) : (store.consume id).live k ≤ store.live k := by
  unfold live consume
  rw [List.countP_map]
  apply List.countP_mono_left
  intro row _ hrow
  by_cases h : row.1 = id
  · simp [h] at hrow
  · simpa [h] using hrow

/-- Consuming a voucher takes it from those that are good for its key. -/
theorem live_consume_lt {store : Vouchers κ} {id : ℕ} {k : κ} (h : (id, some k) ∈ store) :
    (store.consume id).live k < store.live k := by
  obtain ⟨before, after, rfl⟩ := List.append_of_mem h
  have hbefore := live_consume_le before id k
  have hafter := live_consume_le after id k
  simp only [live, consume, List.map_append, List.map_cons, List.countP_append, List.countP_cons, if_true]
    at hbefore hafter ⊢
  simp only [reduceCtorEq, decide_true, if_true, decide_eq_true_eq, if_false]
  omega

end Vouchers

/-! ## Calls -/

/-- The vouchers of the store and what the calls hold and have spent: a voucher that a call holds is one
that no other call holds, and it is still good for the key for which the call holds it; of each key no
more has been spent than was issued. -/
structure Honoured (held : α → Option (ℕ × κ)) (spent : α → Option κ) (store : Vouchers κ) (next : ℕ)
    (calls : List α) (issued : κ → ℕ) : Prop where
  ids : (store.map Prod.fst).Nodup
  bound : ∀ row ∈ store, row.1 < next
  heldBound : ∀ call ∈ calls, ∀ id k, held call = some (id, k) → id < next
  alone : ∀ id, OneBusy (fun call => (held call).any fun h => h.1 == id) calls
  there : ∀ call ∈ calls, ∀ id k, held call = some (id, k) → ∀ key, (id, key) ∈ store → key = some k
  paid : ∀ k, calls.countP (fun call => spent call = some k) + store.live k ≤ issued k

namespace Honoured
variable {held : α → Option (ℕ × κ)} {spent : α → Option κ} {store store' : Vouchers κ} {next next' : ℕ}
  {calls : List α} {issued issued' : κ → ℕ} {i : ℕ} {a b : α}

theorem spent_le (h : Honoured held spent store next calls issued) (k : κ) :
    calls.countP (fun call => spent call = some k) ≤ issued k := by
  have hpaid := h.paid k
  omega

theorem initial (held : α → Option (ℕ × κ)) (spent : α → Option κ) (next : ℕ) (issued : κ → ℕ) :
    Honoured held spent [] next [] issued := by
  refine ⟨List.nodup_nil, ?_, ?_, fun id => OneBusy.of_idle ?_, ?_, fun k => Nat.zero_le _⟩
  all_goals simp

theorem start (h : Honoured held spent store next calls issued) (hheld : held a = none) (hspent : spent a = none) :
    Honoured held spent store next (calls ++ [a]) issued := by
  have hmem : ∀ call ∈ calls ++ [a], ∀ id k, held call = some (id, k) → call ∈ calls := by
    intro call hcall id k hholds
    rcases List.mem_append.mp hcall with hold | hnew
    · exact hold
    · rw [List.mem_singleton.mp hnew, hheld] at hholds
      cases hholds
  refine ⟨h.ids, h.bound, fun call hcall id k hholds => h.heldBound call (hmem call hcall id k hholds) id k hholds,
    fun id => (h.alone id).append ?_,
    fun call hcall id k hholds => h.there call (hmem call hcall id k hholds) id k hholds, fun k => ?_⟩
  · simp [hheld]
  · rw [List.countP_append, List.countP_singleton, hspent]
    exact h.paid k

/-- A call that does not come to hold or to spend anything. -/
theorem idle (h : Honoured held spent store next calls issued) (ha : calls[i]? = some a) (hheld : held b = none)
    (hspent : spent b = none ∨ spent b = spent a) : Honoured held spent store next (calls.set i b) issued := by
  have hmem : ∀ call ∈ calls.set i b, ∀ id k, held call = some (id, k) → call ∈ calls := by
    intro call hcall id k hholds
    rcases List.mem_or_eq_of_mem_set hcall with hold | rfl
    · exact hold
    · rw [hheld] at hholds
      cases hholds
  refine ⟨h.ids, h.bound, fun call hcall id k hholds => h.heldBound call (hmem call hcall id k hholds) id k hholds,
    fun id => (h.alone id).set ha ?_,
    fun call hcall id k hholds => h.there call (hmem call hcall id k hholds) id k hholds, fun k => ?_⟩
  · simp [hheld]
  · have hcount := countP_set_eq (fun call => spent call = some k) ha b
    have hpaid := h.paid k
    rcases hspent with hnone | hsame
    · rw [hnone] at hcount
      simp only [reduceCtorEq, decide_false, Bool.false_eq_true, if_false] at hcount
      omega
    · rw [hsame] at hcount
      omega

/-- A call comes to hold a voucher that no call holds. -/
theorem take (h : Honoured held spent store next calls issued) (ha : calls[i]? = some a) {id : ℕ} {k : κ}
    (hheld : held b = some (id, k)) (hspent : spent b = none) (hrow : (id, some k) ∈ store)
    (hfree : ∀ call ∈ calls, ∀ k', held call ≠ some (id, k')) :
    Honoured held spent store next (calls.set i b) issued := by
  refine ⟨h.ids, h.bound, fun call hcall id' k' hholds => ?_, fun id' => (h.alone id').set ha fun hbusy => .inr ?_,
    fun call hcall id' k' hholds key hkey => ?_, fun k' => ?_⟩
  · rcases List.mem_or_eq_of_mem_set hcall with hold | rfl
    · exact h.heldBound call hold id' k' hholds
    · obtain ⟨rfl, rfl⟩ : id = id' ∧ k = k' := by simpa [hheld] using hholds
      exact h.bound _ hrow
  · intro call hcall
    obtain rfl : id = id' := by simpa [hheld] using hbusy
    by_contra hother
    obtain ⟨⟨id', k'⟩, hholds, hid⟩ := (Option.any_eq_true _ _).mp (Bool.of_not_eq_false hother)
    obtain rfl : id' = id := by simpa using hid
    exact hfree call hcall k' hholds
  · rcases List.mem_or_eq_of_mem_set hcall with hold | rfl
    · exact h.there call hold id' k' hholds key hkey
    · obtain ⟨rfl, rfl⟩ : id = id' ∧ k = k' := by simpa [hheld] using hholds
      have hsame := List.inj_on_of_nodup_map h.ids hkey hrow rfl
      exact (Prod.mk.inj hsame).2
  · have hcount := countP_set_eq (fun call => spent call = some k') ha b
    have hpaid := h.paid k'
    rw [hspent] at hcount
    simp only [reduceCtorEq, decide_false, Bool.false_eq_true, if_false] at hcount
    omega

/-- A call consumes the voucher that it holds. -/
theorem spend (h : Honoured held spent store next calls issued) (ha : calls[i]? = some a) {id : ℕ} {k : κ}
    (hheld : held a = some (id, k)) (hheldB : held b = none) (hspent : spent b = some k)
    (hrow : id ∈ store.map Prod.fst) : Honoured held spent (store.consume id) next (calls.set i b) issued := by
  have hmem : ∀ call ∈ calls.set i b, ∀ id' k', held call = some (id', k') → call ∈ calls ∧ id' ≠ id := by
    intro call hcall id' k' hholds
    have hbusy : (held a).any (fun h => h.1 == id) = true := by simp [hheld]
    rcases (h.alone id).mem_set ha hbusy hcall with rfl | hidle
    · rw [hheldB] at hholds
      cases hholds
    · constructor
      · rcases List.mem_or_eq_of_mem_set hcall with hold | rfl
        · exact hold
        · rw [hheldB] at hholds
          cases hholds
      · simpa [hholds] using hidle
  refine ⟨Vouchers.consume_ids store id ▸ h.ids, ?_, fun call hcall id' k' hholds => ?_,
    fun id' => (h.alone id').set ha ?_, fun call hcall id' k' hholds key hkey => ?_, fun k' => ?_⟩
  · intro row hrow'
    have hfst : row.1 ∈ store.map Prod.fst := Vouchers.consume_ids store id ▸ List.mem_map_of_mem hrow'
    obtain ⟨row', hrow', heq⟩ := List.mem_map.mp hfst
    exact heq ▸ h.bound row' hrow'
  · exact h.heldBound call (hmem call hcall id' k' hholds).1 id' k' hholds
  · simp [hheldB]
  · obtain ⟨hcall, hne⟩ := hmem call hcall id' k' hholds
    obtain ⟨row, hrow', heq⟩ := List.mem_map.mp hkey
    by_cases hid : row.1 = id
    · rw [if_pos hid] at heq
      exact absurd ((Prod.mk.inj heq).1.symm.trans hid) hne
    · rw [if_neg hid] at heq
      exact h.there call hcall id' k' hholds key (heq ▸ hrow')
  · have hcount := countP_set_eq (fun call => spent call = some k') ha b
    have hpaid := h.paid k'
    by_cases hkey : k = k'
    · subst hkey
      obtain ⟨⟨id', key⟩, hrow', rfl⟩ := List.mem_map.mp hrow
      obtain rfl := h.there a (List.mem_of_getElem? ha) _ _ hheld key hrow'
      have hlive : (store.consume id').live k < store.live k := Vouchers.live_consume_lt hrow'
      change _ + (store.consume id').live k ≤ _
      rw [hspent] at hcount
      simp only [decide_true, if_true] at hcount
      omega
    · have hlive := Vouchers.live_consume_le store id k'
      rw [hspent] at hcount
      simp only [Option.some.injEq, hkey, decide_false, Bool.false_eq_true, if_false] at hcount
      omega

/-! ## The store -/

/-- Vouchers can be dropped. -/
theorem drop (h : Honoured held spent store next calls issued) (hsub : store'.Sublist store) (hnext : next ≤ next') :
    Honoured held spent store' next' calls issued := by
  refine ⟨h.ids.sublist (hsub.map Prod.fst), fun row hrow => ?_, fun call hcall id k hholds => ?_, h.alone,
    fun call hcall id k hholds key hkey => h.there call hcall id k hholds key (hsub.mem hkey), fun k => ?_⟩
  · exact Nat.lt_of_lt_of_le (h.bound row (hsub.mem hrow)) hnext
  · exact Nat.lt_of_lt_of_le (h.heldBound call hcall id k hholds) hnext
  · have hlive := Vouchers.live_le_of_sublist hsub k
    have hpaid := h.paid k
    omega

/-- A new row takes the next number; if it is a voucher, it is issued. -/
theorem issue (h : Honoured held spent store next calls issued) (key : Option κ) :
    Honoured held spent (store ++ [(next, key)]) (next + 1) calls
      (fun k => issued k + if key = some k then 1 else 0) := by
  refine ⟨?_, fun row hrow => ?_, fun call hcall id k hholds => ?_, h.alone,
    fun call hcall id k hholds key' hkey => ?_, fun k => ?_⟩
  · rw [List.map_append, List.nodup_append]
    refine ⟨h.ids, List.nodup_singleton _, fun id hid id' hid' heq => ?_⟩
    obtain ⟨row, hrow, rfl⟩ := List.mem_map.mp hid
    have hlt := h.bound row hrow
    rw [heq, List.mem_singleton.mp hid'] at hlt
    exact Nat.lt_irrefl _ hlt
  · rcases List.mem_append.mp hrow with hold | hnew
    · exact Nat.lt_succ_of_lt (h.bound row hold)
    · rw [List.mem_singleton.mp hnew]
      exact Nat.lt_succ_self next
  · exact Nat.lt_succ_of_lt (h.heldBound call hcall id k hholds)
  · rcases List.mem_append.mp hkey with hold | hnew
    · exact h.there call hcall id k hholds key' hold
    · have hlt := h.heldBound call hcall id k hholds
      rw [(Prod.mk.inj (List.mem_singleton.mp hnew)).1] at hlt
      exact absurd hlt (Nat.lt_irrefl _)
  · have hpaid := h.paid k
    have hnew : Vouchers.live [(next, key)] k = if key = some k then 1 else 0 := by
      simp [Vouchers.live, List.countP_singleton]
    rw [Vouchers.live_append, hnew]
    omega

theorem issue_none (h : Honoured held spent store next calls issued) :
    Honoured held spent (store ++ [(next, none)]) (next + 1) calls issued := by
  have hissue := h.issue none
  simpa using hissue

end Honoured
end SuperAi.Foundations
