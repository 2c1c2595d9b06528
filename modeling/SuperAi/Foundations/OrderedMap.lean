import SuperAi.Foundations.KeyValue
import Mathlib.Algebra.BigOperators.Group.List.Basic

/-! # Maps in the order of insertion

JavaScript's `Map` with the order it is iterated in: a key keeps the place of its first insertion. A map that is
collected from a list holds for each key what the elements of that key give (`get_collect`); of the groups of a list
nothing is lost and nothing is twice (`perm_groups`).
-/
namespace SuperAi.Foundations
set_option autoImplicit false

universe u v w

namespace KeyValue
variable {κ : Type u} {α : Type v} {β : Type w} [DecidableEq κ]

/-- `Map.set`. -/
def put : KeyValue κ β → κ → β → KeyValue κ β
  | [], key, value => [(key, value)]
  | entry :: m, key, value => if entry.1 = key then (key, value) :: m else entry :: put m key value

theorem put_cons (entry : κ × β) (m : KeyValue κ β) (key : κ) (value : β) :
    put (entry :: m) key value = if entry.1 = key then (key, value) :: m else entry :: put m key value := rfl

@[simp] theorem get_put_self (m : KeyValue κ β) (key : κ) (value : β) : get (put m key value) key = some value := by
  induction m with
  | nil => rw [put, get_cons, if_pos rfl]
  | cons entry m ih =>
    rw [put_cons]
    by_cases h : entry.1 = key
    · rw [if_pos h, get_cons, if_pos rfl]
    · rw [if_neg h, get_cons, if_neg (Ne.symm h), ih]

theorem get_put_of_ne {m : KeyValue κ β} {key key' : κ} {value : β} (h : key' ≠ key) :
    get (put m key value) key' = get m key' := by
  induction m with
  | nil => rw [put, get_cons, if_neg h]
  | cons entry m ih =>
    rw [put_cons, get_cons]
    by_cases hkey : entry.1 = key
    · rw [if_pos hkey, get_cons, if_neg h, if_neg (by rwa [hkey])]
    · rw [if_neg hkey, get_cons, ih]

/-- What a key already has may be left where it is. -/
theorem put_of_get {m : KeyValue κ β} {key : κ} {value : β} (h : get m key = some value) : put m key value = m := by
  induction m with
  | nil => cases h
  | cons entry m ih =>
    rw [get_cons] at h
    rw [put_cons]
    by_cases hkey : entry.1 = key
    · rw [if_pos hkey.symm] at h
      rw [if_pos hkey, ← hkey, ← Option.some.inj h]
    · rw [if_neg (Ne.symm hkey)] at h
      rw [if_neg hkey, ih h]

theorem mem_keys_put {m : KeyValue κ β} {key key' : κ} {value : β} :
    key' ∈ (put m key value).map Prod.fst ↔ key' = key ∨ key' ∈ m.map Prod.fst := by
  by_cases h : key' = key
  · have hget : get (put m key value) key' ≠ none := by
      rw [h, get_put_self]
      exact Option.some_ne_none _
    have hmem := not_not.mp (mt get_eq_none_iff.mpr hget)
    exact iff_of_true hmem (.inl h)
  · rw [← not_iff_not, ← get_eq_none_iff, get_put_of_ne h, get_eq_none_iff]
    simp [h]

theorem nodup_put {m : KeyValue κ β} (h : (m.map Prod.fst).Nodup) (key : κ) (value : β) :
    ((put m key value).map Prod.fst).Nodup := by
  induction m with
  | nil => exact List.nodup_singleton key
  | cons entry m ih =>
    obtain ⟨hfresh, hnodup⟩ := List.nodup_cons.mp h
    rw [put_cons]
    by_cases hkey : entry.1 = key
    · rw [if_pos hkey]
      exact List.nodup_cons.mpr ⟨hkey ▸ hfresh, hnodup⟩
    · rw [if_neg hkey]
      refine List.nodup_cons.mpr ⟨fun hmem => ?_, ih hnodup⟩
      exact (mem_keys_put.mp hmem).elim hkey hfresh

theorem length_put_le (m : KeyValue κ β) (key : κ) (value : β) : (put m key value).length ≤ m.length + 1 := by
  induction m with
  | nil => exact Nat.le_refl 1
  | cons entry m ih =>
    rw [put_cons]
    split
    · simp
    · simpa using ih

theorem mem_of_mem_put {m : KeyValue κ β} {key : κ} {value : β} {entry : κ × β} (h : entry ∈ put m key value) :
    entry = (key, value) ∨ entry ∈ m := by
  induction m with
  | nil => exact .inl (List.mem_singleton.mp h)
  | cons first m ih =>
    rw [put_cons] at h
    by_cases hkey : first.1 = key
    · rw [if_pos hkey] at h
      exact (List.mem_cons.mp h).imp_right fun hmem => List.mem_cons_of_mem _ hmem
    · rw [if_neg hkey] at h
      cases List.mem_cons.mp h with
      | inl heq => exact .inr (heq ▸ List.mem_cons_self)
      | inr hmem => exact (ih hmem).imp_right fun hin => List.mem_cons_of_mem _ hin

/-- What a key had goes out of the sum, and what it gets comes in. -/
theorem sum_put {M : Type v} [AddCommMonoid M] (m : KeyValue κ M) (key : κ) (n : M) :
    ((put m key n).map Prod.snd).sum + (get m key).getD 0 = (m.map Prod.snd).sum + n := by
  induction m with
  | nil => simp [put, get]
  | cons first m ih =>
    rw [put_cons, get_cons]
    by_cases hkey : first.1 = key
    · rw [if_pos hkey, if_pos hkey.symm, List.map_cons, List.map_cons, List.sum_cons, List.sum_cons, Option.getD_some,
        add_comm n, add_right_comm, add_comm _ first.2]
    · rw [if_neg hkey, if_neg (Ne.symm hkey), List.map_cons, List.map_cons, List.sum_cons, List.sum_cons, add_assoc, ih,
        add_assoc]

/-! ## Collecting a list -/

section Collect
variable (key : α → κ) (f : Option β → α → β)

/-- Each element sets its key to what `f` makes of the old value and the element. -/
def collect (l : List α) : KeyValue κ β := l.foldl (fun m a => put m (key a) (f (get m (key a)) a)) []

variable {key f}

theorem get_foldl_put (l : List α) (m : KeyValue κ β) (k : κ) :
    get (l.foldl (fun m a => put m (key a) (f (get m (key a)) a)) m) k =
      (l.filter fun a => key a = k).foldl (fun o a => some (f o a)) (get m k) := by
  induction l generalizing m with
  | nil => rfl
  | cons a l ih =>
    rw [List.foldl_cons, ih, List.filter_cons]
    by_cases h : key a = k
    · rw [if_pos (by simpa using h), List.foldl_cons, ← h, get_put_self]
    · rw [if_neg (by simpa using h), get_put_of_ne (Ne.symm h)]

/-- A key's value is folded over the elements of that key, in their order. -/
theorem get_collect (l : List α) (k : κ) :
    get (collect key f l) k = (l.filter fun a => key a = k).foldl (fun o a => some (f o a)) none :=
  get_foldl_put l [] k

theorem nodup_collect (l : List α) : ((collect key f l).map Prod.fst).Nodup := by
  have hfold : ∀ (l : List α) (m : KeyValue κ β), (m.map Prod.fst).Nodup →
      ((l.foldl (fun m a => put m (key a) (f (get m (key a)) a)) m).map Prod.fst).Nodup := by
    intro l
    induction l with
    | nil => exact fun m h => h
    | cons a l ih => exact fun m h => ih _ (nodup_put h _ _)
  exact hfold l [] List.nodup_nil

theorem mem_collect {l : List α} {k : κ} {b : β} :
    (k, b) ∈ collect key f l ↔ (l.filter fun a => key a = k).foldl (fun o a => some (f o a)) none = some b := by
  rw [← get_eq_some_iff (nodup_collect l), get_collect]

end Collect

/-! ## Groups of a list -/

section Groups
variable (key : α → κ)

/-- The elements of each key, in their order. -/
def groups (l : List α) : KeyValue κ (List α) := collect key (fun o a => o.getD [] ++ [a]) l

variable {key}

theorem nodup_groups (l : List α) : ((groups key l).map Prod.fst).Nodup := nodup_collect l

theorem foldl_push (l : List α) (xs : List α) :
    l.foldl (fun o a => some (o.getD [] ++ [a])) (some xs) = some (xs ++ l) := by
  induction l generalizing xs with
  | nil => simp
  | cons a l ih =>
    rw [List.foldl_cons, Option.getD_some, ih, List.append_assoc]
    rfl

theorem mem_groups {l : List α} {k : κ} {xs : List α} :
    (k, xs) ∈ groups key l ↔ xs = l.filter (fun a => key a = k) ∧ xs ≠ [] := by
  rw [groups, mem_collect]
  cases h : l.filter fun a => key a = k with
  | nil =>
    constructor
    · intro hnone
      cases hnone
    · exact fun hnil => absurd hnil.1 hnil.2
  | cons a as =>
    rw [List.foldl_cons, Option.getD_none, List.nil_append, foldl_push, List.singleton_append, Option.some_inj]
    constructor
    · intro heq
      exact ⟨heq.symm, heq ▸ List.cons_ne_nil a as⟩
    · exact fun heq => heq.1.symm

theorem perm_put_push (m : KeyValue κ (List α)) (k : κ) (a : α) :
    ((put m k ((get m k).getD [] ++ [a])).flatMap Prod.snd).Perm (a :: m.flatMap Prod.snd) := by
  induction m with
  | nil => exact List.Perm.refl [a]
  | cons entry m ih =>
    rw [get_cons, put_cons]
    by_cases h : entry.1 = k
    · rw [if_pos h, if_pos h.symm, List.flatMap_cons, List.flatMap_cons, Option.getD_some, List.append_assoc]
      exact List.perm_middle
    · rw [if_neg h, if_neg (Ne.symm h), List.flatMap_cons, List.flatMap_cons]
      exact (ih.append_left entry.2).trans List.perm_middle

/-- The groups hold every element, as often as the list does. -/
theorem perm_groups (l : List α) : ((groups key l).flatMap Prod.snd).Perm l := by
  have hfold : ∀ (l : List α) (m : KeyValue κ (List α)),
      ((l.foldl (fun m a => put m (key a) ((get m (key a)).getD [] ++ [a])) m).flatMap Prod.snd).Perm
        (m.flatMap Prod.snd ++ l) := by
    intro l
    induction l with
    | nil => exact fun m => by rw [List.append_nil]; exact List.Perm.refl _
    | cons a l ih =>
      intro m
      refine (ih _).trans (((perm_put_push m (key a) a).append_right l).trans ?_)
      exact List.perm_middle.symm
  exact hfold l []

end Groups
end KeyValue
end SuperAi.Foundations
