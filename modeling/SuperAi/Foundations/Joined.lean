import Mathlib.Data.List.Induction
import Mathlib.Data.String.Basic

/-! # Joined texts

Texts put in a row with a separator between them. Where none of them but the first contains the
separator, the joined text tells them apart.
-/
namespace SuperAi.Foundations
set_option autoImplicit false

universe u
variable {α : Type u}

theorem intercalate_snoc (sep : List α) {parts : List (List α)} (h : parts ≠ []) (last : List α) :
    sep.intercalate (parts ++ [last]) = sep.intercalate parts ++ sep ++ last := by
  induction parts with
  | nil => exact absurd rfl h
  | cons part parts ih =>
    cases parts with
    | nil => simp
    | cons next parts =>
      have hrest := ih (List.cons_ne_nil next parts)
      rw [List.cons_append] at hrest
      rw [List.cons_append, List.cons_append, List.intercalate_cons_cons, hrest, List.intercalate_cons_cons]
      simp only [List.append_assoc]

/-- The last separator tells where the first of two parts ends. -/
theorem append_cons_inj {sep : α} {xs xs' ys ys' : List α} (hys : sep ∉ ys) (hys' : sep ∉ ys')
    (h : xs ++ sep :: ys = xs' ++ sep :: ys') : xs = xs' ∧ ys = ys' := by
  obtain ⟨middle, hxs, htail⟩ | ⟨middle, hxs, htail⟩ := List.append_eq_append_iff.mp h
  · cases middle with
    | nil => exact ⟨by rw [hxs, List.append_nil], (List.cons.inj htail).2⟩
    | cons c middle =>
      obtain ⟨rfl, rfl⟩ := List.cons.inj htail
      exact absurd (List.mem_append_right _ List.mem_cons_self) hys
  · cases middle with
    | nil => exact ⟨by rw [hxs, List.append_nil], (List.cons.inj htail).2.symm⟩
    | cons c middle =>
      obtain ⟨rfl, rfl⟩ := List.cons.inj htail
      exact absurd (List.mem_append_right _ List.mem_cons_self) hys'

/-- The first separator tells where a first part without one ends. -/
theorem append_cons_inj_left {sep : α} {xs xs' ys ys' : List α} (hxs : sep ∉ xs) (hxs' : sep ∉ xs')
    (h : xs ++ sep :: ys = xs' ++ sep :: ys') : xs = xs' ∧ ys = ys' := by
  have hreverse : ys.reverse ++ sep :: xs.reverse = ys'.reverse ++ sep :: xs'.reverse := by
    simpa using congrArg List.reverse h
  obtain ⟨hys, hxs⟩ := append_cons_inj (by rwa [List.mem_reverse]) (by rwa [List.mem_reverse]) hreverse
  exact ⟨List.reverse_injective hxs, List.reverse_injective hys⟩

theorem intercalate_inj {sep : α} {first first' : List α} {rest rest' : List (List α)}
    (hlength : rest.length = rest'.length) (hrest : ∀ part ∈ rest, sep ∉ part)
    (hrest' : ∀ part ∈ rest', sep ∉ part)
    (h : [sep].intercalate (first :: rest) = [sep].intercalate (first' :: rest')) :
    first = first' ∧ rest = rest' := by
  induction rest using List.reverseRecOn generalizing rest' with
  | nil =>
    obtain rfl := List.length_eq_zero_iff.mp hlength.symm
    exact ⟨by simpa using h, rfl⟩
  | append_singleton rest last ih =>
    induction rest' using List.reverseRecOn with
    | nil => simp at hlength
    | append_singleton rest' last' _ =>
      rw [← List.cons_append, ← List.cons_append, intercalate_snoc _ (List.cons_ne_nil _ _),
        intercalate_snoc _ (List.cons_ne_nil _ _), List.append_assoc, List.append_assoc] at h
      obtain ⟨hjoined, rfl⟩ := append_cons_inj (hrest last (by simp)) (hrest' last' (by simp)) h
      have hlengths : rest.length = rest'.length := by simpa using hlength
      obtain ⟨rfl, rfl⟩ := ih hlengths (fun part hpart => hrest part (List.mem_append_left _ hpart))
        (fun part hpart => hrest' part (List.mem_append_left _ hpart)) hjoined
      exact ⟨rfl, rfl⟩

/-- Joined strings are the same only if their parts are. -/
theorem join_inj {sep : Char} {first first' : String} {rest rest' : List String}
    (hlength : rest.length = rest'.length) (hrest : ∀ part ∈ rest, sep ∉ part.toList)
    (hrest' : ∀ part ∈ rest', sep ∉ part.toList)
    (h : (String.singleton sep).intercalate (first :: rest) = (String.singleton sep).intercalate (first' :: rest')) :
    first = first' ∧ rest = rest' := by
  have hchars := congrArg String.toList h
  rw [String.toList_intercalate, String.toList_intercalate, String.toList_singleton, List.map_cons,
    List.map_cons] at hchars
  obtain ⟨hfirst, hparts⟩ := intercalate_inj (by simpa using hlength)
    (by simpa [List.forall_mem_map] using hrest) (by simpa [List.forall_mem_map] using hrest') hchars
  exact ⟨String.toList_injective hfirst, List.map_injective_iff.mpr (fun _ _ hs => String.toList_injective hs) hparts⟩

end SuperAi.Foundations
