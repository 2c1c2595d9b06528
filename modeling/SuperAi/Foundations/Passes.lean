import Mathlib.Data.List.Basic
import Mathlib.Tactic.Basic

/-! # Computations that stop early

A pass over a list is a `foldlM` in `Except`: each element is met with the state that the ones before it
have left, and the first error ends the pass.
-/
namespace SuperAi.Foundations
set_option autoImplicit false

universe u

variable {ε : Type u} {α β : Type u}

theorem bind_eq_ok {x : Except ε α} {f : α → Except ε β} {b : β} :
    x >>= f = .ok b ↔ ∃ a, x = .ok a ∧ f a = .ok b := by
  constructor
  · intro h
    cases x with
    | error e => cases h
    | ok a => exact ⟨a, rfl, h⟩
  · rintro ⟨a, rfl, h⟩
    exact h

/-- A computation that an error may stop first. -/
theorem ite_error_eq_ok {c : Prop} [Decidable c] {e : ε} {x : Except ε α} {a : α} :
    (if c then .error e else x) = .ok a ↔ ¬ c ∧ x = .ok a := by
  by_cases hc : c
  · simp [hc]
  · simp [hc]

theorem ite_some_eq_none {c : Prop} [Decidable c] {a : α} {x : Option α} :
    (if c then some a else x) = none ↔ ¬ c ∧ x = none := by
  by_cases hc : c
  · simp [hc]
  · simp [hc]

/-- **Pass rule.** What every step of a pass keeps holds after the pass. -/
theorem foldlM_invariant {f : β → α → Except ε β} {I : β → Prop}
    (hstep : ∀ b a b', I b → f b a = .ok b' → I b') {l : List α} {b b' : β} (hb : I b)
    (h : l.foldlM f b = .ok b') : I b' := by
  induction l generalizing b with
  | nil =>
    obtain rfl : b = b' := Except.ok.inj h
    exact hb
  | cons a l ih =>
    rw [List.foldlM_cons] at h
    obtain ⟨c, hfirst, hrest⟩ := bind_eq_ok.mp h
    exact ih (hstep b a c hb hfirst) hrest

/-- Each element of a pass has been met with a state on the way. -/
theorem foldlM_mem {f : β → α → Except ε β} {R : β → β → Prop} (hrefl : ∀ b, R b b)
    (htrans : ∀ b c d, R b c → R c d → R b d) (hstep : ∀ b a b', f b a = .ok b' → R b b') {l : List α} {b b' : β}
    (h : l.foldlM f b = .ok b') {a : α} (ha : a ∈ l) : ∃ c c', R b c ∧ f c a = .ok c' ∧ R c' b' := by
  induction l generalizing b with
  | nil => cases ha
  | cons first l ih =>
    rw [List.foldlM_cons] at h
    obtain ⟨c, hfirst, hrest⟩ := bind_eq_ok.mp h
    by_cases hmem : a ∈ l
    · obtain ⟨d, d', hd, hmet, hd'⟩ := ih hrest hmem
      exact ⟨d, d', htrans b c d (hstep b first c hfirst) hd, hmet, hd'⟩
    · obtain rfl : a = first := (List.mem_cons.mp ha).resolve_right hmem
      refine ⟨b, c, hrefl b, hfirst, ?_⟩
      exact foldlM_invariant (I := R c) (fun d a d' hd hmet => htrans c d d' hd (hstep d a d' hmet)) (hrefl c) hrest

/-- A pass that stops was stopped by one of its elements. -/
theorem foldlM_error {f : β → α → Except ε β} {I : β → Prop} (hstep : ∀ b a b', I b → f b a = .ok b' → I b')
    {l : List α} {b : β} {e : ε} (hb : I b) (h : l.foldlM f b = .error e) :
    ∃ a ∈ l, ∃ c, I c ∧ f c a = .error e := by
  induction l generalizing b with
  | nil => cases h
  | cons a l ih =>
    rw [List.foldlM_cons] at h
    cases hfirst : f b a with
    | error e' =>
      rw [hfirst] at h
      obtain rfl : e' = e := Except.error.inj h
      exact ⟨a, List.mem_cons_self, b, hb, hfirst⟩
    | ok c =>
      rw [hfirst] at h
      obtain ⟨a', ha', d, hd, hmet⟩ := ih (hstep b a c hb hfirst) h
      exact ⟨a', List.mem_cons_of_mem a ha', d, hd, hmet⟩

/-- A pass that no element stops comes to its end. -/
theorem foldlM_total {f : β → α → Except ε β} {I : β → Prop} {l : List α} {b : β}
    (hstep : ∀ b, ∀ a ∈ l, I b → ∃ b', f b a = .ok b' ∧ I b') (hb : I b) : ∃ b', l.foldlM f b = .ok b' ∧ I b' := by
  induction l generalizing b with
  | nil => exact ⟨b, rfl, hb⟩
  | cons a l ih =>
    obtain ⟨c, hfirst, hc⟩ := hstep b a List.mem_cons_self hb
    obtain ⟨b', hrest, hb'⟩ := ih (fun d a' ha' => hstep d a' (List.mem_cons_of_mem a ha')) hc
    refine ⟨b', ?_, hb'⟩
    rw [List.foldlM_cons, hfirst]
    exact hrest

end SuperAi.Foundations
