import Mathlib.Data.List.Basic
import Mathlib.Tactic.Basic

/-! # Step systems and guarded runs

A step system is a partial step function: `step s e` is the state after event `e`, and `none`
when `e` cannot happen in `s`. A run is a list of events taken one after another. A guarded run
is a run each of whose steps meets a condition on the state before the step and the event, so
that an ordinary run is the run under the trivial guard (`GuardedRun.of_run`).
-/
namespace SuperAi.Foundations
set_option autoImplicit false

universe u v w

/-- A deterministic labelled system; a disabled event has no successor. -/
structure StepSystem (State : Type u) (Event : Type v) where
  step : State → Event → Option State

namespace StepSystem
variable {State : Type u} {Event : Type v} (S : StepSystem State Event)

/-- The state after a list of events, if each of them is enabled in its turn. -/
def run (s : State) : List Event → Option State
  | [] => some s
  | e :: es => (S.step s e).bind fun s' => run s' es

@[simp] theorem run_nil (s : State) : S.run s [] = some s := rfl

theorem run_cons {s s' : State} {e : Event} {es : List Event} (h : S.step s e = some s') :
    S.run s (e :: es) = S.run s' es := by
  simp [run, h]

theorem run_append (s : State) (es es' : List Event) :
    S.run s (es ++ es') = (S.run s es).bind fun t => S.run t es' := by
  induction es generalizing s with
  | nil => rfl
  | cons e es ih =>
    cases h : S.step s e with
    | none => simp [run, h]
    | some s' => simp [run, h, ih]

/-- How many steps of a run satisfy `p`. -/
def count (p : State → Event → Bool) (s : State) : List Event → ℕ
  | [] => 0
  | e :: es => (if p s e then 1 else 0) + (S.step s e).elim 0 fun s' => count p s' es

theorem count_cons (p : State → Event → Bool) {s s' : State} {e : Event} (es : List Event)
    (h : S.step s e = some s') :
    S.count p s (e :: es) = (if p s e then 1 else 0) + S.count p s' es := by
  rw [count, h, Option.elim_some]

/-- A run from `s` to `t` each of whose steps meets the guard `G`. -/
inductive GuardedRun (G : State → Event → Prop) : State → List Event → State → Prop
  | nil (s : State) : GuardedRun G s [] s
  | cons {s s' t : State} {e : Event} {es : List Event} (guard : G s e)
      (step : S.step s e = some s') (rest : GuardedRun G s' es t) : GuardedRun G s (e :: es) t

/-- The run of the events as far as a decidable guard allows. -/
def guardedRun (G : State → Event → Prop) [∀ s e, Decidable (G s e)] (s : State) :
    List Event → Option State
  | [] => some s
  | e :: es => if G s e then (S.step s e).bind fun s' => guardedRun G s' es else none

namespace GuardedRun
variable {S} {G H : State → Event → Prop} {s t : State} {es es' : List Event}

theorem run (h : S.GuardedRun G s es t) : S.run s es = some t := by
  induction h with
  | nil s => rfl
  | cons _ step _ ih => rw [run_cons S step, ih]

theorem of_guardedRun [∀ s e, Decidable (G s e)] (h : S.guardedRun G s es = some t) :
    S.GuardedRun G s es t := by
  induction es generalizing s with
  | nil =>
    obtain rfl : s = t := by simpa [guardedRun] using h
    exact nil s
  | cons e es ih =>
    obtain ⟨hguard, hbind⟩ := (Option.ite_none_right_eq_some.mp h)
    obtain ⟨s', hs, hrest⟩ := Option.bind_eq_some_iff.mp hbind
    exact cons hguard hs (ih hrest)

theorem of_forall (h : S.run s es = some t) (hG : ∀ e ∈ es, ∀ s, G s e) : S.GuardedRun G s es t := by
  induction es generalizing s with
  | nil =>
    obtain rfl : s = t := by simpa using h
    exact nil s
  | cons e es ih =>
    obtain ⟨s', hs, hrest⟩ := Option.bind_eq_some_iff.mp h
    exact cons (hG e List.mem_cons_self s) hs (ih hrest fun f hf => hG f (List.mem_cons_of_mem e hf))

theorem of_run (h : S.run s es = some t) : S.GuardedRun (fun _ _ => True) s es t :=
  of_forall h fun _ _ _ => trivial

theorem mono_of_invariant {I : State → Prop}
    (hstep : ∀ s e s', I s → G s e → S.step s e = some s' → I s' ∧ H s e)
    (h : S.GuardedRun G s es t) (hs : I s) : S.GuardedRun H s es t := by
  induction h with
  | nil s => exact nil s
  | cons guard step _ ih =>
    obtain ⟨hnext, hguard⟩ := hstep _ _ _ hs guard step
    exact cons hguard step (ih hnext)

theorem append {u : State} (h : S.GuardedRun G s es t) (h' : S.GuardedRun G t es' u) :
    S.GuardedRun G s (es ++ es') u := by
  induction h with
  | nil s => exact h'
  | cons guard step _ ih => exact cons guard step (ih h')

theorem split (h : S.GuardedRun G s (es ++ es') t) :
    ∃ u, S.GuardedRun G s es u ∧ S.GuardedRun G u es' t := by
  induction es generalizing s with
  | nil => exact ⟨s, nil s, h⟩
  | cons e es ih =>
    cases h with
    | cons guard step rest =>
      obtain ⟨u, hfirst, hsecond⟩ := ih rest
      exact ⟨u, cons guard step hfirst, hsecond⟩

/-- **Invariant rule.** What every guarded step preserves holds at the end of a guarded run. -/
theorem invariant {I : State → Prop}
    (hstep : ∀ s e s', I s → G s e → S.step s e = some s' → I s')
    (h : S.GuardedRun G s es t) (hs : I s) : I t := by
  induction h with
  | nil s => exact hs
  | cons guard step _ ih => exact ih (hstep _ _ _ hs guard step)

/-- The invariant rule for facts that also speak of the events so far. -/
theorem history {I : List Event → State → Prop}
    (hstep : ∀ pre s e s', I pre s → G s e → S.step s e = some s' → I (pre ++ [e]) s')
    (h : S.GuardedRun G s es t) {pre : List Event} (hs : I pre s) : I (pre ++ es) t := by
  induction h generalizing pre with
  | nil s => rwa [List.append_nil]
  | cons guard step _ ih =>
    have hrest := ih (hstep _ _ _ _ hs guard step)
    rwa [List.append_assoc, List.singleton_append] at hrest

section
variable {κ : Type w} {p : κ → State → Event → Bool} {I : List Event → (κ → ℕ) → State → Prop}

theorem counting_from
    (hstep : ∀ pre n s e s', I pre n s → G s e → S.step s e = some s' →
      I (pre ++ [e]) (fun k => n k + if p k s e then 1 else 0) s')
    (h : S.GuardedRun G s es t) {pre : List Event} {n : κ → ℕ} (hs : I pre n s) :
    I (pre ++ es) (fun k => n k + S.count (p k) s es) t := by
  induction h generalizing pre n with
  | nil s => rwa [List.append_nil]
  | cons guard step _ ih =>
    have hrest := ih (hstep _ _ _ _ _ hs guard step)
    rw [List.append_assoc, List.singleton_append] at hrest
    simpa only [count_cons S _ _ step, Nat.add_assoc] using hrest

/-- The invariant rule for facts that also speak of how many steps of each kind there have been. -/
theorem counting
    (hstep : ∀ pre n s e s', I pre n s → G s e → S.step s e = some s' →
      I (pre ++ [e]) (fun k => n k + if p k s e then 1 else 0) s')
    (h : S.GuardedRun G s es t) (hs : I [] (fun _ => 0) s) : I es (fun k => S.count (p k) s es) t := by
  have hfrom := counting_from hstep h hs
  simpa only [List.nil_append, Nat.zero_add] using hfrom

end

theorem iff_forall_steps (h : S.run s es = some t) : S.GuardedRun G s es t ↔
    ∀ pre e post u, es = pre ++ e :: post → S.run s pre = some u → G u e := by
  constructor
  · intro hrun pre e post u hes hpre
    induction hrun generalizing pre with
    | nil s => simp at hes
    | cons guard step _ ih =>
      cases pre with
      | nil =>
        obtain ⟨rfl, -⟩ := List.cons.inj hes
        obtain rfl := Option.some.inj hpre
        exact guard
      | cons f pre =>
        obtain ⟨rfl, rfl⟩ := List.cons.inj hes
        rw [run_cons S step] at hpre
        exact ih (GuardedRun.run ‹_›) pre rfl hpre
  · intro hall
    induction es generalizing s with
    | nil =>
      obtain rfl : s = t := by simpa using h
      exact nil s
    | cons e es ih =>
      obtain ⟨s', hs, hrest⟩ := Option.bind_eq_some_iff.mp h
      refine cons (hall [] e es s rfl rfl) hs (ih hrest fun pre f post u hes hpre => ?_)
      exact hall (e :: pre) f post u (by rw [hes, List.cons_append]) (by rw [run_cons S hs, hpre])

/-- A run whose events are all of one kind. -/
theorem iff_forall_map_steps {ι : Type w} {f : ι → Event} {xs : List ι} (h : S.run s (xs.map f) = some t) :
    S.GuardedRun G s (xs.map f) t ↔
      ∀ pre x post u, xs = pre ++ x :: post → S.run s (pre.map f) = some u → G u (f x) := by
  rw [iff_forall_steps h]
  constructor
  · intro hall pre x post u hxs hpre
    exact hall (pre.map f) (f x) (post.map f) u (by rw [hxs, List.map_append, List.map_cons]) hpre
  · intro hall pre e post u hsplit hpre
    obtain ⟨before, rest, rfl, rfl, hrest⟩ := List.map_eq_append_iff.mp hsplit
    obtain ⟨x, after, rfl, rfl, -⟩ := List.map_eq_cons_iff.mp hrest
    exact hall before x after u rfl hpre

/-- **Exact guards.** Let `I` be inductive under the guard and strong enough for `P`. If every step
that breaks the guard also breaks `P`, the guarded runs are those that stay within `P`. -/
theorem iff_forall_reached (I P : State → Prop)
    (hstep : ∀ s e s', I s → G s e → S.step s e = some s' → I s') (hP : ∀ s, I s → P s)
    (hbreak : ∀ s e s', I s → ¬ G s e → S.step s e = some s' → ¬ P s')
    (h : S.run s es = some t) (hs : I s) :
    S.GuardedRun G s es t ↔ ∀ pre post u, es = pre ++ post → S.run s pre = some u → P u := by
  constructor
  · intro hrun pre post u hes hpre
    induction hrun generalizing pre with
    | nil s =>
      obtain ⟨rfl, -⟩ := List.append_eq_nil_iff.mp hes.symm
      obtain rfl : s = u := by simpa using hpre
      exact hP _ hs
    | @cons s s' t e es guard step rest ih =>
      cases pre with
      | nil =>
        obtain rfl : s = u := by simpa using hpre
        exact hP _ hs
      | cons f pre =>
        obtain ⟨rfl, rfl⟩ : e = f ∧ es = pre ++ post := by simpa using hes
        rw [run_cons S step] at hpre
        exact ih rest.run (hstep _ _ _ hs guard step) pre rfl hpre
  · intro hall
    induction es generalizing s with
    | nil =>
      obtain rfl : s = t := by simpa using h
      exact nil s
    | cons e es ih =>
      obtain ⟨s', he, hrest⟩ := Option.bind_eq_some_iff.mp h
      have hguard : G s e := by
        by_contra hG
        exact hbreak _ _ _ hs hG he (hall [e] es s' rfl (by rw [run_cons S he, run_nil]))
      refine cons hguard he (ih hrest (hstep _ _ _ hs hguard he) fun pre post u hes hpre => ?_)
      exact hall (e :: pre) post u (by rw [hes, List.cons_append]) (by rw [run_cons S he, hpre])

end GuardedRun
end StepSystem
end SuperAi.Foundations
