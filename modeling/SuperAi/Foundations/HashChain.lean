import Mathlib.Data.List.Chain
import Mathlib.Data.List.Forall2

/-! # Hash chains

A list of records is linked if each record but the first names the digest of the record before it.
Where a digest determines the name it covers, and no digest is the name that starts a chain, a linked
list whose last digest occurs in a linked log looks like a run of consecutive records of that log
(`linked_iff_segment`): linking rules out every edit except a cut at either end.
-/
namespace SuperAi.Foundations
set_option autoImplicit false

universe u v
variable {α : Type u} {δ : Type v} (digest link : α → δ)

/-- Each record but the first names the digest of the record before it. -/
def ChainLinked (l : List α) : Prop := l.IsChain fun p e => link e = digest p

namespace ChainLinked

def mark (e : α) : δ × δ := (digest e, link e)

theorem iff_marks (l : List α) :
    ChainLinked digest link l ↔ (l.map (mark digest link)).IsChain fun p e => e.2 = p.1 := by
  rw [List.isChain_map]
  rfl

variable {digest link} {R : α → α → Prop}

/-- Records that look alike can stand for one another. -/
theorem of_forall₂ (hsame : ∀ e e', R e e' → digest e = digest e' ∧ link e = link e') {l seg : List α}
    (h : List.Forall₂ R l seg) (hseg : ChainLinked digest link seg) : ChainLinked digest link l := by
  have hmarks : l.map (mark digest link) = seg.map (mark digest link) := by
    induction h with
    | nil => rfl
    | cons hab _ ih =>
      obtain ⟨hdigest, hlink⟩ := hsame _ _ hab
      rw [iff_marks] at hseg
      rw [List.map_cons, List.map_cons, mark, mark, hdigest, hlink]
      exact congrArg _ (ih ((iff_marks digest link _).mpr (List.IsChain.tail hseg)))
  rw [iff_marks, hmarks, ← iff_marks]
  exact hseg

/-- From its last record on, a linked list follows the log back to where it starts. -/
theorem segment_of_last {genesis : δ} (hlink : ∀ e e', R e e' → link e = link e') {l pre : List α}
    {e e' : α} (hlog : ChainLinked digest link (pre ++ [e']))
    (hhead : ∀ first, (pre ++ [e']).head? = some first → link first = genesis)
    (hl : ChainLinked digest link (l ++ [e])) (hgenesis : ∀ d ∈ l, digest d ≠ genesis)
    (halike : ∀ d ∈ l ++ [e], ∀ d' ∈ pre ++ [e'], digest d = digest d' → R d d')
    (hlast : digest e = digest e') :
    ∃ before seg, pre ++ [e'] = before ++ seg ∧ List.Forall₂ R (l ++ [e]) seg := by
  induction l using List.reverseRecOn generalizing pre e e' with
  | nil => exact ⟨pre, [e'], rfl, .cons (halike e (by simp) e' (by simp) hlast) .nil⟩
  | append_singleton l d ih =>
    have hee : R e e' := halike e (by simp) e' (by simp) hlast
    obtain ⟨hl, -, hstep⟩ := List.isChain_append.mp hl
    have hed : link e = digest d := hstep d (by simp) e (by simp)
    -- `e'` is not the first record of the log, since its name is the digest of `d`
    cases pre using List.reverseRecOn with
    | nil =>
      have hfirst : link e' = genesis := hhead e' rfl
      exact absurd (hed.symm.trans ((hlink e e' hee).trans hfirst)) (hgenesis d (by simp))
    | append_singleton pre d' =>
      obtain ⟨hlog, -, hstep'⟩ := List.isChain_append.mp hlog
      have hed' : link e' = digest d' := hstep' d' (by simp) e' (by simp)
      have hhead' : ∀ first, (pre ++ [d']).head? = some first → link first = genesis := by
        intro first hfirst
        refine hhead first ?_
        rw [List.head?_append, hfirst]
        rfl
      obtain ⟨before, seg, hsplit, hseg⟩ := ih hlog hhead' hl
        (fun c hc => hgenesis c (List.mem_append_left _ hc))
        (fun c hc c' hc' => halike c (List.mem_append_left _ hc) c' (List.mem_append_left _ hc'))
        (hed.symm.trans ((hlink e e' hee).trans hed'))
      refine ⟨before, seg ++ [e'], by rw [hsplit, List.append_assoc], ?_⟩
      exact List.rel_append hseg (.cons hee .nil)

/-- **Segments.** Among the lists that end in a digest of the log, the linked ones are those that look
like a run of consecutive records. -/
theorem linked_iff_segment {genesis : δ}
    (hsame : ∀ e e', R e e' → digest e = digest e' ∧ link e = link e') {log l : List α}
    (hlog : ChainLinked digest link log)
    (hhead : ∀ first, log.head? = some first → link first = genesis)
    (hgenesis : ∀ e ∈ l, digest e ≠ genesis)
    (halike : ∀ e ∈ l, ∀ e' ∈ log, digest e = digest e' → R e e')
    (hlast : ∀ e, l.getLast? = some e → ∃ e' ∈ log, digest e = digest e') :
    ChainLinked digest link l ↔
      ∃ before seg after, log = before ++ seg ++ after ∧ List.Forall₂ R l seg := by
  constructor
  · intro hl
    cases l using List.reverseRecOn with
    | nil => exact ⟨log, [], [], by simp, .nil⟩
    | append_singleton l e =>
      obtain ⟨e', he', hdigest⟩ := hlast e (by simp)
      obtain ⟨pre, after, rfl⟩ := List.append_of_mem he'
      have hsplit : pre ++ e' :: after = pre ++ [e'] ++ after := by simp
      rw [hsplit] at hlog hhead halike
      have hhead' : ∀ first, (pre ++ [e']).head? = some first → link first = genesis := by
        intro first hfirst
        refine hhead first ?_
        rw [List.head?_append, hfirst]
        rfl
      obtain ⟨before, seg, hseg, hcopies⟩ := segment_of_last (fun d d' h => (hsame d d' h).2)
        (List.isChain_append.mp hlog).1 hhead' hl
        (fun d hd => hgenesis d (List.mem_append_left _ hd))
        (fun d hd d' hd' => halike d hd d' (List.mem_append_left _ hd')) hdigest
      exact ⟨before, seg, after, by rw [hsplit, hseg], hcopies⟩
  · rintro ⟨before, seg, after, rfl, hcopies⟩
    obtain ⟨hfront, -, -⟩ := List.isChain_append.mp hlog
    obtain ⟨-, hseg, -⟩ := List.isChain_append.mp hfront
    exact of_forall₂ hsame hcopies hseg

end ChainLinked
end SuperAi.Foundations
