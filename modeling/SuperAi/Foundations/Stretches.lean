import SuperAi.Foundations.DelimitedRegex

/-! # What is left between replacements

A pass replaces the matches that its validator accepts, and leaves stretches of the text between them. In the text that
it leaves, another pattern finds just what it finds in the stretches as texts of their own (`found_replaced`). A stretch
is undisturbed if its end cuts no word and no match reaches over its ends: in such a stretch a pattern accepts nothing
that it did not accept before (`found_of_undisturbed`, `found_own`).
-/
namespace SuperAi.Foundations
namespace Regex
set_option autoImplicit false

/-- The match, if the validator accepts it. -/
def accepted (valid : List Char → Bool) : Chunk Char → Option (List Char)
  | .gap _ => none
  | .hit m => if valid m then some m else none

/-- What a search of the text accepts. -/
def found (r : Regex) (valid : List Char → Bool) (text : List Char) : List (List Char) :=
  (chunks r id none 0 text).filterMap (accepted valid)

/-- A part of a text, with what is before and after it. -/
structure Stretch where
  left : List Char
  text : List Char
  right : List Char

/-- What a pass leaves: `done` is what has been cut off, and `stretch` what has been read of the next stretch. -/
def stretches (valid : List Char → Bool) : List Char → List Char → List (Chunk Char) → List Stretch
  | done, stretch, [] => [⟨done, stretch, []⟩]
  | done, stretch, .gap c :: cs => stretches valid done (stretch ++ [c]) cs
  | done, stretch, .hit m :: cs =>
    if valid m then
      ⟨done, stretch, m ++ cs.flatMap Chunk.source⟩ :: stretches valid (done ++ (stretch ++ m)) [] cs
    else
      stretches valid done (stretch ++ m) cs

/-- Its end is within a word, or a match that a search takes reaches over one of its ends. -/
def Stretch.disturbed (s : Stretch) (r : Regex) : Bool :=
  (isWord s.text.getLast? && isWord s.right.head?) || overhang r none 0 s.left (s.text ++ s.right) != 0 ||
    overhang r none 0 (s.left ++ s.text) s.right != 0

section
variable {r body : Regex} {lead : Bool} {valid : List Char → Bool}

/-! ## Searches of the text that is left -/

theorem chunks_congr (h : Delimited r lead body) {prev prev' : Option Char} (hprev : isWord prev = isWord prev')
    (s : List Char) : chunks r id prev 0 s = chunks r id prev' 0 s := by
  cases s with
  | nil => rw [chunks, chunks]
  | cons c s => rw [chunks, chunks, List.map_id, h.run_congr hprev]

theorem overhang_of_avoids {t : List Char} (ht : ∀ c ∈ t.head?, avoids c r = true) (u : List Char) :
    ∀ (prev : Option Char) (skip : ℕ), skip ≤ u.length → overhang r prev skip u t = 0 := by
  induction u with
  | nil => exact fun _ _ hle => Nat.le_zero.mp hle
  | cons c u ih =>
    intro prev skip hle
    cases skip with
    | succ skip => exact ih _ _ (Nat.le_of_succ_le_succ hle)
    | zero =>
      by_cases htakes : Takes r prev (c :: (u ++ t))
      · obtain ⟨n, hn⟩ := htakes
        rw [overhang_of_head hn]
        apply ih
        by_contra hlong
        obtain ⟨hlength, hmatch⟩ := mem_run_iff.mp (List.mem_of_head? hn)
        cases t with
        | nil =>
          rw [List.append_nil, List.length_cons] at hlength
          omega
        | cons d t =>
          refine not_mem_of_avoids (ht d rfl) hmatch ?_
          have hsplit : c :: (u ++ d :: t) = (c :: u ++ [d]) ++ t := by simp
          rw [hsplit, List.take_append, List.take_of_length_le (by simp; omega)]
          simp
      · rw [overhang_of_not_takes htakes]
        exact ih _ _ (Nat.zero_le _)

/-- A search passes over a text that the pattern keeps out of. -/
theorem chunks_keepsOut {text : List Char} (hout : keepsOut r text = true) (rest : List Char) {prev : Option Char} :
    chunks r id prev 0 (text ++ rest) = text.map .gap ++ chunks r id (before prev text) 0 rest := by
  have hall : ∀ t₁ t₂ : List Char, t₁ ++ t₂ = text →
      chunks r id (before prev t₁) 0 (t₂ ++ rest) = t₂.map .gap ++ chunks r id (before prev text) 0 rest := by
    intro t₁ t₂
    induction t₂ generalizing t₁ with
    | nil =>
      intro htext
      rw [List.append_nil] at htext
      rw [htext, List.nil_append, List.map_nil, List.nil_append]
    | cons c t₂ ih =>
      intro htext
      have hnot : ¬ Takes r (before prev t₁) (c :: (t₂ ++ rest)) := by
        rintro ⟨n, hn⟩
        obtain ⟨hle, hmatch⟩ := mem_run_iff.mp (List.mem_of_head? hn)
        have heq : [] ++ (text ++ rest) =
            t₁ ++ ((c :: (t₂ ++ rest)).take (n + 1) ++ (c :: (t₂ ++ rest)).drop (n + 1)) := by
          rw [List.take_append_drop, ← htext]
          simp
        obtain ⟨gap, hgap⟩ | ⟨gap, hgap⟩ := Matches.outside hout (by simp) heq hmatch
        · simp at hgap
        · have hlength := congrArg List.length hgap
          rw [← htext] at hlength
          simp at hlength
      have hnext := ih (t₁ ++ [c]) (by rw [← htext]; simp)
      rw [before_append] at hnext
      rw [List.cons_append, chunks_of_not_takes hnot]
      exact congrArg (Chunk.gap c :: ·) hnext
  exact hall [] text rfl

variable {placeholder : List Char} (hout : keepsOut r placeholder = true) (hopens : isWord placeholder.head? = false)
  (hcloses : isWord placeholder.getLast? = false)

include hout hopens hcloses

/-- Before and after a placeholder, a search finds what it finds in texts of their own. -/
theorem found_around (h : Delimited r lead body) (u rest : List Char) :
    found r valid (u ++ (placeholder ++ rest)) = found r valid u ++ found r valid rest := by
  have hne := keepsOut_ne_nil hout
  have hhead : (placeholder ++ rest).head? = placeholder.head? := List.head?_append_of_ne_nil _ hne
  have havoids : ∀ c ∈ (placeholder ++ rest).head?, avoids c r = true := by
    intro c hc
    rw [hhead] at hc
    simp only [keepsOut, Bool.and_eq_true] at hout
    obtain ⟨first, hfirst, hfirstAvoided⟩ := (Option.any_eq_true _ _).mp hout.1.1
    obtain rfl := Option.some.inj (hfirst.symm.trans hc)
    exact hfirstAvoided
  have hlast : isWord (before (before none u) placeholder) = isWord none := by
    rw [before_of_ne_nil hne _ none, before, Option.or_none, hcloses]
    rfl
  have hgaps : (placeholder.map Chunk.gap).filterMap (accepted valid) = [] := by
    rw [List.filterMap_map]
    exact List.filterMap_eq_nil_iff.mpr fun _ _ => rfl
  have hcut : isWord u.getLast? = true → isWord (placeholder ++ rest).head? = false := by
    rw [hhead]
    exact fun _ => hopens
  unfold found
  rw [chunks_cut h _ u none 0 hcut (overhang_of_avoids havoids u none 0 (Nat.zero_le _)), chunks_keepsOut hout,
    chunks_congr h hlast, List.filterMap_append, List.filterMap_append, hgaps, List.nil_append]

/-- **The text that a pass leaves.** A search of it finds what it finds in the stretches between the placeholders. -/
theorem found_replaced (h : Delimited r lead body) {valid' : List Char → Bool} (cs : List (Chunk Char)) :
    ∀ done stretch : List Char,
      found r valid (stretch ++ cs.flatMap (Chunk.replaced fun m => if valid' m then placeholder else m)) =
        (stretches valid' done stretch cs).flatMap fun s => found r valid s.text := by
  induction cs with
  | nil =>
    intro done stretch
    simp [stretches]
  | cons chunk cs ih =>
    intro done stretch
    rw [List.flatMap_cons]
    cases chunk with
    | gap c =>
      rw [stretches, ← ih done (stretch ++ [c]), List.append_assoc]
      rfl
    | hit m =>
      by_cases hm : valid' m = true
      · rw [stretches, if_pos hm, List.flatMap_cons, ← ih _ [], Chunk.replaced, if_pos hm,
          found_around hout hopens hcloses h]
        rfl
      · rw [stretches, if_neg hm, ← ih done (stretch ++ m), Chunk.replaced, if_neg hm, List.append_assoc]

end

/-! ## Stretches that are undisturbed -/

section
variable {r body : Regex} {lead : Bool} {valid : List Char → Bool}

theorem cut_append {prev : Option Char} (cs cs' : List (Chunk Char)) (h : Cut r id prev (cs ++ cs')) :
    Cut r id (before prev (cs.flatMap Chunk.source)) cs' := by
  induction cs generalizing prev with
  | nil => exact h
  | cons chunk cs ih =>
    rw [List.flatMap_cons, before_append]
    cases chunk with
    | gap c => exact ih h
    | hit m =>
      have hrest := ih h.2.2
      rw [List.map_id] at hrest
      exact hrest

theorem source_ne_nil_of_cut {prev : Option Char} {cs : List (Chunk Char)} (h : Cut r id prev cs) :
    ∀ chunk ∈ cs, chunk.source ≠ [] := by
  induction cs generalizing prev with
  | nil => exact fun _ hmem => absurd hmem List.not_mem_nil
  | cons chunk cs ih =>
    intro chunk' hmem
    cases chunk with
    | gap c =>
      obtain rfl | hmem := List.mem_cons.mp hmem
      · exact List.cons_ne_nil c []
      · exact ih h chunk' hmem
    | hit m =>
      obtain rfl | hmem := List.mem_cons.mp hmem
      · exact h.1
      · exact ih h.2.2 chunk' hmem

/-- Chunks can be divided at a place in one way. -/
theorem append_inj_of_source {a b a' b' : List (Chunk Char)} (hne : ∀ chunk ∈ a ++ b, chunk.source ≠ [])
    (h : a ++ b = a' ++ b') (hsource : a.flatMap Chunk.source = a'.flatMap Chunk.source) : a = a' ∧ b = b' := by
  have hnil : ∀ d : List (Chunk Char), (∀ chunk ∈ d, chunk.source ≠ []) → d.flatMap Chunk.source = [] →
      d = [] := by
    intro d hd hempty
    cases d with
    | nil => rfl
    | cons chunk d =>
      rw [List.flatMap_cons] at hempty
      exact absurd (List.append_eq_nil_iff.mp hempty).1 (hd chunk List.mem_cons_self)
  obtain ⟨d, rfl, hb⟩ | ⟨d, rfl, hb⟩ := List.append_eq_append_iff.mp h
  · rw [List.flatMap_append, List.self_eq_append_right] at hsource
    obtain rfl := hnil d (fun chunk hmem => hne chunk (by rw [hb]; simp [hmem])) hsource
    exact ⟨(List.append_nil a).symm, hb⟩
  · rw [List.flatMap_append, List.append_right_eq_self] at hsource
    obtain rfl := hnil d (fun chunk hmem => hne chunk (by simp [hmem])) hsource
    exact ⟨List.append_nil a', hb.symm⟩

/-- The chunks of a stretch: it stands after a match that has been accepted, or at the start, and its own matches are
refused. -/
structure Stretch.Within (s : Stretch) (valid : List Char → Bool) (cs : List (Chunk Char)) : Prop where
  divided : ∃ a b c, cs = a ++ (b ++ c) ∧ a.flatMap Chunk.source = s.left ∧ b.flatMap Chunk.source = s.text ∧
    c.flatMap Chunk.source = s.right ∧ b.filterMap (accepted valid) = [] ∧ (a = [] ∨ ∃ a' m, a = a' ++ [.hit m])

theorem within_of_mem {all : List (Chunk Char)} {s : Stretch} (cs : List (Chunk Char)) : ∀ (a b : List (Chunk Char)),
    all = a ++ (b ++ cs) → b.filterMap (accepted valid) = [] → (a = [] ∨ ∃ a' m, a = a' ++ [.hit m]) →
    s ∈ stretches valid (a.flatMap Chunk.source) (b.flatMap Chunk.source) cs → s.Within valid all := by
  induction cs with
  | nil =>
    intro a b hall hb ha hs
    obtain rfl := List.mem_singleton.mp hs
    exact ⟨a, b, [], hall, rfl, rfl, rfl, hb, ha⟩
  | cons chunk cs ih =>
    intro a b hall hb ha hs
    cases chunk with
    | gap c =>
      refine ih a (b ++ [.gap c]) ?_ ?_ ha ?_
      · rw [hall, List.append_assoc]
        rfl
      · rw [List.filterMap_append, hb]
        rfl
      · rw [List.flatMap_append]
        exact hs
    | hit m =>
      rw [stretches] at hs
      by_cases hm : valid m = true
      · rw [if_pos hm] at hs
        obtain rfl | hs := List.mem_cons.mp hs
        · exact ⟨a, b, .hit m :: cs, hall, rfl, rfl, rfl, hb, ha⟩
        · refine ih (a ++ (b ++ [.hit m])) [] ?_ rfl (.inr ⟨a ++ b, m, (List.append_assoc _ _ _).symm⟩) ?_
          · rw [hall]
            simp
          · rw [List.flatMap_append, List.flatMap_append, List.flatMap_singleton]
            exact hs
      · rw [if_neg hm] at hs
        refine ih a (b ++ [.hit m]) ?_ ?_ ha ?_
        · rw [hall, List.append_assoc]
          rfl
        · rw [List.filterMap_append, hb]
          simp [accepted, hm]
        · rw [List.flatMap_append, List.flatMap_singleton]
          exact hs

/-- In an undisturbed stretch, a search of the whole text takes the matches that a search of the stretch takes. -/
theorem chunks_of_undisturbed (h : Delimited r lead body) {s : Stretch} (hs : s.disturbed r = false) :
    ∃ cs, chunks r id none 0 (s.left ++ (s.text ++ s.right)) =
      cs ++ (chunks r id (before none s.left) 0 s.text ++ chunks r id (before none (s.left ++ s.text)) 0 s.right) := by
  simp only [Stretch.disturbed, Bool.or_eq_false_iff, bne_eq_false_iff_eq] at hs
  obtain ⟨⟨hword, hleft⟩, hright⟩ := hs
  rw [overhang_append, hleft] at hright
  have hcut : isWord s.text.getLast? = true → isWord s.right.head? = false := by
    intro hlast
    rwa [hlast, Bool.true_and] at hword
  obtain ⟨cs, hcs⟩ := chunks_append (r := r) s.left (s.text ++ s.right) none 0
  rw [hleft, chunks_cut h s.right s.text _ 0 hcut hright, ← before_append] at hcs
  exact ⟨cs, hcs⟩

/-- Where a word does not go on, it makes no difference for what is accepted that the text begins there. -/
theorem found_of_refused (h : Delimited r lead body)
    (hstarts : lead = true → startsWord body = true ∨ ∀ m, valid m = true) {prev : Option Char}
    {text : List Char} (hedge : isWord prev = true → isWord text.head? = false)
    (hnone : (chunks r id prev 0 text).filterMap (accepted valid) = []) : found r valid text = [] := by
  unfold found
  by_cases hprev : isWord prev = isWord none
  · rw [← chunks_congr h hprev]
    exact hnone
  · have hprev' : isWord prev = true := by
      by_contra hnot
      exact hprev (Bool.eq_false_iff.mpr hnot)
    cases text with
    | nil =>
      rw [chunks]
      rfl
    | cons c text =>
      cases lead with
      | false =>
        have hrun : run r none (c :: text) = run r prev (c :: text) := by
          rw [h.run_eq, h.run_eq]
          rfl
        rw [chunks, List.map_id] at hnone ⊢
        rw [hrun]
        exact hnone
      | true =>
        have hnot : ¬ Takes r none (c :: text) := by
          rintro ⟨n, hn⟩
          rw [h.run_eq_nil rfl (hedge hprev')] at hn
          cases hn
        have hnot' : ¬ Takes r prev (c :: text) := by
          rintro ⟨n, hn⟩
          obtain hstarts | hvalid := hstarts rfl
          · have hword := h.starts_word hstarts (List.mem_of_head? hn)
            rw [hedge hprev'] at hword
            cases hword
          · rw [chunks_of_head hn, List.filterMap_cons_some (by rw [accepted, if_pos (hvalid _)])] at hnone
            cases hnone
        rw [chunks_of_not_takes hnot'] at hnone
        rw [chunks_of_not_takes hnot]
        exact hnone

/-- **Undisturbed stretches.** A pattern that accepts nothing in a text accepts nothing in an undisturbed stretch of it
as a text of its own, if a word does not go on where the stretch begins. -/
theorem found_of_undisturbed (h : Delimited r lead body)
    (hstarts : lead = true → startsWord body = true ∨ ∀ m, valid m = true)
    {s : Stretch} (hs : s.disturbed r = false)
    (hedge : isWord (before none s.left) = true → isWord s.text.head? = false)
    (hnone : found r valid (s.left ++ (s.text ++ s.right)) = []) : found r valid s.text = [] := by
  obtain ⟨cs, hcs⟩ := chunks_of_undisturbed h hs
  unfold found at hnone
  rw [hcs, List.filterMap_append, List.filterMap_append] at hnone
  exact found_of_refused h hstarts hedge (List.append_eq_nil_iff.mp (List.append_eq_nil_iff.mp hnone).2).1

namespace Stretch.Within
variable {s : Stretch} {text : List Char}

theorem parts (hs : s.Within valid (chunks r id none 0 text)) : s.left ++ (s.text ++ s.right) = text := by
  obtain ⟨a, b, c, hall, ha, hb, hc, -, -⟩ := hs.divided
  have hsource : (chunks r id none 0 text).flatMap Chunk.source = text := source_chunks text none 0
  rw [hall, List.flatMap_append, List.flatMap_append, ha, hb, hc] at hsource
  exact hsource

/-- A word does not go on after a match that has been replaced. -/
theorem edge (h : Delimited r lead body) (hs : s.Within valid (chunks r id none 0 text)) :
    isWord (before none s.left) = true → isWord s.text.head? = false := by
  obtain ⟨a, b, c, hall, ha, hb, hc, -, hleft⟩ := hs.divided
  intro hword
  obtain rfl | ⟨a', m, rfl⟩ := hleft
  · rw [← ha] at hword
    cases hword
  · have hcut : Cut r id none (chunks r id none 0 text) := cut_chunks text none 0
    rw [hall, List.append_assoc] at hcut
    have hnext : isWord (((b ++ c).flatMap Chunk.source).map id).head? = false :=
      (h.ends_word (cut_append a' _ hcut).2.1).2.2
    rw [List.flatMap_append, hb, hc, List.map_id] at hnext
    cases htext : s.text with
    | nil => rfl
    | cons d t =>
      rw [htext] at hnext
      exact hnext

/-- In an undisturbed stretch, the pattern of the pass accepts nothing. -/
theorem found_own (h : Delimited r lead body)
    (hstarts : lead = true → startsWord body = true ∨ ∀ m, valid m = true)
    (hs : s.Within valid (chunks r id none 0 text)) (hundisturbed : s.disturbed r = false) :
    found r valid s.text = [] := by
  obtain ⟨a, b, c, hall, ha, hb, hc, hrefused, -⟩ := hs.divided
  obtain ⟨cs, hcs⟩ := chunks_of_undisturbed h hundisturbed
  rw [hs.parts] at hcs
  have hne : ∀ chunk ∈ chunks r id none 0 text, chunk.source ≠ [] := source_ne_nil_of_cut (cut_chunks text none 0)
  have hsource : cs.flatMap Chunk.source = s.left := by
    have hparts : (chunks r id none 0 text).flatMap Chunk.source = text := source_chunks text none 0
    rw [hcs, List.flatMap_append, List.flatMap_append, source_chunks, source_chunks] at hparts
    exact List.append_cancel_right (hparts.trans hs.parts.symm)
  rw [hall] at hne hcs
  obtain ⟨rfl, hrest⟩ := append_inj_of_source hne hcs (ha.trans hsource.symm)
  have hown : b.flatMap Chunk.source =
      (chunks r id (before none s.left) 0 s.text).flatMap Chunk.source := by
    rw [hb, source_chunks]
    rfl
  obtain ⟨rfl, -⟩ := append_inj_of_source (fun chunk hmem => hne chunk (List.mem_append_right a hmem)) hrest hown
  exact found_of_refused h hstarts (hs.edge h) hrefused

end Stretch.Within
end
end Regex
end SuperAi.Foundations
