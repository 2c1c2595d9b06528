import SuperAi.Foundations.RegexReplace

/-! # Patterns between word boundaries

A pattern whose body looks at nothing beside it, and which ends with a word character before a word boundary; it may
begin with a word boundary as well. At a place where no word is cut and over which no match reaches, a search takes the
same matches whether the text goes on there or not (`chunks_cut`).
-/
namespace SuperAi.Foundations
namespace Regex
set_option autoImplicit false

/-! ## Bodies -/

/-- Nothing in it looks at the text beside it. -/
def plain : Regex → Bool
  | .empty => true
  | .one _ => true
  | .many _ => true
  | .seq r r' => plain r && plain r'
  | .alt r r' => plain r && plain r'
  | .wordBoundary => false
  | .textStart => false

theorem run_plain {r : Regex} (h : plain r = true) (prev prev' : Option Char) (s : List Char) :
    run r prev s = run r prev' s := by
  induction r generalizing prev prev' s with
  | empty => rfl
  | one set =>
    cases s with
    | nil => rfl
    | cons c s => rfl
  | many set => rfl
  | seq r r' ih ih' =>
    simp only [plain, Bool.and_eq_true] at h
    rw [run, run, ih h.1 prev prev']
    congr 1
    funext n
    rw [ih' h.2]
  | alt r r' ih ih' =>
    simp only [plain, Bool.and_eq_true] at h
    rw [run, run, ih h.1 prev prev', ih' h.2 prev prev']
  | wordBoundary => cases h
  | textStart => cases h

theorem length_takeWhile_take (set : CharSet) (u t : List Char) :
    (u.takeWhile set.has).length = min ((u ++ t).takeWhile set.has).length u.length := by
  induction u with
  | nil => simp
  | cons c u ih =>
    by_cases hc : set.has c = true
    · simp [hc, ih]
    · simp [hc]

theorem filter_range_reverse (n b : ℕ) :
    ((List.range (n + 1)).reverse.filter fun k => decide (k ≤ b)) = (List.range (min n b + 1)).reverse := by
  rw [List.filter_reverse]
  congr 1
  induction n with
  | zero => simp
  | succ n ih =>
    rw [List.range_succ, List.filter_append, ih]
    by_cases hle : n + 1 ≤ b
    · rw [List.filter_cons_of_pos (by simpa using hle), List.filter_nil, Nat.min_eq_left hle,
        Nat.min_eq_left (by omega), List.range_succ (n := n + 1)]
    · rw [List.filter_cons_of_neg (by simpa using hle), List.filter_nil, List.append_nil, Nat.min_eq_right (by omega),
        Nat.min_eq_right (by omega)]

theorem flatMap_filter_congr {β : Type} {p : ℕ → Bool} {f g : ℕ → List β} (L : List ℕ)
    (hpos : ∀ n, p n = true → f n = g n) (hneg : ∀ n, p n = false → g n = []) :
    (L.filter p).flatMap f = L.flatMap g := by
  induction L with
  | nil => rfl
  | cons n L ih =>
    cases hn : p n with
    | true => rw [List.filter_cons_of_pos hn, List.flatMap_cons, List.flatMap_cons, ih, hpos n hn]
    | false => rw [List.filter_cons_of_neg (by simp [hn]), List.flatMap_cons, ih, hneg n hn, List.nil_append]

/-- A text that ends has the matches that fit into it, in the order that they have when the text goes on. -/
theorem run_take {r : Regex} (h : plain r = true) (t : List Char) : ∀ {prev : Option Char} {u : List Char},
    run r prev u = (run r prev (u ++ t)).filter fun n => decide (n ≤ u.length) := by
  induction r with
  | empty => simp [run]
  | one set =>
    intro prev u
    cases u with
    | nil =>
      cases t with
      | nil => rfl
      | cons c t =>
        rw [List.nil_append, run, run]
        split
        · rfl
        · rfl
    | cons c u =>
      rw [List.cons_append, run, run]
      split
      · simp
      · rfl
  | many set =>
    intro prev u
    rw [run, run, filter_range_reverse, length_takeWhile_take set u t]
  | seq r r' ih ih' =>
    intro prev u
    simp only [plain, Bool.and_eq_true] at h
    rw [run, run, ih h.1, List.filter_flatMap]
    apply flatMap_filter_congr
    · intro n hn
      have hle : n ≤ u.length := of_decide_eq_true hn
      rw [List.drop_append_of_le_length hle, ih' h.2, List.take_append_of_le_length hle, List.filter_map]
      congr 2
      funext m
      rw [Function.comp_apply, List.length_drop]
      congr 1
      rw [eq_iff_iff]
      omega
    · intro n hn
      have hlt : ¬ n ≤ u.length := of_decide_eq_false hn
      apply List.filter_eq_nil_iff.mpr
      intro k hk
      obtain ⟨m, -, rfl⟩ := List.mem_map.mp hk
      rw [decide_eq_true_eq]
      omega
  | alt r r' ih ih' =>
    intro prev u
    simp only [plain, Bool.and_eq_true] at h
    rw [run, run, ih h.1, ih' h.2, List.filter_append]
  | wordBoundary => cases h
  | textStart => cases h

/-! ## Word characters at the ends -/

def wordOnly (set : CharSet) : Bool :=
  set.all fun range => wordChars.any fun w =>
    decide (w.1.toNat ≤ range.1.toNat) && decide (range.2.toNat ≤ w.2.toNat)

theorem isWord_of_wordOnly {set : CharSet} (h : wordOnly set = true) {c : Char} (hc : set.has c = true) :
    isWord (some c) = true := by
  obtain ⟨range, hrange, hin⟩ := List.any_eq_true.mp hc
  obtain ⟨w, hw, hsub⟩ := List.any_eq_true.mp (List.all_eq_true.mp h range hrange)
  simp only [Bool.and_eq_true, decide_eq_true_eq] at hin hsub
  refine List.any_eq_true.mpr ⟨w, hw, ?_⟩
  simp only [Bool.and_eq_true, decide_eq_true_eq]
  omega

/-- A match that is not empty ends with a word character. -/
def endsWord : Regex → Bool
  | .one set => wordOnly set
  | .many set => wordOnly set
  | .seq r r' => endsWord r' && (endsWord r || !nullable r')
  | .alt r r' => endsWord r && endsWord r'
  | .empty => true
  | .wordBoundary => true
  | .textStart => true

theorem Matches.ends {r : Regex} (h : endsWord r = true) : ∀ {prev next : Option Char} {w : List Char},
    Matches r prev w next → w ≠ [] → isWord w.getLast? = true := by
  induction r with
  | empty => exact fun hw hne => absurd hw hne
  | one set =>
    rintro prev next w ⟨c, rfl, hc⟩ -
    exact isWord_of_wordOnly h hc
  | many set =>
    intro prev next w hw hne
    rw [List.getLast?_eq_some_getLast hne]
    exact isWord_of_wordOnly h (hw _ (List.getLast_mem hne))
  | seq r r' ih ih' =>
    rintro prev next w ⟨u, v, rfl, hu, hv⟩ hne
    simp only [endsWord, Bool.and_eq_true, Bool.or_eq_true, Bool.not_eq_true'] at h
    by_cases hnil : v = []
    · subst hnil
      rw [List.append_nil] at hne ⊢
      obtain hends | hnullable := h.2
      · exact ih hends hu hne
      · exact absurd rfl (hv.ne_nil hnullable)
    · rw [List.getLast?_append_of_ne_nil _ hnil]
      exact ih' h.1 hv hnil
  | alt r r' ih ih' =>
    simp only [endsWord, Bool.and_eq_true] at h
    rintro prev next w (hw | hw) hne
    · exact ih h.1 hw hne
    · exact ih' h.2 hw hne
  | wordBoundary => exact fun hw hne => absurd hw.1 hne
  | textStart => exact fun hw hne => absurd hw.1 hne

/-- A match that is not empty starts with a word character. -/
def startsWord : Regex → Bool
  | .one set => wordOnly set
  | .many set => wordOnly set
  | .seq r r' => startsWord r && (startsWord r' || !nullable r)
  | .alt r r' => startsWord r && startsWord r'
  | .empty => true
  | .wordBoundary => true
  | .textStart => true

theorem Matches.starts {r : Regex} (h : startsWord r = true) : ∀ {prev next : Option Char} {w : List Char},
    Matches r prev w next → w ≠ [] → isWord w.head? = true := by
  induction r with
  | empty => exact fun hw hne => absurd hw hne
  | one set =>
    rintro prev next w ⟨c, rfl, hc⟩ -
    exact isWord_of_wordOnly h hc
  | many set =>
    intro prev next w hw hne
    cases w with
    | nil => exact absurd rfl hne
    | cons c w => exact isWord_of_wordOnly h (hw c List.mem_cons_self)
  | seq r r' ih ih' =>
    rintro prev next w ⟨u, v, rfl, hu, hv⟩ hne
    simp only [startsWord, Bool.and_eq_true, Bool.or_eq_true, Bool.not_eq_true'] at h
    by_cases hnil : u = []
    · subst hnil
      obtain hstarts | hnullable := h.2
      · exact ih' hstarts hv hne
      · exact absurd rfl (hu.ne_nil hnullable)
    · rw [List.head?_append_of_ne_nil _ hnil]
      exact ih h.1 hu hnil
  | alt r r' ih ih' =>
    simp only [startsWord, Bool.and_eq_true] at h
    rintro prev next w (hw | hw) hne
    · exact ih h.1 hw hne
    · exact ih' h.2 hw hne
  | wordBoundary => exact fun hw hne => absurd hw.1 hne
  | textStart => exact fun hw hne => absurd hw.1 hne

/-! ## Boundaries -/

theorem sequence_cons (r : Regex) {rs : List Regex} (h : rs ≠ []) : sequence (r :: rs) = .seq r (sequence rs) := by
  cases rs with
  | nil => exact absurd rfl h
  | cons r' rs => rfl

theorem run_concat_boundary {rs : List Regex} (hne : rs ≠ []) (prev : Option Char) (s : List Char) :
    run (sequence (rs ++ [.wordBoundary])) prev s =
      (run (sequence rs) prev s).filter fun n => !(isWord (before prev (s.take n)) == isWord (s.drop n).head?) := by
  have hlast : ∀ (prev : Option Char) (s : List Char) (L : List ℕ),
      (L.flatMap fun n => (run .wordBoundary (before prev (s.take n)) (s.drop n)).map (n + ·)) =
        L.filter fun n => !(isWord (before prev (s.take n)) == isWord (s.drop n).head?) := by
    intro prev s L
    induction L with
    | nil => rfl
    | cons n L ih =>
      rw [List.flatMap_cons, ih, run]
      by_cases hn : isWord (before prev (s.take n)) = isWord (s.drop n).head?
      · rw [if_pos hn, List.filter_cons_of_neg (by simp [hn])]
        rfl
      · rw [if_neg hn, List.filter_cons_of_pos (by simpa using hn)]
        rfl
  induction rs generalizing prev s with
  | nil => exact absurd rfl hne
  | cons r rs ih =>
    by_cases hrs : rs = []
    · subst hrs
      exact hlast prev s (run r prev s)
    · rw [List.cons_append, sequence_cons r (by simp), sequence_cons r hrs, run, run, List.filter_flatMap]
      congr 1
      funext n
      rw [ih hrs, List.filter_map]
      congr 2
      funext m
      rw [Function.comp_apply, ← before_append, List.drop_drop, ← List.take_add]

/-- The pattern is its body before a word boundary, and with `lead` after one too. -/
structure Delimited (r : Regex) (lead : Bool) (body : Regex) : Prop where
  run_eq : ∀ prev s, run r prev s =
    if lead && (isWord prev == isWord s.head?) then [] else (run body none s).filter fun n => !isWord (s.drop n).head?
  plain : body.plain = true
  nonempty : nullable body = false
  ends : endsWord body = true

theorem delimited_sequence (lead : Bool) {rs : List Regex} (hne : rs ≠ []) (hplain : (sequence rs).plain = true)
    (hnonempty : nullable (sequence rs) = false) (hends : endsWord (sequence rs) = true) :
    Delimited (sequence ((if lead then [.wordBoundary] else []) ++ (rs ++ [.wordBoundary]))) lead (sequence rs) := by
  have hbody : ∀ (prev : Option Char) (s : List Char), run (sequence (rs ++ [.wordBoundary])) prev s =
      (run (sequence rs) none s).filter fun n => !isWord (s.drop n).head? := by
    intro prev s
    rw [run_concat_boundary hne, run_plain hplain prev none]
    apply List.filter_congr
    intro n hn
    have hmatch := (mem_run_iff.mp hn).2
    have hne' := hmatch.ne_nil hnonempty
    have hlast : isWord (before prev (s.take n)) = true := by
      rw [before_of_ne_nil hne' prev none, before, Option.or_none]
      exact hmatch.ends hends hne'
    rw [hlast, Bool.true_beq]
  refine ⟨?_, hplain, hnonempty, hends⟩
  intro prev s
  cases lead with
  | false =>
    rw [Bool.false_and, if_neg Bool.false_ne_true]
    exact hbody prev s
  | true =>
    rw [if_pos rfl, List.singleton_append, sequence_cons _ (by simp), run, run, Bool.true_and]
    by_cases hprev : isWord prev = isWord s.head?
    · rw [if_pos hprev, if_pos (by simpa using hprev)]
      rfl
    · rw [if_neg hprev, if_neg (by simpa using hprev), List.flatMap_singleton, List.take_zero, List.drop_zero, hbody]
      simp

/-- The parts of a sequence. -/
def parts : Regex → List Regex
  | .seq r r' => r :: parts r'
  | r => [r]

theorem parts_ne_nil (r : Regex) : parts r ≠ [] := by
  cases r with
  | seq r r' => exact List.cons_ne_nil _ _
  | _ => exact List.cons_ne_nil _ _

theorem sequence_parts (r : Regex) : sequence (parts r) = r := by
  induction r with
  | seq r r' _ ih => rw [parts, sequence_cons r (parts_ne_nil r'), ih]
  | _ => rfl

def isBoundary : Regex → Bool
  | .wordBoundary => true
  | _ => false

theorem eq_wordBoundary {r : Regex} (h : isBoundary r = true) : r = .wordBoundary := by
  cases r with
  | wordBoundary => rfl
  | _ => cases h

def leads (r : Regex) : Bool := (parts r).head?.any isBoundary

/-- The parts of the body. -/
def inner (r : Regex) : List Regex := ((parts r).drop (if leads r then 1 else 0)).dropLast

def isDelimited (r : Regex) : Bool :=
  (parts r).getLast?.any isBoundary && !(inner r).isEmpty && plain (sequence (inner r)) &&
    !nullable (sequence (inner r)) && endsWord (sequence (inner r))

theorem delimited_of_isDelimited {r : Regex} (h : isDelimited r = true) :
    Delimited r (leads r) (sequence (inner r)) := by
  simp only [isDelimited, Bool.and_eq_true, Bool.not_eq_true', List.isEmpty_eq_false_iff] at h
  obtain ⟨⟨⟨⟨hlast, hne⟩, hplain⟩, hnonempty⟩, hends⟩ := h
  obtain ⟨last, hgetLast, hboundary⟩ := (Option.any_eq_true _ _).mp hlast
  obtain rfl := eq_wordBoundary hboundary
  have hrest : (parts r).drop (if leads r then 1 else 0) = inner r ++ [.wordBoundary] := by
    have hdrop : (parts r).drop (if leads r then 1 else 0) ≠ [] := by
      intro hnil
      rw [inner, hnil] at hne
      exact hne rfl
    have hgetLast' : ((parts r).drop (if leads r then 1 else 0)).getLast? = some .wordBoundary := by
      rw [← hgetLast]
      conv_rhs => rw [← List.take_append_drop (if leads r then 1 else 0) (parts r)]
      exact (List.getLast?_append_of_ne_nil _ hdrop).symm
    exact (List.dropLast_append_getLast? _ hgetLast').symm
  have hparts : parts r = (if leads r then [.wordBoundary] else []) ++ (inner r ++ [.wordBoundary]) := by
    rw [← hrest]
    cases hleads : leads r with
    | false => rfl
    | true =>
      obtain ⟨first, hfirst, hboundary'⟩ := (Option.any_eq_true _ _).mp hleads
      obtain rfl := eq_wordBoundary hboundary'
      cases hp : parts r with
      | nil => exact absurd hp (parts_ne_nil r)
      | cons r' rs =>
        rw [hp] at hfirst
        obtain rfl := Option.some.inj hfirst
        rfl
  have hdelimited := delimited_sequence (leads r) hne hplain hnonempty hends
  rw [← hparts, sequence_parts] at hdelimited
  exact hdelimited

namespace Delimited
variable {r body : Regex} {lead : Bool}

theorem run_congr (h : Delimited r lead body) {prev prev' : Option Char} (hprev : isWord prev = isWord prev')
    (s : List Char) : run r prev s = run r prev' s := by
  rw [h.run_eq, h.run_eq, hprev]

/-- A match ends where a word does. -/
theorem ends_word (h : Delimited r lead body) {prev next : Option Char} {w : List Char} (hw : Matches r prev w next) :
    w ≠ [] ∧ isWord w.getLast? = true ∧ isWord next = false := by
  have hmem : w.length ∈ run r prev (w ++ next.toList) := by
    rw [length_mem_run]
    cases next with
    | none => exact hw
    | some c => exact hw
  rw [h.run_eq] at hmem
  split at hmem
  · cases hmem
  · obtain ⟨hbody, hnext⟩ := List.mem_filter.mp hmem
    rw [length_mem_run] at hbody
    have hne := hbody.ne_nil h.nonempty
    rw [List.drop_left] at hnext
    refine ⟨hne, hbody.ends h.ends hne, ?_⟩
    cases next with
    | none => rfl
    | some c => simpa using hnext

theorem starts_word (h : Delimited r lead body) (hstarts : startsWord body = true) {prev : Option Char} {s : List Char}
    {n : ℕ} (hn : n ∈ run r prev s) : isWord s.head? = true := by
  rw [h.run_eq] at hn
  split at hn
  · cases hn
  · have hmatch := (mem_run_iff.mp (List.mem_filter.mp hn).1).2
    have hne := hmatch.ne_nil h.nonempty
    have hword := hmatch.starts hstarts hne
    rw [List.head?_take] at hword
    split at hword
    · cases hword
    · exact hword

/-- Where no word is cut, a match that does not reach over the end is preferred on either side of the cut. -/
theorem head_run_cut (h : Delimited r lead body) {prev : Option Char} {u t : List Char} (hu : u ≠ [])
    (hcut : isWord u.getLast? = true → isWord t.head? = false)
    (hover : ∀ n ∈ (run r prev (u ++ t)).head?, n ≤ u.length) :
    (run r prev u).head? = (run r prev (u ++ t)).head? := by
  rw [h.run_eq prev (u ++ t), List.head?_append_of_ne_nil _ hu] at hover ⊢
  rw [h.run_eq prev u]
  by_cases hlead : (lead && (isWord prev == isWord u.head?)) = true
  · rw [if_pos hlead, if_pos hlead]
  · rw [if_neg hlead] at hover
    rw [if_neg hlead, if_neg hlead, run_take h.plain t, List.filter_filter]
    have hsame : ∀ n ∈ run body none (u ++ t),
        (!isWord (u.drop n).head? && decide (n ≤ u.length)) =
          (decide (n ≤ u.length) && !isWord ((u ++ t).drop n).head?) := by
      intro n hn
      rw [Bool.and_comm]
      by_cases hle : n ≤ u.length
      · rw [decide_eq_true hle, Bool.true_and, Bool.true_and, List.drop_append_of_le_length hle]
        by_cases hlt : n < u.length
        · rw [List.head?_append_of_ne_nil _ (by simpa using hlt)]
        · have heq : n = u.length := by omega
          subst heq
          have hend := ((length_mem_run.mp hn).ends h.ends hu)
          rw [List.drop_length, List.nil_append, hcut hend]
          rfl
      · rw [decide_eq_false hle, Bool.false_and, Bool.false_and]
    rw [List.filter_congr hsame, ← List.filter_filter]
    cases hL : (run body none (u ++ t)).filter fun n => !isWord ((u ++ t).drop n).head? with
    | nil => rfl
    | cons n L =>
      rw [hL] at hover
      have hfit : decide (n ≤ u.length) = true := decide_eq_true (hover n rfl)
      rw [List.filter_cons, if_pos hfit, List.head?_cons, List.head?_cons]

/-- Between two letters neither of which is of a word, a pattern that begins with a word boundary matches nothing. -/
theorem run_eq_nil (h : Delimited r true body) {prev : Option Char} {s : List Char}
    (hprev : isWord prev = false) (hs : isWord s.head? = false) : run r prev s = [] := by
  rw [h.run_eq, hprev, hs]
  rfl

end Delimited

/-! ## Searches that are cut -/

section
variable {r body : Regex} {lead : Bool}

/-- How far a match that the search has taken reaches over the end of `pre`. -/
def overhang (r : Regex) : Option Char → ℕ → List Char → List Char → ℕ
  | _, skip, [], _ => skip
  | _, skip + 1, c :: pre, post => overhang r (some c) skip pre post
  | prev, 0, c :: pre, post =>
    match (run r prev (c :: (pre ++ post))).head? with
    | some (n + 1) => overhang r (some c) n pre post
    | _ => overhang r (some c) 0 pre post

/-- The search takes a match here. -/
def Takes (r : Regex) (prev : Option Char) (s : List Char) : Prop := ∃ n, (run r prev s).head? = some (n + 1)

theorem chunks_of_head {prev : Option Char} {c : Char} {s : List Char} {n : ℕ}
    (h : (run r prev (c :: s)).head? = some (n + 1)) :
    chunks r id prev 0 (c :: s) = .hit (c :: s.take n) :: chunks r id (some c) n s := by
  rw [chunks, List.map_id, h]
  rfl

theorem chunks_of_not_takes {prev : Option Char} {c : Char} {s : List Char} (h : ¬ Takes r prev (c :: s)) :
    chunks r id prev 0 (c :: s) = .gap c :: chunks r id (some c) 0 s := by
  rw [chunks, List.map_id]
  split
  · rename_i n hn
    exact absurd ⟨n, hn⟩ h
  · rfl

theorem overhang_of_head {prev : Option Char} {c : Char} {pre post : List Char} {n : ℕ}
    (h : (run r prev (c :: (pre ++ post))).head? = some (n + 1)) :
    overhang r prev 0 (c :: pre) post = overhang r (some c) n pre post := by
  rw [overhang, h]

theorem overhang_of_not_takes {prev : Option Char} {c : Char} {pre post : List Char}
    (h : ¬ Takes r prev (c :: (pre ++ post))) :
    overhang r prev 0 (c :: pre) post = overhang r (some c) 0 pre post := by
  rw [overhang]
  split
  · rename_i n hn
    exact absurd ⟨n, hn⟩ h
  · rfl

theorem overhang_append (pre mid post : List Char) : ∀ (prev : Option Char) (skip : ℕ),
    overhang r prev skip (pre ++ mid) post =
      overhang r (before prev pre) (overhang r prev skip pre (mid ++ post)) mid post := by
  induction pre with
  | nil => exact fun _ _ => rfl
  | cons c pre ih =>
    intro prev skip
    have hbefore : before prev (c :: pre) = before (some c) pre := before_append prev [c] pre
    rw [hbefore, List.cons_append]
    cases skip with
    | succ skip =>
      rw [overhang, overhang]
      exact ih _ _
    | zero =>
      by_cases htakes : Takes r prev (c :: (pre ++ (mid ++ post)))
      · obtain ⟨n, hn⟩ := htakes
        rw [overhang_of_head hn, overhang_of_head (by rw [List.append_assoc]; exact hn)]
        exact ih _ _
      · rw [overhang_of_not_takes htakes, overhang_of_not_takes (by rw [List.append_assoc]; exact htakes)]
        exact ih _ _

theorem overhang_skip (u t : List Char) : ∀ (prev : Option Char) (skip : ℕ), u.length ≤ skip →
    overhang r prev skip u t = skip - u.length := by
  induction u with
  | nil => exact fun _ _ _ => rfl
  | cons c u ih =>
    intro prev skip hle
    cases skip with
    | zero => simp at hle
    | succ skip =>
      rw [overhang, ih _ _ (by simpa using hle), List.length_cons]
      omega

theorem le_of_overhang {u t : List Char} {prev : Option Char} {skip : ℕ} (h : overhang r prev skip u t = 0) :
    skip ≤ u.length := by
  by_contra hlong
  rw [overhang_skip u t prev skip (by omega)] at h
  omega

/-- Up to a place, a search takes matches of what is before it, and it goes on with what the last of them has left. -/
theorem chunks_append (pre post : List Char) : ∀ (prev : Option Char) (skip : ℕ), ∃ cs,
    chunks r id prev skip (pre ++ post) = cs ++ chunks r id (before prev pre) (overhang r prev skip pre post) post := by
  induction pre with
  | nil => exact fun _ _ => ⟨[], rfl⟩
  | cons c pre ih =>
    intro prev skip
    have hbefore : before prev (c :: pre) = before (some c) pre := before_append prev [c] pre
    rw [hbefore, List.cons_append]
    cases skip with
    | succ skip =>
      rw [chunks, overhang]
      exact ih _ _
    | zero =>
      by_cases htakes : Takes r prev (c :: (pre ++ post))
      · obtain ⟨n, hn⟩ := htakes
        obtain ⟨cs, hcs⟩ := ih (some c) n
        rw [chunks_of_head hn, overhang_of_head hn, hcs]
        exact ⟨_ :: cs, rfl⟩
      · obtain ⟨cs, hcs⟩ := ih (some c) 0
        rw [chunks_of_not_takes htakes, overhang_of_not_takes htakes, hcs]
        exact ⟨_ :: cs, rfl⟩

/-- Where no word is cut and no match reaches over, a search takes the matches of the text that ends there, and goes on
with the rest. -/
theorem chunks_cut (h : Delimited r lead body) (t : List Char) (u : List Char) : ∀ (prev : Option Char) (skip : ℕ),
    (isWord u.getLast? = true → isWord t.head? = false) → overhang r prev skip u t = 0 →
    chunks r id prev skip (u ++ t) = chunks r id prev skip u ++ chunks r id (before prev u) 0 t := by
  induction u with
  | nil =>
    intro prev skip _ hover
    obtain rfl : skip = 0 := hover
    rw [chunks]
    rfl
  | cons c u ih =>
    intro prev skip hcut hover
    have hbefore : before prev (c :: u) = before (some c) u := before_append prev [c] u
    have hcut' : isWord u.getLast? = true → isWord t.head? = false := by
      intro hlast
      apply hcut
      cases u with
      | nil => cases hlast
      | cons d u => exact hlast
    rw [hbefore, List.cons_append]
    cases skip with
    | succ skip =>
      rw [chunks, chunks]
      exact ih _ _ hcut' hover
    | zero =>
      have hhead : (run r prev (c :: u)).head? = (run r prev (c :: (u ++ t))).head? := by
        refine h.head_run_cut (List.cons_ne_nil c u) hcut ?_
        intro n hn
        cases n with
        | zero => exact Nat.zero_le _
        | succ n =>
          rw [overhang_of_head hn] at hover
          exact Nat.succ_le_succ (le_of_overhang hover)
      by_cases htakes : Takes r prev (c :: (u ++ t))
      · obtain ⟨n, hn⟩ := htakes
        rw [overhang_of_head hn] at hover
        rw [chunks_of_head hn, chunks_of_head (hhead.trans hn), ih _ _ hcut' hover,
          List.take_append_of_le_length (le_of_overhang hover), List.cons_append]
      · rw [overhang_of_not_takes htakes] at hover
        rw [chunks_of_not_takes htakes, chunks_of_not_takes, ih _ _ hcut' hover, List.cons_append]
        rintro ⟨n, hn⟩
        exact htakes ⟨n, hhead.symm.trans hn⟩

end

end Regex
end SuperAi.Foundations
