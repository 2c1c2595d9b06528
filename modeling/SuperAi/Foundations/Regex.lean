import Mathlib.Data.List.Basic

/-! # Regular expressions

Regular expressions as JavaScript runs them without the `u` flag: the matches at a place are tried in the order of
backtracking, and the first one is taken. Stars are over sets of characters only. What a match is depends on the
text beside it through the two characters next to it (`mem_run_iff`).
-/
namespace SuperAi.Foundations
set_option autoImplicit false

universe u

/-- Ranges of characters, both ends included. -/
abbrev CharSet := List (Char × Char)

def CharSet.has (set : CharSet) (c : Char) : Bool :=
  set.any fun range => decide (range.1.toNat ≤ c.toNat) && decide (c.toNat ≤ range.2.toNat)

inductive Regex
  | empty
  | one (set : CharSet)
  | many (set : CharSet)
  | seq (r r' : Regex)
  | alt (r r' : Regex)
  | wordBoundary
  | textStart

namespace Regex

def oneOf (c : Char) : CharSet := [(c, c)]

/-- `r?`, with a match of `r` preferred. -/
def optional (r : Regex) : Regex := .alt r .empty

/-- `[set]+`. -/
def atLeastOne (set : CharSet) : Regex := .seq (.one set) (.many set)

/-- `r{0,n}`. -/
def atMost (r : Regex) : ℕ → Regex
  | 0 => .empty
  | n + 1 => optional (.seq r (atMost r n))

/-- `r{m,m+n}`. -/
def between (r : Regex) : ℕ → ℕ → Regex
  | 0, n => atMost r n
  | m + 1, n => .seq r (between r m n)

def times (r : Regex) (m : ℕ) : Regex := between r m 0

def sequence : List Regex → Regex
  | [] => .empty
  | [r] => r
  | r :: rs => .seq r (sequence rs)

def choice : List Regex → Regex
  | [] => .one []
  | [r] => r
  | r :: rs => .alt r (choice rs)

/-- A text in which ASCII letters stand for both cases. -/
def word (text : String) : Regex := sequence (text.toList.map fun c => .one [(c.toLower, c.toLower), (c.toUpper, c.toUpper)])

def digit : CharSet := [('0', '9')]

/-- `\s`. -/
def space : CharSet :=
  [('\t', '\r'), (' ', ' '), ('\u00a0', '\u00a0'), ('\u1680', '\u1680'), ('\u2000', '\u200a'), ('\u2028', '\u2029'),
    ('\u202f', '\u202f'), ('\u205f', '\u205f'), ('\u3000', '\u3000'), ('\ufeff', '\ufeff')]

/-- `\w`. -/
def wordChars : CharSet := [('A', 'Z'), ('a', 'z'), ('0', '9'), ('_', '_')]

def isWord : Option Char → Bool
  | none => false
  | some c => wordChars.has c

/-- The character before what follows `w`. -/
def before (prev : Option Char) (w : List Char) : Option Char := w.getLast?.or prev

/-- The lengths of the matches at the start of `s`, the preferred one first. -/
def run : Regex → Option Char → List Char → List ℕ
  | .empty, _, _ => [0]
  | .one _, _, [] => []
  | .one set, _, c :: _ => if set.has c then [1] else []
  | .many set, _, s => (List.range ((s.takeWhile set.has).length + 1)).reverse
  | .seq r r', prev, s => (run r prev s).flatMap fun n => (run r' (before prev (s.take n)) (s.drop n)).map (n + ·)
  | .alt r r', prev, s => run r prev s ++ run r' prev s
  | .wordBoundary, prev, s => if isWord prev = isWord s.head? then [] else [0]
  | .textStart, prev, _ => if prev = none then [0] else []

/-- What it is to match `w` between two characters. -/
def Matches : Regex → Option Char → List Char → Option Char → Prop
  | .empty, _, w, _ => w = []
  | .one set, _, w, _ => ∃ c, w = [c] ∧ set.has c = true
  | .many set, _, w, _ => ∀ c ∈ w, set.has c = true
  | .seq r r', prev, w, next => ∃ u v, w = u ++ v ∧ Matches r prev u (v.head?.or next) ∧ Matches r' (before prev u) v next
  | .alt r r', prev, w, next => Matches r prev w next ∨ Matches r' prev w next
  | .wordBoundary, prev, w, next => w = [] ∧ isWord prev ≠ isWord next
  | .textStart, prev, w, _ => w = [] ∧ prev = none

theorem head?_drop_take (s : List Char) (i j : ℕ) :
    ((s.drop i).take j).head?.or (s.drop (i + j)).head? = (s.drop i).head? := by
  rw [← List.drop_drop, ← List.head?_append, List.take_append_drop]

theorem length_takeWhile_all {set : CharSet} {s : List Char} {n : ℕ} :
    n ≤ (s.takeWhile set.has).length ↔ n ≤ s.length ∧ ∀ c ∈ s.take n, set.has c = true := by
  induction s generalizing n with
  | nil => simp
  | cons c s ih =>
    cases n with
    | zero => simp
    | succ n =>
      by_cases hc : set.has c = true
      · simp [hc, ih]
      · simp [hc]

theorem mem_run_iff {r : Regex} : ∀ {prev : Option Char} {s : List Char} {n : ℕ},
    n ∈ run r prev s ↔ n ≤ s.length ∧ Matches r prev (s.take n) (s.drop n).head? := by
  induction r with
  | empty =>
    intro prev s n
    simp only [run, Matches, List.mem_singleton, List.take_eq_nil_iff]
    constructor
    · rintro rfl
      exact ⟨Nat.zero_le _, .inl rfl⟩
    · rintro ⟨hle, rfl | rfl⟩
      · rfl
      · simpa using hle
  | one set =>
    intro prev s n
    cases s with
    | nil => simp [run, Matches]
    | cons c s =>
      by_cases hc : set.has c = true
      · cases n with
        | zero => simp [run, Matches, hc]
        | succ n =>
          cases n with
          | zero => simp [run, Matches, hc]
          | succ n =>
            cases s with
            | nil => simp [run, hc]
            | cons c' s => simp [run, Matches, hc]
      · cases n with
        | zero => simp [run, Matches, hc]
        | succ n =>
          cases n with
          | zero => simp [run, Matches, hc]
          | succ n =>
            cases s with
            | nil => simp [run, hc]
            | cons c' s => simp [run, Matches, hc]
  | many set =>
    intro prev s n
    rw [run, List.mem_reverse, List.mem_range, Nat.lt_succ_iff, length_takeWhile_all]
    rfl
  | seq r r' ih ih' =>
    intro prev s n
    simp only [run, Matches, List.mem_flatMap, List.mem_map]
    constructor
    · rintro ⟨i, hi, j, hj, rfl⟩
      obtain ⟨hle, hr⟩ := ih.mp hi
      obtain ⟨hle', hr'⟩ := ih'.mp hj
      rw [List.length_drop] at hle'
      rw [List.drop_drop] at hr'
      refine ⟨by omega, s.take i, (s.drop i).take j, List.take_add, ?_, hr'⟩
      rw [head?_drop_take]
      exact hr
    · rintro ⟨hle, u, v, hw, hr, hr'⟩
      have hs : s = u ++ (v ++ s.drop n) := by rw [← List.append_assoc, ← hw, List.take_append_drop]
      have hn : n = u.length + v.length := by
        rw [← List.length_append, ← hw, List.length_take, Nat.min_eq_left hle]
      have htake : s.take u.length = u := by
        rw [hs]
        exact List.take_left
      have hdrop : s.drop u.length = v ++ s.drop n := by
        conv_lhs => rw [hs]
        exact List.drop_left
      refine ⟨u.length, ih.mpr ⟨by omega, ?_⟩, v.length, ih'.mpr ⟨?_, ?_⟩, hn.symm⟩
      · rw [htake, hdrop, List.head?_append]
        exact hr
      · rw [hdrop, List.length_append]
        omega
      · rw [htake, hdrop, List.take_left, List.drop_left]
        exact hr'
  | alt r r' ih ih' =>
    intro prev s n
    simp only [run, Matches, List.mem_append, ih, ih']
    constructor
    · rintro (⟨hle, hr⟩ | ⟨hle, hr⟩)
      · exact ⟨hle, .inl hr⟩
      · exact ⟨hle, .inr hr⟩
    · rintro ⟨hle, hr | hr⟩
      · exact .inl ⟨hle, hr⟩
      · exact .inr ⟨hle, hr⟩
  | wordBoundary =>
    intro prev s n
    simp only [run, Matches, List.take_eq_nil_iff]
    by_cases hsame : isWord prev = isWord s.head?
    · rw [if_pos hsame]
      refine ⟨fun h => absurd h List.not_mem_nil, ?_⟩
      rintro ⟨hle, rfl | rfl, hne⟩
      · exact absurd hsame hne
      · rw [List.drop_nil] at hne
        exact absurd hsame hne
    · rw [if_neg hsame, List.mem_singleton]
      constructor
      · rintro rfl
        exact ⟨Nat.zero_le _, .inl rfl, hsame⟩
      · rintro ⟨hle, rfl | rfl, -⟩
        · rfl
        · simpa using hle
  | textStart =>
    intro prev s n
    simp only [run, Matches, List.take_eq_nil_iff]
    by_cases hprev : prev = none
    · rw [if_pos hprev, List.mem_singleton]
      constructor
      · rintro rfl
        exact ⟨Nat.zero_le _, .inl rfl, hprev⟩
      · rintro ⟨hle, rfl | rfl, -⟩
        · rfl
        · simpa using hle
    · rw [if_neg hprev]
      exact ⟨fun h => absurd h List.not_mem_nil, fun h => absurd h.2.2 hprev⟩

/-- A match of the first characters of a text. -/
theorem length_mem_run {r : Regex} {prev : Option Char} {w rest : List Char} :
    w.length ∈ run r prev (w ++ rest) ↔ Matches r prev w rest.head? := by
  rw [mem_run_iff, List.take_left, List.drop_left, List.length_append]
  exact ⟨fun h => h.2, fun h => ⟨Nat.le_add_right _ _, h⟩⟩

/-! ## What a match cannot hold -/

/-- No match has this character. -/
def avoids (c : Char) : Regex → Bool
  | .empty => true
  | .one set => !set.has c
  | .many set => !set.has c
  | .seq r r' => avoids c r && avoids c r'
  | .alt r r' => avoids c r && avoids c r'
  | .wordBoundary => true
  | .textStart => true

theorem not_mem_of_avoids {c : Char} {r : Regex} (h : avoids c r = true) : ∀ {prev next : Option Char} {w : List Char},
    Matches r prev w next → c ∉ w := by
  induction r with
  | empty =>
    intro prev next w hw
    rw [hw]
    exact List.not_mem_nil
  | one set =>
    rintro prev next w ⟨d, rfl, hd⟩ hmem
    obtain rfl := List.mem_singleton.mp hmem
    simp [avoids, hd] at h
  | many set =>
    intro prev next w hw hmem
    simp [avoids, hw c hmem] at h
  | seq r r' ih ih' =>
    simp only [avoids, Bool.and_eq_true] at h
    rintro prev next w ⟨u, v, rfl, hu, hv⟩ hmem
    obtain hmem | hmem := List.mem_append.mp hmem
    · exact ih h.1 hu hmem
    · exact ih' h.2 hv hmem
  | alt r r' ih ih' =>
    simp only [avoids, Bool.and_eq_true] at h
    rintro prev next w (hw | hw)
    · exact ih h.1 hw
    · exact ih' h.2 hw
  | wordBoundary =>
    rintro prev next w ⟨rfl, -⟩
    exact List.not_mem_nil
  | textStart =>
    rintro prev next w ⟨rfl, -⟩
    exact List.not_mem_nil

/-- Nothing in it tells a word boundary. -/
def noBoundary : Regex → Bool
  | .seq r r' => noBoundary r && noBoundary r'
  | .alt r r' => noBoundary r && noBoundary r'
  | .wordBoundary => false
  | _ => true

/-- Without word boundaries, a match depends on the text beside it only through whether it is at the start. -/
theorem Matches.of_context {r : Regex} (h : noBoundary r = true) : ∀ {prev prev' next next' : Option Char}
    {w : List Char}, (prev = none ↔ prev' = none) → Matches r prev w next → Matches r prev' w next' := by
  induction r with
  | empty => exact fun _ hw => hw
  | one set => exact fun _ hw => hw
  | many set => exact fun _ hw => hw
  | seq r r' ih ih' =>
    simp only [noBoundary, Bool.and_eq_true] at h
    rintro prev prev' next next' w hprev ⟨u, v, rfl, hu, hv⟩
    refine ⟨u, v, rfl, ih h.1 hprev hu, ih' h.2 ?_ hv⟩
    unfold before
    cases u.getLast? with
    | none => exact hprev
    | some c => simp
  | alt r r' ih ih' =>
    simp only [noBoundary, Bool.and_eq_true] at h
    rintro prev prev' next next' w hprev (hw | hw)
    · exact .inl (ih h.1 hprev hw)
    · exact .inr (ih' h.2 hprev hw)
  | wordBoundary => cases h
  | textStart => exact fun hprev hw => ⟨hw.1, hprev.mp hw.2⟩

/-- It may match the empty text. -/
def nullable : Regex → Bool
  | .one _ => false
  | .seq r r' => nullable r && nullable r'
  | .alt r r' => nullable r || nullable r'
  | _ => true

theorem Matches.ne_nil {r : Regex} (h : nullable r = false) : ∀ {prev next : Option Char} {w : List Char},
    Matches r prev w next → w ≠ [] := by
  induction r with
  | empty => cases h
  | one set =>
    rintro prev next w ⟨c, rfl, -⟩
    exact List.cons_ne_nil c []
  | many set => cases h
  | seq r r' ih ih' =>
    rintro prev next w ⟨u, v, rfl, hu, hv⟩ hnil
    obtain ⟨rfl, rfl⟩ := List.append_eq_nil_iff.mp hnil
    simp only [nullable, Bool.and_eq_false_iff] at h
    obtain h | h := h
    · exact ih h hu rfl
    · exact ih' h hv rfl
  | alt r r' ih ih' =>
    simp only [nullable, Bool.or_eq_false_iff] at h
    rintro prev next w (hw | hw)
    · exact ih h.1 hw
    · exact ih' h.2 hw
  | wordBoundary => cases h
  | textStart => cases h

/-! ## Searching a text -/

section
variable {α : Type u} {r : Regex} {prev : Option Char}

theorem before_append (prev : Option Char) (u v : List Char) : before prev (u ++ v) = before (before prev u) v := by
  unfold before
  rw [List.getLast?_append, Option.or_assoc]

theorem before_of_ne_nil {w : List Char} (h : w ≠ []) (prev prev' : Option Char) : before prev w = before prev' w := by
  unfold before
  rw [List.getLast?_eq_some_getLast h]
  rfl

/-- There is a match, in what is before the letters of a text, that is of letters which are all of this kind. -/
def occurs (r : Regex) (letter : α → Char) (p : α → Bool) : Option Char → List α → Bool
  | prev, [] => (run r prev []).any fun _ => true
  | prev, x :: xs =>
    ((run r prev ((x :: xs).map letter)).any fun n => ((x :: xs).take n).all p) || occurs r letter p (some (letter x)) xs

/-- `regex.test`. -/
def test (r : Regex) (text : List Char) : Bool := occurs r id (fun _ => true) none text

theorem occurs_iff {letter : α → Char} {p : α → Bool} {xs : List α} : ∀ {prev : Option Char},
    occurs r letter p prev xs = true ↔ ∃ l w rest, xs = l ++ w ++ rest ∧ (∀ x ∈ w, p x = true) ∧
      Matches r (before prev (l.map letter)) (w.map letter) (rest.map letter).head? := by
  have hhere : ∀ (prev : Option Char) (xs : List α),
      (∃ n ∈ run r prev (xs.map letter), (xs.take n).all p = true) ↔
        ∃ w rest, xs = w ++ rest ∧ (∀ x ∈ w, p x = true) ∧ Matches r prev (w.map letter) (rest.map letter).head? := by
    intro prev xs
    constructor
    · rintro ⟨n, hn, hall⟩
      have hmatch := (mem_run_iff.mp hn).2
      rw [← List.map_take, ← List.map_drop] at hmatch
      exact ⟨xs.take n, xs.drop n, (List.take_append_drop n xs).symm, List.all_eq_true.mp hall, hmatch⟩
    · rintro ⟨w, rest, rfl, hall, hmatch⟩
      refine ⟨w.length, ?_, by rw [List.take_left]; exact List.all_eq_true.mpr hall⟩
      have hlength : w.length = (w.map letter).length := (List.length_map letter).symm
      rw [hlength, List.map_append, length_mem_run]
      exact hmatch
  induction xs with
  | nil =>
    intro prev
    have hnil := hhere prev []
    simp only [occurs, List.any_eq_true]
    constructor
    · rintro ⟨n, hn, -⟩
      obtain ⟨w, rest, heq, hall, hmatch⟩ := hnil.mp ⟨n, hn, by simp⟩
      exact ⟨[], w, rest, heq, hall, hmatch⟩
    · rintro ⟨l, w, rest, heq, hall, hmatch⟩
      obtain ⟨hlw, rfl⟩ := List.append_eq_nil_iff.mp heq.symm
      obtain ⟨rfl, rfl⟩ := List.append_eq_nil_iff.mp hlw
      obtain ⟨n, hn, -⟩ := hnil.mpr ⟨[], [], rfl, hall, hmatch⟩
      exact ⟨n, hn, trivial⟩
  | cons x xs ih =>
    intro prev
    rw [occurs, Bool.or_eq_true, List.any_eq_true, hhere, ih]
    constructor
    · rintro (⟨w, rest, heq, hall, hmatch⟩ | ⟨l, w, rest, rfl, hall, hmatch⟩)
      · exact ⟨[], w, rest, heq, hall, hmatch⟩
      · refine ⟨x :: l, w, rest, rfl, hall, ?_⟩
        rw [List.map_cons, ← List.singleton_append, before_append]
        exact hmatch
    · rintro ⟨l, w, rest, heq, hall, hmatch⟩
      cases l with
      | nil => exact .inl ⟨w, rest, heq, hall, hmatch⟩
      | cons y l =>
        obtain ⟨rfl, rfl⟩ := List.cons.inj heq
        rw [List.map_cons, ← List.singleton_append, before_append] at hmatch
        exact .inr ⟨l, w, rest, rfl, hall, hmatch⟩

end
end Regex
end SuperAi.Foundations
