import SuperAi.Foundations.Regex
import Mathlib.Data.List.Induction

/-! # Replacing matches

A global search cuts a text into its matches and what is between them, and a replacement puts something else in the
place of the matches. A text that the pattern keeps out of, and that has nothing in common with what is put in place,
is neither taken away nor made (`infix_replaceAll_iff`).
-/
namespace SuperAi.Foundations
namespace Regex
set_option autoImplicit false

universe u v

section
variable {α : Type u} {β : Type v} {r : Regex} {prev : Option Char}

/-- A match, or a letter between two matches. -/
inductive Chunk (α : Type u)
  | gap (x : α)
  | hit (m : List α)

def Chunk.source : Chunk α → List α
  | .gap x => [x]
  | .hit m => m

/-- What stands in the place of a chunk when matches are replaced. -/
def Chunk.replaced (f : List α → List α) : Chunk α → List α
  | .gap x => [x]
  | .hit m => f m

def Chunk.map (g : α → β) : Chunk α → Chunk β
  | .gap x => .gap (g x)
  | .hit m => .hit (m.map g)

/-- The matches of a global search from left to right, for a pattern that does not match the empty text. -/
def chunks (r : Regex) (letter : α → Char) : Option Char → ℕ → List α → List (Chunk α)
  | _, _, [] => []
  | _, skip + 1, x :: xs => chunks r letter (some (letter x)) skip xs
  | prev, 0, x :: xs =>
    match (run r prev ((x :: xs).map letter)).head? with
    | some (n + 1) => .hit ((x :: xs).take (n + 1)) :: chunks r letter (some (letter x)) n xs
    | _ => .gap x :: chunks r letter (some (letter x)) 0 xs

/-- `text.replace` with a pattern that has the `g` flag. -/
def replaceAll (r : Regex) (letter : α → Char) (f : List α → List α) (xs : List α) : List α :=
  (chunks r letter none 0 xs).flatMap (Chunk.replaced f)

/-- Each hit is a match where it stands. -/
def Cut (r : Regex) (letter : α → Char) : Option Char → List (Chunk α) → Prop
  | _, [] => True
  | _, .gap x :: cs => Cut r letter (some (letter x)) cs
  | prev, .hit m :: cs => m ≠ [] ∧ Matches r prev (m.map letter) ((cs.flatMap Chunk.source).map letter).head? ∧
      Cut r letter (before prev (m.map letter)) cs

theorem chunks_cases (r : Regex) (letter : α → Char) (prev : Option Char) (x : α) (xs : List α) :
    chunks r letter prev 0 (x :: xs) = .gap x :: chunks r letter (some (letter x)) 0 xs ∨
      ∃ n, n + 1 ∈ run r prev ((x :: xs).map letter) ∧ chunks r letter prev 0 (x :: xs) =
        .hit (x :: xs.take n) :: chunks r letter (some (letter x)) n xs := by
  rw [chunks]
  split
  · rename_i n hhead
    exact .inr ⟨n, List.mem_of_head? hhead, rfl⟩
  · exact .inl rfl

theorem source_chunks {letter : α → Char} (xs : List α) : ∀ (prev : Option Char) (skip : ℕ),
    (chunks r letter prev skip xs).flatMap Chunk.source = xs.drop skip := by
  induction xs with
  | nil =>
    intro prev skip
    rw [chunks, List.drop_nil]
    rfl
  | cons x xs ih =>
    intro prev skip
    cases skip with
    | succ skip =>
      rw [chunks, List.drop_succ_cons]
      exact ih _ _
    | zero =>
      obtain heq | ⟨n, -, heq⟩ := chunks_cases r letter prev x xs
      · rw [heq, List.flatMap_cons, ih]
        rfl
      · rw [heq, List.flatMap_cons, ih]
        exact congrArg (x :: ·) (List.take_append_drop n xs)

theorem cut_chunks {letter : α → Char} (xs : List α) : ∀ (prev : Option Char) (skip : ℕ),
    Cut r letter (before prev ((xs.take skip).map letter)) (chunks r letter prev skip xs) := by
  induction xs with
  | nil =>
    intro prev skip
    rw [chunks]
    trivial
  | cons x xs ih =>
    intro prev skip
    cases skip with
    | succ skip =>
      rw [chunks, List.take_succ_cons, List.map_cons, ← List.singleton_append, before_append]
      exact ih _ _
    | zero =>
      obtain heq | ⟨n, hn, heq⟩ := chunks_cases r letter prev x xs
      · rw [heq]
        exact ih _ 0
      · rw [heq]
        have hmatch := (mem_run_iff.mp hn).2
        rw [← List.map_take, ← List.map_drop] at hmatch
        refine ⟨List.cons_ne_nil _ _, ?_, ?_⟩
        · rw [source_chunks]
          exact hmatch
        · show Cut r letter (before prev ([letter x] ++ (xs.take n).map letter)) _
          rw [before_append]
          exact ih _ n

theorem chunks_map {letter : α → Char} {letter' : β → Char} {g : α → β} (hg : ∀ x, letter' (g x) = letter x)
    (xs : List α) : ∀ (prev : Option Char) (skip : ℕ),
    chunks r letter' prev skip (xs.map g) = (chunks r letter prev skip xs).map (Chunk.map g) := by
  have hletters : ∀ xs : List α, (xs.map g).map letter' = xs.map letter := by
    intro xs
    rw [List.map_map]
    exact List.map_congr_left fun x _ => hg x
  induction xs with
  | nil => intro prev skip; rw [chunks, List.map_nil, chunks, List.map_nil]
  | cons x xs ih =>
    intro prev skip
    cases skip with
    | succ skip =>
      rw [List.map_cons, chunks, chunks, ih, hg]
    | zero =>
      rw [List.map_cons, chunks, chunks, ← List.map_cons (f := g), hletters, hg]
      split
      · simp only [List.map_cons, ih, Chunk.map, List.map_take]
      · simp only [List.map_cons, ih, Chunk.map]

/-- Replacing is the same on what the letters are the marks of. -/
theorem replaceAll_map {letter : α → Char} {letter' : β → Char} {g : α → β} {f : List α → List α}
    {f' : List β → List β} (hg : ∀ x, letter' (g x) = letter x) (hf : ∀ m, f' (m.map g) = (f m).map g) (xs : List α) :
    replaceAll r letter' f' (xs.map g) = (replaceAll r letter f xs).map g := by
  unfold replaceAll
  rw [chunks_map hg, List.flatMap_map, List.map_flatMap]
  congr 1
  funext chunk
  cases chunk with
  | gap x => rfl
  | hit m => exact hf m

/-! ## Texts that no match touches -/

/-- The pattern has no match in the text, and avoids its first and its last letter. -/
def keepsOut (r : Regex) (text : List Char) : Bool :=
  (text.head?.any fun c => avoids c r) && (text.getLast?.any fun c => avoids c r) && !test r text

/-- A match beside such a text is before it or after it. -/
theorem Matches.outside {text a b l w rest : List Char} (hout : keepsOut r text = true) (hw : w ≠ [])
    (heq : a ++ (text ++ b) = l ++ (w ++ rest)) (hmatch : Matches r (before prev l) w rest.head?) :
    (∃ gap, a = l ++ w ++ gap) ∨ ∃ gap, l = a ++ text ++ gap := by
  simp only [keepsOut, Bool.and_eq_true, Bool.not_eq_true', Option.any_eq_true] at hout
  obtain ⟨⟨⟨first, hfirst, hfirstAvoided⟩, last, hlast, hlastAvoided⟩, htest⟩ := hout
  have hfirst' : first ∉ w := not_mem_of_avoids hfirstAvoided hmatch
  have hlast' : last ∉ w := not_mem_of_avoids hlastAvoided hmatch
  obtain ⟨m, hl, hrest⟩ | ⟨m, ha, hrest⟩ := List.append_eq_append_iff.mp heq
  · obtain ⟨gap, rfl, -⟩ | ⟨m', htext, hrest'⟩ := List.append_eq_append_iff.mp hrest
    · exact .inr ⟨gap, by rw [hl, List.append_assoc]⟩
    · obtain ⟨m'', hm', hrest''⟩ | ⟨gap, hw', -⟩ := List.append_eq_append_iff.mp hrest'
      · -- The match is within the text, and so it would be one there.
        exfalso
        have hm : m ≠ [] := by
          rintro rfl
          cases w with
          | nil => exact hw rfl
          | cons c w =>
            rw [htext, hm', List.nil_append, List.cons_append, List.head?_cons] at hfirst
            exact hfirst' (Option.some.inj hfirst ▸ List.mem_cons_self)
        have hm'' : m'' ≠ [] := by
          rintro rfl
          rw [htext, hm', List.append_nil, List.getLast?_append_of_ne_nil _ hw] at hlast
          exact hlast' (List.mem_of_getLast? hlast)
        have hoccurs : test r text = true := by
          refine occurs_iff.mpr ⟨m, w, m'', by rw [htext, hm', List.append_assoc], fun _ _ => rfl, ?_⟩
          rw [List.map_id, List.map_id, List.map_id, before_of_ne_nil hm none (before prev a), ← before_append, ← hl]
          rw [hrest'', List.head?_append_of_ne_nil _ hm''] at hmatch
          exact hmatch
        rw [htest] at hoccurs
        cases hoccurs
      · cases m' using List.reverseRecOn with
        | nil => exact .inr ⟨[], by rw [hl, htext, List.append_nil, List.append_nil]⟩
        | append_singleton m' c =>
          rw [htext, ← List.append_assoc, List.getLast?_concat] at hlast
          exact absurd (by rw [hw', Option.some.inj hlast]; simp) hlast'
  · obtain ⟨gap, rfl, -⟩ | ⟨m', hw', htext⟩ := List.append_eq_append_iff.mp hrest
    · exact .inl ⟨gap, by rw [ha, List.append_assoc]⟩
    · cases m' with
      | nil => exact .inl ⟨[], by rw [ha, hw', List.append_nil, List.append_nil]⟩
      | cons c m' =>
        have hhead := congrArg List.head? htext
        rw [List.cons_append, List.head?_cons, List.head?_append, hfirst, Option.some_or] at hhead
        exact absurd (by rw [hw', Option.some.inj hhead]; simp) hfirst'

theorem keepsOut_ne_nil {text : List Char} (h : keepsOut r text = true) : text ≠ [] := by
  rintro rfl
  cases h

/-- What is put in the place of a match is the match itself, or has nothing in common with the text. -/
def Foreign (f : List Char → List Char) (text : List Char) : Prop :=
  ∀ m, f m = m ∨ f m ≠ [] ∧ ∀ c ∈ f m, c ∉ text

section
variable {f : List Char → List Char} {text : List Char}

theorem prefix_append_mono {xs ys : List Char} (h : ∀ u, (∀ c ∈ u, c ∈ text) → u <+: xs → u <+: ys)
    (m : List Char) : ∀ {u : List Char}, (∀ c ∈ u, c ∈ text) → u <+: m ++ xs → u <+: m ++ ys := by
  induction m with
  | nil => exact fun hu hinitial => h _ hu hinitial
  | cons c m ih =>
    intro u hu hinitial
    cases u with
    | nil => exact List.nil_prefix
    | cons d u =>
      obtain ⟨rfl, htail⟩ := List.cons_prefix_cons.mp hinitial
      exact List.cons_prefix_cons.mpr ⟨rfl, ih (fun c hc => hu c (List.mem_cons_of_mem _ hc)) htail⟩

theorem prefix_of_replaced (hf : Foreign f text) (cs : List (Chunk Char)) : ∀ u : List Char, (∀ c ∈ u, c ∈ text) →
    u <+: cs.flatMap (Chunk.replaced f) → u <+: cs.flatMap Chunk.source := by
  induction cs with
  | nil => exact fun _ _ h => h
  | cons chunk cs ih =>
    intro u hu h
    rw [List.flatMap_cons] at h ⊢
    cases chunk with
    | gap x => exact prefix_append_mono ih [x] hu h
    | hit m =>
      obtain hm | ⟨hne, hforeign⟩ := hf m
      · rw [Chunk.replaced, hm] at h
        exact prefix_append_mono ih m hu h
      · cases u with
        | nil => exact List.nil_prefix
        | cons d u =>
          rw [Chunk.replaced] at h
          cases hfm : f m with
          | nil => exact absurd hfm hne
          | cons c rest =>
            rw [hfm] at h hforeign
            obtain ⟨rfl, -⟩ := List.cons_prefix_cons.mp h
            exact absurd (hu d List.mem_cons_self) (hforeign d List.mem_cons_self)

theorem infix_append_mono {xs ys : List Char} (hinitial : ∀ u, (∀ c ∈ u, c ∈ text) → u <+: xs → u <+: ys)
    (h : text <:+: xs → text <:+: ys) (m : List Char) : text <:+: m ++ xs → text <:+: m ++ ys := by
  induction m with
  | nil => exact h
  | cons c m ih =>
    intro hinfix
    obtain hstart | hlater := List.infix_cons_iff.mp hinfix
    · exact (prefix_append_mono hinitial (c :: m) (fun _ hc => hc) hstart).isInfix
    · exact List.infix_cons_iff.mpr (.inr (ih hlater))

theorem infix_of_foreign_append {foreign xs : List Char} (htext : text ≠ []) (hforeign : ∀ c ∈ foreign, c ∉ text)
    (h : text <:+: foreign ++ xs) : text <:+: xs := by
  induction foreign with
  | nil => exact h
  | cons c foreign ih =>
    obtain hstart | hlater := List.infix_cons_iff.mp h
    · cases text with
      | nil => exact absurd rfl htext
      | cons d text =>
        obtain ⟨rfl, -⟩ := List.cons_prefix_cons.mp hstart
        exact absurd List.mem_cons_self (hforeign d List.mem_cons_self)
    · exact ih (fun c hc => hforeign c (List.mem_cons_of_mem _ hc)) hlater

/-- Replacing does not make the text. -/
theorem infix_of_replaced (htext : text ≠ []) (hf : Foreign f text) (cs : List (Chunk Char))
    (h : text <:+: cs.flatMap (Chunk.replaced f)) : text <:+: cs.flatMap Chunk.source := by
  induction cs with
  | nil => exact h
  | cons chunk cs ih =>
    rw [List.flatMap_cons] at h ⊢
    cases chunk with
    | gap x => exact infix_append_mono (prefix_of_replaced hf cs) ih [x] h
    | hit m =>
      obtain hm | ⟨-, hforeign⟩ := hf m
      · rw [Chunk.replaced, hm] at h
        exact infix_append_mono (prefix_of_replaced hf cs) ih m h
      · exact (ih (infix_of_foreign_append htext hforeign h)).trans (List.suffix_append _ _).isInfix

/-- What is left of the text stays where it stands. -/
theorem prefix_replaced (hout : keepsOut r text = true) {a b : List Char} (cs : List (Chunk Char)) :
    ∀ {start u : List Char}, text = start ++ u → Cut r id (before none (a ++ start)) cs →
      cs.flatMap Chunk.source = u ++ b → u <+: cs.flatMap (Chunk.replaced f) := by
  induction cs with
  | nil =>
    intro start u _ _ hsource
    rw [(List.append_eq_nil_iff.mp hsource.symm).1]
    exact List.nil_prefix
  | cons chunk cs ih =>
    intro start u htext hcut hsource
    cases u with
    | nil => exact List.nil_prefix
    | cons d u =>
      cases chunk with
      | gap x =>
        obtain ⟨rfl, htail⟩ := List.cons.inj hsource
        have hrest : Cut r id (before none (a ++ (start ++ [x]))) cs := by
          rw [← List.append_assoc, before_append]
          exact hcut
        exact List.cons_prefix_cons.mpr ⟨rfl, ih (by rw [htext, List.append_assoc]; rfl) hrest htail⟩
      | hit m =>
        exfalso
        obtain ⟨hm, hmatch, -⟩ := hcut
        rw [List.map_id, List.map_id] at hmatch
        have heq : a ++ (text ++ b) = (a ++ start) ++ (m ++ cs.flatMap Chunk.source) := by
          rw [htext, List.append_assoc, List.append_assoc, ← hsource]
          rfl
        have hlength := congrArg List.length htext
        rw [List.length_append, List.length_cons] at hlength
        obtain ⟨gap, hgap⟩ | ⟨gap, hgap⟩ := Matches.outside hout hm heq hmatch
        · have hlength' := congrArg List.length hgap
          have hpos := List.length_pos_of_ne_nil hm
          simp only [List.length_append] at hlength'
          omega
        · have hlength' := congrArg List.length hgap
          simp only [List.length_append] at hlength'
          omega

/-- Replacing leaves the text where it stands. -/
theorem infix_replaced (hout : keepsOut r text = true) {b : List Char} (cs : List (Chunk Char)) :
    ∀ {start a : List Char}, Cut r id (before none start) cs → cs.flatMap Chunk.source = a ++ (text ++ b) →
      text <:+: cs.flatMap (Chunk.replaced f) := by
  induction cs with
  | nil =>
    intro start a _ hsource
    have hnil := (List.append_eq_nil_iff.mp (List.append_eq_nil_iff.mp hsource.symm).2).1
    exact absurd hnil (keepsOut_ne_nil hout)
  | cons chunk cs ih =>
    intro start a hcut hsource
    cases a with
    | nil =>
      have hcut' : Cut r id (before none (start ++ [])) (chunk :: cs) := by
        rw [List.append_nil]
        exact hcut
      exact (prefix_replaced hout (chunk :: cs) (List.nil_append text).symm hcut' hsource).isInfix
    | cons d a =>
      cases chunk with
      | gap x =>
        obtain ⟨rfl, htail⟩ := List.cons.inj hsource
        have hrest : Cut r id (before none (start ++ [x])) cs := by
          rw [before_append]
          exact hcut
        exact (ih hrest htail).trans (List.suffix_cons _ _).isInfix
      | hit m =>
        obtain ⟨hm, hmatch, hcut'⟩ := hcut
        rw [List.map_id, List.map_id] at hmatch
        rw [List.map_id, ← before_append] at hcut'
        have heq : (start ++ d :: a) ++ (text ++ b) = start ++ (m ++ cs.flatMap Chunk.source) := by
          rw [List.append_assoc, ← hsource]
          rfl
        obtain ⟨gap, hgap⟩ | ⟨gap, hgap⟩ := Matches.outside hout hm heq hmatch
        · rw [List.append_assoc] at hgap
          have ha := List.append_cancel_left hgap
          have hsource' : m ++ cs.flatMap Chunk.source = (m ++ gap) ++ (text ++ b) := by
            rw [← ha, ← hsource]
            rfl
          rw [List.append_assoc] at hsource'
          exact (ih hcut' (List.append_cancel_left hsource')).trans (List.suffix_append _ _).isInfix
        · have hlength := congrArg List.length hgap
          simp only [List.length_append, List.length_cons] at hlength
          omega

/-- Replacing neither takes such a text away nor makes one. -/
theorem infix_replaceAll_iff (hout : keepsOut r text = true) (hf : Foreign f text) (xs : List Char) :
    text <:+: replaceAll r id f xs ↔ text <:+: xs := by
  have hsource : (chunks r id none 0 xs).flatMap Chunk.source = xs := source_chunks xs none 0
  constructor
  · intro h
    rw [← hsource]
    exact infix_of_replaced (keepsOut_ne_nil hout) hf _ h
  · rintro ⟨a, b, rfl⟩
    exact infix_replaced hout _ (cut_chunks (a ++ text ++ b) none 0) (hsource.trans (List.append_assoc a text b))

end

end
end Regex
end SuperAi.Foundations
