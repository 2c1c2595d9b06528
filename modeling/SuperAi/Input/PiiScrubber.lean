import SuperAi.Foundations.RegexReplace

/-! # Scrubbing personal data

`PiiScrubber.scrub` (`input/pii.scrubber.ts`): eight patterns one after the other, each over the text that the ones
before it have left. The same passes over marked letters tell which letters of the text have been redacted
(`redactions`). No pattern touches what an earlier one has put in place (`blocks_scrubMarks`), and so what a text
holds after scrubbing, it holds at a place that no redaction touches (`test_scrubbed_iff`).
-/
namespace SuperAi.Input
open SuperAi.Foundations
set_option autoImplicit false

inductive PiiType
  | CARD_NUMBER
  | CVV
  | EXPIRY_DATE
  | PHONE_NUMBER
  | EMAIL_ADDRESS
  | NATIONAL_ID
  | IBAN
  | SWIFT_CODE
  deriving DecidableEq, Repr

structure PiiDetection where
  type : PiiType
  placeholder : String
  deriving DecidableEq, Repr

structure ScrubResult where
  scrubbed : List Char
  detections : List PiiDetection
  deriving DecidableEq, Repr

structure PatternEntry where
  type : PiiType
  pattern : Regex
  placeholder : String
  validate : List Char → Bool := fun _ => true

def digitsOf (text : List Char) : List Char := text.filter Regex.digit.has

/-- The sum of the digits from the right, every second one doubled and, above nine, less nine. -/
def luhnSum : Bool → List ℕ → ℕ
  | _, [] => 0
  | alternate, n :: ns => (if alternate then (if 2 * n > 9 then 2 * n - 9 else 2 * n) else n) + luhnSum (!alternate) ns

def passesLuhn (digits : List Char) : Bool :=
  luhnSum false (digits.reverse.map fun c => c.toNat - '0'.toNat) % 10 == 0

section
open Regex

def upper : CharSet := [('A', 'Z')]

def upperOrDigit : CharSet := [('A', 'Z'), ('0', '9')]

def letters : CharSet := [('A', 'Z'), ('a', 'z')]

/-- `[-.\s]`. -/
def phoneSeparator : CharSet := oneOf '-' ++ oneOf '.' ++ space

/-- `/\b(\d[ -]?){12,18}\d\b/g`. -/
def cardPattern : Regex :=
  sequence [wordBoundary, between (.seq (.one digit) (optional (.one (oneOf ' ' ++ oneOf '-')))) 12 6, .one digit,
    wordBoundary]

/-- `/\bCVV[:\s]*(\d{3,4})\b/gi`. -/
def cvvPattern : Regex :=
  sequence [wordBoundary, word "CVV", .many (oneOf ':' ++ space), between (.one digit) 3 1, wordBoundary]

/-- `/\b(0[1-9]|1[0-2])\/(\d{2}|\d{4})\b/g`. -/
def expiryPattern : Regex :=
  sequence [wordBoundary,
    .alt (.seq (.one (oneOf '0')) (.one [('1', '9')])) (.seq (.one (oneOf '1')) (.one [('0', '2')])),
    .one (oneOf '/'), .alt (times (.one digit) 2) (times (.one digit) 4), wordBoundary]

/-- `/\b[A-Z]{2}\d{2}[\s]?[\dA-Z]{4}[\s]?(?:[\dA-Z]{4}[\s]?){1,7}[\dA-Z]{1,4}\b/g`. -/
def ibanPattern : Regex :=
  sequence [wordBoundary, times (.one upper) 2, times (.one digit) 2, optional (.one space),
    times (.one upperOrDigit) 4, optional (.one space),
    between (.seq (times (.one upperOrDigit) 4) (optional (.one space))) 1 6, between (.one upperOrDigit) 1 3,
    wordBoundary]

/-- `/\b[A-Z]{6}[A-Z0-9]{2}(?:[A-Z0-9]{3})?\b/g`. -/
def swiftPattern : Regex :=
  sequence [wordBoundary, times (.one upper) 6, times (.one upperOrDigit) 2,
    optional (times (.one upperOrDigit) 3), wordBoundary]

/-- `/\b[A-Za-z0-9._%+-]+@[A-Za-z0-9.-]+\.[A-Za-z]{2,}\b/g`. -/
def emailPattern : Regex :=
  sequence [wordBoundary, atLeastOne (wordChars ++ oneOf '.' ++ oneOf '%' ++ oneOf '+' ++ oneOf '-'), .one (oneOf '@'),
    atLeastOne (letters ++ digit ++ oneOf '.' ++ oneOf '-'), .one (oneOf '.'), .one letters, atLeastOne letters,
    wordBoundary]

/-- `/\b\d{3}-\d{2}-\d{4}\b/g`. -/
def nationalIdPattern : Regex :=
  sequence [wordBoundary, times (.one digit) 3, .one (oneOf '-'), times (.one digit) 2, .one (oneOf '-'),
    times (.one digit) 4, wordBoundary]

/-- `/(?:\+?1[-.\s]?)?(?:\(?\d{3}\)?[-.\s]?)?\d{3}[-.\s]?\d{4}\b/g`. -/
def phonePattern : Regex :=
  sequence [
    optional (sequence [optional (.one (oneOf '+')), .one (oneOf '1'), optional (.one phoneSeparator)]),
    optional (sequence [optional (.one (oneOf '(')), times (.one digit) 3, optional (.one (oneOf ')')),
      optional (.one phoneSeparator)]),
    times (.one digit) 3, optional (.one phoneSeparator), times (.one digit) 4, wordBoundary]

end

def PATTERNS : List PatternEntry :=
  [{ type := .CARD_NUMBER
     pattern := cardPattern
     placeholder := "[CARD_NUMBER_REDACTED]"
     validate := fun m => decide (13 ≤ (digitsOf m).length) && decide ((digitsOf m).length ≤ 19) && passesLuhn (digitsOf m) },
    { type := .CVV, pattern := cvvPattern, placeholder := "[CVV_REDACTED]" },
    { type := .EXPIRY_DATE, pattern := expiryPattern, placeholder := "[EXPIRY_DATE_REDACTED]" },
    { type := .IBAN
      pattern := ibanPattern
      placeholder := "[IBAN_REDACTED]"
      validate := fun m =>
        let cleaned := m.filter fun c => !Regex.space.has c
        decide (15 ≤ cleaned.length) && decide (cleaned.length ≤ 34) },
    { type := .SWIFT_CODE, pattern := swiftPattern, placeholder := "[SWIFT_CODE_REDACTED]" },
    { type := .EMAIL_ADDRESS, pattern := emailPattern, placeholder := "[EMAIL_ADDRESS_REDACTED]" },
    { type := .NATIONAL_ID, pattern := nationalIdPattern, placeholder := "[NATIONAL_ID_REDACTED]" },
    { type := .PHONE_NUMBER
      pattern := phonePattern
      placeholder := "[PHONE_NUMBER_REDACTED]"
      validate := fun m => decide (10 ≤ (digitsOf m).length) && decide ((digitsOf m).length ≤ 15) }]

namespace PatternEntry
variable (entry : PatternEntry)

/-- What a match is replaced by. -/
def replacement (m : List Char) : List Char := if entry.validate m then entry.placeholder.toList else m

def detection : Regex.Chunk Char → Option PiiDetection
  | .gap _ => none
  | .hit m => if entry.validate m then some ⟨entry.type, entry.placeholder⟩ else none

/-- One round of the loop over the patterns. -/
def pass (result : ScrubResult) : ScrubResult where
  scrubbed := Regex.replaceAll entry.pattern id entry.replacement result.scrubbed
  detections := result.detections ++ (Regex.chunks entry.pattern id none 0 result.scrubbed).filterMap entry.detection

end PatternEntry

def scrub (text : List Char) : ScrubResult := PATTERNS.foldl (fun result entry => entry.pass result) ⟨text, []⟩

example : scrub "Call 415-555-2671".toList = ⟨"Call [PHONE_NUMBER_REDACTED]".toList,
    [⟨.PHONE_NUMBER, "[PHONE_NUMBER_REDACTED]"⟩]⟩ := by decide +kernel

/-! ## What has been redacted -/

/-- A letter of the text, or one of a placeholder, the first of which has what it stands for. -/
inductive Mark
  | kept (c : Char)
  | redacted (c : Char) (raw : List Char)
  deriving DecidableEq, Repr

namespace Mark

def letter : Mark → Char
  | kept c => c
  | redacted c _ => c

def isKept : Mark → Bool
  | kept _ => true
  | redacted _ _ => false

/-- The letters of the text, with whether they have been kept. -/
def source : Mark → List (Char × Bool)
  | kept c => [(c, true)]
  | redacted _ raw => raw.map fun c => (c, false)

end Mark

def placeholderMarks (raw : List Char) : List Char → List Mark
  | [] => []
  | c :: cs => .redacted c raw :: cs.map fun d => .redacted d []

/-- The text that marks stand for. -/
def rawText (marks : List Mark) : List Char := (marks.flatMap Mark.source).map Prod.fst

namespace PatternEntry

def markReplacement (entry : PatternEntry) (m : List Mark) : List Mark :=
  if entry.validate (m.map Mark.letter) then placeholderMarks (rawText m) entry.placeholder.toList else m

def markPass (entry : PatternEntry) (marks : List Mark) : List Mark :=
  Regex.replaceAll entry.pattern Mark.letter entry.markReplacement marks

end PatternEntry

/-- The passes over marked letters. -/
def scrubMarks (text : List Char) : List Mark :=
  PATTERNS.foldl (fun marks entry => entry.markPass marks) (text.map Mark.kept)

/-- The letters of the text, each with whether it has been kept. -/
def redactions (text : List Char) : List (Char × Bool) := (scrubMarks text).flatMap Mark.source

theorem letters_placeholderMarks (raw placeholder : List Char) :
    (placeholderMarks raw placeholder).map Mark.letter = placeholder := by
  cases placeholder with
  | nil => rfl
  | cons c cs =>
    rw [placeholderMarks, List.map_cons, List.map_map]
    exact congrArg (c :: ·) (List.map_id cs)

theorem source_placeholderMarks (raw : List Char) {placeholder : List Char} (h : placeholder ≠ []) :
    (placeholderMarks raw placeholder).flatMap Mark.source = raw.map fun c => (c, false) := by
  cases placeholder with
  | nil => exact absurd rfl h
  | cons c cs =>
    have hrest : (cs.map fun d => Mark.redacted d []).flatMap Mark.source = [] := by
      rw [List.flatMap_map]
      exact List.flatMap_eq_nil_iff.mpr fun _ _ => rfl
    rw [placeholderMarks, List.flatMap_cons, hrest, List.append_nil]
    rfl

theorem not_kept_of_mem_placeholderMarks {raw placeholder : List Char} {x : Mark}
    (h : x ∈ placeholderMarks raw placeholder) : x.isKept = false := by
  cases placeholder with
  | nil => exact absurd h List.not_mem_nil
  | cons c cs =>
    obtain rfl | h := List.mem_cons.mp h
    · rfl
    · obtain ⟨d, -, rfl⟩ := List.mem_map.mp h
      rfl

/-- The marked letters are those of the scrubbed text. -/
theorem letters_scrubMarks (text : List Char) : (scrubMarks text).map Mark.letter = (scrub text).scrubbed := by
  have hpass : ∀ (entry : PatternEntry) (marks : List Mark) (result : ScrubResult),
      marks.map Mark.letter = result.scrubbed →
        (entry.markPass marks).map Mark.letter = (entry.pass result).scrubbed := by
    intro entry marks result h
    have hreplacement : ∀ m : List Mark, entry.replacement (m.map Mark.letter) =
        (entry.markReplacement m).map Mark.letter := by
      intro m
      unfold PatternEntry.replacement PatternEntry.markReplacement
      split
      · exact (letters_placeholderMarks _ _).symm
      · rfl
    have hletter : ∀ x : Mark, id x.letter = x.letter := fun _ => rfl
    rw [PatternEntry.markPass, PatternEntry.pass, ← h]
    exact (Regex.replaceAll_map hletter hreplacement marks).symm
  have hstart : (text.map Mark.kept).map Mark.letter = text := by
    rw [List.map_map]
    exact List.map_id text
  unfold scrubMarks scrub
  exact @List.foldl_rel _ _ _ PATTERNS _ _ _ ⟨text, []⟩ (fun marks result => marks.map Mark.letter = result.scrubbed)
    hstart fun entry _ marks result h => hpass entry marks result h

@[simp] theorem rawText_append (xs ys : List Mark) : rawText (xs ++ ys) = rawText xs ++ rawText ys := by
  rw [rawText, List.flatMap_append, List.map_append]
  rfl

theorem placeholder_ne_nil {entry : PatternEntry} (h : entry ∈ PATTERNS) : entry.placeholder.toList ≠ [] := by
  have hall : ∀ placeholder ∈ PATTERNS.map PatternEntry.placeholder, placeholder.toList ≠ [] := by decide +kernel
  exact hall _ (List.mem_map_of_mem h)

/-- The marks stand for the text that was scrubbed. -/
theorem redactions_text (text : List Char) : (redactions text).map Prod.fst = text := by
  have hreplacement : ∀ entry ∈ PATTERNS, ∀ m, rawText (entry.markReplacement m) = rawText m := by
    intro entry hentry m
    unfold PatternEntry.markReplacement
    split
    · rw [rawText, source_placeholderMarks _ (placeholder_ne_nil hentry), List.map_map]
      exact List.map_id _
    · rfl
  have hpass : ∀ entry ∈ PATTERNS, ∀ marks, rawText (entry.markPass marks) = rawText marks := by
    intro entry hentry marks
    have hchunks : ∀ cs : List (Regex.Chunk Mark),
        rawText (cs.flatMap (Regex.Chunk.replaced entry.markReplacement)) = rawText (cs.flatMap Regex.Chunk.source) := by
      intro cs
      induction cs with
      | nil => rfl
      | cons chunk cs ih =>
        rw [List.flatMap_cons, List.flatMap_cons, rawText_append, rawText_append, ih]
        cases chunk with
        | gap x => rfl
        | hit m => exact congrArg (· ++ _) (hreplacement entry hentry m)
    have hsource : (Regex.chunks entry.pattern Mark.letter none 0 marks).flatMap Regex.Chunk.source = marks :=
      Regex.source_chunks marks none 0
    rw [PatternEntry.markPass, Regex.replaceAll, hchunks, hsource]
  have hstart : rawText (text.map Mark.kept) = text := by
    induction text with
    | nil => rfl
    | cons c text ih => exact congrArg (c :: ·) ih
  have hfold : rawText (PATTERNS.foldl (fun marks entry => entry.markPass marks) (text.map Mark.kept)) = text :=
    List.foldlRecOn (motive := fun marks => rawText marks = text) PATTERNS _ hstart
      fun marks h entry hentry => (hpass entry hentry marks).trans h
  rw [redactions, scrubMarks]
  exact hfold

/-! ## Placeholders stay whole -/

/-- Kept letters and whole placeholders. -/
inductive Blocks : List Mark → Prop
  | nil : Blocks []
  | kept (c : Char) {marks : List Mark} (h : Blocks marks) : Blocks (.kept c :: marks)
  | placeholder {entry : PatternEntry} (hentry : entry ∈ PATTERNS) {raw : List Char} (hraw : raw ≠ [])
      {marks : List Mark} (h : Blocks marks) : Blocks (placeholderMarks raw entry.placeholder.toList ++ marks)

namespace Blocks

theorem of_text (text : List Char) : Blocks (text.map Mark.kept) := by
  induction text with
  | nil => exact .nil
  | cons c text ih => exact .kept c ih

theorem append {xs ys : List Mark} (hx : Blocks xs) (hy : Blocks ys) : Blocks (xs ++ ys) := by
  induction hx with
  | nil => exact hy
  | kept c _ ih => exact .kept c ih
  | placeholder hentry hraw _ ih =>
    rw [List.append_assoc]
    exact .placeholder hentry hraw ih

/-- A letter that has not been kept is in a placeholder. -/
theorem of_redacted {marks : List Mark} (h : Blocks marks) : ∀ {l r : List Mark} {x : Mark}, marks = l ++ x :: r →
    x.isKept = false → ∃ entry ∈ PATTERNS, ∃ (raw : List Char) (l' r' start rest : List Mark),
      l = l' ++ start ∧ r = rest ++ r' ∧ start ++ x :: rest = placeholderMarks raw entry.placeholder.toList := by
  induction h with
  | nil => intro l r x heq _; simp at heq
  | kept c h ih =>
    intro l r x heq hx
    cases l with
    | nil =>
      obtain ⟨rfl, -⟩ := List.cons.inj heq
      cases hx
    | cons y l =>
      obtain ⟨rfl, htail⟩ := List.cons.inj heq
      obtain ⟨entry, hentry, raw, l', r', start, rest, rfl, rfl, hblock⟩ := ih htail hx
      exact ⟨entry, hentry, raw, .kept c :: l', r', start, rest, rfl, rfl, hblock⟩
  | @placeholder entry hentry raw hraw marks h ih =>
    intro l r x heq hx
    obtain ⟨m, rfl, hmarks⟩ | ⟨m, hblock, hr⟩ := List.append_eq_append_iff.mp heq
    · obtain ⟨entry', hentry', raw', l', r', start, rest, rfl, rfl, hblock⟩ := ih hmarks hx
      exact ⟨entry', hentry', raw', _ ++ l', r', start, rest, (List.append_assoc _ _ _).symm, rfl, hblock⟩
    · cases m with
      | nil =>
        obtain ⟨entry', hentry', raw', l', r', start, rest, hl, rfl, hblock'⟩ := ih (l := []) hr.symm hx
        obtain ⟨rfl, rfl⟩ := List.append_eq_nil_iff.mp hl.symm
        exact ⟨entry', hentry', raw', l, r', [], rest, (List.append_nil l).symm, rfl, hblock'⟩
      | cons y m =>
        obtain ⟨rfl, rfl⟩ := List.cons.inj hr
        exact ⟨entry, hentry, raw, [], marks, l, m, rfl, rfl, hblock.symm⟩

/-- Marks can be cut at a letter that has been kept. -/
theorem split {marks : List Mark} (h : Blocks marks) : ∀ {l r : List Mark} {x : Mark}, marks = l ++ x :: r →
    x.isKept = true → Blocks l ∧ Blocks r := by
  induction h with
  | nil => intro l r x heq _; simp at heq
  | kept c h ih =>
    intro l r x heq hx
    cases l with
    | nil =>
      obtain ⟨-, rfl⟩ := List.cons.inj heq
      exact ⟨.nil, h⟩
    | cons y l =>
      obtain ⟨rfl, htail⟩ := List.cons.inj heq
      exact ⟨.kept c (ih htail hx).1, (ih htail hx).2⟩
  | placeholder hentry hraw h ih =>
    intro l r x heq hx
    obtain ⟨m, rfl, hmarks⟩ | ⟨m, hblock, hr⟩ := List.append_eq_append_iff.mp heq
    · exact ⟨.placeholder hentry hraw (ih hmarks hx).1, (ih hmarks hx).2⟩
    · cases m with
      | nil =>
        rw [List.append_nil] at hblock
        have hrest := ih (l := []) hr.symm hx
        rw [← hblock, ← List.append_nil (placeholderMarks _ _)]
        exact ⟨.placeholder hentry hraw .nil, hrest.2⟩
      | cons y m =>
        obtain ⟨rfl, -⟩ := List.cons.inj hr
        have hnot := not_kept_of_mem_placeholderMarks (hblock ▸ List.mem_append_right l List.mem_cons_self)
        rw [hx] at hnot
        cases hnot

theorem of_kept_append {m rest : List Mark} (hm : ∀ x ∈ m, x.isKept = true) (h : Blocks (m ++ rest)) :
    Blocks rest := by
  induction m with
  | nil => exact h
  | cons x m ih =>
    exact ih (fun y hy => hm y (List.mem_cons_of_mem _ hy)) (h.split (l := []) rfl (hm x List.mem_cons_self)).2

end Blocks

/-! ## Matches beside placeholders -/

/-- The pattern touches no placeholder. -/
def PassesPlaceholders (r : Regex) : Prop := ∀ entry ∈ PATTERNS, Regex.keepsOut r entry.placeholder.toList = true

theorem patterns_passPlaceholders {entry : PatternEntry} (h : entry ∈ PATTERNS) : PassesPlaceholders entry.pattern := by
  have hall : ∀ pattern ∈ PATTERNS.map PatternEntry.pattern, ∀ placeholder ∈ PATTERNS.map PatternEntry.placeholder,
      Regex.keepsOut pattern placeholder.toList = true := by decide +kernel
  exact fun other hother => hall _ (List.mem_map_of_mem h) _ (List.mem_map_of_mem hother)

/-- A match in the marked letters is of kept letters. -/
theorem kept_of_matches {r : Regex} (hr : PassesPlaceholders r) {prev : Option Char} {l m rest : List Mark}
    (hblocks : Blocks (l ++ (m ++ rest))) (hm : m ≠ [])
    (hmatch : r.Matches (Regex.before prev (l.map Mark.letter)) (m.map Mark.letter) (rest.map Mark.letter).head?) :
    ∀ x ∈ m, x.isKept = true := by
  intro x hx
  by_contra hredacted
  obtain ⟨m₁, m₂, rfl⟩ := List.append_of_mem hx
  have hmarks : l ++ ((m₁ ++ x :: m₂) ++ rest) = (l ++ m₁) ++ x :: (m₂ ++ rest) := by simp
  obtain ⟨entry, hentry, raw, l', r', start, tail, hl, htail, hblock⟩ :=
    hblocks.of_redacted hmarks (Bool.eq_false_iff.mpr hredacted)
  have htext : entry.placeholder.toList = (start ++ x :: tail).map Mark.letter := by
    rw [hblock, letters_placeholderMarks]
  have heq : l'.map Mark.letter ++ (entry.placeholder.toList ++ r'.map Mark.letter) =
      l.map Mark.letter ++ ((m₁ ++ x :: m₂).map Mark.letter ++ rest.map Mark.letter) := by
    have hall : l' ++ ((start ++ x :: tail) ++ r') = l ++ ((m₁ ++ x :: m₂) ++ rest) := by
      rw [hmarks, hl, htail]
      simp
    rw [htext]
    simpa using congrArg (List.map Mark.letter) hall
  have hlength := congrArg List.length hl
  have hlength' := congrArg List.length htext
  obtain ⟨gap, hgap⟩ | ⟨gap, hgap⟩ := Regex.Matches.outside (hr entry hentry) (by simp) heq hmatch
  · have hpos := congrArg List.length hgap
    simp at hlength hpos
    omega
  · have hpos := congrArg List.length hgap
    simp at hlength hlength' hpos
    omega

/-- A pass keeps the placeholders whole. -/
theorem Blocks.replaced {entry : PatternEntry} (hentry : entry ∈ PATTERNS) {prev : Option Char}
    (cs : List (Regex.Chunk Mark)) : ∀ {l done : List Mark},
    Regex.Cut entry.pattern Mark.letter (Regex.before prev (l.map Mark.letter)) cs →
    Blocks (l ++ cs.flatMap Regex.Chunk.source) → Blocks (done ++ cs.flatMap Regex.Chunk.source) →
    Blocks (done ++ cs.flatMap (Regex.Chunk.replaced entry.markReplacement)) := by
  induction cs with
  | nil => exact fun _ _ h => h
  | cons chunk cs ih =>
    intro l done hcut hl hdone
    rw [List.flatMap_cons] at hl hdone ⊢
    cases chunk with
    | gap x =>
      have hcut' : Regex.Cut entry.pattern Mark.letter (Regex.before prev ((l ++ [x]).map Mark.letter)) cs := by
        rw [List.map_append, Regex.before_append]
        exact hcut
      have hnext := @ih (l ++ [x]) (done ++ [x]) hcut' (by rw [List.append_assoc]; exact hl)
        (by rw [List.append_assoc]; exact hdone)
      rw [List.append_assoc] at hnext
      exact hnext
    | hit m =>
      obtain ⟨hm, hmatch, hcut⟩ := hcut
      have hcut' : Regex.Cut entry.pattern Mark.letter (Regex.before prev ((l ++ m).map Mark.letter)) cs := by
        rw [List.map_append, Regex.before_append]
        exact hcut
      have hl' : Blocks ((l ++ m) ++ cs.flatMap Regex.Chunk.source) := by
        rw [List.append_assoc]
        exact hl
      have hkept := kept_of_matches (patterns_passPlaceholders hentry) hl hm hmatch
      rw [Regex.Chunk.replaced, ← List.append_assoc]
      refine ih hcut' hl' ?_
      unfold PatternEntry.markReplacement
      by_cases hvalid : entry.validate (m.map Mark.letter) = true
      · rw [if_pos hvalid]
        cases m with
        | nil => exact absurd rfl hm
        | cons x m =>
          have hraw : rawText (x :: m) ≠ [] := by
            have hx := hkept x List.mem_cons_self
            cases x with
            | kept c => simp [rawText, Mark.source]
            | redacted c raw => cases hx
          have hparts := hdone.split (l := done) (r := m ++ cs.flatMap Regex.Chunk.source) rfl
            (hkept x List.mem_cons_self)
          have hrest := hparts.2.of_kept_append fun y hy => hkept y (List.mem_cons_of_mem _ hy)
          rw [List.append_assoc]
          exact hparts.1.append (.placeholder hentry hraw hrest)
      · rw [if_neg hvalid, List.append_assoc]
        exact hdone

theorem blocks_scrubMarks (text : List Char) : Blocks (scrubMarks text) := by
  have hpass : ∀ entry ∈ PATTERNS, ∀ marks, Blocks marks → Blocks (entry.markPass marks) := by
    intro entry hentry marks hblocks
    have hsource : (Regex.chunks entry.pattern Mark.letter none 0 marks).flatMap Regex.Chunk.source = marks :=
      Regex.source_chunks marks none 0
    have hstart : Blocks ([] ++ (Regex.chunks entry.pattern Mark.letter none 0 marks).flatMap Regex.Chunk.source) := by
      rw [hsource]
      exact hblocks
    exact @Blocks.replaced entry hentry none _ [] [] (Regex.cut_chunks marks none 0) hstart hstart
  unfold scrubMarks
  exact List.foldlRecOn PATTERNS _ (.of_text text) fun marks h entry hentry => hpass entry hentry marks h

/-! ## What the scrubbed text holds -/

theorem Blocks.source_ne_nil {marks : List Mark} (h : Blocks marks) (hne : marks ≠ []) :
    marks.flatMap Mark.source ≠ [] := by
  cases h with
  | nil => exact absurd rfl hne
  | kept c h => simp [Mark.source]
  | placeholder hentry hraw h =>
    rw [List.flatMap_append, source_placeholderMarks _ (placeholder_ne_nil hentry)]
    simp [hraw]

theorem source_of_kept {m : List Mark} (h : ∀ x ∈ m, x.isKept = true) :
    m.flatMap Mark.source = m.map fun x => (x.letter, true) := by
  induction m with
  | nil => rfl
  | cons x m ih =>
    have hx := h x List.mem_cons_self
    rw [List.flatMap_cons, ih fun y hy => h y (List.mem_cons_of_mem _ hy)]
    cases x with
    | kept c => rfl
    | redacted c raw => cases hx

/-- Kept letters that stand together in the text stand together in what is left. -/
theorem Blocks.of_kept_run {marks : List Mark} (h : Blocks marks) : ∀ {l w rest : List (Char × Bool)},
    marks.flatMap Mark.source = l ++ (w ++ rest) → w ≠ [] → (∀ x ∈ w, x.2 = true) →
    ∃ l' m rest', marks = l' ++ (m ++ rest') ∧ m.map Mark.letter = w.map Prod.fst ∧ (l' = [] ↔ l = []) := by
  induction h with
  | nil =>
    intro l w rest heq hw _
    exact absurd (List.append_eq_nil_iff.mp (List.append_eq_nil_iff.mp heq.symm).2).1 hw
  | kept c h ih =>
    intro l w rest heq hw hall
    cases l with
    | nil =>
      cases w with
      | nil => exact absurd rfl hw
      | cons x w =>
        obtain ⟨rfl, htail⟩ := List.cons.inj heq
        by_cases hw' : w = []
        · subst hw'
          exact ⟨[], [.kept c], _, rfl, rfl, iff_of_true rfl rfl⟩
        · obtain ⟨l', m, rest', rfl, hletters, hnil⟩ :=
            ih (l := []) htail hw' fun x hx => hall x (List.mem_cons_of_mem _ hx)
          obtain rfl := hnil.mpr rfl
          exact ⟨[], .kept c :: m, rest', rfl, congrArg (c :: ·) hletters, iff_of_true rfl rfl⟩
    | cons y l =>
      obtain ⟨-, htail⟩ := List.cons.inj heq
      obtain ⟨l', m, rest', rfl, hletters, -⟩ := ih htail hw hall
      exact ⟨.kept c :: l', m, rest', rfl, hletters, by simp⟩
  | @placeholder entry hentry raw hraw marks h ih =>
    intro l w rest heq hw hall
    rw [List.flatMap_append, source_placeholderMarks _ (placeholder_ne_nil hentry)] at heq
    have hafter : ∃ l₂, l = (raw.map fun c => (c, false)) ++ l₂ ∧ marks.flatMap Mark.source = l₂ ++ (w ++ rest) := by
      obtain ⟨l₂, hl, hmarks⟩ | ⟨u, hblock, hu⟩ := List.append_eq_append_iff.mp heq
      · exact ⟨l₂, hl, hmarks⟩
      · cases u with
        | nil => exact ⟨[], by rw [hblock, List.append_nil, List.append_nil], hu.symm⟩
        | cons x u =>
          cases w with
          | nil => exact absurd rfl hw
          | cons y w =>
            obtain ⟨rfl, -⟩ := List.cons.inj hu
            have hmem : y ∈ raw.map fun c => (c, false) := hblock ▸ List.mem_append_right l List.mem_cons_self
            obtain ⟨c, -, rfl⟩ := List.mem_map.mp hmem
            cases hall _ List.mem_cons_self
    obtain ⟨l₂, rfl, hmarks⟩ := hafter
    obtain ⟨l', m, rest', rfl, hletters, -⟩ := ih hmarks hw hall
    refine ⟨placeholderMarks raw entry.placeholder.toList ++ l', m, rest', (List.append_assoc _ _ _).symm, hletters, ?_⟩
    have hblock : placeholderMarks raw entry.placeholder.toList ≠ [] := by
      intro hnil
      have hletter := letters_placeholderMarks raw entry.placeholder.toList
      rw [hnil] at hletter
      exact placeholder_ne_nil hentry hletter.symm
    simp [hblock, hraw]

/-- The pattern matches somewhere in the text where no redaction touches it. -/
def survives (r : Regex) (text : List Char) : Bool := r.occurs Prod.fst Prod.snd none (redactions text)

/-- **Scrubbing hides only what it touches.** A pattern that touches no placeholder matches in the scrubbed text just
if it matches in the text itself where no redaction touches it. -/
theorem test_scrubbed_iff {r : Regex} (hr : PassesPlaceholders r) (hboundary : r.noBoundary = true)
    (hnullable : r.nullable = false) (text : List Char) :
    r.test (scrub text).scrubbed = survives r text := by
  have hcontext : ∀ l l' : List Char, (l = [] ↔ l' = []) → (Regex.before none l = none ↔ Regex.before none l' = none) := by
    intro l l' h
    simp only [Regex.before, Option.or_none, List.getLast?_eq_none_iff]
    exact h
  have hblocks := blocks_scrubMarks text
  rw [Bool.eq_iff_iff, Regex.test, survives, Regex.occurs_iff, Regex.occurs_iff, ← letters_scrubMarks]
  simp only [List.map_id]
  constructor
  · rintro ⟨l, w, rest, heq, -, hmatch⟩
    rw [List.append_assoc] at heq
    obtain ⟨l', tail, hmarks, rfl, htail⟩ := List.map_eq_append_iff.mp heq
    obtain ⟨m, rest', rfl, rfl, rfl⟩ := List.map_eq_append_iff.mp htail
    rw [hmarks] at hblocks
    have hm : m ≠ [] := by
      rintro rfl
      exact hmatch.ne_nil hnullable rfl
    have hkept := kept_of_matches hr hblocks hm hmatch
    refine ⟨l'.flatMap Mark.source, m.flatMap Mark.source, rest'.flatMap Mark.source, ?_, ?_, ?_⟩
    · rw [redactions, hmarks, List.flatMap_append, List.flatMap_append, List.append_assoc]
    · rw [source_of_kept hkept]
      intro x hx
      obtain ⟨y, -, rfl⟩ := List.mem_map.mp hx
      rfl
    · rw [source_of_kept hkept, List.map_map]
      refine hmatch.of_context hboundary (hcontext _ _ ?_)
      rw [List.map_eq_nil_iff, List.map_eq_nil_iff]
      constructor
      · rintro rfl
        rfl
      · intro hnil
        by_contra hne
        cases m with
        | nil => exact hm rfl
        | cons x m =>
          have hl' := (hblocks.split (l := l') (r := m ++ rest') rfl (hkept x List.mem_cons_self)).1
          exact hl'.source_ne_nil hne hnil
  · rintro ⟨l, w, rest, heq, hall, hmatch⟩
    rw [List.append_assoc] at heq
    have hw : w ≠ [] := by
      rintro rfl
      exact hmatch.ne_nil hnullable rfl
    obtain ⟨l', m, rest', hmarks, hletters, hnil⟩ := hblocks.of_kept_run heq hw hall
    refine ⟨l'.map Mark.letter, m.map Mark.letter, rest'.map Mark.letter, ?_, fun _ _ => trivial, ?_⟩
    · rw [hmarks, List.map_append, List.map_append, List.append_assoc]
    · rw [hletters]
      refine hmatch.of_context hboundary (hcontext _ _ ?_)
      rw [List.map_eq_nil_iff, List.map_eq_nil_iff]
      exact hnil.symm

end SuperAi.Input
