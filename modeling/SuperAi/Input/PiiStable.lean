import SuperAi.Foundations.Stretches
import SuperAi.Input.PiiScrubber

/-! # What scrubbing leaves

A pass of the scrubber leaves stretches of text between its redactions, and a later pass may so make a match for a
pattern that has had its turn. None of the patterns finds anything in any of the texts that the passes leave, exactly if
no pass cuts a word or a match so that what is left of it is a match again (`scrub_settled_iff`).
-/
namespace SuperAi.Input
open SuperAi.Foundations
set_option autoImplicit false

namespace PatternEntry
variable (entry : PatternEntry)

/-- What the pattern would redact in a text. -/
def found (text : List Char) : List (List Char) := Regex.found entry.pattern entry.validate text

/-- What its pass leaves between the redactions. -/
def stretches (text : List Char) : List Regex.Stretch :=
  Regex.stretches entry.validate [] [] (Regex.chunks entry.pattern id none 0 text)

/-- In a stretch that is disturbed, the pattern would redact nothing. -/
def settles (s : Regex.Stretch) : Bool := !s.disturbed entry.pattern || (entry.found s.text).isEmpty

end PatternEntry

/-- None of the patterns would redact anything. -/
def Settled (entries : List PatternEntry) (text : List Char) : Prop := ∀ entry ∈ entries, entry.found text = []

/-- The state after these passes. -/
def passes (entries : List PatternEntry) (result : ScrubResult) : ScrubResult :=
  entries.foldl (fun result entry => entry.pass result) result

/-- The pass disturbs no stretch so that it, or a pass before it, would redact something there. -/
def leavesClear (done : List PatternEntry) (entry : PatternEntry) (text : List Char) : Bool :=
  (entry.stretches text).all fun s => (done ++ [entry]).all fun e => e.settles s

/-- All the passes to come leave their stretches clear. -/
def undisturbed : List PatternEntry → List PatternEntry → ScrubResult → Bool
  | _, [], _ => true
  | done, entry :: rest, result =>
    leavesClear done entry result.scrubbed && undisturbed (done ++ [entry]) rest (entry.pass result)

/-! ## The patterns -/

theorem patterns_delimited {entry : PatternEntry} (h : entry ∈ PATTERNS) :
    Regex.Delimited entry.pattern (Regex.leads entry.pattern) (Regex.sequence (Regex.inner entry.pattern)) := by
  have hall : ∀ pattern ∈ PATTERNS.map PatternEntry.pattern, Regex.isDelimited pattern = true := by decide +kernel
  exact Regex.delimited_of_isDelimited (hall _ (List.mem_map_of_mem h))

/-- A pattern that begins with a word boundary goes on with a letter of a word, except the one of addresses. -/
theorem patterns_start {entry : PatternEntry} (h : entry ∈ PATTERNS) (hleads : Regex.leads entry.pattern = true) :
    Regex.startsWord (Regex.sequence (Regex.inner entry.pattern)) = true ∨ ∀ m, entry.validate m = true := by
  have hall : ∀ entry ∈ PATTERNS, (Regex.startsWord (Regex.sequence (Regex.inner entry.pattern)) = true ∨
      Regex.leads entry.pattern = false) ∨ ∀ m, entry.validate m = true := by
    simp only [PATTERNS, List.forall_mem_cons]
    exact ⟨.inl (by decide +kernel), .inl (by decide +kernel), .inl (by decide +kernel), .inl (by decide +kernel),
      .inl (by decide +kernel), .inr fun _ => trivial, .inl (by decide +kernel), .inl (by decide +kernel),
      fun _ h => absurd h List.not_mem_nil⟩
  obtain (hstarts | hnot) | hvalid := hall entry h
  · exact .inl hstarts
  · rw [hleads] at hnot
    cases hnot
  · exact .inr hvalid

theorem placeholder_edges {entry : PatternEntry} (h : entry ∈ PATTERNS) :
    Regex.isWord entry.placeholder.toList.head? = false ∧ Regex.isWord entry.placeholder.toList.getLast? = false := by
  have hall : ∀ placeholder ∈ PATTERNS.map PatternEntry.placeholder,
      Regex.isWord placeholder.toList.head? = false ∧ Regex.isWord placeholder.toList.getLast? = false := by
    decide +kernel
  exact hall _ (List.mem_map_of_mem h)

/-! ## One pass -/

section
variable {entry e : PatternEntry} {result : ScrubResult} {done : List PatternEntry}

/-- After a pass, a pattern finds what it finds in the stretches that the pass has left. -/
theorem found_pass (hentry : entry ∈ PATTERNS) (he : e ∈ PATTERNS) :
    e.found (entry.pass result).scrubbed = (entry.stretches result.scrubbed).flatMap fun s => e.found s.text :=
  Regex.found_replaced (patterns_passPlaceholders he entry hentry) (placeholder_edges hentry).1
    (placeholder_edges hentry).2 (patterns_delimited he) (Regex.chunks entry.pattern id none 0 result.scrubbed) [] []

/-- In a stretch that a pass has left, only what is disturbed matters. -/
theorem found_stretch_iff (hentry : entry ∈ PATTERNS) (he : e ∈ PATTERNS)
    (hsettled : e = entry ∨ e.found result.scrubbed = []) {s : Regex.Stretch}
    (hs : s ∈ entry.stretches result.scrubbed) : e.found s.text = [] ↔ e.settles s = true := by
  unfold PatternEntry.settles
  cases hdisturbed : s.disturbed e.pattern with
  | true => rw [Bool.not_true, Bool.false_or, List.isEmpty_iff]
  | false =>
    have hwithin : s.Within entry.validate (Regex.chunks entry.pattern id none 0 result.scrubbed) :=
      Regex.within_of_mem _ [] [] rfl rfl (.inl rfl) hs
    refine iff_of_true ?_ rfl
    obtain rfl | hnone := hsettled
    · exact hwithin.found_own (patterns_delimited he) (patterns_start he) hdisturbed
    · refine Regex.found_of_undisturbed (patterns_delimited he) (patterns_start he) hdisturbed
        (hwithin.edge (patterns_delimited hentry)) ?_
      rw [hwithin.parts]
      exact hnone

/-- **One pass.** Where the patterns before it would redact nothing, after it they and its own would redact nothing,
exactly if it leaves its stretches clear. -/
theorem settled_pass_iff (hentry : entry ∈ PATTERNS) (hdone : ∀ e ∈ done, e ∈ PATTERNS)
    (hsettled : Settled done result.scrubbed) :
    Settled (done ++ [entry]) (entry.pass result).scrubbed ↔ leavesClear done entry result.scrubbed = true := by
  have hstretch : ∀ e ∈ done ++ [entry], e ∈ PATTERNS ∧ ∀ s ∈ entry.stretches result.scrubbed,
      (e.found s.text = [] ↔ e.settles s = true) := by
    intro e he
    obtain hbefore | hown := List.mem_append.mp he
    · exact ⟨hdone e hbefore, fun s hs => found_stretch_iff hentry (hdone e hbefore) (.inr (hsettled e hbefore)) hs⟩
    · obtain rfl := List.mem_singleton.mp hown
      exact ⟨hentry, fun s hs => found_stretch_iff hentry hentry (.inl rfl) hs⟩
  rw [leavesClear, List.all_eq_true]
  constructor
  · intro h s hs
    apply List.all_eq_true.mpr
    intro e he
    obtain ⟨hmem, hiff⟩ := hstretch e he
    have hfound := h e he
    rw [found_pass hentry hmem, List.flatMap_eq_nil_iff] at hfound
    exact (hiff s hs).mp (hfound s hs)
  · intro h e he
    obtain ⟨hmem, hiff⟩ := hstretch e he
    rw [found_pass hentry hmem, List.flatMap_eq_nil_iff]
    intro s hs
    exact (hiff s hs).mpr (List.all_eq_true.mp (h s hs) e he)

/-- A pass that would redact nothing changes nothing. -/
theorem pass_of_found_nil (h : entry.found result.scrubbed = []) : entry.pass result = result := by
  have hchunks : ∀ cs : List (Regex.Chunk Char), cs.filterMap (Regex.accepted entry.validate) = [] →
      cs.flatMap (Regex.Chunk.replaced entry.replacement) = cs.flatMap Regex.Chunk.source ∧
        cs.filterMap entry.detection = [] := by
    intro cs
    induction cs with
    | nil => exact fun _ => ⟨rfl, rfl⟩
    | cons chunk cs ih =>
      intro hcs
      cases chunk with
      | gap c =>
        obtain ⟨hreplaced, hdetected⟩ := ih hcs
        refine ⟨?_, hdetected⟩
        rw [List.flatMap_cons, List.flatMap_cons, hreplaced]
        rfl
      | hit m =>
        by_cases hm : entry.validate m = true
        · rw [List.filterMap_cons_some (by rw [Regex.accepted, if_pos hm])] at hcs
          cases hcs
        · rw [List.filterMap_cons_none (by rw [Regex.accepted, if_neg hm])] at hcs
          obtain ⟨hreplaced, hdetected⟩ := ih hcs
          refine ⟨?_, ?_⟩
          · rw [List.flatMap_cons, List.flatMap_cons, hreplaced, Regex.Chunk.replaced, PatternEntry.replacement,
              if_neg hm]
            rfl
          · rw [List.filterMap_cons_none (by rw [PatternEntry.detection, if_neg hm])]
            exact hdetected
  obtain ⟨hreplaced, hdetected⟩ := hchunks _ h
  have hsource : (Regex.chunks entry.pattern id none 0 result.scrubbed).flatMap Regex.Chunk.source = result.scrubbed :=
    Regex.source_chunks result.scrubbed none 0
  unfold PatternEntry.pass Regex.replaceAll
  rw [hreplaced, hsource, hdetected, List.append_nil]

end

/-! ## All passes -/

theorem undisturbed_iff (rest : List PatternEntry) : ∀ {done : List PatternEntry} {result : ScrubResult},
    (∀ e ∈ done ++ rest, e ∈ PATTERNS) → Settled done result.scrubbed →
    (undisturbed done rest result = true ↔
      ∀ part, part <+: rest → Settled (done ++ part) (passes part result).scrubbed) := by
  induction rest with
  | nil =>
    intro done result _ hsettled
    refine iff_of_true rfl ?_
    intro part hpart
    rw [List.prefix_nil.mp hpart, List.append_nil]
    exact hsettled
  | cons entry rest ih =>
    intro done result hmem hsettled
    have hentry : entry ∈ PATTERNS := hmem entry (by simp)
    have hstep := settled_pass_iff hentry (fun e he => hmem e (List.mem_append_left _ he)) hsettled
    have hmem' : ∀ e ∈ (done ++ [entry]) ++ rest, e ∈ PATTERNS := by
      rw [List.append_assoc]
      exact hmem
    rw [undisturbed, Bool.and_eq_true, ← hstep]
    constructor
    · rintro ⟨hpass, hrest⟩ part hpart
      obtain hnil | ⟨tail, rfl, htail⟩ := List.prefix_cons_iff.mp hpart
      · rw [hnil, List.append_nil]
        exact hsettled
      · have hsplit : done ++ entry :: tail = (done ++ [entry]) ++ tail := by simp
        rw [hsplit]
        exact (ih hmem' hpass).mp hrest tail htail
    · intro h
      have hpass : Settled (done ++ [entry]) (entry.pass result).scrubbed :=
        h [entry] ⟨rest, rfl⟩
      refine ⟨hpass, (ih hmem' hpass).mpr ?_⟩
      intro part hpart
      rw [List.append_assoc]
      exact h (entry :: part) (List.cons_prefix_cons.mpr ⟨rfl, hpart⟩)

/-- A text in which the patterns would redact nothing is left as it is. -/
theorem passes_of_settled {entries : List PatternEntry} {result : ScrubResult}
    (h : Settled entries result.scrubbed) : passes entries result = result := by
  induction entries with
  | nil => rfl
  | cons entry entries ih =>
    have hpass := pass_of_found_nil (h entry List.mem_cons_self)
    show passes entries (entry.pass result) = result
    rw [hpass]
    exact ih fun e he => h e (List.mem_cons_of_mem entry he)

theorem scrub_of_settled {text : List Char} (h : Settled PATTERNS text) : scrub text = ⟨text, []⟩ :=
  @passes_of_settled PATTERNS ⟨text, []⟩ h

/-- **What scrubbing leaves.** None of the patterns so far would redact anything in any of the texts that the passes
leave, and scrubbing the last one changes nothing, exactly if the passes leave their stretches clear. -/
theorem scrub_settled_iff (text : List Char) :
    undisturbed [] PATTERNS ⟨text, []⟩ = true ↔
      (∀ done, done <+: PATTERNS → Settled done (passes done ⟨text, []⟩).scrubbed) ∧
        scrub (scrub text).scrubbed = ⟨(scrub text).scrubbed, []⟩ := by
  rw [undisturbed_iff PATTERNS (fun _ he => he) fun _ he => absurd he List.not_mem_nil]
  simp only [List.nil_append]
  constructor
  · intro h
    have hall := h PATTERNS (List.prefix_refl PATTERNS)
    exact ⟨h, scrub_of_settled hall⟩
  · exact fun h => h.1

example : undisturbed [] PATTERNS ⟨"Call 415-555-2671".toList, []⟩ = true := by decide +kernel

/-- The end of a long run of digits is taken for a phone number, and on a second run the end of what is left. -/
theorem digits_scrubbed_twice :
    (scrub "22222222222222222222".toList).scrubbed = "2222222222[PHONE_NUMBER_REDACTED]".toList ∧
    scrub "2222222222[PHONE_NUMBER_REDACTED]".toList =
      ⟨"[PHONE_NUMBER_REDACTED][PHONE_NUMBER_REDACTED]".toList, [⟨.PHONE_NUMBER, "[PHONE_NUMBER_REDACTED]"⟩]⟩ ∧
    scrub (scrub "22222222222222222222".toList).scrubbed ≠ ⟨(scrub "22222222222222222222".toList).scrubbed, []⟩ := by
  decide +kernel

end SuperAi.Input
