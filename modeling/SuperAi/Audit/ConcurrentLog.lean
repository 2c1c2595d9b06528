import SuperAi.Audit.RoundTrip
import SuperAi.Foundations.StepSystem

/-! # Concurrent calls of `log` (`audit.logger.ts`)

A call reads `lastEntryHmac`, signs its entry and starts the write in one turn of the event loop;
the write lands or fails later, and later still the call advances `lastEntryHmac`. The state keeps
the calls between these steps. The file is a valid chain as long as no entry is written over a link
that has gone stale (`verifyChain_of_fresh`).
-/
namespace SuperAi.Audit
open SuperAi.Foundations
set_option autoImplicit false

inductive CallPhase
  | writing
  | written
  deriving DecidableEq

structure LogCall where
  entry : LogEntry
  phase : CallPhase

/-- An `AuditLogger` with its pending calls, and the entries written, in the order of the file. -/
structure AuditLogger where
  lastEntryHmac : String
  calls : List LogCall
  file : List LogEntry

def newLogger : AuditLogger := ⟨initialHmac, [], []⟩

inductive LogStep
  | start (event : SecurityEvent) (context : LogContext) (id timestamp : String)
  | lands (i : ℕ)
  | fails (i : ℕ)
  | advances (i : ℕ)

section
variable (hmac : Hmac) (chain : HmacChain)

/-- A call that fails ends in the handler of `log` and leaves the link as it is. -/
def AuditLogger.step (s : AuditLogger) : LogStep → Option AuditLogger
  | .start event context id timestamp =>
    let entry := signed hmac chain (entryWithoutHmac event context id timestamp s.lastEntryHmac)
    some { s with calls := s.calls ++ [⟨entry, .writing⟩] }
  | .lands i =>
    match s.calls[i]? with
    | some ⟨entry, .writing⟩ =>
      some { s with calls := s.calls.set i ⟨entry, .written⟩, file := s.file ++ [entry] }
    | _ => none
  | .fails i =>
    match s.calls[i]? with
    | some ⟨_, .writing⟩ => some { s with calls := s.calls.eraseIdx i }
    | _ => none
  | .advances i =>
    match s.calls[i]? with
    | some ⟨entry, .written⟩ =>
      some { s with lastEntryHmac := entry.entryHmac, calls := s.calls.eraseIdx i }
    | _ => none

def concurrentLog : StepSystem AuditLogger LogStep := ⟨AuditLogger.step hmac chain⟩

end

/-- An entry lands on the link it has read: `lastEntryHmac` is still what its call read, and no call
stands between its write and its update. -/
def Fresh (s : AuditLogger) : LogStep → Prop
  | .lands i => ∀ call, s.calls[i]? = some call →
      call.entry.body.previousEntryHmac = s.lastEntryHmac ∧ ∀ other ∈ s.calls, other.phase ≠ .written
  | _ => True

instance (s : AuditLogger) (e : LogStep) : Decidable (Fresh s e) := by
  cases e <;> unfold Fresh <;> infer_instance

section
variable {hmac : Hmac} {chain : HmacChain}

/-- What fresh steps keep: the entries are signed and linked, and the link is the HMAC of the last one
unless the call that wrote it has yet to advance it. -/
structure Chained (hmac : Hmac) (chain : HmacChain) (s : AuditLogger) : Prop where
  callsSigned : ∀ call ∈ s.calls, chain.sign hmac call.entry.body = call.entry.entryHmac
  fileSigned : ∀ e ∈ s.file, chain.sign hmac e.body = e.entryHmac
  linked : Linked s.file
  head : (∀ call ∈ s.calls, call.phase ≠ .written) →
    ∀ e, s.file.getLast? = some e → e.entryHmac = s.lastEntryHmac
  pending : ∀ call ∈ s.calls, call.phase = .written → s.file.getLast? = some call.entry

theorem Linked.append {entries : List LogEntry} {entry : LogEntry} (h : Linked entries)
    (hlast : ∀ e, entries.getLast? = some e → entry.body.previousEntryHmac = e.entryHmac) :
    Linked (entries ++ [entry]) := by
  refine List.isChain_append.mpr ⟨h, List.isChain_singleton _, fun e he e' he' => ?_⟩
  obtain rfl : entry = e' := by simpa using he'
  exact hlast e he

theorem Chained.start {s : AuditLogger} (h : Chained hmac chain s) (body : EntryBody) :
    Chained hmac chain { s with calls := s.calls ++ [⟨signed hmac chain body, .writing⟩] } where
  callsSigned call hcall := by
    rcases List.mem_append.mp hcall with hcall | hcall
    · exact h.callsSigned call hcall
    · obtain rfl := List.mem_singleton.mp hcall
      rfl
  fileSigned := h.fileSigned
  linked := h.linked
  head hnone := h.head fun call hcall => hnone call (List.mem_append_left _ hcall)
  pending call hcall hphase := by
    rcases List.mem_append.mp hcall with hcall | hcall
    · exact h.pending call hcall hphase
    · obtain rfl := List.mem_singleton.mp hcall
      cases hphase

theorem Chained.lands {s : AuditLogger} (h : Chained hmac chain s) {i : ℕ} {entry : LogEntry}
    (hcall : s.calls[i]? = some ⟨entry, .writing⟩) (hfresh : Fresh s (.lands i)) :
    Chained hmac chain
      { s with calls := s.calls.set i ⟨entry, .written⟩, file := s.file ++ [entry] } := by
  obtain ⟨hlink, hnone⟩ := hfresh _ hcall
  have hsigned : chain.sign hmac entry.body = entry.entryHmac :=
    h.callsSigned ⟨entry, .writing⟩ (List.mem_of_getElem? hcall)
  have hmem : ∀ call ∈ s.calls.set i ⟨entry, .written⟩, call ∈ s.calls ∨ call = ⟨entry, .written⟩ :=
    fun call hcall => List.mem_or_eq_of_mem_set hcall
  constructor
  · intro call hin
    rcases hmem call hin with hin | rfl
    · exact h.callsSigned call hin
    · exact hsigned
  · intro e he
    rcases List.mem_append.mp he with he | he
    · exact h.fileSigned e he
    · obtain rfl := List.mem_singleton.mp he
      exact hsigned
  · refine h.linked.append fun e he => ?_
    rw [h.head hnone e he]
    exact hlink
  · intro hall
    obtain ⟨hlt, -⟩ := List.getElem?_eq_some_iff.mp hcall
    exact absurd rfl (hall ⟨entry, .written⟩ (List.mem_set hlt _))
  · intro call hin hphase
    rw [List.getLast?_append, List.getLast?_singleton, Option.some_or]
    rcases hmem call hin with hin | rfl
    · exact absurd hphase (hnone call hin)
    · rfl

theorem Chained.fails {s : AuditLogger} (h : Chained hmac chain s) {i : ℕ} {entry : LogEntry}
    (hcall : s.calls[i]? = some ⟨entry, .writing⟩) :
    Chained hmac chain { s with calls := s.calls.eraseIdx i } where
  callsSigned call hin := h.callsSigned call (List.mem_of_mem_eraseIdx hin)
  fileSigned := h.fileSigned
  linked := h.linked
  head hnone := by
    refine h.head fun call hin hphase => ?_
    have hne : call ≠ ⟨entry, .writing⟩ := by
      rintro rfl
      cases hphase
    obtain ⟨j, hj⟩ := List.mem_iff_getElem?.mp hin
    have hij : j ≠ i := by
      rintro rfl
      exact hne (Option.some.inj (hj.symm.trans hcall))
    exact hnone call (List.mem_eraseIdx_iff_getElem?.mpr ⟨j, hij, hj⟩) hphase
  pending call hin := h.pending call (List.mem_of_mem_eraseIdx hin)

theorem Chained.advances {s : AuditLogger} (h : Chained hmac chain s) {i : ℕ} {entry : LogEntry}
    (hcall : s.calls[i]? = some ⟨entry, .written⟩) :
    Chained hmac chain { s with lastEntryHmac := entry.entryHmac, calls := s.calls.eraseIdx i } where
  callsSigned call hin := h.callsSigned call (List.mem_of_mem_eraseIdx hin)
  fileSigned := h.fileSigned
  linked := h.linked
  head _ e he := by
    have hlast := h.pending _ (List.mem_of_getElem? hcall) rfl
    rw [Option.some.inj (he.symm.trans hlast)]
  pending call hin := h.pending call (List.mem_of_mem_eraseIdx hin)

theorem Chained.step {s s' : AuditLogger} {e : LogStep} (h : Chained hmac chain s) (hfresh : Fresh s e)
    (hstep : (concurrentLog hmac chain).step s e = some s') : Chained hmac chain s' := by
  cases e with
  | start event context id timestamp =>
    obtain rfl := Option.some.inj hstep
    exact h.start _
  | lands i =>
    simp only [concurrentLog, AuditLogger.step] at hstep
    split at hstep
    · rename_i entry hcall
      obtain rfl := Option.some.inj hstep
      exact h.lands hcall hfresh
    · cases hstep
  | fails i =>
    simp only [concurrentLog, AuditLogger.step] at hstep
    split at hstep
    · rename_i entry hcall
      obtain rfl := Option.some.inj hstep
      exact h.fails hcall
    · cases hstep
  | advances i =>
    simp only [concurrentLog, AuditLogger.step] at hstep
    split at hstep
    · rename_i entry hcall
      obtain rfl := Option.some.inj hstep
      exact h.advances hcall
    · cases hstep

theorem chained_newLogger : Chained hmac chain newLogger where
  callsSigned _ h := by cases h
  fileSigned _ h := by cases h
  linked := List.isChain_nil
  head _ _ h := by cases h
  pending _ h := by cases h

/-- **Concurrent calls.** However the calls interleave, the entries in the order they are written are
a valid chain, as long as each of them lands on a fresh link. -/
theorem verifyChain_of_fresh {events : List LogStep} {s : AuditLogger}
    (hrun : (concurrentLog hmac chain).GuardedRun Fresh newLogger events s) :
    ∃ r, chain.verifyChain hmac s.file = .ok r ∧ r.valid = true := by
  have hchained : Chained hmac chain s :=
    hrun.invariant (fun _ _ _ h hfresh hstep => h.step hfresh hstep) chained_newLogger
  exact (verifyChain_valid_iff s.file).mpr ⟨hchained.fileSigned, hchained.linked⟩

end

/-! ### Two calls -/

def startFirst : LogStep :=
  .start tradeReported (testContext (some "user-1")) "550e8400-e29b-41d4-a716-446655440000"
    "2026-04-12T10:00:00.000Z"

def startLater : LogStep :=
  .start tradeReported (testContext (some "user-1")) "550e8400-e29b-41d4-a716-446655440001"
    "2026-04-12T10:01:00.000Z"

def firstLogged : LogEntry := signed tradeHmac testChain (firstEntry tradeReported (some "user-1"))

def laterLogged (lastEntryHmac : String) : LogEntry :=
  signed tradeHmac testChain (laterEntry tradeReported (some "user-1") lastEntryHmac)

theorem firstLogged_entryHmac : firstLogged.entryHmac = firstDigest := by
  simp only [firstLogged, signed, sign_firstEntry]

def overlapping (phase : CallPhase) (file : List LogEntry) : AuditLogger :=
  ⟨initialHmac, [⟨firstLogged, phase⟩, ⟨laterLogged initialHmac, .writing⟩], file⟩

section
variable {G : AuditLogger → LogStep → Prop}

theorem start_overlapping (hfirst : G newLogger startFirst)
    (hlater : G ⟨initialHmac, [⟨firstLogged, .writing⟩], []⟩ startLater)
    (hlands : G (overlapping .writing []) (.lands 0)) :
    (concurrentLog tradeHmac testChain).GuardedRun G newLogger [startFirst, startLater, .lands 0]
      (overlapping .written [firstLogged]) := by
  have hstart : (concurrentLog tradeHmac testChain).step newLogger startFirst =
      some ⟨initialHmac, [⟨firstLogged, .writing⟩], []⟩ := rfl
  have hstart' : (concurrentLog tradeHmac testChain).step ⟨initialHmac, [⟨firstLogged, .writing⟩], []⟩
      startLater = some (overlapping .writing []) := rfl
  have hstep : (concurrentLog tradeHmac testChain).step (overlapping .writing []) (.lands 0) =
      some (overlapping .written [firstLogged]) := rfl
  exact .cons hfirst hstart (.cons hlater hstart' (.cons hlands hstep (.nil _)))

end

/-- A call overlaps with the first one, fails, and is made again. -/
theorem verifyChain_repeated_call :
    ∃ s, (concurrentLog tradeHmac testChain).run newLogger
        [startFirst, startLater, .lands 0, .advances 0, .fails 0, startLater, .lands 0] = some s ∧
      s.file.length = 2 ∧ ∃ r, testChain.verifyChain tradeHmac s.file = .ok r ∧ r.valid = true := by
  have hfirst : Fresh (overlapping .writing []) (.lands 0) := by
    intro call hcall
    obtain rfl : ⟨firstLogged, .writing⟩ = call := Option.some.inj hcall
    exact ⟨rfl, by simp [overlapping]⟩
  have hadvances : (concurrentLog tradeHmac testChain).step (overlapping .written [firstLogged])
      (.advances 0) = some ⟨firstLogged.entryHmac, [⟨laterLogged initialHmac, .writing⟩],
        [firstLogged]⟩ := rfl
  have hrest : ∀ last, (concurrentLog tradeHmac testChain).GuardedRun Fresh
      ⟨last, [⟨laterLogged initialHmac, .writing⟩], [firstLogged]⟩ [.fails 0, startLater, .lands 0]
      ⟨last, [⟨laterLogged last, .written⟩], [firstLogged, laterLogged last]⟩ := by
    intro last
    have hfails : (concurrentLog tradeHmac testChain).step
        ⟨last, [⟨laterLogged initialHmac, .writing⟩], [firstLogged]⟩ (.fails 0) =
        some ⟨last, [], [firstLogged]⟩ := rfl
    have hagain : (concurrentLog tradeHmac testChain).step ⟨last, [], [firstLogged]⟩ startLater =
        some ⟨last, [⟨laterLogged last, .writing⟩], [firstLogged]⟩ := rfl
    have hlands : (concurrentLog tradeHmac testChain).step
        ⟨last, [⟨laterLogged last, .writing⟩], [firstLogged]⟩ (.lands 0) =
        some ⟨last, [⟨laterLogged last, .written⟩], [firstLogged, laterLogged last]⟩ := rfl
    have hfresh : Fresh ⟨last, [⟨laterLogged last, .writing⟩], [firstLogged]⟩ (.lands 0) := by
      intro call hcall
      obtain rfl : ⟨laterLogged last, .writing⟩ = call := Option.some.inj hcall
      exact ⟨rfl, by simp⟩
    exact .cons trivial hfails (.cons trivial hagain (.cons hfresh hlands (.nil _)))
  have hadvanced : (concurrentLog tradeHmac testChain).GuardedRun Fresh
      (overlapping .written [firstLogged]) [.advances 0, .fails 0, startLater, .lands 0] _ :=
    .cons trivial hadvances (hrest _)
  have hrun := (start_overlapping trivial trivial hfirst).append hadvanced
  exact ⟨_, hrun.run, rfl, verifyChain_of_fresh hrun⟩

/-- Of two overlapping calls both of which are written, the second breaks the chain. -/
theorem overlapping_calls_break :
    ¬ ∀ (events : List LogStep) (s : AuditLogger),
      (concurrentLog tradeHmac testChain).run newLogger events = some s →
        ∃ r, testChain.verifyChain tradeHmac s.file = .ok r ∧ r.valid = true := by
  intro hall
  have hlater : (concurrentLog tradeHmac testChain).step (overlapping .written [firstLogged])
      (.lands 1) = some ⟨initialHmac, [⟨firstLogged, .written⟩, ⟨laterLogged initialHmac, .written⟩],
        [firstLogged, laterLogged initialHmac]⟩ := rfl
  have hrun := (start_overlapping (G := fun _ _ => True) trivial trivial trivial).append
    (.cons trivial hlater (.nil _))
  have hlinked := ((verifyChain_valid_iff _).mp (hall _ _ hrun.run)).2
  have hlink : (laterLogged initialHmac).body.previousEntryHmac = firstLogged.entryHmac :=
    (List.isChain_cons_cons.mp hlinked).1
  rw [firstLogged_entryHmac] at hlink
  exact absurd (show initialHmac = firstDigest from hlink) (by decide)

end SuperAi.Audit
