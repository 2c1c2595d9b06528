import SuperAi.Audit.ConcurrentLog

/-! # The audit log across restarts (`bootstrap.ts`)

Every process makes a new `AuditLogger` over the same file and checks the whole file as it starts;
within a process the calls of `log` follow one another. The check passes in every state of a run
whose entries are read back intact and link to the file (`check_passes`).
-/
namespace SuperAi.Audit
open SuperAi.Foundations
set_option autoImplicit false

/-! ## The startup check -/

inductive ChainCheck
  | startingFresh
  | noEntries
  | verified (totalEntries : ℕ)
  | failed (firstInvalidIndex : Option ℕ) (totalEntries : ℕ)
  | couldNotRead (error : String)

def ChainCheck.passes : ChainCheck → Bool
  | .startingFresh => true
  | .noEntries => true
  | .verified _ => true
  | .failed _ _ => false
  | .couldNotRead _ => false

section
variable (hmac : Hmac) (chain : HmacChain) (zod : Zod)

/-- Step 7 of `bootstrapSecurity`; no file is `ENOENT`. -/
def checkIntegrity : Option (List Char) → ChainCheck
  | none => .startingFresh
  | some rawLog =>
    let entries := readEntries zod rawLog
    if entries.length > 0 then
      match chain.verifyChain hmac entries with
      | .ok chainResult =>
        if !chainResult.valid then .failed chainResult.firstInvalidIndex chainResult.totalEntries
        else .verified chainResult.totalEntries
      | .error e => .couldNotRead e
    else .noEntries

/-! ## Processes over one file -/

structure Deployment where
  lastEntryHmac : String
  file : Option (List Char)

def firstProcess : Deployment := ⟨initialHmac, none⟩

inductive ProcessEvent
  | restart
  | log (event : SecurityEvent) (context : LogContext) (id timestamp : String) (written : Bool)

def Deployment.append (s : Deployment) (body : EntryBody) : Deployment :=
  ⟨(signed hmac chain body).entryHmac, some (s.file.getD [] ++ (signed hmac chain body).line)⟩

/-- A write that fails leaves the file and the link as they are. -/
def Deployment.step (s : Deployment) : ProcessEvent → Option Deployment
  | .restart => some { s with lastEntryHmac := initialHmac }
  | .log event context id timestamp written =>
    if written then
      some (s.append hmac chain (entryWithoutHmac event context id timestamp s.lastEntryHmac))
    else some s

def deployments : StepSystem Deployment ProcessEvent := ⟨Deployment.step hmac chain⟩

end

/-- An entry is written only if it is read back intact, and then either to an empty file or by a
process that has written before. -/
def Continues (zod : Zod) (s : Deployment) : ProcessEvent → Prop
  | .restart => True
  | .log event context id timestamp written => written = true →
      let body := entryWithoutHmac event context id timestamp s.lastEntryHmac
      body.Valid zod ∧ body.NoClash ∧ (s.file = none ∨ s.lastEntryHmac ≠ initialHmac)

section
variable {hmac : Hmac} {chain : HmacChain} {zod : Zod}

theorem passes_iff {file : Option (List Char)} :
    (checkIntegrity hmac chain zod file).passes = true ↔
      ∃ r, chain.verifyChain hmac (readEntries zod (file.getD [])) = .ok r ∧ r.valid = true := by
  cases file with
  | none =>
    rw [Option.getD_none, readEntries_nil]
    exact ⟨fun _ => ⟨_, rfl, rfl⟩, fun _ => rfl⟩
  | some rawLog =>
    rw [Option.getD_some]
    cases hentries : readEntries zod rawLog with
    | nil => simp [checkIntegrity, hentries, ChainCheck.passes, HmacChain.verifyChain, HmacChain.verifyFrom]
    | cons entry entries =>
      simp only [checkIntegrity, hentries, List.length_cons, Nat.zero_lt_succ, if_true]
      cases hresult : chain.verifyChain hmac (entry :: entries) with
      | error e => simp [ChainCheck.passes]
      | ok r => cases hvalid : r.valid <;> simp [ChainCheck.passes, hvalid]

/-- The entries of the file, all intact and linked; a process that has written holds the HMAC of the
last of them. -/
structure Intact (hmac : Hmac) (chain : HmacChain) (zod : Zod) (s : Deployment)
    (entries : List LogEntry) : Prop where
  read : ∀ rest, readEntries zod (s.file.getD [] ++ rest) = entries ++ readEntries zod rest
  signed : ∀ e ∈ entries, chain.sign hmac e.body = e.entryHmac
  linked : Linked entries
  fresh : s.file = none → entries = []
  head : s.lastEntryHmac ≠ initialHmac → ∀ e, entries.getLast? = some e → e.entryHmac = s.lastEntryHmac

theorem Intact.startup_passes {s : Deployment} {entries : List LogEntry}
    (h : Intact hmac chain zod s entries) : (checkIntegrity hmac chain zod s.file).passes = true := by
  refine passes_iff.mpr ?_
  have hread := h.read []
  rw [List.append_nil, readEntries_nil, List.append_nil] at hread
  rw [hread]
  exact (verifyChain_valid_iff entries).mpr ⟨h.signed, h.linked⟩

theorem append_lastEntryHmac (s : Deployment) (body : EntryBody) :
    (s.append hmac chain body).lastEntryHmac = chain.sign hmac body := rfl

theorem intact_firstProcess : Intact hmac chain zod firstProcess [] where
  read _ := rfl
  signed _ h := by cases h
  linked := List.isChain_nil
  fresh _ := rfl
  head h := absurd rfl h

theorem Intact.restart {s : Deployment} {entries : List LogEntry} (h : Intact hmac chain zod s entries) :
    Intact hmac chain zod { s with lastEntryHmac := initialHmac } entries where
  read := h.read
  signed := h.signed
  linked := h.linked
  fresh := h.fresh
  head hne := absurd rfl hne

theorem Intact.write {s : Deployment} {entries : List LogEntry} (h : Intact hmac chain zod s entries)
    {e : EntryBody} (hp : e.Proper) (hprevious : e.previousEntryHmac = s.lastEntryHmac)
    (hvalid : e.Valid zod) (hclash : e.NoClash) (hlink : s.file = none ∨ s.lastEntryHmac ≠ initialHmac) :
    Intact hmac chain zod (s.append hmac chain e)
      (entries ++ [⟨e.readBack, chain.sign hmac e⟩]) where
  read rest := by
    rw [Deployment.append, Option.getD_some, List.append_assoc, h.read, List.append_assoc]
    exact congrArg (entries ++ ·) (hvalid.readEntries_line hp _ rest)
  signed r hr := by
    rcases List.mem_append.mp hr with hr | hr
    · exact h.signed r hr
    · obtain rfl := List.mem_singleton.mp hr
      show hmac chain.secret (canonicalize e.readBack) = chain.sign hmac e
      rw [(hvalid.canonicalize_readBack hp).mpr hclash]
      rfl
  linked := by
    refine h.linked.append fun r hr => ?_
    show e.previousEntryHmac = r.entryHmac
    rcases hlink with hfile | hne
    · rw [h.fresh hfile] at hr
      cases hr
    · rw [hprevious, h.head hne r hr]
  fresh hfile := by cases hfile
  head _ r hr := by
    rw [List.getLast?_append, List.getLast?_singleton, Option.some_or] at hr
    rw [← Option.some.inj hr]
    rfl

theorem Intact.step {s s' : Deployment} {e : ProcessEvent} {entries : List LogEntry}
    (h : Intact hmac chain zod s entries) (hguard : Continues zod s e)
    (hstep : (deployments hmac chain).step s e = some s') :
    ∃ entries', Intact hmac chain zod s' entries' := by
  cases e with
  | restart =>
    obtain rfl := Option.some.inj hstep
    exact ⟨entries, h.restart⟩
  | log event context id timestamp written =>
    cases written with
    | false =>
      obtain rfl := Option.some.inj hstep
      exact ⟨entries, h⟩
    | true =>
      obtain rfl := Option.some.inj hstep
      obtain ⟨hvalid, hclash, hlink⟩ := hguard rfl
      exact ⟨_, h.write (proper_entryWithoutHmac _ _ _ _ _) rfl hvalid hclash hlink⟩

/-- **Restarts.** However often processes start over one file and log to it, the startup check passes,
as long as every entry is read back intact and none is written by a new process after old entries. -/
theorem check_passes {events : List ProcessEvent} {s : Deployment}
    (hrun : (deployments hmac chain).GuardedRun (Continues zod) firstProcess events s) :
    (checkIntegrity hmac chain zod s.file).passes = true := by
  obtain ⟨entries, hintact⟩ : ∃ entries, Intact hmac chain zod s entries :=
    hrun.invariant (I := fun s => ∃ entries, Intact hmac chain zod s entries)
      (fun _ _ _ ⟨_, h⟩ hguard hstep => h.step hguard hstep) ⟨[], intact_firstProcess⟩
  exact hintact.startup_passes

/-- The first entry of a process that is not the first to write names no entry of the file. -/
theorem Intact.restart_breaks {s : Deployment} {entries : List LogEntry} {last : LogEntry}
    (h : Intact hmac chain zod s entries) (hlast : entries.getLast? = some last)
    (hdigest : last.entryHmac ≠ initialHmac) {e : EntryBody} (hp : e.Proper)
    (hprevious : e.previousEntryHmac = initialHmac) (hvalid : e.Valid zod) :
    (checkIntegrity hmac chain zod (s.append hmac chain e).file).passes = false := by
  have hread : readEntries zod ((s.append hmac chain e).file.getD []) =
      entries ++ [⟨e.readBack, chain.sign hmac e⟩] := by
    have hline := hvalid.readEntries_line hp (chain.sign hmac e) []
    rw [List.append_nil, readEntries_nil] at hline
    rw [Deployment.append, Option.getD_some, h.read]
    exact congrArg (entries ++ ·) hline
  rw [Bool.eq_false_iff, Ne, passes_iff, hread, verifyChain_valid_iff]
  rintro ⟨-, hlinked⟩
  have hlink : e.previousEntryHmac = last.entryHmac :=
    (List.isChain_append.mp hlinked).2.2 last hlast _ rfl
  exact hdigest (hlink.symm.trans hprevious)

end

/-! ### Two reported trades -/

def logFirst : ProcessEvent :=
  .log tradeReported (testContext (some "user-1")) "550e8400-e29b-41d4-a716-446655440000"
    "2026-04-12T10:00:00.000Z" true

def logLater : ProcessEvent :=
  .log tradeReported (testContext (some "user-1")) "550e8400-e29b-41d4-a716-446655440001"
    "2026-04-12T10:01:00.000Z" true

theorem valid_firstEntry : (firstEntry tradeReported (some "user-1")).Valid testZod :=
  ⟨by decide, by decide, ⟨_, rfl⟩, by simp [firstEntry, entryWithoutHmac, testContext]⟩

theorem valid_laterEntry (lastEntryHmac : String) :
    (laterEntry tradeReported (some "user-1") lastEntryHmac).Valid testZod where
  id := by
    show testZod.uuid "550e8400-e29b-41d4-a716-446655440001" = true
    decide
  timestamp := by
    show testZod.datetime "2026-04-12T10:01:00.000Z" = true
    decide
  latencyMs := ⟨_, rfl⟩
  circuitBreakerStates := by simp [laterEntry, entryWithoutHmac, testContext]

theorem noClash_tradeReported {e : EntryBody} (h : e.parameters = tradeReported.payload.members) :
    e.NoClash :=
  EntryBody.noClash_of_disjoint (by simp [h, tradeReported, fieldNames])

def afterFirst : Deployment :=
  firstProcess.append tradeHmac testChain (firstEntry tradeReported (some "user-1"))

theorem afterFirst_lastEntryHmac : afterFirst.lastEntryHmac = firstDigest := by
  rw [afterFirst, append_lastEntryHmac, sign_firstEntry]

theorem step_logFirst : (deployments tradeHmac testChain).step firstProcess logFirst = some afterFirst :=
  rfl

theorem step_logLater (s : Deployment) : (deployments tradeHmac testChain).step s logLater =
    some (s.append tradeHmac testChain
      (laterEntry tradeReported (some "user-1") s.lastEntryHmac)) :=
  rfl

/-- A process logs two entries, and the next one starts. -/
theorem check_passes_after_restart :
    ∃ s, (deployments tradeHmac testChain).run firstProcess [logFirst, logLater, .restart] = some s ∧
      (checkIntegrity tradeHmac testChain testZod s.file).passes = true := by
  have hfirst : Continues testZod firstProcess logFirst :=
    fun _ => ⟨valid_firstEntry, noClash_tradeReported rfl, .inl rfl⟩
  have hlater : Continues testZod afterFirst logLater := by
    refine fun _ => ⟨valid_laterEntry _, noClash_tradeReported rfl, .inr ?_⟩
    rw [afterFirst_lastEntryHmac]
    decide
  have hrun : (deployments tradeHmac testChain).GuardedRun (Continues testZod) firstProcess
      [logFirst, logLater, .restart] _ :=
    .cons hfirst step_logFirst (.cons hlater (step_logLater _) (.cons trivial rfl (.nil _)))
  exact ⟨_, hrun.run, check_passes hrun⟩

/-- A process logs an entry, and so does the next one: the check of the process after that fails. -/
theorem check_fails_after_restart :
    ¬ ∀ (events : List ProcessEvent) (s : Deployment),
      (deployments tradeHmac testChain).run firstProcess events = some s →
        (checkIntegrity tradeHmac testChain testZod s.file).passes = true := by
  intro hall
  have hbreaks : ∀ (hmac : Hmac) (chain : HmacChain),
      chain.sign hmac (firstEntry tradeReported (some "user-1")) ≠ initialHmac →
        (checkIntegrity hmac chain testZod (Deployment.append hmac chain
          { firstProcess.append hmac chain (firstEntry tradeReported (some "user-1")) with
            lastEntryHmac := initialHmac }
          (laterEntry tradeReported (some "user-1") initialHmac)).file).passes = false := by
    intro hmac chain hdigest
    have hempty : Intact hmac chain testZod firstProcess [] := intact_firstProcess
    have hintact := hempty.write
      (proper_entryWithoutHmac _ _ _ _ _) rfl valid_firstEntry (noClash_tradeReported rfl) (.inl rfl)
    exact hintact.restart.restart_breaks rfl hdigest (proper_entryWithoutHmac _ _ _ _ _) rfl
      (valid_laterEntry initialHmac)
  have hrestart : (deployments tradeHmac testChain).step afterFirst .restart =
    some { afterFirst with lastEntryHmac := initialHmac } := rfl
  have hpasses := hall [logFirst, .restart, logLater] _ (by
    rw [StepSystem.run_cons _ step_logFirst, StepSystem.run_cons _ hrestart,
      StepSystem.run_cons _ (step_logLater _), StepSystem.run_nil])
  have hfails := hbreaks tradeHmac testChain (by
    rw [sign_firstEntry]
    decide)
  rw [afterFirst] at hpasses
  rw [hfails] at hpasses
  cases hpasses

end SuperAi.Audit
