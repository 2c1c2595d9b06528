import Mathlib.Data.List.Perm.Basic
import Mathlib.Logic.Equiv.List
import SuperAi.Audit.ChainEdits
import SuperAi.Audit.Restart
import SuperAi.Foundations.OrderedMap
import SuperAi.Foundations.StableSort
import SuperAi.Wallets.WalletGroups

/-! # Replaying a session (`forensics.service.ts`)

`replay` picks a session's entries out of the whole log file and sorts them by their timestamps; since they need not
stand next to each other it checks each entry's own HMAC and no link. The summary counts what the entries are
(`replay_account`). Whatever processes have logged to the file before, in a session's replay stands exactly what was
logged in that session (`replay_of_run`).
-/
namespace SuperAi.Audit
open SuperAi.Foundations
open SuperAi.Wallets (Collator codePointCollator)
set_option autoImplicit false

structure SessionReplaySummary where
  countsPerEventType : KeyValue SecurityEventType ℕ := []
  firstTimestamp : String := ""
  lastTimestamp : String := ""
  totalActions : ℕ := 0
  blockedActions : ℕ := 0
  anomaliesDetected : ℕ := 0

structure SessionReplay where
  sessionId : String
  entries : List LogEntry
  chainValid : Bool
  summary : SessionReplaySummary

/-- `result.data.sessionId === sessionId` -/
def OptionalField.holds : OptionalField → String → Bool
  | .value s, sessionId => s == sessionId
  | _, _ => false

def isAnomaly (eventType : SecurityEventType) : Bool :=
  eventType == .ANOMALY_DETECTED || eventType == .FEED_ANOMALY_DETECTED || eventType == .STRATEGY_DRIFT_DETECTED

/-- A round of the loop of `buildSummary`. -/
def SessionReplaySummary.add (summary : SessionReplaySummary) (entry : LogEntry) : SessionReplaySummary :=
  let eventType := entry.body.eventType
  { summary with
    countsPerEventType := summary.countsPerEventType.put eventType
      ((summary.countsPerEventType.get eventType).getD 0 + 1)
    totalActions := summary.totalActions + 1
    blockedActions := if entry.body.resultStatus = .BLOCKED then summary.blockedActions + 1 else summary.blockedActions
    anomaliesDetected := if isAnomaly eventType then summary.anomaliesDetected + 1 else summary.anomaliesDetected }

def buildSummary (entries : List LogEntry) : SessionReplaySummary :=
  { entries.foldl SessionReplaySummary.add {} with
    firstTimestamp := (entries.head?.map fun entry => entry.body.timestamp).getD ""
    lastTimestamp := (entries.getLast?.map fun entry => entry.body.timestamp).getD "" }

structure ForensicsService where
  auditLogOutputPath : String
  hmacChain : HmacChain

section
variable (hmac : Hmac) (zod : Zod) (collator : Collator)

def byTimestamp (a b : LogEntry) : ℚ := collator.localeCompare a.body.timestamp b.body.timestamp

def readEntriesForSession (content : List Char) (sessionId : String) : List LogEntry :=
  sort (byTimestamp collator)
    ((readEntries zod content).filter fun entry => entry.body.sessionId.holds sessionId)

/-- The loop of `verifySessionChain` from index `i`. -/
def HmacChain.verifySessionFrom (chain : HmacChain) (totalEntries : ℕ) :
    ℕ → List LogEntry → Except String ChainVerificationResult
  | _, [] => .ok ⟨true, none, totalEntries⟩
  | i, entry :: entries =>
    match chain.verify hmac entry with
    | .error e => .error e
    | .ok false => .ok ⟨false, some i, totalEntries⟩
    | .ok true => verifySessionFrom chain totalEntries (i + 1) entries

namespace ForensicsService
variable (service : ForensicsService)

def verifySessionChain (entries : List LogEntry) : Except String ChainVerificationResult :=
  service.hmacChain.verifySessionFrom hmac entries.length 0 entries

/-- `replay` over the log file, if there is one. -/
def replay (file : Option (List Char)) (sessionId : String) : Except String SessionReplay :=
  match file with
  | none => .error ("ENOENT: no such file or directory, open '" ++ service.auditLogOutputPath ++ "'")
  | some content =>
    let entries := readEntriesForSession zod collator content sessionId
    match service.verifySessionChain hmac entries with
    | .error e => .error e
    | .ok chainResult => .ok ⟨sessionId, entries, chainResult.valid, buildSummary entries⟩

end ForensicsService
end

/-! ## The two loops -/

section
variable (hmac : Hmac) (chain : HmacChain)

/-- The loop passes when every entry carries its own HMAC, and breaks off at the first that does not. -/
theorem verifySessionFrom_valid_iff (n i : ℕ) (entries : List LogEntry) :
    (∃ r, chain.verifySessionFrom hmac n i entries = .ok r ∧ r.valid = true) ↔
      ∀ e ∈ entries, chain.sign hmac e.body = e.entryHmac := by
  induction entries generalizing i with
  | nil => simp [HmacChain.verifySessionFrom]
  | cons entry entries ih =>
    rw [List.forall_mem_cons, ← verify_eq_true, HmacChain.verifySessionFrom]
    cases hverify : chain.verify hmac entry with
    | error e => simp
    | ok own =>
      cases own with
      | false => simp
      | true => simpa using ih (i + 1)

theorem verifySessionFrom_returns (n i : ℕ) {entries : List LogEntry}
    (h : ∀ e ∈ entries, ¬ Mismatched hmac chain e) : ∃ r, chain.verifySessionFrom hmac n i entries = .ok r := by
  induction entries generalizing i with
  | nil => exact ⟨_, rfl⟩
  | cons entry entries ih =>
    obtain ⟨hentry, hentries⟩ := List.forall_mem_cons.mp h
    rw [HmacChain.verifySessionFrom]
    cases hverify : chain.verify hmac entry with
    | error e => exact absurd (verify_throws_iff.mp ⟨e, hverify⟩) hentry
    | ok own =>
      cases own with
      | false => exact ⟨_, rfl⟩
      | true => exact ih (i + 1) hentries

end

/-- The number of entries of a type. -/
def countOf (eventType : SecurityEventType) (entries : List LogEntry) : ℕ :=
  entries.countP fun entry => entry.body.eventType == eventType

/-- What the loop has counted after some entries. -/
structure Counted (summary : SessionReplaySummary) (entries : List LogEntry) : Prop where
  counts : ∀ eventType, (summary.countsPerEventType.get eventType).getD 0 = countOf eventType entries
  keys : (summary.countsPerEventType.map Prod.fst).Nodup
  positive : ∀ entry ∈ summary.countsPerEventType, 0 < entry.2
  sum : (summary.countsPerEventType.map Prod.snd).sum = entries.length
  total : summary.totalActions = entries.length
  blocked : summary.blockedActions = entries.countP fun entry => entry.body.resultStatus == .BLOCKED
  anomalies : summary.anomaliesDetected = entries.countP fun entry => isAnomaly entry.body.eventType

theorem counted_nil : Counted {} [] where
  counts _ := rfl
  keys := List.nodup_nil
  positive _ h := by cases h
  sum := rfl
  total := rfl
  blocked := rfl
  anomalies := rfl

theorem Counted.add {summary : SessionReplaySummary} {entries : List LogEntry} (h : Counted summary entries)
    (entry : LogEntry) : Counted (summary.add entry) (entries ++ [entry]) where
  counts eventType := by
    have hold := h.counts eventType
    rw [countOf, List.countP_append, List.countP_singleton, SessionReplaySummary.add]
    by_cases htype : entry.body.eventType = eventType
    · subst htype
      rw [KeyValue.get_put_self, Option.getD_some, hold, if_pos (beq_self_eq_true _)]
      rfl
    · rw [KeyValue.get_put_of_ne (Ne.symm htype), hold, if_neg (by simpa using htype)]
      rfl
  keys := KeyValue.nodup_put h.keys _ _
  positive counted hmem := by
    cases KeyValue.mem_of_mem_put hmem with
    | inl heq =>
      rw [heq]
      exact Nat.succ_pos _
    | inr hin => exact h.positive counted hin
  sum := by
    have hsum := KeyValue.sum_put summary.countsPerEventType entry.body.eventType
      ((summary.countsPerEventType.get entry.body.eventType).getD 0 + 1)
    have hold := h.sum
    show ((summary.countsPerEventType.put _ _).map Prod.snd).sum = _
    rw [List.length_append, List.length_singleton]
    omega
  total := by rw [List.length_append, SessionReplaySummary.add, h.total, List.length_singleton]
  blocked := by
    rw [List.countP_append, List.countP_singleton, ← h.blocked, SessionReplaySummary.add]
    by_cases hblocked : entry.body.resultStatus = .BLOCKED <;> simp [hblocked]
  anomalies := by
    rw [List.countP_append, List.countP_singleton, ← h.anomalies, SessionReplaySummary.add]
    by_cases hanomaly : isAnomaly entry.body.eventType = true <;> simp [hanomaly]

theorem counted_foldl {summary : SessionReplaySummary} {before : List LogEntry} (h : Counted summary before)
    (entries : List LogEntry) : Counted (entries.foldl SessionReplaySummary.add summary) (before ++ entries) := by
  induction entries generalizing summary before with
  | nil => rwa [List.append_nil]
  | cons entry entries ih =>
    rw [List.append_cons]
    exact ih (h.add entry)

theorem counted_buildSummary (entries : List LogEntry) : Counted (buildSummary entries) entries :=
  have h := counted_foldl counted_nil entries
  ⟨h.counts, h.keys, h.positive, h.sum, h.total, h.blocked, h.anomalies⟩

/-! ## What a replay says of a file -/

section
variable {hmac : Hmac} {zod : Zod} {collator : Collator}

theorem mem_readEntriesForSession {content : List Char} {sessionId : String} {entry : LogEntry} :
    entry ∈ readEntriesForSession zod collator content sessionId ↔
      entry ∈ readEntries zod content ∧ entry.body.sessionId.holds sessionId = true := by
  rw [readEntriesForSession, mem_sort, List.mem_filter]

theorem consistent_byTimestamp : Consistent (byTimestamp collator) where
  total a b := collator.consistent.total a.body.timestamp b.body.timestamp
  trans a b c := collator.consistent.trans a.body.timestamp b.body.timestamp c.body.timestamp

namespace ForensicsService
variable {service : ForensicsService}

theorem replay_eq_ok {content : List Char} {sessionId : String} {r : SessionReplay} :
    service.replay hmac zod collator (some content) sessionId = .ok r ↔
      ∃ chainResult, service.verifySessionChain hmac (readEntriesForSession zod collator content sessionId) =
          .ok chainResult ∧
        r = ⟨sessionId, readEntriesForSession zod collator content sessionId, chainResult.valid,
          buildSummary (readEntriesForSession zod collator content sessionId)⟩ := by
  rw [replay]
  cases hcheck : service.verifySessionChain hmac (readEntriesForSession zod collator content sessionId) with
  | error e => simp
  | ok chainResult => simp [eq_comm]

/-- `replay` returns, and says that the chain is valid. -/
def Vouches (service : ForensicsService) (hmac : Hmac) (zod : Zod) (collator : Collator)
    (content : List Char) (sessionId : String) : Prop :=
  ∃ r, service.replay hmac zod collator (some content) sessionId = .ok r ∧ r.chainValid = true

theorem vouches_iff {content : List Char} {sessionId : String} :
    service.Vouches hmac zod collator content sessionId ↔
      ∀ e ∈ readEntries zod content, e.body.sessionId.holds sessionId = true →
        service.hmacChain.sign hmac e.body = e.entryHmac := by
  have hvalid := verifySessionFrom_valid_iff hmac service.hmacChain
    (readEntriesForSession zod collator content sessionId).length 0
    (readEntriesForSession zod collator content sessionId)
  simp only [mem_readEntriesForSession, and_imp] at hvalid
  rw [← hvalid]
  constructor
  · rintro ⟨r, hreplay, hr⟩
    obtain ⟨chainResult, hcheck, rfl⟩ := replay_eq_ok.mp hreplay
    exact ⟨chainResult, hcheck, hr⟩
  · rintro ⟨chainResult, hcheck, hr⟩
    exact ⟨_, replay_eq_ok.mpr ⟨chainResult, hcheck, rfl⟩, hr⟩

end ForensicsService

/-- **The account of a session.** A replay holds the session's entries of the file, each as often as the file does, in
the order of their timestamps; its summary counts them, names the first and the last timestamp, and the chain is valid
when each of them carries its own HMAC. -/
theorem replay_account (service : ForensicsService) (content : List Char) (sessionId : String) {r : SessionReplay}
    (h : service.replay hmac zod collator (some content) sessionId = .ok r) :
    r.entries.Perm ((readEntries zod content).filter fun e => e.body.sessionId.holds sessionId) ∧
      (r.entries.Pairwise fun a b => 0 ≤ collator.localeCompare b.body.timestamp a.body.timestamp) ∧
      Counted r.summary r.entries ∧
      (∀ e ∈ r.entries, 0 ≤ collator.localeCompare e.body.timestamp r.summary.firstTimestamp ∧
        0 ≤ collator.localeCompare r.summary.lastTimestamp e.body.timestamp) ∧
      (r.chainValid = true ↔ ∀ e ∈ r.entries, service.hmacChain.sign hmac e.body = e.entryHmac) := by
  obtain ⟨chainResult, hcheck, rfl⟩ := ForensicsService.replay_eq_ok.mp h
  have hsorted : (readEntriesForSession zod collator content sessionId).Pairwise fun a b =>
      0 ≤ collator.localeCompare b.body.timestamp a.body.timestamp := pairwise_sort consistent_byTimestamp _
  have hself : ∀ t, 0 ≤ collator.localeCompare t t := fun t => (collator.consistent.total t t).elim id id
  refine ⟨sort_perm _ _, hsorted, counted_buildSummary _, fun e he => ⟨?_, ?_⟩, ?_⟩
  · show 0 ≤ collator.localeCompare _ (buildSummary _).firstTimestamp
    generalize readEntriesForSession zod collator content sessionId = entries at hsorted he
    cases entries with
    | nil => cases he
    | cons first rest =>
      cases List.mem_cons.mp he with
      | inl heq =>
        rw [heq]
        exact hself _
      | inr hin => exact (List.pairwise_cons.mp hsorted).1 e hin
  · show 0 ≤ collator.localeCompare (buildSummary _).lastTimestamp _
    generalize readEntriesForSession zod collator content sessionId = entries at hsorted he
    obtain ⟨start, last, rfl⟩ := (List.eq_nil_or_concat' _).resolve_left (List.ne_nil_of_mem he)
    rw [buildSummary, List.getLast?_concat]
    cases List.mem_append.mp he with
    | inl hin => exact (List.pairwise_append.mp hsorted).2.2 e hin last (List.mem_singleton.mpr rfl)
    | inr hlast =>
      rw [List.mem_singleton.mp hlast]
      exact hself _
  · rw [← verifySessionFrom_valid_iff _ _ (readEntriesForSession zod collator content sessionId).length 0]
    constructor
    · exact fun hvalid => ⟨chainResult, hcheck, hvalid⟩
    · rintro ⟨chainResult', hcheck', hvalid⟩
      obtain rfl := Except.ok.inj (hcheck.symm.trans hcheck')
      exact hvalid

/-- **Line by line.** A session of a file is vouched for exactly when it is vouched for in every line alone: whether
lines have been taken out, put in another order or repeated is not noticed. -/
theorem vouches_by_line (service : ForensicsService) (sessionId : String) {lines : List (List Char)}
    (h : ∀ line ∈ lines, '\n' ∉ line) :
    service.Vouches hmac zod collator (['\n'].intercalate lines) sessionId ↔
      ∀ line ∈ lines, service.Vouches hmac zod collator line sessionId := by
  have hread : ∀ e, e ∈ readEntries zod (['\n'].intercalate lines) ↔ ∃ line ∈ lines, e ∈ readEntries zod line := by
    intro e
    by_cases hnil : lines = []
    · subst hnil
      simp [readEntries_nil]
    · have hsingle : ∀ line ∈ lines, (e ∈ readEntries zod line ↔
          line.all isJsSpace = false ∧ (parseJson line).bind (parseEntry zod) = some e) := by
        intro line hline
        rw [readEntries, List.splitOn_eq_singleton (h line hline)]
        simp
      rw [readEntries, List.splitOn_intercalate '\n' h hnil]
      simp only [List.mem_filterMap, List.mem_filter, Bool.not_eq_true']
      constructor
      · rintro ⟨line, ⟨hline, hblank⟩, hparse⟩
        exact ⟨line, hline, (hsingle line hline).mpr ⟨hblank, hparse⟩⟩
      · rintro ⟨line, hline, hmem⟩
        obtain ⟨hblank, hparse⟩ := (hsingle line hline).mp hmem
        exact ⟨line, ⟨hline, hblank⟩, hparse⟩
  simp only [ForensicsService.vouches_iff, hread]
  constructor
  · intro hall line hline e he
    exact hall e ⟨line, hline, he⟩
  · rintro hall e ⟨line, hline, he⟩
    exact hall line hline e he

end

/-! ## Replaying what was logged -/

section
variable (hmac : Hmac) (chain : HmacChain)

/-- The entries that processes sign and write, from a process that links to `lastEntryHmac` on. -/
def logged (lastEntryHmac : String) : List ProcessEvent → List EntryBody
  | [] => []
  | .restart :: events => logged initialHmac events
  | .log event context id timestamp written :: events =>
    let body := entryWithoutHmac event context id timestamp lastEntryHmac
    if written then body :: logged (chain.sign hmac body) events else logged lastEntryHmac events

def readBackEntry (body : EntryBody) : LogEntry := ⟨body.readBack, chain.sign hmac body⟩

variable {hmac chain} {zod : Zod}

theorem proper_logged {lastEntryHmac : String} {events : List ProcessEvent} :
    ∀ body ∈ logged hmac chain lastEntryHmac events, body.Proper := by
  induction events generalizing lastEntryHmac with
  | nil => exact fun _ h => by cases h
  | cons e events ih =>
    cases e with
    | restart => exact ih
    | log event context id timestamp written =>
      cases written with
      | false => exact ih
      | true => exact List.forall_mem_cons.mpr ⟨proper_entryWithoutHmac _ _ _ _ _, ih⟩

/-- The file of a deployment reads as these entries, whatever is appended to it. -/
def ReadsAs (zod : Zod) (s : Deployment) (entries : List LogEntry) : Prop :=
  ∀ rest, readEntries zod (s.file.getD [] ++ rest) = entries ++ readEntries zod rest

/-- What is read of the line that is written for an entry. -/
def readLine (hmac : Hmac) (chain : HmacChain) (zod : Zod) (body : EntryBody) : Option LogEntry :=
  parseEntry zod (.obj (signed hmac chain body).printed)

theorem ReadsAs.append {s : Deployment} {entries : List LogEntry} (h : ReadsAs zod s entries) {body : EntryBody}
    (hp : body.Proper) :
    ReadsAs zod (s.append hmac chain body) (entries ++ (readLine hmac chain zod body).toList) := by
  intro rest
  rw [Deployment.append, Option.getD_some, List.append_assoc, h, List.append_assoc,
    readEntries_line zod (show (signed hmac chain body).body.Proper from hp)]
  rfl

theorem ReadsAs.run {s s' : Deployment} {entries : List LogEntry} {events : List ProcessEvent}
    (h : ReadsAs zod s entries) (hrun : (deployments hmac chain).run s events = some s') :
    ReadsAs zod s' (entries ++ (logged hmac chain s.lastEntryHmac events).filterMap (readLine hmac chain zod)) := by
  induction events generalizing s entries with
  | nil =>
    have hs : s = s' := Option.some.inj ((StepSystem.run_nil _ s).symm.trans hrun)
    have hnone : entries ++ List.filterMap (readLine hmac chain zod) [] = entries := List.append_nil entries
    show ReadsAs zod s' (entries ++ List.filterMap (readLine hmac chain zod) [])
    rw [hnone, ← hs]
    exact h
  | cons e events ih =>
    cases e with
    | restart =>
      have hstep : (deployments hmac chain).step s .restart = some { s with lastEntryHmac := initialHmac } := rfl
      rw [StepSystem.run_cons _ hstep] at hrun
      exact ih (s := { s with lastEntryHmac := initialHmac }) h hrun
    | log event context id timestamp written =>
      cases written with
      | false =>
        have hstep : (deployments hmac chain).step s (.log event context id timestamp false) = some s := rfl
        rw [StepSystem.run_cons _ hstep] at hrun
        exact ih h hrun
      | true =>
        have hstep : (deployments hmac chain).step s (.log event context id timestamp true) =
          some (s.append hmac chain (entryWithoutHmac event context id timestamp s.lastEntryHmac)) := rfl
        rw [StepSystem.run_cons _ hstep] at hrun
        have hrest := ih (h.append (proper_entryWithoutHmac _ _ _ _ _)) hrun
        rw [List.append_assoc] at hrest
        show ReadsAs zod s' (entries ++ List.filterMap _ (_ :: logged hmac chain _ events))
        rw [List.filterMap_cons]
        cases hline : readLine hmac chain zod (entryWithoutHmac event context id timestamp s.lastEntryHmac) with
        | none => simpa [hline, append_lastEntryHmac] using hrest
        | some entry => simpa [hline, append_lastEntryHmac] using hrest

/-- Only entries that pass the schema are read. -/
theorem readLine_eq_some {body : EntryBody} (hp : body.Proper) {entry : LogEntry} :
    readLine hmac chain zod body = some entry ↔ body.Valid zod ∧ entry = readBackEntry hmac chain body :=
  parseEntry_printed (signed hmac chain body) hp

open Classical in
theorem filterMap_readLine {bodies : List EntryBody} (hp : ∀ body ∈ bodies, body.Proper) :
    bodies.filterMap (readLine hmac chain zod) =
      (bodies.filter fun body => body.Valid zod).map (readBackEntry hmac chain) := by
  induction bodies with
  | nil => rfl
  | cons body bodies ih =>
    obtain ⟨hbody, hbodies⟩ := List.forall_mem_cons.mp hp
    rw [List.filterMap_cons, List.filter_cons]
    by_cases hvalid : body.Valid zod
    · rw [(readLine_eq_some hbody).mpr ⟨hvalid, rfl⟩, if_pos (decide_eq_true hvalid), List.map_cons]
      exact congrArg _ (ih hbodies)
    · have hnone : readLine hmac chain zod body = none := by
        rw [Option.eq_none_iff_forall_not_mem]
        exact fun entry hentry => hvalid ((readLine_eq_some hbody).mp hentry).1
      rw [hnone, if_neg (by simpa using hvalid)]
      exact ih hbodies

theorem holds_readBack (f : OptionalField) (sessionId : String) : f.readBack.holds sessionId = f.holds sessionId := by
  cases f <;> rfl

open Classical in
/-- What was logged in a session and passes the schema. -/
noncomputable def loggedIn (zod : Zod) (sessionId : String) (bodies : List EntryBody) : List EntryBody :=
  bodies.filter fun body => body.Valid zod ∧ body.sessionId.holds sessionId = true

theorem mem_loggedIn {sessionId : String} {bodies : List EntryBody} {body : EntryBody} :
    body ∈ loggedIn zod sessionId bodies ↔
      body ∈ bodies ∧ body.Valid zod ∧ body.sessionId.holds sessionId = true := by
  simp [loggedIn]

theorem ReadsAs.session {s : Deployment} {bodies : List EntryBody} (hp : ∀ body ∈ bodies, body.Proper)
    (h : ReadsAs zod s (bodies.filterMap (readLine hmac chain zod))) (sessionId : String) :
    ((readEntries zod (s.file.getD [])).filter fun entry => entry.body.sessionId.holds sessionId) =
      (loggedIn zod sessionId bodies).map (readBackEntry hmac chain) := by
  have hread := h []
  rw [List.append_nil, readEntries_nil, List.append_nil, filterMap_readLine hp] at hread
  rw [hread, List.filter_map, List.filter_filter, loggedIn]
  congr 1
  refine List.filter_congr fun body _ => ?_
  show (body.sessionId.readBack.holds sessionId && _) = _
  rw [holds_readBack, Bool.and_comm]
  by_cases hvalid : body.Valid zod <;> simp [hvalid]

/-- What is read back of a proper entry carries its own HMAC when the entry does not clash. -/
theorem sign_readBackEntry (hinj : (hmac chain.secret).Injective) {body : EntryBody} (hp : body.Proper)
    (hvalid : body.Valid zod) :
    chain.sign hmac (readBackEntry hmac chain body).body = (readBackEntry hmac chain body).entryHmac ↔
      body.NoClash := by
  rw [← hvalid.canonicalize_readBack hp]
  exact hinj.eq_iff

variable {collator : Collator}

/-- **What was logged is replayed.** Processes start over one file as often as they like, writes fail, and all log to
any sessions. The replay of a session returns what was logged in that session and passes the schema, in the order of the
timestamps, which is the order of the writes unless the clock went back; and it finds the chain valid exactly when none
of these entries has an undefined field that hides a value of its payload. -/
theorem replay_of_run {service : ForensicsService} (hinj : (hmac service.hmacChain.secret).Injective)
    (hbytes : ∀ text, jsLength (hmac service.hmacChain.secret text) = (hmac service.hmacChain.secret text).utf8ByteSize)
    {events : List ProcessEvent} {s : Deployment} {content : List Char}
    (hrun : (deployments hmac service.hmacChain).run firstProcess events = some s) (hfile : s.file = some content)
    (sessionId : String) :
    ∃ r, service.replay hmac zod collator s.file sessionId = .ok r ∧
      r.entries = sort (byTimestamp collator)
        ((loggedIn zod sessionId (logged hmac service.hmacChain initialHmac events)).map
          (readBackEntry hmac service.hmacChain)) ∧
      (((loggedIn zod sessionId (logged hmac service.hmacChain initialHmac events)).Pairwise fun a b =>
          0 ≤ collator.localeCompare b.timestamp a.timestamp) →
        r.entries = (loggedIn zod sessionId (logged hmac service.hmacChain initialHmac events)).map
          (readBackEntry hmac service.hmacChain)) ∧
      (r.chainValid = true ↔
        ∀ body ∈ loggedIn zod sessionId (logged hmac service.hmacChain initialHmac events), body.NoClash) := by
  generalize hbodies : loggedIn zod sessionId (logged hmac service.hmacChain initialHmac events) = bodies
  have hbody : ∀ body ∈ bodies, body.Proper ∧ body.Valid zod := by
    intro body hmem
    rw [← hbodies] at hmem
    exact ⟨proper_logged body (mem_loggedIn.mp hmem).1, (mem_loggedIn.mp hmem).2.1⟩
  have hentries : readEntriesForSession zod collator content sessionId =
      sort (byTimestamp collator) (bodies.map (readBackEntry hmac service.hmacChain)) := by
    have hempty : ReadsAs zod firstProcess [] := fun _ => rfl
    have hreads := hempty.run hrun
    have hsession := ReadsAs.session proper_logged hreads sessionId
    rw [hfile, Option.getD_some] at hsession
    rw [readEntriesForSession, hsession, ← hbodies]
    rfl
  have hmem : ∀ e, e ∈ readEntriesForSession zod collator content sessionId ↔
      ∃ body ∈ bodies, readBackEntry hmac service.hmacChain body = e := by
    intro e
    rw [hentries, mem_sort, List.mem_map]
  have hreturns : ∀ e ∈ readEntriesForSession zod collator content sessionId,
      ¬ Mismatched hmac service.hmacChain e := by
    rintro e he ⟨hlen, hsize⟩
    obtain ⟨body, -, rfl⟩ := (hmem e).mp he
    have hown := hbytes (canonicalize body)
    have hback := hbytes (canonicalize body.readBack)
    exact hsize (hback.symm.trans (hlen.trans hown))
  obtain ⟨chainResult, hcheck⟩ := verifySessionFrom_returns hmac service.hmacChain
    (readEntriesForSession zod collator content sessionId).length 0 hreturns
  have hreplay := ForensicsService.replay_eq_ok.mpr ⟨chainResult, hcheck, rfl⟩
  have hvalid : chainResult.valid = true ↔ ∀ body ∈ bodies, body.NoClash := by
    have hiff := verifySessionFrom_valid_iff hmac service.hmacChain
      (readEntriesForSession zod collator content sessionId).length 0
      (readEntriesForSession zod collator content sessionId)
    rw [hcheck] at hiff
    simp only [Except.ok.injEq, exists_eq_left', hmem, forall_exists_index, and_imp, forall_apply_eq_imp_iff₂] at hiff
    rw [hiff]
    exact forall₂_congr fun body hin => sign_readBackEntry hinj (hbody body hin).1 (hbody body hin).2
  rw [hfile]
  refine ⟨_, hreplay, hentries, fun hordered => ?_, hvalid⟩
  show readEntriesForSession zod collator content sessionId = _
  rw [hentries]
  exact sort_of_pairwise (List.pairwise_map.mpr hordered)

end

/-! ### A session over a restart -/

/-- A digest of ASCII characters for every text: where a table has none, as many marks as tell the text. -/
def markedHmac (table : KeyValue String String) : Hmac := fun _ text =>
  (KeyValue.get table text).getD
    (String.ofList (List.replicate (Encodable.encode (text.toList.map Char.toNat) + 1) '#'))

theorem markedHmac_injective {table : KeyValue String String} (hnodup : (table.map Prod.snd).Nodup)
    (hhex : ∀ m ∈ table, '#' ∉ m.2.toList) (secret : String) : (markedHmac table secret).Injective := by
  have hother : ∀ (a d : String), (a, d) ∈ table → ∀ n, d ≠ String.ofList (List.replicate (n + 1) '#') := by
    rintro a d hmem n rfl
    exact hhex _ hmem (by simp)
  intro a b h
  unfold markedHmac at h
  cases ha : KeyValue.get table a with
  | none =>
    cases hb : KeyValue.get table b with
    | none =>
      rw [ha, hb, Option.getD_none, Option.getD_none, String.ofList_inj] at h
      have hlen := congrArg List.length h
      rw [List.length_replicate, List.length_replicate] at hlen
      have hcodes := Encodable.encode_injective (Nat.succ.inj hlen)
      exact String.toList_injective (List.map_injective_iff.mpr (fun _ _ => Char.toNat_inj.mp) hcodes)
    | some d => exact absurd (by simpa [ha, hb] using h.symm) (hother b d (KeyValue.mem_of_get hb) _)
  | some d =>
    cases hb : KeyValue.get table b with
    | none => exact absurd (by simpa [ha, hb] using h) (hother a d (KeyValue.mem_of_get ha) _)
    | some d' =>
      obtain rfl : d = d' := by simpa [ha, hb] using h
      have hpair := List.inj_on_of_nodup_map hnodup (KeyValue.mem_of_get ha) (KeyValue.mem_of_get hb) rfl
      exact congrArg Prod.fst hpair

theorem markedHmac_bytes {table : KeyValue String String} (h : ∀ m ∈ table, jsLength m.2 = m.2.utf8ByteSize)
    (secret text : String) : jsLength (markedHmac table secret text) = (markedHmac table secret text).utf8ByteSize := by
  unfold markedHmac
  cases hget : KeyValue.get table text with
  | some d => exact h _ (KeyValue.mem_of_get hget)
  | none =>
    rw [Option.getD_none]
    generalize Encodable.encode (text.toList.map Char.toNat) + 1 = n
    induction n with
    | zero => decide
    | succ n ih =>
      have hmark : "#".utf8ByteSize = 1 := by decide
      rw [List.replicate_succ', String.ofList_append, String.utf8ByteSize_append, ← ih]
      simp [jsLength, hmark]

def sessionEntry (id timestamp : String) : EntryBody :=
  entryWithoutHmac tradeReported { testContext (some "user-1") with sessionId := some "session-1" } id timestamp
    initialHmac

def firstId : String := "550e8400-e29b-41d4-a716-446655440000"

def laterId : String := "550e8400-e29b-41d4-a716-446655440001"

/-- The digests of the two entries of the session under the secret of the test chain. -/
def sessionHmac : Hmac := markedHmac
  [(canonicalize (sessionEntry firstId "2026-04-12T10:00:00.000Z"),
      "1bd31e555ef3365ba78523f187820adcbc43faaf4581b762aab1940467ba4e60"),
    (canonicalize (sessionEntry laterId "2026-04-12T10:01:00.000Z"),
      "b332169dfc465b8dda0405577d453da76e3dabc4c3808f03186dbfb91291f438")]

theorem sessionHmac_injective (secret : String) : (sessionHmac secret).Injective :=
  markedHmac_injective (by decide +kernel) (by decide +kernel) secret

def testForensics : ForensicsService := ⟨"./logs/audit.jsonl", testChain⟩

def logSession (sessionId id timestamp : String) (written : Bool) : ProcessEvent :=
  .log tradeReported { testContext (some "user-1") with sessionId := some sessionId } id timestamp written

/-- Another session's entry is not written; a second process logs to the session of the first. -/
def sessionEvents : List ProcessEvent :=
  [logSession "session-1" firstId "2026-04-12T10:00:00.000Z" true,
    logSession "session-2" laterId "2026-04-12T10:00:00.000Z" false, .restart,
    logSession "session-1" laterId "2026-04-12T10:01:00.000Z" true]

theorem valid_sessionEntry {id timestamp : String} (hid : testZod.uuid id = true)
    (htimestamp : testZod.datetime timestamp = true) : (sessionEntry id timestamp).Valid testZod :=
  ⟨hid, htimestamp, ⟨_, rfl⟩, by simp [sessionEntry, entryWithoutHmac, testContext]⟩

/-- Both entries of the session are replayed in their order, and the chain is valid. -/
theorem replay_of_run_restarted :
    ∃ s r, (deployments sessionHmac testChain).run firstProcess sessionEvents = some s ∧
      testForensics.replay sessionHmac testZod codePointCollator s.file "session-1" = .ok r ∧
      r.entries = [sessionEntry firstId "2026-04-12T10:00:00.000Z",
        sessionEntry laterId "2026-04-12T10:01:00.000Z"].map (readBackEntry sessionHmac testChain) ∧
      r.chainValid = true := by
  have hlogged : loggedIn testZod "session-1" (logged sessionHmac testForensics.hmacChain initialHmac sessionEvents) =
      [sessionEntry firstId "2026-04-12T10:00:00.000Z", sessionEntry laterId "2026-04-12T10:01:00.000Z"] := by
    have hbodies : logged sessionHmac testForensics.hmacChain initialHmac sessionEvents =
      [sessionEntry firstId "2026-04-12T10:00:00.000Z", sessionEntry laterId "2026-04-12T10:01:00.000Z"] := rfl
    have hfirst : (sessionEntry firstId "2026-04-12T10:00:00.000Z").Valid testZod :=
      valid_sessionEntry (by decide) (by decide)
    have hlater : (sessionEntry laterId "2026-04-12T10:01:00.000Z").Valid testZod :=
      valid_sessionEntry (by decide) (by decide)
    have hsession : ∀ id timestamp, (sessionEntry id timestamp).sessionId.holds "session-1" = true :=
      fun _ _ => beq_self_eq_true "session-1"
    rw [hbodies]
    simp [loggedIn, hfirst, hlater, hsession]
  have hbytes : ∀ secret text, jsLength (sessionHmac secret text) = (sessionHmac secret text).utf8ByteSize :=
    markedHmac_bytes (by decide +kernel)
  obtain ⟨r, hreplay, -, hordered, hvalid⟩ := @replay_of_run sessionHmac testZod codePointCollator testForensics
    (sessionHmac_injective _) (hbytes _) sessionEvents _ _ rfl rfl "session-1"
  rw [hlogged] at hordered hvalid
  refine ⟨_, r, rfl, hreplay, hordered (by decide +kernel), hvalid.mpr ?_⟩
  simp only [List.forall_mem_cons]
  exact ⟨noClash_tradeReported rfl, noClash_tradeReported rfl, fun _ h => by cases h⟩

theorem vouches_sessionEntry (sessionId : String) :
    testForensics.Vouches sessionHmac testZod codePointCollator
      (signed sessionHmac testChain (sessionEntry firstId "2026-04-12T10:00:00.000Z")).line sessionId := by
  have hvalid : (sessionEntry firstId "2026-04-12T10:00:00.000Z").Valid testZod :=
    valid_sessionEntry (by decide) (by decide)
  have hproper : (sessionEntry firstId "2026-04-12T10:00:00.000Z").Proper := proper_entryWithoutHmac _ _ _ _ _
  have hread := hvalid.readEntries_line hproper
    (testChain.sign sessionHmac (sessionEntry firstId "2026-04-12T10:00:00.000Z")) []
  rw [List.append_nil, readEntries_nil] at hread
  rw [ForensicsService.vouches_iff, signed, hread]
  intro e he _
  rw [List.mem_singleton.mp he]
  exact (sign_readBackEntry (sessionHmac_injective _) hproper hvalid).mpr (noClash_tradeReported rfl)

/-- The account of a file with one entry of the session. -/
theorem replay_account_single :
    ∃ r, testForensics.replay sessionHmac testZod codePointCollator
        (some (signed sessionHmac testChain (sessionEntry firstId "2026-04-12T10:00:00.000Z")).line)
        "session-1" = .ok r ∧
      r.chainValid = true ∧ Counted r.summary r.entries := by
  obtain ⟨r, hreplay, hvalid⟩ := vouches_sessionEntry "session-1"
  exact ⟨r, hreplay, hvalid, (replay_account testForensics _ "session-1" hreplay).2.2.1⟩

def sessionLine : List Char :=
  (JsonValue.obj (signed sessionHmac testChain (sessionEntry firstId "2026-04-12T10:00:00.000Z")).printed).text

/-- The entry's line stands in the file twice, with something in between that is not JSON. -/
theorem vouches_by_line_repeated :
    testForensics.Vouches sessionHmac testZod codePointCollator
      (['\n'].intercalate [sessionLine, ['?'], sessionLine]) "session-1" := by
  have htext : '\n' ∉ sessionLine := fun hmem => absurd (JsonValue.text_printable _ _ hmem) (by decide)
  have hline : (signed sessionHmac testChain (sessionEntry firstId "2026-04-12T10:00:00.000Z")).line =
      ['\n'].intercalate [sessionLine, []] := by
    rw [LogEntry.line_eq, List.intercalate_cons_cons, List.intercalate_singleton, List.append_nil]
    rfl
  have hsingle : testForensics.Vouches sessionHmac testZod codePointCollator sessionLine "session-1" := by
    have hboth := vouches_sessionEntry "session-1"
    rw [hline, vouches_by_line testForensics "session-1" (by simp [htext])] at hboth
    exact hboth sessionLine List.mem_cons_self
  have hgarbage : testForensics.Vouches sessionHmac testZod codePointCollator ['?'] "session-1" := by
    have hread : readEntries testZod ['?'] = [] := by decide +kernel
    rw [ForensicsService.vouches_iff, hread]
    exact fun _ h => by cases h
  rw [vouches_by_line testForensics "session-1" (by simp [htext])]
  simp only [List.forall_mem_cons]
  exact ⟨hsingle, hgarbage, hsingle, fun _ h => by cases h⟩

end SuperAi.Audit
