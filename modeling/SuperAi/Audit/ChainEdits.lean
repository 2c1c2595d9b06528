import SuperAi.Audit.ConcurrentLog
import SuperAi.Foundations.HashChain

/-! # Edits of the audit log

What `verifyChain` says of a list that somebody without the key has made out of the log of one
logger. It looks at neighbours only: a run of consecutive entries is valid wherever it starts, and so
is one whose entries were changed where no signature covers them. Everything else is reported, unless
a stored HMAC makes the comparison throw (`edits_detected_iff`).
-/
namespace SuperAi.Audit
open SuperAi.Foundations
set_option autoImplicit false

/-! ## The log of one logger -/

structure LogRequest where
  event : SecurityEvent
  context : LogContext
  id : String
  timestamp : String

section
variable (hmac : Hmac) (chain : HmacChain)

/-- The entries of calls made one after another, from a given link on. -/
def logAll : String → List LogRequest → List LogEntry
  | _, [] => []
  | lastEntryHmac, r :: requests =>
    let entry :=
      signed hmac chain (entryWithoutHmac r.event r.context r.id r.timestamp lastEntryHmac)
    entry :: logAll entry.entryHmac requests

theorem logAll_signed (lastEntryHmac : String) (requests : List LogRequest) :
    ∀ e ∈ logAll hmac chain lastEntryHmac requests, chain.sign hmac e.body = e.entryHmac := by
  induction requests generalizing lastEntryHmac with
  | nil =>
    intro e he
    cases he
  | cons r requests ih =>
    intro e he
    rcases List.mem_cons.mp he with rfl | he
    · rfl
    · exact ih _ e he

theorem logAll_head {lastEntryHmac : String} {requests : List LogRequest} {first : LogEntry}
    (h : (logAll hmac chain lastEntryHmac requests).head? = some first) :
    first.body.previousEntryHmac = lastEntryHmac := by
  cases requests with
  | nil => cases h
  | cons r requests =>
    obtain rfl := Option.some.inj h
    rfl

theorem logAll_linked (lastEntryHmac : String) (requests : List LogRequest) :
    Linked (logAll hmac chain lastEntryHmac requests) := by
  induction requests generalizing lastEntryHmac with
  | nil => exact List.isChain_nil
  | cons r requests ih =>
    refine List.isChain_cons.mpr ⟨fun e he => ?_, ih _⟩
    exact logAll_head hmac chain he

/-- The calls as steps of the logger, each of them ended before the next one starts. -/
def sequentially (requests : List LogRequest) : List LogStep :=
  requests.flatMap fun r => [.start r.event r.context r.id r.timestamp, .lands 0, .advances 0]

theorem run_sequentially (lastEntryHmac : String) (file : List LogEntry) (requests : List LogRequest) :
    ∃ last, (concurrentLog hmac chain).run ⟨lastEntryHmac, [], file⟩ (sequentially requests) =
      some ⟨last, [], file ++ logAll hmac chain lastEntryHmac requests⟩ := by
  induction requests generalizing lastEntryHmac file with
  | nil => exact ⟨lastEntryHmac, by simp [sequentially, logAll]⟩
  | cons r requests ih =>
    let entry :=
      signed hmac chain (entryWithoutHmac r.event r.context r.id r.timestamp lastEntryHmac)
    obtain ⟨last, hrest⟩ := ih entry.entryHmac (file ++ [entry])
    have hone : (concurrentLog hmac chain).run ⟨lastEntryHmac, [], file⟩
        [.start r.event r.context r.id r.timestamp, .lands 0, .advances 0] =
        some ⟨entry.entryHmac, [], file ++ [entry]⟩ := rfl
    refine ⟨last, ?_⟩
    rw [sequentially, List.flatMap_cons, StepSystem.run_append, hone, Option.bind_some]
    rw [← sequentially, hrest, List.append_assoc]
    rfl

end

/-! ## Which lists are reported -/

section
variable {hmac : Hmac} {chain : HmacChain}

theorem previousEntryHmac_of_canonicalize {e e' : EntryBody} (h : canonicalize e = canonicalize e') :
    e.previousEntryHmac = e'.previousEntryHmac := by
  have hvisible : ∀ e : EntryBody, e.toJs.visible e.keys [.key "previousEntryHmac"] =
      some (.str e.previousEntryHmac) := by
    intro e
    have hmem : ("previousEntryHmac", JsValue.str e.previousEntryHmac) ∈ e.members := by
      simp [EntryBody.members]
    have hkey : "previousEntryHmac" ∈ e.keys := EntryBody.mem_keys.mpr (List.mem_map.mpr ⟨_, hmem, rfl⟩)
    rw [JsValue.visible, if_pos hkey]
    show (KeyValue.get e.members "previousEntryHmac").bind _ = _
    rw [(KeyValue.get_eq_some_iff e.members_nodup).mpr hmem]
    rfl
  have hsame := (canonicalize_eq_iff e e').mp h [.key "previousEntryHmac"]
  rw [hvisible, hvisible] at hsame
  exact JsonHead.str.inj (Option.some.inj hsame)

/-- The entries look alike to `verifyChain`: they have the same signed text and the same HMAC. -/
def SameSigned (e e' : LogEntry) : Prop :=
  canonicalize e.body = canonicalize e'.body ∧ e.entryHmac = e'.entryHmac

/-- The list looks like a run of consecutive entries of the log. -/
def CopiesSegment (log entries : List LogEntry) : Prop :=
  ∃ before seg after, log = before ++ seg ++ after ∧ List.Forall₂ SameSigned entries seg

/-- `timingSafeEqual` throws on the stored HMAC. -/
def Mismatched (hmac : Hmac) (chain : HmacChain) (e : LogEntry) : Prop :=
  jsLength (chain.sign hmac e.body) = jsLength e.entryHmac ∧
    (chain.sign hmac e.body).utf8ByteSize ≠ e.entryHmac.utf8ByteSize

theorem verify_throws_iff {e : LogEntry} :
    (∃ msg, chain.verify hmac e = .error msg) ↔ Mismatched hmac chain e := by
  unfold HmacChain.verify safeCompare Mismatched
  split
  · rename_i hlen
    simp [hlen]
  · rename_i hlen
    split
    · rename_i hbytes
      simp [not_not.mp hlen, hbytes]
    · rename_i hbytes
      simp [not_not.mp hbytes]

/-- The entries before the one that throws have passed. -/
def ThrowsAt (hmac : Hmac) (chain : HmacChain) (previous : Option LogEntry) (entries : List LogEntry) :
    Prop :=
  ∃ front e rest, entries = front ++ e :: rest ∧
    ((∀ d ∈ front, chain.sign hmac d.body = d.entryHmac) ∧ Linked (previous.toList ++ front)) ∧
      Mismatched hmac chain e

theorem linked_toList_cons {previous : Option LogEntry} {entry : LogEntry} {entries : List LogEntry} :
    Linked (previous.toList ++ entry :: entries) ↔
      (∀ p, previous = some p → entry.body.previousEntryHmac = p.entryHmac) ∧
        Linked (entry :: entries) := by
  cases previous <;> simp [Linked, List.isChain_cons_cons]

theorem linked_toList (previous : Option LogEntry) : Linked (previous.toList ++ []) := by
  cases previous <;> simp [Linked]

theorem throwsAt_cons {previous : Option LogEntry} {entry : LogEntry} {entries : List LogEntry} :
    ThrowsAt hmac chain previous (entry :: entries) ↔ Mismatched hmac chain entry ∨
      (chain.sign hmac entry.body = entry.entryHmac ∧
        (∀ p, previous = some p → entry.body.previousEntryHmac = p.entryHmac) ∧
          ThrowsAt hmac chain (some entry) entries) := by
  constructor
  · rintro ⟨front, e, rest, hsplit, ⟨hsigned, hlinked⟩, hthrows⟩
    cases front with
    | nil =>
      obtain ⟨rfl, rfl⟩ := List.cons.inj hsplit
      exact .inl hthrows
    | cons d front =>
      obtain ⟨rfl, rfl⟩ := List.cons.inj hsplit
      obtain ⟨hown, hfront⟩ := List.forall_mem_cons.mp hsigned
      obtain ⟨hlink, hrest⟩ := linked_toList_cons.mp hlinked
      exact .inr ⟨hown, hlink, front, e, rest, rfl, ⟨hfront, hrest⟩, hthrows⟩
  · rintro (hthrows | ⟨hown, hlink, front, e, rest, rfl, ⟨hsigned, hlinked⟩, hthrows⟩)
    · exact ⟨[], entry, entries, rfl, ⟨by simp, linked_toList previous⟩, hthrows⟩
    · have hall : ∀ d ∈ entry :: front, chain.sign hmac d.body = d.entryHmac :=
        List.forall_mem_cons.mpr ⟨hown, hsigned⟩
      exact ⟨entry :: front, e, rest, rfl, ⟨hall, linked_toList_cons.mpr ⟨hlink, hlinked⟩⟩, hthrows⟩

theorem verifyFrom_throws_iff (n i : ℕ) (previous : Option LogEntry) (entries : List LogEntry) :
    (∃ msg, chain.verifyFrom hmac n i previous entries = .error msg) ↔
      ThrowsAt hmac chain previous entries := by
  induction entries generalizing i previous with
  | nil =>
    constructor
    · rintro ⟨msg, h⟩
      cases h
    · rintro ⟨front, e, rest, hsplit, -⟩
      simp at hsplit
  | cons entry entries ih =>
    rw [throwsAt_cons, ← verify_throws_iff, ← verify_eq_true]
    unfold HmacChain.verifyFrom
    cases hverify : chain.verify hmac entry with
    | error e => simp
    | ok own =>
      cases own with
      | false => simp
      | true =>
        cases previous with
        | none => simp [ih]
        | some p =>
          by_cases hlink : entry.body.previousEntryHmac = p.entryHmac
          · simp [ih, hlink]
          · simp [hlink]

/-- What `verifyChain` reports as broken is neither valid nor too malformed to be compared. -/
theorem verifyChain_invalid_iff (entries : List LogEntry) :
    (∃ r, chain.verifyChain hmac entries = .ok r ∧ r.valid = false) ↔
      ¬ ((∀ e ∈ entries, chain.sign hmac e.body = e.entryHmac) ∧ Linked entries) ∧
        ¬ ThrowsAt hmac chain none entries := by
  rw [← verifyChain_valid_iff, ← verifyFrom_throws_iff entries.length 0 none entries]
  show _ ↔ _ ∧ ¬ ∃ msg, chain.verifyChain hmac entries = .error msg
  cases hresult : chain.verifyChain hmac entries with
  | error msg => simp
  | ok r => cases hvalid : r.valid <;> simp [hvalid]

theorem SameSigned.signed {e e' : LogEntry} (h : SameSigned e e')
    (h' : chain.sign hmac e'.body = e'.entryHmac) : chain.sign hmac e.body = e.entryHmac := by
  rw [HmacChain.sign, h.1, h.2, ← h']
  rfl

theorem signed_of_forall₂ {entries seg : List LogEntry} (h : List.Forall₂ SameSigned entries seg)
    (hseg : ∀ e ∈ seg, chain.sign hmac e.body = e.entryHmac) :
    ∀ e ∈ entries, chain.sign hmac e.body = e.entryHmac := by
  induction h with
  | nil => exact hseg
  | cons hsame _ ih =>
    obtain ⟨hown, hrest⟩ := List.forall_mem_cons.mp hseg
    exact List.forall_mem_cons.mpr ⟨hsame.signed hown, ih hrest⟩

/-- **Which lists are valid.** A list without forged entries is a valid chain exactly when it looks like
a run of consecutive entries of the log, wherever the run starts. -/
theorem valid_iff_copiesSegment (hinj : (hmac chain.secret).Injective)
    (hgenesis : ∀ text, hmac chain.secret text ≠ initialHmac) (requests : List LogRequest)
    (entries : List LogEntry)
    (hunforged : ∀ e ∈ entries, chain.sign hmac e.body = e.entryHmac →
      ∃ e' ∈ logAll hmac chain initialHmac requests, canonicalize e.body = canonicalize e'.body) :
    ((∀ e ∈ entries, chain.sign hmac e.body = e.entryHmac) ∧ Linked entries) ↔
      CopiesSegment (logAll hmac chain initialHmac requests) entries := by
  have hlog := logAll_signed hmac chain initialHmac requests
  have hlinked := logAll_linked hmac chain initialHmac requests
  have hhead : ∀ first, (logAll hmac chain initialHmac requests).head? = some first →
      first.body.previousEntryHmac = initialHmac := fun first h => logAll_head hmac chain h
  generalize logAll hmac chain initialHmac requests = log at *
  have hsegment : (∀ e ∈ entries, chain.sign hmac e.body = e.entryHmac) →
      (Linked entries ↔ CopiesSegment log entries) := by
    intro hsigned
    show ChainLinked LogEntry.entryHmac (fun e => e.body.previousEntryHmac) entries ↔ _
    refine ChainLinked.linked_iff_segment
      (fun e e' h => ⟨h.2, previousEntryHmac_of_canonicalize h.1⟩) hlinked hhead ?_ ?_ ?_
    · intro e he
      rw [← hsigned e he]
      exact hgenesis _
    · intro e he e' he' heq
      refine ⟨hinj ?_, heq⟩
      exact ((hsigned e he).trans heq).trans (hlog e' he').symm
    · intro e he
      have hmem : e ∈ entries := List.mem_of_getLast? he
      obtain ⟨e', he', hcanonical⟩ := hunforged e hmem (hsigned e hmem)
      refine ⟨e', he', ?_⟩
      rw [← hsigned e hmem, ← hlog e' he']
      exact congrArg (hmac chain.secret) hcanonical
  constructor
  · rintro ⟨hsigned, hentries⟩
    exact (hsegment hsigned).mp hentries
  · intro hcopies
    obtain ⟨before, seg, after, hsplit, hseg⟩ := id hcopies
    have hsigned := signed_of_forall₂ hseg fun e he => hlog e (by simp [hsplit, he])
    exact ⟨hsigned, (hsegment hsigned).mpr hcopies⟩

/-- **Edits.** For an injective HMAC that cannot be forged, every list but a beginning of the log is
reported exactly when it neither looks like a run of consecutive entries nor reaches, after such a run,
a stored HMAC that makes the comparison throw. -/
theorem edits_detected_iff (hinj : (hmac chain.secret).Injective)
    (hgenesis : ∀ text, hmac chain.secret text ≠ initialHmac) (requests : List LogRequest)
    (entries : List LogEntry)
    (hunforged : ∀ e ∈ entries, chain.sign hmac e.body = e.entryHmac →
      ∃ e' ∈ logAll hmac chain initialHmac requests, canonicalize e.body = canonicalize e'.body) :
    (¬ entries <+: logAll hmac chain initialHmac requests →
        ∃ r, chain.verifyChain hmac entries = .ok r ∧ r.valid = false) ↔
      (entries <+: logAll hmac chain initialHmac requests ∨
        (¬ CopiesSegment (logAll hmac chain initialHmac requests) entries ∧
          ¬ ∃ front e rest, entries = front ++ e :: rest ∧
            CopiesSegment (logAll hmac chain initialHmac requests) front ∧
              Mismatched hmac chain e)) := by
  have hthrows : ThrowsAt hmac chain none entries ↔ ∃ front e rest, entries = front ++ e :: rest ∧
      CopiesSegment (logAll hmac chain initialHmac requests) front ∧ Mismatched hmac chain e := by
    refine exists_congr fun front => exists_congr fun e => exists_congr fun rest => and_congr_right ?_
    rintro rfl
    refine and_congr_left fun _ => ?_
    exact valid_iff_copiesSegment hinj hgenesis requests front fun d hd =>
      hunforged d (List.mem_append_left _ hd)
  rw [verifyChain_invalid_iff, valid_iff_copiesSegment hinj hgenesis requests entries hunforged, hthrows,
    ← or_iff_not_imp_left]

end

/-! ### A log of two entries -/

def firstRequest : LogRequest :=
  ⟨tradeReported, testContext (some "user-1"), "550e8400-e29b-41d4-a716-446655440000",
    "2026-04-12T10:00:00.000Z"⟩

def laterRequest : LogRequest :=
  ⟨tradeReported, testContext (some "user-1"), "550e8400-e29b-41d4-a716-446655440001",
    "2026-04-12T10:01:00.000Z"⟩

theorem logAll_two (hmac : Hmac) (chain : HmacChain) :
    ∃ first later : LogEntry, logAll hmac chain initialHmac [firstRequest, laterRequest] = [first, later] ∧
      first.body.id = firstRequest.id ∧ later.body.id = laterRequest.id ∧
        first.body.previousEntryHmac = initialHmac :=
  ⟨_, _, rfl, rfl, rfl, rfl⟩

theorem firstRequest_id_ne : firstRequest.id ≠ laterRequest.id := by
  decide

theorem tradeHmac_ne_initialHmac (secret text : String) : tradeHmac secret text ≠ initialHmac := by
  refine tableHmac_ne ?_ ?_ secret text
  · decide
  · decide

/-- The two entries in the wrong order are reported. -/
theorem reordered_log_detected :
    ∃ r, testChain.verifyChain tradeHmac
        (logAll tradeHmac testChain initialHmac [firstRequest, laterRequest]).reverse = .ok r ∧
      r.valid = false := by
  have hgenesis : ∀ text, tradeHmac testChain.secret text ≠ initialHmac :=
    tradeHmac_ne_initialHmac testChain.secret
  have hsigned := logAll_signed tradeHmac testChain initialHmac [firstRequest, laterRequest]
  have hiff := edits_detected_iff (tradeHmac_injective _) hgenesis [firstRequest, laterRequest]
    (logAll tradeHmac testChain initialHmac [firstRequest, laterRequest]).reverse
    (fun e he _ => ⟨e, List.mem_reverse.mp he, rfl⟩)
  have hvalid := valid_iff_copiesSegment (tradeHmac_injective _) hgenesis [firstRequest, laterRequest]
    (logAll tradeHmac testChain initialHmac [firstRequest, laterRequest]).reverse
    (fun e he _ => ⟨e, List.mem_reverse.mp he, rfl⟩)
  obtain ⟨first, later, hlog, hfirst, hlater, hprevious⟩ := logAll_two tradeHmac testChain
  rw [hlog] at hiff hvalid hsigned ⊢
  refine hiff.mpr (.inr ⟨?_, ?_⟩) ?_
  · intro hcopies
    have hlink : first.body.previousEntryHmac = later.entryHmac :=
      (List.isChain_cons_cons.mp (hvalid.mpr hcopies).2).1
    rw [hprevious, ← hsigned later (by simp)] at hlink
    exact hgenesis _ hlink.symm
  · rintro ⟨front, e, rest, hsplit, -, hlength, hbytes⟩
    have hmem : e ∈ [first, later] := by
      have hin : e ∈ [first, later].reverse := by simp [hsplit]
      exact List.mem_reverse.mp hin
    exact hbytes (by rw [hsigned e hmem])
  · intro hstart
    have hsame : later = first := (List.cons_prefix_cons.mp hstart).1
    exact firstRequest_id_ne (by rw [← hfirst, ← hlater, hsame])

/-- No HMAC and no key let the chain without its first entry be told from a whole one. -/
theorem headless_log_valid :
    ¬ ∃ (hmac : Hmac) (chain : HmacChain), ∀ (requests : List LogRequest) (entries : List LogEntry),
      entries.Sublist (logAll hmac chain initialHmac requests) →
        ¬ entries <+: logAll hmac chain initialHmac requests →
          ∃ r, chain.verifyChain hmac entries = .ok r ∧ r.valid = false := by
  rintro ⟨hmac, chain, hall⟩
  have hsigned := logAll_signed hmac chain initialHmac [firstRequest, laterRequest]
  obtain ⟨first, later, hlog, hfirst, hlater, -⟩ := logAll_two hmac chain
  rw [hlog] at hsigned
  have hcut : ¬ [later] <+: logAll hmac chain initialHmac [firstRequest, laterRequest] := by
    rw [hlog]
    intro hstart
    have hsame : later = first := (List.cons_prefix_cons.mp hstart).1
    exact firstRequest_id_ne (by rw [← hfirst, ← hlater, hsame])
  have hreport := hall [firstRequest, laterRequest] [later] (by simp [hlog]) hcut
  refine ((verifyChain_invalid_iff [later]).mp hreport).1 ⟨?_, List.isChain_singleton later⟩
  intro e he
  obtain rfl := List.mem_singleton.mp he
  exact hsigned e (by simp)

end SuperAi.Audit
