import SuperAi.Audit.LogEntry

/-! # The HMAC chain (`hmac.chain.ts`)

`canonicalize` passes the sorted names of the entry's own fields to `JSON.stringify` as its list of
keys. That list selects the members of nested objects as well, so of the parameters and of the
circuit breaker states only what stands under a field name of the entry is signed
(`sign_covers_iff`).
-/
namespace SuperAi.Audit
open SuperAi.Foundations
set_option autoImplicit false

/-- `createHmac('sha256', secret).update(text).digest('hex')`. -/
abbrev Hmac := String → String → String

structure HmacChain where
  secret : String

def canonicalize (entry : EntryBody) : String :=
  String.ofList ((entry.toJs.toJson (some entry.keys)).getD .null).text

/-- The `length` of a string: its UTF-16 code units. -/
def jsLength (s : String) : ℕ := (s.toList.map fun c => if c.toNat < 0x10000 then 1 else 2).sum

/-- `timingSafeEqual` throws on buffers of different lengths. -/
def safeCompare (a b : String) : Except String Bool :=
  if jsLength a ≠ jsLength b then .ok false
  else if a.utf8ByteSize ≠ b.utf8ByteSize then .error "Input buffers must have the same byte length"
  else .ok (decide (a = b))

structure ChainVerificationResult where
  valid : Bool
  firstInvalidIndex : Option ℕ
  totalEntries : ℕ
  deriving DecidableEq

namespace HmacChain
variable (hmac : Hmac) (chain : HmacChain)

def sign (entry : EntryBody) : String := hmac chain.secret (canonicalize entry)

def verify (entry : LogEntry) : Except String Bool :=
  safeCompare (chain.sign hmac entry.body) entry.entryHmac

/-- The loop of `verifyChain` from index `i`, after the entry `previous`. -/
def verifyFrom (totalEntries : ℕ) : ℕ → Option LogEntry → List LogEntry →
    Except String ChainVerificationResult
  | _, _, [] => .ok ⟨true, none, totalEntries⟩
  | i, previous, entry :: entries =>
    match chain.verify hmac entry with
    | .error e => .error e
    | .ok false => .ok ⟨false, some i, totalEntries⟩
    | .ok true =>
      if previous.any fun p => entry.body.previousEntryHmac != p.entryHmac then
        .ok ⟨false, some i, totalEntries⟩
      else verifyFrom totalEntries (i + 1) (some entry) entries

def verifyChain (entries : List LogEntry) : Except String ChainVerificationResult :=
  chain.verifyFrom hmac entries.length 0 none entries

end HmacChain

/-! ## Which chains are valid -/

theorem safeCompare_eq_true {a b : String} : safeCompare a b = .ok true ↔ a = b := by
  constructor
  · intro h
    unfold safeCompare at h
    split_ifs at h
    · cases h
    · simpa using h
  · rintro rfl
    simp [safeCompare]

section
variable {hmac : Hmac} {chain : HmacChain}

theorem verify_eq_true {entry : LogEntry} :
    chain.verify hmac entry = .ok true ↔ chain.sign hmac entry.body = entry.entryHmac :=
  safeCompare_eq_true

def Linked (entries : List LogEntry) : Prop :=
  entries.IsChain fun p e => e.body.previousEntryHmac = p.entryHmac

theorem verifyFrom_valid_iff (n i : ℕ) (previous : Option LogEntry) (entries : List LogEntry) :
    (∃ r, chain.verifyFrom hmac n i previous entries = .ok r ∧ r.valid = true) ↔
      (∀ e ∈ entries, chain.sign hmac e.body = e.entryHmac) ∧ Linked (previous.toList ++ entries) := by
  induction entries generalizing i previous with
  | nil => cases previous <;> simp [HmacChain.verifyFrom, Linked]
  | cons entry entries ih =>
    have hown : chain.verify hmac entry = .ok true ↔ chain.sign hmac entry.body = entry.entryHmac :=
      verify_eq_true
    have hnot : chain.verify hmac entry ≠ .ok true → chain.sign hmac entry.body ≠ entry.entryHmac :=
      fun hne hsign => hne (hown.mpr hsign)
    unfold HmacChain.verifyFrom
    cases hverify : chain.verify hmac entry with
    | error e => simp [hnot (by simp [hverify])]
    | ok own =>
      cases own with
      | false => simp [hnot (by simp [hverify])]
      | true =>
        have hsign := hown.mp hverify
        cases previous with
        | none => simp [ih, hsign, Linked]
        | some p =>
          by_cases hlink : entry.body.previousEntryHmac = p.entryHmac
          · simp [ih, hsign, hlink, Linked, List.isChain_cons_cons]
          · simp [hlink, Linked, List.isChain_cons_cons]

/-- **Valid chains.** A chain is reported valid exactly when every entry carries its own HMAC and
names that of the entry before it; of the first entry's predecessor nothing is asked. -/
theorem verifyChain_valid_iff (entries : List LogEntry) :
    (∃ r, chain.verifyChain hmac entries = .ok r ∧ r.valid = true) ↔
      (∀ e ∈ entries, chain.sign hmac e.body = e.entryHmac) ∧ Linked entries :=
  verifyFrom_valid_iff entries.length 0 none entries

end

/-! ## What an HMAC covers -/

inductive JsHead
  | undefined
  | null
  | bool (b : Bool)
  | num (x : JsNum)
  | str (s : String)
  | arr (length : ℕ)
  | obj

def jsHead : JsValue → JsHead
  | .undefined => .undefined
  | .null => .null
  | .bool b => .bool b
  | .num x => .num x
  | .str s => .str s
  | .arr es => .arr es.length
  | .obj _ => .obj

/-- What reading a value along a path gives: `undefined` where there is nothing. -/
def readAt (v : JsValue) : List PathStep → JsHead
  | [] => jsHead v
  | step :: path =>
    match v.child step with
    | none => .undefined
    | some w => readAt w path

def Differ (e e' : EntryBody) : Prop := ∃ path, readAt e.toJs path ≠ readAt e'.toJs path

/-- They differ along a path on which every key is a name of a field of the entry itself. -/
def DifferVisibly (e e' : EntryBody) : Prop :=
  ∃ path, e.toJs.visible e.keys path ≠ e'.toJs.visible e'.keys path

theorem canonicalize_eq_iff (e e' : EntryBody) :
    canonicalize e = canonicalize e' ↔
      ∀ path, e.toJs.visible e.keys path = e'.toJs.visible e'.keys path := by
  rw [← JsValue.visible_eq_iff e.keys_sorted e'.keys_sorted]
  obtain ⟨j, hj⟩ : ∃ j, e.toJs.toJson (some e.keys) = some j := ⟨_, rfl⟩
  obtain ⟨j', hj'⟩ : ∃ j', e'.toJs.toJson (some e'.keys) = some j' := ⟨_, rfl⟩
  have hsorted := JsValue.sorted_toJson e.keys_sorted hj
  have hsorted' := JsValue.sorted_toJson e'.keys_sorted hj'
  simp only [canonicalize, hj, hj', Option.getD_some, Option.some.injEq]
  rw [String.ofList_inj, JsonValue.text_inj hsorted.wellFormed hsorted'.wellFormed]

/-- **What a signature covers.** For an injective HMAC, entries that differ have different
signatures exactly when they differ along a path made of the entry's own field names. -/
theorem sign_covers_iff {hmac : Hmac} {chain : HmacChain} (hinj : (hmac chain.secret).Injective)
    (e e' : EntryBody) :
    (Differ e e' → chain.sign hmac e ≠ chain.sign hmac e') ↔ (Differ e e' → DifferVisibly e e') := by
  refine imp_congr_right fun _ => ?_
  rw [HmacChain.sign, HmacChain.sign, Ne, hinj.eq_iff, canonicalize_eq_iff, DifferVisibly, not_forall]

/-- Parameters whose names are not names of fields of the entry are not signed at all. -/
theorem sign_parameters_hidden (hmac : Hmac) (chain : HmacChain) (e : EntryBody)
    {parameters parameters' : List (String × JsValue)} (h : ∀ m ∈ parameters, m.1 ∉ fieldNames)
    (h' : ∀ m ∈ parameters', m.1 ∉ fieldNames) :
    chain.sign hmac { e with parameters := parameters } =
      chain.sign hmac { e with parameters := parameters' } := by
  have hkeys : EntryBody.keys { e with parameters := parameters } =
      EntryBody.keys { e with parameters := parameters' } := by
    simp [EntryBody.keys, EntryBody.members]
  have hhidden : ∀ (ps : List (String × JsValue)), (∀ m ∈ ps, m.1 ∉ fieldNames) →
      (JsValue.obj ps).toJson (some (EntryBody.keys { e with parameters := parameters' })) =
        some (.obj []) := by
    intro ps hps
    refine JsValue.toJson_hidden fun m hm hkey => hps m hm ?_
    exact (EntryBody.members_keys _).subset (EntryBody.mem_keys.mp hkey)
  have hmembers : (EntryBody.members { e with parameters := parameters }).map
        (fun m => (m.1, m.2.toJson (some (EntryBody.keys { e with parameters := parameters' })))) =
      (EntryBody.members { e with parameters := parameters' }).map
        (fun m => (m.1, m.2.toJson (some (EntryBody.keys { e with parameters := parameters' })))) := by
    simp only [EntryBody.members, List.map_append, List.map_cons, hhidden _ h, hhidden _ h']
  have hjson : (EntryBody.toJs { e with parameters := parameters }).toJson
        (some (EntryBody.keys { e with parameters := parameters' })) =
      (EntryBody.toJs { e with parameters := parameters' }).toJson
        (some (EntryBody.keys { e with parameters := parameters' })) := by
    simp only [EntryBody.toJs, JsValue.toJson, JsValue.toJsonMembers_eq, hmembers]
  rw [HmacChain.sign, HmacChain.sign, canonicalize, canonicalize, hkeys, hjson]

/-! ### Two entries -/

/-- A function with the true digests of some texts, injective on all of them. -/
def tableHmac (table : KeyValue String String) : Hmac :=
  fun _ text => (KeyValue.get table text).getD ("#" ++ text)

theorem tableHmac_injective {table : KeyValue String String} (hnodup : (table.map Prod.snd).Nodup)
    (hhex : ∀ m ∈ table, m.2.toList.head? ≠ some '#') (secret : String) :
    (tableHmac table secret).Injective := by
  have hother : ∀ (a d : String), (a, d) ∈ table → ∀ b, d ≠ "#" ++ b := by
    rintro a d hmem b rfl
    exact hhex _ hmem (by simp)
  intro a b h
  unfold tableHmac at h
  cases ha : KeyValue.get table a with
  | none =>
    cases hb : KeyValue.get table b with
    | none =>
      rw [ha, hb] at h
      simpa using h
    | some d => exact absurd (by simpa [ha, hb] using h.symm) (hother b d (KeyValue.mem_of_get hb) a)
  | some d =>
    cases hb : KeyValue.get table b with
    | none => exact absurd (by simpa [ha, hb] using h) (hother a d (KeyValue.mem_of_get ha) b)
    | some d' =>
      obtain rfl : d = d' := by simpa [ha, hb] using h
      have hpair := List.inj_on_of_nodup_map hnodup (KeyValue.mem_of_get ha) (KeyValue.mem_of_get hb) rfl
      exact congrArg Prod.fst hpair

theorem tableHmac_ne {table : KeyValue String String} {digest : String}
    (hdigest : digest.toList.head? ≠ some '#') (htable : ∀ m ∈ table, m.2 ≠ digest)
    (secret text : String) : tableHmac table secret text ≠ digest := by
  unfold tableHmac
  cases hget : KeyValue.get table text with
  | none =>
    rintro rfl
    exact hdigest (by simp)
  | some d => exact htable _ (KeyValue.mem_of_get hget)

def testChain : HmacChain := ⟨"a-very-secure-secret-that-is-at-least-32-chars-long!!"⟩

def testEntry (correlationId instrument : String) : EntryBody where
  id := "550e8400-e29b-41d4-a716-446655440000"
  correlationId := correlationId
  timestamp := "2026-04-12T10:00:00.000Z"
  userId := .value "user-1"
  sessionId := .value "session-1"
  strategyId := .value "strategy-1"
  eventType := .ACTION_ALLOWED
  actionName := .value "place_order"
  parameters := [("instrument", .str instrument), ("side", .str "BUY")]
  resultStatus := .SUCCESS
  latencyMs := .finite (.ofInt 42)
  circuitBreakerStates :=
    [⟨"velocity", .CLOSED, .finite (.ofInt 50), .finite (.ofInt 3), "2026-04-12T09:00:00.000Z"⟩]
  systemPromptHash := "abc123hash"
  previousEntryHmac := "0000000000000000000000000000000000000000000000000000000000000000"

/-- The digests of two test entries under the secret of the test chain. -/
def testHmac : Hmac := tableHmac
  [(canonicalize (testEntry "corr-001" "BTC-USDT"),
      "7888033d928be7bc4327a0e97f86c08f3ee80640cec2c511d01b94d2c603793b"),
    (canonicalize (testEntry "corr-002" "BTC-USDT"),
      "949265018b526a5031227871e112db152d3d71bfa3127044afca5a2bcfeabb26")]

theorem testHmac_injective (secret : String) : (testHmac secret).Injective :=
  tableHmac_injective (by decide +kernel) (by decide +kernel) secret

/-- A changed correlation id changes the signature. -/
theorem sign_covers_correlationId :
    testChain.sign testHmac (testEntry "corr-001" "BTC-USDT") ≠
      testChain.sign testHmac (testEntry "corr-002" "BTC-USDT") := by
  have hvisible : DifferVisibly (testEntry "corr-001" "BTC-USDT") (testEntry "corr-002" "BTC-USDT") := by
    refine ⟨[.key "correlationId"], ?_⟩
    have hkey : ∀ correlationId, "correlationId" ∈ (testEntry correlationId "BTC-USDT").keys := by
      intro correlationId
      exact EntryBody.mem_keys.mpr (.tail _ (.head _))
    rw [JsValue.visible, if_pos (hkey _), JsValue.visible, if_pos (hkey _)]
    show some (JsonHead.str "corr-001") ≠ some (JsonHead.str "corr-002")
    simp
  have hdiffer : Differ (testEntry "corr-001" "BTC-USDT") (testEntry "corr-002" "BTC-USDT") := by
    refine ⟨[.key "correlationId"], ?_⟩
    show JsHead.str "corr-001" ≠ JsHead.str "corr-002"
    simp
  exact (sign_covers_iff (testHmac_injective _) _ _).mpr (fun _ => hvisible) hdiffer

/-- No HMAC and no key let the signature cover the logged instrument. -/
theorem instrument_not_signed :
    ¬ ∃ (hmac : Hmac) (chain : HmacChain), ∀ e e' : EntryBody,
      Differ e e' → chain.sign hmac e ≠ chain.sign hmac e' := by
  rintro ⟨hmac, chain, hcovers⟩
  have hdiffer : Differ (testEntry "corr-001" "BTC-USDT") (testEntry "corr-001" "ETH-USDT") := by
    refine ⟨[.key "parameters", .key "instrument"], ?_⟩
    show JsHead.str "BTC-USDT" ≠ JsHead.str "ETH-USDT"
    simp
  have hhidden : ∀ instrument : String,
      ∀ m ∈ [("instrument", JsValue.str instrument), ("side", JsValue.str "BUY")], m.1 ∉ fieldNames := by
    simp [fieldNames]
  exact hcovers _ _ hdiffer
    (sign_parameters_hidden hmac chain (testEntry "corr-001" "BTC-USDT") (hhidden _) (hhidden _))

end SuperAi.Audit
