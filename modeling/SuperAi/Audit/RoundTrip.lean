import SuperAi.Audit.AuditLogger

/-! # The round trip of a log entry

What the schema makes of a written line is computed first (`parseEntry_line`); the entry read back
prints like the entry written but for the names of its undefined fields, so its signature verifies
exactly when no payload path goes through such a name (`roundTrips_iff`).
-/
namespace SuperAi.Audit
open SuperAi.Foundations
set_option autoImplicit false

/-! ## The line as JSON -/

def printed (ms : List (String × JsValue)) : List (String × JsonValue) :=
  ms.filterMap fun m => (m.2.toJson none).map (m.1, ·)

theorem printed_append (ms ms' : List (String × JsValue)) :
    printed (ms ++ ms') = printed ms ++ printed ms' := List.filterMap_append

theorem toJson_obj (ms : List (String × JsValue)) :
    (JsValue.obj ms).toJson none = some (.obj (printed ms)) := by
  simp only [JsValue.toJson, JsValue.selectMembers_none, printed]

/-- The keys of the parameters are those of a JavaScript object. -/
structure EntryBody.Proper (e : EntryBody) : Prop where
  parameters : (JsValue.obj e.parameters).WellFormed
  noProto : "__proto__" ∉ e.parameters.map Prod.fst

theorem CircuitBreakerSnapshot.toJs_wellFormed (s : CircuitBreakerSnapshot) : s.toJs.WellFormed := by
  refine .obj (by simp) fun m hm => ?_
  simp only [List.mem_cons, List.not_mem_nil, or_false] at hm
  rcases hm with rfl | rfl | rfl | rfl | rfl
  · exact .str _
  · exact .str _
  · exact .num _
  · exact .num _
  · exact .str _

theorem EntryBody.members_wellFormed {e : EntryBody} (h : e.Proper) : ∀ m ∈ e.members, m.2.WellFormed := by
  have hfield : ∀ (key : String) (field : OptionalField), ∀ m ∈ field.members key, m.2.WellFormed := by
    intro key field m hm
    cases field with
    | absent => cases hm
    | undefined =>
      obtain rfl := List.mem_singleton.mp hm
      exact .undefined
    | value s =>
      obtain rfl := List.mem_singleton.mp hm
      exact .str s
  have hstates : (JsValue.arr (e.circuitBreakerStates.map CircuitBreakerSnapshot.toJs)).WellFormed := by
    refine .arr fun v hv => ?_
    obtain ⟨s, -, rfl⟩ := List.mem_map.mp hv
    exact s.toJs_wellFormed
  intro m hm
  simp only [members, List.mem_append, List.mem_cons, List.not_mem_nil, or_false] at hm
  rcases hm with (rfl | rfl | rfl) | hm | hm | hm | rfl | hm | rfl | rfl | rfl | rfl | rfl | rfl
  · exact .str _
  · exact .str _
  · exact .str _
  · exact hfield _ _ m hm
  · exact hfield _ _ m hm
  · exact hfield _ _ m hm
  · exact .str _
  · exact hfield _ _ m hm
  · exact h.parameters
  · exact .str _
  · exact .num _
  · exact hstates
  · exact .str _
  · exact .str _

theorem LogEntry.keys_nodup (entry : LogEntry) :
    ((entry.body.members ++ [("entryHmac", JsValue.str entry.entryHmac)]).map Prod.fst).Nodup := by
  have hsub : ((entry.body.members ++ [("entryHmac", JsValue.str entry.entryHmac)]).map Prod.fst).Sublist
      (fieldNames ++ ["entryHmac"]) := by
    rw [List.map_append]
    exact entry.body.members_keys.append (List.Sublist.refl _)
  exact hsub.nodup (by decide)

theorem LogEntry.toJs_wellFormed {entry : LogEntry} (h : entry.body.Proper) : entry.toJs.WellFormed := by
  refine .obj entry.keys_nodup fun m hm => ?_
  rcases List.mem_append.mp hm with hm | hm
  · exact EntryBody.members_wellFormed h m hm
  · obtain rfl := List.mem_singleton.mp hm
    exact .str _

/-! ## What the schema makes of it -/

/-- An optional field that is read back is absent where it was undefined. -/
def OptionalField.readBack : OptionalField → OptionalField
  | .value s => .value s
  | _ => .absent

def reread (ms : List (String × JsValue)) : List (String × JsValue) :=
  JsValue.ofJsonMembers (printed ms)

def EntryBody.readBack (e : EntryBody) : EntryBody :=
  { e with
    userId := e.userId.readBack
    sessionId := e.sessionId.readBack
    strategyId := e.strategyId.readBack
    actionName := e.actionName.readBack
    parameters := reread e.parameters }

structure CircuitBreakerSnapshot.Valid (zod : Zod) (s : CircuitBreakerSnapshot) : Prop where
  name : s.name ≠ ""
  threshold : ∃ x, s.threshold = .finite x ∧ isInt x = true ∧ 0 < x.toRat
  currentCount : ∃ x, s.currentCount = .finite x ∧ isInt x = true ∧ 0 ≤ x.toRat
  lastStateChange : zod.datetime s.lastStateChange = true

structure EntryBody.Valid (zod : Zod) (e : EntryBody) : Prop where
  id : zod.uuid e.id = true
  timestamp : zod.datetime e.timestamp = true
  latencyMs : ∃ x, e.latencyMs = .finite x
  circuitBreakerStates : ∀ s ∈ e.circuitBreakerStates, s.Valid zod

@[simp] theorem asEventType_text (t : SecurityEventType) : asEventType (.str t.text) = some t := by
  cases t <;> rfl

@[simp] theorem asResultStatus_text (r : ResultStatus) : asResultStatus (.str r.text) = some r := by
  cases r <;> rfl

@[simp] theorem asBreakerState_text (b : CircuitBreakerState) : asBreakerState (.str b.text) = some b := by
  cases b <;> rfl

theorem asNumber_toJson_eq_some {x : JsNum} {y : JsNumber} :
    asNumber x.toJson = some y ↔ x = .finite y := by
  cases x <;> simp [JsNum.toJson, asNumber]

def CircuitBreakerSnapshot.json (s : CircuitBreakerSnapshot) : List (String × JsonValue) :=
  [("name", .str s.name), ("state", .str s.state.text), ("threshold", s.threshold.toJson),
    ("currentCount", s.currentCount.toJson), ("lastStateChange", .str s.lastStateChange)]

theorem toJson_states (states : List CircuitBreakerSnapshot) :
    (JsValue.arr (states.map CircuitBreakerSnapshot.toJs)).toJson none =
      some (.arr (states.map fun s => .obj s.json)) := by
  rw [JsValue.toJson, JsValue.toJsonElems_eq, List.map_map]
  rfl

theorem asSnapshot_json {zod : Zod} {s s' : CircuitBreakerSnapshot} :
    asSnapshot zod (.obj s.json) = some s' ↔ s.Valid zod ∧ s' = s := by
  have hname : field s.json "name" asString = some s.name := rfl
  have hstate : field s.json "state" asBreakerState = some s.state := asBreakerState_text s.state
  have hthreshold : ∀ y, field s.json "threshold" asNumber = some y ↔ s.threshold = .finite y :=
    fun y => asNumber_toJson_eq_some
  have hcount : ∀ y, field s.json "currentCount" asNumber = some y ↔ s.currentCount = .finite y :=
    fun y => asNumber_toJson_eq_some
  have hlast : field s.json "lastStateChange" asString = some s.lastStateChange := rfl
  simp only [asSnapshot, Option.bind_eq_bind, Option.bind_eq_some_iff, Option.filter_eq_some_iff,
    hname, hstate, hthreshold, hcount, hlast, Option.some.injEq]
  constructor
  · rintro ⟨_, ⟨rfl, hne⟩, _, rfl, x, ⟨hx, hxp⟩, y, ⟨hy, hyp⟩, _, ⟨rfl, hdate⟩, rfl⟩
    simp only [Bool.and_eq_true, decide_eq_true_eq] at hxp hyp
    exact ⟨⟨by simpa using hne, ⟨x, hx, hxp⟩, ⟨y, hy, hyp⟩, hdate⟩, by rw [← hx, ← hy]⟩
  · rintro ⟨⟨hne, ⟨x, hx, hxp⟩, ⟨y, hy, hyp⟩, hdate⟩, rfl⟩
    refine ⟨_, ⟨rfl, by simpa using hne⟩, _, rfl, x, ⟨hx, by simpa using hxp⟩, y,
      ⟨hy, by simpa using hyp⟩, _, ⟨rfl, hdate⟩, ?_⟩
    rw [← hx, ← hy]

theorem mapM_asSnapshot {zod : Zod} {states states' : List CircuitBreakerSnapshot} :
    (states.map fun s => JsonValue.obj s.json).mapM (asSnapshot zod) = some states' ↔
      (∀ s ∈ states, s.Valid zod) ∧ states' = states := by
  induction states generalizing states' with
  | nil => simp [eq_comm]
  | cons s states ih =>
    simp only [List.map_cons, List.mapM_cons, Option.bind_eq_bind, Option.bind_eq_some_iff,
      asSnapshot_json, ih, List.forall_mem_cons]
    constructor
    · rintro ⟨_, ⟨hs, rfl⟩, _, ⟨hstates, rfl⟩, h⟩
      exact ⟨⟨hs, hstates⟩, (Option.some.inj h).symm⟩
    · rintro ⟨⟨hs, hstates⟩, rfl⟩
      exact ⟨s, ⟨hs, rfl⟩, states, ⟨hstates, rfl⟩, rfl⟩

def OptionalField.json : OptionalField → Option JsonValue
  | .value s => some (.str s)
  | _ => none

/-- The fields of the line, with what each of them prints. -/
def LogEntry.json (entry : LogEntry) : List (String × Option JsonValue) :=
  let e := entry.body
  [("id", some (.str e.id)), ("correlationId", some (.str e.correlationId)),
    ("timestamp", some (.str e.timestamp))] ++ ([("userId", e.userId.json)] ++
    ([("sessionId", e.sessionId.json)] ++ ([("strategyId", e.strategyId.json)] ++
    ([("eventType", some (.str e.eventType.text))] ++ ([("actionName", e.actionName.json)] ++
    ([("parameters", some (.obj (printed e.parameters))),
      ("resultStatus", some (.str e.resultStatus.text)), ("latencyMs", some e.latencyMs.toJson),
      ("circuitBreakerStates", some (.arr (e.circuitBreakerStates.map fun s => .obj s.json))),
      ("systemPromptHash", some (.str e.systemPromptHash)),
      ("previousEntryHmac", some (.str e.previousEntryHmac))] ++
    [("entryHmac", some (.str entry.entryHmac))]))))))

def LogEntry.printed (entry : LogEntry) : List (String × JsonValue) :=
  Audit.printed (entry.body.members ++ [("entryHmac", .str entry.entryHmac)])

theorem LogEntry.printed_eq (entry : LogEntry) :
    entry.printed = entry.json.filterMap fun m => m.2.map (m.1, ·) := by
  have hfield : ∀ (key : String) (f : OptionalField), Audit.printed (f.members key) =
      [(key, f.json)].filterMap fun m => m.2.map (m.1, ·) := by
    intro key f
    cases f <;> rfl
  simp only [LogEntry.printed, EntryBody.members, LogEntry.json, printed_append, hfield,
    List.filterMap_append, List.append_assoc]
  congr 7
  simp only [Audit.printed, List.filterMap_cons, List.filterMap_nil, toJson_states, toJson_obj, Option.map_some]
  rfl

theorem LogEntry.get_printed (entry : LogEntry) (key : String) :
    KeyValue.get entry.printed key = (KeyValue.get entry.json key).join := by
  have hnodup : (entry.json.map Prod.fst).Nodup := by
    have hkeys : entry.json.map Prod.fst = fieldNames ++ ["entryHmac"] := rfl
    rw [hkeys]
    decide
  rw [entry.printed_eq]
  exact KeyValue.get_filterMap hnodup id key

theorem optionalString_of_get {ms : List (String × JsonValue)} {key : String} {f : OptionalField}
    (h : KeyValue.get ms key = f.json) : optionalString ms key = some f.readBack := by
  rw [optionalString, h]
  cases f <;> rfl

theorem asRecord_printed {ms : List (String × JsValue)} (h : "__proto__" ∉ ms.map Prod.fst) :
    asRecord (.obj (printed ms)) = some (reread ms) := by
  have hkeys := (KeyValue.keys_filterMap_sublist ms (JsValue.toJson none)).subset
  have hall : ∀ m ∈ reread ms, (m.1 != "__proto__") = true := by
    intro m hm
    rw [reread, JsValue.ofJsonMembers_eq] at hm
    obtain ⟨m', hm', rfl⟩ := List.mem_map.mp hm
    have hmem : m'.1 ∈ ms.map Prod.fst := hkeys (List.mem_map_of_mem hm')
    simp only [bne_iff_ne, ne_eq]
    intro heq
    exact h (heq ▸ hmem)
  rw [asRecord, ← reread, List.filter_eq_self.mpr hall]

/-- **What is read back.** The line passes the schema exactly when its entry does, and all that the
entry read back lacks is the names of the undefined fields and members. -/
theorem parseEntry_printed {zod : Zod} {r : LogEntry} (entry : LogEntry) (h : entry.body.Proper) :
    parseEntry zod (.obj entry.printed) = some r ↔
      entry.body.Valid zod ∧ r = ⟨entry.body.readBack, entry.entryHmac⟩ := by
  obtain ⟨e, entryHmac⟩ := entry
  have hget := LogEntry.get_printed ⟨e, entryHmac⟩
  generalize LogEntry.printed ⟨e, entryHmac⟩ = ms at hget ⊢
  have hfield : ∀ {α : Type} (key : String) (schema : JsonValue → Option α),
      field ms key schema = (KeyValue.get (LogEntry.json ⟨e, entryHmac⟩) key).join.bind schema := by
    intro α key schema
    rw [field, hget]
  have hid : field ms "id" asString = some e.id := hfield _ _
  have hcorrelation : field ms "correlationId" asString = some e.correlationId := hfield _ _
  have htimestamp : field ms "timestamp" asString = some e.timestamp := hfield _ _
  have huser : optionalString ms "userId" = some e.userId.readBack := optionalString_of_get (hget _)
  have hsession : optionalString ms "sessionId" = some e.sessionId.readBack :=
    optionalString_of_get (hget _)
  have hstrategy : optionalString ms "strategyId" = some e.strategyId.readBack :=
    optionalString_of_get (hget _)
  have hevent : field ms "eventType" asEventType = some e.eventType :=
    (hfield _ _).trans (asEventType_text _)
  have haction : optionalString ms "actionName" = some e.actionName.readBack :=
    optionalString_of_get (hget _)
  have hparameters : field ms "parameters" asRecord = some (reread e.parameters) :=
    (hfield _ _).trans (asRecord_printed h.noProto)
  have hresult : field ms "resultStatus" asResultStatus = some e.resultStatus :=
    (hfield _ _).trans (asResultStatus_text _)
  have hlatency : ∀ x, field ms "latencyMs" asNumber = some x ↔ e.latencyMs = .finite x := by
    intro x
    rw [hfield]
    exact asNumber_toJson_eq_some
  have hstates : field ms "circuitBreakerStates" asArray =
    some (e.circuitBreakerStates.map fun s => .obj s.json) := hfield _ _
  have hprompt : field ms "systemPromptHash" asString = some e.systemPromptHash := hfield _ _
  have hprevious : field ms "previousEntryHmac" asString = some e.previousEntryHmac := hfield _ _
  have hhmac : field ms "entryHmac" asString = some entryHmac := hfield _ _
  simp only [parseEntry, Option.bind_eq_bind, hid, hcorrelation, htimestamp, huser, hsession, hstrategy,
    hevent, haction, hparameters, hresult, hstates, hprompt, hprevious, hhmac, Option.bind_some]
  simp only [Option.bind_eq_some_iff, Option.filter_eq_some_iff, Option.some.injEq, hlatency,
    mapM_asSnapshot]
  constructor
  · rintro ⟨_, ⟨rfl, hid⟩, _, ⟨rfl, htimestamp⟩, x, hx, _, ⟨hstates, rfl⟩, rfl⟩
    exact ⟨⟨hid, htimestamp, ⟨x, hx⟩, hstates⟩, by rw [← hx]; rfl⟩
  · rintro ⟨⟨hid, htimestamp, ⟨x, hx⟩, hstates⟩, rfl⟩
    exact ⟨_, ⟨rfl, hid⟩, _, ⟨rfl, htimestamp⟩, x, hx, _, ⟨hstates, rfl⟩, by rw [← hx]; rfl⟩

theorem reread_append (ms ms' : List (String × JsValue)) :
    reread (ms ++ ms') = reread ms ++ reread ms' := by
  simp only [reread, printed_append, JsValue.ofJsonMembers_eq, List.map_append]

theorem CircuitBreakerSnapshot.Valid.ofJson_json {zod : Zod} {s : CircuitBreakerSnapshot}
    (h : s.Valid zod) : JsValue.ofJson (.obj s.json) = s.toJs := by
  obtain ⟨x, hx, -⟩ := h.threshold
  obtain ⟨y, hy, -⟩ := h.currentCount
  rw [CircuitBreakerSnapshot.json, CircuitBreakerSnapshot.toJs, hx, hy]
  rfl

theorem EntryBody.Valid.members_readBack {zod : Zod} {e : EntryBody} (h : e.Valid zod) :
    e.readBack.members = reread e.members := by
  obtain ⟨x, hx⟩ := h.latencyMs
  have hfield : ∀ (key : String) (f : OptionalField), reread (f.members key) = f.readBack.members key := by
    intro key f
    cases f <;> rfl
  have hread : JsValue.ofJsonElems (e.circuitBreakerStates.map fun s => .obj s.json) =
      e.circuitBreakerStates.map CircuitBreakerSnapshot.toJs := by
    rw [JsValue.ofJsonElems_eq, List.map_map]
    exact List.map_congr_left fun s hs => (h.circuitBreakerStates s hs).ofJson_json
  have hlast : reread [("parameters", .obj e.parameters), ("resultStatus", .str e.resultStatus.text),
        ("latencyMs", .num e.latencyMs),
        ("circuitBreakerStates", .arr (e.circuitBreakerStates.map CircuitBreakerSnapshot.toJs)),
        ("systemPromptHash", .str e.systemPromptHash),
        ("previousEntryHmac", .str e.previousEntryHmac)] =
      [("parameters", .obj (reread e.parameters)), ("resultStatus", .str e.resultStatus.text),
        ("latencyMs", .num e.latencyMs),
        ("circuitBreakerStates", .arr (e.circuitBreakerStates.map CircuitBreakerSnapshot.toJs)),
        ("systemPromptHash", .str e.systemPromptHash),
        ("previousEntryHmac", .str e.previousEntryHmac)] := by
    rw [reread, printed]
    simp only [List.filterMap_cons, toJson_states, toJson_obj, hx]
    simp only [JsValue.toJson, JsNum.toJson, Option.map_some, List.filterMap_nil,
      JsValue.ofJsonMembers_eq, List.map_cons, List.map_nil, JsValue.ofJson, hread, reread]
  simp only [EntryBody.members, reread_append, hfield, hlast, EntryBody.readBack]
  rfl

theorem EntryBody.toJs_wellFormed {e : EntryBody} (h : e.Proper) : e.toJs.WellFormed :=
  .obj e.members_nodup (members_wellFormed h)

/-- Printing and reading back changes nothing that a list of keys lets through. -/
theorem EntryBody.Valid.visible_readBack {zod : Zod} {e : EntryBody} (h : e.Valid zod) (hp : e.Proper)
    (keys : List String) (path : List PathStep) :
    e.readBack.toJs.visible keys path = e.toJs.visible keys path := by
  rw [EntryBody.toJs, h.members_readBack]
  exact JsValue.visible_ofJson keys (EntryBody.toJs_wellFormed hp) (toJson_obj e.members) path

/-! ## The signature of what was read back -/

def EntryBody.Undefined (e : EntryBody) (key : String) : Prop :=
  KeyValue.get e.members key = some .undefined

theorem EntryBody.Valid.mem_readBack_keys {zod : Zod} {e : EntryBody} (h : e.Valid zod) {key : String} :
    key ∈ e.readBack.keys ↔ key ∈ e.keys ∧ ¬ e.Undefined key := by
  have hget : KeyValue.get e.readBack.members key =
      ((KeyValue.get e.members key).bind (JsValue.toJson none)).map JsValue.ofJson := by
    rw [h.members_readBack, reread, JsValue.ofJsonMembers_eq, KeyValue.get_map, printed,
      KeyValue.get_filterMap e.members_nodup]
  have hmem : ∀ e : EntryBody, key ∈ e.keys ↔ KeyValue.get e.members key ≠ none := by
    intro e
    rw [EntryBody.mem_keys, Ne, KeyValue.get_eq_none_iff, not_not]
  rw [hmem, hmem, hget, EntryBody.Undefined]
  cases KeyValue.get e.members key with
  | none => simp
  | some v => cases v <;> simp [JsValue.toJson]

def Opaque (keys : List String) (v : JsValue) : Prop :=
  ∀ path, JsValue.pathKeys path ≠ [] → v.visible keys path = none

theorem opaque_leaf (keys : List String) {v : JsValue} (h : ∀ step, v.child step = none) :
    Opaque keys v := by
  intro path hpath
  cases path with
  | nil => exact absurd rfl hpath
  | cons step path =>
    cases step with
    | idx i => rw [JsValue.visible, h, Option.bind_none]
    | key k => rw [JsValue.visible, h, Option.bind_none, ite_self]

theorem opaque_obj {keys : List String} {ms : List (String × JsValue)} (h : ∀ m ∈ ms, m.1 ∉ keys) :
    Opaque keys (.obj ms) := by
  intro path hpath
  cases path with
  | nil => exact absurd rfl hpath
  | cons step path =>
    cases step with
    | idx i => rfl
    | key k =>
      rw [JsValue.visible]
      split
      · rename_i hk
        cases hget : JsValue.child (.obj ms) (.key k) with
        | none => rfl
        | some w => exact absurd hk (h (k, w) (KeyValue.mem_of_get hget))
      · rfl

theorem opaque_arr {keys : List String} {es : List JsValue} (h : ∀ e ∈ es, Opaque keys e.asElement) :
    Opaque keys (.arr es) := by
  intro path hpath
  cases path with
  | nil => exact absurd rfl hpath
  | cons step path =>
    cases step with
    | idx i =>
      rw [JsValue.visible]
      cases hget : JsValue.child (.arr es) (.idx i) with
      | none => rfl
      | some w => exact h w (List.mem_of_getElem? hget) path hpath
    | key k =>
      rw [JsValue.visible]
      exact ite_self none

theorem EntryBody.keys_subset (e : EntryBody) : e.keys ⊆ fieldNames :=
  fun _ hkey => e.members_keys.subset (mem_keys.mp hkey)

/-- Of the members of an entry only the parameters can show something below a key. -/
theorem EntryBody.opaque_member (e : EntryBody) {key : String} {v : JsValue}
    (h : KeyValue.get e.members key = some v) (hkey : key ≠ "parameters") : Opaque e.keys v := by
  have hstates : Opaque e.keys (.arr (e.circuitBreakerStates.map CircuitBreakerSnapshot.toJs)) := by
    refine opaque_arr fun w hw => ?_
    obtain ⟨s, -, rfl⟩ := List.mem_map.mp hw
    have hnames : ∀ name ∈ ["name", "state", "threshold", "currentCount", "lastStateChange"],
        name ∉ fieldNames := by decide
    refine opaque_obj fun m hm hmem => hnames m.1 ?_ (e.keys_subset hmem)
    exact List.mem_map.mpr ⟨m, hm, rfl⟩
  have hfield : ∀ (name : String) (f : OptionalField), (key, v) ∈ f.members name →
      ∀ step, v.child step = none := by
    intro name f hm step
    cases f with
    | absent => cases hm
    | undefined =>
      cases List.mem_singleton.mp hm
      cases step <;> rfl
    | value s =>
      cases List.mem_singleton.mp hm
      cases step <;> rfl
  have hm := KeyValue.mem_of_get h
  simp only [members, List.mem_append, List.mem_cons, List.not_mem_nil, or_false, Prod.mk.injEq] at hm
  rcases hm with (⟨-, rfl⟩ | ⟨-, rfl⟩ | ⟨-, rfl⟩) | hm | hm | hm | ⟨-, rfl⟩ | hm | ⟨rfl, -⟩ | ⟨-, rfl⟩ |
    ⟨-, rfl⟩ | ⟨-, rfl⟩ | ⟨-, rfl⟩ | ⟨-, rfl⟩
  · exact opaque_leaf _ (by rintro (_ | _) <;> rfl)
  · exact opaque_leaf _ (by rintro (_ | _) <;> rfl)
  · exact opaque_leaf _ (by rintro (_ | _) <;> rfl)
  · exact opaque_leaf _ (hfield _ _ hm)
  · exact opaque_leaf _ (hfield _ _ hm)
  · exact opaque_leaf _ (hfield _ _ hm)
  · exact opaque_leaf _ (by rintro (_ | _) <;> rfl)
  · exact opaque_leaf _ (hfield _ _ hm)
  · exact absurd rfl hkey
  · exact opaque_leaf _ (by rintro (_ | _) <;> rfl)
  · exact opaque_leaf _ (by rintro (_ | _) <;> rfl)
  · exact hstates
  · exact opaque_leaf _ (by rintro (_ | _) <;> rfl)
  · exact opaque_leaf _ (by rintro (_ | _) <;> rfl)

/-- No value of the parameters stands at a path of field names one of which is undefined. -/
def EntryBody.NoClash (e : EntryBody) : Prop :=
  ∀ path, ∀ key ∈ JsValue.pathKeys path, e.Undefined key →
    (JsValue.obj e.parameters).visible e.keys path = none

theorem EntryBody.get_parameters (e : EntryBody) :
    KeyValue.get e.members "parameters" = some (.obj e.parameters) :=
  (KeyValue.get_eq_some_iff e.members_nodup).mpr (by simp [members])

/-- Where an undefined field is on the path, only the parameters can be seen. -/
theorem EntryBody.noClash_iff (e : EntryBody) :
    (∀ path, ∀ key ∈ JsValue.pathKeys path, e.Undefined key → e.toJs.visible e.keys path = none) ↔
      e.NoClash := by
  have hbelow : ∀ path, e.toJs.visible e.keys (.key "parameters" :: path) =
      (JsValue.obj e.parameters).visible e.keys path := by
    intro path
    have hkey : "parameters" ∈ e.keys := by
      refine mem_keys.mpr (List.mem_map.mpr ⟨("parameters", .obj e.parameters), ?_, rfl⟩)
      exact KeyValue.mem_of_get e.get_parameters
    rw [JsValue.visible, if_pos hkey]
    show (KeyValue.get e.members "parameters").bind _ = _
    rw [e.get_parameters, Option.bind_some]
  constructor
  · intro h path key hkey hundefined
    rw [← hbelow]
    exact h _ key (List.mem_cons_of_mem _ hkey) hundefined
  · intro h path key hkey hundefined
    cases path with
    | nil => cases hkey
    | cons step path =>
      cases step with
      | idx i => rfl
      | key k =>
        by_cases hparameters : k = "parameters"
        · subst hparameters
          have hrest : key ∈ JsValue.pathKeys path := by
            rcases List.mem_cons.mp hkey with rfl | hrest
            · rw [Undefined, e.get_parameters] at hundefined
              cases hundefined
            · exact hrest
          rw [hbelow]
          exact h path key hrest hundefined
        · rw [JsValue.visible]
          split
          · show (KeyValue.get e.members k).bind _ = none
            cases hget : KeyValue.get e.members k with
            | none => rfl
            | some v =>
              rw [Option.bind_some]
              rcases List.mem_cons.mp hkey with rfl | hrest
              · rw [Undefined, hget] at hundefined
                obtain rfl := Option.some.inj hundefined
                exact JsValue.visible_undefined _ _
              · exact e.opaque_member hget hparameters path (List.ne_nil_of_mem hrest)
          · rfl

/-- The canonical text survives the round trip exactly when the payload has no such value. -/
theorem EntryBody.Valid.canonicalize_readBack {zod : Zod} {e : EntryBody} (h : e.Valid zod)
    (hp : e.Proper) : canonicalize e.readBack = canonicalize e ↔ e.NoClash := by
  have hsubset : e.readBack.keys ⊆ e.keys := fun _ hkey => (h.mem_readBack_keys.mp hkey).1
  rw [eq_comm, canonicalize_eq_iff, ← e.noClash_iff]
  simp only [h.visible_readBack hp]
  rw [JsValue.visible_eq_iff_of_subset hsubset]
  constructor
  · intro hhidden path key hkey hundefined
    exact hhidden path key hkey fun hmem => (h.mem_readBack_keys.mp hmem).2 hundefined
  · intro hnone path key hkey hnot
    by_cases hmem : key ∈ e.keys
    · refine hnone path key hkey ?_
      by_contra hundefined
      exact hnot (h.mem_readBack_keys.mpr ⟨hmem, hundefined⟩)
    · exact JsValue.visible_of_not_mem hkey hmem _

/-! ## The line in the file -/

theorem LogEntry.line_eq (entry : LogEntry) :
    entry.line = (JsonValue.obj entry.printed).text ++ ['\n'] := by
  rw [LogEntry.line, LogEntry.toJs, toJson_obj]
  rfl

theorem LogEntry.printed_wellFormed {entry : LogEntry} (h : entry.body.Proper) :
    (JsonValue.obj entry.printed).WellFormed :=
  (LogEntry.toJs_wellFormed h).toJson (toJson_obj _)

/-- What is read of a line of the log does not depend on the lines after it. -/
theorem readEntries_line (zod : Zod) {entry : LogEntry} (h : entry.body.Proper) (rest : List Char) :
    readEntries zod (entry.line ++ rest) =
      (parseEntry zod (.obj entry.printed)).toList ++ readEntries zod rest := by
  have hnewline : '\n' ∉ (JsonValue.obj entry.printed).text := by
    intro hmem
    exact absurd (JsonValue.text_printable _ _ hmem) (by decide)
  have hblank : (JsonValue.obj entry.printed).text.all isJsSpace = false := by
    cases entry.printed <;> rfl
  simp only [readEntries]
  rw [entry.line_eq, List.append_assoc, List.singleton_append,
    List.splitOn_append_cons_self_of_not_mem hnewline, List.filter_cons_of_pos (by simp [hblank]),
    List.filterMap_cons, parseJson_text (LogEntry.printed_wellFormed h), Option.bind_some]
  cases parseEntry zod (.obj entry.printed) <;> rfl

theorem readEntries_nil (zod : Zod) : readEntries zod [] = [] := by
  simp [readEntries]

theorem EntryBody.Valid.readEntries_line {zod : Zod} {e : EntryBody} (h : e.Valid zod) (hp : e.Proper)
    (entryHmac : String) (rest : List Char) :
    readEntries zod ((LogEntry.mk e entryHmac).line ++ rest) =
      ⟨e.readBack, entryHmac⟩ :: readEntries zod rest := by
  rw [Audit.readEntries_line zod hp, (parseEntry_printed ⟨e, entryHmac⟩ hp).mpr ⟨h, rfl⟩]
  rfl

theorem proper_entryWithoutHmac (event : SecurityEvent) (context : LogContext)
    (id timestamp lastEntryHmac : String) :
    (entryWithoutHmac event context id timestamp lastEntryHmac).Proper :=
  ⟨event.payload.wellFormed, event.payload.noProto⟩

/-- An entry that is written is read back and verifies when, and only when, it passes the schema and
none of its undefined fields hides a value of the parameters. -/
theorem readsBack_iff {hmac : Hmac} {chain : HmacChain} (hinj : (hmac chain.secret).Injective)
    (zod : Zod) {e : EntryBody} (hp : e.Proper) :
    (∃ r, readEntries zod (signed hmac chain e).line = [r] ∧ chain.verify hmac r = .ok true) ↔
      e.Valid zod ∧ e.NoClash := by
  have hread := readEntries_line zod (show (signed hmac chain e).body.Proper from hp) []
  rw [List.append_nil, readEntries_nil, List.append_nil] at hread
  rw [hread]
  have hverify : chain.verify hmac ⟨e.readBack, chain.sign hmac e⟩ = .ok true ↔
      canonicalize e.readBack = canonicalize e := by
    rw [verify_eq_true]
    exact hinj.eq_iff
  constructor
  · rintro ⟨r, hlist, hr⟩
    have hsome : parseEntry zod (.obj (signed hmac chain e).printed) = some r := by
      cases hparse : parseEntry zod (.obj (signed hmac chain e).printed) with
      | none => simp [hparse] at hlist
      | some r' => simpa [hparse] using hlist
    obtain ⟨hvalid, rfl⟩ := (parseEntry_printed (signed hmac chain e) hp).mp hsome
    exact ⟨hvalid, (hvalid.canonicalize_readBack hp).mp (hverify.mp hr)⟩
  · rintro ⟨hvalid, hclash⟩
    refine ⟨⟨e.readBack, chain.sign hmac e⟩, ?_, ?_⟩
    · rw [(parseEntry_printed (signed hmac chain e) hp).mpr ⟨hvalid, rfl⟩]
      rfl
    · exact hverify.mpr ((hvalid.canonicalize_readBack hp).mpr hclash)

/-- **The round trip.** For an injective HMAC, what `log` writes is read back and verifies exactly
when the entry passes the schema and no undefined field hides a value of the payload. -/
theorem roundTrips_iff {hmac : Hmac} {chain : HmacChain} (hinj : (hmac chain.secret).Injective)
    (zod : Zod) (event : SecurityEvent) (context : LogContext) (id timestamp lastEntryHmac : String) :
    (∃ r, readEntries zod
        (signed hmac chain (entryWithoutHmac event context id timestamp lastEntryHmac)).line = [r] ∧
        chain.verify hmac r = .ok true) ↔
      (entryWithoutHmac event context id timestamp lastEntryHmac).Valid zod ∧
        (entryWithoutHmac event context id timestamp lastEntryHmac).NoClash :=
  readsBack_iff hinj zod (proper_entryWithoutHmac event context id timestamp lastEntryHmac)

/-! ### A reported trade and a sign-in -/

/-- A payload without names of fields of the entry cannot clash with them. -/
theorem EntryBody.noClash_of_disjoint {e : EntryBody} (h : ∀ m ∈ e.parameters, m.1 ∉ fieldNames) :
    e.NoClash := by
  have hopaque : Opaque e.keys (.obj e.parameters) :=
    opaque_obj fun m hm hkey => h m hm (e.keys_subset hkey)
  intro path key hkey _
  exact hopaque path (List.ne_nil_of_mem hkey)

def tradeReported : SecurityEvent where
  eventType := .TRADE_REPORTED
  payload :=
    { members := [("tradeId", .str "trade-1"), ("instrument", .str "BTC-USDT"), ("side", .str "BUY"),
        ("quantity", .num (.finite (.ofInt 2))), ("price", .num (.finite (.ofInt 64000))),
        ("venue", .str "okx"), ("reportedTo", .str "finra")]
      wellFormed := by
        refine .obj (by decide) ?_
        simp only [List.forall_mem_cons, List.not_mem_nil, false_implies, implies_true, and_true]
        exact ⟨.str _, .str _, .str _, .num _, .num _, .str _, .str _⟩
      noProto := by decide }

def authSuccess : SecurityEvent where
  eventType := .AUTH_SUCCESS
  payload :=
    { members := [("userId", .str "user-1"), ("ip", .str "203.0.113.7"), ("userAgent", .str "curl"),
        ("method", .str "jwt")]
      wellFormed := by
        refine .obj (by decide) ?_
        simp only [List.forall_mem_cons, List.not_mem_nil, false_implies, implies_true, and_true]
        exact ⟨.str _, .str _, .str _, .str _⟩
      noProto := by decide }

def testContext (userId : Option String) : LogContext where
  correlationId := "corr-001"
  userId := userId
  sessionId := none
  strategyId := none
  latencyMs := .finite (.ofInt 12)
  circuitBreakerStates := []

/-- The string formats, as far as the test entries use them. -/
def testZod : Zod where
  uuid s := s ∈ ["550e8400-e29b-41d4-a716-446655440000", "550e8400-e29b-41d4-a716-446655440001"]
  datetime s := s ∈ ["2026-04-12T10:00:00.000Z", "2026-04-12T10:01:00.000Z"]

/-- The first entry of a logger. -/
def firstEntry (event : SecurityEvent) (userId : Option String) : EntryBody :=
  entryWithoutHmac event (testContext userId) "550e8400-e29b-41d4-a716-446655440000"
    "2026-04-12T10:00:00.000Z" initialHmac

/-- Another entry, a minute later. -/
def laterEntry (event : SecurityEvent) (userId : Option String) (lastEntryHmac : String) : EntryBody :=
  entryWithoutHmac event (testContext userId) "550e8400-e29b-41d4-a716-446655440001"
    "2026-04-12T10:01:00.000Z" lastEntryHmac

def firstDigest : String := "18a8b731e5bebc6faa1232feccaeebe1a1b610a6561e41749561c33ceb5ec04d"

/-- The digests of reported trades under the secret of the test chain. -/
def tradeHmac : Hmac := tableHmac
  [(canonicalize (firstEntry tradeReported (some "user-1")), firstDigest),
    (canonicalize (laterEntry tradeReported (some "user-1") firstDigest),
      "01ca149294f90b98f9d41c73390cf0f4a81184470dafb71a40e9d04c62f4fb92"),
    (canonicalize (laterEntry tradeReported (some "user-1") initialHmac),
      "fafa61087b050c2795e8451459bf00bf651b0b0bdd4628a6fc80e1a3614f0adf")]

theorem tradeHmac_injective (secret : String) : (tradeHmac secret).Injective :=
  tableHmac_injective (by decide +kernel) (by decide +kernel) secret

theorem sign_firstEntry :
    testChain.sign tradeHmac (firstEntry tradeReported (some "user-1")) = firstDigest := by
  rw [HmacChain.sign, tradeHmac, tableHmac, KeyValue.get_cons, if_pos rfl, Option.getD_some]

theorem roundTrips_tradeReported :
    ∃ r, readEntries testZod
        (signed tradeHmac testChain (firstEntry tradeReported (some "user-1"))).line = [r] ∧
      testChain.verify tradeHmac r = .ok true := by
  have hvalid : (firstEntry tradeReported (some "user-1")).Valid testZod :=
    ⟨by decide, by decide, ⟨_, rfl⟩, by simp [firstEntry, entryWithoutHmac, testContext]⟩
  have hclash : (firstEntry tradeReported (some "user-1")).NoClash :=
    EntryBody.noClash_of_disjoint (by simp [firstEntry, entryWithoutHmac, tradeReported, fieldNames])
  exact (roundTrips_iff (tradeHmac_injective _) testZod tradeReported (testContext (some "user-1")) _ _
    _).mpr ⟨hvalid, hclash⟩

/-- A sign-in that is logged without the user in its context is reported as tampered. -/
theorem authSuccess_not_readBack :
    ¬ ∃ (hmac : Hmac) (chain : HmacChain) (zod : Zod), (hmac chain.secret).Injective ∧
      ∃ r, readEntries zod (signed hmac chain (firstEntry authSuccess none)).line = [r] ∧
        chain.verify hmac r = .ok true := by
  rintro ⟨hmac, chain, zod, hinj, hread⟩
  have hp : (firstEntry authSuccess none).Proper := proper_entryWithoutHmac _ _ _ _ _
  have hclash := ((readsBack_iff hinj zod hp).mp hread).2
  have hkey : "userId" ∈ (firstEntry authSuccess none).keys :=
    EntryBody.mem_keys.mpr (by simp [EntryBody.members, firstEntry, entryWithoutHmac, testContext,
      OptionalField.ofOption, OptionalField.members])
  have hnone := hclash [.key "userId"] "userId" (by simp [JsValue.pathKeys]) rfl
  rw [JsValue.visible, if_pos hkey] at hnone
  exact absurd hnone (by simp [firstEntry, entryWithoutHmac, authSuccess, JsValue.child, KeyValue.get_cons,
    JsValue.visible, JsValue.head])

end SuperAi.Audit
