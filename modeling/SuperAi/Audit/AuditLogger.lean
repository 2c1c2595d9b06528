import SuperAi.Audit.HmacChain

/-! # Writing and reading the audit log (`audit.logger.ts`, `forensics.service.ts`)

`log` signs an entry in which every optional field is a key, though its value may be `undefined`;
the line it writes leaves such keys out, and so does the entry that is read back. The list of keys
with which the signature is recomputed has then lost a name, and with it whatever the payload holds
under that name. An entry survives the round trip exactly when it passes the schema and its payload
holds nothing there (`roundTrips_iff`).
-/
namespace SuperAi.Audit
open SuperAi.Foundations
set_option autoImplicit false

/-! ## `log` -/

/-- A payload is an object literal: its keys are distinct, at every depth, and none is `__proto__`. -/
structure Payload where
  members : List (String × JsValue)
  wellFormed : (JsValue.obj members).WellFormed
  noProto : "__proto__" ∉ members.map Prod.fst

structure SecurityEvent where
  eventType : SecurityEventType
  payload : Payload

structure LogContext where
  correlationId : String
  userId : Option String
  sessionId : Option String
  strategyId : Option String
  latencyMs : JsNum
  circuitBreakerStates : List CircuitBreakerSnapshot

def OptionalField.ofOption : Option String → OptionalField
  | none => .undefined
  | some s => .value s

def extractActionName (payload : Payload) : OptionalField :=
  match KeyValue.get payload.members "actionType" with
  | some (.str s) => .value s
  | _ =>
    match KeyValue.get payload.members "triggerAction" with
    | some (.str s) => .value s
    | _ => .undefined

def includes (s sub : String) : Bool := decide (sub.toList <:+: s.toList)

def deriveResultStatus (eventType : SecurityEventType) : ResultStatus :=
  let text := eventType.text
  if includes text "FAILURE" || includes text "INVALID" || includes text "BREACHED" ||
      eventType == .KILL_SWITCH_TRIGGERED || eventType == .DEAD_MANS_SWITCH_TRIGGERED then .FAILURE
  else if includes text "BLOCKED" || includes text "DENIED" || includes text "DETECTED" then .BLOCKED
  else if includes text "WARNING" || includes text "STALE" || includes text "REQUIRED" ||
      includes text "EXPIRED" || eventType == .CIRCUIT_BREAKER_HALF_OPEN then .WARNING
  else .SUCCESS

/-- The entry that is signed; `id` and `timestamp` are answers of the environment. -/
def entryWithoutHmac (event : SecurityEvent) (context : LogContext) (id timestamp : String)
    (lastEntryHmac : String) : EntryBody where
  id := id
  correlationId := context.correlationId
  timestamp := timestamp
  userId := .ofOption context.userId
  sessionId := .ofOption context.sessionId
  strategyId := .ofOption context.strategyId
  eventType := event.eventType
  actionName := extractActionName event.payload
  parameters := event.payload.members
  resultStatus := deriveResultStatus event.eventType
  latencyMs := context.latencyMs
  circuitBreakerStates := context.circuitBreakerStates
  systemPromptHash := "system-prompt-hash-placeholder"
  previousEntryHmac := lastEntryHmac

/-- `'0'.repeat(64)`, what a new logger takes for the HMAC of the entry before its first. -/
def initialHmac : String := String.ofList (List.replicate 64 '0')

def signed (hmac : Hmac) (chain : HmacChain) (body : EntryBody) : LogEntry :=
  ⟨body, chain.sign hmac body⟩

def LogEntry.toJs (entry : LogEntry) : JsValue :=
  .obj (entry.body.members ++ [("entryHmac", .str entry.entryHmac)])

/-- The line that `JsonlFileWriter` appends. -/
def LogEntry.line (entry : LogEntry) : List Char := ((entry.toJs.toJson none).getD .null).text ++ ['\n']

/-! ## Reading the log -/

/-- The string formats of the schema library. -/
structure Zod where
  uuid : String → Bool
  datetime : String → Bool

def asString : JsonValue → Option String
  | .str s => some s
  | _ => none

def asNumber : JsonValue → Option JsNumber
  | .num x => some x
  | _ => none

def asArray : JsonValue → Option (List JsonValue)
  | .arr es => some es
  | _ => none

/-- `z.record`: the copy has no key `__proto__`. -/
def asRecord : JsonValue → Option (List (String × JsValue))
  | .obj ms => some ((JsValue.ofJsonMembers ms).filter fun m => m.1 != "__proto__")
  | _ => none

def field {α : Type} (ms : List (String × JsonValue)) (key : String) (schema : JsonValue → Option α) :
    Option α :=
  (KeyValue.get ms key).bind schema

def optionalString (ms : List (String × JsonValue)) (key : String) : Option OptionalField :=
  match KeyValue.get ms key with
  | none => some .absent
  | some (.str s) => some (.value s)
  | some _ => none

def asEventType (v : JsonValue) : Option SecurityEventType :=
  (asString v).bind fun s => SecurityEventType.all.find? fun e => e.text == s

def asResultStatus (v : JsonValue) : Option ResultStatus :=
  (asString v).bind fun s => [.SUCCESS, .FAILURE, .BLOCKED, .WARNING].find? fun r => r.text == s

def asBreakerState (v : JsonValue) : Option CircuitBreakerState :=
  (asString v).bind fun s => [.CLOSED, .OPEN, .HALF_OPEN].find? fun b => b.text == s

def isInt (x : JsNumber) : Bool := x.toRat.den == 1

def asSnapshot (zod : Zod) : JsonValue → Option CircuitBreakerSnapshot
  | .obj ms => do
    let name ← (field ms "name" asString).filter (· ≠ "")
    let state ← field ms "state" asBreakerState
    let threshold ← (field ms "threshold" asNumber).filter fun x => isInt x && decide (0 < x.toRat)
    let currentCount ← (field ms "currentCount" asNumber).filter fun x => isInt x && decide (0 ≤ x.toRat)
    let lastStateChange ← (field ms "lastStateChange" asString).filter zod.datetime
    some ⟨name, state, .finite threshold, .finite currentCount, lastStateChange⟩
  | _ => none

/-- `LogEntrySchema.safeParse`; unknown keys are dropped. -/
def parseEntry (zod : Zod) : JsonValue → Option LogEntry
  | .obj ms => do
    let id ← (field ms "id" asString).filter zod.uuid
    let correlationId ← field ms "correlationId" asString
    let timestamp ← (field ms "timestamp" asString).filter zod.datetime
    let userId ← optionalString ms "userId"
    let sessionId ← optionalString ms "sessionId"
    let strategyId ← optionalString ms "strategyId"
    let eventType ← field ms "eventType" asEventType
    let actionName ← optionalString ms "actionName"
    let parameters ← field ms "parameters" asRecord
    let resultStatus ← field ms "resultStatus" asResultStatus
    let latencyMs ← field ms "latencyMs" asNumber
    let circuitBreakerStates ← (field ms "circuitBreakerStates" asArray).bind fun es =>
      es.mapM (asSnapshot zod)
    let systemPromptHash ← field ms "systemPromptHash" asString
    let previousEntryHmac ← field ms "previousEntryHmac" asString
    let entryHmac ← field ms "entryHmac" asString
    some ⟨⟨id, correlationId, timestamp, userId, sessionId, strategyId, eventType, actionName,
      parameters, resultStatus, .finite latencyMs, circuitBreakerStates, systemPromptHash,
      previousEntryHmac⟩, entryHmac⟩
  | _ => none

/-- The entries of a log file, as `bootstrapSecurity` and `ForensicsService` read them: blank lines,
lines that are not JSON and values that fail the schema are skipped. -/
def readEntries (zod : Zod) (content : List Char) : List LogEntry :=
  ((content.splitOn '\n').filter fun line => !line.all isJsSpace).filterMap fun line =>
    (parseJson line).bind (parseEntry zod)

end SuperAi.Audit
