import SuperAi.Foundations.JsValue

/-! # Audit log entries (`log.entry.schema.ts`)

An entry without its `entryHmac`, as the JavaScript object that is signed: an optional field can be
absent, present with the value `undefined`, or a string, and `Object.keys` sees the first two apart.
-/
namespace SuperAi.Audit
open SuperAi.Foundations
set_option autoImplicit false

inductive SecurityEventType
  | AUTH_SUCCESS | AUTH_FAILURE | SESSION_MISMATCH | MFA_REQUIRED | MFA_SUCCESS | MFA_FAILURE
  | DEVICE_TRUST_GRANTED | DEVICE_TRUST_DENIED | INPUT_SANITIZED | INJECTION_DETECTED
  | CONTEXT_INTEGRITY_FAILURE | FEED_CONSENSUS_FAILURE | FEED_SIGNATURE_INVALID | FEED_DATA_STALE
  | FEED_ANOMALY_DETECTED | ACTION_ALLOWED | ACTION_BLOCKED | SANITY_CHECK_FAILED
  | DUPLICATE_ORDER_DETECTED | CIRCUIT_BREAKER_OPEN | CIRCUIT_BREAKER_CLOSED
  | CIRCUIT_BREAKER_HALF_OPEN | KILL_SWITCH_TRIGGERED | KILL_SWITCH_RESET | POSITION_LIMIT_BREACHED
  | LOSS_LIMIT_BREACHED | CONFIRMATION_REQUIRED | CONFIRMATION_APPROVED | CONFIRMATION_EXPIRED
  | WASH_TRADE_DETECTED | LAYERING_DETECTED | SHORT_SELL_BLOCKED | TRADE_REPORTED
  | RATE_LIMIT_BREACHED | EXCHANGE_QUOTA_WARNING | SECRET_LOADED | SECRET_ROTATION_DETECTED
  | DEAD_MANS_SWITCH_TRIGGERED | AUDIT_CHAIN_VALID | AUDIT_CHAIN_INVALID | ANOMALY_DETECTED
  | STRATEGY_DRIFT_DETECTED | ALERT_EMITTED
  deriving DecidableEq, Repr

def SecurityEventType.text : SecurityEventType → String
  | .AUTH_SUCCESS => "AUTH_SUCCESS"
  | .AUTH_FAILURE => "AUTH_FAILURE"
  | .SESSION_MISMATCH => "SESSION_MISMATCH"
  | .MFA_REQUIRED => "MFA_REQUIRED"
  | .MFA_SUCCESS => "MFA_SUCCESS"
  | .MFA_FAILURE => "MFA_FAILURE"
  | .DEVICE_TRUST_GRANTED => "DEVICE_TRUST_GRANTED"
  | .DEVICE_TRUST_DENIED => "DEVICE_TRUST_DENIED"
  | .INPUT_SANITIZED => "INPUT_SANITIZED"
  | .INJECTION_DETECTED => "INJECTION_DETECTED"
  | .CONTEXT_INTEGRITY_FAILURE => "CONTEXT_INTEGRITY_FAILURE"
  | .FEED_CONSENSUS_FAILURE => "FEED_CONSENSUS_FAILURE"
  | .FEED_SIGNATURE_INVALID => "FEED_SIGNATURE_INVALID"
  | .FEED_DATA_STALE => "FEED_DATA_STALE"
  | .FEED_ANOMALY_DETECTED => "FEED_ANOMALY_DETECTED"
  | .ACTION_ALLOWED => "ACTION_ALLOWED"
  | .ACTION_BLOCKED => "ACTION_BLOCKED"
  | .SANITY_CHECK_FAILED => "SANITY_CHECK_FAILED"
  | .DUPLICATE_ORDER_DETECTED => "DUPLICATE_ORDER_DETECTED"
  | .CIRCUIT_BREAKER_OPEN => "CIRCUIT_BREAKER_OPEN"
  | .CIRCUIT_BREAKER_CLOSED => "CIRCUIT_BREAKER_CLOSED"
  | .CIRCUIT_BREAKER_HALF_OPEN => "CIRCUIT_BREAKER_HALF_OPEN"
  | .KILL_SWITCH_TRIGGERED => "KILL_SWITCH_TRIGGERED"
  | .KILL_SWITCH_RESET => "KILL_SWITCH_RESET"
  | .POSITION_LIMIT_BREACHED => "POSITION_LIMIT_BREACHED"
  | .LOSS_LIMIT_BREACHED => "LOSS_LIMIT_BREACHED"
  | .CONFIRMATION_REQUIRED => "CONFIRMATION_REQUIRED"
  | .CONFIRMATION_APPROVED => "CONFIRMATION_APPROVED"
  | .CONFIRMATION_EXPIRED => "CONFIRMATION_EXPIRED"
  | .WASH_TRADE_DETECTED => "WASH_TRADE_DETECTED"
  | .LAYERING_DETECTED => "LAYERING_DETECTED"
  | .SHORT_SELL_BLOCKED => "SHORT_SELL_BLOCKED"
  | .TRADE_REPORTED => "TRADE_REPORTED"
  | .RATE_LIMIT_BREACHED => "RATE_LIMIT_BREACHED"
  | .EXCHANGE_QUOTA_WARNING => "EXCHANGE_QUOTA_WARNING"
  | .SECRET_LOADED => "SECRET_LOADED"
  | .SECRET_ROTATION_DETECTED => "SECRET_ROTATION_DETECTED"
  | .DEAD_MANS_SWITCH_TRIGGERED => "DEAD_MANS_SWITCH_TRIGGERED"
  | .AUDIT_CHAIN_VALID => "AUDIT_CHAIN_VALID"
  | .AUDIT_CHAIN_INVALID => "AUDIT_CHAIN_INVALID"
  | .ANOMALY_DETECTED => "ANOMALY_DETECTED"
  | .STRATEGY_DRIFT_DETECTED => "STRATEGY_DRIFT_DETECTED"
  | .ALERT_EMITTED => "ALERT_EMITTED"

def SecurityEventType.all : List SecurityEventType :=
  [.AUTH_SUCCESS, .AUTH_FAILURE, .SESSION_MISMATCH, .MFA_REQUIRED, .MFA_SUCCESS, .MFA_FAILURE,
    .DEVICE_TRUST_GRANTED, .DEVICE_TRUST_DENIED, .INPUT_SANITIZED, .INJECTION_DETECTED,
    .CONTEXT_INTEGRITY_FAILURE, .FEED_CONSENSUS_FAILURE, .FEED_SIGNATURE_INVALID, .FEED_DATA_STALE,
    .FEED_ANOMALY_DETECTED, .ACTION_ALLOWED, .ACTION_BLOCKED, .SANITY_CHECK_FAILED,
    .DUPLICATE_ORDER_DETECTED, .CIRCUIT_BREAKER_OPEN, .CIRCUIT_BREAKER_CLOSED,
    .CIRCUIT_BREAKER_HALF_OPEN, .KILL_SWITCH_TRIGGERED, .KILL_SWITCH_RESET,
    .POSITION_LIMIT_BREACHED, .LOSS_LIMIT_BREACHED, .CONFIRMATION_REQUIRED, .CONFIRMATION_APPROVED,
    .CONFIRMATION_EXPIRED, .WASH_TRADE_DETECTED, .LAYERING_DETECTED, .SHORT_SELL_BLOCKED,
    .TRADE_REPORTED, .RATE_LIMIT_BREACHED, .EXCHANGE_QUOTA_WARNING, .SECRET_LOADED,
    .SECRET_ROTATION_DETECTED, .DEAD_MANS_SWITCH_TRIGGERED, .AUDIT_CHAIN_VALID,
    .AUDIT_CHAIN_INVALID, .ANOMALY_DETECTED, .STRATEGY_DRIFT_DETECTED, .ALERT_EMITTED]

inductive ResultStatus
  | SUCCESS | FAILURE | BLOCKED | WARNING
  deriving DecidableEq, Repr

def ResultStatus.text : ResultStatus → String
  | .SUCCESS => "SUCCESS"
  | .FAILURE => "FAILURE"
  | .BLOCKED => "BLOCKED"
  | .WARNING => "WARNING"

inductive CircuitBreakerState
  | CLOSED | OPEN | HALF_OPEN
  deriving DecidableEq, Repr

def CircuitBreakerState.text : CircuitBreakerState → String
  | .CLOSED => "CLOSED"
  | .OPEN => "OPEN"
  | .HALF_OPEN => "HALF_OPEN"

structure CircuitBreakerSnapshot where
  name : String
  state : CircuitBreakerState
  threshold : JsNum
  currentCount : JsNum
  lastStateChange : String

def CircuitBreakerSnapshot.toJs (s : CircuitBreakerSnapshot) : JsValue :=
  .obj [("name", .str s.name), ("state", .str s.state.text), ("threshold", .num s.threshold),
    ("currentCount", .num s.currentCount), ("lastStateChange", .str s.lastStateChange)]

inductive OptionalField
  | absent
  | undefined
  | value (s : String)

def OptionalField.members (key : String) : OptionalField → List (String × JsValue)
  | .absent => []
  | .undefined => [(key, .undefined)]
  | .value s => [(key, .str s)]

/-- `Omit<LogEntry, 'entryHmac'>`. -/
structure EntryBody where
  id : String
  correlationId : String
  timestamp : String
  userId : OptionalField
  sessionId : OptionalField
  strategyId : OptionalField
  eventType : SecurityEventType
  actionName : OptionalField
  parameters : List (String × JsValue)
  resultStatus : ResultStatus
  latencyMs : JsNum
  circuitBreakerStates : List CircuitBreakerSnapshot
  systemPromptHash : String
  previousEntryHmac : String

structure LogEntry where
  body : EntryBody
  entryHmac : String

def fieldNames : List String :=
  ["id", "correlationId", "timestamp", "userId", "sessionId", "strategyId", "eventType", "actionName",
    "parameters", "resultStatus", "latencyMs", "circuitBreakerStates", "systemPromptHash",
    "previousEntryHmac"]

namespace EntryBody

def members (e : EntryBody) : List (String × JsValue) :=
  [("id", .str e.id), ("correlationId", .str e.correlationId), ("timestamp", .str e.timestamp)] ++
    (e.userId.members "userId" ++ (e.sessionId.members "sessionId" ++
    (e.strategyId.members "strategyId" ++ ([("eventType", .str e.eventType.text)] ++
    (e.actionName.members "actionName" ++
      [("parameters", .obj e.parameters), ("resultStatus", .str e.resultStatus.text),
        ("latencyMs", .num e.latencyMs),
        ("circuitBreakerStates", .arr (e.circuitBreakerStates.map CircuitBreakerSnapshot.toJs)),
        ("systemPromptHash", .str e.systemPromptHash),
        ("previousEntryHmac", .str e.previousEntryHmac)])))))

def toJs (e : EntryBody) : JsValue := .obj e.members

def keys (e : EntryBody) : List String := (e.members.map Prod.fst).insertionSort (· ≤ ·)

theorem members_keys (e : EntryBody) : (e.members.map Prod.fst).Sublist fieldNames := by
  have hfield : ∀ (key : String) (field : OptionalField),
      ((field.members key).map Prod.fst).Sublist [key] := by
    intro key field
    cases field with
    | absent => exact List.nil_sublist _
    | undefined => exact List.Sublist.refl _
    | value s => exact List.Sublist.refl _
  simp only [members, List.map_append]
  exact (List.Sublist.refl ["id", "correlationId", "timestamp"]).append
    ((hfield "userId" e.userId).append ((hfield "sessionId" e.sessionId).append
      ((hfield "strategyId" e.strategyId).append ((List.Sublist.refl ["eventType"]).append
        ((hfield "actionName" e.actionName).append (List.Sublist.refl _))))))

theorem members_nodup (e : EntryBody) : (e.members.map Prod.fst).Nodup :=
  e.members_keys.nodup (by decide)

theorem mem_keys {e : EntryBody} {key : String} : key ∈ e.keys ↔ key ∈ e.members.map Prod.fst :=
  List.mem_insertionSort _

theorem keys_sorted (e : EntryBody) : e.keys.Pairwise (· < ·) := by
  have hle : e.keys.Pairwise (· ≤ ·) := List.pairwise_insertionSort _ _
  have hne : e.keys.Pairwise (· ≠ ·) := (List.perm_insertionSort _ _).nodup_iff.mpr e.members_nodup
  exact (hle.and hne).imp fun h => lt_of_le_of_ne h.1 h.2

end EntryBody
end SuperAi.Audit
