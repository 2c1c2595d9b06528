import SuperAi.Foundations.JsonAccess
import SuperAi.Intent.IntentRuleEnforcer

/-! # The rules that are stored

`validateIntentRuleDsl` (`intent/intent-rule.dsl.ts`) makes a rule of the JSON data that a request, or the
language model, gives. Every write of a rule goes through it. It does not look into a symbol pattern.
-/
namespace SuperAi.Intent
open SuperAi.Foundations
set_option autoImplicit false

/-! ## Fields -/

def finite : Option JsonValue → Option ℚ
  | none | some .null => none
  | some v => finiteNumber v

def str : Option JsonValue → Option String
  | some (.str s) => if s = "" then none else some s
  | _ => none

def numArr : Option JsonValue → Option (List ℚ)
  | some (.arr es) => some (es.filterMap finiteNumber)
  | _ => none

def equalsTrue : Option JsonValue → Bool
  | some (.bool b) => b
  | _ => false

/-! ## Rules -/

def validateBlock (r : JsonValue) : BlockRule where
  asset_class := (str (property r "asset_class")).map String.toLower
  chain := (str (property r "chain")).map String.toUpper
  token := (str (property r "token")).map String.toLower
  symbol_pattern := (str (property r "symbol_pattern")).map String.toUpper

def validateRequire (r : JsonValue) : RequireRule where
  min_mcap_usd := finite (property r "min_mcap_usd")
  min_liquidity_usd := finite (property r "min_liquidity_usd")
  min_holders := finite (property r "min_holders")
  chain := (str (property r "chain")).map String.toUpper
  must_have_audit := equalsTrue (property r "must_have_audit")

def validateTimeWindow (r : JsonValue) : TimeWindowRule where
  allow_utc_hours := numArr (property r "allow_utc_hours")
  block_utc_hours := numArr (property r "block_utc_hours")
  days_of_week := numArr (property r "days_of_week")

def validatePer (per : Option String) : SizePer :=
  if per = some "day" then .day else if per = some "token" then .token else .trade

/-- A condition that is not an object has no properties. -/
def validateCondition (c : JsonValue) : ApprovalCondition where
  notional_usd_gt := finite (property c "notional_usd_gt")
  slippage_bps_gt := finite (property c "slippage_bps_gt")
  new_token := equalsTrue (property c "new_token")

def validateIntentRuleDsl (raw : JsonValue) : Except String IntentRuleDsl :=
  match raw with
  | .arr _ => .error "rule.kind is required"
  | .obj _ =>
    match property raw "kind" with
    | some (.str kind) =>
      if kind = "block" then .ok (.block (validateBlock raw))
      else if kind = "require" then .ok (.require (validateRequire raw))
      else if kind = "time_window" then .ok (.time_window (validateTimeWindow raw))
      else if kind = "max_size_usd" then
        match finite (property raw "value") with
        | none => .error "max_size_usd.value must be positive"
        | some value =>
          if value ≤ 0 then .error "max_size_usd.value must be positive"
          else .ok (.max_size_usd value (validatePer (str (property raw "per"))))
      else if kind = "require_approval_if" then
        .ok (.require_approval_if (validateCondition ((property raw "condition").getD .null)))
      else if kind = "prefer" then
        .ok (.prefer ((str (property raw "asset_class")).map String.toLower)
          ((str (property raw "chain")).map String.toUpper) (finite (property raw "weight")))
      else .error ("unknown rule.kind: " ++ kind)
    | _ => .error "rule.kind is required"
  | _ => .error "rule must be an object"

/-- **Positive caps.** A cap that is stored lets some trades through. -/
theorem validate_max_size {raw : JsonValue} {value : ℚ} {per : SizePer}
    (h : validateIntentRuleDsl raw = .ok (.max_size_usd value per)) : 0 < value := by
  unfold validateIntentRuleDsl at h
  repeat' split at h
  all_goals cases h
  rename_i hpos
  exact not_le.mp hpos

example : validateIntentRuleDsl (.obj [("kind", .str "max_size_usd"), ("value", .str " 1e2 "), ("per", .str "day")]) =
    .ok (.max_size_usd 100 .day) := by decide +kernel

end SuperAi.Intent
