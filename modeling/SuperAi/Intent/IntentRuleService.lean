import SuperAi.Foundations.KeyValue
import SuperAi.Intent.Dsl
import Mathlib.Data.List.Sort

/-! # The intent rules of a user

`IntentRuleService` (`intent/intent-rule.service.ts`): the table of rules, the cache of the active ones,
and the calls that change a rule. A change reads the table first (`prepare`), writes one row
(`RuleWrite.apply`), and then drops the user's cached rules. The table keeps its rows in the order in
which queries without an order find them; ids are its primary key.
-/
namespace SuperAi.Intent
open SuperAi.Foundations
set_option autoImplicit false

/-! ## The table -/

inductive IntentSource
  | CHAT
  | REJECTION
  | MANUAL
  | ONBOARDING
  | BACKFILL
  deriving DecidableEq, Repr

inductive IntentScope
  | BLOCKLIST
  | ALLOWLIST
  | SIZING
  | TIMING
  | RISK
  | PREFERENCE
  deriving DecidableEq, Repr

inductive IntentStatus
  | ACTIVE
  | PROPOSED
  | CONFLICTED
  | RETIRED
  deriving DecidableEq, Repr

structure StoredRule extends UserIntentRule where
  userId : String
  source : IntentSource
  scope : IntentScope
  status : IntentStatus := .ACTIVE
  priority : ℤ := 50
  confidence : ℚ := 1
  lastAppliedAt : Option ℤ := none
  retiredReason : Option String := none
  sourceApprovalId : Option String := none
  createdAt : ℤ
  deriving DecidableEq, Repr

structure RuleTable where
  rows : List StoredRule
  nodup : (rows.map (·.id)).Nodup

/-- The data of an update; what is `none` stays as it is. -/
structure RuleData where
  text : Option String := none
  rule : Option IntentRuleDsl := none
  scope : Option IntentScope := none
  status : Option IntentStatus := none
  priority : Option ℤ := none
  confidence : Option ℚ := none
  lastAppliedAt : Option (Option ℤ) := none
  retiredReason : Option String := none
  deriving DecidableEq, Repr

def RuleData.apply (data : RuleData) (r : StoredRule) : StoredRule :=
  { r with
    text := data.text.getD r.text
    rule := data.rule.getD r.rule
    scope := data.scope.getD r.scope
    status := data.status.getD r.status
    priority := data.priority.getD r.priority
    confidence := data.confidence.getD r.confidence
    lastAppliedAt := data.lastAppliedAt.getD r.lastAppliedAt
    retiredReason := data.retiredReason.or r.retiredReason }

namespace RuleTable

theorem nodup_map {rows : List StoredRule} (h : (rows.map (·.id)).Nodup) (id : String) (data : RuleData) :
    ((rows.map fun r => if r.id = id then data.apply r else r).map (·.id)).Nodup := by
  have hids : (rows.map fun r => if r.id = id then data.apply r else r).map (·.id) = rows.map (·.id) := by
    rw [List.map_map]
    apply List.map_congr_left
    intro r _
    simp only [Function.comp_apply]
    split
    · rfl
    · rfl
  rw [hids]
  exact h

/-- `update` throws where there is no row with the id. -/
def update (t : RuleTable) (id : String) (data : RuleData) : Except String (StoredRule × RuleTable) :=
  match t.rows.find? (·.id = id) with
  | none => .error "Record to update not found."
  | some row =>
    .ok (data.apply row, ⟨t.rows.map fun r => if r.id = id then data.apply r else r, nodup_map t.nodup id data⟩)

def create (t : RuleTable) (row : StoredRule) : Except String (StoredRule × RuleTable) :=
  if h : row.id ∈ t.rows.map (·.id) then .error "Unique constraint failed on the fields: (id)"
  else .ok (row, ⟨t.rows ++ [row], by
    rw [List.map_append]
    exact List.Nodup.append t.nodup (List.nodup_singleton _) (List.disjoint_singleton.mpr h)⟩)

/-- The order of the query: by priority, and the newer rule first. -/
def precedes (r r' : StoredRule) : Prop :=
  r'.priority < r.priority ∨ (r.priority = r'.priority ∧ r'.createdAt ≤ r.createdAt)

instance (r r' : StoredRule) : Decidable (precedes r r') := inferInstanceAs (Decidable (_ ∨ _))

def activeRules (t : RuleTable) (userId : String) : List StoredRule :=
  (t.rows.filter fun r => r.userId = userId ∧ r.status = .ACTIVE).insertionSort precedes

def duplicateCandidates (t : RuleTable) (userId : String) (scope : IntentScope) : List StoredRule :=
  t.rows.filter fun r => r.userId = userId ∧ r.scope = scope ∧ (r.status = .ACTIVE ∨ r.status = .PROPOSED)

def findUnique (t : RuleTable) (id : String) : Option StoredRule := t.rows.find? (·.id = id)

end RuleTable

/-! ## Changes -/

structure ProposeInput where
  text : String
  rule : JsonValue
  source : IntentSource
  scope : IntentScope
  confidence : ℚ
  priority : Option ℤ := none
  sourceApprovalId : Option String := none

structure RulePatch where
  text : Option String := none
  rule : Option JsonValue := none
  scope : Option IntentScope := none
  priority : Option ℤ := none

inductive RuleWrite
  | update (id : String) (data : RuleData)
  | create (row : StoredRule)

def RuleWrite.apply (t : RuleTable) : RuleWrite → Except String (StoredRule × RuleTable)
  | .update id data => t.update id data
  | .create row => t.create row

def clampPriority (priority : ℤ) : ℤ := max 0 (min 100 priority)

def firstChars (text : String) : String := String.ofList (text.toList.take 400)

/-- The key by which a new rule is taken for one that exists: a few fields for each kind. -/
def sameKey : IntentRuleDsl → IntentRuleDsl → Bool
  | .block existing, .block rule =>
    existing.token.getD "" = rule.token.getD "" && existing.asset_class.getD "" = rule.asset_class.getD "" &&
      existing.chain.getD "" = rule.chain.getD ""
  | .max_size_usd _ per, .max_size_usd _ per' => per = per'
  | .require existing, .require rule => existing.chain.getD "" = rule.chain.getD ""
  | .time_window _, .time_window _ => true
  | .require_approval_if _, .require_approval_if _ => true
  | .prefer _ _ _, .prefer _ _ _ => true
  | _, _ => false

def findDuplicate (t : RuleTable) (userId : String) (rule : IntentRuleDsl) (scope : IntentScope) : Option StoredRule :=
  (t.duplicateCandidates userId scope).find? fun c => sameKey c.rule rule

/-- The row of a rule that is new; `id` and `now` are the generated id and time of its creation. -/
def newRule (userId : String) (input : ProposeInput) (rule : IntentRuleDsl) (id : String) (now : ℤ) : StoredRule :=
  let confidence := max 0 (min 1 input.confidence)
  let priority := clampPriority (input.priority.getD 50)
  { id
    userId
    text := firstChars input.text
    rule
    source := input.source
    scope := input.scope
    status := if 7 / 10 ≤ confidence then .ACTIVE else .PROPOSED
    priority := if input.source = .CHAT then min priority 70 else priority
    confidence
    sourceApprovalId := input.sourceApprovalId
    createdAt := now }

/-- What `propose` writes: the confidence of a rule with the same key, or a new rule. -/
def prepareProposal (t : RuleTable) (userId : String) (input : ProposeInput) (id : String) (now : ℤ) :
    Except String RuleWrite := do
  let rule ← validateIntentRuleDsl input.rule
  match findDuplicate t userId rule input.scope with
  | some duplicate => .ok (.update duplicate.id
      { confidence := some (max duplicate.confidence (max 0 (min 1 input.confidence)))
        lastAppliedAt := some duplicate.lastAppliedAt })
  | none => .ok (.create (newRule userId input rule id now))

/-- The rule, if it is the user's. -/
def ownRule (t : RuleTable) (userId id : String) : Except String StoredRule :=
  match t.findUnique id with
  | some existing => if existing.userId = userId then .ok existing else .error "Not Found"
  | none => .error "Not Found"

def prepareStatus (t : RuleTable) (userId id : String) (status : IntentStatus) (reason : Option String) :
    Except String RuleWrite := do
  let _ ← ownRule t userId id
  .ok (.update id
    { status := some status
      retiredReason := if status = .RETIRED then some (reason.getD "USER_ACTION") else none })

def prepareUpdate (t : RuleTable) (userId id : String) (patch : RulePatch) : Except String RuleWrite := do
  let _ ← ownRule t userId id
  let rule ← patch.rule.mapM validateIntentRuleDsl
  .ok (.update id
    { text := patch.text.map firstChars
      rule
      scope := patch.scope
      priority := patch.priority.map clampPriority })

inductive ProposeKind
  | created
  | merged
  deriving DecidableEq, Repr

def proposeKind : RuleWrite → ProposeKind
  | .create _ => .created
  | .update _ _ => .merged

structure ProposeResult where
  kind : ProposeKind
  rule : StoredRule
  deriving DecidableEq, Repr

inductive RuleChange
  | propose (input : ProposeInput) (id : String) (now : ℤ)
  | updateStatus (id : String) (status : IntentStatus) (reason : Option String)
  | update (id : String) (patch : RulePatch)

def RuleChange.prepare (t : RuleTable) (userId : String) : RuleChange → Except String RuleWrite
  | .propose input id now => prepareProposal t userId input id now
  | .updateStatus id status reason => prepareStatus t userId id status reason
  | .update id patch => prepareUpdate t userId id patch

/-! ## The service -/

def ACTIVE_CACHE_TTL_MS : ℤ := 60000

structure IntentRuleService where
  table : RuleTable
  activeCache : KeyValue String (List StoredRule × ℤ) := []

namespace IntentRuleService
variable (s : IntentRuleService) (userId : String)

def invalidate : IntentRuleService := { s with activeCache := s.activeCache.del userId }

/-- The rules that are cached, if they are not too old. -/
def cached (now : ℤ) : Option (List StoredRule) :=
  ((s.activeCache.get userId).filter fun entry => now - entry.2 < ACTIVE_CACHE_TTL_MS).map Prod.fst

def store (rules : List StoredRule) (now : ℤ) : IntentRuleService :=
  { s with activeCache := s.activeCache.set userId (rules, now) }

def inScope (scope : Option IntentScope) (rules : List StoredRule) : List StoredRule :=
  match scope with
  | some scope => rules.filter (·.scope = scope)
  | none => rules

def getActive (scope : Option IntentScope) (now : ℤ) : List StoredRule × IntentRuleService :=
  match s.cached userId now with
  | some rules => (inScope scope rules, s)
  | none =>
    let rules := s.table.activeRules userId
    (inScope scope rules, s.store userId rules now)

def propose (input : ProposeInput) (id : String) (now : ℤ) : Except String (ProposeResult × IntentRuleService) := do
  let write ← prepareProposal s.table userId input id now
  let (rule, table) ← write.apply s.table
  .ok (⟨proposeKind write, rule⟩, invalidate { s with table } userId)

end IntentRuleService
end SuperAi.Intent
