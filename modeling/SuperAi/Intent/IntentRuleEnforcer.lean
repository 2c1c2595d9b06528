import SuperAi.Approvals.ApprovalRequest
import SuperAi.Foundations.Passes

/-! # The intent rule enforcer

`IntentRuleEnforcer.check` (`intent/intent-rule.enforcer.ts`) over the rules of
`intent/intent-rule.dsl.ts`. The five loops over the rules are five passes over the list; a pass stops
at the first rule that refuses the intent. `RegExp` is a parameter: it tests a pattern, without
regard to case, or throws.
-/
namespace SuperAi.Intent
open SuperAi.Foundations SuperAi.Approvals
set_option autoImplicit false

/-! ## Rules -/

inductive SizePer
  | trade
  | day
  | token
  deriving DecidableEq, Repr

structure BlockRule where
  asset_class : Option String := none
  chain : Option String := none
  token : Option String := none
  symbol_pattern : Option String := none
  deriving DecidableEq, Repr

structure RequireRule where
  min_mcap_usd : Option ℚ := none
  min_liquidity_usd : Option ℚ := none
  min_holders : Option ℚ := none
  chain : Option String := none
  must_have_audit : Bool := false
  deriving DecidableEq, Repr

structure TimeWindowRule where
  allow_utc_hours : Option (List ℚ) := none
  block_utc_hours : Option (List ℚ) := none
  days_of_week : Option (List ℚ) := none
  deriving DecidableEq, Repr

structure ApprovalCondition where
  notional_usd_gt : Option ℚ := none
  slippage_bps_gt : Option ℚ := none
  new_token : Bool := false
  deriving DecidableEq, Repr

inductive IntentRuleDsl
  | block (dsl : BlockRule)
  | require (dsl : RequireRule)
  | time_window (dsl : TimeWindowRule)
  | max_size_usd (value : ℚ) (per : SizePer)
  | require_approval_if (condition : ApprovalCondition)
  | prefer (asset_class chain : Option String) (weight : Option ℚ)
  deriving DecidableEq, Repr

structure UserIntentRule where
  id : String
  text : String
  rule : IntentRuleDsl
  deriving DecidableEq, Repr

/-! ## Candidates and decisions -/

structure CandidateMeta where
  assetClass : Option String := none
  symbol : Option String := none
  mcapUsd : Option ℚ := none
  liquidityUsd : Option ℚ := none
  holders : Option ℚ := none
  hasAudit : Bool := false
  deriving DecidableEq, Repr

structure CandidateUsage where
  dailyUsd : Option ℚ := none
  perTokenUsd : Option ℚ := none
  deriving DecidableEq, Repr

structure EnforcerCandidate where
  intent : TradeIntent
  info : CandidateMeta := {}
  usage : CandidateUsage := {}
  deriving DecidableEq, Repr

/-- `getUTCHours()` and `getUTCDay()` at the call. -/
structure UtcTime where
  hour : ℕ
  day : ℕ
  deriving DecidableEq, Repr

structure EnforcerDecision where
  ok : Bool
  reason : Option String := none
  appliedRuleIds : List String
  mustRequireApproval : Bool := false
  adjustedIntent : Option TradeIntent := none
  deriving DecidableEq, Repr

abbrev RegExpTest := String → String → Except String Bool

/-! ## One rule against one intent -/

/-- A field that is present and not the empty string. -/
def given (field : Option String) : Option String := field.filter (· ≠ "")

def sameText (field : Option String) (text : String) : Bool :=
  (given field).any fun wanted => text.toLower == wanted.toLower

def blockMatches (regExp : RegExpTest) (dsl : BlockRule) (intent : TradeIntent) (info : CandidateMeta) :
    Except String Bool :=
  if sameText dsl.token intent.tokenOut then .ok true
  else if (given dsl.chain).any (fun chain => intent.chain.toUpper == chain.toUpper) ∧
      given dsl.token = none ∧ given dsl.asset_class = none ∧ given dsl.symbol_pattern = none then .ok true
  else if (given info.assetClass).any (sameText dsl.asset_class) then .ok true
  else
    match given dsl.symbol_pattern, given info.symbol with
    | some pattern, some symbol => regExp pattern symbol
    | _, _ => .ok false

def requireFails (dsl : RequireRule) (intent : TradeIntent) (info : CandidateMeta) : Option String :=
  if (given dsl.chain).any (fun chain => intent.chain.toUpper != chain.toUpper) then some "chain"
  else if dsl.min_mcap_usd.any (info.mcapUsd.getD 0 < ·) then some "min_mcap_usd"
  else if dsl.min_liquidity_usd.any (info.liquidityUsd.getD 0 < ·) then some "min_liquidity_usd"
  else if dsl.min_holders.any (info.holders.getD 0 < ·) then some "min_holders"
  else if dsl.must_have_audit && !info.hasAudit then some "must_have_audit"
  else none

/-- The check of a `time_window` rule that fails, by the text of its refusal. -/
def windowFails (dsl : TimeWindowRule) (now : UtcTime) : Option String :=
  if (dsl.allow_utc_hours.filter (· ≠ [])).any (fun hours => !hours.contains (now.hour : ℚ)) then
    some "Outside allowed hours: "
  else if dsl.block_utc_hours.any (·.contains (now.hour : ℚ)) then some "Blocked hour: "
  else if (dsl.days_of_week.filter (· ≠ [])).any (fun days => !days.contains (now.day : ℚ)) then
    some "Blocked day: "
  else none

def escalates (condition : ApprovalCondition) (intent : TradeIntent) : Bool :=
  condition.notional_usd_gt.any (· < intent.notionalUsd) ||
    condition.slippage_bps_gt.any (· < (intent.slippageBps : ℚ)) || condition.new_token

/-! ## The passes -/

/-- The variables of `check`. -/
structure EnforcerState where
  intent : TradeIntent
  adjusted : Option TradeIntent := none
  applied : List String := []
  mustRequireApproval : Bool := false

inductive EnforcerStop
  | refused (reason : String) (appliedRuleIds : List String)
  | threw (error : String)

abbrev Enforcing := Except EnforcerStop EnforcerState

namespace EnforcerState
variable (s : EnforcerState) (r : UserIntentRule)

def apply : EnforcerState := { s with applied := s.applied ++ [r.id] }

def refuse (reason : String) : Enforcing :=
  .error (.refused reason (s.applied ++ [r.id]))

def blockPass (regExp : RegExpTest) (info : CandidateMeta) : Enforcing :=
  match r.rule with
  | .block dsl =>
    match blockMatches regExp dsl s.intent info with
    | .error error => .error (.threw error)
    | .ok true => s.refuse r ("Blocked by rule: " ++ r.text)
    | .ok false => .ok s
  | _ => .ok s

def requirePass (info : CandidateMeta) : Enforcing :=
  match r.rule with
  | .require dsl =>
    match requireFails dsl s.intent info with
    | some fail => s.refuse r ("Requirement unmet: " ++ fail ++ " (" ++ r.text ++ ")")
    | none => .ok (s.apply r)
  | _ => .ok s

def timingPass (now : UtcTime) : Enforcing :=
  match r.rule with
  | .time_window dsl =>
    match windowFails dsl now with
    | some text => s.refuse r (text ++ r.text)
    | none => .ok (s.apply r)
  | _ => .ok s

/-- The clamp writes the notional only. -/
def clamp (value : ℚ) : EnforcerState :=
  if value < s.intent.notionalUsd then
    { s with
      intent := { s.intent with notionalUsd := value }
      adjusted := some { s.intent with notionalUsd := value } }
  else s

def sizingPass (usage : CandidateUsage) : Enforcing :=
  match r.rule with
  | .max_size_usd value .trade => .ok ((s.clamp value).apply r)
  | .max_size_usd value .day =>
    if value < usage.dailyUsd.getD 0 + s.intent.notionalUsd then s.refuse r ("Exceeds daily cap: " ++ r.text)
    else .ok (s.apply r)
  | .max_size_usd value .token =>
    if value < usage.perTokenUsd.getD 0 + s.intent.notionalUsd then
      s.refuse r ("Exceeds per-token cap: " ++ r.text)
    else .ok (s.apply r)
  | _ => .ok s

def approvalPass : Enforcing :=
  match r.rule with
  | .require_approval_if condition =>
    .ok (if escalates condition s.intent then { s.apply r with mustRequireApproval := true } else s)
  | _ => .ok s

end EnforcerState

def enforce (regExp : RegExpTest) (now : UtcTime) (candidate : EnforcerCandidate)
    (rules : List UserIntentRule) : Enforcing := do
  let s ← rules.foldlM (·.blockPass · regExp candidate.info) { intent := candidate.intent }
  let s ← rules.foldlM (·.requirePass · candidate.info) s
  let s ← rules.foldlM (·.timingPass · now) s
  let s ← rules.foldlM (·.sizingPass · candidate.usage) s
  rules.foldlM EnforcerState.approvalPass s

def check (regExp : RegExpTest) (now : UtcTime) (candidate : EnforcerCandidate)
    (rules : List UserIntentRule) : Except String EnforcerDecision :=
  match enforce regExp now candidate rules with
  | .ok s => .ok
    { ok := true
      appliedRuleIds := s.applied
      mustRequireApproval := s.mustRequireApproval
      adjustedIntent := s.adjusted }
  | .error (.refused reason appliedRuleIds) => .ok { ok := false, reason := some reason, appliedRuleIds }
  | .error (.threw error) => .error error

/-! ## The intent along the passes -/

/-- The intent of `check` is the candidate's with a notional that is not larger, and `adjusted` is a copy
of it if there is one. -/
structure SizedDown (intent : TradeIntent) (s : EnforcerState) : Prop where
  same : s.intent = { intent with notionalUsd := s.intent.notionalUsd }
  le : s.intent.notionalUsd ≤ intent.notionalUsd
  copy : s.adjusted.getD intent = s.intent

namespace SizedDown
variable {intent : TradeIntent} {s s' : EnforcerState} {r : UserIntentRule}

theorem initial (intent : TradeIntent) : SizedDown intent { intent } := ⟨rfl, le_refl _, rfl⟩

theorem clamp (h : SizedDown intent s) (value : ℚ) : SizedDown intent (s.clamp value) := by
  unfold EnforcerState.clamp
  split
  · rename_i hlt
    refine ⟨?_, le_trans (le_of_lt hlt) h.le, rfl⟩
    change { s.intent with notionalUsd := value } = _
    rw [h.same]
  · exact h

theorem blockPass {regExp : RegExpTest} {info : CandidateMeta} (h : SizedDown intent s)
    (hpass : s.blockPass r regExp info = .ok s') : SizedDown intent s' := by
  unfold EnforcerState.blockPass at hpass
  split at hpass
  · split at hpass
    · cases hpass
    · cases hpass
    · cases hpass
      exact h
  · cases hpass
    exact h

theorem requirePass {info : CandidateMeta} (h : SizedDown intent s)
    (hpass : s.requirePass r info = .ok s') : SizedDown intent s' := by
  unfold EnforcerState.requirePass at hpass
  split at hpass
  · split at hpass
    · cases hpass
    · cases hpass
      exact ⟨h.same, h.le, h.copy⟩
  · cases hpass
    exact h

theorem timingPass {now : UtcTime} (h : SizedDown intent s)
    (hpass : s.timingPass r now = .ok s') : SizedDown intent s' := by
  unfold EnforcerState.timingPass at hpass
  split at hpass
  · split at hpass
    · cases hpass
    · cases hpass
      exact ⟨h.same, h.le, h.copy⟩
  · cases hpass
    exact h

theorem sizingPass {usage : CandidateUsage} (h : SizedDown intent s)
    (hpass : s.sizingPass r usage = .ok s') : SizedDown intent s' := by
  unfold EnforcerState.sizingPass at hpass
  split at hpass
  · rename_i value _
    cases hpass
    have hclamp := h.clamp value
    exact ⟨hclamp.same, hclamp.le, hclamp.copy⟩
  · split at hpass
    · cases hpass
    · cases hpass
      exact ⟨h.same, h.le, h.copy⟩
  · split at hpass
    · cases hpass
    · cases hpass
      exact ⟨h.same, h.le, h.copy⟩
  · cases hpass
    exact h

theorem approvalPass (h : SizedDown intent s) (hpass : s.approvalPass r = .ok s') : SizedDown intent s' := by
  unfold EnforcerState.approvalPass at hpass
  split at hpass
  · cases hpass
    split
    · exact ⟨h.same, h.le, h.copy⟩
    · exact h
  · cases hpass
    exact h

end SizedDown

theorem enforce_sizedDown {regExp : RegExpTest} {now : UtcTime} {candidate : EnforcerCandidate}
    {rules : List UserIntentRule} {s : EnforcerState} (h : enforce regExp now candidate rules = .ok s) :
    SizedDown candidate.intent s := by
  obtain ⟨s₁, hblock, h⟩ := bind_eq_ok.mp h
  obtain ⟨s₂, hrequire, h⟩ := bind_eq_ok.mp h
  obtain ⟨s₃, htiming, h⟩ := bind_eq_ok.mp h
  obtain ⟨s₄, hsizing, happroval⟩ := bind_eq_ok.mp h
  have h₁ := foldlM_invariant (fun _ _ _ => SizedDown.blockPass) (SizedDown.initial candidate.intent) hblock
  have h₂ := foldlM_invariant (fun _ _ _ => SizedDown.requirePass) h₁ hrequire
  have h₃ := foldlM_invariant (fun _ _ _ => SizedDown.timingPass) h₂ htiming
  have h₄ := foldlM_invariant (fun _ _ _ => SizedDown.sizingPass) h₃ hsizing
  exact foldlM_invariant (fun _ _ _ => SizedDown.approvalPass) h₄ happroval

/-- The intent that a decision leaves to the caller. -/
theorem check_intent {regExp : RegExpTest} {now : UtcTime} {candidate : EnforcerCandidate}
    {rules : List UserIntentRule} {decision : EnforcerDecision}
    (h : check regExp now candidate rules = .ok decision) :
    ∃ notionalUsd ≤ candidate.intent.notionalUsd, decision.adjustedIntent.getD candidate.intent =
      { candidate.intent with notionalUsd := notionalUsd } := by
  unfold check at h
  split at h
  · rename_i s henforce
    obtain rfl := Except.ok.inj h
    have hsized := enforce_sizedDown henforce
    exact ⟨s.intent.notionalUsd, hsized.le, hsized.copy.trans hsized.same⟩
  · obtain rfl := Except.ok.inj h
    exact ⟨candidate.intent.notionalUsd, le_refl _, rfl⟩
  · cases h

end SuperAi.Intent
