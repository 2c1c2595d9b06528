import SuperAi.Intent.IntentRuleService
import SuperAi.Intent.RuleOrder

/-! # Proposed rules take effect

What the active rules do with a rule among them, next to what that rule does alone. A cap for a day or a
token can let through what it refuses alone, when a cap for one trade has lowered the notional first; it
still bounds what is left. `propose` returns the rule it has created, or one with the same key.
-/
namespace SuperAi.Intent
open SuperAi.Foundations SuperAi.Approvals
set_option autoImplicit false

/-! ## One rule among others -/

def Accepted (candidate : EnforcerCandidate) (answer : Except String EnforcerDecision) (left : TradeIntent)
    (mustRequireApproval : Bool) : Prop :=
  ∃ decision, answer = .ok decision ∧ decision.ok = true ∧ decision.adjustedIntent.getD candidate.intent = left ∧
    decision.mustRequireApproval = mustRequireApproval

/-- The rules are as strict with the candidate as the rule alone. -/
structure AsStrict (regExp : RegExpTest) (now : UtcTime) (candidate : EnforcerCandidate) (rules : List UserIntentRule)
    (r : UserIntentRule) : Prop where
  rejects : (∀ value per, r.rule ≠ .max_size_usd value per) → ∀ left must,
    Accepted candidate (check regExp now candidate rules) left must →
      ∃ left' must', Accepted candidate (check regExp now candidate [r]) left' must'
  clamps : ∀ left must left' must', Accepted candidate (check regExp now candidate rules) left must →
    Accepted candidate (check regExp now candidate [r]) left' must' → left.notionalUsd ≤ left'.notionalUsd
  caps : ∀ value per, r.rule = .max_size_usd value per → ∀ left must,
    Accepted candidate (check regExp now candidate rules) left must →
      per.used candidate.usage + left.notionalUsd ≤ value
  approves : ∀ left must left', Accepted candidate (check regExp now candidate rules) left must →
    Accepted { candidate with intent := left } (check regExp now { candidate with intent := left } [r]) left' true →
      must = true

section Strict
variable {regExp : RegExpTest} {now : UtcTime} {candidate : EnforcerCandidate} {rules : List UserIntentRule}
  {r : UserIntentRule} {left left' : TradeIntent} {must must' : Bool}

theorem accepted_of_enforce {s : EnforcerState} (h : enforce regExp now candidate rules = .ok s) :
    Accepted candidate (check regExp now candidate rules) s.intent s.mustRequireApproval := by
  refine ⟨{ ok := true, appliedRuleIds := s.applied, mustRequireApproval := s.mustRequireApproval,
            adjustedIntent := s.adjusted }, ?_, rfl, (enforce_sizedDown h).copy, rfl⟩
  unfold check
  rw [h]

theorem enforce_of_accepted (h : Accepted candidate (check regExp now candidate rules) left must) :
    ∃ s, enforce regExp now candidate rules = .ok s ∧ s.intent = left ∧ s.mustRequireApproval = must := by
  obtain ⟨decision, hcheck, hok, rfl, rfl⟩ := h
  obtain ⟨s, henforce, hleft, hmust⟩ := check_accepted hcheck hok
  exact ⟨s, henforce, hleft.symm, hmust.symm⟩

theorem Accepted.outcome_eq {answer : Except String EnforcerDecision} (h : Accepted candidate answer left must) :
    outcome candidate answer = some (true, must, left.notionalUsd) := by
  obtain ⟨decision, rfl, hok, rfl, rfl⟩ := h
  simp [outcome, hok]

/-- A rule of an accepting list that is no cap accepts alone. -/
theorem accepted_alone (hr : r ∈ rules) (hsize : ∀ value per, r.rule ≠ .max_size_usd value per)
    (h : Accepted candidate (check regExp now candidate rules) left must) :
    ∃ left' must', Accepted candidate (check regExp now candidate [r]) left' must' := by
  obtain ⟨s, henforce, -, -⟩ := enforce_of_accepted h
  obtain ⟨before, sized, hbefore, -, -⟩ := enforce_ok henforce
  have halone : ∃ s', enforce regExp now candidate [r] = .ok s' := by
    apply accepted_of_sizing
    · intro r' hr'
      obtain rfl := List.mem_singleton.mp hr'
      exact hbefore.not_throws r' hr
    · rintro ⟨r', hr', hstops⟩
      obtain rfl := List.mem_singleton.mp hr'
      exact not_accepted_of_stops ⟨r', hr, hstops⟩ s henforce
    · intro start _
      apply sizing_total
      rintro r' hr' ⟨value, per, hrule, -, -⟩
      obtain rfl := List.mem_singleton.mp hr'
      exact hsize value per hrule
  obtain ⟨s', hs'⟩ := halone
  exact ⟨s'.intent, s'.mustRequireApproval, accepted_of_enforce hs'⟩

/-- **One rule among others.** -/
theorem asStrict_of_mem (hr : r ∈ rules) : AsStrict regExp now candidate rules r where
  rejects hsize left must h := accepted_alone hr hsize h
  clamps left must left' must' h halone := by
    obtain ⟨s, henforce, rfl, -⟩ := enforce_of_accepted h
    obtain ⟨s', henforce', rfl, -⟩ := enforce_of_accepted halone
    obtain ⟨⟨-, hleast⟩, -⟩ := outcome_of_accepted henforce
    obtain ⟨⟨hmem, -⟩, -⟩ := outcome_of_accepted henforce'
    apply hleast
    refine hmem.imp_right ?_
    rintro ⟨r', hr', hrule⟩
    obtain rfl := List.mem_singleton.mp hr'
    exact ⟨r', hr, hrule⟩
  caps value per hrule left must h := by
    obtain ⟨s, henforce, rfl, -⟩ := enforce_of_accepted h
    obtain ⟨before, sized, -, hsized, happroval⟩ := enforce_ok henforce
    rw [(approvals_ok happroval).1]
    exact (sizing_ok hsized).2 r hr value per hrule
  approves left must left' h halone := by
    obtain ⟨s, henforce, rfl, rfl⟩ := enforce_of_accepted h
    obtain ⟨s', henforce', -, hmust⟩ := enforce_of_accepted halone
    obtain ⟨-, happroval⟩ := outcome_of_accepted henforce
    obtain ⟨⟨hmem, -⟩, happroval'⟩ := outcome_of_accepted henforce'
    obtain ⟨r', hr', condition, hrule, hholds⟩ := happroval'.mp hmust
    obtain rfl := List.mem_singleton.mp hr'
    have hkept : s'.intent.notionalUsd = s.intent.notionalUsd := by
      refine hmem.resolve_right ?_
      rintro ⟨r'', hr'', hcap⟩
      obtain rfl := List.mem_singleton.mp hr''
      rw [hrule] at hcap
      cases hcap
    refine happroval.mpr ⟨r', hr, condition, hrule, ?_⟩
    rw [← (enforce_sizedDown henforce).same]
    rw [hkept] at hholds
    exact hholds

end Strict

/-! ## What a proposal leaves in the table -/

section Table
variable {t t' : RuleTable} {userId : String} {row : StoredRule}

theorem mem_activeRules (hrow : row ∈ t.rows) (huser : row.userId = userId) (hstatus : row.status = .ACTIVE) :
    row ∈ t.activeRules userId := by
  unfold RuleTable.activeRules
  rw [List.mem_insertionSort, List.mem_filter]
  exact ⟨hrow, by simp [huser, hstatus]⟩

/-- The row that an update returns is in the table, and is the old row with the data. -/
theorem mem_update {id : String} {data : RuleData} (h : t.update id data = .ok (row, t')) :
    row ∈ t'.rows ∧ ∃ old ∈ t.rows, old.id = id ∧ row = data.apply old := by
  unfold RuleTable.update at h
  split at h
  · cases h
  · rename_i old hfind
    obtain ⟨rfl, rfl⟩ := Prod.mk.inj (Except.ok.inj h)
    have hid : old.id = id := by simpa using List.find?_some hfind
    have hmem := List.mem_of_find?_eq_some hfind
    exact ⟨List.mem_map.mpr ⟨old, hmem, if_pos hid⟩, old, hmem, hid, rfl⟩

theorem mem_create {new : StoredRule} (h : t.create new = .ok (row, t')) : row = new ∧ row ∈ t'.rows := by
  unfold RuleTable.create at h
  split at h
  · cases h
  · obtain ⟨rfl, rfl⟩ := Prod.mk.inj (Except.ok.inj h)
    exact ⟨rfl, List.mem_append_right _ List.mem_cons_self⟩

theorem eq_of_id {old old' : StoredRule} (hold : old ∈ t.rows) (hold' : old' ∈ t.rows) (hid : old.id = old'.id) :
    old = old' := List.inj_on_of_nodup_map t.nodup hold hold' hid

theorem newRule_status {input : ProposeInput} {rule : IntentRuleDsl} {id : String} {now : ℤ}
    (h : 7 / 10 ≤ input.confidence) : (newRule userId input rule id now).status = .ACTIVE := by
  have hconfidence : (7 : ℚ) / 10 ≤ max 0 (min 1 input.confidence) :=
    le_max_of_le_right (le_min (by norm_num) h)
  exact if_pos hconfidence

end Table

namespace IntentRuleService
variable {s s' : IntentRuleService} {userId id : String} {input : ProposeInput} {now : ℤ} {result : ProposeResult}

/-- What `propose` returns is a rule of the user's in the table; one that it has created carries the
proposal. -/
theorem propose_ok (h : s.propose userId input id now = .ok (result, s')) :
    result.rule ∈ s'.table.rows ∧ result.rule.userId = userId ∧ s'.activeCache.get userId = none ∧
      (result.kind = .created → ∃ rule, validateIntentRuleDsl input.rule = .ok rule ∧
        result.rule = newRule userId input rule id now) := by
  obtain ⟨write, hprepare, h⟩ := bind_eq_ok.mp h
  obtain ⟨⟨row, table⟩, hwrite, h⟩ := bind_eq_ok.mp h
  obtain ⟨rfl, rfl⟩ := Prod.mk.inj (Except.ok.inj h)
  obtain ⟨rule, hrule, hprepare⟩ := bind_eq_ok.mp hprepare
  have hcache : (s.activeCache.del userId).get userId = none := KeyValue.get_del_self _ _
  cases hduplicate : findDuplicate s.table userId rule input.scope with
  | some duplicate =>
    rw [hduplicate] at hprepare
    obtain rfl := Except.ok.inj hprepare
    obtain ⟨hmem, old, hold, hid, rfl⟩ := mem_update hwrite
    refine ⟨hmem, ?_, hcache, fun hkind => by cases hkind⟩
    have hcandidate := List.mem_filter.mp (List.mem_of_find?_eq_some hduplicate)
    obtain rfl := eq_of_id hold hcandidate.1 hid
    have hkey := of_decide_eq_true hcandidate.2
    exact hkey.1
  | none =>
    rw [hduplicate] at hprepare
    obtain rfl := Except.ok.inj hprepare
    obtain ⟨rfl, hmem⟩ := mem_create hwrite
    exact ⟨hmem, rfl, hcache, fun _ => ⟨rule, hrule, rfl⟩⟩

/-- The first reading after a change finds the active rules of the table. -/
theorem getActive_of_not_cached (h : s.activeCache.get userId = none) :
    (s.getActive userId none now).1 = s.table.activeRules userId := by
  unfold getActive cached
  rw [h]
  rfl

end IntentRuleService

/-! ## A cap for a day after a cap for one trade -/

def sampleService : IntentRuleService where
  table :=
    { rows :=
        [{ id := "r1"
           text := "at most $50 a trade"
           rule := .max_size_usd 50 .trade
           userId := "u1"
           source := .MANUAL
           scope := .SIZING
           priority := 60
           createdAt := 0 }]
      nodup := List.nodup_singleton _ }

def sampleProposal : ProposeInput where
  text := "at most $80 a day"
  rule := .obj [("kind", .str "max_size_usd"), ("value", .num (.ofInt 80)), ("per", .str "day")]
  source := .MANUAL
  scope := .SIZING
  confidence := 1

/-- Of the proposal: the rule that is returned, and the rules that are active after it. -/
def sampleProposed : Option (UserIntentRule × IntentStatus × List UserIntentRule) :=
  (sampleService.propose "u1" sampleProposal "r2" 1).toOption.map fun (result, s) =>
    (result.rule.toUserIntentRule, result.rule.status, (s.getActive "u1" none 2).1.map (·.toUserIntentRule))

theorem sampleProposed_eq : sampleProposed =
    some (⟨"r2", "at most $80 a day", .max_size_usd 80 .day⟩, .ACTIVE,
      [⟨"r1", "at most $50 a trade", .max_size_usd 50 .trade⟩, ⟨"r2", "at most $80 a day", .max_size_usd 80 .day⟩]) := by
  decide +kernel

theorem sample_proposed : ∃ result s', sampleService.propose "u1" sampleProposal "r2" 1 = .ok (result, s') ∧
    result.rule.toUserIntentRule = ⟨"r2", "at most $80 a day", .max_size_usd 80 .day⟩ ∧
    result.rule.status = .ACTIVE ∧ (s'.getActive "u1" none 2).1.map (·.toUserIntentRule) =
      [⟨"r1", "at most $50 a trade", .max_size_usd 50 .trade⟩, ⟨"r2", "at most $80 a day", .max_size_usd 80 .day⟩] := by
  have hmap := sampleProposed_eq
  unfold sampleProposed at hmap
  cases hpropose : sampleService.propose "u1" sampleProposal "r2" 1 with
  | error error =>
    rw [hpropose] at hmap
    cases hmap
  | ok answer =>
    rw [hpropose] at hmap
    obtain ⟨hrule, hrest⟩ := Prod.mk.inj (Option.some.inj hmap)
    obtain ⟨hstatus, hactive⟩ := Prod.mk.inj hrest
    exact ⟨answer.1, answer.2, rfl, hrule, hstatus, hactive⟩

end SuperAi.Intent
