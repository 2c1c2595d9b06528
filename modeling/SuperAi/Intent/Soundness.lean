import SuperAi.Intent.IntentRuleEnforcer
import Mathlib.Tactic.Linarith

/-! # What an accepted intent satisfies

What each kind of rule asks of an intent, said without the passes of the enforcer, and that `check`
accepts an intent only if every rule has what it asks for. The first three passes meet every rule with the
candidate's intent (`Notes`); the sizing changes nothing but the notional, and that only downwards
(`Shrinks`), so that a cap that held when it was met holds in the end.
-/
namespace SuperAi.Intent
open SuperAi.Foundations SuperAi.Approvals
set_option autoImplicit false

/-! ## What a rule asks for -/

/-- The rule names the token of the intent, or its asset class, or a pattern that its symbol has; or it
names nothing but the chain of the intent. -/
def BlockRule.Matches (dsl : BlockRule) (regExp : RegExpTest) (intent : TradeIntent) (info : CandidateMeta) : Prop :=
  (∃ token, given dsl.token = some token ∧ intent.tokenOut.toLower = token.toLower) ∨
  (∃ chain, given dsl.chain = some chain ∧ intent.chain.toUpper = chain.toUpper ∧
    given dsl.token = none ∧ given dsl.asset_class = none ∧ given dsl.symbol_pattern = none) ∨
  (∃ wanted asset, given dsl.asset_class = some wanted ∧ given info.assetClass = some asset ∧
    asset.toLower = wanted.toLower) ∨
  ∃ pattern symbol, given dsl.symbol_pattern = some pattern ∧ given info.symbol = some symbol ∧
    regExp pattern symbol = .ok true

/-- A figure that is not known counts as 0. -/
structure RequireRule.Met (dsl : RequireRule) (intent : TradeIntent) (info : CandidateMeta) : Prop where
  chain : ∀ chain, given dsl.chain = some chain → intent.chain.toUpper = chain.toUpper
  mcap : ∀ least, dsl.min_mcap_usd = some least → least ≤ info.mcapUsd.getD 0
  liquidity : ∀ least, dsl.min_liquidity_usd = some least → least ≤ info.liquidityUsd.getD 0
  holders : ∀ least, dsl.min_holders = some least → least ≤ info.holders.getD 0
  audit : dsl.must_have_audit = true → info.hasAudit = true

/-- An empty list of allowed hours or days allows all of them. -/
structure TimeWindowRule.Open (dsl : TimeWindowRule) (now : UtcTime) : Prop where
  allowed : ∀ hours, dsl.allow_utc_hours = some hours → hours ≠ [] → (now.hour : ℚ) ∈ hours
  blocked : ∀ hours, dsl.block_utc_hours = some hours → (now.hour : ℚ) ∉ hours
  days : ∀ days, dsl.days_of_week = some days → days ≠ [] → (now.day : ℚ) ∈ days

/-- A condition on new tokens is true of every intent: nothing tells the enforcer which are new. -/
def ApprovalCondition.Holds (condition : ApprovalCondition) (intent : TradeIntent) : Prop :=
  (∃ least, condition.notional_usd_gt = some least ∧ least < intent.notionalUsd) ∨
  (∃ least, condition.slippage_bps_gt = some least ∧ least < (intent.slippageBps : ℚ)) ∨
  condition.new_token = true

/-- What has been spent of a cap before the trade. -/
def SizePer.used (usage : CandidateUsage) : SizePer → ℚ
  | .trade => 0
  | .day => usage.dailyUsd.getD 0
  | .token => usage.perTokenUsd.getD 0

def IntentRuleDsl.Satisfied (regExp : RegExpTest) (now : UtcTime) (candidate : EnforcerCandidate)
    (intent : TradeIntent) : IntentRuleDsl → Prop
  | .block dsl => ¬ dsl.Matches regExp intent candidate.info
  | .require dsl => dsl.Met intent candidate.info
  | .time_window dsl => dsl.Open now
  | .max_size_usd value per => per.used candidate.usage + intent.notionalUsd ≤ value
  | .require_approval_if _ => True
  | .prefer _ _ _ => True

/-! ## One rule -/

theorem sameText_eq_true {field : Option String} {text : String} :
    sameText field text = true ↔ ∃ wanted, given field = some wanted ∧ text.toLower = wanted.toLower := by
  unfold sameText
  rw [Option.any_eq_true]
  simp only [beq_iff_eq]

theorem blockMatches_eq_ok {regExp : RegExpTest} {dsl : BlockRule} {intent : TradeIntent} {info : CandidateMeta}
    {hit : Bool} (h : blockMatches regExp dsl intent info = .ok hit) :
    hit = true ↔ dsl.Matches regExp intent info := by
  unfold blockMatches at h
  split at h
  · rename_i htoken
    obtain rfl := Except.ok.inj h
    exact iff_of_true rfl (.inl (sameText_eq_true.mp htoken))
  · rename_i htoken
    split at h
    · rename_i hchain
      obtain rfl := Except.ok.inj h
      obtain ⟨hany, hnone⟩ := hchain
      obtain ⟨chain, hgiven, hsame⟩ := (Option.any_eq_true _ _).mp hany
      exact iff_of_true rfl (.inr (.inl ⟨chain, hgiven, beq_iff_eq.mp hsame, hnone⟩))
    · rename_i hchain
      split at h
      · rename_i hasset
        obtain rfl := Except.ok.inj h
        obtain ⟨asset, hgiven, hsame⟩ := (Option.any_eq_true _ _).mp hasset
        obtain ⟨wanted, hwanted, heq⟩ := sameText_eq_true.mp hsame
        exact iff_of_true rfl (.inr (.inr (.inl ⟨wanted, asset, hwanted, hgiven, heq⟩)))
      · rename_i hasset
        have hrest : dsl.Matches regExp intent info ↔ ∃ pattern symbol, given dsl.symbol_pattern = some pattern ∧
            given info.symbol = some symbol ∧ regExp pattern symbol = .ok true := by
          constructor
          · rintro (hmatch | ⟨chain, hgiven, hsame, hnone⟩ | ⟨wanted, asset, hwanted, hgiven, hsame⟩ | hpattern)
            · exact absurd (sameText_eq_true.mpr hmatch) htoken
            · exact absurd ⟨(Option.any_eq_true _ _).mpr ⟨chain, hgiven, beq_iff_eq.mpr hsame⟩, hnone⟩ hchain
            · exact absurd ((Option.any_eq_true _ _).mpr
                ⟨asset, hgiven, sameText_eq_true.mpr ⟨wanted, hwanted, hsame⟩⟩) hasset
            · exact hpattern
          · exact fun hpattern => .inr (.inr (.inr hpattern))
        rw [hrest]
        split at h
        · rename_i pattern symbol hpattern hsymbol
          simp [hpattern, hsymbol, h]
        · rename_i hnot
          obtain rfl := Except.ok.inj h
          apply iff_of_false Bool.false_ne_true
          rintro ⟨pattern, symbol, hpattern, hsymbol, -⟩
          exact hnot pattern symbol hpattern hsymbol

theorem requireFails_eq_none {dsl : RequireRule} {intent : TradeIntent} {info : CandidateMeta} :
    requireFails dsl intent info = none ↔ dsl.Met intent info := by
  unfold requireFails
  simp only [ite_some_eq_none, and_true]
  constructor
  · rintro ⟨hchain, hmcap, hliquidity, hholders, haudit⟩
    exact {
      chain := fun chain h => by simpa [h] using hchain
      mcap := fun least h => by simpa [h] using hmcap
      liquidity := fun least h => by simpa [h] using hliquidity
      holders := fun least h => by simpa [h] using hholders
      audit := fun h => by simpa [h] using haudit }
  · intro h
    refine ⟨fun hfail => ?_, fun hfail => ?_, fun hfail => ?_, fun hfail => ?_, fun hfail => ?_⟩
    · obtain ⟨chain, hgiven, hne⟩ := (Option.any_eq_true _ _).mp hfail
      exact bne_iff_ne.mp hne (h.chain chain hgiven)
    · obtain ⟨least, hgiven, hlt⟩ := (Option.any_eq_true _ _).mp hfail
      exact absurd (of_decide_eq_true hlt) (not_lt.mpr (h.mcap least hgiven))
    · obtain ⟨least, hgiven, hlt⟩ := (Option.any_eq_true _ _).mp hfail
      exact absurd (of_decide_eq_true hlt) (not_lt.mpr (h.liquidity least hgiven))
    · obtain ⟨least, hgiven, hlt⟩ := (Option.any_eq_true _ _).mp hfail
      exact absurd (of_decide_eq_true hlt) (not_lt.mpr (h.holders least hgiven))
    · rw [Bool.and_eq_true, Bool.not_eq_true'] at hfail
      rw [h.audit hfail.1] at hfail
      exact Bool.noConfusion hfail.2

theorem windowFails_eq_none {dsl : TimeWindowRule} {now : UtcTime} :
    windowFails dsl now = none ↔ dsl.Open now := by
  unfold windowFails
  simp only [ite_some_eq_none, and_true]
  constructor
  · rintro ⟨hallowed, hblocked, hdays⟩
    exact {
      allowed := fun hours h hne => by simpa [h, Option.filter, hne] using hallowed
      blocked := fun hours h => by simpa [h] using hblocked
      days := fun days h hne => by simpa [h, Option.filter, hne] using hdays }
  · intro h
    refine ⟨fun hfail => ?_, fun hfail => ?_, fun hfail => ?_⟩
    · obtain ⟨hours, hgiven, hnot⟩ := (Option.any_eq_true _ _).mp hfail
      obtain ⟨hsome, hne⟩ := Option.filter_eq_some_iff.mp hgiven
      simp [h.allowed hours hsome (of_decide_eq_true hne)] at hnot
    · obtain ⟨hours, hgiven, hmem⟩ := (Option.any_eq_true _ _).mp hfail
      exact h.blocked hours hgiven (List.contains_iff_mem.mp hmem)
    · obtain ⟨days, hgiven, hnot⟩ := (Option.any_eq_true _ _).mp hfail
      obtain ⟨hsome, hne⟩ := Option.filter_eq_some_iff.mp hgiven
      simp [h.days days hsome (of_decide_eq_true hne)] at hnot

theorem escalates_eq_true {condition : ApprovalCondition} {intent : TradeIntent} :
    escalates condition intent = true ↔ condition.Holds intent := by
  unfold escalates ApprovalCondition.Holds
  simp only [Bool.or_eq_true, Option.any_eq_true, decide_eq_true_eq, or_assoc]

/-! ## One pass -/

/-- The pass has at most noted some rules as applied. -/
def Notes (s s' : EnforcerState) : Prop := ∃ applied, s' = { s with applied }

namespace Notes
variable {s s' s'' : EnforcerState}

theorem refl (s : EnforcerState) : Notes s s := ⟨s.applied, rfl⟩

theorem trans (h : Notes s s') (h' : Notes s' s'') : Notes s s'' := by
  obtain ⟨applied, rfl⟩ := h
  obtain ⟨applied', rfl⟩ := h'
  exact ⟨applied', rfl⟩

theorem intent (h : Notes s s') : s'.intent = s.intent := by
  obtain ⟨applied, rfl⟩ := h
  rfl

theorem mustRequireApproval (h : Notes s s') : s'.mustRequireApproval = s.mustRequireApproval := by
  obtain ⟨applied, rfl⟩ := h
  rfl

/-- A pass that notes rules meets all of them with the same intent. -/
theorem pass {f : EnforcerState → UserIntentRule → Enforcing} {P : TradeIntent → UserIntentRule → Prop}
    (hstep : ∀ s r s', f s r = .ok s' → Notes s s' ∧ P s.intent r) {rules : List UserIntentRule}
    (h : rules.foldlM f s = .ok s') : Notes s s' ∧ ∀ r ∈ rules, P s.intent r := by
  constructor
  · exact foldlM_invariant (I := Notes s) (fun c r c' hc hmet => hc.trans (hstep c r c' hmet).1) (refl s) h
  · intro r hr
    obtain ⟨c, c', hc, hmet, -⟩ := foldlM_mem refl (fun _ _ _ => trans) (fun c r c' hmet => (hstep c r c' hmet).1) h hr
    rw [← hc.intent]
    exact (hstep c r c' hmet).2

end Notes

/-- The pass has at most lowered the notional, and noted some rules. -/
structure Shrinks (s s' : EnforcerState) : Prop where
  same : s'.intent = { s.intent with notionalUsd := s'.intent.notionalUsd }
  le : s'.intent.notionalUsd ≤ s.intent.notionalUsd
  must : s'.mustRequireApproval = s.mustRequireApproval

namespace Shrinks
variable {s s' s'' : EnforcerState}

theorem of_notes (h : Notes s s') : Shrinks s s' := by
  obtain ⟨applied, rfl⟩ := h
  exact ⟨rfl, le_refl _, rfl⟩

theorem refl (s : EnforcerState) : Shrinks s s := of_notes (.refl s)

theorem trans (h : Shrinks s s') (h' : Shrinks s' s'') : Shrinks s s'' := by
  refine ⟨?_, le_trans h'.le h.le, h'.must.trans h.must⟩
  rw [h'.same, h.same]

theorem clamp (s : EnforcerState) (value : ℚ) : Shrinks s (s.clamp value) := by
  unfold EnforcerState.clamp
  split
  · rename_i hlt
    exact ⟨rfl, le_of_lt hlt, rfl⟩
  · exact refl s

end Shrinks

section Passes
variable {regExp : RegExpTest} {now : UtcTime} {info : CandidateMeta} {usage : CandidateUsage}
  {s s' : EnforcerState} {r : UserIntentRule}

theorem blockPass_ok (h : s.blockPass r regExp info = .ok s') :
    Notes s s' ∧ ∀ dsl, r.rule = .block dsl → blockMatches regExp dsl s.intent info = .ok false := by
  unfold EnforcerState.blockPass at h
  split at h
  · rename_i dsl hrule
    split at h
    · cases h
    · cases h
    · rename_i hmatch
      obtain rfl := Except.ok.inj h
      refine ⟨.refl s, fun dsl' hrule' => ?_⟩
      obtain rfl := IntentRuleDsl.block.inj (hrule.symm.trans hrule')
      exact hmatch
  · rename_i hrule
    obtain rfl := Except.ok.inj h
    exact ⟨.refl s, fun dsl hblock => absurd hblock (hrule dsl)⟩

theorem requirePass_ok (h : s.requirePass r info = .ok s') :
    Notes s s' ∧ ∀ dsl, r.rule = .require dsl → dsl.Met s.intent info := by
  unfold EnforcerState.requirePass at h
  split at h
  · rename_i dsl hrule
    split at h
    · cases h
    · rename_i hfails
      obtain rfl := Except.ok.inj h
      refine ⟨⟨_, rfl⟩, fun dsl' hrule' => ?_⟩
      obtain rfl := IntentRuleDsl.require.inj (hrule.symm.trans hrule')
      exact requireFails_eq_none.mp hfails
  · rename_i hrule
    obtain rfl := Except.ok.inj h
    exact ⟨.refl s, fun dsl hrequire => absurd hrequire (hrule dsl)⟩

theorem timingPass_ok (h : s.timingPass r now = .ok s') :
    Notes s s' ∧ ∀ dsl, r.rule = .time_window dsl → dsl.Open now := by
  unfold EnforcerState.timingPass at h
  split at h
  · rename_i dsl hrule
    split at h
    · cases h
    · rename_i hfails
      obtain rfl := Except.ok.inj h
      refine ⟨⟨_, rfl⟩, fun dsl' hrule' => ?_⟩
      obtain rfl := IntentRuleDsl.time_window.inj (hrule.symm.trans hrule')
      exact windowFails_eq_none.mp hfails
  · rename_i hrule
    obtain rfl := Except.ok.inj h
    exact ⟨.refl s, fun dsl hwindow => absurd hwindow (hrule dsl)⟩

theorem clamp_notional_le (s : EnforcerState) (value : ℚ) : (s.clamp value).intent.notionalUsd ≤ value := by
  unfold EnforcerState.clamp
  split
  · exact le_refl value
  · rename_i hle
    exact not_lt.mp hle

theorem sizingPass_ok (h : s.sizingPass r usage = .ok s') : Shrinks s s' ∧
    ∀ value per, r.rule = .max_size_usd value per → per.used usage + s'.intent.notionalUsd ≤ value := by
  unfold EnforcerState.sizingPass at h
  split at h
  · rename_i value hrule
    obtain rfl := Except.ok.inj h
    have hclamp := Shrinks.clamp s value
    refine ⟨⟨hclamp.same, hclamp.le, hclamp.must⟩, fun value' per hrule' => ?_⟩
    obtain ⟨rfl, rfl⟩ := IntentRuleDsl.max_size_usd.inj (hrule.symm.trans hrule')
    exact (zero_add _).trans_le (clamp_notional_le s value)
  · rename_i value hrule
    split at h
    · cases h
    · rename_i hle
      obtain rfl := Except.ok.inj h
      refine ⟨.of_notes ⟨_, rfl⟩, fun value' per hrule' => ?_⟩
      obtain ⟨rfl, rfl⟩ := IntentRuleDsl.max_size_usd.inj (hrule.symm.trans hrule')
      exact not_lt.mp hle
  · rename_i value hrule
    split at h
    · cases h
    · rename_i hle
      obtain rfl := Except.ok.inj h
      refine ⟨.of_notes ⟨_, rfl⟩, fun value' per hrule' => ?_⟩
      obtain ⟨rfl, rfl⟩ := IntentRuleDsl.max_size_usd.inj (hrule.symm.trans hrule')
      exact not_lt.mp hle
  · rename_i htrade hday htoken
    obtain rfl := Except.ok.inj h
    refine ⟨.refl s, fun value per hrule => ?_⟩
    cases per with
    | trade => exact absurd hrule (htrade value)
    | day => exact absurd hrule (hday value)
    | token => exact absurd hrule (htoken value)

/-- The approvals look at one intent, which they leave. -/
theorem approvals_ok {rules : List UserIntentRule} (h : rules.foldlM EnforcerState.approvalPass s = .ok s') :
    s'.intent = s.intent ∧ (s'.mustRequireApproval = true ↔ s.mustRequireApproval = true ∨
      ∃ r ∈ rules, ∃ condition, r.rule = .require_approval_if condition ∧ condition.Holds s.intent) := by
  induction rules generalizing s with
  | nil =>
    obtain rfl := Except.ok.inj h
    simp
  | cons r rules ih =>
    rw [List.foldlM_cons] at h
    obtain ⟨t, hfirst, hrest⟩ := bind_eq_ok.mp h
    obtain ⟨hintent, hmust⟩ := ih hrest
    unfold EnforcerState.approvalPass at hfirst
    split at hfirst
    · rename_i condition hrule
      obtain rfl := Except.ok.inj hfirst
      by_cases hesc : escalates condition s.intent = true
      · rw [if_pos hesc] at hintent hmust
        refine ⟨hintent, iff_of_true (hmust.mpr (.inl rfl)) (.inr ⟨r, List.mem_cons_self, condition, hrule, ?_⟩)⟩
        exact escalates_eq_true.mp hesc
      · rw [if_neg hesc] at hintent hmust
        have hnot : ¬ condition.Holds s.intent := mt escalates_eq_true.mpr hesc
        refine ⟨hintent, hmust.trans ?_⟩
        simp only [List.exists_mem_cons_iff, hrule, IntentRuleDsl.require_approval_if.injEq, exists_eq_left', hnot,
          false_or]
    · rename_i hrule
      obtain rfl := Except.ok.inj hfirst
      have hnone : ¬ ∃ condition, r.rule = .require_approval_if condition ∧ condition.Holds s.intent :=
        fun ⟨condition, hcondition, _⟩ => hrule condition hcondition
      refine ⟨hintent, hmust.trans ?_⟩
      simp only [List.exists_mem_cons_iff, hnone, false_or]

end Passes

/-! ## All passes -/

section Check
variable {regExp : RegExpTest} {now : UtcTime} {candidate : EnforcerCandidate} {rules : List UserIntentRule}

/-- The intent has passed the first three passes, and `before` is the state with which the sizing starts. -/
structure Cleared (regExp : RegExpTest) (now : UtcTime) (candidate : EnforcerCandidate) (rules : List UserIntentRule)
    (before : EnforcerState) : Prop where
  notes : Notes { intent := candidate.intent } before
  unblocked : ∀ r ∈ rules, ∀ dsl, r.rule = .block dsl →
    blockMatches regExp dsl candidate.intent candidate.info = .ok false
  required : ∀ r ∈ rules, ∀ dsl, r.rule = .require dsl → dsl.Met candidate.intent candidate.info
  timed : ∀ r ∈ rules, ∀ dsl, r.rule = .time_window dsl → dsl.Open now

theorem enforce_ok {s : EnforcerState} (h : enforce regExp now candidate rules = .ok s) :
    ∃ before sized, Cleared regExp now candidate rules before ∧
      rules.foldlM (·.sizingPass · candidate.usage) before = .ok sized ∧
      rules.foldlM EnforcerState.approvalPass sized = .ok s := by
  obtain ⟨s₁, hblock, h⟩ := bind_eq_ok.mp h
  obtain ⟨s₂, hrequire, h⟩ := bind_eq_ok.mp h
  obtain ⟨s₃, htiming, h⟩ := bind_eq_ok.mp h
  obtain ⟨s₄, hsizing, happroval⟩ := bind_eq_ok.mp h
  obtain ⟨h₁, hunblocked⟩ := Notes.pass (P := fun intent r => ∀ dsl, r.rule = .block dsl →
    blockMatches regExp dsl intent candidate.info = .ok false) (fun _ _ _ => blockPass_ok) hblock
  obtain ⟨h₂, hrequired⟩ := Notes.pass (P := fun intent r => ∀ dsl, r.rule = .require dsl →
    dsl.Met intent candidate.info) (fun _ _ _ => requirePass_ok) hrequire
  obtain ⟨h₃, htimed⟩ := Notes.pass (P := fun _ r => ∀ dsl, r.rule = .time_window dsl → dsl.Open now)
    (fun _ _ _ => timingPass_ok) htiming
  rw [h₁.intent] at hrequired
  exact ⟨s₃, s₄, ⟨(h₁.trans h₂).trans h₃, hunblocked, hrequired, htimed⟩, hsizing, happroval⟩

/-- The sizing keeps to every cap, of which each was met with a notional not less than the last. -/
theorem sizing_ok {usage : CandidateUsage} {s s' : EnforcerState}
    (h : rules.foldlM (·.sizingPass · usage) s = .ok s') : Shrinks s s' ∧ ∀ r ∈ rules, ∀ value per,
      r.rule = .max_size_usd value per → per.used usage + s'.intent.notionalUsd ≤ value := by
  constructor
  · exact foldlM_invariant (I := Shrinks s) (fun c r c' hc hmet => hc.trans (sizingPass_ok hmet).1) (.refl s) h
  · intro r hr value per hrule
    obtain ⟨c, c', -, hmet, hc'⟩ := foldlM_mem Shrinks.refl (fun _ _ _ => Shrinks.trans)
      (fun c r c' hmet => (sizingPass_ok hmet).1) h hr
    have hfits := (sizingPass_ok hmet).2 value per hrule
    have hle := hc'.le
    linarith

theorem Cleared.sized_intent {before sized : EnforcerState} (hbefore : Cleared regExp now candidate rules before)
    (hsized : rules.foldlM (·.sizingPass · candidate.usage) before = .ok sized) :
    sized.intent = { candidate.intent with notionalUsd := sized.intent.notionalUsd } := by
  rw [(sizing_ok hsized).1.same, hbefore.notes.intent]

theorem satisfied_of_sized {before sized : EnforcerState} (hbefore : Cleared regExp now candidate rules before)
    (hsized : rules.foldlM (·.sizingPass · candidate.usage) before = .ok sized) :
    ∀ r ∈ rules, r.rule.Satisfied regExp now candidate sized.intent := by
  have hintent := hbefore.sized_intent hsized
  intro r hr
  cases hrule : r.rule with
  | block dsl =>
    have hnot : ¬ dsl.Matches regExp candidate.intent candidate.info := by
      rw [← blockMatches_eq_ok (hbefore.unblocked r hr dsl hrule)]
      exact Bool.false_ne_true
    change ¬ dsl.Matches regExp sized.intent candidate.info
    rw [hintent]
    exact hnot
  | require dsl =>
    obtain ⟨hchain, hmcap, hliquidity, hholders, haudit⟩ := hbefore.required r hr dsl hrule
    change dsl.Met sized.intent candidate.info
    rw [hintent]
    exact ⟨hchain, hmcap, hliquidity, hholders, haudit⟩
  | time_window dsl => exact hbefore.timed r hr dsl hrule
  | max_size_usd value per => exact (sizing_ok hsized).2 r hr value per hrule
  | require_approval_if condition => trivial
  | prefer asset_class chain weight => trivial

/-- An accepting decision is the state after the last pass. -/
theorem check_accepted {decision : EnforcerDecision} (h : check regExp now candidate rules = .ok decision)
    (hok : decision.ok = true) : ∃ s, enforce regExp now candidate rules = .ok s ∧
      decision.adjustedIntent.getD candidate.intent = s.intent ∧
      decision.mustRequireApproval = s.mustRequireApproval := by
  unfold check at h
  split at h
  · rename_i s henforce
    obtain rfl := Except.ok.inj h
    exact ⟨s, henforce, (enforce_sizedDown henforce).copy, rfl⟩
  · obtain rfl := Except.ok.inj h
    cases hok
  · cases h

theorem enforce_satisfied {s : EnforcerState} (h : enforce regExp now candidate rules = .ok s) :
    ∀ r ∈ rules, r.rule.Satisfied regExp now candidate s.intent := by
  obtain ⟨before, sized, hbefore, hsized, happroval⟩ := enforce_ok h
  rw [(approvals_ok happroval).1]
  exact satisfied_of_sized hbefore hsized

end Check

/-! ## A candidate and five rules -/

def sampleCandidate : EnforcerCandidate where
  intent :=
    { chain := "SOLANA"
      tokenIn := "USDC"
      tokenOut := "DOGE"
      amountIn := "100"
      notionalUsd := 100
      slippageBps := 100
      walletId := "w1" }
  info := { symbol := some "DOGE", liquidityUsd := some 50000 }
  usage := { dailyUsd := some 20 }

def sampleRules : List UserIntentRule :=
  [⟨"r1", "no memes", .block { asset_class := some "meme" }⟩,
    ⟨"r2", "liquid tokens only", .require { min_liquidity_usd := some 10000 }⟩,
    ⟨"r3", "at most $50 a trade", .max_size_usd 50 .trade⟩,
    ⟨"r4", "at most $80 a day", .max_size_usd 80 .day⟩,
    ⟨"r5", "ask above $40", .require_approval_if { notional_usd_gt := some 40 }⟩]

def sampleDecision : EnforcerDecision where
  ok := true
  appliedRuleIds := ["r2", "r3", "r4", "r5"]
  mustRequireApproval := true
  adjustedIntent := some { sampleCandidate.intent with notionalUsd := 50 }

end SuperAi.Intent
