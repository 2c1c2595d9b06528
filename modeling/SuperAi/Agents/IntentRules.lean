import SuperAi.Agents.ClampedTrades
import SuperAi.Guardrails.GuardrailsService
import SuperAi.Intent.IntentRuleService
import SuperAi.Intent.RuleOrder

/-! # Standing rules of the autonomous trader

The ticks of one user while the rules are enforced and do not change. `runForUser` gives the enforcer the
intent alone: neither what has been spent of a cap nor what is known of the token. So a cap for a day
binds each trade and not their sum, a block by asset class or symbol never hits, and a requirement with a
figure is never met (`daily_cap_exceeded`). The rules are honoured in every run in which what is left out
makes no difference (`rules_honoured`).
-/
namespace SuperAi.Agents
open SuperAi.Foundations SuperAi.Auth SuperAi.Approvals SuperAi.Execution SuperAi.Intent
open SuperAi.Guardrails (startOfDay)
set_option autoImplicit false

/-! ## Ticks -/

/-- What a tick meets: the configuration and strategies of the user, the answers to each strategy, and when
the swap of a strategy is executed, unless it throws. -/
structure UserTick where
  now : ℤ
  cfg : TraderConfig
  candidates : List UserStrategy
  answers : UserStrategy → StrategyAnswers
  executedAt : UserStrategy → Option ℤ

structure AutonomousTrade where
  decidedAt : ℤ
  executedAt : ℤ
  input : SwapInput
  deriving DecidableEq, Repr

/-- The payload of `INTENT_RULE_BLOCKED`. -/
structure RuleBlocked where
  blockedAt : ℤ
  intent : TradeIntent
  ruleIds : List String
  deriving DecidableEq, Repr

structure AutonomousRun where
  trades : List AutonomousTrade := []
  blocked : List RuleBlocked := []
  deriving DecidableEq, Repr

namespace UserTick
variable (regExp : RegExpTest) (rules : List UserIntentRule) (e : UserTick)

/-- The answers to a strategy, with the user's active rules. -/
def enforced (s : UserStrategy) : StrategyAnswers := { e.answers s with rules := some rules }

def executed : UserStrategy × Route → Option AutonomousTrade
  | (s, .swap input) => (e.executedAt s).map fun t => ⟨e.now, t, input⟩
  | _ => none

def trades : List AutonomousTrade :=
  (runForUser regExp e.cfg e.now e.candidates (e.enforced rules)).filterMap e.executed

/-- The intent of a strategy as the enforcer meets it. -/
def proposed (s : UserStrategy) : Option TradeIntent :=
  ((e.answers s).reply.bind proposeIntent).map (clampToMax e.cfg)

def ruleBlocked (s : UserStrategy) : Option RuleBlocked :=
  (e.proposed s).bind fun intent =>
    if rules = [] then none
    else
      match check regExp (e.answers s).utc { intent } rules with
      | .ok decision => if decision.ok then none else some ⟨e.now, intent, decision.appliedRuleIds⟩
      | .error _ => none

def blocked : List RuleBlocked :=
  if e.cfg.remaining e.now ≤ 0 then [] else (pickStrategies e.candidates).filterMap (e.ruleBlocked regExp rules)

end UserTick

def AutonomousRun.tick (regExp : RegExpTest) (rules : List UserIntentRule) (s : AutonomousRun) (e : UserTick) :
    AutonomousRun where
  trades := s.trades ++ e.trades regExp rules
  blocked := s.blocked ++ e.blocked regExp rules

def AutonomousRun.step (regExp : RegExpTest) (rules : List UserIntentRule) (userId : String) (s : AutonomousRun)
    (e : UserTick) : Option AutonomousRun :=
  if e.cfg.userId = userId then some (s.tick regExp rules e) else none

def autonomousTicks (regExp : RegExpTest) (rules : List UserIntentRule) (userId : String) :
    StepSystem AutonomousRun UserTick := ⟨AutonomousRun.step regExp rules userId⟩

/-! ## Honoured rules -/

/-- The trade counts for a cap of this kind, on this day and for this token. -/
def AutonomousTrade.counts (per : SizePer) (day : ℤ) (token : String) (t : AutonomousTrade) : Bool :=
  match per with
  | .trade => false
  | .day => startOfDay t.executedAt = day
  | .token => startOfDay t.executedAt = day && t.input.tokenOut = token

def spent (per : SizePer) (day : ℤ) (token : String) (trades : List AutonomousTrade) : ℚ :=
  ((trades.filter (AutonomousTrade.counts per day token)).map (·.input.notionalUsd)).sum

/-- The rule names the token by its asset class or its symbol. -/
def Names (regExp : RegExpTest) (dsl : BlockRule) (info : CandidateMeta) : Prop :=
  (∃ wanted asset, given dsl.asset_class = some wanted ∧ given info.assetClass = some asset ∧
    asset.toLower = wanted.toLower) ∨
  ∃ pattern symbol, given dsl.symbol_pattern = some pattern ∧ given info.symbol = some symbol ∧
    regExp pattern symbol = .ok true

/-- The rules are honoured, with what is known of a token at a time. -/
structure RulesHonoured (regExp : RegExpTest) (facts : ℤ → String → CandidateMeta) (rules : List UserIntentRule)
    (s : AutonomousRun) : Prop where
  caps : ∀ r ∈ rules, ∀ value per, r.rule = .max_size_usd value per → ∀ day token,
    spent per day token s.trades ≤ value
  blocks : ∀ t ∈ s.trades, ∀ r ∈ rules, ∀ dsl, r.rule = .block dsl →
    ¬ Names regExp dsl (facts t.decidedAt t.input.tokenOut)
  requires : ∀ b ∈ s.blocked, ∀ r ∈ rules, ∀ dsl, r.rule = .require dsl →
    dsl.Met b.intent (facts b.blockedAt b.intent.tokenOut) → b.ruleIds.getLast? ≠ some r.id

/-- The rule asks for no figure above 0 and for no audit. -/
structure AsksNoFigures (dsl : RequireRule) : Prop where
  mcap : ∀ least, dsl.min_mcap_usd = some least → least ≤ 0
  liquidity : ∀ least, dsl.min_liquidity_usd = some least → least ≤ 0
  holders : ∀ least, dsl.min_holders = some least → least ≤ 0
  audit : dsl.must_have_audit = false

/-- What the enforcer is not told makes no difference to this intent: of a cap nothing has been spent, or
what has been spent leaves room for the intent or for what a cap for one trade makes of it; no rule names the
token; and rules that the token satisfies ask for nothing that is not told. -/
structure NothingMissing (regExp : RegExpTest) (facts : ℤ → String → CandidateMeta) (rules : List UserIntentRule)
    (s : AutonomousRun) (now : ℤ) (intent : TradeIntent) (executedAt : Option ℤ) : Prop where
  room : ∀ t, executedAt = some t → ∀ r ∈ rules, ∀ value per, r.rule = .max_size_usd value per →
    (∀ u ∈ s.trades, u.counts per (startOfDay t) intent.tokenOut = false) ∨
    ∃ least, (least = intent.notionalUsd ∨ ∃ r' ∈ rules, r'.rule = .max_size_usd least .trade) ∧
      spent per (startOfDay t) intent.tokenOut s.trades + least ≤ value
  unnamed : ∀ t, executedAt = some t → ∀ r ∈ rules, ∀ dsl, r.rule = .block dsl →
    ¬ Names regExp dsl (facts now intent.tokenOut)
  figures : ∀ r ∈ rules, ∀ dsl, r.rule = .require dsl → dsl.Met intent (facts now intent.tokenOut) →
    AsksNoFigures dsl

def NothingLeftOut (regExp : RegExpTest) (facts : ℤ → String → CandidateMeta) (rules : List UserIntentRule)
    (s : AutonomousRun) (e : UserTick) : Prop :=
  ∀ strategy intent, e.proposed strategy = some intent →
    NothingMissing regExp facts rules s e.now intent (e.executedAt strategy)

/-! ## One tick -/

section Tick
variable {regExp : RegExpTest} {rules : List UserIntentRule} {e : UserTick}

theorem spent_append (per : SizePer) (day : ℤ) (token : String) (trades new : List AutonomousTrade) :
    spent per day token (trades ++ new) = spent per day token trades + spent per day token new := by
  unfold spent
  rw [List.filter_append, List.map_append, List.sum_append]

theorem spent_eq_zero {per : SizePer} {day : ℤ} {token : String} {trades : List AutonomousTrade}
    (h : ∀ t ∈ trades, t.counts per day token = false) : spent per day token trades = 0 := by
  unfold spent
  rw [List.filter_eq_nil_iff.mpr fun t ht => by simp [h t ht]]
  rfl

theorem spent_singleton (per : SizePer) (day : ℤ) (token : String) (t : AutonomousTrade) :
    spent per day token [t] = if t.counts per day token then t.input.notionalUsd else 0 := by
  unfold spent
  rw [List.filter_singleton]
  cases t.counts per day token with
  | true => simp
  | false => simp

/-- Trades that count for the same cap as one that does. -/
theorem counts_congr {per : SizePer} {day : ℤ} {token : String} {t : AutonomousTrade}
    (h : t.counts per day token = true) :
    AutonomousTrade.counts per day token = AutonomousTrade.counts per (startOfDay t.executedAt) t.input.tokenOut := by
  funext u
  cases per with
  | trade => cases h
  | day =>
    obtain rfl := of_decide_eq_true h
    rfl
  | token =>
    obtain ⟨hday, htoken⟩ := Bool.and_eq_true_iff.mp h
    obtain rfl := of_decide_eq_true hday
    obtain rfl := of_decide_eq_true htoken
    rfl

theorem used_nothing (per : SizePer) : per.used {} = 0 := by
  cases per with
  | trade => rfl
  | day => rfl
  | token => rfl

theorem takeRoute_swap {cfg : TraderConfig} {now : ℤ} {strategyId : String} {force : Bool} {intent : TradeIntent}
    {input : SwapInput} (h : takeRoute cfg now strategyId force intent = .swap input) :
    input.tokenOut = intent.tokenOut ∧ input.notionalUsd = intent.notionalUsd := by
  unfold takeRoute at h
  split at h
  · cases h
  · split at h
    · cases h
    · obtain rfl := Route.swap.inj h
      exact ⟨rfl, rfl⟩

/-- A swap has passed the enforcer, which was told the intent alone. -/
theorem runStrategy_swap {s : UserStrategy} {input : SwapInput} (hrules : rules ≠ [])
    (h : runStrategy regExp e.cfg e.now s.id (e.enforced rules s) = some (.swap input)) :
    ∃ intent state, e.proposed s = some intent ∧
      enforce regExp (e.answers s).utc { intent } rules = .ok state ∧
      input.tokenOut = state.intent.tokenOut ∧ input.notionalUsd = state.intent.notionalUsd := by
  unfold runStrategy at h
  obtain ⟨reply, hreply, h⟩ := Option.bind_eq_some_iff.mp h
  obtain ⟨proposal, hproposal, h⟩ := Option.bind_eq_some_iff.mp h
  obtain ⟨⟨intent, force⟩, happly, h⟩ := Option.bind_eq_some_iff.mp h
  obtain ⟨-, h⟩ := Option.ite_none_right_eq_some.mp h
  obtain ⟨htoken, hnotional⟩ := takeRoute_swap (Option.some.inj h)
  have hproposed : e.proposed s = some (clampToMax e.cfg proposal) := by
    have hanswer : (e.answers s).reply = some reply := hreply
    unfold UserTick.proposed
    rw [hanswer, Option.bind_some, hproposal, Option.map_some]
  unfold applyRules at happly
  have hsome : (e.enforced rules s).rules.filter (· ≠ []) = some rules := by
    simp [UserTick.enforced, Option.filter, hrules]
  rw [hsome] at happly
  dsimp only at happly
  split at happly
  · rename_i decision hcheck
    obtain ⟨hok, hpair⟩ := Option.ite_none_right_eq_some.mp happly
    obtain ⟨rfl, -⟩ := Prod.mk.inj (Option.some.inj hpair)
    obtain ⟨state, henforce, hleft, -⟩ := check_accepted hcheck hok
    refine ⟨_, state, hproposed, henforce, ?_, ?_⟩
    · rw [← hleft]
      exact htoken
    · rw [← hleft]
      exact hnotional
  · cases happly

theorem pickStrategies_length (candidates : List UserStrategy) : (pickStrategies candidates).length ≤ 1 := by
  unfold pickStrategies
  exact List.length_take_le _ _

/-- A tick executes at most one trade. -/
theorem trades_cases (regExp : RegExpTest) (rules : List UserIntentRule) (e : UserTick) :
    e.trades regExp rules = [] ∨ ∃ s input t, e.executedAt s = some t ∧
      runStrategy regExp e.cfg e.now s.id (e.enforced rules s) = some (.swap input) ∧
      e.trades regExp rules = [⟨e.now, t, input⟩] := by
  have hlength : (e.trades regExp rules).length ≤ 1 := by
    unfold UserTick.trades runForUser
    refine le_trans (List.length_filterMap_le _ _) ?_
    split
    · exact Nat.zero_le 1
    · exact le_trans (List.length_filterMap_le _ _) (pickStrategies_length e.candidates)
  cases htrades : e.trades regExp rules with
  | nil => exact .inl rfl
  | cons trade rest =>
    rw [htrades, List.length_cons] at hlength
    obtain rfl : rest = [] := List.length_eq_zero_iff.mp (by omega)
    have hmem : trade ∈ e.trades regExp rules := by
      rw [htrades]
      exact List.mem_cons_self
    obtain ⟨⟨s, route⟩, hroute, hexecuted⟩ := List.mem_filterMap.mp hmem
    cases route with
    | swap input =>
      obtain ⟨t, ht, rfl⟩ := Option.map_eq_some_iff.mp hexecuted
      exact .inr ⟨s, input, t, ht, mem_runForUser hroute, rfl⟩
    | suggestion intent => cases hexecuted
    | approval request => cases hexecuted

end Tick

/-! ## All ticks -/

section Run
variable {regExp : RegExpTest} {facts : ℤ → String → CandidateMeta} {rules : List UserIntentRule} {s s' : AutonomousRun}
  {e : UserTick}

/-- The caps of the rules are not negative. -/
theorem RulesHonoured.initial (hcaps : ∀ r ∈ rules, ∀ value per, r.rule = .max_size_usd value per → 0 ≤ value) :
    RulesHonoured regExp facts rules {} where
  caps r hr value per hrule _ _ := hcaps r hr value per hrule
  blocks t ht := by cases ht
  requires b hb := by cases hb

/-- A trade that there is room for keeps the caps. -/
theorem caps_trade {strategy : UserStrategy} {input : SwapInput} {t : ℤ} {r : UserIntentRule} {value : ℚ} {per : SizePer}
    (hcaps : ∀ day token, spent per day token s.trades ≤ value) (hr : r ∈ rules) (hrule : r.rule = .max_size_usd value per)
    (hguard : NothingLeftOut regExp facts rules s e) (hexecuted : e.executedAt strategy = some t)
    (hroute : runStrategy regExp e.cfg e.now strategy.id (e.enforced rules strategy) = some (.swap input))
    (day : ℤ) (token : String) : spent per day token (s.trades ++ [⟨e.now, t, input⟩]) ≤ value := by
  obtain ⟨intent, state, hproposed, henforce, htoken, hnotional⟩ := runStrategy_swap (List.ne_nil_of_mem hr) hroute
  have hsized := enforce_sizedDown henforce
  have hsame : input.tokenOut = intent.tokenOut := htoken.trans (by rw [hsized.same])
  have hsatisfied := enforce_satisfied henforce
  rw [spent_append, spent_singleton]
  split
  · rename_i hcounts
    have hfits := hsatisfied r hr
    rw [hrule] at hfits
    change per.used {} + state.intent.notionalUsd ≤ value at hfits
    rw [used_nothing, zero_add] at hfits
    have hspent : spent per day token s.trades = spent per (startOfDay t) intent.tokenOut s.trades := by
      unfold spent
      rw [counts_congr hcounts, hsame]
    rw [hspent, hnotional]
    obtain hnone | ⟨least, hleast, hroom⟩ := (hguard strategy intent hproposed).room t hexecuted r hr value per hrule
    · rw [spent_eq_zero hnone, zero_add]
      exact hfits
    · have hle : state.intent.notionalUsd ≤ least := by
        obtain rfl | ⟨r', hr', hrule'⟩ := hleast
        · exact hsized.le
        · have hcap := hsatisfied r' hr'
          rw [hrule'] at hcap
          exact (zero_add _).symm.trans_le hcap
      linarith
  · rw [add_zero]
    exact hcaps day token

theorem met_of_asksNoFigures {dsl : RequireRule} {intent : TradeIntent} {info : CandidateMeta} (h : dsl.Met intent info)
    (hfigures : AsksNoFigures dsl) : dsl.Met intent {} where
  chain := h.chain
  mcap := hfigures.mcap
  liquidity := hfigures.liquidity
  holders := hfigures.holders
  audit haudit := by rw [hfigures.audit] at haudit; cases haudit

/-- A rule that the intent meets without any figures is not the one that refuses it. -/
theorem not_refused_by {utc : UtcTime} {intent : TradeIntent} {decision : EnforcerDecision} {r : UserIntentRule}
    {dsl : RequireRule} (hids : (rules.map (·.id)).Nodup) (hr : r ∈ rules) (hrule : r.rule = .require dsl)
    (hmet : dsl.Met intent {}) (hcheck : check regExp utc { intent } rules = .ok decision)
    (hok : decision.ok = false) : decision.appliedRuleIds.getLast? ≠ some r.id := by
  intro hlast
  obtain ⟨r', hr', hlast', hrefuses⟩ := check_refused hcheck hok
  obtain rfl : r' = r := List.inj_on_of_nodup_map hids hr' hr (Option.some.inj (hlast'.symm.trans hlast))
  obtain ⟨dsl', hrule', -⟩ | (⟨dsl', hrule', hnot⟩ | ⟨dsl', hrule', -⟩) | ⟨value, per, hrule', -⟩ := hrefuses
  · cases hrule.symm.trans hrule'
  · obtain rfl := IntentRuleDsl.require.inj (hrule.symm.trans hrule')
    exact hnot hmet
  · cases hrule.symm.trans hrule'
  · cases hrule.symm.trans hrule'

/-- What a tick reports as blocked. -/
theorem mem_blocked {b : RuleBlocked} (h : b ∈ e.blocked regExp rules) : ∃ strategy decision,
    e.proposed strategy = some b.intent ∧ b.blockedAt = e.now ∧ b.ruleIds = decision.appliedRuleIds ∧
      decision.ok = false ∧ check regExp (e.answers strategy).utc { intent := b.intent } rules = .ok decision := by
  unfold UserTick.blocked at h
  split at h
  · cases h
  · obtain ⟨strategy, -, hblocked⟩ := List.mem_filterMap.mp h
    obtain ⟨intent, hproposed, hblocked⟩ := Option.bind_eq_some_iff.mp hblocked
    split at hblocked
    · cases hblocked
    · split at hblocked
      · rename_i decision hcheck
        obtain ⟨hok, hb⟩ := Option.ite_none_left_eq_some.mp hblocked
        obtain rfl := Option.some.inj hb
        exact ⟨strategy, decision, hproposed, rfl, rfl, Bool.eq_false_iff.mpr hok, hcheck⟩
      · cases hblocked

theorem step_tick {userId : String} (h : e.cfg.userId = userId) :
    (autonomousTicks regExp rules userId).step s e = some (s.tick regExp rules e) := by
  change (if e.cfg.userId = userId then _ else none) = _
  exact if_pos h

theorem RulesHonoured.step (hids : (rules.map (·.id)).Nodup) (h : RulesHonoured regExp facts rules s)
    (hguard : NothingLeftOut regExp facts rules s e) {userId : String}
    (hstep : (autonomousTicks regExp rules userId).step s e = some s') : RulesHonoured regExp facts rules s' := by
  obtain ⟨-, hs⟩ := Option.ite_none_right_eq_some.mp hstep
  obtain rfl := Option.some.inj hs
  unfold AutonomousRun.tick
  refine ⟨fun r hr value per hrule day token => ?_, fun u hu r hr dsl hrule => ?_, fun b hb r hr dsl hrule hmet => ?_⟩
  · obtain hnone | ⟨strategy, input, t, hexecuted, hroute, hone⟩ := trades_cases regExp rules e
    · simp only [hnone, List.append_nil]
      exact h.caps r hr value per hrule day token
    · simp only [hone]
      exact caps_trade (h.caps r hr value per hrule) hr hrule hguard hexecuted hroute day token
  · obtain hold | hnew := List.mem_append.mp hu
    · exact h.blocks u hold r hr dsl hrule
    · obtain hnone | ⟨strategy, input, t, hexecuted, hroute, hone⟩ := trades_cases regExp rules e
      · rw [hnone] at hnew
        cases hnew
      · rw [hone, List.mem_singleton] at hnew
        obtain rfl := hnew
        obtain ⟨intent, state, hproposed, henforce, htoken, -⟩ := runStrategy_swap (List.ne_nil_of_mem hr) hroute
        rw [htoken, (enforce_sizedDown henforce).same]
        exact (hguard strategy intent hproposed).unnamed t hexecuted r hr dsl hrule
  · obtain hold | hnew := List.mem_append.mp hb
    · exact h.requires b hold r hr dsl hrule hmet
    · obtain ⟨strategy, decision, hproposed, hat, hruleIds, hok, hcheck⟩ := mem_blocked hnew
      rw [hat] at hmet
      have hfigures := (hguard strategy b.intent hproposed).figures r hr dsl hrule hmet
      rw [hruleIds]
      exact not_refused_by hids hr hrule (met_of_asksNoFigures hmet hfigures) hcheck hok

end Run

/-! ## The rules of a user -/

/-- What `getActive` gives the trader. -/
def enforcedRules (table : RuleTable) (userId : String) : List UserIntentRule :=
  (table.activeRules userId).map (·.toUserIntentRule)

/-- Each write of a rule validates it. -/
def Validated (table : RuleTable) : Prop :=
  ∀ row ∈ table.rows, ∃ raw, validateIntentRuleDsl raw = .ok row.rule

theorem mem_enforcedRules {table : RuleTable} {userId : String} {r : UserIntentRule}
    (h : r ∈ enforcedRules table userId) : ∃ row ∈ table.rows, row.toUserIntentRule = r := by
  obtain ⟨row, hrow, rfl⟩ := List.mem_map.mp h
  exact ⟨row, (List.mem_filter.mp ((List.mem_insertionSort _).mp hrow)).1, rfl⟩

theorem enforcedRules_nodup (table : RuleTable) (userId : String) :
    ((enforcedRules table userId).map (·.id)).Nodup := by
  unfold enforcedRules RuleTable.activeRules
  rw [List.map_map]
  have hperm := (List.perm_insertionSort RuleTable.precedes
    (table.rows.filter fun r => r.userId = userId ∧ r.status = .ACTIVE)).map (fun row : StoredRule => row.id)
  exact hperm.nodup_iff.mpr ((List.filter_sublist.map _).nodup table.nodup)

/-- **Standing rules.** In every run of ticks in which what the enforcer is not told makes no difference, the
active rules are honoured. -/
theorem rules_honoured {regExp : RegExpTest} {facts : ℤ → String → CandidateMeta} {table : RuleTable} {userId : String}
    {es : List UserTick} {s : AutonomousRun} (hvalid : Validated table)
    (hrun : (autonomousTicks regExp (enforcedRules table userId) userId).GuardedRun
      (NothingLeftOut regExp facts (enforcedRules table userId)) {} es s) :
    RulesHonoured regExp facts (enforcedRules table userId) s := by
  have hcaps : ∀ r ∈ enforcedRules table userId, ∀ value per, r.rule = .max_size_usd value per → 0 ≤ value := by
    intro r hr value per hrule
    obtain ⟨row, hrow, rfl⟩ := mem_enforcedRules hr
    obtain ⟨raw, hraw⟩ := hvalid row hrow
    rw [hrule] at hraw
    exact le_of_lt (validate_max_size hraw)
  exact hrun.invariant (fun _ _ _ h hguard hstep => h.step (enforcedRules_nodup table userId) hguard hstep)
    (.initial hcaps)

/-! ## Two trades in a day -/

def sampleSizing (id : String) (value : ℚ) (per : SizePer) : StoredRule where
  id
  text := "a cap"
  rule := .max_size_usd value per
  userId := "u1"
  source := .MANUAL
  scope := .SIZING
  createdAt := 0

/-- A tick at `now` that proposes 500 dollars, of which the configuration leaves 80. -/
def sampleTick (now : ℤ) : UserTick where
  now
  cfg := { sampleTrader with maxTradeUsd := 80 }
  candidates := [sampleStrategy]
  answers _ := sampleTurn "500000000"
  executedAt _ := some now

def sampleDailyTable : RuleTable where
  rows := [sampleSizing "r1" 100 .day]
  nodup := List.nodup_singleton _

theorem sampleDailyTable_validated : Validated sampleDailyTable := by
  intro row hrow
  obtain rfl := List.mem_singleton.mp hrow
  exact ⟨.obj [("kind", .str "max_size_usd"), ("value", .num (.ofInt 100)), ("per", .str "day")], by decide +kernel⟩

def sampleCappedTable : RuleTable where
  rows := [sampleSizing "r1" 100 .day, sampleSizing "r2" 40 .trade]
  nodup := by decide

theorem sampleCappedTable_validated : Validated sampleCappedTable := by
  intro row hrow
  obtain rfl | hrow := List.mem_cons.mp hrow
  · exact ⟨.obj [("kind", .str "max_size_usd"), ("value", .num (.ofInt 100)), ("per", .str "day")], by decide +kernel⟩
  · obtain rfl := List.mem_singleton.mp hrow
    exact ⟨.obj [("kind", .str "max_size_usd"), ("value", .num (.ofInt 40))], by decide +kernel⟩

theorem sampleCappedTable_rules : enforcedRules sampleCappedTable "u1" =
    [⟨"r1", "a cap", .max_size_usd 100 .day⟩, ⟨"r2", "a cap", .max_size_usd 40 .trade⟩] := by decide +kernel

def sampleIntent : TradeIntent := { sampleProposal "500000000" with notionalUsd := 80 }

theorem sampleTick_proposed (now : ℤ) (strategy : UserStrategy) :
    (sampleTick now).proposed strategy = some sampleIntent := by
  have hclosed : ((sampleTurn "500000000").reply.bind proposeIntent).map
      (clampToMax { sampleTrader with maxTradeUsd := 80 }) = some sampleIntent := by decide +kernel
  exact hclosed

/-- Behind the cap of 40 for one trade, 60 dollars of the day's 100 can have been spent. -/
theorem sampleTick_leavesNothingOut {s : AutonomousRun} {now : ℤ}
    (h : spent .day (startOfDay now) sampleIntent.tokenOut s.trades ≤ 60) :
    NothingLeftOut (fun _ _ => .ok false) (fun _ _ => {}) (enforcedRules sampleCappedTable "u1") s (sampleTick now) := by
  intro strategy intent hproposed
  obtain rfl := Option.some.inj ((sampleTick_proposed now strategy).symm.trans hproposed)
  rw [sampleCappedTable_rules]
  refine ⟨fun t ht r hr value per hrule => ?_, fun t ht r hr dsl hrule => ?_, fun r hr dsl hrule => ?_⟩
  · obtain rfl := Option.some.inj ht
    obtain rfl | hr := List.mem_cons.mp hr
    · obtain ⟨rfl, rfl⟩ := IntentRuleDsl.max_size_usd.inj hrule
      refine .inr ⟨40, .inr ⟨⟨"r2", "a cap", .max_size_usd 40 .trade⟩, by simp, rfl⟩, ?_⟩
      linarith
    · obtain rfl := List.mem_singleton.mp hr
      obtain ⟨rfl, rfl⟩ := IntentRuleDsl.max_size_usd.inj hrule
      exact .inl fun _ _ => rfl
  · obtain rfl | hr := List.mem_cons.mp hr
    · cases hrule
    · obtain rfl := List.mem_singleton.mp hr
      cases hrule
  · obtain rfl | hr := List.mem_cons.mp hr
    · cases hrule
    · obtain rfl := List.mem_singleton.mp hr
      cases hrule

def sampleAfter : AutonomousRun :=
  AutonomousRun.tick (fun _ _ => .ok false) (enforcedRules sampleCappedTable "u1") {} (sampleTick 1000)

theorem capped_ticks_honoured : ∃ s, (autonomousTicks (fun _ _ => .ok false) (enforcedRules sampleCappedTable "u1")
    "u1").run {} [sampleTick 1000, sampleTick 2000] = some s ∧ s.trades.length = 2 ∧
      RulesHonoured (fun _ _ => .ok false) (fun _ _ => {}) (enforcedRules sampleCappedTable "u1") s := by
  have hfirst : spent .day (startOfDay 1000) sampleIntent.tokenOut ({} : AutonomousRun).trades ≤ 60 := by decide +kernel
  have hsecond : spent .day (startOfDay 2000) sampleIntent.tokenOut sampleAfter.trades ≤ 60 := by decide +kernel
  have hlength : (sampleAfter.tick (fun _ _ => .ok false) (enforcedRules sampleCappedTable "u1")
      (sampleTick 2000)).trades.length = 2 := by decide +kernel
  have hrun := StepSystem.GuardedRun.cons (sampleTick_leavesNothingOut hfirst) (step_tick rfl)
    (.cons (sampleTick_leavesNothingOut hsecond) (step_tick rfl) (.nil _))
  exact ⟨_, hrun.run, hlength, rules_honoured sampleCappedTable_validated hrun⟩

/-- Two trades of 80 dollars on one day, against a cap of 100 for the day. -/
theorem daily_cap_exceeded : ¬ ∀ (regExp : RegExpTest) (facts : ℤ → String → CandidateMeta) (table : RuleTable)
    (userId : String) (es : List UserTick) (s : AutonomousRun), Validated table →
      (autonomousTicks regExp (enforcedRules table userId) userId).run {} es = some s →
        RulesHonoured regExp facts (enforcedRules table userId) s := by
  intro h
  have hmap : ((autonomousTicks (fun _ _ => .ok false) (enforcedRules sampleDailyTable "u1") "u1").run {}
      [sampleTick 1000, sampleTick 2000]).map (fun s => spent .day 0 "" s.trades) = some 160 := by decide +kernel
  obtain ⟨s, hrun, hspent⟩ := Option.map_eq_some_iff.mp hmap
  have hhonoured := h _ (fun _ _ => {}) sampleDailyTable "u1" _ s sampleDailyTable_validated hrun
  have hcap := hhonoured.caps ⟨"r1", "a cap", .max_size_usd 100 .day⟩ (by decide +kernel) 100 .day rfl 0 ""
  rw [hspent] at hcap
  norm_num at hcap

end SuperAi.Agents
