import SuperAi.Foundations.SingleUse
import SuperAi.Foundations.StepSystem
import SuperAi.Intent.IntentRuleService

/-! # The cache of the active rules

Interleaved calls of `IntentRuleService` for one user. `getActive` looks at the cache, queries the table if
it finds nothing there, and stores what it has read when the answer is there; a change reads, writes, and
drops the cached rules. A reading that began before a change and is stored after it brings back the old
rules (`retired_rule_comes_back`); if no change drops the cached rules while an older reading is still to
be stored, no call returns rules that are older than a change that had returned (`fresh_rules`).
-/
namespace SuperAi.Intent
open SuperAi.Foundations
set_option autoImplicit false

/-! ## Calls -/

/-- What a call does next. `since` is the number of the newest change that had returned when `getActive` was
called; a version is the number of writes before it. -/
inductive RuleCall
  | query (scope : Option IntentScope) (since : ℕ)
  | store (scope : Option IntentScope) (since : ℕ) (rules : List StoredRule) (version : ℕ)
  | returned (scope : Option IntentScope) (since : ℕ) (rules : List StoredRule)
  | prepare (change : RuleChange)
  | write (write : RuleWrite)
  | invalidate (version : ℕ)
  | changed (version : ℕ)
  | failed

structure RuleDesk where
  service : IntentRuleService
  past : List RuleTable := []
  calls : List RuleCall := []

/-- The table at each version, the present one last. -/
def RuleDesk.tables (s : RuleDesk) : List RuleTable := s.past ++ [s.service.table]

def RuleCall.changedTo : RuleCall → Option ℕ
  | .changed version => some version
  | _ => none

/-- The newest version that a change has returned with. -/
def settled (calls : List RuleCall) : ℕ := (calls.filterMap RuleCall.changedTo).foldr max 0

inductive RuleStep
  | getActive (scope : Option IntentScope) (now : ℤ)
  | change (change : RuleChange)
  | advance (i : ℕ) (now : ℤ)

section
variable (userId : String)

def RuleDesk.start (s : RuleDesk) (scope : Option IntentScope) (now : ℤ) : RuleCall :=
  match s.service.cached userId now with
  | some rules => .returned scope (settled s.calls) (IntentRuleService.inScope scope rules)
  | none => .query scope (settled s.calls)

/-- The next database operation of a call, or what it does when the answer is there. -/
def RuleDesk.advance (s : RuleDesk) (now : ℤ) : RuleCall → Option (IntentRuleService × List RuleTable × RuleCall)
  | .query scope since =>
    some (s.service, s.past, .store scope since (s.service.table.activeRules userId) s.past.length)
  | .store scope since rules _ =>
    some (s.service.store userId rules now, s.past, .returned scope since (IntentRuleService.inScope scope rules))
  | .prepare change =>
    match change.prepare s.service.table userId with
    | .ok write => some (s.service, s.past, .write write)
    | .error _ => some (s.service, s.past, .failed)
  | .write write =>
    match write.apply s.service.table with
    | .ok (_, table) => some ({ s.service with table }, s.tables, .invalidate s.tables.length)
    | .error _ => some (s.service, s.past, .failed)
  | .invalidate version => some (s.service.invalidate userId, s.past, .changed version)
  | .returned _ _ _ => none
  | .changed _ => none
  | .failed => none

def RuleDesk.step (s : RuleDesk) : RuleStep → Option RuleDesk
  | .getActive scope now => some { s with calls := s.calls ++ [s.start userId scope now] }
  | .change change => some { s with calls := s.calls ++ [.prepare change] }
  | .advance i now =>
    (s.calls[i]?).bind fun call =>
      (s.advance userId now call).map fun (service, past, next) => { service, past, calls := s.calls.set i next }

def ruleDesk : StepSystem RuleDesk RuleStep := ⟨RuleDesk.step userId⟩

/-- What has been returned was in the table at a version not older than the changes that had returned before
the call. -/
def RuleDesk.Fresh (s : RuleDesk) : Prop :=
  ∀ scope since rules, RuleCall.returned scope since rules ∈ s.calls → ∃ version t, since ≤ version ∧
    s.tables[version]? = some t ∧ rules = IntentRuleService.inScope scope (t.activeRules userId)

end

/-- A reading of an older version that is still to be stored. -/
def RuleCall.readsBefore (version : ℕ) : RuleCall → Bool
  | .store _ _ _ read => read < version
  | _ => false

/-- A change drops the cached rules when no older reading is still to be stored. -/
def NoOldReading (s : RuleDesk) : RuleStep → Prop
  | .advance i _ =>
    match s.calls[i]? with
    | some (.invalidate version) => ∀ call ∈ s.calls, call.readsBefore version = false
    | _ => True
  | _ => True

instance (s : RuleDesk) (e : RuleStep) : Decidable (NoOldReading s e) := by
  unfold NoOldReading
  cases e with
  | advance i now =>
    dsimp only
    split
    · infer_instance
    · infer_instance
  | _ => exact isTrue trivial

/-! ## The newest change that has returned -/

theorem settled_le_iff {calls : List RuleCall} {k : ℕ} :
    settled calls ≤ k ↔ ∀ version, RuleCall.changed version ∈ calls → version ≤ k := by
  unfold settled
  induction calls with
  | nil => simp
  | cons call calls ih =>
    cases call with
    | changed version =>
      simp only [List.filterMap_cons, RuleCall.changedTo, List.foldr_cons, max_le_iff, ih, List.mem_cons,
        RuleCall.changed.injEq]
      constructor
      · rintro ⟨hle, hrest⟩ v (rfl | hv)
        · exact hle
        · exact hrest v hv
      · intro h
        exact ⟨h version (.inl rfl), fun v hv => h v (.inr hv)⟩
    | _ => simp [List.filterMap_cons, RuleCall.changedTo, ih]

theorem settled_append {calls : List RuleCall} {call : RuleCall} (h : call.changedTo = none) :
    settled (calls ++ [call]) = settled calls := by
  unfold settled
  rw [List.filterMap_append, List.filterMap_cons, h]
  simp

theorem settled_set {calls : List RuleCall} {i : ℕ} {call next : RuleCall} (hcall : calls[i]? = some call)
    (hold : call.changedTo = none) (hnew : next.changedTo = none) : settled (calls.set i next) = settled calls := by
  apply le_antisymm
  · apply settled_le_iff.mpr
    intro version hmem
    obtain hmem | rfl := List.mem_or_eq_of_mem_set hmem
    · exact settled_le_iff.mp (le_refl _) version hmem
    · cases hnew
  · apply settled_le_iff.mpr
    intro version hmem
    obtain rfl | hmem := eq_or_mem_set hcall hmem next
    · cases hold
    · exact settled_le_iff.mp (le_refl _) version hmem

theorem settled_set_changed (calls : List RuleCall) (i : ℕ) (version : ℕ) :
    settled (calls.set i (.changed version)) ≤ max (settled calls) version := by
  apply settled_le_iff.mpr
  intro v hmem
  obtain hmem | heq := List.mem_or_eq_of_mem_set hmem
  · exact le_max_of_le_left (settled_le_iff.mp (le_refl _) v hmem)
  · obtain rfl := RuleCall.changed.inj heq
    exact le_max_right _ _

/-! ## Fresh rules -/

section Fresh
variable {userId : String}

/-- `k` is the newest change that has returned. -/
def CallFresh (userId : String) (k : ℕ) (tables : List RuleTable) : RuleCall → Prop
  | .query _ since => since ≤ k
  | .store _ since rules version =>
    since ≤ k ∧ k ≤ version ∧ ∃ t, tables[version]? = some t ∧ rules = t.activeRules userId
  | .returned scope since rules => ∃ version t, since ≤ version ∧ tables[version]? = some t ∧
      rules = IntentRuleService.inScope scope (t.activeRules userId)
  | .invalidate version => version < tables.length
  | _ => True

theorem CallFresh.write {k : ℕ} {tables : List RuleTable} {call : RuleCall} (h : CallFresh userId k tables call)
    (new : List RuleTable) : CallFresh userId k (tables ++ new) call := by
  have hkept : ∀ {version : ℕ} {t : RuleTable}, tables[version]? = some t → (tables ++ new)[version]? = some t := by
    intro version t ht
    rw [List.getElem?_append_left (List.getElem?_eq_some_iff.mp ht).1, ht]
  cases call with
  | store scope since rules version =>
    obtain ⟨hsince, hle, t, ht, hrules⟩ := h
    exact ⟨hsince, hle, t, hkept ht, hrules⟩
  | returned scope since rules =>
    obtain ⟨version, t, hsince, ht, hrules⟩ := h
    exact ⟨version, t, hsince, hkept ht, hrules⟩
  | invalidate version =>
    have hlt : version < tables.length := h
    change version < (tables ++ new).length
    rw [List.length_append]
    omega
  | _ => exact h

/-- A change returns when no older reading is still to be stored. -/
theorem CallFresh.settle {k k' version : ℕ} {tables : List RuleTable} {call : RuleCall}
    (h : CallFresh userId k tables call) (hle : k ≤ k') (hle' : k' ≤ max k version)
    (hread : call.readsBefore version = false) : CallFresh userId k' tables call := by
  cases call with
  | query scope since => exact le_trans h hle
  | store scope since rules read =>
    obtain ⟨hsince, hk, hrules⟩ := h
    have hversion : version ≤ read := not_lt.mp (of_decide_eq_false hread)
    exact ⟨le_trans hsince hle, le_trans hle' (max_le hk hversion), hrules⟩
  | _ => exact h

structure FreshDesk (userId : String) (s : RuleDesk) : Prop where
  settled_le : settled s.calls < s.tables.length
  cached : ∀ rules ts, s.service.activeCache.get userId = some (rules, ts) →
    ∃ version t, settled s.calls ≤ version ∧ s.tables[version]? = some t ∧ rules = t.activeRules userId
  calls : ∀ call ∈ s.calls, CallFresh userId (settled s.calls) s.tables call

theorem tables_last (s : RuleDesk) : s.tables[s.past.length]? = some s.service.table :=
  List.getElem?_concat_length

theorem cached_eq_some {service : IntentRuleService} {now : ℤ} {rules : List StoredRule}
    (h : service.cached userId now = some rules) : ∃ ts, service.activeCache.get userId = some (rules, ts) := by
  obtain ⟨⟨cached, ts⟩, hcached, rfl⟩ := Option.map_eq_some_iff.mp h
  exact ⟨ts, (Option.filter_eq_some_iff.mp hcached).1⟩

namespace FreshDesk
variable {s s' : RuleDesk}

theorem of_empty (service : IntentRuleService) (h : service.activeCache = []) : FreshDesk userId { service } where
  settled_le := Nat.zero_lt_one
  cached rules ts hget := by rw [h] at hget; cases hget
  calls call hcall := by cases hcall

theorem start (h : FreshDesk userId s) {call : RuleCall} (hnew : call.changedTo = none)
    (hcall : CallFresh userId (settled s.calls) s.tables call) :
    FreshDesk userId { s with calls := s.calls ++ [call] } where
  settled_le := by
    change settled (s.calls ++ [call]) < s.tables.length
    rw [settled_append hnew]
    exact h.settled_le
  cached := by
    change ∀ rules ts, _ → ∃ version t, settled (s.calls ++ [call]) ≤ version ∧ s.tables[version]? = some t ∧ _
    rw [settled_append hnew]
    exact h.cached
  calls := by
    change ∀ c ∈ s.calls ++ [call], CallFresh userId (settled (s.calls ++ [call])) s.tables c
    rw [settled_append hnew]
    intro c hc
    obtain hc | hc := List.mem_append.mp hc
    · exact h.calls c hc
    · rw [List.mem_singleton.mp hc]
      exact hcall

theorem getActive (h : FreshDesk userId s) (scope : Option IntentScope) (now : ℤ) :
    FreshDesk userId { s with calls := s.calls ++ [s.start userId scope now] } := by
  unfold RuleDesk.start
  split
  · rename_i rules hcached
    obtain ⟨ts, hget⟩ := cached_eq_some hcached
    obtain ⟨version, t, hle, ht, hrules⟩ := h.cached rules ts hget
    exact h.start rfl ⟨version, t, hle, ht, by rw [hrules]⟩
  · exact h.start rfl (le_refl (settled s.calls))

/-- A call goes on, and the changes that have returned are the same. -/
theorem move (h : FreshDesk userId s) {i : ℕ} {call next : RuleCall} {service : IntentRuleService}
    {past : List RuleTable} (new : List RuleTable) (hcall : s.calls[i]? = some call)
    (hold : call.changedTo = none) (hnew : next.changedTo = none)
    (htables : past ++ [service.table] = s.tables ++ new)
    (hcached : ∀ rules ts, service.activeCache.get userId = some (rules, ts) → ∃ version t,
      settled s.calls ≤ version ∧ (s.tables ++ new)[version]? = some t ∧ rules = t.activeRules userId)
    (hnext : CallFresh userId (settled s.calls) (s.tables ++ new) next) :
    FreshDesk userId { service, past, calls := s.calls.set i next } := by
  have hsettled := settled_set hcall hold hnew
  refine ⟨?_, ?_, ?_⟩
  · change settled (s.calls.set i next) < (past ++ [service.table]).length
    rw [hsettled, htables, List.length_append]
    have hlt := h.settled_le
    omega
  · change ∀ rules ts, _ → ∃ version t, settled (s.calls.set i next) ≤ version ∧
      (past ++ [service.table])[version]? = some t ∧ _
    rw [hsettled, htables]
    exact hcached
  · change ∀ c ∈ s.calls.set i next, CallFresh userId (settled (s.calls.set i next)) (past ++ [service.table]) c
    rw [hsettled, htables]
    exact forall_mem_set (fun c hc => (h.calls c hc).write new) hnext i

/-- A call goes on without a write. -/
theorem moveOn (h : FreshDesk userId s) {i : ℕ} {call next : RuleCall} {activeCache : KeyValue String (List StoredRule × ℤ)}
    (hcall : s.calls[i]? = some call) (hold : call.changedTo = none) (hnew : next.changedTo = none)
    (hcached : ∀ rules ts, activeCache.get userId = some (rules, ts) → ∃ version t,
      settled s.calls ≤ version ∧ s.tables[version]? = some t ∧ rules = t.activeRules userId)
    (hnext : CallFresh userId (settled s.calls) s.tables next) :
    FreshDesk userId { service := { s.service with activeCache }, past := s.past, calls := s.calls.set i next } := by
  apply h.move [] hcall hold hnew
  · rw [List.append_nil]
    rfl
  · rw [List.append_nil]
    exact hcached
  · rw [List.append_nil]
    exact hnext

theorem advance (h : FreshDesk userId s) {i : ℕ} {now : ℤ} {call next : RuleCall} {service : IntentRuleService}
    {past : List RuleTable} (hcall : s.calls[i]? = some call)
    (hguard : ∀ version, call = .invalidate version → ∀ c ∈ s.calls, c.readsBefore version = false)
    (hstep : s.advance userId now call = some (service, past, next)) :
    FreshDesk userId { service, past, calls := s.calls.set i next } := by
  have hfresh := h.calls call (List.mem_of_getElem? hcall)
  cases call with
  | query scope since =>
    obtain ⟨rfl, rfl, rfl⟩ : s.service = service ∧ s.past = past ∧ _ = next := by
      simpa [RuleDesk.advance] using hstep
    refine h.moveOn hcall rfl rfl h.cached ⟨hfresh, ?_, _, tables_last s, rfl⟩
    have hlt := h.settled_le
    rw [RuleDesk.tables, List.length_append, List.length_singleton] at hlt
    omega
  | store scope since rules version =>
    obtain ⟨rfl, rfl, rfl⟩ : _ = service ∧ s.past = past ∧ _ = next := by simpa [RuleDesk.advance] using hstep
    obtain ⟨hsince, hle, t, ht, hrules⟩ := hfresh
    refine h.moveOn hcall rfl rfl ?_ ⟨version, t, le_trans hsince hle, ht, by rw [hrules]⟩
    intro stored ts hget
    rw [KeyValue.get_set_self] at hget
    obtain ⟨rfl, -⟩ := Prod.mk.inj (Option.some.inj hget)
    exact ⟨version, t, hle, ht, hrules⟩
  | prepare change =>
    unfold RuleDesk.advance at hstep
    dsimp only at hstep
    split at hstep
    · obtain ⟨rfl, rfl, rfl⟩ : s.service = service ∧ s.past = past ∧ _ = next := by simpa using hstep
      exact h.moveOn hcall rfl rfl h.cached trivial
    · obtain ⟨rfl, rfl, rfl⟩ : s.service = service ∧ s.past = past ∧ _ = next := by simpa using hstep
      exact h.moveOn hcall rfl rfl h.cached trivial
  | write write =>
    unfold RuleDesk.advance at hstep
    dsimp only at hstep
    split at hstep
    · rename_i row table hwrite
      obtain ⟨rfl, rfl, rfl⟩ : _ = service ∧ s.tables = past ∧ _ = next := by simpa using hstep
      apply h.move [table] hcall rfl rfl rfl
      · intro rules ts hget
        obtain ⟨version, t, hle, ht, hrules⟩ := h.cached rules ts hget
        refine ⟨version, t, hle, ?_, hrules⟩
        rw [List.getElem?_append_left (List.getElem?_eq_some_iff.mp ht).1, ht]
      · change s.tables.length < (s.tables ++ [table]).length
        rw [List.length_append, List.length_singleton]
        omega
    · obtain ⟨rfl, rfl, rfl⟩ : s.service = service ∧ s.past = past ∧ _ = next := by simpa using hstep
      exact h.moveOn hcall rfl rfl h.cached trivial
  | invalidate version =>
    obtain ⟨rfl, rfl, rfl⟩ : _ = service ∧ s.past = past ∧ _ = next := by simpa [RuleDesk.advance] using hstep
    have hle : settled s.calls ≤ settled (s.calls.set i (.changed version)) := by
      apply settled_le_iff.mpr
      intro v hmem
      obtain heq | hmem := eq_or_mem_set hcall hmem (.changed version)
      · cases heq
      · exact settled_le_iff.mp (le_refl _) v hmem
    have hle' := settled_set_changed s.calls i version
    refine ⟨?_, ?_, ?_⟩
    · exact lt_of_le_of_lt hle' (max_lt h.settled_le hfresh)
    · intro rules ts hget
      have hnone : (s.service.activeCache.del userId).get userId = none := KeyValue.get_del_self _ _
      cases hnone.symm.trans hget
    · intro c hc
      obtain hc | rfl := List.mem_or_eq_of_mem_set hc
      · exact (h.calls c hc).settle hle hle' (hguard version rfl c hc)
      · trivial
  | returned scope since rules => cases hstep
  | changed version => cases hstep
  | failed => cases hstep

theorem step (h : FreshDesk userId s) {e : RuleStep} (hguard : NoOldReading s e)
    (hstep : (ruleDesk userId).step s e = some s') : FreshDesk userId s' := by
  cases e with
  | getActive scope now =>
    obtain rfl := Option.some.inj hstep
    exact h.getActive scope now
  | change change =>
    obtain rfl := Option.some.inj hstep
    exact h.start rfl trivial
  | advance i now =>
    obtain ⟨call, hcall, hnext⟩ := Option.bind_eq_some_iff.mp hstep
    obtain ⟨⟨service, past, next⟩, hadvance, rfl⟩ := Option.map_eq_some_iff.mp hnext
    refine h.advance hcall ?_ hadvance
    rintro version rfl
    unfold NoOldReading at hguard
    dsimp only at hguard
    rw [hcall] at hguard
    exact hguard

theorem fresh (h : FreshDesk userId s) : s.Fresh userId :=
  fun _ _ _ hmem => h.calls _ hmem

end FreshDesk

/-- **No stale rules.** In a run in which no change drops the cached rules while an older reading is still to
be stored, every call returns rules at least as new as the changes that had returned before it. -/
theorem fresh_rules {service : IntentRuleService} (hempty : service.activeCache = []) {es : List RuleStep}
    {s : RuleDesk} (hrun : (ruleDesk userId).GuardedRun NoOldReading { service } es s) : s.Fresh userId :=
  (hrun.invariant (I := FreshDesk userId) (fun _ _ _ h hguard hstep => h.step hguard hstep)
    (.of_empty service hempty)).fresh

end Fresh

/-! ## A retired rule -/

def sampleRule : StoredRule where
  id := "r1"
  text := "at most $50 a trade"
  rule := .max_size_usd 50 .trade
  userId := "u1"
  source := .MANUAL
  scope := .SIZING
  createdAt := 0

def sampleRuleService : IntentRuleService where
  table := { rows := [sampleRule], nodup := List.nodup_singleton _ }

/-- The rule is read, retired, and read again. -/
def oneAfterAnother : List RuleStep :=
  [.getActive none 0, .advance 0 1, .advance 0 2, .change (.updateStatus "r1" .RETIRED none), .advance 1 3,
    .advance 1 4, .advance 1 5, .getActive none 6, .advance 2 7, .advance 2 8]

theorem oneAfterAnother_fresh : ∃ s, (ruleDesk "u1").run { service := sampleRuleService } oneAfterAnother = some s ∧
    s.Fresh "u1" := by
  have hsome : ((ruleDesk "u1").guardedRun NoOldReading { service := sampleRuleService } oneAfterAnother).isSome = true := by
    decide +kernel
  obtain ⟨s, hs⟩ := Option.isSome_iff_exists.mp hsome
  have hrun := StepSystem.GuardedRun.of_guardedRun hs
  exact ⟨s, hrun.run, fresh_rules rfl hrun⟩

/-- The first reading is stored after the rule has been retired. -/
def readingOverlapsChange : List RuleStep :=
  [.getActive none 0, .advance 0 1, .change (.updateStatus "r1" .RETIRED none), .advance 1 2, .advance 1 3,
    .advance 1 4, .advance 0 5, .getActive none 6]

def RuleCall.answer : RuleCall → Option (ℕ × List StoredRule)
  | .returned _ since rules => some (since, rules)
  | _ => none

/-- After the change the rule is retired, and the next call returns it from the cache. -/
theorem retired_rule_comes_back : ¬ ∀ (userId : String) (service : IntentRuleService) (es : List RuleStep) (s : RuleDesk),
    service.activeCache = [] → (ruleDesk userId).run { service } es = some s → s.Fresh userId := by
  intro h
  have hmap : ((ruleDesk "u1").run { service := sampleRuleService } readingOverlapsChange).map
      (fun s => (s.calls.map RuleCall.answer, s.tables.map (·.activeRules "u1"))) =
      some ([some (0, [sampleRule]), none, some (1, [sampleRule])], [[sampleRule], []]) := by decide +kernel
  obtain ⟨s, hrun, hs⟩ := Option.map_eq_some_iff.mp hmap
  obtain ⟨hcalls, htables⟩ := Prod.mk.inj hs
  have hfresh := h "u1" sampleRuleService readingOverlapsChange s rfl hrun
  obtain ⟨call, hcall, hanswer⟩ : ∃ call ∈ s.calls, call.answer = some (1, [sampleRule]) := by
    apply List.mem_map.mp
    rw [hcalls]
    simp
  cases call with
  | returned scope since rules =>
    obtain ⟨rfl, rfl⟩ := Prod.mk.inj (Option.some.inj hanswer)
    obtain ⟨version, t, hsince, ht, hrules⟩ := hfresh scope 1 [sampleRule] hcall
    have hactive : [[sampleRule], []][version]? = some (t.activeRules "u1") := by
      rw [← htables, List.getElem?_map, ht]
      rfl
    have hlast : version = 1 := by
      have hlt : version < [[sampleRule], []].length := (List.getElem?_eq_some_iff.mp hactive).1
      simp only [List.length_cons, List.length_nil] at hlt
      omega
    have hnone : t.activeRules "u1" = [] := by
      rw [hlast] at hactive
      exact (Option.some.inj hactive).symm
    rw [hnone] at hrules
    cases scope with
    | none => cases hrules
    | some scope => cases hrules
  | _ => cases hanswer

end SuperAi.Intent
