import SuperAi.Intent.Soundness
import Mathlib.Order.Bounds.Basic

/-! # The order of the rules

Rules are met in the order of their priority, and of their age where it is the same. What `check` decides
is the same in every order, but for two things: a cap for one trade that is met first may lower the
notional under a cap for a day or a token that refuses it otherwise, and a pattern that is none may be met
before a rule that blocks. `orderFree_iff` says when neither happens.
-/
namespace SuperAi.Intent
open SuperAi.Foundations SuperAi.Approvals
set_option autoImplicit false

/-- What a caller acts on: `ok`, `mustRequireApproval` and the notional that is left; nothing if `check`
throws. -/
def outcome (candidate : EnforcerCandidate) : Except String EnforcerDecision → Option (Bool × Bool × ℚ)
  | .ok decision => some (decision.ok, decision.mustRequireApproval,
      (decision.adjustedIntent.getD candidate.intent).notionalUsd)
  | .error _ => none

/-! ## What a rule does to the candidate -/

section Candidate
variable (regExp : RegExpTest) (now : UtcTime) (candidate : EnforcerCandidate)

/-- The rule has a pattern that is none. -/
def Throws (r : UserIntentRule) : Prop :=
  ∃ dsl error, r.rule = .block dsl ∧ blockMatches regExp dsl candidate.intent candidate.info = .error error

def Hits (r : UserIntentRule) : Prop :=
  ∃ dsl, r.rule = .block dsl ∧ blockMatches regExp dsl candidate.intent candidate.info = .ok true

def Refuses (r : UserIntentRule) : Prop :=
  (∃ dsl, r.rule = .require dsl ∧ ¬ dsl.Met candidate.intent candidate.info) ∨
    ∃ dsl, r.rule = .time_window dsl ∧ ¬ dsl.Open now

/-- A trade of this notional goes beyond the cap for a day or a token. -/
def OverCap (usage : CandidateUsage) (notionalUsd : ℚ) (r : UserIntentRule) : Prop :=
  ∃ value per, r.rule = .max_size_usd value per ∧ per ≠ .trade ∧ value < per.used usage + notionalUsd

/-- In every order the same rules decide. Either patterns throw and nothing hits, or none throws and one
of these holds: a rule hits or refuses; no cap is exceeded by the whole notional; a cap is exceeded
even by what any cap for one trade leaves. -/
def OrderFree (rules : List UserIntentRule) : Prop :=
  ((∃ r ∈ rules, Throws regExp candidate r) ∧ ∀ r ∈ rules, ¬ Hits regExp candidate r) ∨
  (∀ r ∈ rules, ¬ Throws regExp candidate r) ∧
    ((∃ r ∈ rules, Hits regExp candidate r ∨ Refuses now candidate r) ∨
      (∀ r ∈ rules, ¬ OverCap candidate.usage candidate.intent.notionalUsd r) ∨
      ∃ r ∈ rules, OverCap candidate.usage candidate.intent.notionalUsd r ∧
        ∀ r' ∈ rules, ∀ value, r'.rule = .max_size_usd value .trade → OverCap candidate.usage value r)

end Candidate

theorem OverCap.mono {usage : CandidateUsage} {notionalUsd notionalUsd' : ℚ} {r : UserIntentRule}
    (h : OverCap usage notionalUsd r) (hle : notionalUsd ≤ notionalUsd') : OverCap usage notionalUsd' r := by
  obtain ⟨value, per, hrule, hper, hlt⟩ := h
  exact ⟨value, per, hrule, hper, by linarith⟩

/-! ## Passes that stop -/

section Stops
variable {regExp : RegExpTest} {now : UtcTime} {info : CandidateMeta} {usage : CandidateUsage}
  {s s' : EnforcerState} {r : UserIntentRule} {stop : EnforcerStop} {rules : List UserIntentRule}

/-- The rule that refuses is the last that is noted. -/
def EnforcerStop.RefusedBy (stop : EnforcerStop) (r : UserIntentRule) : Prop :=
  ∃ reason applied, stop = .refused reason (applied ++ [r.id])

theorem refuse_eq_error {reason : String} (h : s.refuse r reason = .error stop) : stop.RefusedBy r := by
  obtain rfl := Except.error.inj h
  exact ⟨_, _, rfl⟩

theorem blockPass_error (h : s.blockPass r regExp info = .error stop) : ∃ dsl, r.rule = .block dsl ∧
    ((∃ error, blockMatches regExp dsl s.intent info = .error error ∧ stop = .threw error) ∨
      blockMatches regExp dsl s.intent info = .ok true ∧ stop.RefusedBy r) := by
  unfold EnforcerState.blockPass at h
  split at h
  · rename_i dsl hrule
    refine ⟨dsl, hrule, ?_⟩
    split at h
    · rename_i error hmatch
      obtain rfl := Except.error.inj h
      exact .inl ⟨error, hmatch, rfl⟩
    · rename_i hmatch
      exact .inr ⟨hmatch, refuse_eq_error h⟩
    · cases h
  · cases h

theorem requirePass_error (h : s.requirePass r info = .error stop) :
    stop.RefusedBy r ∧ ∃ dsl, r.rule = .require dsl ∧ ¬ dsl.Met s.intent info := by
  unfold EnforcerState.requirePass at h
  split at h
  · rename_i dsl hrule
    split at h
    · rename_i fail hfails
      refine ⟨refuse_eq_error h, dsl, hrule, fun hmet => ?_⟩
      rw [requireFails_eq_none.mpr hmet] at hfails
      cases hfails
    · cases h
  · cases h

theorem timingPass_error (h : s.timingPass r now = .error stop) :
    stop.RefusedBy r ∧ ∃ dsl, r.rule = .time_window dsl ∧ ¬ dsl.Open now := by
  unfold EnforcerState.timingPass at h
  split at h
  · rename_i dsl hrule
    split at h
    · rename_i text hfails
      refine ⟨refuse_eq_error h, dsl, hrule, fun hopen => ?_⟩
      rw [windowFails_eq_none.mpr hopen] at hfails
      cases hfails
    · cases h
  · cases h

theorem sizingPass_error (h : s.sizingPass r usage = .error stop) :
    stop.RefusedBy r ∧ OverCap usage s.intent.notionalUsd r := by
  unfold EnforcerState.sizingPass at h
  split at h
  · cases h
  · rename_i value hrule
    split at h
    · rename_i hlt
      exact ⟨refuse_eq_error h, value, .day, hrule, by decide, hlt⟩
    · cases h
  · rename_i value hrule
    split at h
    · rename_i hlt
      exact ⟨refuse_eq_error h, value, .token, hrule, by decide, hlt⟩
    · cases h
  · cases h

theorem sizing_error (h : rules.foldlM (·.sizingPass · usage) s = .error stop) :
    ∃ r ∈ rules, stop.RefusedBy r ∧ OverCap usage s.intent.notionalUsd r := by
  obtain ⟨r, hr, c, hc, hmet⟩ := foldlM_error (I := Shrinks s)
    (fun c r c' hc hmet => hc.trans (sizingPass_ok hmet).1) (.refl s) h
  obtain ⟨hrefusal, hover⟩ := sizingPass_error hmet
  exact ⟨r, hr, hrefusal, hover.mono hc.le⟩

theorem approvals_total (s : EnforcerState) (rules : List UserIntentRule) :
    ∃ s', rules.foldlM EnforcerState.approvalPass s = .ok s' := by
  have hstep : ∀ c, ∀ r ∈ rules, True → ∃ c', EnforcerState.approvalPass c r = .ok c' ∧ True := by
    intro c r _ _
    unfold EnforcerState.approvalPass
    split
    · exact ⟨_, rfl, trivial⟩
    · exact ⟨c, rfl, trivial⟩
  obtain ⟨s', hs', -⟩ := foldlM_total hstep (b := s) trivial
  exact ⟨s', hs'⟩

/-! ## The notional that is left -/

theorem clamp_notional (s : EnforcerState) (value : ℚ) :
    (s.clamp value).intent.notionalUsd = s.intent.notionalUsd ∨ (s.clamp value).intent.notionalUsd = value := by
  unfold EnforcerState.clamp
  split
  · exact .inr rfl
  · exact .inl rfl

theorem sizingPass_notional (h : s.sizingPass r usage = .ok s') :
    s'.intent.notionalUsd = s.intent.notionalUsd ∨ r.rule = .max_size_usd s'.intent.notionalUsd .trade := by
  unfold EnforcerState.sizingPass at h
  split at h
  · rename_i value hrule
    obtain rfl := Except.ok.inj h
    refine (clamp_notional s value).imp_right fun hvalue => ?_
    exact hrule.trans (congrArg (IntentRuleDsl.max_size_usd · .trade) hvalue.symm)
  · obtain ⟨-, hs⟩ := ite_error_eq_ok.mp h
    obtain rfl := Except.ok.inj hs
    exact .inl rfl
  · obtain ⟨-, hs⟩ := ite_error_eq_ok.mp h
    obtain rfl := Except.ok.inj hs
    exact .inl rfl
  · obtain rfl := Except.ok.inj h
    exact .inl rfl

theorem sizing_notional (h : rules.foldlM (·.sizingPass · usage) s = .ok s') :
    s'.intent.notionalUsd = s.intent.notionalUsd ∨
      ∃ r ∈ rules, r.rule = .max_size_usd s'.intent.notionalUsd .trade := by
  induction rules generalizing s with
  | nil =>
    obtain rfl := Except.ok.inj h
    exact .inl rfl
  | cons r rules ih =>
    rw [List.foldlM_cons] at h
    obtain ⟨t, hfirst, hrest⟩ := bind_eq_ok.mp h
    obtain hkept | ⟨r', hr', hcap⟩ := ih hrest
    · rw [hkept]
      obtain hfirst | hcap := sizingPass_notional hfirst
      · exact .inl hfirst
      · exact .inr ⟨r, List.mem_cons_self, hcap⟩
    · exact .inr ⟨r', List.mem_cons_of_mem r hr', hcap⟩

/-- **Least cap.** The notional that is left is the least of the first one and the caps for one trade. -/
theorem sizing_isLeast (h : rules.foldlM (·.sizingPass · usage) s = .ok s') :
    IsLeast {n | n = s.intent.notionalUsd ∨ ∃ r ∈ rules, r.rule = .max_size_usd n .trade} s'.intent.notionalUsd := by
  obtain ⟨hshrinks, hcaps⟩ := sizing_ok h
  refine ⟨sizing_notional h, ?_⟩
  rintro n (rfl | ⟨r, hr, hrule⟩)
  · exact hshrinks.le
  · exact (zero_add _).symm.trans_le (hcaps r hr n .trade hrule)

end Stops

/-! ## What the list decides -/

section Decisions
variable {regExp : RegExpTest} {now : UtcTime} {candidate : EnforcerCandidate} {rules rules' : List UserIntentRule}

/-- How the passes end, by the rules of the list. -/
inductive Ends (regExp : RegExpTest) (now : UtcTime) (candidate : EnforcerCandidate) (rules : List UserIntentRule) :
    Enforcing → Prop
  | threw {r : UserIntentRule} (mem : r ∈ rules) (throws : Throws regExp candidate r) (error : String) :
      Ends regExp now candidate rules (.error (.threw error))
  | hit {r : UserIntentRule} {stop : EnforcerStop} (mem : r ∈ rules) (hits : Hits regExp candidate r)
      (refusal : stop.RefusedBy r) : Ends regExp now candidate rules (.error stop)
  | refused {r : UserIntentRule} {stop : EnforcerStop} (mem : r ∈ rules) (refuses : Refuses now candidate r)
      (unblocked : ∀ r ∈ rules, ∀ dsl, r.rule = .block dsl →
        blockMatches regExp dsl candidate.intent candidate.info = .ok false)
      (refusal : stop.RefusedBy r) : Ends regExp now candidate rules (.error stop)
  | sized {before : EnforcerState} (cleared : Cleared regExp now candidate rules before) :
      Ends regExp now candidate rules (rules.foldlM (·.sizingPass · candidate.usage) before >>= fun s =>
        rules.foldlM EnforcerState.approvalPass s)

theorem enforce_ends (regExp : RegExpTest) (now : UtcTime) (candidate : EnforcerCandidate)
    (rules : List UserIntentRule) : Ends regExp now candidate rules (enforce regExp now candidate rules) := by
  unfold enforce
  cases hblock : (rules.foldlM (·.blockPass · regExp candidate.info) { intent := candidate.intent } : Enforcing) with
  | error stop =>
    obtain ⟨r, hr, c, hc, hmet⟩ := foldlM_error (I := Notes { intent := candidate.intent })
      (fun c r c' hc hmet => hc.trans (blockPass_ok hmet).1) (.refl _) hblock
    obtain ⟨dsl, hrule, ⟨error, hmatch, rfl⟩ | ⟨hmatch, hrefusal⟩⟩ := blockPass_error hmet
    · rw [hc.intent] at hmatch
      exact .threw hr ⟨dsl, error, hrule, hmatch⟩ error
    · rw [hc.intent] at hmatch
      exact .hit hr ⟨dsl, hrule, hmatch⟩ hrefusal
  | ok s₁ =>
    obtain ⟨h₁, hunblocked⟩ := Notes.pass (P := fun intent r => ∀ dsl, r.rule = .block dsl →
      blockMatches regExp dsl intent candidate.info = .ok false) (fun _ _ _ => blockPass_ok) hblock
    change Ends regExp now candidate rules ((rules.foldlM (·.requirePass · candidate.info) s₁ : Enforcing) >>= _)
    cases hrequire : (rules.foldlM (·.requirePass · candidate.info) s₁ : Enforcing) with
    | error stop =>
      obtain ⟨r, hr, c, hc, hmet⟩ := foldlM_error (I := Notes { intent := candidate.intent })
        (fun c r c' hc hmet => hc.trans (requirePass_ok hmet).1) h₁ hrequire
      obtain ⟨hrefusal, dsl, hrule, hnot⟩ := requirePass_error hmet
      rw [hc.intent] at hnot
      exact .refused hr (.inl ⟨dsl, hrule, hnot⟩) hunblocked hrefusal
    | ok s₂ =>
      obtain ⟨h₂, hrequired⟩ := Notes.pass (P := fun intent r => ∀ dsl, r.rule = .require dsl →
        dsl.Met intent candidate.info) (fun _ _ _ => requirePass_ok) hrequire
      rw [h₁.intent] at hrequired
      change Ends regExp now candidate rules ((rules.foldlM (·.timingPass · now) s₂ : Enforcing) >>= _)
      cases htiming : (rules.foldlM (·.timingPass · now) s₂ : Enforcing) with
      | error stop =>
        obtain ⟨r, hr, c, -, hmet⟩ := foldlM_error (I := fun _ => True) (fun _ _ _ _ _ => trivial) trivial htiming
        obtain ⟨hrefusal, hclosed⟩ := timingPass_error hmet
        exact .refused hr (.inr hclosed) hunblocked hrefusal
      | ok s₃ =>
        obtain ⟨h₃, htimed⟩ := Notes.pass (P := fun _ r => ∀ dsl, r.rule = .time_window dsl → dsl.Open now)
          (fun _ _ _ => timingPass_ok) htiming
        exact .sized ⟨(h₁.trans h₂).trans h₃, hunblocked, hrequired, htimed⟩

theorem outcome_of_ok {s : EnforcerState} (h : enforce regExp now candidate rules = .ok s) :
    outcome candidate (check regExp now candidate rules) =
      some (true, s.mustRequireApproval, s.intent.notionalUsd) := by
  have hcopy := (enforce_sizedDown h).copy
  unfold check
  rw [h, ← hcopy]
  rfl

theorem outcome_of_refusal {stop : EnforcerStop} {r : UserIntentRule}
    (h : enforce regExp now candidate rules = .error stop) (hrefusal : stop.RefusedBy r) :
    outcome candidate (check regExp now candidate rules) = some (false, false, candidate.intent.notionalUsd) := by
  obtain ⟨reason, applied, rfl⟩ := hrefusal
  unfold check
  rw [h]
  rfl

theorem outcome_of_threw {error : String} (h : enforce regExp now candidate rules = .error (.threw error)) :
    outcome candidate (check regExp now candidate rules) = none := by
  unfold check
  rw [h]
  rfl

/-! ### Lists whose order does not matter -/

theorem Cleared.not_throws {before : EnforcerState} (h : Cleared regExp now candidate rules before) :
    ∀ r ∈ rules, ¬ Throws regExp candidate r := by
  rintro r hr ⟨dsl, error, hrule, hmatch⟩
  rw [h.unblocked r hr dsl hrule] at hmatch
  cases hmatch

theorem outcome_of_throws (hthrows : ∃ r ∈ rules, Throws regExp candidate r)
    (hhits : ∀ r ∈ rules, ¬ Hits regExp candidate r) : outcome candidate (check regExp now candidate rules) = none := by
  obtain ⟨r, hr, hthrow⟩ := hthrows
  have hends := enforce_ends regExp now candidate rules
  generalize henforce : enforce regExp now candidate rules = x at hends
  cases hends with
  | threw mem throws error => exact outcome_of_threw henforce
  | hit mem hits refusal => exact absurd hits (hhits _ mem)
  | refused mem refuses unblocked refusal =>
    obtain ⟨dsl, error, hrule, hmatch⟩ := hthrow
    rw [unblocked r hr dsl hrule] at hmatch
    cases hmatch
  | sized cleared => exact absurd hthrow (cleared.not_throws r hr)

/-- Where no pattern throws, an intent that is not accepted is refused. -/
theorem outcome_of_not_accepted (hthrows : ∀ r ∈ rules, ¬ Throws regExp candidate r)
    (hnot : ∀ s, enforce regExp now candidate rules ≠ .ok s) :
    outcome candidate (check regExp now candidate rules) = some (false, false, candidate.intent.notionalUsd) := by
  have hends := enforce_ends regExp now candidate rules
  generalize henforce : enforce regExp now candidate rules = x at hends
  cases hends with
  | threw mem throws error => exact absurd throws (hthrows _ mem)
  | hit mem hits refusal => exact outcome_of_refusal henforce refusal
  | refused mem refuses unblocked refusal => exact outcome_of_refusal henforce refusal
  | @sized before cleared =>
    cases hsizing : (rules.foldlM (·.sizingPass · candidate.usage) before : Enforcing) with
    | error stop =>
      rw [hsizing] at henforce
      obtain ⟨r, -, hrefusal, -⟩ := sizing_error hsizing
      exact outcome_of_refusal henforce hrefusal
    | ok sized =>
      rw [hsizing] at henforce
      obtain ⟨s, hs⟩ := approvals_total sized rules
      exact absurd (henforce.trans hs) (hnot s)

theorem not_accepted_of_stops (h : ∃ r ∈ rules, Hits regExp candidate r ∨ Refuses now candidate r)
    (s : EnforcerState) : enforce regExp now candidate rules ≠ .ok s := by
  intro henforce
  obtain ⟨before, sized, hbefore, -, -⟩ := enforce_ok henforce
  obtain ⟨r, hr, ⟨dsl, hrule, hmatch⟩ | ⟨dsl, hrule, hnot⟩ | ⟨dsl, hrule, hnot⟩⟩ := h
  · rw [hbefore.unblocked r hr dsl hrule] at hmatch
    cases hmatch
  · exact hnot (hbefore.required r hr dsl hrule)
  · exact hnot (hbefore.timed r hr dsl hrule)

theorem not_accepted_of_overCap {r : UserIntentRule} (hr : r ∈ rules)
    (hover : OverCap candidate.usage candidate.intent.notionalUsd r)
    (hcaps : ∀ r' ∈ rules, ∀ value, r'.rule = .max_size_usd value .trade → OverCap candidate.usage value r)
    (s : EnforcerState) : enforce regExp now candidate rules ≠ .ok s := by
  intro henforce
  obtain ⟨before, sized, hbefore, hsized, -⟩ := enforce_ok henforce
  have hleft : OverCap candidate.usage sized.intent.notionalUsd r := by
    obtain hkept | ⟨r', hr', hcap⟩ := (sizing_isLeast hsized).1
    · rw [hkept, hbefore.notes.intent]
      exact hover
    · exact hcaps r' hr' _ hcap
  obtain ⟨value, per, hrule, -, hlt⟩ := hleft
  have hfits := (sizing_ok hsized).2 r hr value per hrule
  linarith

theorem accepted_of_sizing (hthrows : ∀ r ∈ rules, ¬ Throws regExp candidate r)
    (hstops : ¬ ∃ r ∈ rules, Hits regExp candidate r ∨ Refuses now candidate r)
    (hsizes : ∀ before : EnforcerState, before.intent = candidate.intent →
      ∃ sized, rules.foldlM (·.sizingPass · candidate.usage) before = .ok sized) :
    ∃ s, enforce regExp now candidate rules = .ok s := by
  have hends := enforce_ends regExp now candidate rules
  generalize henforce : enforce regExp now candidate rules = x at hends
  cases hends with
  | threw mem throws error => exact absurd throws (hthrows _ mem)
  | hit mem hits refusal => exact absurd ⟨_, mem, .inl hits⟩ hstops
  | refused mem refuses unblocked refusal => exact absurd ⟨_, mem, .inr refuses⟩ hstops
  | @sized before cleared =>
    obtain ⟨sized, hsizing⟩ := hsizes before cleared.notes.intent
    obtain ⟨s, hs⟩ := approvals_total sized rules
    rw [hsizing]
    exact ⟨s, hs⟩

theorem sizing_total {usage : CandidateUsage} {s : EnforcerState}
    (h : ∀ r ∈ rules, ¬ OverCap usage s.intent.notionalUsd r) :
    ∃ s', rules.foldlM (·.sizingPass · usage) s = .ok s' := by
  cases hsizing : (rules.foldlM (·.sizingPass · usage) s : Enforcing) with
  | error stop =>
    obtain ⟨r, hr, -, hover⟩ := sizing_error hsizing
    exact absurd hover (h r hr)
  | ok s' => exact ⟨s', rfl⟩

/-- What is decided of an accepted intent depends on which rules there are. -/
theorem outcome_of_accepted {s : EnforcerState} (h : enforce regExp now candidate rules = .ok s) :
    IsLeast {n | n = candidate.intent.notionalUsd ∨ ∃ r ∈ rules, r.rule = .max_size_usd n .trade}
        s.intent.notionalUsd ∧
      (s.mustRequireApproval = true ↔ ∃ r ∈ rules, ∃ condition, r.rule = .require_approval_if condition ∧
        condition.Holds { candidate.intent with notionalUsd := s.intent.notionalUsd }) := by
  obtain ⟨before, sized, hbefore, hsized, happroval⟩ := enforce_ok h
  obtain ⟨hintent, hmust⟩ := approvals_ok happroval
  have hleast := sizing_isLeast hsized
  rw [hbefore.notes.intent] at hleast
  rw [hintent]
  refine ⟨hleast, hmust.trans ?_⟩
  rw [← hbefore.sized_intent hsized, (sizing_ok hsized).1.must, hbefore.notes.mustRequireApproval]
  simp

theorem accepted_congr (hsame : ∀ r, r ∈ rules' ↔ r ∈ rules) {s s' : EnforcerState}
    (h : enforce regExp now candidate rules = .ok s) (h' : enforce regExp now candidate rules' = .ok s') :
    outcome candidate (check regExp now candidate rules') = outcome candidate (check regExp now candidate rules) := by
  obtain ⟨hleast, hmust⟩ := outcome_of_accepted h
  obtain ⟨hleast', hmust'⟩ := outcome_of_accepted h'
  simp only [hsame] at hleast' hmust'
  have hnotional := hleast'.unique hleast
  have happroval : s'.mustRequireApproval = s.mustRequireApproval := by
    rw [hnotional] at hmust'
    exact Bool.eq_iff_iff.mpr (hmust'.trans hmust.symm)
  rw [outcome_of_ok h, outcome_of_ok h', hnotional, happroval]

theorem outcome_congr (hsame : ∀ r, r ∈ rules' ↔ r ∈ rules) (hfree : OrderFree regExp now candidate rules) :
    outcome candidate (check regExp now candidate rules') = outcome candidate (check regExp now candidate rules) := by
  have hsame' : ∀ P : UserIntentRule → Prop, (∃ r ∈ rules', P r) ↔ ∃ r ∈ rules, P r := fun P => by simp only [hsame]
  rcases hfree with ⟨hthrows, hhits⟩ | ⟨hthrows, hrest⟩
  · rw [outcome_of_throws hthrows hhits]
    exact outcome_of_throws ((hsame' _).mpr hthrows) fun r hr => hhits r ((hsame r).mp hr)
  · have hthrows' : ∀ r ∈ rules', ¬ Throws regExp candidate r := fun r hr => hthrows r ((hsame r).mp hr)
    by_cases hstops : ∃ r ∈ rules, Hits regExp candidate r ∨ Refuses now candidate r
    · rw [outcome_of_not_accepted hthrows (not_accepted_of_stops hstops)]
      exact outcome_of_not_accepted hthrows' (not_accepted_of_stops ((hsame' _).mpr hstops))
    · have hstops' := mt (hsame' _).mp hstops
      obtain hfits | ⟨r, hr, hover, hcaps⟩ := hrest.resolve_left hstops
      · obtain ⟨s, hs⟩ := accepted_of_sizing hthrows hstops fun before hbefore =>
          sizing_total fun r hr => by rw [hbefore]; exact hfits r hr
        obtain ⟨s', hs'⟩ := accepted_of_sizing hthrows' hstops' fun before hbefore =>
          sizing_total fun r hr => by rw [hbefore]; exact hfits r ((hsame r).mp hr)
        exact accepted_congr hsame hs hs'
      · rw [outcome_of_not_accepted hthrows (not_accepted_of_overCap hr hover hcaps)]
        apply outcome_of_not_accepted hthrows'
        exact not_accepted_of_overCap ((hsame r).mpr hr) hover fun r' hr' => hcaps r' ((hsame r').mp hr')

/-- **Refused intents.** The last rule of a refusal is one that refuses the candidate, whatever the others do. -/
theorem check_refused {decision : EnforcerDecision} (h : check regExp now candidate rules = .ok decision)
    (hok : decision.ok = false) : ∃ r ∈ rules, decision.appliedRuleIds.getLast? = some r.id ∧
      (Hits regExp candidate r ∨ Refuses now candidate r ∨ OverCap candidate.usage candidate.intent.notionalUsd r) := by
  have hends := enforce_ends regExp now candidate rules
  generalize henforce : enforce regExp now candidate rules = x at hends
  have hlast : ∀ {stop : EnforcerStop} {r : UserIntentRule}, enforce regExp now candidate rules = .error stop →
      stop.RefusedBy r → decision.appliedRuleIds.getLast? = some r.id := by
    rintro stop r hstop ⟨reason, applied, rfl⟩
    unfold check at h
    rw [hstop] at h
    obtain rfl := Except.ok.inj h
    exact List.getLast?_concat
  cases hends with
  | threw mem throws error =>
    unfold check at h
    rw [henforce] at h
    cases h
  | @hit r stop mem hits refusal => exact ⟨r, mem, hlast henforce refusal, .inl hits⟩
  | @refused r stop mem refuses unblocked refusal => exact ⟨r, mem, hlast henforce refusal, .inr (.inl refuses)⟩
  | @sized before cleared =>
    cases hsizing : (rules.foldlM (·.sizingPass · candidate.usage) before : Enforcing) with
    | error stop =>
      rw [hsizing] at henforce
      obtain ⟨r, hr, hrefusal, hover⟩ := sizing_error hsizing
      rw [cleared.notes.intent] at hover
      exact ⟨r, hr, hlast henforce hrefusal, .inr (.inr hover)⟩
    | ok sized =>
      rw [hsizing] at henforce
      obtain ⟨s, hs⟩ := approvals_total sized rules
      unfold check at h
      rw [henforce.trans hs] at h
      obtain rfl := Except.ok.inj h
      cases hok

/-! ### Lists whose order matters -/

theorem outcome_cons_throws {r : UserIntentRule} (h : Throws regExp candidate r) :
    outcome candidate (check regExp now candidate (r :: rules)) = none := by
  obtain ⟨dsl, error, hrule, hmatch⟩ := h
  have hfirst : EnforcerState.blockPass { intent := candidate.intent } r regExp candidate.info =
      .error (.threw error) := by
    unfold EnforcerState.blockPass
    rw [hrule]
    dsimp only
    rw [hmatch]
  have henforce : enforce regExp now candidate (r :: rules) = .error (.threw error) := by
    unfold enforce
    rw [List.foldlM_cons, hfirst]
    rfl
  exact outcome_of_threw henforce

theorem outcome_cons_hits {r : UserIntentRule} (h : Hits regExp candidate r) :
    outcome candidate (check regExp now candidate (r :: rules)) =
      some (false, false, candidate.intent.notionalUsd) := by
  obtain ⟨dsl, hrule, hmatch⟩ := h
  have hfirst : EnforcerState.blockPass { intent := candidate.intent } r regExp candidate.info =
      .error (.refused ("Blocked by rule: " ++ r.text) [r.id]) := by
    unfold EnforcerState.blockPass
    rw [hrule]
    dsimp only
    rw [hmatch]
    rfl
  have henforce : enforce regExp now candidate (r :: rules) =
      .error (.refused ("Blocked by rule: " ++ r.text) [r.id]) := by
    unfold enforce
    rw [List.foldlM_cons, hfirst]
    rfl
  exact outcome_of_refusal (r := r) henforce ⟨_, [], rfl⟩

/-- A cap that the whole notional exceeds refuses it when it is met before the caps for one trade. -/
theorem not_accepted_of_first {r : UserIntentRule} (hover : OverCap candidate.usage candidate.intent.notionalUsd r)
    (s : EnforcerState) : enforce regExp now candidate (r :: rules) ≠ .ok s := by
  intro henforce
  obtain ⟨before, sized, hbefore, hsized, -⟩ := enforce_ok henforce
  rw [List.foldlM_cons] at hsized
  obtain ⟨first, hfirst, -⟩ := bind_eq_ok.mp hsized
  obtain ⟨value, per, hrule, hper, hlt⟩ := hover
  have hfits := (sizingPass_ok hfirst).2 value per hrule
  obtain hkept | hcap := sizingPass_notional hfirst
  · rw [hkept, hbefore.notes.intent] at hfits
    linarith
  · exact hper (IntentRuleDsl.max_size_usd.inj (hrule.symm.trans hcap)).2

def isTradeCap (r : UserIntentRule) : Bool :=
  match r.rule with
  | .max_size_usd _ .trade => true
  | _ => false

theorem isTradeCap_eq_true {r : UserIntentRule} : isTradeCap r = true ↔ ∃ value, r.rule = .max_size_usd value .trade := by
  unfold isTradeCap
  split
  · rename_i value hrule
    exact iff_of_true rfl ⟨value, hrule⟩
  · rename_i hnot
    apply iff_of_false Bool.false_ne_true
    rintro ⟨value, hrule⟩
    exact hnot value hrule

/-- The caps for one trade, and then the other rules. -/
def tradeCapsFirst (rules : List UserIntentRule) : List UserIntentRule :=
  rules.filter isTradeCap ++ rules.filter fun r => !isTradeCap r

theorem tradeCapsFirst_perm (rules : List UserIntentRule) : (tradeCapsFirst rules).Perm rules :=
  List.filter_append_perm isTradeCap rules

/-- Met after the caps for one trade, no cap refuses what one of these lets through. -/
theorem sizing_tradeCapsFirst {usage : CandidateUsage} {before : EnforcerState}
    (h : ∀ r ∈ rules, OverCap usage before.intent.notionalUsd r →
      ∃ r' ∈ rules, ∃ value, r'.rule = .max_size_usd value .trade ∧ ¬ OverCap usage value r) :
    ∃ sized, (tradeCapsFirst rules).foldlM (·.sizingPass · usage) before = .ok sized := by
  obtain ⟨clamped, hclamped⟩ : ∃ clamped, (rules.filter isTradeCap).foldlM (·.sizingPass · usage) before =
      .ok clamped := by
    apply sizing_total
    rintro r hr ⟨value, per, hrule, hper, -⟩
    obtain ⟨-, htrade⟩ := List.mem_filter.mp hr
    obtain ⟨value', hrule'⟩ := isTradeCap_eq_true.mp htrade
    exact hper (IntentRuleDsl.max_size_usd.inj (hrule.symm.trans hrule')).2
  obtain ⟨-, hleast⟩ := sizing_isLeast hclamped
  obtain ⟨sized, hsized⟩ : ∃ sized, (rules.filter fun r => !isTradeCap r).foldlM (·.sizingPass · usage) clamped =
      .ok sized := by
    apply sizing_total
    intro r hr hover
    obtain ⟨r', hr', value, hrule', hnot⟩ := h r (List.mem_filter.mp hr).1 (hover.mono (hleast (.inl rfl)))
    apply hnot
    exact hover.mono (hleast (.inr ⟨r', List.mem_filter.mpr ⟨hr', isTradeCap_eq_true.mpr ⟨value, hrule'⟩⟩, hrule'⟩))
  refine ⟨sized, ?_⟩
  rw [tradeCapsFirst, List.foldlM_append, hclamped]
  exact hsized

/-- If each cap that the whole notional exceeds lets through what some cap for one trade leaves, then one of
them met first refuses the intent, and the caps for one trade met first save it. -/
theorem order_matters {r : UserIntentRule} (hr : r ∈ rules)
    (hover : OverCap candidate.usage candidate.intent.notionalUsd r)
    (hthrows : ∀ r ∈ rules, ¬ Throws regExp candidate r)
    (hstops : ¬ ∃ r ∈ rules, Hits regExp candidate r ∨ Refuses now candidate r)
    (hclamped : ∀ r ∈ rules, OverCap candidate.usage candidate.intent.notionalUsd r →
      ∃ r' ∈ rules, ∃ value, r'.rule = .max_size_usd value .trade ∧ ¬ OverCap candidate.usage value r) :
    outcome candidate (check regExp now candidate (r :: rules.erase r)) ≠
      outcome candidate (check regExp now candidate (tradeCapsFirst rules)) := by
  have hfirst : ∀ r', r' ∈ r :: rules.erase r ↔ r' ∈ rules := fun r' => (List.perm_cons_erase hr).symm.mem_iff
  have hsizes : ∀ r', r' ∈ tradeCapsFirst rules ↔ r' ∈ rules := fun r' => (tradeCapsFirst_perm rules).mem_iff
  have hrefused : outcome candidate (check regExp now candidate (r :: rules.erase r)) =
      some (false, false, candidate.intent.notionalUsd) :=
    outcome_of_not_accepted (fun r' hr' => hthrows r' ((hfirst r').mp hr')) (not_accepted_of_first hover)
  have haccepted : ∃ s, enforce regExp now candidate (tradeCapsFirst rules) = .ok s := by
    apply accepted_of_sizing
    · exact fun r' hr' => hthrows r' ((hsizes r').mp hr')
    · exact fun ⟨r', hr', hstop⟩ => hstops ⟨r', (hsizes r').mp hr', hstop⟩
    · intro before hbefore
      apply sizing_tradeCapsFirst
      rw [hbefore]
      exact hclamped
  obtain ⟨s, hs⟩ := haccepted
  rw [hrefused, outcome_of_ok hs]
  simp

/-- **Order of the rules.** The rules decide alike in every order exactly if they are `OrderFree`. -/
theorem orderFree_iff (regExp : RegExpTest) (now : UtcTime) (candidate : EnforcerCandidate)
    (rules : List UserIntentRule) :
    (∀ rules', rules'.Perm rules → outcome candidate (check regExp now candidate rules') =
      outcome candidate (check regExp now candidate rules)) ↔ OrderFree regExp now candidate rules := by
  constructor
  · intro h
    by_cases hthrows : ∃ r ∈ rules, Throws regExp candidate r
    · refine .inl ⟨hthrows, fun hit hhit hhits => ?_⟩
      obtain ⟨thrower, hthrower, hthrow⟩ := hthrows
      have hfirst := h _ (List.perm_cons_erase hthrower).symm
      have hsecond := h _ (List.perm_cons_erase hhit).symm
      rw [outcome_cons_throws hthrow] at hfirst
      rw [outcome_cons_hits hhits, ← hfirst] at hsecond
      cases hsecond
    · have hquiet : ∀ r ∈ rules, ¬ Throws regExp candidate r := fun r hr hthrow => hthrows ⟨r, hr, hthrow⟩
      refine .inr ⟨hquiet, ?_⟩
      by_cases hstops : ∃ r ∈ rules, Hits regExp candidate r ∨ Refuses now candidate r
      · exact .inl hstops
      · by_cases hover : ∃ r ∈ rules, OverCap candidate.usage candidate.intent.notionalUsd r
        · by_cases hcaps : ∃ r ∈ rules, OverCap candidate.usage candidate.intent.notionalUsd r ∧
              ∀ r' ∈ rules, ∀ value, r'.rule = .max_size_usd value .trade → OverCap candidate.usage value r
          · exact .inr (.inr hcaps)
          · obtain ⟨r, hr, hexceeds⟩ := hover
            refine absurd ((h _ (List.perm_cons_erase hr).symm).trans (h _ (tradeCapsFirst_perm rules)).symm) ?_
            apply order_matters hr hexceeds hquiet hstops
            intro r' hr' hexceeds'
            by_contra hnone
            refine hcaps ⟨r', hr', hexceeds', fun r'' hr'' value hrule => ?_⟩
            by_contra hfits
            exact hnone ⟨r'', hr'', value, hrule, hfits⟩
        · exact .inr (.inl fun r hr hexceeds => hover ⟨r, hr, hexceeds⟩)
  · intro hfree rules' hperm
    exact outcome_congr (fun r => hperm.mem_iff) hfree

end Decisions

/-! ## Two caps -/

def sampleTradeCap : UserIntentRule := ⟨"r1", "at most $50 a trade", .max_size_usd 50 .trade⟩

def sampleDayCap : UserIntentRule := ⟨"r2", "at most $80 a day", .max_size_usd 80 .day⟩

/-- With nothing spent, $100 become $50, or are refused. -/
theorem order_changes_decision : ¬ ∀ (regExp : RegExpTest) (now : UtcTime) (candidate : EnforcerCandidate)
    (rules rules' : List UserIntentRule), rules'.Perm rules →
      outcome candidate (check regExp now candidate rules') = outcome candidate (check regExp now candidate rules) := by
  intro h
  have hsame := h (fun _ _ => .ok false) ⟨12, 3⟩ { intent := sampleCandidate.intent }
    [sampleTradeCap, sampleDayCap] [sampleDayCap, sampleTradeCap] (List.Perm.swap _ _ [])
  revert hsame
  decide +kernel

end SuperAi.Intent
