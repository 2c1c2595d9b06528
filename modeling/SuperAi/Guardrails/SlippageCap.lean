import SuperAi.Guardrails.GuardrailsService
import SuperAi.Foundations.KeyValue
import SuperAi.Foundations.StepSystem

/-! # The slippage cap of a user

Calls of the guardrails one after another. Each of them goes through `config`, which takes a cap of at most 150 for
the old default and raises it: a cap that a user sets lasts exactly where it is above 150 (`slippageCap_kept_iff`).
-/
namespace SuperAi.Guardrails
open SuperAi.Foundations SuperAi.Execution
set_option autoImplicit false

/-- `kill`. -/
def kill (row : Option GuardrailConfig) : GuardrailConfig := update row { killSwitch := some true }

inductive GuardrailCall
  | config (userId : String)
  | update (userId : String) (patch : GuardrailPatch)
  | kill (userId : String)
  | check (intent : TradeIntent)
  deriving DecidableEq, Repr

abbrev GuardrailRows := KeyValue String GuardrailConfig

/-- The rows after a call. -/
def GuardrailRows.call (rows : GuardrailRows) : GuardrailCall → GuardrailRows
  | .config userId => rows.set userId (Guardrails.config (rows.get userId))
  | .update userId patch => rows.set userId (Guardrails.update (rows.get userId) patch)
  | .kill userId => rows.set userId (Guardrails.kill (rows.get userId))
  | .check intent => rows.set intent.userId (Guardrails.config (rows.get intent.userId))

def guardrailsService : StepSystem GuardrailRows GuardrailCall := ⟨fun rows call => some (rows.call call)⟩

/-- The call sets the cap of this user. -/
def GuardrailCall.setsCap (userId : String) : GuardrailCall → Prop
  | .update userId' patch => userId' = userId ∧ patch.maxSlippageBps.isSome = true
  | .config _ | .kill _ | .check _ => False

/-- The cap is in force: `config` returns it, and no check lets a trade above it pass. -/
def CapHonoured (rows : GuardrailRows) (userId : String) (cap : ℤ) : Prop :=
  (config (rows.get userId)).maxSlippageBps = cap ∧
    ∀ (intent : TradeIntent) (trades : List TradeRecord) (now : ℤ), intent.userId = userId →
      cap < intent.slippageBps → check (rows.get userId) trades now intent ≠ .ok ()

/-! ## Caps of rows -/

theorem upgraded_cap (cfg : GuardrailConfig) :
    cfg.upgraded.maxSlippageBps = if cfg.maxSlippageBps ≤ 150 then 5000 else cfg.maxSlippageBps := by
  unfold GuardrailConfig.upgraded
  split
  · rfl
  · rfl

theorem config_cap_gt (row : Option GuardrailConfig) : 150 < (config row).maxSlippageBps := by
  rw [config, upgraded_cap]
  split
  · decide
  · rename_i hcap
    exact not_le.mp hcap

theorem config_cap_of_gt {cfg : GuardrailConfig} (h : 150 < cfg.maxSlippageBps) :
    (config (some cfg)).maxSlippageBps = cfg.maxSlippageBps := by
  rw [config, Option.getD_some, upgraded_cap, if_neg (not_le.mpr h)]

theorem update_cap (row : Option GuardrailConfig) (patch : GuardrailPatch) :
    (update row patch).maxSlippageBps = patch.maxSlippageBps.getD (config row).maxSlippageBps := rfl

theorem check_slippage {row : Option GuardrailConfig} {trades : List TradeRecord} {now : ℤ} {intent : TradeIntent}
    (h : (config row).maxSlippageBps < intent.slippageBps) : check row trades now intent ≠ .ok () := by
  intro hok
  have hwithin := (GuardrailConfig.check_eq_ok.mp hok).2.2.2.2.1
  omega

/-! ## Runs -/

/-- The row has the cap. -/
def HasCap (userId : String) (cap : ℤ) (rows : GuardrailRows) : Prop :=
  ∃ cfg, rows.get userId = some cfg ∧ cfg.maxSlippageBps = cap

theorem HasCap.set_of_ne {userId user : String} {cap : ℤ} {rows : GuardrailRows} {cfg : GuardrailConfig}
    (h : HasCap userId cap rows) (hne : userId ≠ user) : HasCap userId cap (rows.set user cfg) := by
  obtain ⟨cfg', hget, hcap⟩ := h
  exact ⟨cfg', by rw [KeyValue.get_set_of_ne hne, hget], hcap⟩

/-- A cap above 150 survives a call that does not set it. -/
theorem hasCap_call {userId : String} {cap : ℤ} (hcap : 150 < cap) {rows : GuardrailRows} {call : GuardrailCall}
    (h : HasCap userId cap rows) (hcall : ¬ call.setsCap userId) : HasCap userId cap (rows.call call) := by
  obtain ⟨cfg, hget, hrow⟩ := h
  have hconfig : (config (rows.get userId)).maxSlippageBps = cap := by
    rw [hget, config_cap_of_gt (hrow ▸ hcap), hrow]
  cases call with
  | config user =>
    by_cases heq : user = userId
    · subst heq
      exact ⟨_, KeyValue.get_set_self rows user _, hconfig⟩
    · exact HasCap.set_of_ne ⟨cfg, hget, hrow⟩ (Ne.symm heq)
  | update user patch =>
    by_cases heq : user = userId
    · subst heq
      have hnone : patch.maxSlippageBps = none := by
        rw [← Option.not_isSome_iff_eq_none]
        exact fun hsome => hcall ⟨rfl, hsome⟩
      refine ⟨_, KeyValue.get_set_self rows user _, ?_⟩
      rw [update_cap, hnone, Option.getD_none, hconfig]
    · exact HasCap.set_of_ne ⟨cfg, hget, hrow⟩ (Ne.symm heq)
  | kill user =>
    by_cases heq : user = userId
    · subst heq
      exact ⟨_, KeyValue.get_set_self rows user _, hconfig⟩
    · exact HasCap.set_of_ne ⟨cfg, hget, hrow⟩ (Ne.symm heq)
  | check intent =>
    by_cases heq : intent.userId = userId
    · subst heq
      exact ⟨_, KeyValue.get_set_self rows intent.userId _, hconfig⟩
    · exact HasCap.set_of_ne ⟨cfg, hget, hrow⟩ (Ne.symm heq)

theorem hasCap_run {userId : String} {cap : ℤ} (hcap : 150 < cap) {rows rows' : GuardrailRows}
    {calls : List GuardrailCall} (h : guardrailsService.run rows calls = some rows') (hrows : HasCap userId cap rows)
    (hcalls : ∀ call ∈ calls, ¬ call.setsCap userId) : HasCap userId cap rows' := by
  have hstep : ∀ s call s', HasCap userId cap s → ¬ call.setsCap userId → guardrailsService.step s call = some s' →
      HasCap userId cap s' := by
    intro s call s' hs hcall hnext
    rw [← Option.some.inj hnext]
    exact hasCap_call hcap hs hcall
  exact (StepSystem.GuardedRun.of_forall h fun call hmem _ => hcalls call hmem).invariant hstep hrows

/-- **The cap of a user.** After the user has set a cap, and after any further calls that do not set it again, the
cap is in force exactly if it is above 150. -/
theorem slippageCap_kept_iff {rows rows' : GuardrailRows} {userId : String} {patch : GuardrailPatch} {cap : ℤ}
    {calls : List GuardrailCall} (hpatch : patch.maxSlippageBps = some cap)
    (hrun : guardrailsService.run rows (.update userId patch :: calls) = some rows')
    (hcalls : ∀ call ∈ calls, ¬ call.setsCap userId) : CapHonoured rows' userId cap ↔ 150 < cap := by
  constructor
  · intro hcap
    rw [← hcap.1]
    exact config_cap_gt _
  · intro hcap
    have hset : HasCap userId cap (rows.call (.update userId patch)) := by
      refine ⟨_, KeyValue.get_set_self rows userId _, ?_⟩
      rw [update_cap, hpatch, Option.getD_some]
    have hrest : guardrailsService.run (rows.call (.update userId patch)) calls = some rows' := hrun
    obtain ⟨cfg, hget, hrow⟩ := hasCap_run hcap hrest hset hcalls
    have hconfig : (config (rows'.get userId)).maxSlippageBps = cap := by
      rw [hget, config_cap_of_gt (hrow ▸ hcap), hrow]
    refine ⟨hconfig, ?_⟩
    intro intent trades now _ hover
    exact check_slippage (hconfig ▸ hover)

/-- A cap of 300 is in force after a check and a kill. -/
theorem cap300_honoured : ∃ rows', guardrailsService.run []
      [.update "ann" { maxSlippageBps := some 300 }, .check ⟨"ann", "T", 10, 200, []⟩, .kill "ann"] = some rows' ∧
    CapHonoured rows' "ann" 300 := by
  refine ⟨_, rfl, (@slippageCap_kept_iff [] _ "ann" { maxSlippageBps := some 300 } 300
    [.check ⟨"ann", "T", 10, 200, []⟩, .kill "ann"] rfl rfl ?_).mpr (by decide)⟩
  intro call hcall
  simp only [List.mem_cons, List.not_mem_nil, or_false] at hcall
  obtain rfl | rfl := hcall
  · exact id
  · exact id

/-- A cap of 100 is 5000 at the next look, and a trade with a slippage of 200 passes. -/
theorem cap100_lost : ∃ rows', guardrailsService.run [] [.update "ann" { maxSlippageBps := some 100 }] = some rows' ∧
    (config (rows'.get "ann")).maxSlippageBps = 5000 ∧
    check (rows'.get "ann") [] 0 ⟨"ann", "T", 10, 200, []⟩ = .ok () ∧ ¬ CapHonoured rows' "ann" 100 := by
  refine ⟨_, rfl, by decide +kernel, by decide +kernel, ?_⟩
  intro hcap
  have hlost := hcap.1
  revert hlost
  decide +kernel

end SuperAi.Guardrails
