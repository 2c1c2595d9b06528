import SuperAi.Agents.AutonomousTrader
import Mathlib.Tactic.Linarith
import Mathlib.Tactic.FieldSimp

/-! # Trades with a lowered notional

An intent carries its size twice, as `notionalUsd` and as `amountIn`. Both caps of the autonomous trader
lower the first and leave the second, and the route that the intent takes moves the second.
-/
namespace SuperAi.Agents
open SuperAi.Auth SuperAi.Approvals SuperAi.Execution SuperAi.Intent
set_option autoImplicit false

/-- What a route moves, now or once the request is approved: the amount with its notional. -/
def Route.moved : Route → Option (String × ℚ)
  | .suggestion _ => none
  | .approval request => some (request.tradeIntent.amountIn, request.tradeIntent.notionalUsd)
  | .swap input => some (input.amountIn, input.notionalUsd)

/-- With the notional lowered to `notionalUsd`, the amount is lowered in proportion, or further. -/
def ScaledDown (proposal : TradeIntent) (amountIn : String) (notionalUsd : ℚ) : Prop :=
  amountOf amountIn ≤ amountOf proposal.amountIn * notionalUsd / proposal.notionalUsd

variable {regExp : RegExpTest} {cfg : TraderConfig} {now : ℤ} {ans : StrategyAnswers}

theorem proposeIntent_pos {reply : LlmReply} {proposal : TradeIntent} (h : proposeIntent reply = some proposal) :
    0 < proposal.notionalUsd := by
  unfold proposeIntent at h
  split at h
  · cases h
  · split at h
    · cases h
    · split at h
      · cases h
      · rename_i hpos
        split at h
        · cases h
        · obtain rfl := Option.some.inj h
          exact not_le.mp hpos

theorem clampToMax_amountIn (cfg : TraderConfig) (intent : TradeIntent) :
    (clampToMax cfg intent).amountIn = intent.amountIn := by
  unfold clampToMax
  split <;> rfl

theorem applyRules_amountIn {intent intent' : TradeIntent} {force : Bool}
    (h : applyRules regExp ans intent = some (intent', force)) : intent'.amountIn = intent.amountIn := by
  unfold applyRules at h
  split at h
  · obtain ⟨rfl, -⟩ := Prod.mk.inj (Option.some.inj h)
    rfl
  · split at h
    · rename_i decision hcheck
      obtain ⟨-, hintent⟩ := Option.ite_none_right_eq_some.mp h
      obtain ⟨rfl, -⟩ := Prod.mk.inj (Option.some.inj hintent)
      obtain ⟨notionalUsd, -, hadjusted⟩ := check_intent hcheck
      rw [hadjusted]
    · cases h

theorem takeRoute_moved {strategyId : String} {force : Bool} {intent : TradeIntent} {amountIn : String}
    {notionalUsd : ℚ} (h : (takeRoute cfg now strategyId force intent).moved = some (amountIn, notionalUsd)) :
    amountIn = intent.amountIn := by
  unfold takeRoute at h
  split at h
  · cases h
  · split at h
    · exact (Prod.mk.inj (Option.some.inj h)).1.symm
    · exact (Prod.mk.inj (Option.some.inj h)).1.symm

/-- **The amount of the proposal.** Every route moves the amount that was proposed. -/
theorem runStrategy_moved {strategyId : String} {reply : LlmReply} {proposal : TradeIntent} {route : Route}
    {amountIn : String} {notionalUsd : ℚ} (hreply : ans.reply = some reply)
    (hproposal : proposeIntent reply = some proposal)
    (hroute : runStrategy regExp cfg now strategyId ans = some route)
    (hmoved : route.moved = some (amountIn, notionalUsd)) : amountIn = proposal.amountIn := by
  unfold runStrategy at hroute
  rw [hreply, Option.bind_eq_bind, Option.bind_some] at hroute
  obtain ⟨proposal', hproposal', hroute⟩ := Option.bind_eq_some_iff.mp hroute
  obtain rfl : proposal = proposal' := Option.some.inj (hproposal.symm.trans hproposal')
  obtain ⟨⟨intent, force⟩, hrules, hroute⟩ := Option.bind_eq_some_iff.mp hroute
  obtain ⟨-, hroute⟩ := Option.ite_none_right_eq_some.mp hroute
  obtain rfl := Option.some.inj hroute
  rw [takeRoute_moved hmoved, applyRules_amountIn hrules, clampToMax_amountIn]

/-- The strategy of a route is one that has proposed a trade. -/
theorem mem_runForUser {candidates : List UserStrategy} {answers : UserStrategy → StrategyAnswers}
    {s : UserStrategy} {route : Route} (h : (s, route) ∈ runForUser regExp cfg now candidates answers) :
    runStrategy regExp cfg now s.id (answers s) = some route := by
  unfold runForUser at h
  split at h
  · cases h
  · obtain ⟨s', -, hs⟩ := List.mem_filterMap.mp h
    obtain ⟨route', hroute, hpair⟩ := Option.map_eq_some_iff.mp hs
    obtain ⟨rfl, rfl⟩ := Prod.mk.inj hpair
    exact hroute

/-- **Clamped trades.** Where the notional of a proposal was lowered, the amount is lowered with it
only if there is nothing to be moved. -/
theorem clamped_iff {candidates : List UserStrategy} {answers : UserStrategy → StrategyAnswers}
    {s : UserStrategy} {route : Route} {reply : LlmReply} {proposal : TradeIntent} {amountIn : String}
    {notionalUsd : ℚ} (hreply : (answers s).reply = some reply)
    (hproposal : proposeIntent reply = some proposal)
    (hroute : (s, route) ∈ runForUser regExp cfg now candidates answers)
    (hmoved : route.moved = some (amountIn, notionalUsd)) (hlt : notionalUsd < proposal.notionalUsd) :
    ScaledDown proposal amountIn notionalUsd ↔ amountOf proposal.amountIn ≤ 0 := by
  have hpos := proposeIntent_pos hproposal
  rw [runStrategy_moved hreply hproposal (mem_runForUser hroute) hmoved]
  unfold ScaledDown
  rw [le_div_iff₀ hpos]
  constructor
  · intro hle
    by_contra hamount
    have hless := mul_lt_mul_of_pos_left hlt (not_le.mp hamount)
    linarith
  · intro hamount
    exact mul_le_mul_of_nonpos_left (le_of_lt hlt) hamount

/-! ## A clamped proposal -/

def sampleReply (amountIn : String) : LlmReply where
  action := "trade"
  chain := "SOLANA"
  tokenIn := "EPjFWdd5AufqSSqeM2qN1xzybapC8G4wEGGkZwyTDt1v"
  tokenOut := "DezXAZ8z7PnrnRJjz3wXBoRgixCa6xjnB7YaB1pPB263"
  amountIn
  notionalUsd := some 500
  slippageBps := some 100
  walletId := "w1"

def sampleTrader : TraderConfig where
  dailyLimit := 3
  userId := "u1"
  autonomyLevel := .FULL_AUTO
  maxTradeUsd := 100
  approvalRequired := false
  approvalTimeoutMin := 5

def sampleStrategy : UserStrategy := { id := "s1", score := 3 / 4 }

def sampleTurn (amountIn : String) : StrategyAnswers where
  reply := some (sampleReply amountIn)
  rules := some [⟨"r1", "at most $80 a trade", .max_size_usd 80 .trade⟩]
  utc := ⟨12, 3⟩
  guardrails _ := true
  concentration _ := true

/-- What the trader does with 500 USDC of a token, against a cap of 100 and a rule of 80. -/
def sampleRoute (amountIn : String) : Route :=
  .swap
    { userId := "u1"
      walletId := "w1"
      chain := .SOLANA
      tokenIn := "EPjFWdd5AufqSSqeM2qN1xzybapC8G4wEGGkZwyTDt1v"
      tokenOut := "DezXAZ8z7PnrnRJjz3wXBoRgixCa6xjnB7YaB1pPB263"
      amountIn
      notionalUsd := 80
      slippageBps := 100
      strategyId := some "s1" }

def sampleProposal (amountIn : String) : TradeIntent where
  chain := "SOLANA"
  tokenIn := "EPjFWdd5AufqSSqeM2qN1xzybapC8G4wEGGkZwyTDt1v"
  tokenOut := "DezXAZ8z7PnrnRJjz3wXBoRgixCa6xjnB7YaB1pPB263"
  amountIn
  notionalUsd := 500
  slippageBps := 100
  walletId := "w1"

theorem zero_proposal_scaledDown : (sampleStrategy, sampleRoute "0") ∈ runForUser (fun _ _ => .ok false)
    sampleTrader 0 [sampleStrategy] (fun _ => sampleTurn "0") ∧ ScaledDown (sampleProposal "0") "0" 80 := by
  have hroute : (sampleStrategy, sampleRoute "0") ∈ runForUser (fun _ _ => .ok false) sampleTrader 0
      [sampleStrategy] (fun _ => sampleTurn "0") := by decide +kernel
  have hproposal : proposeIntent (sampleReply "0") = some (sampleProposal "0") := by decide +kernel
  refine ⟨hroute, (clamped_iff rfl hproposal hroute rfl ?_).mpr ?_⟩
  · decide +kernel
  · decide +kernel

/-- A proposal of 500 USDC is lowered to 80 dollars, and 500 USDC are swapped. -/
theorem clamped_amount_kept : ¬ ∀ (regExp : RegExpTest) (cfg : TraderConfig) (now : ℤ)
    (candidates : List UserStrategy) (answers : UserStrategy → StrategyAnswers) (s : UserStrategy)
    (route : Route) (reply : LlmReply) (proposal : TradeIntent) (amountIn : String) (notionalUsd : ℚ),
    (answers s).reply = some reply → proposeIntent reply = some proposal →
      (s, route) ∈ runForUser regExp cfg now candidates answers →
        route.moved = some (amountIn, notionalUsd) → notionalUsd < proposal.notionalUsd →
          ScaledDown proposal amountIn notionalUsd := by
  intro h
  have hscaled := h (fun _ _ => .ok false) sampleTrader 0 [sampleStrategy] (fun _ => sampleTurn "500000000")
    sampleStrategy (sampleRoute "500000000") (sampleReply "500000000") (sampleProposal "500000000")
    "500000000" 80 rfl (by decide +kernel) (by decide +kernel) rfl (by decide +kernel)
  have hnot : ¬ ScaledDown (sampleProposal "500000000") "500000000" 80 := by
    unfold ScaledDown
    decide +kernel
  exact hnot hscaled

end SuperAi.Agents
