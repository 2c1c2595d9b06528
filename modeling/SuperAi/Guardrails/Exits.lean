import SuperAi.Guardrails.GuardrailsService
import SuperAi.Guardrails.LiveTradeGuard

/-! # Exits under the guardrails

The guard of live trades lets every sell through. The guardrails do not know the side of a trade: for a
sell they are asked about the quote token that it pays out, and its notional counts like that of a buy.
-/
namespace SuperAi.Guardrails
open SuperAi.Foundations SuperAi.Execution
set_option autoImplicit false

variable {row : Option GuardrailConfig} {trades : List TradeRecord} {s : GuardState} {input : SwapInput}

/-- The guardrail and live-trade checks of a LIVE `swap`. -/
def ChecksPass (row : Option GuardrailConfig) (trades : List TradeRecord) (s : GuardState) (input : SwapInput) :
    Prop :=
  check row trades s.clock (.ofSwap input) = .ok () ∧
    (s.checkLiveSwap input.userId input.notionalUsd (some (inferSwapSide input.tokenIn input.tokenOut))).1 = .passed

instance : Decidable (ChecksPass row trades s input) :=
  inferInstanceAs (Decidable (_ ∧ _))

/-- The limits leave room for the trade, whatever its side. -/
structure WithinLimits (cfg : GuardrailConfig) (used : ℚ) (input : SwapInput) : Prop where
  notBlacklisted : input.tokenOut ∉ cfg.blacklist
  whitelisted : cfg.whitelist = [] ∨ input.tokenOut ∈ cfg.whitelist
  perTrade : input.notionalUsd ≤ cfg.perTradeUsd
  daily : used + input.notionalUsd ≤ cfg.dailyUsd

theorem checkLiveSwap_sell (s : GuardState) (userId : String) (notionalUsd : ℚ) :
    s.checkLiveSwap userId notionalUsd (some .sell) = (.passed, s) := rfl

/-- **Exits.** With the kill switch off, a tolerated slippage and no honeypot flag, a sell passes the checks
exactly when it is within the token lists and the limits that are meant for buying. -/
theorem sell_checksPass_iff (row : Option GuardrailConfig) (trades : List TradeRecord) (s : GuardState)
    (input : SwapInput) (hkill : (config row).killSwitch = false)
    (hside : inferSwapSide input.tokenIn input.tokenOut = .sell)
    (hslippage : (input.slippageBps : ℤ) ≤ (config row).maxSlippageBps) (hflag : "HONEYPOT" ∉ input.riskFlags) :
    ChecksPass row trades s input ↔
      WithinLimits (config row) (usedSince trades input.userId (startOfDay s.clock)) input := by
  unfold ChecksPass
  rw [hside, checkLiveSwap_sell]
  constructor
  · rintro ⟨hok, -⟩
    obtain ⟨-, hblack, hwhite, hper, -, -, hday⟩ := GuardrailConfig.check_eq_ok.mp hok
    exact ⟨hblack, hwhite, hper, hday⟩
  · rintro ⟨hblack, hwhite, hper, hday⟩
    exact ⟨GuardrailConfig.check_eq_ok.mpr ⟨hkill, hblack, hwhite, hper, hslippage, hflag, hday⟩, rfl⟩

/-! ## Two sells -/

def sampleSell (notionalUsd : ℚ) : SwapInput where
  userId := "u1"
  walletId := "w1"
  chain := .SOLANA
  tokenIn := "DezXAZ8z7PnrnRJjz3wXBoRgixCa6xjnB7YaB1pPB263"
  tokenOut := "So11111111111111111111111111111111111111112"
  amountIn := "1000000"
  notionalUsd := notionalUsd
  slippageBps := 300

theorem sampleSell_checksPass : ChecksPass none [] { clock := 0 } (sampleSell 400) := by
  apply (sell_checksPass_iff none [] { clock := 0 } (sampleSell 400) rfl (by decide +kernel) ?_ ?_).mpr
  · exact ⟨by decide, .inl rfl, by decide +kernel, by decide +kernel⟩
  · decide
  · decide

/-- The token may be bought, and its whitelist then keeps the holder from selling it. -/
def tokenWhitelist : GuardrailConfig :=
  { maxSlippageBps := 5000, whitelist := ["DezXAZ8z7PnrnRJjz3wXBoRgixCa6xjnB7YaB1pPB263"] }

theorem whitelist_blocks_sell : ¬ ∀ (row : Option GuardrailConfig) (trades : List TradeRecord) (s : GuardState)
    (input : SwapInput), (config row).killSwitch = false →
    inferSwapSide input.tokenIn input.tokenOut = .sell →
    (input.slippageBps : ℤ) ≤ (config row).maxSlippageBps → "HONEYPOT" ∉ input.riskFlags →
    ChecksPass row trades s input := by
  intro h
  have hpass := h (some tokenWhitelist) [] { clock := 0 } (sampleSell 50) rfl (by decide +kernel) (by decide)
    (by decide)
  revert hpass
  decide +kernel

end SuperAi.Guardrails
