import SuperAi.Venues.NativePrice
import SuperAi.Execution.Swap

/-! # Buying in dollars (`venues/trade-router.service.ts`)

`TradeRouterService.buy` sizes a swap by the price of the native asset. At the price of last resort, which is below
the true price, the amount is too large: it stays within the dollars asked for exactly where they buy no more whole
base units at the constant than at the true price (`fallbackBuy_within_iff`).
-/
namespace SuperAi.Venues
open SuperAi.Auth SuperAi.Foundations SuperAi.Execution
set_option autoImplicit false

def EVM_NATIVE : String := "0xEeeeeEeeeEeEeeEeEeEeeEEEeeeeEeeeeeeeEEeE"

def SOL_MINT : String := "So11111111111111111111111111111111111111112"

def DEFAULT_SLIPPAGE_BPS : ℕ := 300

structure BuyRequest where
  userId : String
  chain : String
  token : String
  amountUsd : JsNumber
  slippageBps : Option ℕ := none
  walletId : Option String := none
  strategyId : Option String := none

/-- The columns that the choice of a wallet reads. -/
structure WalletRow where
  id : String
  userId : String
  chain : Chain
  deriving DecidableEq, Repr

structure RoutedSwap extends SwapInput where
  evmChainId : Option ℕ

structure SwapResult where
  tradeId : String
  txHash : Option String
  amountOut : String
  mode : TradeMode
  deriving DecidableEq, Repr

structure BuyResult extends SwapResult where
  chain : String
  explorerUrl : Option String
  deriving DecidableEq, Repr

/-- `wallets` are in the order in which they were created. `div` is the quotient of two doubles as it is printed, and
none where it is not finite. -/
structure Router where
  wallets : List WalletRow
  exec : Option (RoutedSwap → Except String SwapResult)
  div : JsNumber → JsNumber → Option JsNumber

/-- What `buy` answers, and the swap that it asked for. -/
structure Bought where
  answer : Except String BuyResult
  submitted : Option RoutedSwap

def requireChain (chain : String) : Except String ChainSpec :=
  match resolveChain chain with
  | some spec => .ok spec
  | none => .error
      ("Unsupported network '" ++ chain ++ "'. Call GET /api/venues/networks for the supported list.")

def familyName : Chain → String
  | .SOLANA => "SOLANA"
  | .EVM => "EVM"

def walletFor (wallets : List WalletRow) (userId : String) (spec : ChainSpec) (walletId : Option String) :
    Except String WalletRow :=
  let wallet :=
    match walletId with
    | some id =>
      if id = "" then wallets.find? fun w => w.userId == userId && w.chain == spec.family
      else wallets.find? fun w => w.id == id && w.userId == userId
    | none => wallets.find? fun w => w.userId == userId && w.chain == spec.family
  match wallet with
  | some wallet => .ok wallet
  | none => .error
      ("No " ++ familyName spec.family ++ " wallet found — create one before trading on " ++ spec.displayName)

/-- The swap of an order that has its wallet and its price. -/
def swapFor (router : Router) (spec : ChainSpec) (wallet : WalletRow) (nativeUsd : JsNumber) (req : BuyRequest) :
    Except String RoutedSwap :=
  let nativeAmount := router.div req.amountUsd nativeUsd
  let amountIn := toBaseUnits nativeAmount spec.nativeDecimals
  if amountIn = ['0'] then
    .error ("$" ++ String.ofList req.amountUsd.text ++ " is below the minimum tradable size on " ++ spec.displayName)
  else
    .ok
      { userId := req.userId
        walletId := wallet.id
        chain := spec.family
        evmChainId := spec.evmChainId
        tokenIn := if spec.family = .SOLANA then SOL_MINT else EVM_NATIVE
        tokenOut := req.token
        amountIn := String.ofList amountIn
        notionalUsd := req.amountUsd.toRat
        slippageBps := req.slippageBps.getD DEFAULT_SLIPPAGE_BPS
        strategyId := req.strategyId }

/-- `nativeUsd` is the answer of `priceFor`. -/
def buy (router : Router) (nativeUsd : JsNumber) (req : BuyRequest) : Bought :=
  match requireChain req.chain with
  | .error e => ⟨.error e, none⟩
  | .ok spec =>
    match router.exec with
    | none => ⟨.error "Execution service unavailable", none⟩
    | some swap =>
      if !isPositive req.amountUsd then ⟨.error "amountUsd must be positive", none⟩
      else
        match walletFor router.wallets req.userId spec req.walletId with
        | .error e => ⟨.error e, none⟩
        | .ok wallet =>
          match swapFor router spec wallet nativeUsd req with
          | .error e => ⟨.error e, none⟩
          | .ok input =>
            match swap input with
            | .error e => ⟨.error e, some input⟩
            | .ok result =>
              ⟨.ok { result with chain := spec.key, explorerUrl := result.txHash.map spec.explorerTxUrl }, some input⟩

/-- What an amount in base units of the native asset is worth. -/
def worth (spec : ChainSpec) (amountIn : String) (price : ℚ) : ℚ :=
  unitsNat amountIn.toList / 10 ^ spec.nativeDecimals * price

/-- How many whole base units an amount of the native asset has. -/
def baseUnits (spec : ChainSpec) (amount : ℚ) : ℕ := ⌊amount * 10 ^ spec.nativeDecimals⌋₊

/-! ## What is submitted -/

/-- A swap is asked for with a positive amount, and with the base units of the quotient. -/
theorem submitted_spec {router : Router} {nativeUsd : JsNumber} {req : BuyRequest} {spec : ChainSpec} {input : RoutedSwap}
    (hchain : resolveChain req.chain = some spec) (h : (buy router nativeUsd req).submitted = some input) :
    0 < req.amountUsd.toRat ∧ ∃ amount, router.div req.amountUsd nativeUsd = some amount ∧ 0 < amount.toRat ∧
      unitsNat input.amountIn.toList = baseUnits spec amount.toRat := by
  have hswap : 0 < req.amountUsd.toRat ∧ ∃ wallet, swapFor router spec wallet nativeUsd req = .ok input := by
    simp only [buy, requireChain, hchain] at h
    split at h
    · cases h
    · split at h
      · cases h
      · rename_i hpositive
        split at h
        · cases h
        · rename_i wallet _
          have hpos : 0 < req.amountUsd.toRat := (isPositive_iff _).mp (by simpa using hpositive)
          split at h
          · cases h
          · rename_i input' hinput
            split at h
            · exact ⟨hpos, wallet, Option.some.inj h ▸ hinput⟩
            · exact ⟨hpos, wallet, Option.some.inj h ▸ hinput⟩
  obtain ⟨hpos, wallet, hok⟩ := hswap
  refine ⟨hpos, ?_⟩
  unfold swapFor at hok
  dsimp only at hok
  by_cases hzero : toBaseUnits (router.div req.amountUsd nativeUsd) spec.nativeDecimals = ['0']
  · rw [if_pos hzero] at hok
    cases hok
  · rw [if_neg hzero] at hok
    obtain rfl := Except.ok.inj hok
    cases hdiv : router.div req.amountUsd nativeUsd with
    | none =>
      rw [hdiv] at hzero
      exact absurd rfl hzero
    | some amount =>
      have hamount : 0 < amount.toRat := by
        apply (isPositive_iff amount).mp
        by_contra hneg
        apply hzero
        rw [hdiv, toBaseUnits, if_pos (by simpa using hneg)]
      refine ⟨amount, rfl, hamount, ?_⟩
      rw [String.toList_ofList, toBaseUnits_of_pos hamount, unitsNat, Nat.ofDigitChars_ten_toDigits, baseUnits]

/-- A buy of at least one base unit is submitted. -/
theorem submitted_of_units {router : Router} {nativeUsd amount : JsNumber} {req : BuyRequest} {spec : ChainSpec}
    {wallet : WalletRow} (hchain : resolveChain req.chain = some spec) (hexec : router.exec.isSome = true)
    (husd : 0 < req.amountUsd.toRat) (hwallet : walletFor router.wallets req.userId spec req.walletId = .ok wallet)
    (hdiv : router.div req.amountUsd nativeUsd = some amount) (hunits : 0 < baseUnits spec amount.toRat) :
    ∃ input, (buy router nativeUsd req).submitted = some input := by
  obtain ⟨swap, hswap⟩ := Option.isSome_iff_exists.mp hexec
  have hamount : 0 < amount.toRat := by
    have hone := Nat.one_le_iff_ne_zero.mpr hunits.ne'
    rw [baseUnits, Nat.one_le_floor_iff] at hone
    by_contra hneg
    have : amount.toRat * 10 ^ spec.nativeDecimals ≤ 0 := mul_nonpos_of_nonpos_of_nonneg (not_lt.mp hneg) (by positivity)
    linarith
  have hne : toBaseUnits (some amount) spec.nativeDecimals ≠ ['0'] := by
    intro heq
    rw [toBaseUnits_of_pos hamount] at heq
    have hvalue := congrArg unitsNat heq
    rw [unitsNat, Nat.ofDigitChars_ten_toDigits] at hvalue
    exact hunits.ne' hvalue
  obtain ⟨input, hinput⟩ : ∃ input, swapFor router spec wallet nativeUsd req = .ok input := by
    unfold swapFor
    dsimp only
    rw [hdiv, if_neg hne]
    exact ⟨_, rfl⟩
  refine ⟨input, ?_⟩
  simp only [buy, requireChain, hchain, hswap, (isPositive_iff _).mpr husd, hwallet, hinput, Bool.not_true,
    Bool.false_eq_true, if_false]
  split
  · rfl
  · rfl

/-- An amount in base units is worth at most these dollars, if the dollars buy as many. -/
theorem worth_le_iff {spec : ChainSpec} {amountIn : String} {price usd : ℚ} (hprice : 0 < price) (husd : 0 ≤ usd) :
    worth spec amountIn price ≤ usd ↔ unitsNat amountIn.toList ≤ baseUnits spec (usd / price) := by
  have hten : (0 : ℚ) < 10 ^ spec.nativeDecimals := by positivity
  rw [worth, baseUnits, Nat.le_floor_iff (by positivity), ← le_div_iff₀ hprice, div_le_iff₀ hten]

/-- **Buying at the price of last resort.** In a run of the price service that only falls back, every call is answered
with the constant, and the swap that a buy then asks for is worth at most the dollars asked for, at a true price no
lower than the constant, exactly if the quotient by the constant has no more whole base units than the dollars buy. -/
theorem fallbackBuy_within_iff {t s : PriceState} (ht : t.calls = []) {es : List PriceEvent} {router : Router}
    {req : BuyRequest} {spec : ChainSpec} {nativeUsd : JsNumber} {input : RoutedSwap} {price : ℚ}
    (hrun : priceService.GuardedRun (FallsBack spec.nativeSymbol) t es s)
    (hcall : .priced spec.nativeSymbol nativeUsd ∈ s.calls) (hchain : resolveChain req.chain = some spec)
    (hprice : (fallbackUsd spec.nativeSymbol).toRat ≤ price)
    (hsubmitted : (buy router nativeUsd req).submitted = some input) :
    worth spec input.amountIn price ≤ req.amountUsd.toRat ↔
      ∀ amount ∈ router.div req.amountUsd (fallbackUsd spec.nativeSymbol),
        baseUnits spec amount.toRat ≤ baseUnits spec (req.amountUsd.toRat / price) := by
  obtain rfl := priced_fallback ht hrun hcall
  obtain ⟨husd, amount, hdiv, -, hunits⟩ := submitted_spec hchain hsubmitted
  rw [worth_le_iff ((fallbackUsd_pos _).trans_le hprice) husd.le, hunits, hdiv]
  simp

/-- At a price no lower than the true one, and a quotient that is not rounded up, the swap stays within the dollars. -/
theorem buy_within_of_high {router : Router} {nativeUsd : JsNumber} {req : BuyRequest} {spec : ChainSpec}
    {input : RoutedSwap} {price : ℚ} (hchain : resolveChain req.chain = some spec) (hpos : 0 < price)
    (hprice : price ≤ nativeUsd.toRat)
    (hdown : ∀ amount ∈ router.div req.amountUsd nativeUsd, amount.toRat ≤ req.amountUsd.toRat / nativeUsd.toRat)
    (hsubmitted : (buy router nativeUsd req).submitted = some input) :
    worth spec input.amountIn price ≤ req.amountUsd.toRat := by
  obtain ⟨husd, amount, hdiv, -, hunits⟩ := submitted_spec hchain hsubmitted
  rw [worth_le_iff hpos husd.le, hunits]
  have hquotient : req.amountUsd.toRat / nativeUsd.toRat ≤ req.amountUsd.toRat / price :=
    div_le_div_of_nonneg_left husd.le hpos hprice
  have hamount := (hdown amount hdiv).trans hquotient
  exact Nat.floor_le_floor (by gcongr)

/-! ## An outage -/

/-- The quotient cut to fifteen places. -/
def quotient (a b : JsNumber) : Option JsNumber :=
  let digits := natDigits ⌊a.toRat / b.toRat * 10 ^ 15⌋₊
  some (.ofDigits false digits (digits.length - 15))

theorem quotient_toRat {a b : JsNumber} {n : ℕ} (h : a.toRat / b.toRat * 10 ^ 15 = n) :
    ∃ amount, quotient a b = some amount ∧ amount.toRat = n / 10 ^ 15 := by
  refine ⟨_, rfl, ?_⟩
  rw [JsNumber.toRat_ofDigits, h, Nat.floor_natCast, digitsNat_natDigits]
  simp only [Bool.false_eq_true, if_false, one_mul]
  rw [show ((natDigits n).length : ℤ) - 15 - (natDigits n).length = -15 by ring]
  norm_num [div_eq_mul_inv]

def annsRouter : Router where
  wallets := [{ id := "w1", userId := "ann", chain := .EVM }]
  exec := some fun _ => .error "slippage"
  div := quotient

def hundredDollars : BuyRequest where
  userId := "ann"
  chain := "ethereum"
  token := "0xT"
  amountUsd := .ofInt 100

/-- Neither source answers. -/
def outage : List PriceEvent := [.priceFor ethereum 0, .fetched "ETH" ⟨.failed, .notOk⟩ 1000]

theorem run_outage : ∃ s, priceService.GuardedRun (FallsBack "ETH") {} outage s ∧
    .priced "ETH" (fallbackUsd "ETH") ∈ s.calls := by
  have hfallback : fetchPrice ethereum ⟨.failed, .notOk⟩ = fallbackUsd "ETH" :=
    fetchPrice_of_noLivePrice ⟨rfl, rfl⟩
  refine ⟨_, .cons ?_ rfl (.cons ?_ rfl (.nil _)), ?_⟩
  · intro _ usd husd
    cases husd
  · rintro - spec hspec
    obtain rfl : ethereum = spec := Option.some.inj hspec
    exact ⟨rfl, rfl, rfl⟩
  · rw [← hfallback]
    exact List.mem_singleton.mpr rfl

theorem fallbackUsd_eth : (fallbackUsd "ETH").toRat = 2000 := by
  rw [show fallbackUsd "ETH" = .ofInt 2000 from rfl]
  simp

/-- A twentieth of an ether is submitted. -/
theorem hundredDollars_submitted : ∃ input, (buy annsRouter (fallbackUsd "ETH") hundredDollars).submitted = some input ∧
    unitsNat input.amountIn.toList = 50000000000000000 ∧
    ∃ amount, annsRouter.div hundredDollars.amountUsd (fallbackUsd "ETH") = some amount ∧ amount.toRat = 1 / 20 := by
  have husd : hundredDollars.amountUsd.toRat = 100 := by simp [hundredDollars]
  have hchain : resolveChain hundredDollars.chain = some ethereum := by decide +kernel
  obtain ⟨amount, hdiv, hamount⟩ := quotient_toRat (a := hundredDollars.amountUsd) (b := fallbackUsd "ETH")
    (n := 50000000000000) (by rw [husd, fallbackUsd_eth]; norm_num)
  have htwentieth : amount.toRat = 1 / 20 := by
    rw [hamount]
    norm_num
  have hunits : baseUnits ethereum amount.toRat = 50000000000000000 := by
    rw [baseUnits, htwentieth, show (1 / 20 * 10 ^ ethereum.nativeDecimals : ℚ) = (50000000000000000 : ℕ) by
      norm_num [ethereum], Nat.floor_natCast]
  have hwallet : walletFor annsRouter.wallets hundredDollars.userId ethereum hundredDollars.walletId =
      .ok ⟨"w1", "ann", .EVM⟩ := rfl
  obtain ⟨input, hinput⟩ := submitted_of_units hchain rfl (by rw [husd]; norm_num) hwallet hdiv
    (by rw [hunits]; norm_num)
  obtain ⟨-, amount', hdiv', -, hspec⟩ := submitted_spec hchain hinput
  obtain rfl : amount = amount' := Option.some.inj (hdiv.symm.trans hdiv')
  exact ⟨input, hinput, hspec.trans hunits, amount, hdiv, htwentieth⟩

/-- Where ether costs 2000 dollars, the constant is right. -/
theorem hundredDollars_within : ∃ s input, priceService.GuardedRun (FallsBack "ETH") {} outage s ∧
    (buy annsRouter (fallbackUsd "ETH") hundredDollars).submitted = some input ∧
    worth ethereum input.amountIn 2000 ≤ hundredDollars.amountUsd.toRat := by
  obtain ⟨s, hrun, hcall⟩ := run_outage
  obtain ⟨input, hinput, -, amount, hdiv, hamount⟩ := hundredDollars_submitted
  have hchain : resolveChain hundredDollars.chain = some ethereum := by decide +kernel
  refine ⟨s, input, hrun, hinput, ?_⟩
  refine (fallbackBuy_within_iff rfl (show priceService.GuardedRun (FallsBack ethereum.nativeSymbol) {} outage s from hrun)
    hcall hchain (le_of_eq fallbackUsd_eth) hinput).mpr ?_
  intro amount' hamount'
  obtain rfl : amount = amount' := Option.some.inj (hdiv.symm.trans hamount')
  rw [hamount]
  apply le_of_eq
  simp [hundredDollars, baseUnits]
  norm_num

/-- Where it costs 4000, the swap of a hundred dollars is worth two hundred. -/
theorem hundredDollars_doubled : ∃ s input, priceService.GuardedRun (FallsBack "ETH") {} outage s ∧
    .priced "ETH" (fallbackUsd "ETH") ∈ s.calls ∧ resolveChain hundredDollars.chain = some ethereum ∧
    (fallbackUsd "ETH").toRat ≤ 4000 ∧
    (buy annsRouter (fallbackUsd "ETH") hundredDollars).submitted = some input ∧
    ¬ worth ethereum input.amountIn 4000 ≤ hundredDollars.amountUsd.toRat := by
  obtain ⟨s, hrun, hcall⟩ := run_outage
  obtain ⟨input, hinput, hunits, -⟩ := hundredDollars_submitted
  refine ⟨s, input, hrun, hcall, by decide +kernel, by rw [fallbackUsd_eth]; norm_num, hinput, ?_⟩
  rw [worth, hunits]
  norm_num [ethereum, hundredDollars]

end SuperAi.Venues
