import SuperAi.Venues.BaseUnits
import SuperAi.Venues.ChainRegistry
import SuperAi.Foundations.KeyValue
import SuperAi.Foundations.StepSystem

/-! # Price of the native asset (`venues/native-price.service.ts`)

A call of `priceFor` is answered from the cache, or waits for the one request that is under way for its symbol. An
event is a call up to its first wait, or the end of a request, which settles everything that waits for it.
-/
namespace SuperAi.Venues
open SuperAi.Foundations
set_option autoImplicit false

def CACHE_TTL_MS : ℤ := 30000

def FALLBACK_USD : KeyValue String JsNumber :=
  [("SOL", .ofInt 120), ("ETH", .ofInt 2000), ("BNB", .ofInt 500), ("POL", .ofDigits false (natDigits 3) 0),
    ("AVAX", .ofInt 20)]

def CG_IDS : KeyValue String String :=
  [("SOL", "solana"), ("ETH", "ethereum"), ("BNB", "binancecoin"), ("POL", "matic-network"), ("AVAX", "avalanche-2")]

/-- `FALLBACK_USD[symbol] ?? 1`. -/
def fallbackUsd (symbol : String) : JsNumber := (FALLBACK_USD.get symbol).getD (.ofInt 1)

/-! ## Sources -/

/-- How a request ends; `failed` is one that throws. -/
inductive Fetched (α : Type)
  | failed
  | notOk
  | body (value : α)

/-- `priceUsd` is what `Number` makes of the field, and none where that is not finite. -/
structure DexPair where
  liquidityUsd : Option JsNumber
  priceUsd : Option JsNumber

/-- `coinGecko` has the prices by id. -/
structure Upstream where
  dexScreener : Fetched (List DexPair)
  coinGecko : Fetched (KeyValue String JsNumber)

def DexPair.depth (pair : DexPair) : ℚ := (pair.liquidityUsd.getD .zero).toRat

def dexScreenerPrice (upstream : Upstream) : Option JsNumber :=
  match upstream.dexScreener with
  | .body pairs => (pairs.mergeSort fun a b => decide (b.depth ≤ a.depth)).head?.bind DexPair.priceUsd
  | .failed | .notOk => none

def coinGeckoPrice (upstream : Upstream) (symbol : String) : Option JsNumber :=
  (CG_IDS.get symbol).bind fun id =>
    match upstream.coinGecko with
    | .body prices => prices.get id
    | .failed | .notOk => none

/-- `plausible`. -/
def isPlausible (v : Option JsNumber) (fallback : JsNumber) : Bool :=
  match v with
  | none => false
  | some v => isPositive v && decide (v.toRat < fallback.toRat * 20) && decide (fallback.toRat / 20 < v.toRat)

def fetchPrice (spec : ChainSpec) (upstream : Upstream) : JsNumber :=
  let fallback := fallbackUsd spec.nativeSymbol
  let fromDex := dexScreenerPrice upstream
  if isPlausible fromDex fallback then fromDex.getD fallback
  else
    let fromCg := coinGeckoPrice upstream spec.nativeSymbol
    if isPlausible fromCg fallback then fromCg.getD fallback else fallback

/-! ## The service -/

structure Entry where
  usd : JsNumber
  fetchedAt : ℤ

inductive PriceCall
  | waiting (symbol : String)
  | priced (symbol : String) (usd : JsNumber)
  deriving DecidableEq

/-- `inflight` has the chain whose call sent the request. -/
structure PriceState where
  cache : KeyValue String Entry := []
  inflight : KeyValue String ChainSpec := []
  calls : List PriceCall := []

inductive PriceEvent
  | priceFor (spec : ChainSpec) (now : ℤ)
  | fetched (symbol : String) (upstream : Upstream) (now : ℤ)

/-- What the cache answers at this time. -/
def PriceState.hit (s : PriceState) (symbol : String) (now : ℤ) : Option JsNumber :=
  (s.cache.get symbol).bind fun entry => if now - entry.fetchedAt < CACHE_TTL_MS then some entry.usd else none

def PriceCall.settle (symbol : String) (usd : JsNumber) : PriceCall → PriceCall
  | .waiting symbol' => if symbol' = symbol then .priced symbol usd else .waiting symbol'
  | .priced symbol' usd' => .priced symbol' usd'

def PriceState.step (s : PriceState) : PriceEvent → Option PriceState
  | .priceFor spec now =>
    match s.hit spec.nativeSymbol now with
    | some usd => some { s with calls := s.calls ++ [.priced spec.nativeSymbol usd] }
    | none =>
      match s.inflight.get spec.nativeSymbol with
      | some _ => some { s with calls := s.calls ++ [.waiting spec.nativeSymbol] }
      | none => some
          { s with
            inflight := s.inflight.set spec.nativeSymbol spec
            calls := s.calls ++ [.waiting spec.nativeSymbol] }
  | .fetched symbol upstream now =>
    match s.inflight.get symbol with
    | none => none
    | some spec =>
      let usd := fetchPrice spec upstream
      some
        { cache := s.cache.set symbol ⟨usd, now⟩
          inflight := s.inflight.del symbol
          calls := s.calls.map (PriceCall.settle symbol usd) }

def priceService : StepSystem PriceState PriceEvent := ⟨PriceState.step⟩

/-! ## Steps -/

/-- A step adds a call, which the cache answers or which waits, or settles the calls that wait for a request. -/
theorem step_cases {s s' : PriceState} {e : PriceEvent} (h : priceService.step s e = some s') :
    (∃ spec now usd, e = .priceFor spec now ∧ s.hit spec.nativeSymbol now = some usd ∧ s'.cache = s.cache ∧
      s'.inflight = s.inflight ∧ s'.calls = s.calls ++ [.priced spec.nativeSymbol usd]) ∨
    (∃ spec now, e = .priceFor spec now ∧ s.hit spec.nativeSymbol now = none ∧ s'.cache = s.cache ∧
      (s'.inflight = s.inflight ∨ s'.inflight = s.inflight.set spec.nativeSymbol spec) ∧
      s'.calls = s.calls ++ [.waiting spec.nativeSymbol]) ∨
    ∃ symbol upstream now spec, e = .fetched symbol upstream now ∧ s.inflight.get symbol = some spec ∧
      s'.cache = s.cache.set symbol ⟨fetchPrice spec upstream, now⟩ ∧ s'.inflight = s.inflight.del symbol ∧
      s'.calls = s.calls.map (PriceCall.settle symbol (fetchPrice spec upstream)) := by
  cases e with
  | priceFor spec now =>
    simp only [priceService, PriceState.step] at h
    split at h
    · rename_i usd hhit
      obtain rfl := Option.some.inj h
      exact .inl ⟨spec, now, usd, rfl, hhit, rfl, rfl, rfl⟩
    · rename_i hhit
      split at h
      · obtain rfl := Option.some.inj h
        exact .inr (.inl ⟨spec, now, rfl, hhit, rfl, .inl rfl, rfl⟩)
      · obtain rfl := Option.some.inj h
        exact .inr (.inl ⟨spec, now, rfl, hhit, rfl, .inr rfl, rfl⟩)
  | fetched symbol upstream now =>
    simp only [priceService, PriceState.step] at h
    split at h
    · cases h
    · rename_i spec hget
      obtain rfl := Option.some.inj h
      exact .inr (.inr ⟨symbol, upstream, now, spec, rfl, hget, rfl, rfl, rfl⟩)

theorem mem_settle {symbol symbol' : String} {usd usd' : JsNumber} {calls : List PriceCall}
    (h : .priced symbol' usd' ∈ calls.map (PriceCall.settle symbol usd)) :
    .priced symbol' usd' ∈ calls ∨ symbol' = symbol ∧ usd' = usd := by
  obtain ⟨call, hmem, hcall⟩ := List.mem_map.mp h
  cases call with
  | waiting symbol'' =>
    rw [PriceCall.settle] at hcall
    split at hcall
    · cases hcall
      exact .inr ⟨rfl, rfl⟩
    · cases hcall
  | priced symbol'' usd'' =>
    rw [PriceCall.settle] at hcall
    exact .inl (hcall ▸ hmem)

/-! ## The band -/

/-- The price is within a factor of 20 of the constant. -/
def InBand (symbol : String) (usd : JsNumber) : Prop :=
  usd.toRat < (fallbackUsd symbol).toRat * 20 ∧ (fallbackUsd symbol).toRat / 20 < usd.toRat

theorem fallbackUsd_pos (symbol : String) : 0 < (fallbackUsd symbol).toRat := by
  unfold fallbackUsd
  cases hget : FALLBACK_USD.get symbol with
  | none => simp
  | some usd =>
    have hlength : (natDigits 3).length = 1 := by simp [natDigits]
    have hmem := KeyValue.mem_of_get hget
    simp only [FALLBACK_USD, List.mem_cons, List.not_mem_nil, or_false, Prod.mk.injEq] at hmem
    obtain ⟨-, rfl⟩ | ⟨-, rfl⟩ | ⟨-, rfl⟩ | ⟨-, rfl⟩ | ⟨-, rfl⟩ := hmem
    · simp
    · simp
    · simp
    · rw [Option.getD_some, JsNumber.toRat_ofDigits, digitsNat_natDigits, hlength]
      norm_num
    · simp

theorem inBand_of_isPlausible {v : Option JsNumber} {symbol : String} (h : isPlausible v (fallbackUsd symbol) = true) :
    InBand symbol (v.getD (fallbackUsd symbol)) := by
  cases v with
  | none => cases h
  | some v =>
    simp only [isPlausible, Bool.and_eq_true, decide_eq_true_eq] at h
    exact ⟨h.1.2, h.2⟩

theorem fetchPrice_inBand (spec : ChainSpec) (upstream : Upstream) :
    InBand spec.nativeSymbol (fetchPrice spec upstream) := by
  have hpos := fallbackUsd_pos spec.nativeSymbol
  unfold fetchPrice
  dsimp only
  by_cases hdex : isPlausible (dexScreenerPrice upstream) (fallbackUsd spec.nativeSymbol) = true
  · rw [if_pos hdex]
    exact inBand_of_isPlausible hdex
  · rw [if_neg hdex]
    by_cases hcg : isPlausible (coinGeckoPrice upstream spec.nativeSymbol) (fallbackUsd spec.nativeSymbol) = true
    · rw [if_pos hcg]
      exact inBand_of_isPlausible hcg
    · rw [if_neg hcg]
      constructor
      · linarith
      · linarith

/-- What is cached, and every price that was answered, is in the band of its symbol; a request is under its symbol. -/
structure Banded (s : PriceState) : Prop where
  cache : ∀ symbol entry, s.cache.get symbol = some entry → InBand symbol entry.usd
  inflight : ∀ symbol spec, s.inflight.get symbol = some spec → spec.nativeSymbol = symbol
  calls : ∀ symbol usd, .priced symbol usd ∈ s.calls → InBand symbol usd

theorem banded_step {s s' : PriceState} {e : PriceEvent} (hs : Banded s) (h : priceService.step s e = some s') :
    Banded s' := by
  obtain ⟨spec, now, usd, -, hhit, hcache, hinflight, hcalls⟩ | ⟨spec, now, -, -, hcache, hinflight, hcalls⟩ |
    ⟨symbol, upstream, now, spec, -, hget, hcache, hinflight, hcalls⟩ := step_cases h
  · refine ⟨hcache ▸ hs.cache, hinflight ▸ hs.inflight, ?_⟩
    intro symbol usd' hmem
    rw [hcalls, List.mem_append, List.mem_singleton] at hmem
    obtain hold | hnew := hmem
    · exact hs.calls symbol usd' hold
    · cases hnew
      obtain ⟨entry, hentry, hfresh⟩ := Option.bind_eq_some_iff.mp hhit
      split at hfresh
      · exact Option.some.inj hfresh ▸ hs.cache _ entry hentry
      · cases hfresh
  · refine ⟨hcache ▸ hs.cache, ?_, ?_⟩
    · obtain hsame | hset := hinflight
      · rw [hsame]
        exact hs.inflight
      · rw [hset]
        exact KeyValue.forall_get_set hs.inflight rfl
    · intro symbol usd hmem
      rw [hcalls, List.mem_append, List.mem_singleton] at hmem
      obtain hold | hnew := hmem
      · exact hs.calls symbol usd hold
      · cases hnew
  · obtain rfl := hs.inflight symbol spec hget
    refine ⟨?_, ?_, ?_⟩
    · rw [hcache]
      exact KeyValue.forall_get_set hs.cache (fetchPrice_inBand spec upstream)
    · rw [hinflight]
      exact KeyValue.forall_get_del hs.inflight spec.nativeSymbol
    · intro symbol' usd hmem
      rw [hcalls] at hmem
      obtain hold | ⟨rfl, rfl⟩ := mem_settle hmem
      · exact hs.calls symbol' usd hold
      · exact fetchPrice_inBand spec upstream

/-- In every run, whatever the sources answer, a price is within a factor of 20 of its constant. -/
theorem prices_inBand {es : List PriceEvent} {s : PriceState} (h : priceService.run {} es = some s) {symbol : String}
    {usd : JsNumber} (hcall : .priced symbol usd ∈ s.calls) : InBand symbol usd := by
  have hempty : Banded {} := by
    refine ⟨?_, ?_, ?_⟩
    · intro symbol entry hget
      cases hget
    · intro symbol spec hget
      cases hget
    · intro symbol usd hmem
      cases hmem
  have hbanded : Banded s :=
    (StepSystem.GuardedRun.of_run h).invariant (fun _ _ _ hs _ hstep => banded_step hs hstep) hempty
  exact hbanded.calls symbol usd hcall

/-! ## Falling back -/

/-- Neither source has a plausible price. -/
def NoLivePrice (spec : ChainSpec) (upstream : Upstream) : Prop :=
  isPlausible (dexScreenerPrice upstream) (fallbackUsd spec.nativeSymbol) = false ∧
    isPlausible (coinGeckoPrice upstream spec.nativeSymbol) (fallbackUsd spec.nativeSymbol) = false

instance (spec : ChainSpec) (upstream : Upstream) : Decidable (NoLivePrice spec upstream) := instDecidableAnd

theorem fetchPrice_of_noLivePrice {spec : ChainSpec} {upstream : Upstream} (h : NoLivePrice spec upstream) :
    fetchPrice spec upstream = fallbackUsd spec.nativeSymbol := by
  unfold fetchPrice
  dsimp only
  rw [if_neg (Bool.not_eq_true _ ▸ h.1), if_neg (Bool.not_eq_true _ ▸ h.2)]

/-- The event gives nothing but the constant for this symbol: its cached price has run out or is the constant, and a
request for it ends without a live price. -/
def FallsBack (symbol : String) (s : PriceState) : PriceEvent → Prop
  | .priceFor spec now => spec.nativeSymbol = symbol → ∀ usd ∈ s.hit symbol now, usd = fallbackUsd symbol
  | .fetched symbol' upstream _ =>
    symbol' = symbol → ∀ spec ∈ s.inflight.get symbol, spec.nativeSymbol = symbol ∧ NoLivePrice spec upstream

/-- Where every event falls back, every call for the symbol is answered with the constant. -/
theorem priced_fallback {symbol : String} {es : List PriceEvent} {t s : PriceState} (ht : t.calls = [])
    (h : priceService.GuardedRun (FallsBack symbol) t es s) {usd : JsNumber} (hcall : .priced symbol usd ∈ s.calls) :
    usd = fallbackUsd symbol := by
  have hstep : ∀ s e s', (∀ usd, .priced symbol usd ∈ s.calls → usd = fallbackUsd symbol) → FallsBack symbol s e →
      priceService.step s e = some s' → ∀ usd, .priced symbol usd ∈ s'.calls → usd = fallbackUsd symbol := by
    intro s e s' hs hguard hstep usd hmem
    obtain ⟨spec, now, usd', rfl, hhit, -, -, hcalls⟩ | ⟨spec, now, -, -, -, -, hcalls⟩ |
      ⟨symbol', upstream, now, spec, rfl, hget, -, -, hcalls⟩ := step_cases hstep
    · rw [hcalls, List.mem_append, List.mem_singleton] at hmem
      obtain hold | hnew := hmem
      · exact hs usd hold
      · cases hnew
        exact hguard rfl usd hhit
    · rw [hcalls, List.mem_append, List.mem_singleton] at hmem
      obtain hold | hnew := hmem
      · exact hs usd hold
      · cases hnew
    · rw [hcalls] at hmem
      obtain hold | ⟨rfl, rfl⟩ := mem_settle hmem
      · exact hs usd hold
      · obtain ⟨hsymbol, hlive⟩ := hguard rfl spec hget
        rw [fetchPrice_of_noLivePrice hlive, hsymbol]
  exact h.invariant hstep (by simp [ht]) usd hcall

end SuperAi.Venues
