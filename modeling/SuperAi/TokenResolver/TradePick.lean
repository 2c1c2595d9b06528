import SuperAi.TokenResolver.TokenResolverService

/-! # The token that a trade takes

`resolveForTrade` compares the top candidate with the one ranked second. The ranking is by tier and score, a rival
is one by liquidity, so that a rival may stand further down the list.
-/
namespace SuperAi.TokenResolver
open SuperAi.Auth SuperAi.Common
set_option autoImplicit false

/-- `c` is a candidate that makes the choice of `t` ambiguous. -/
def Rivals (t c : ResolvedToken) : Prop :=
  c.matchTier = t.matchTier ∧ TRADE_MIN_LIQUIDITY_USD ≤ liquidity c ∧
    liquidity t < TRADE_DOMINANCE_RATIO * liquidity c

instance (t c : ResolvedToken) : Decidable (Rivals t c) := inferInstanceAs (Decidable (_ ∧ _ ∧ _))

/-- `t` may be traded without asking. -/
def SafePick (r : ResolveResult) (t : ResolvedToken) : Prop :=
  TRADE_MIN_LIQUIDITY_USD ≤ liquidity t ∧ ∀ c ∈ r.candidates.tail, ¬ Rivals t c

instance (r : ResolveResult) (t : ResolvedToken) : Decidable (SafePick r t) := inferInstanceAs (Decidable (_ ∧ _))

/-- When a top candidate deep enough has a rival, the second candidate is one. -/
def RivalIsSecond (r : ResolveResult) : Prop :=
  ∀ top second rest, r.candidates = top :: second :: rest → TRADE_MIN_LIQUIDITY_USD ≤ liquidity top →
    (∃ c ∈ rest, Rivals top c) → Rivals top second

section Pick
variable {input : String} {r : ResolveResult} {t : ResolvedToken}

/-- A top candidate that stands alone is taken when it is deep enough. -/
theorem pickForTrade_single (hkind : r.kind = .ticker) {top : ResolvedToken} (hcs : r.candidates = [top]) :
    pickForTrade input r = .ok t ↔ top = t ∧ TRADE_MIN_LIQUIDITY_USD ≤ liquidity t := by
  by_cases hlow : liquidity top < TRADE_MIN_LIQUIDITY_USD
  · have herror : ¬ (top = t ∧ TRADE_MIN_LIQUIDITY_USD ≤ liquidity t) := by
      rintro ⟨rfl, hdeep⟩
      exact absurd hlow (not_lt.mpr hdeep)
    simp [pickForTrade, r.best_eq, hkind, hcs, hlow, herror]
  · simp only [pickForTrade, r.best_eq, hkind, hcs, List.head?_cons, hlow, reduceCtorEq, if_false,
      List.getElem?_cons_succ, List.getElem?_nil, Option.any_none, Bool.false_eq_true, false_and, Except.ok.injEq]
    constructor
    · rintro rfl
      exact ⟨rfl, not_lt.mp hlow⟩
    · exact And.left

/-- A top candidate with others below it is taken when it is deep enough and the second is no rival. -/
theorem pickForTrade_cons (hkind : r.kind = .ticker) {top second : ResolvedToken} {rest : List ResolvedToken}
    (hcs : r.candidates = top :: second :: rest) : pickForTrade input r = .ok t ↔
      top = t ∧ TRADE_MIN_LIQUIDITY_USD ≤ liquidity t ∧ ¬ Rivals t second := by
  have hrival : (((second.matchTier == top.matchTier) && decide (TRADE_MIN_LIQUIDITY_USD ≤ liquidity second)) = true ∧
      liquidity top < TRADE_DOMINANCE_RATIO * liquidity second) ↔ Rivals top second := by
    simp [Rivals, and_assoc]
  simp only [pickForTrade, r.best_eq, hkind, hcs, List.head?_cons, reduceCtorEq, if_false,
    List.getElem?_cons_succ, List.getElem?_cons_zero, Option.any_some, Option.map_some, Option.getD_some, hrival]
  by_cases hrivals : Rivals top second
  · rw [if_pos hrivals]
    constructor
    · intro h
      cases h
    · rintro ⟨rfl, -, hsecond⟩
      exact absurd hrivals hsecond
  · rw [if_neg hrivals]
    by_cases hlow : liquidity top < TRADE_MIN_LIQUIDITY_USD
    · rw [if_pos hlow]
      constructor
      · intro h
        cases h
      · rintro ⟨rfl, hdeep, -⟩
        exact absurd hlow (not_lt.mpr hdeep)
    · rw [if_neg hlow, Except.ok.injEq]
      constructor
      · rintro rfl
        exact ⟨rfl, not_lt.mp hlow, hrivals⟩
      · exact And.left

/-- Without candidates nothing is taken. -/
theorem pickForTrade_nil (hcs : r.candidates = []) : pickForTrade input r ≠ .ok t := by
  simp [pickForTrade, r.best_eq, hcs]

/-- What is taken is safe exactly if a rival of the top candidate, where there is one, is the second. -/
theorem pickForTrade_safe_iff (hkind : r.kind = .ticker) :
    (∀ t, pickForTrade input r = .ok t → SafePick r t) ↔ RivalIsSecond r := by
  cases hcs : r.candidates with
  | nil =>
    refine iff_of_true (fun t ht => absurd ht (pickForTrade_nil hcs)) ?_
    intro top second rest hcons
    rw [hcs] at hcons
    cases hcons
  | cons top tail =>
    cases tail with
    | nil =>
      refine iff_of_true (fun t ht => ?_) ?_
      · obtain ⟨rfl, hdeep⟩ := (pickForTrade_single hkind hcs).mp ht
        exact ⟨hdeep, by simp [hcs]⟩
      · intro top second rest hcons
        rw [hcs] at hcons
        cases hcons
    | cons second rest =>
      constructor
      · intro hsafe top' second' rest' hcons hdeep ⟨c, hc, hrivals⟩
        rw [hcs] at hcons
        obtain ⟨rfl, rfl, rfl⟩ : top = top' ∧ second = second' ∧ rest = rest' := by simpa using hcons
        by_contra hsecond
        have hpick : pickForTrade input r = .ok top := (pickForTrade_cons hkind hcs).mpr ⟨rfl, hdeep, hsecond⟩
        exact (hsafe top hpick).2 c (by simp [hcs, hc]) hrivals
      · intro hcond t ht
        obtain ⟨rfl, hdeep, hsecond⟩ := (pickForTrade_cons hkind hcs).mp ht
        refine ⟨hdeep, fun c hc hrivals => ?_⟩
        have hmem : c = second ∨ c ∈ rest := by simpa [hcs] using hc
        by_cases heq : c = second
        · exact hsecond (heq ▸ hrivals)
        · exact hsecond (hcond top second rest hcs hdeep ⟨c, hmem.resolve_left heq, hrivals⟩)

end Pick

section Resolve
variable (cfg : ResolverConfig) (up : Upstream) (now : ℤ) (opts : ResolveOptions) (cache : ResolverCache)
  {input symbol : String}

/-- A ticker gives a ticker's result, from the cache or anew. -/
theorem resolve_kind (h : classifyInput input = .ticker symbol) :
    (resolve cfg up now input opts cache).1.kind = .ticker := by
  simp only [resolve, h]
  exact (resolveTicker cfg up now symbol opts cache).1.kind_eq

end Resolve

/-! ## Three pools -/

/-- A pool with this much liquidity and volume; everything else is left out. -/
def pool (address : String) (liquidityUsd volumeH24 : ℚ) : DexSearchPair :=
  { chainId := "solana", url := none, pairCreatedAt := none
    baseToken := { address, symbol := some "PEPE", name := some "Pepe" }
    priceUsd := none, liquidityUsd := some liquidityUsd, volumeH24 := some volumeH24
    marketCap := none, fdv := none, buys := none, sells := none, imageUrl := none }

def pools (search : List DexSearchPair) : Upstream :=
  { search
    getToken := fun _ _ => none
    searchBySymbol := []
    markets := fun _ => none
    getCoinPlatforms := fun _ => [] }

/-- `Math.log10` on the powers of ten, which is all that the pools need. -/
def powersOfTen : ResolverConfig := { log10 := fun x => Nat.log 10 ⌊x⌋₊ }

/-- The deepest of two pools is far deeper than the other. -/
def dominant : Upstream := pools [pool "AAA" 99999 999, pool "BBB" 9999 999]

/-- A shallow pool with much volume is ranked between two deep ones. -/
def shielded : Upstream := pools [pool "AAA" 9999 999999, pool "BBB" 999 9999999, pool "CCC" 9999 9]

theorem exists_ok_of_any {ε α : Type} {x : Except ε α} {p : α → Bool} (h : x.toOption.any p = true) :
    ∃ a, x = .ok a ∧ p a = true := by
  cases x with
  | error e => simp [Except.toOption] at h
  | ok a => exact ⟨a, rfl, by simpa [Except.toOption] using h⟩

end SuperAi.TokenResolver
