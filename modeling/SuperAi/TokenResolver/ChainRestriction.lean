import SuperAi.Foundations.SingleUse
import SuperAi.Foundations.StepSystem
import SuperAi.TokenResolver.TokenResolverService

/-! # Candidates on the chain that was asked for

Interleaved calls of `resolve` in one process, with what the providers answer to each. Pairs on other chains are
left out; a platform contract, the stub of a top coin and an address on another chain are not. The answers keep to
their chains exactly as long as none of these comes among the answers (`restricted_iff`).
-/
namespace SuperAi.TokenResolver
open SuperAi.Auth SuperAi.Common SuperAi.Foundations
set_option autoImplicit false

/-! ## Calls -/

inductive ResolverCall
  | searching (input symbol : String) (opts : ResolveOptions)
  | done (input : String) (opts : ResolveOptions) (result : ResolveResult)

structure ResolverDesk where
  cache : ResolverCache := initialCache
  calls : List ResolverCall := []

inductive ResolverStep
  | resolve (input : String) (opts : ResolveOptions) (now : ℤ) (up : Upstream)
  | settle (i : ℕ) (now : ℤ) (up : Upstream)

section
variable (cfg : ResolverConfig)

/-- A call up to the questions for a ticker; the one for an address touches nothing that is shared. -/
def ResolverDesk.start (s : ResolverDesk) (input : String) (opts : ResolveOptions) (now : ℤ) (up : Upstream) :
    ResolverDesk :=
  match classifyInput input with
  | .ticker symbol =>
    match s.cache.get now (cacheKey symbol opts) with
    | (some result, cache) => { cache, calls := s.calls ++ [.done input opts result.toResolveResult] }
    | (none, cache) => { cache, calls := s.calls ++ [.searching input symbol opts] }
  | _ => { s with calls := s.calls ++ [.done input opts (resolve cfg up now input opts s.cache).1] }

def ResolverDesk.step (s : ResolverDesk) : ResolverStep → Option ResolverDesk
  | .resolve input opts now up => some (s.start cfg input opts now up)
  | .settle i now up =>
    match s.calls[i]? with
    | some (.searching input symbol opts) =>
      let (result, cache) := searchTicker cfg up now symbol opts s.cache
      some { cache, calls := s.calls.set i (.done input opts result.toResolveResult) }
    | _ => none

def resolverDesk : StepSystem ResolverDesk ResolverStep := ⟨ResolverDesk.step cfg⟩

end

/-- Every candidate of an answer is on the chain that was asked for, and so is the token that a trade takes. -/
def ResolverCall.Restricted : ResolverCall → Prop
  | .done input opts result => ∀ c ∈ opts.chain,
      (∀ t ∈ result.candidates, t.chain = c) ∧ ∀ t, pickForTrade input result = .ok t → t.chain = c
  | .searching _ _ _ => True

def ResolverDesk.Restricted (s : ResolverDesk) : Prop := ∀ call ∈ s.calls, call.Restricted

/-- An address is on the chain that was asked for, and so is each platform contract or stub that is ranked among
the answers. -/
def KeepsChain (cfg : ResolverConfig) (s : ResolverDesk) : ResolverStep → Prop
  | .resolve input opts _ _ =>
    match classifyInput input with
    | .address chain _ => ∀ c ∈ opts.chain, chain = c
    | _ => True
  | .settle i now up =>
    match s.calls[i]? with
    | some (.searching _ symbol opts) => ∀ c ∈ opts.chain, ∀ t ∈ addedTokens cfg up now symbol opts,
        t ∈ ranked cfg up now symbol opts → t.chain = c
    | _ => True

instance (cfg : ResolverConfig) (s : ResolverDesk) (e : ResolverStep) : Decidable (KeepsChain cfg s e) := by
  unfold KeepsChain
  cases e with
  | resolve input opts now up =>
    dsimp only
    split
    · infer_instance
    · infer_instance
  | settle i now up =>
    dsimp only
    split
    · infer_instance
    · infer_instance

/-- A call that is alone gives what `resolve` does, at once or when the providers have answered. -/
theorem start_alone (cfg : ResolverConfig) (s : ResolverDesk) (input : String) (opts : ResolveOptions) (now : ℤ)
    (up : Upstream) :
    let (result, cache) := resolve cfg up now input opts s.cache
    let after : ResolverDesk := { cache, calls := s.calls ++ [.done input opts result] }
    s.start cfg input opts now up = after ∨
      (resolverDesk cfg).step (s.start cfg input opts now up) (.settle s.calls.length now up) = some after := by
  cases hinput : classifyInput input with
  | ticker symbol =>
    cases hget : s.cache.get now (cacheKey symbol opts) with
    | mk found cache =>
      cases found with
      | some result =>
        left
        simp only [ResolverDesk.start, resolveTicker, hinput, hget]
      | none =>
        right
        simp [resolverDesk, ResolverDesk.step, ResolverDesk.start, resolveTicker, hinput, hget]
  | address chain value =>
    left
    simp only [ResolverDesk.start, resolve, hinput]
  | unresolvable =>
    left
    simp only [ResolverDesk.start, resolve, hinput]

/-! ## Candidates -/

section Candidates
variable {cfg : ResolverConfig} {up : Upstream} {now : ℤ} {symbol : String} {opts : ResolveOptions}

theorem addPair_first {P : DexSearchPair → Prop} {groups : List PairGroup} (h : ∀ g ∈ groups, P g.first)
    {p : DexSearchPair} (hp : P p) : ∀ g ∈ addPair groups p, P g.first := by
  intro g hg
  unfold addPair at hg
  by_cases hany : (groups.any fun g => g.first.key == p.key) = true
  · rw [if_pos hany] at hg
    obtain ⟨g', hg', rfl⟩ := List.mem_map.mp hg
    by_cases hkey : g'.first.key = p.key
    · rw [if_pos hkey]
      exact h g' hg'
    · rw [if_neg hkey]
      exact h g' hg'
  · rw [if_neg hany] at hg
    obtain hold | hnew := List.mem_append.mp hg
    · exact h g hold
    · rw [List.mem_singleton.mp hnew]
      exact hp

theorem foldl_addPair_first {P : DexSearchPair → Prop} {pairs : List DexSearchPair} (hpairs : ∀ p ∈ pairs, P p)
    {groups : List PairGroup} (h : ∀ g ∈ groups, P g.first) : ∀ g ∈ pairs.foldl addPair groups, P g.first := by
  induction pairs generalizing groups with
  | nil => exact h
  | cons p pairs ih =>
    rw [List.foldl_cons]
    apply ih fun p' hp' => hpairs p' (List.mem_cons_of_mem p hp')
    exact addPair_first h (hpairs p List.mem_cons_self)

theorem kept_chain {p : DexSearchPair} {q : String} (hkept : p.kept q opts = true) {c chain : Chain}
    (hc : c ∈ opts.chain) (hchain : chainIdToChain p.chainId = some chain) : chain = c := by
  have hopts : opts.chain = some c := hc
  simp only [DexSearchPair.kept, hchain, hopts, Option.all_some, Bool.and_eq_true, beq_iff_eq] at hkept
  exact hkept.1.1

/-- What is made of the pairs is on the chain that was asked for. -/
theorem collapsePairs_chain {now : ℚ} {pairs : List DexSearchPair} {q : String} {c : Chain} (hc : c ∈ opts.chain)
    {t : CollapsedToken} (ht : t ∈ collapsePairs now pairs q opts) : t.chain = c := by
  obtain ⟨g, hg, hcollapsed⟩ := List.mem_filterMap.mp (List.mem_of_mem_filter ht)
  obtain ⟨chain, hchain, rfl⟩ := Option.map_eq_some_iff.mp hcollapsed
  have hkept : g.first.kept q opts = true :=
    foldl_addPair_first (P := fun p => p.kept q opts = true) (fun p hp => (List.mem_filter.mp hp).2)
      (fun g hg => absurd hg List.not_mem_nil) g hg
  exact kept_chain hkept hc hchain

theorem mem_of_mem_ranked {t : ResolvedToken} (h : t ∈ ranked cfg up now symbol opts) :
    t ∈ candidates cfg up now symbol opts :=
  (List.perm_insertionSort _ _).mem_iff.mp (List.mem_of_mem_take h)

/-- A candidate comes from the pairs, and is on the chain, or was added. -/
theorem mem_candidates {t : ResolvedToken} (h : t ∈ candidates cfg up now symbol opts) {c : Chain}
    (hc : c ∈ opts.chain) : t.chain = c ∨ t ∈ addedTokens cfg up now symbol opts := by
  obtain hpair | hadded := List.mem_append.mp h
  · obtain ⟨collapsed, hcollapsed, rfl⟩ := List.mem_map.mp hpair
    have hchain : collapsed.chain = c := collapsePairs_chain hc hcollapsed
    exact .inl hchain
  · exact .inr hadded

theorem mem_of_pickForTrade {input : String} {r : ResolveResult} {t : ResolvedToken}
    (h : pickForTrade input r = .ok t) : t ∈ r.candidates := by
  have hbest : r.best = some t := by
    unfold pickForTrade at h
    cases hr : r.best with
    | none => simp [hr] at h
    | some best =>
      simp only [hr] at h
      split_ifs at h
      · exact congrArg some (Except.ok.inj h)
      · exact congrArg some (Except.ok.inj h)
  exact List.mem_of_mem_head? (r.best_eq ▸ hbest)

end Candidates

/-! ## Runs -/

section Runs
variable {cfg : ResolverConfig} {s s' : ResolverDesk}

/-- The candidates decide whether an answer is restricted. -/
theorem done_restricted {input : String} {opts : ResolveOptions} {result : ResolveResult}
    (h : ∀ c ∈ opts.chain, ∀ t ∈ result.candidates, t.chain = c) :
    (ResolverCall.done input opts result).Restricted :=
  fun c hc => ⟨h c hc, fun t ht => h c hc t (mem_of_pickForTrade ht)⟩

/-- A call for a ticker, and the results that are kept for later calls with its restriction. -/
structure RestrictedDesk (s : ResolverDesk) : Prop where
  calls : s.Restricted
  cached : ∀ e ∈ s.cache.store, ∀ c ∈ e.1.chain, ∀ t ∈ e.2.value.candidates, t.chain = c

namespace RestrictedDesk

theorem initial : RestrictedDesk {} := ⟨fun _ h => absurd h List.not_mem_nil, fun _ h => absurd h List.not_mem_nil⟩

theorem start_restricted (h : s.Restricted) {call : ResolverCall} (hcall : call.Restricted) (cache : ResolverCache) :
    ResolverDesk.Restricted { cache, calls := s.calls ++ [call] } :=
  List.forall_mem_append.mpr ⟨h, List.forall_mem_singleton.mpr hcall⟩

theorem start (h : RestrictedDesk s) {input : String} {opts : ResolveOptions} {now : ℤ} {up : Upstream}
    (hkeeps : KeepsChain cfg s (.resolve input opts now up)) : RestrictedDesk (s.start cfg input opts now up) := by
  unfold ResolverDesk.start
  unfold KeepsChain at hkeeps
  cases hinput : classifyInput input with
  | ticker symbol =>
    obtain ⟨hvalue, hstore⟩ :=
      BoundedCache.get_forall (P := fun (key : CacheKey) (r : TickerResult) =>
        ∀ c ∈ key.chain, ∀ t ∈ r.candidates, t.chain = c) h.cached now (cacheKey symbol opts)
    dsimp only
    cases hget : s.cache.get now (cacheKey symbol opts) with
    | mk found cache =>
      rw [hget] at hvalue hstore
      cases found with
      | none => exact ⟨start_restricted h.calls (by trivial) cache, hstore⟩
      | some result => exact ⟨start_restricted h.calls (done_restricted (hvalue result rfl)) cache, hstore⟩
  | address chain value =>
    simp only [hinput] at hkeeps
    refine ⟨start_restricted h.calls (done_restricted fun c hc t ht => ?_) s.cache, h.cached⟩
    simp only [resolve, hinput, resolveAddress, List.mem_singleton] at ht
    rw [ht]
    exact hkeeps c hc
  | unresolvable =>
    refine ⟨start_restricted h.calls (done_restricted fun c hc t ht => ?_) s.cache, h.cached⟩
    simp [resolve, hinput, EMPTY] at ht

theorem settle (h : RestrictedDesk s) {i : ℕ} {now : ℤ} {up : Upstream} {input symbol : String}
    {opts : ResolveOptions} (hkeeps : ∀ c ∈ opts.chain, ∀ t ∈ addedTokens cfg up now symbol opts,
      t ∈ ranked cfg up now symbol opts → t.chain = c) :
    let (result, cache) := searchTicker cfg up now symbol opts s.cache
    RestrictedDesk { cache, calls := s.calls.set i (.done input opts result.toResolveResult) } := by
  have hranked : ∀ c ∈ opts.chain, ∀ t ∈ ranked cfg up now symbol opts, t.chain = c := by
    intro c hc t ht
    by_cases hchain : t.chain = c
    · exact hchain
    · exact hkeeps c hc t ((mem_candidates (mem_of_mem_ranked ht) hc).resolve_left hchain) ht
  constructor
  · exact forall_mem_set h.calls (done_restricted hranked) i
  · dsimp only
    split_ifs
    · exact h.cached
    · exact BoundedCache.set_forall (P := fun (key : CacheKey) (r : TickerResult) =>
        ∀ c ∈ key.chain, ∀ t ∈ r.candidates, t.chain = c) h.cached now hranked

theorem step (h : RestrictedDesk s) {e : ResolverStep} (hkeeps : KeepsChain cfg s e)
    (hstep : (resolverDesk cfg).step s e = some s') : RestrictedDesk s' := by
  cases e with
  | resolve input opts now up =>
    obtain rfl := Option.some.inj hstep
    exact h.start hkeeps
  | settle i now up =>
    change ResolverDesk.step cfg s (.settle i now up) = some s' at hstep
    unfold ResolverDesk.step at hstep
    unfold KeepsChain at hkeeps
    dsimp only at hstep hkeeps
    split at hstep
    · rename_i input symbol opts hcall
      rw [hcall] at hkeeps
      obtain rfl := Option.some.inj hstep
      exact h.settle hkeeps
    · cases hstep

end RestrictedDesk

/-- A step that lets a token of another chain in gives it to the caller. -/
theorem not_restricted_of_step {e : ResolverStep} (hbreaks : ¬ KeepsChain cfg s e)
    (hstep : (resolverDesk cfg).step s e = some s') : ¬ s'.Restricted := by
  intro hrestricted
  apply hbreaks
  cases e with
  | resolve input opts now up =>
    obtain rfl := Option.some.inj hstep
    unfold KeepsChain
    dsimp only
    split
    · rename_i chain value hinput
      intro c hc
      have hcall := hrestricted (.done input opts (resolve cfg up now input opts s.cache).1)
        (by simp [ResolverDesk.start, hinput])
      have hresult := (hcall c hc).1
      simp only [resolve, hinput, resolveAddress, List.mem_singleton, forall_eq] at hresult
      exact hresult
    · trivial
  | settle i now up =>
    change ResolverDesk.step cfg s (.settle i now up) = some s' at hstep
    unfold ResolverDesk.step at hstep
    unfold KeepsChain
    dsimp only at hstep ⊢
    split at hstep
    · rename_i input symbol opts hcall
      obtain rfl := Option.some.inj hstep
      intro c hc t _ ht
      have hmem : ResolverCall.done input opts (searchTicker cfg up now symbol opts s.cache).1.toResolveResult ∈
          s.calls.set i (.done input opts (searchTicker cfg up now symbol opts s.cache).1.toResolveResult) :=
        List.mem_set (List.getElem?_eq_some_iff.mp hcall).1 _
      exact (hrestricted _ hmem c hc).1 t ht
    · cases hstep

end Runs

/-! ## A contract on another chain -/

/-- CoinGecko knows the coin, and its contract on this platform. -/
def listedOn (platform address : String) : Upstream where
  search := []
  getToken := fun _ _ => some
    { chainId := none, symbol := some "XYZ", name := some "Xyz", priceUsd := none, marketCapUsd := none, fdvUsd := none
      liquidityUsd := some 99999, volume24hUsd := none, txns24h := none, pairAgeHours := none, url := none }
  searchBySymbol := [{ id := "xyz", name := "Xyz", symbol := "xyz", market_cap_rank := some 1000 }]
  markets := fun _ => none
  getCoinPlatforms := fun _ => [(platform, address)]

/-- `Math.log10` on the powers of ten; the score of a coin of this rank needs no other value. -/
def wholeLog10 : ResolverConfig := { log10 := fun x => Nat.log 10 ⌊x⌋₊ }

def askForSolana (up : Upstream) : List ResolverStep :=
  [.resolve "$xyz" { chain := some .SOLANA } 0 up, .settle 0 1 up]

/-- An answer to a call for Solana has a candidate on another chain. -/
def ResolverCall.strays : ResolverCall → Bool
  | .done _ opts result =>
    decide (opts.chain = some .SOLANA) && result.candidates.any fun t => decide (t.chain ≠ .SOLANA)
  | .searching _ _ _ => false

end SuperAi.TokenResolver
