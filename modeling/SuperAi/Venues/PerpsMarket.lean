import Mathlib.Data.List.MinMax
import Mathlib.Data.List.Pairwise
import SuperAi.Foundations.OrderedMap
import SuperAi.Foundations.StableSort

/-! # Funding spreads

`PerpsMarketService` (`venues/perps/perps-market.service.ts`), over exact numbers. The snapshot of the last poll is
grouped by the asset, a group is brought down to the deepest contract of each venue, and what the first and the last of
these by funding differ in is the spread of the asset. The spreads are kept until the time of the last poll changes.
-/
namespace SuperAi.Venues
set_option autoImplicit false
open SuperAi.Foundations

/-- What the service reads of a market. -/
structure PerpMarket where
  venue : String
  base : String
  markPrice : ℚ
  fundingAprPct : ℚ
  openInterestUsd : Option ℚ
  volume24hUsd : Option ℚ
  deriving DecidableEq

structure FundingLeg where
  venue : String
  fundingAprPct : ℚ
  deriving DecidableEq

structure FundingSpread where
  base : String
  markets : List PerpMarket
  cheapestLong : FundingLeg
  richestShort : FundingLeg
  spreadAprPct : ℚ
  markDispersionPct : ℚ
  takenAt : ℕ
  deriving DecidableEq

/-- The settings, with the defaults of the environment. -/
structure PerpsConfig where
  MIN_EDGE_APR_PCT : ℚ := 10
  MIN_DEPTH_USD : ℚ := 1000000
  HOLD_DAYS : ℚ := 7

def depthUsd (m : PerpMarket) : ℚ := (m.openInterestUsd.or m.volume24hUsd).getD 0

def dedupeByVenue (markets : List PerpMarket) : List PerpMarket :=
  let best := markets.foldl (fun best m =>
    match KeyValue.get best m.venue with
    | none => KeyValue.put best m.venue m
    | some prev => if depthUsd prev < depthUsd m then KeyValue.put best m.venue m else best) []
  best.map Prod.snd

def markDispersion (markets : List PerpMarket) : ℚ :=
  let prices := sort (fun a b => a - b) ((markets.map PerpMarket.markPrice).filter fun p => 0 < p)
  if prices.length < 2 then 0
  else
    let mid := prices.length / 2
    let median :=
      if prices.length % 2 = 0 then (prices.getD (mid - 1) 0 + prices.getD mid 0) / 2 else prices.getD mid 0
    if median ≤ 0 then 0 else (prices.getD (prices.length - 1) 0 - prices.getD 0 0) / median * 100

section Spreads
variable (toUpperCase : String → String)

/-- The body of the loop over the groups: none for an asset that one venue alone lists. -/
def spreadOf (now : ℕ) (base : String) (all : List PerpMarket) : Option FundingSpread :=
  let markets := dedupeByVenue all
  if markets.length < 2 then none
  else
    let sorted := sort (fun a b => a.fundingAprPct - b.fundingAprPct) markets
    match sorted.head?, sorted.getLast? with
    | some cheapest, some richest => some
      { base
        markets
        cheapestLong := ⟨cheapest.venue, cheapest.fundingAprPct⟩
        richestShort := ⟨richest.venue, richest.fundingAprPct⟩
        spreadAprPct := richest.fundingAprPct - cheapest.fundingAprPct
        markDispersionPct := markDispersion markets
        takenAt := now }
    | _, _ => none

/-- `getSpreads` past the cache. -/
def spreadsOf (now : ℕ) (markets : List PerpMarket) : List FundingSpread :=
  let byBase := KeyValue.groups (fun m => toUpperCase m.base) markets
  sort (fun a b => b.spreadAprPct - a.spreadAprPct) (byBase.filterMap fun group => spreadOf now group.1 group.2)

structure SpreadCache where
  takenAt : ℕ
  value : List FundingSpread

structure PerpsMarketService where
  markets : List PerpMarket := []
  lastPollAt : Option ℕ := none
  spreadCache : Option SpreadCache := none
  polling : Bool := false

namespace PerpsMarketService

def getSpreads (now : ℕ) (s : PerpsMarketService) : List FundingSpread × PerpsMarketService :=
  match s.spreadCache.filter fun cache => cache.takenAt = s.lastPollAt.getD 0 with
  | some cache => (cache.value, s)
  | none =>
    let sorted := spreadsOf toUpperCase now s.markets
    (sorted, { s with spreadCache := some ⟨s.lastPollAt.getD 0, sorted⟩ })

def isOpportunity (config : PerpsConfig) (minEdgeAprPct : ℚ) (s : FundingSpread) : Bool :=
  if s.spreadAprPct < minEdgeAprPct then false
  else
    let legs := [s.cheapestLong.venue, s.richestShort.venue]
    let bothDeep := legs.all fun venue =>
      (s.markets.find? fun x => x.venue = venue).any fun m => config.MIN_DEPTH_USD ≤ depthUsd m
    if bothDeep = false then false
    else
      let carryOverHoldPct := s.spreadAprPct * config.HOLD_DAYS / 365
      s.markDispersionPct < carryOverHoldPct

def getOpportunities (config : PerpsConfig) (now : ℕ) (minEdgeAprPct : Option ℚ) (s : PerpsMarketService) :
    List FundingSpread × PerpsMarketService :=
  let (spreads, s) := s.getSpreads toUpperCase now
  (spreads.filter (isOpportunity config (minEdgeAprPct.getD config.MIN_EDGE_APR_PCT)), s)

/-- What the adapters answer, and nothing where one fails. -/
def merged (sources : List (Option (List PerpMarket))) : List PerpMarket :=
  (sources.map fun markets => markets.getD []).flatten

/-- `poll` up to its end. -/
def poll (now : ℕ) (sources : List (Option (List PerpMarket))) (s : PerpsMarketService) : PerpsMarketService :=
  if s.polling then s
  else if merged sources = [] then s
  else
    { s with
      markets := merged sources
      lastPollAt := some now }

end PerpsMarketService

/-! ## One contract for each venue -/

/-- What a venue's entry becomes at its next contract. -/
def deeper : Option PerpMarket → PerpMarket → PerpMarket
  | none, m => m
  | some prev, m => if depthUsd prev < depthUsd m then m else prev

theorem dedupeByVenue_eq (l : List PerpMarket) :
    dedupeByVenue l = (KeyValue.collect PerpMarket.venue deeper l).map Prod.snd := by
  unfold dedupeByVenue KeyValue.collect
  refine congrArg (List.map Prod.snd) (congrArg (fun step => List.foldl step [] l) ?_)
  funext best m
  cases hget : KeyValue.get best m.venue with
  | none => rfl
  | some prev =>
    simp only [deeper]
    by_cases hdeep : depthUsd prev < depthUsd m
    · rw [if_pos hdeep, if_pos hdeep]
    · rw [if_neg hdeep, if_neg hdeep, KeyValue.put_of_get hget]

theorem foldl_deeper (l : List PerpMarket) : l.foldl (fun o m => some (deeper o m)) none = l.argmax depthUsd := by
  unfold List.argmax
  congr 1
  funext o m
  cases o with
  | none => rfl
  | some prev =>
    simp only [deeper, List.argAux]
    by_cases hdeep : depthUsd prev < depthUsd m
    · rw [if_pos hdeep, if_pos hdeep]
    · rw [if_neg hdeep, if_neg hdeep]

theorem mem_collect_deeper {l : List PerpMarket} {venue : String} {m : PerpMarket} :
    (venue, m) ∈ KeyValue.collect PerpMarket.venue deeper l ↔
      (l.filter fun x => x.venue = venue).argmax depthUsd = some m := by
  rw [KeyValue.mem_collect, foldl_deeper]

theorem venue_of_mem_collect {l : List PerpMarket} {venue : String} {m : PerpMarket}
    (h : (venue, m) ∈ KeyValue.collect PerpMarket.venue deeper l) : m.venue = venue := by
  have hmem := List.argmax_mem (mem_collect_deeper.mp h)
  simpa using (List.mem_filter.mp hmem).2

theorem mem_dedupeByVenue {l : List PerpMarket} {m : PerpMarket} :
    m ∈ dedupeByVenue l ↔ (l.filter fun x => x.venue = m.venue).argmax depthUsd = some m := by
  rw [dedupeByVenue_eq, ← mem_collect_deeper]
  constructor
  · intro h
    obtain ⟨⟨venue, m'⟩, hmem, rfl⟩ := List.mem_map.mp h
    rwa [venue_of_mem_collect hmem]
  · exact fun h => List.mem_map.mpr ⟨_, h, rfl⟩

/-- The contracts that are left are on different venues. -/
theorem nodup_dedupeByVenue (l : List PerpMarket) : ((dedupeByVenue l).map PerpMarket.venue).Nodup := by
  have hkeys : (dedupeByVenue l).map PerpMarket.venue =
      (KeyValue.collect PerpMarket.venue deeper l).map Prod.fst := by
    rw [dedupeByVenue_eq, List.map_map]
    apply List.map_congr_left
    intro entry hentry
    exact venue_of_mem_collect hentry
  rw [hkeys]
  exact KeyValue.nodup_collect l

/-- Every venue keeps a contract. -/
theorem exists_mem_dedupeByVenue {l : List PerpMarket} {m : PerpMarket} (h : m ∈ l) :
    ∃ m' ∈ dedupeByVenue l, m'.venue = m.venue := by
  have hmem : m ∈ l.filter fun x => x.venue = m.venue := List.mem_filter.mpr ⟨h, by simp⟩
  cases hbest : (l.filter fun x => x.venue = m.venue).argmax depthUsd with
  | none => exact absurd (List.argmax_eq_none.mp hbest) (List.ne_nil_of_mem hmem)
  | some m' =>
    have hentry := mem_collect_deeper.mpr hbest
    refine ⟨m', ?_, venue_of_mem_collect hentry⟩
    rw [dedupeByVenue_eq]
    exact List.mem_map.mpr ⟨_, hentry, rfl⟩

theorem two_le_length_dedupeByVenue {l : List PerpMarket} :
    2 ≤ (dedupeByVenue l).length ↔ ∃ m ∈ l, ∃ m' ∈ l, m.venue ≠ m'.venue := by
  have hsub : ∀ m ∈ dedupeByVenue l, m ∈ l := by
    intro m hm
    exact List.mem_of_mem_filter (List.argmax_mem (mem_dedupeByVenue.mp hm))
  constructor
  · intro hlen
    have hnodup := nodup_dedupeByVenue l
    match hl : dedupeByVenue l, hlen with
    | m :: m' :: rest, _ =>
      rw [hl] at hnodup hsub
      refine ⟨m, hsub m (by simp), m', hsub m' (by simp), fun heq => ?_⟩
      simp [heq] at hnodup
  · rintro ⟨m, hm, m', hm', hne⟩
    obtain ⟨d, hd, hvenue⟩ := exists_mem_dedupeByVenue hm
    obtain ⟨d', hd', hvenue'⟩ := exists_mem_dedupeByVenue hm'
    by_contra hlen
    have hone : ∀ x ∈ dedupeByVenue l, ∀ y ∈ dedupeByVenue l, x = y := by
      match dedupeByVenue l, hlen with
      | [], _ => exact fun x hx => absurd hx List.not_mem_nil
      | [x], _ => simp
      | x :: y :: rest, hlen => exact absurd (by simp) hlen
    exact hne (by rw [← hvenue, ← hvenue', hone d hd d' hd'])

/-- A deepest contract of its venue for the asset. -/
def IsDeepest (markets : List PerpMarket) (base : String) (m : PerpMarket) : Prop :=
  m ∈ markets ∧ toUpperCase m.base = base ∧
    ∀ m' ∈ markets, toUpperCase m'.base = base → m'.venue = m.venue → depthUsd m' ≤ depthUsd m

/-- No two contracts of one venue and asset are equally deep. -/
def DistinctDepths (markets : List PerpMarket) : Prop :=
  markets.Pairwise fun m m' => m.venue = m'.venue → toUpperCase m.base = toUpperCase m'.base → depthUsd m ≠ depthUsd m'

variable {toUpperCase} {markets : List PerpMarket}

theorem DistinctDepths.eq (h : DistinctDepths toUpperCase markets) {m m' : PerpMarket} (hm : m ∈ markets)
    (hm' : m' ∈ markets) (hvenue : m.venue = m'.venue) (hbase : toUpperCase m.base = toUpperCase m'.base)
    (hdepth : depthUsd m = depthUsd m') : m = m' := by
  by_contra hne
  have hsymm : Std.Symm fun m m' : PerpMarket =>
      m.venue = m'.venue → toUpperCase m.base = toUpperCase m'.base → depthUsd m ≠ depthUsd m' :=
    ⟨fun m m' h hvenue hbase => (h hvenue.symm hbase.symm).symm⟩
  exact List.Pairwise.forall h hm hm' hne hvenue hbase hdepth

/-- The contracts left of an asset's group are the deepest ones. -/
theorem mem_dedupe_iff (h : DistinctDepths toUpperCase markets) {base : String} {m : PerpMarket} :
    m ∈ dedupeByVenue (markets.filter fun x => toUpperCase x.base = base) ↔ IsDeepest toUpperCase markets base m := by
  have hfilter : ∀ x, x ∈ (markets.filter fun x => toUpperCase x.base = base).filter (fun x => x.venue = m.venue) ↔
      x ∈ markets ∧ toUpperCase x.base = base ∧ x.venue = m.venue := by
    intro x
    rw [List.mem_filter, List.mem_filter, decide_eq_true_iff, decide_eq_true_iff, and_assoc]
  rw [mem_dedupeByVenue]
  constructor
  · intro hbest
    obtain ⟨hmem, hbase, -⟩ := (hfilter m).mp (List.argmax_mem hbest)
    refine ⟨hmem, hbase, fun m' hm' hbase' hvenue => ?_⟩
    exact List.le_of_mem_argmax ((hfilter m').mpr ⟨hm', hbase', hvenue⟩) hbest
  · rintro ⟨hmem, hbase, hdeep⟩
    have hin := (hfilter m).mpr ⟨hmem, hbase, rfl⟩
    cases hbest : ((markets.filter fun x => toUpperCase x.base = base).filter
        fun x => x.venue = m.venue).argmax depthUsd with
    | none => exact absurd (List.argmax_eq_none.mp hbest) (List.ne_nil_of_mem hin)
    | some m' =>
      obtain ⟨hmem', hbase', hvenue'⟩ := (hfilter m').mp (List.argmax_mem hbest)
      have hdepth : depthUsd m' = depthUsd m :=
        le_antisymm (hdeep m' hmem' hbase' hvenue') (List.le_of_mem_argmax hin hbest)
      rw [h.eq hmem' hmem hvenue' (hbase'.trans hbase.symm) hdepth]

/-! ## The spread of an asset -/

/-- The entry is the spread of the asset: over the deepest contract of each venue the funding of its legs is the least
and the greatest. -/
structure IsSpread (toUpperCase : String → String) (markets : List PerpMarket) (s : FundingSpread) : Prop where
  deepest : ∀ m, m ∈ s.markets ↔ IsDeepest toUpperCase markets s.base m
  nodup : (s.markets.map PerpMarket.venue).Nodup
  legs : ∃ long ∈ s.markets, ∃ short ∈ s.markets, long.venue ≠ short.venue ∧
    (∀ m ∈ s.markets, long.fundingAprPct ≤ m.fundingAprPct ∧ m.fundingAprPct ≤ short.fundingAprPct) ∧
    s.cheapestLong = ⟨long.venue, long.fundingAprPct⟩ ∧ s.richestShort = ⟨short.venue, short.fundingAprPct⟩ ∧
    s.spreadAprPct = short.fundingAprPct - long.fundingAprPct
  dispersion : s.markDispersionPct = markDispersion s.markets

theorem spreadOf_eq_none {now : ℕ} {base : String} {all : List PerpMarket} (h : (dedupeByVenue all).length < 2) :
    spreadOf now base all = none := if_pos h

/-- What the loop pushes for a group with two venues. -/
theorem spreadOf_eq_some (now : ℕ) (base : String) {all : List PerpMarket} (h : 2 ≤ (dedupeByVenue all).length) :
    ∃ s, spreadOf now base all = some s ∧ s.base = base ∧ s.markets = dedupeByVenue all ∧
      s.markDispersionPct = markDispersion (dedupeByVenue all) ∧
      ∃ long ∈ dedupeByVenue all, ∃ short ∈ dedupeByVenue all, long.venue ≠ short.venue ∧
        (∀ m ∈ dedupeByVenue all, long.fundingAprPct ≤ m.fundingAprPct ∧ m.fundingAprPct ≤ short.fundingAprPct) ∧
        s.cheapestLong = ⟨long.venue, long.fundingAprPct⟩ ∧ s.richestShort = ⟨short.venue, short.fundingAprPct⟩ ∧
        s.spreadAprPct = short.fundingAprPct - long.fundingAprPct := by
  obtain ⟨sorted, hsorted⟩ : ∃ sorted,
    sorted = sort (fun a b => a.fundingAprPct - b.fundingAprPct) (dedupeByVenue all) := ⟨_, rfl⟩
  have hperm : sorted.Perm (dedupeByVenue all) := hsorted ▸ sort_perm _ _
  have hlen : 2 ≤ sorted.length := hperm.length_eq ▸ h
  have hne : sorted ≠ [] := fun hnil => by simp [hnil] at hlen
  have hnodup : (sorted.map PerpMarket.venue).Nodup :=
    (hperm.map PerpMarket.venue).nodup_iff.mpr (nodup_dedupeByVenue all)
  obtain ⟨long, hlong⟩ : ∃ long, sorted.head? = some long := ⟨_, List.head?_eq_some_head hne⟩
  obtain ⟨short, hshort⟩ : ∃ short, sorted.getLast? = some short := ⟨_, List.getLast?_eq_some_getLast hne⟩
  have hspread : spreadOf now base all = some
      { base
        markets := dedupeByVenue all
        cheapestLong := ⟨long.venue, long.fundingAprPct⟩
        richestShort := ⟨short.venue, short.fundingAprPct⟩
        spreadAprPct := short.fundingAprPct - long.fundingAprPct
        markDispersionPct := markDispersion (dedupeByVenue all)
        takenAt := now } := by
    unfold spreadOf
    rw [if_neg (by omega)]
    simp only [← hsorted, hlong, hshort]
  refine ⟨_, hspread, rfl, rfl, rfl, long, hperm.mem_iff.mp (List.mem_of_head? hlong), short,
    hperm.mem_iff.mp (List.mem_of_getLast? hshort), head_ne_getLast hnodup hlen hlong hshort, fun m hm => ?_,
    rfl, rfl, rfl⟩
  rw [hsorted] at hlong hshort
  constructor
  · exact le_of_head_sort hlong m hm
  · exact le_of_getLast_sort hshort m hm

/-- One entry for each asset that two venues list, each the spread of its asset, by falling spread. -/
structure ExactSpreads (toUpperCase : String → String) (markets : List PerpMarket) (out : List FundingSpread) :
    Prop where
  nodup : (out.map FundingSpread.base).Nodup
  base : ∀ base, base ∈ out.map FundingSpread.base ↔ ∃ m ∈ markets, ∃ m' ∈ markets,
    toUpperCase m.base = base ∧ toUpperCase m'.base = base ∧ m.venue ≠ m'.venue
  spread : ∀ s ∈ out, IsSpread toUpperCase markets s
  falling : out.Pairwise fun s s' => s'.spreadAprPct ≤ s.spreadAprPct

theorem two_venues_filter {base : String} :
    2 ≤ (dedupeByVenue (markets.filter fun x => toUpperCase x.base = base)).length ↔ ∃ m ∈ markets, ∃ m' ∈ markets,
      toUpperCase m.base = base ∧ toUpperCase m'.base = base ∧ m.venue ≠ m'.venue := by
  rw [two_le_length_dedupeByVenue]
  constructor
  · rintro ⟨m, hm, m', hm', hne⟩
    simp only [List.mem_filter, decide_eq_true_eq] at hm hm'
    exact ⟨m, hm.1, m', hm'.1, hm.2, hm'.2, hne⟩
  · rintro ⟨m, hm, m', hm', hbase, hbase', hne⟩
    exact ⟨m, List.mem_filter.mpr ⟨hm, by simpa using hbase⟩, m', List.mem_filter.mpr ⟨hm', by simpa using hbase'⟩, hne⟩

theorem mem_spreadsOf {now : ℕ} {s : FundingSpread} :
    s ∈ spreadsOf toUpperCase now markets ↔ ∃ base,
      markets.filter (fun x => toUpperCase x.base = base) ≠ [] ∧
        spreadOf now base (markets.filter fun x => toUpperCase x.base = base) = some s := by
  unfold spreadsOf
  rw [mem_sort, List.mem_filterMap]
  constructor
  · rintro ⟨⟨base, all⟩, hgroup, hs⟩
    obtain ⟨rfl, hne⟩ := KeyValue.mem_groups.mp hgroup
    exact ⟨base, hne, hs⟩
  · rintro ⟨base, hne, hs⟩
    exact ⟨(base, _), KeyValue.mem_groups.mpr ⟨rfl, hne⟩, hs⟩

theorem base_of_spreadOf {now : ℕ} {base : String} {all : List PerpMarket} {s : FundingSpread}
    (h : spreadOf now base all = some s) : 2 ≤ (dedupeByVenue all).length ∧ s.base = base := by
  by_cases hlen : (dedupeByVenue all).length < 2
  · rw [spreadOf_eq_none hlen] at h
    cases h
  · obtain ⟨s', hs', hbase, -⟩ := spreadOf_eq_some now base (not_lt.mp hlen)
    rw [h] at hs'
    exact ⟨not_lt.mp hlen, Option.some.inj hs' ▸ hbase⟩

theorem nodup_bases (now : ℕ) (markets : List PerpMarket) :
    ((spreadsOf toUpperCase now markets).map FundingSpread.base).Nodup := by
  have hkeys : ((KeyValue.groups (fun m => toUpperCase m.base) markets).map Prod.fst).Nodup :=
    KeyValue.nodup_groups markets
  unfold spreadsOf
  rw [((sort_perm _ _).map FundingSpread.base).nodup_iff]
  refine List.pairwise_map.mpr (List.pairwise_filterMap.mpr ?_)
  refine (List.pairwise_map.mp hkeys).imp fun hne s hs s' hs' heq => hne ?_
  rw [← (base_of_spreadOf hs).2, ← (base_of_spreadOf hs').2, heq]

theorem exact_spreadsOf (h : DistinctDepths toUpperCase markets) (now : ℕ) :
    ExactSpreads toUpperCase markets (spreadsOf toUpperCase now markets) where
  nodup := nodup_bases now markets
  base base := by
    rw [← two_venues_filter]
    constructor
    · intro hbase
      obtain ⟨s, hs, rfl⟩ := List.mem_map.mp hbase
      obtain ⟨base, -, hs⟩ := mem_spreadsOf.mp hs
      obtain ⟨hlen, rfl⟩ := base_of_spreadOf hs
      exact hlen
    · intro hlen
      obtain ⟨s, hs, hbase, -⟩ := spreadOf_eq_some now base hlen
      refine List.mem_map.mpr ⟨s, mem_spreadsOf.mpr ⟨base, fun hnil => ?_, hs⟩, hbase⟩
      rw [hnil] at hlen
      exact absurd hlen (by decide)
  spread s hs := by
    obtain ⟨base, -, hs⟩ := mem_spreadsOf.mp hs
    obtain ⟨hlen, hbase⟩ := base_of_spreadOf hs
    obtain ⟨s', hs', -, hmarkets, hdispersion, hlegs⟩ := spreadOf_eq_some now base hlen
    obtain rfl := Option.some.inj (hs.symm.trans hs')
    constructor
    · intro m
      rw [hmarkets, hbase]
      exact mem_dedupe_iff h
    · rw [hmarkets]
      exact nodup_dedupeByVenue _
    · rw [hmarkets]
      exact hlegs
    · rw [hmarkets]
      exact hdispersion
  falling := (pairwise_sort (consistent_falling FundingSpread.spreadAprPct) _).imp fun hle => sub_nonneg.mp hle

/-! ## Spreads worth acting on -/

/-- The spread has the edge, both of its legs are deep enough, and the marks are nearer to each other than the carry
over the time of holding. -/
def Tradable (toUpperCase : String → String) (config : PerpsConfig) (minEdgeAprPct : ℚ) (markets : List PerpMarket)
    (s : FundingSpread) : Prop :=
  minEdgeAprPct ≤ s.spreadAprPct ∧
    (∀ m, IsDeepest toUpperCase markets s.base m → m.venue = s.cheapestLong.venue ∨ m.venue = s.richestShort.venue →
      config.MIN_DEPTH_USD ≤ depthUsd m) ∧
    s.markDispersionPct < s.spreadAprPct * config.HOLD_DAYS / 365

theorem find_venue {l : List PerpMarket} (h : (l.map PerpMarket.venue).Nodup) {m : PerpMarket} (hm : m ∈ l) :
    l.find? (fun x => x.venue = m.venue) = some m := by
  induction l with
  | nil => cases hm
  | cons x l ih =>
    obtain ⟨hfresh, hnodup⟩ := List.nodup_cons.mp h
    rw [List.find?_cons]
    cases List.mem_cons.mp hm with
    | inl heq => simp [heq]
    | inr hin =>
      have hne : x.venue ≠ m.venue := fun heq => hfresh (List.mem_map.mpr ⟨m, hin, heq.symm⟩)
      simp only [hne, decide_false]
      exact ih hnodup hin

namespace PerpsMarketService
variable {config : PerpsConfig} {minEdgeAprPct : ℚ} {s : FundingSpread}

theorem isOpportunity_iff (h : IsSpread toUpperCase markets s) :
    isOpportunity config minEdgeAprPct s = true ↔ Tradable toUpperCase config minEdgeAprPct markets s := by
  obtain ⟨long, hlong, short, hshort, -, -, hcheapest, hrichest, -⟩ := h.legs
  have hdeep : ((∀ m, IsDeepest toUpperCase markets s.base m → m.venue = s.cheapestLong.venue ∨
      m.venue = s.richestShort.venue → config.MIN_DEPTH_USD ≤ depthUsd m) ↔
      config.MIN_DEPTH_USD ≤ depthUsd long ∧ config.MIN_DEPTH_USD ≤ depthUsd short) := by
    rw [hcheapest, hrichest]
    constructor
    · intro hall
      exact ⟨hall long ((h.deepest long).mp hlong) (.inl rfl), hall short ((h.deepest short).mp hshort) (.inr rfl)⟩
    · rintro ⟨hlongDeep, hshortDeep⟩ m hm hvenue
      have hmem := (h.deepest m).mpr hm
      cases hvenue with
      | inl hvenue =>
        rwa [List.inj_on_of_nodup_map h.nodup hmem hlong hvenue]
      | inr hvenue =>
        rwa [List.inj_on_of_nodup_map h.nodup hmem hshort hvenue]
  unfold Tradable isOpportunity
  rw [hdeep, hcheapest, hrichest]
  simp only [List.all_cons, List.all_nil, find_venue h.nodup hlong, find_venue h.nodup hshort, Option.any_some]
  by_cases hedge : s.spreadAprPct < minEdgeAprPct
  · simp [hedge]
  · simp [hedge, not_lt.mp hedge, and_assoc]

/-- The calls between two polls. -/
inductive Read
  | spreads (now : ℕ)
  | opportunities (now : ℕ) (minEdgeAprPct : Option ℚ)

def read (toUpperCase : String → String) (config : PerpsConfig) (s : PerpsMarketService) : Read → PerpsMarketService
  | .spreads now => (s.getSpreads toUpperCase now).2
  | .opportunities now minEdgeAprPct => (s.getOpportunities toUpperCase config now minEdgeAprPct).2

/-- A cache that is still good holds the spreads of the snapshot. -/
def Cached (toUpperCase : String → String) (s : PerpsMarketService) : Prop :=
  ∀ cache, s.spreadCache = some cache → cache.takenAt = s.lastPollAt.getD 0 →
    ∃ now, cache.value = spreadsOf toUpperCase now s.markets

theorem getSpreads_of_cached {s : PerpsMarketService} (h : Cached toUpperCase s) (now : ℕ) :
    (∃ now', (s.getSpreads toUpperCase now).1 = spreadsOf toUpperCase now' s.markets) ∧
      (s.getSpreads toUpperCase now).2.markets = s.markets ∧ Cached toUpperCase (s.getSpreads toUpperCase now).2 := by
  unfold getSpreads
  cases hcache : s.spreadCache.filter fun cache => cache.takenAt = s.lastPollAt.getD 0 with
  | some cache =>
    obtain ⟨hsome, htime⟩ := Option.filter_eq_some_iff.mp hcache
    exact ⟨h cache hsome (by simpa using htime), rfl, h⟩
  | none =>
    refine ⟨⟨now, rfl⟩, rfl, fun cache hsome _ => ⟨now, ?_⟩⟩
    rw [← Option.some.inj hsome]

theorem read_of_cached (config : PerpsConfig) {s : PerpsMarketService} (h : Cached toUpperCase s) (call : Read) :
    (read toUpperCase config s call).markets = s.markets ∧ Cached toUpperCase (read toUpperCase config s call) := by
  cases call with
  | spreads now => exact (getSpreads_of_cached h now).2
  | opportunities now minEdgeAprPct => exact (getSpreads_of_cached h now).2

theorem reads_of_cached (config : PerpsConfig) {s : PerpsMarketService} (h : Cached toUpperCase s) (calls : List Read) :
    (calls.foldl (read toUpperCase config) s).markets = s.markets ∧
      Cached toUpperCase (calls.foldl (read toUpperCase config) s) := by
  induction calls generalizing s with
  | nil => exact ⟨rfl, h⟩
  | cons call calls ih =>
    obtain ⟨hmarkets, hcached⟩ := read_of_cached config h call
    obtain ⟨hrest, hcached⟩ := ih hcached
    exact ⟨hrest.trans hmarkets, hcached⟩

/-- The snapshot after a poll, and that the cache says nothing of it where its time is new. -/
theorem poll_cases (now : ℕ) (sources : List (Option (List PerpMarket))) (s : PerpsMarketService) :
    (s.poll now sources).spreadCache = s.spreadCache ∧
      (s.polling = false → merged sources ≠ [] →
        (s.poll now sources).markets = merged sources ∧ (s.poll now sources).lastPollAt = some now) := by
  unfold poll
  cases s.polling with
  | true => exact ⟨rfl, fun hidle => by cases hidle⟩
  | false =>
    rw [if_neg Bool.false_ne_true]
    by_cases hempty : merged sources = []
    · rw [if_pos hempty]
      exact ⟨rfl, fun _ hne => absurd hempty hne⟩
    · rw [if_neg hempty]
      exact ⟨rfl, fun _ _ => ⟨rfl, rfl⟩⟩

/-- After a poll whose time is new to the cache, and any calls since, `getSpreads` answers the spreads of the snapshot
exactly, and `getOpportunities` those of them that are worth acting on, in the same order. -/
theorem spreads_of_poll (toUpperCase : String → String) (config : PerpsConfig) (s : PerpsMarketService) (t : ℕ)
    (sources : List (Option (List PerpMarket)))
    (hnew : ∀ cache, s.spreadCache = some cache → cache.takenAt ≠ (s.poll t sources).lastPollAt.getD 0)
    (hdepths : DistinctDepths toUpperCase (s.poll t sources).markets) (calls : List Read) (now : ℕ)
    (minEdgeAprPct : Option ℚ) :
    (s.polling = false → merged sources ≠ [] →
      (s.poll t sources).markets = merged sources ∧ (s.poll t sources).lastPollAt = some t) ∧
    let service := calls.foldl (read toUpperCase config) (s.poll t sources)
    ExactSpreads toUpperCase (s.poll t sources).markets (service.getSpreads toUpperCase now).1 ∧
    (service.getOpportunities toUpperCase config now minEdgeAprPct).1.Sublist (service.getSpreads toUpperCase now).1 ∧
    ∀ entry, entry ∈ (service.getOpportunities toUpperCase config now minEdgeAprPct).1 ↔
      entry ∈ (service.getSpreads toUpperCase now).1 ∧
        Tradable toUpperCase config (minEdgeAprPct.getD config.MIN_EDGE_APR_PCT) (s.poll t sources).markets entry := by
  obtain ⟨hcache, hsnapshot⟩ := poll_cases t sources s
  have hcached : Cached toUpperCase (s.poll t sources) := by
    intro cache hsome htime
    exact absurd htime (hnew cache (hcache ▸ hsome))
  obtain ⟨hmarkets, hcached⟩ := reads_of_cached config hcached calls
  obtain ⟨⟨now', hvalue⟩, -, -⟩ := getSpreads_of_cached hcached now
  have hexact := exact_spreadsOf hdepths now'
  rw [hmarkets] at hvalue
  refine ⟨hsnapshot, hvalue ▸ hexact, List.filter_sublist, fun entry => ?_⟩
  unfold getOpportunities
  rw [List.mem_filter]
  refine and_congr_right fun hentry => ?_
  exact isOpportunity_iff (hexact.spread entry (hvalue ▸ hentry))

/-- Two venues list SOL, one of them twice; the third does not answer. -/
def solListings : List (Option (List PerpMarket)) :=
  [some [⟨"hyperliquid", "SOL", 100, 0, some 5000000, none⟩], none,
    some [⟨"binance", "Sol", 100, 60, none, some 800000000⟩, ⟨"binance", "SOL", 100, 90, none, some 1000⟩]]

theorem solListings_exact :
    (({} : PerpsMarketService).poll 1 solListings).markets = merged solListings ∧
      ExactSpreads String.toUpper (merged solListings)
        ((({} : PerpsMarketService).poll 1 solListings).getSpreads String.toUpper 2).1 := by
  have hmarkets : (({} : PerpsMarketService).poll 1 solListings).markets = merged solListings := by decide +kernel
  have hpairs : (merged solListings).Pairwise fun m m' => m.venue = m'.venue → depthUsd m ≠ depthUsd m' := by
    decide +kernel
  have hdepths : DistinctDepths String.toUpper (({} : PerpsMarketService).poll 1 solListings).markets := by
    rw [hmarkets]
    exact hpairs.imp fun hne hvenue _ => hne hvenue
  obtain ⟨-, hexact, -, -⟩ := spreads_of_poll String.toUpper {} {} 1 solListings (fun _ hnone => by cases hnone)
    hdepths [] 2 none
  rw [List.foldl_nil, hmarkets] at hexact
  exact ⟨hmarkets, hexact⟩

end PerpsMarketService
end Spreads
end SuperAi.Venues
