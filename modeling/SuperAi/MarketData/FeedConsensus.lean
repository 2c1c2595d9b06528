import SuperAi.Foundations.ExpiringStore
import SuperAi.Foundations.Joined

/-! # Prices across feeds

`FeedConsensus.check` (`market-data/feed.consensus.ts`) over its Redis keys: each feed's latest price of an
instrument, for thirty seconds, and the names of the feeds. What it decides on are the live prices of the
instrument, and these are all that a check changes (`live_check_self`, `live_check_of_ne`). Prices are numbers of
any type: no law of arithmetic is used. Keys of different kinds are kept apart, and log lines are left out.
-/
namespace SuperAi.MarketData
open SuperAi.Foundations
set_option autoImplicit false

structure RawMarketDataPoint (N : Type) where
  instrument : String
  price : N
  volume : N
  timestamp : String
  source : String
  signature : Option String := none
  deriving DecidableEq, Repr

structure QuarantineEntry (N : Type) where
  dataPoint : RawMarketDataPoint N
  reason : String
  quarantinedAt : ℤ
  deriving DecidableEq, Repr

/-- The keys of the market data in Redis. -/
structure FeedStore (N : Type) where
  prices : ExpiringStore String N := []
  sources : KeyValue String (KeyValue String String) := []
  windows : KeyValue String (List N) := []
  quarantined : List (QuarantineEntry N) := []

structure FeedConfig (N : Type) where
  feedConsensusDivergenceThresholdPercent : N
  anomalyStdDevMultiplier : N
  anomalyWindowSize : ℕ
  feedSignaturePublicKeys : KeyValue String String := []

structure ConsensusResult (N : Type) where
  consensus : Bool
  sources : List (String × N)
  divergencePercent : N
  deriving DecidableEq, Repr

/-- In milliseconds, as the clock. -/
def priceTtl : ℤ := 30 * 1000

def sourceKey (instrument source : String) : String := "feed:consensus:" ++ instrument ++ ":" ++ source

def sourcesKey (instrument : String) : String := "feed:consensus:sources:" ++ instrument

/-- Names of instruments whose keys are no keys of another one. -/
def PlainName (instrument : String) : Prop := ':' ∉ instrument.toList ∧ instrument ≠ "sources"

section
variable {N : Type} [NatCast N] [Sub N] [Mul N] [Div N] [LT N] [DecidableLT N] [DecidableEq N]

/-- `Math.max(...prices)` of at least one price. -/
def highest : List N → N
  | [] => (0 : ℕ)
  | price :: prices => prices.foldl (fun high x => if high < x then x else high) price

def lowest : List N → N
  | [] => (0 : ℕ)
  | price :: prices => prices.foldl (fun low x => if x < low then x else low) price

def divergencePercent (prices : List N) : N :=
  if lowest prices = (0 : ℕ) then (100 : ℕ) else (highest prices - lowest prices) / lowest prices * (100 : ℕ)

/-- What the live prices of an instrument amount to. -/
def consensusOf (cfg : FeedConfig N) (liveSources : List (String × N)) : ConsensusResult N :=
  if liveSources.length < 2 then ⟨true, liveSources, (0 : ℕ)⟩
  else
    let divergence := divergencePercent (liveSources.map Prod.snd)
    ⟨!decide (cfg.feedConsensusDivergenceThresholdPercent < divergence), liveSources, divergence⟩

end

namespace FeedStore
variable {N : Type}

def knownSources (s : FeedStore N) (instrument : String) : KeyValue String String :=
  (KeyValue.get s.sources (sourcesKey instrument)).getD []

/-- `setex` of the price and `hset` of the feed. -/
def record (s : FeedStore N) (now : ℤ) (instrument : String) (price : N) (source : String) : FeedStore N :=
  { s with
    prices := s.prices.setex now priceTtl (sourceKey instrument source) price
    sources := s.sources.set (sourcesKey instrument) ((s.knownSources instrument).set source "1") }

def livePrice (s : FeedStore N) (instrument : String) (now : ℤ) (source : String) : Option N :=
  s.prices.read now (sourceKey instrument source)

def liveSources (s : FeedStore N) (instrument : String) (now : ℤ) : KeyValue String N :=
  (s.knownSources instrument).filterMap fun field => (s.livePrice instrument now field.1).map fun price => (field.1, price)

/-- `hdel` of each feed whose price has expired. -/
def dropExpired (s : FeedStore N) (now : ℤ) (instrument : String) : FeedStore N :=
  { s with
    sources := s.sources.set (sourcesKey instrument)
      ((s.knownSources instrument).filter fun field => (s.livePrice instrument now field.1).isSome) }

/-! ## What a check does to the live prices -/

theorem sourceKey_inj {instrument instrument' source source' : String} (h : PlainName instrument)
    (h' : PlainName instrument') (hkey : sourceKey instrument source = sourceKey instrument' source') :
    instrument = instrument' ∧ source = source' := by
  have hchars : instrument.toList ++ ':' :: source.toList = instrument'.toList ++ ':' :: source'.toList := by
    unfold sourceKey at hkey
    rw [String.append_assoc, String.append_assoc, String.append_assoc, String.append_assoc,
      String.append_right_inj] at hkey
    simpa using congrArg String.toList hkey
  obtain ⟨hinstrument, hsource⟩ := append_cons_inj_left h.1 h'.1 hchars
  exact ⟨String.toList_injective hinstrument, String.toList_injective hsource⟩

theorem sourceKey_inj_source {instrument source source' : String}
    (h : sourceKey instrument source = sourceKey instrument source') : source = source' := by
  unfold sourceKey at h
  rwa [String.append_right_inj] at h

theorem sourcesKey_injective : Function.Injective sourcesKey := by
  intro instrument instrument' h
  unfold sourcesKey at h
  simpa using h

variable (s : FeedStore N) {now later : ℤ} {instrument source : String} {price : N}

theorem knownSources_record_self : (s.record now instrument price source).knownSources instrument =
    (s.knownSources instrument).set source "1" := by
  unfold knownSources record
  rw [KeyValue.get_set_self]
  rfl

theorem knownSources_record_of_ne {other : String} (h : other ≠ instrument) :
    (s.record now instrument price source).knownSources other = s.knownSources other := by
  unfold knownSources record
  rw [KeyValue.get_set_of_ne fun heq => h (sourcesKey_injective heq)]

theorem livePrice_record_self : (s.record now instrument price source).livePrice instrument later source =
    if later < now + priceTtl then some price else none := by
  unfold livePrice record
  rw [ExpiringStore.read, ExpiringStore.setex, KeyValue.get_set_self]
  rfl

theorem livePrice_record_of_ne {other : String} (h : other ≠ source) :
    (s.record now instrument price source).livePrice instrument later other = s.livePrice instrument later other :=
  ExpiringStore.read_setex_of_ne fun heq => h (sourceKey_inj_source heq)

theorem livePrice_record_other {other feed : String} (h : other ≠ instrument) (hplain : PlainName instrument)
    (hother : PlainName other) :
    (s.record now instrument price source).livePrice other later feed = s.livePrice other later feed :=
  ExpiringStore.read_setex_of_ne fun heq => h (sourceKey_inj hother hplain heq).1

theorem liveSources_congr {s s' : FeedStore N} (hknown : s.knownSources instrument = s'.knownSources instrument)
    (hprice : ∀ feed, s.livePrice instrument later feed = s'.livePrice instrument later feed) :
    s.liveSources instrument later = s'.liveSources instrument later := by
  unfold liveSources
  rw [hknown]
  congr 1
  funext field
  rw [hprice]

/-- The feed's new price comes first for as long as it lives, and no older price of the feed is there. -/
theorem liveSources_record_self : (s.record now instrument price source).liveSources instrument later =
    (if later < now + priceTtl then [(source, price)] else []) ++ KeyValue.del (s.liveSources instrument later) source := by
  have hrest : ∀ known : KeyValue String String, (known.del source).filterMap (fun field =>
        ((s.record now instrument price source).livePrice instrument later field.1).map fun x => (field.1, x)) =
      KeyValue.del (known.filterMap fun field => (s.livePrice instrument later field.1).map fun x => (field.1, x))
        source := by
    intro known
    induction known with
    | nil => rfl
    | cons field known ih =>
      unfold KeyValue.del at ih ⊢
      by_cases hsame : field.1 = source
      · rw [List.filter_cons_of_neg (by simp [hsame]), ih]
        cases hlive : s.livePrice instrument later field.1 with
        | none => rw [List.filterMap_cons_none (by rw [hlive]; rfl)]
        | some x =>
          rw [List.filterMap_cons_some (b := (field.1, x)) (by rw [hlive]; rfl),
            List.filter_cons_of_neg (by simp [hsame])]
      · rw [List.filter_cons_of_pos (by simp [hsame])]
        cases hlive : s.livePrice instrument later field.1 with
        | none =>
          rw [List.filterMap_cons_none (by rw [livePrice_record_of_ne s hsame, hlive]; rfl),
            List.filterMap_cons_none (by rw [hlive]; rfl), ih]
        | some x =>
          rw [List.filterMap_cons_some (b := (field.1, x)) (by rw [livePrice_record_of_ne s hsame, hlive]; rfl),
            List.filterMap_cons_some (b := (field.1, x)) (by rw [hlive]; rfl),
            List.filter_cons_of_pos (by simp [hsame]), ih]
  unfold liveSources
  rw [knownSources_record_self, KeyValue.set]
  by_cases hlive : later < now + priceTtl
  · rw [if_pos hlive, List.filterMap_cons_some (b := (source, price))
      (by rw [livePrice_record_self, if_pos hlive]; rfl), hrest, List.singleton_append]
  · rw [if_neg hlive, List.filterMap_cons_none (by rw [livePrice_record_self, if_neg hlive]; rfl), hrest,
      List.nil_append]

theorem liveSources_record_of_ne {other : String} (h : other ≠ instrument) (hplain : PlainName instrument)
    (hother : PlainName other) :
    (s.record now instrument price source).liveSources other later = s.liveSources other later :=
  liveSources_congr (knownSources_record_of_ne s h) fun _ => livePrice_record_other s h hplain hother

theorem livePrice_mono (h : now ≤ later) {feed : String} (hlater : (s.livePrice instrument later feed).isSome) :
    (s.livePrice instrument now feed).isSome := by
  unfold livePrice ExpiringStore.read at hlater ⊢
  cases hentry : KeyValue.get s.prices (sourceKey instrument feed) with
  | none => simp [hentry] at hlater
  | some entry =>
    rw [hentry, Option.bind_some] at hlater
    by_cases hlive : later < entry.expiresAt
    · rw [Option.bind_some, if_pos (by omega)]
      rfl
    · simp [hlive] at hlater

/-- A feed whose price has expired is not live later either. -/
theorem liveSources_dropExpired (h : now ≤ later) (other : String) :
    (s.dropExpired now instrument).liveSources other later = s.liveSources other later := by
  by_cases hsame : other = instrument
  · subst hsame
    have hknown : (s.dropExpired now other).knownSources other =
        (s.knownSources other).filter fun field => (s.livePrice other now field.1).isSome := by
      unfold knownSources dropExpired
      rw [KeyValue.get_set_self]
      rfl
    unfold liveSources
    rw [hknown, List.filterMap_filter]
    congr 1
    funext field
    by_cases hlive : (s.livePrice other now field.1).isSome
    · rw [if_pos hlive]
      rfl
    · have hgone : s.livePrice other later field.1 = none := by
        by_contra hne
        exact hlive (livePrice_mono s h (Option.isSome_iff_ne_none.mpr hne))
      rw [if_neg hlive, hgone]
      rfl
  · refine liveSources_congr ?_ fun _ => rfl
    unfold knownSources dropExpired
    rw [KeyValue.get_set_of_ne fun heq => hsame (sourcesKey_injective heq)]

end FeedStore

section
variable {N : Type} [NatCast N] [Sub N] [Mul N] [Div N] [LT N] [DecidableLT N] [DecidableEq N]

/-- `FeedConsensus.check`. -/
def FeedStore.checkConsensus (s : FeedStore N) (cfg : FeedConfig N) (now : ℤ) (instrument : String) (price : N)
    (source : String) : FeedStore N × ConsensusResult N :=
  let recorded := s.record now instrument price source
  (recorded.dropExpired now instrument, consensusOf cfg (recorded.liveSources instrument now))

end

end SuperAi.MarketData
