import SuperAi.Foundations.Statistics
import SuperAi.Foundations.OrderedMap
import SuperAi.Foundations.KeyValue
import SuperAi.Foundations.StableSort
import Mathlib.Algebra.BigOperators.Field
import Mathlib.Algebra.Order.BigOperators.Group.List
import Mathlib.Tactic.NormNum

/-! # Strategy drift (`anomaly/strategy.drift.detector.ts`)

`recordTrade` keeps the trades of a strategy for thirty days and a profile of them, `check` compares recent trades with
that profile. A profile does not depend on the order of its trades (`check_perm`); the weights of the three scores make
the clamp superfluous, and a high score names a reason (`check_score`); and however trades of several strategies are
recorded, what is stored is exactly the last thirty days (`recorded_exact`). Numbers are exact, dates are kept as their
times in milliseconds, the texts of the reasons as the numbers in them; log lines are left out. Instruments are not
names of `Object.prototype`.
-/
namespace SuperAi.Anomaly
open SuperAi.Foundations
set_option autoImplicit false

abbrev Instrument := { name : String // name ∉ prototypeKeys }

structure ExecutedTrade where
  tradeId : String
  strategyId : String
  instrument : Instrument
  quantity : ℚ
  price : ℚ
  timestamp : ℤ

abbrev Distribution := KeyValue Instrument ℚ

structure TradeProfile where
  instrumentDistribution : Distribution
  totalTrades : ℕ
  averageOrderSize : ℚ
  averageHoldTimeMinutes : ℚ

inductive DriftReason
  | instrumentDistribution (chiSq : ℚ)
  | orderSize (deviation : ℚ)
  | holdTime (deviation : ℚ)
  deriving DecidableEq, Repr

structure DriftCheckResult where
  driftDetected : Bool
  driftScore : ℚ
  driftReasons : List DriftReason
  deriving DecidableEq, Repr

structure DriftDetectorConfig where
  driftThreshold : ℚ
  profileTtlSeconds : ℤ

/-! ## Profiles -/

def chiSquaredDistance (baseline current : Distribution) : ℚ :=
  let allKeys := (baseline.map Prod.fst ++ current.map Prod.fst).dedup
  (allKeys.map fun key => chiTerm ((baseline.get key).getD 0) ((current.get key).getD 0)).sum

def normalizeDistribution (dist : Distribution) : Distribution :=
  let total := (dist.map Prod.snd).sum
  if total = 0 then dist else dist.map fun entry => (entry.1, entry.2 / total)

/-- In minutes. -/
def ExecutedTrade.minutes (trade : ExecutedTrade) : ℚ := (trade.timestamp : ℚ) / 60000

def computeProfile (trades : List ExecutedTrade) : TradeProfile :=
  if trades = [] then ⟨[], 0, 0, 0⟩
  else
    let instrumentCounts := KeyValue.collect ExecutedTrade.instrument (fun count _ => count.getD 0 + 1) trades
    let totalSize := (trades.map fun trade => trade.quantity * trade.price).sum
    let sortedTrades := sort (fun a b => a.minutes - b.minutes) trades
    let holdTimes := gaps ExecutedTrade.instrument ExecutedTrade.minutes sortedTrades
    { instrumentDistribution := instrumentCounts
      totalTrades := trades.length
      averageOrderSize := totalSize / trades.length
      averageHoldTimeMinutes := if 0 < holdTimes.count then holdTimes.sum / holdTimes.count else 0 }

/-! ## Checking -/

def deviation (baseline current : ℚ) : Option ℚ :=
  if 0 < baseline ∧ 0 < current then some (|current - baseline| / baseline) else none

/-- The score of a deviation, none counting as 0. -/
def deviationScore (deviation : Option ℚ) : ℚ := deviation.elim 0 fun d => min d 1

/-- The weighted scores, and the reasons. -/
def assess (config : DriftDetectorConfig) (chiSq : ℚ) (size hold : Option ℚ) : DriftCheckResult :=
  let instrumentDriftScore := min (chiSq / 2) 1
  let compositeScore := instrumentDriftScore * 0.4 + deviationScore size * 0.35 + deviationScore hold * 0.25
  let clampedScore := min (max compositeScore 0) 1
  { driftDetected := decide (config.driftThreshold ≤ clampedScore)
    driftScore := clampedScore
    driftReasons :=
      (if 0.3 < instrumentDriftScore then [.instrumentDistribution chiSq] else []) ++
        ((size.filter (0.5 < ·)).map .orderSize).toList ++ ((hold.filter (0.5 < ·)).map .holdTime).toList }

/-- `check` against the stored profile. -/
def check (config : DriftDetectorConfig) (baseline : Option TradeProfile) (recentTrades : List ExecutedTrade) :
    DriftCheckResult :=
  match baseline with
  | none => ⟨false, 0, []⟩
  | some baseline =>
    let current := computeProfile recentTrades
    if baseline.totalTrades = 0 then ⟨false, 0, []⟩
    else
      assess config
        (chiSquaredDistance (normalizeDistribution baseline.instrumentDistribution)
          (normalizeDistribution current.instrumentDistribution))
        (deviation baseline.averageOrderSize current.averageOrderSize)
        (deviation baseline.averageHoldTimeMinutes current.averageHoldTimeMinutes)

/-! ## Recording -/

/-- What Redis holds, each with the time it was written. -/
structure DriftStore where
  trades : KeyValue String (ℤ × List ExecutedTrade) := []
  profile : KeyValue String (ℤ × TradeProfile) := []

/-- The adapter's `set` passes the time to live on, or drops it as the shipped `RedisAdapter` does. -/
structure StrategyDriftDetector where
  config : DriftDetectorConfig
  setPassesTtl : Bool

def REDIS_KEY_PREFIX : String := "security:drift:profile:"

def tradesKey (strategyId : String) : String := REDIS_KEY_PREFIX ++ strategyId ++ ":trades"

def profileKey (strategyId : String) : String := REDIS_KEY_PREFIX ++ strategyId ++ ":profile"

def PROFILE_TTL_SECONDS : ℤ := 30 * 24 * 60 * 60

def thirtyDays : ℤ := 30 * 24 * 60 * 60 * 1000

namespace StrategyDriftDetector
variable (detector : StrategyDriftDetector)

/-- In milliseconds. -/
def ttl : ℤ :=
  1000 * (if 0 < detector.config.profileTtlSeconds then detector.config.profileTtlSeconds else PROFILE_TTL_SECONDS)

def keeps (written now : ℤ) : Bool := !detector.setPassesTtl || decide (now < written + detector.ttl)

/-- `redis.get`. -/
def read {α : Type} (keys : KeyValue String (ℤ × α)) (now : ℤ) (key : String) : Option α :=
  (keys.get key).bind fun entry => if detector.keeps entry.1 now then some entry.2 else none

def recordTrade (s : DriftStore) (trade : ExecutedTrade) (now : ℤ) : DriftStore :=
  let key := tradesKey trade.strategyId
  let trades := (detector.read s.trades now key).getD [] ++ [trade]
  let filtered := trades.filter fun t => decide (now - thirtyDays ≤ t.timestamp)
  { trades := s.trades.set key (now, filtered)
    profile := s.profile.set (profileKey trade.strategyId) (now, computeProfile filtered) }

def check (s : DriftStore) (strategyId : String) (recentTrades : List ExecutedTrade) (now : ℤ) : DriftCheckResult :=
  Anomaly.check detector.config (detector.read s.profile now (profileKey strategyId)) recentTrades

/-- Trades recorded one after the other, each at its time. -/
def storeAfter (records : List (ExecutedTrade × ℤ)) : DriftStore :=
  records.foldl (fun s record => detector.recordTrade s record.1 record.2) {}

end StrategyDriftDetector

/-! ## Distributions -/

theorem chiSquaredDistance_eq (baseline current : Distribution) :
    chiSquaredDistance baseline current =
      chiSquared (baseline.map Prod.fst ++ current.map Prod.fst).toFinset (fun key => (baseline.get key).getD 0)
        fun key => (current.get key).getD 0 := by
  have hdedup : (baseline.map Prod.fst ++ current.map Prod.fst).dedup.toFinset =
      (baseline.map Prod.fst ++ current.map Prod.fst).toFinset := by
    ext key
    simp
  rw [chiSquaredDistance, chiSquared, ← hdedup, List.sum_toFinset _ (List.nodup_dedup _)]

/-- The share of an instrument in the trades, 0 if there are none. -/
def weight (trades : List ExecutedTrade) (instrument : Instrument) : ℚ :=
  (trades.countP fun trade => trade.instrument = instrument) / trades.length

def instruments (trades : List ExecutedTrade) : Finset Instrument := (trades.map ExecutedTrade.instrument).toFinset

theorem weight_nonneg (trades : List ExecutedTrade) (instrument : Instrument) : 0 ≤ weight trades instrument :=
  div_nonneg (Nat.cast_nonneg _) (Nat.cast_nonneg _)

theorem sum_count {s : Finset Instrument} (trades : List ExecutedTrade) (h : ∀ trade ∈ trades, trade.instrument ∈ s) :
    ∑ instrument ∈ s, (trades.countP fun trade => trade.instrument = instrument) = trades.length := by
  induction trades with
  | nil => simp
  | cons trade trades ih =>
    have hmem := h trade List.mem_cons_self
    simp only [List.countP_cons, Finset.sum_add_distrib, ih fun t ht => h t (List.mem_cons_of_mem _ ht),
      decide_eq_true_eq, Finset.sum_ite_eq, hmem, if_true, List.length_cons]

theorem sum_weight_le {s : Finset Instrument} (trades : List ExecutedTrade)
    (h : ∀ trade ∈ trades, trade.instrument ∈ s) :
    ∑ instrument ∈ s, weight trades instrument ≤ 1 := by
  simp only [weight]
  rw [← Finset.sum_div, ← Nat.cast_sum, sum_count trades h]
  exact div_self_le_one _

theorem foldl_count (trades : List ExecutedTrade) (start : Option ℚ) :
    trades.foldl (fun count _ => some (count.getD 0 + 1)) start =
      if trades = [] then start else some (start.getD 0 + trades.length) := by
  induction trades generalizing start with
  | nil => rfl
  | cons trade trades ih =>
    rw [List.foldl_cons, ih, if_neg (List.cons_ne_nil _ _)]
    by_cases hnil : trades = []
    · simp [hnil]
    · rw [if_neg hnil]
      simp
      ring

abbrev counts (trades : List ExecutedTrade) : Distribution :=
  KeyValue.collect ExecutedTrade.instrument (fun count _ => count.getD 0 + 1) trades

theorem get_counts (trades : List ExecutedTrade) (instrument : Instrument) :
    ((counts trades).get instrument).getD 0 = (trades.countP fun trade => trade.instrument = instrument : ℕ) := by
  rw [counts, KeyValue.get_collect, foldl_count, List.countP_eq_length_filter]
  by_cases hnil : (trades.filter fun trade => trade.instrument = instrument) = []
  · rw [if_pos hnil, hnil]
    rfl
  · rw [if_neg hnil]
    simp

theorem mem_keys_counts (trades : List ExecutedTrade) (instrument : Instrument) :
    instrument ∈ (counts trades).map Prod.fst ↔ instrument ∈ instruments trades := by
  rw [← not_iff_not, ← KeyValue.get_eq_none_iff, counts, KeyValue.get_collect, foldl_count, instruments,
    List.mem_toFinset, List.mem_map]
  by_cases hnil : (trades.filter fun trade => trade.instrument = instrument) = []
  · rw [if_pos hnil, eq_self_iff_true, true_iff]
    rintro ⟨trade, hmem, heq⟩
    exact List.filter_eq_nil_iff.mp hnil trade hmem (by simpa using heq)
  · rw [if_neg hnil]
    obtain ⟨trade, htrade⟩ := List.exists_mem_of_ne_nil _ hnil
    obtain ⟨hmem, heq⟩ := List.mem_filter.mp htrade
    simp only [reduceCtorEq, false_iff, not_not]
    exact ⟨trade, hmem, of_decide_eq_true heq⟩

theorem sum_counts (trades : List ExecutedTrade) : ((counts trades).map Prod.snd).sum = trades.length := by
  induction trades using List.reverseRecOn with
  | nil => rfl
  | append_singleton trades trade ih =>
    have hstep : counts (trades ++ [trade]) =
        KeyValue.put (counts trades) trade.instrument (((counts trades).get trade.instrument).getD 0 + 1) := by
      rw [counts, KeyValue.collect, List.foldl_append]
      rfl
    have hsum := KeyValue.sum_put (counts trades) trade.instrument
      (((counts trades).get trade.instrument).getD 0 + 1)
    rw [hstep, List.length_append, List.length_singleton]
    push_cast
    linarith

theorem distribution_computeProfile (trades : List ExecutedTrade) :
    (computeProfile trades).instrumentDistribution = counts trades := by
  unfold computeProfile
  by_cases hnil : trades = []
  · rw [if_pos hnil, hnil]
    rfl
  · rw [if_neg hnil]

/-- The normalized distribution of a profile gives each instrument its share. -/
theorem get_normalized (trades : List ExecutedTrade) (instrument : Instrument) :
    ((normalizeDistribution (computeProfile trades).instrumentDistribution).get instrument).getD 0 =
      weight trades instrument := by
  rw [distribution_computeProfile, normalizeDistribution, sum_counts, weight]
  by_cases hzero : (trades.length : ℚ) = 0
  · rw [if_pos hzero, get_counts, hzero, div_zero]
    have hnil : trades = [] := List.length_eq_zero_iff.mp (Nat.cast_eq_zero.mp hzero)
    simp [hnil]
  · rw [if_neg hzero, KeyValue.get_map (counts trades) (· / (trades.length : ℚ)), ← get_counts]
    cases (counts trades).get instrument with
    | none => simp
    | some count => rfl

theorem keys_normalized (trades : List ExecutedTrade) :
    ((normalizeDistribution (computeProfile trades).instrumentDistribution).map Prod.fst).toFinset =
      instruments trades := by
  have hkeys : (normalizeDistribution (computeProfile trades).instrumentDistribution).map Prod.fst =
      (counts trades).map Prod.fst := by
    rw [distribution_computeProfile, normalizeDistribution]
    split
    · rfl
    · rw [List.map_map]
      rfl
  rw [hkeys]
  ext instrument
  rw [List.mem_toFinset, mem_keys_counts]

/-- The distance of two profiles is that of the shares. -/
theorem chiSquaredDistance_profiles (past recent : List ExecutedTrade) :
    chiSquaredDistance (normalizeDistribution (computeProfile past).instrumentDistribution)
        (normalizeDistribution (computeProfile recent).instrumentDistribution) =
      chiSquared (instruments past ∪ instruments recent) (weight past) (weight recent) := by
  rw [chiSquaredDistance_eq, List.toFinset_append, keys_normalized, keys_normalized]
  simp only [get_normalized]

theorem chiSquared_profiles_le (past recent : List ExecutedTrade) :
    chiSquared (instruments past ∪ instruments recent) (weight past) (weight recent) ≤ 2 := by
  have hle := chiSquared_le (s := instruments past ∪ instruments recent) (fun k _ => weight_nonneg past k)
    fun k _ => weight_nonneg recent k
  have hpast : ∑ k ∈ instruments past ∪ instruments recent, weight past k ≤ 1 :=
    sum_weight_le past fun trade hmem =>
      Finset.mem_union_left _ (List.mem_toFinset.mpr (List.mem_map_of_mem hmem))
  have hrecent : ∑ k ∈ instruments past ∪ instruments recent, weight recent k ≤ 1 :=
    sum_weight_le recent fun trade hmem =>
      Finset.mem_union_right _ (List.mem_toFinset.mpr (List.mem_map_of_mem hmem))
  linarith

/-! ## The order of the trades -/

section Order
variable {trades trades' past past' recent recent' : List ExecutedTrade}

theorem weight_perm (h : trades.Perm trades') : weight trades = weight trades' := by
  funext instrument
  rw [weight, weight, h.countP_eq, h.length_eq]

theorem instruments_perm (h : trades.Perm trades') : instruments trades = instruments trades' :=
  List.toFinset_eq_of_perm _ _ (h.map _)

/-- A profile does not depend on the order of its trades, not even on that of simultaneous ones. -/
theorem computeProfile_perm (h : trades.Perm trades') :
    (computeProfile trades).totalTrades = (computeProfile trades').totalTrades ∧
      (computeProfile trades).averageOrderSize = (computeProfile trades').averageOrderSize ∧
      (computeProfile trades).averageHoldTimeMinutes = (computeProfile trades').averageHoldTimeMinutes := by
  by_cases hnil : trades = []
  · have hnil' : trades' = [] := (hnil ▸ h).nil_eq.symm
    rw [hnil, hnil']
    exact ⟨rfl, rfl, rfl⟩
  · have hnil' : trades' ≠ [] := fun heq => hnil (heq ▸ h).eq_nil
    have hsorted : (sort (fun a b => a.minutes - b.minutes) trades).Perm
        (sort (fun a b => a.minutes - b.minutes) trades') :=
      (sort_perm _ _).trans (h.trans (sort_perm _ _).symm)
    have hrising : ∀ l : List ExecutedTrade, (sort (fun a b => a.minutes - b.minutes) l).Pairwise fun a b =>
        a.minutes ≤ b.minutes := fun l =>
      (pairwise_sort (consistent_rising ExecutedTrade.minutes) l).imp fun hle => sub_nonneg.mp hle
    simp only [computeProfile, hnil, hnil', if_false, h.length_eq, (h.map _).sum_eq, count_gaps_perm hsorted,
      sum_gaps_perm hsorted (hrising trades) (hrising trades'), and_self]

theorem check_profile (config : DriftDetectorConfig) (past recent : List ExecutedTrade) :
    check config (some (computeProfile past)) recent =
      if (computeProfile past).totalTrades = 0 then ⟨false, 0, []⟩
      else assess config (chiSquared (instruments past ∪ instruments recent) (weight past) (weight recent))
        (deviation (computeProfile past).averageOrderSize (computeProfile recent).averageOrderSize)
        (deviation (computeProfile past).averageHoldTimeMinutes (computeProfile recent).averageHoldTimeMinutes) := by
  simp only [check, chiSquaredDistance_profiles]

theorem deviation_self (x : ℚ) : deviation x x = none ∨ deviation x x = some 0 := by
  unfold deviation
  split
  · exact .inr (by simp)
  · exact .inl rfl

end Order

/-! ## Scores and reasons -/

theorem deviation_nonneg {baseline current d : ℚ} (h : deviation baseline current = some d) : 0 ≤ d := by
  unfold deviation at h
  obtain ⟨hpos, heq⟩ := Option.ite_none_right_eq_some.mp h
  obtain rfl := Option.some.inj heq
  exact div_nonneg (abs_nonneg _) hpos.1.le

theorem deviationScore_mem {d : Option ℚ} (h : ∀ x, d = some x → 0 ≤ x) :
    0 ≤ deviationScore d ∧ deviationScore d ≤ 1 := by
  cases d with
  | none => exact ⟨le_rfl, zero_le_one⟩
  | some x => exact ⟨le_min (h x rfl) zero_le_one, min_le_right _ _⟩

/-- A deviation is given as a reason if its score is above one half. -/
theorem filter_eq_none {d : Option ℚ} : d.filter (0.5 < ·) = none ↔ deviationScore d ≤ 0.5 := by
  cases d with
  | none => norm_num [deviationScore]
  | some x =>
    simp only [Option.filter_some, deviationScore, Option.elim_some]
    by_cases hx : 0.5 < x
    · have hmin : ¬ min x 1 ≤ 0.5 := by
        rw [not_le]
        exact lt_min hx (by norm_num)
      simp [hx, hmin]
    · have hmin : min x 1 ≤ 0.5 := (min_le_left x 1).trans (not_lt.mp hx)
      simp [hx, hmin]

/-- What a check is worth, whatever the two profiles. -/
theorem assess_score (config : DriftDetectorConfig) {chiSq : ℚ} {size hold : Option ℚ} (hchi : 0 ≤ chiSq)
    (hchi' : chiSq ≤ 2) (hsize : ∀ x, size = some x → 0 ≤ x) (hhold : ∀ x, hold = some x → 0 ≤ x) :
    (assess config chiSq size hold).driftScore =
        chiSq / 2 * 0.4 + deviationScore size * 0.35 + deviationScore hold * 0.25 ∧
      0 ≤ (assess config chiSq size hold).driftScore ∧ (assess config chiSq size hold).driftScore ≤ 1 ∧
      ((assess config chiSq size hold).driftReasons = [] → (assess config chiSq size hold).driftScore ≤ 0.42) ∧
      ((assess config chiSq size hold).driftReasons ≠ [] → 0.12 < (assess config chiSq size hold).driftScore) := by
  obtain ⟨hs0, hs1⟩ := deviationScore_mem hsize
  obtain ⟨hh0, hh1⟩ := deviationScore_mem hhold
  have hinstrument : min (chiSq / 2) 1 = chiSq / 2 := min_eq_left (by linarith)
  have hscore : (assess config chiSq size hold).driftScore =
      chiSq / 2 * 0.4 + deviationScore size * 0.35 + deviationScore hold * 0.25 := by
    simp only [assess, hinstrument]
    rw [max_eq_left (by linarith), min_eq_left (by linarith)]
  have hreasons : (assess config chiSq size hold).driftReasons = [] ↔
      chiSq / 2 ≤ 0.3 ∧ deviationScore size ≤ 0.5 ∧ deviationScore hold ≤ 0.5 := by
    simp only [assess, hinstrument, List.append_eq_nil_iff, Option.toList_eq_nil_iff, Option.map_eq_none_iff,
      filter_eq_none, and_assoc]
    by_cases h : 0.3 < chiSq / 2
    · rw [if_pos h]
      simp [not_le.mpr h]
    · rw [if_neg h]
      simp [not_lt.mp h]
  refine ⟨hscore, by rw [hscore]; linarith, by rw [hscore]; linarith, fun hnil => ?_, fun hsome => ?_⟩
  · obtain ⟨h1, h2, h3⟩ := hreasons.mp hnil
    rw [hscore]
    linarith
  · rw [hscore]
    by_contra hlow
    refine hsome (hreasons.mpr ⟨?_, ?_, ?_⟩)
    all_goals
      by_contra hhigh
      linarith

/-- **Scores and reasons.** Against the profile of any trades, the score of a check is the weighted sum of the three
scores, which lies between 0 and 1 without the clamps; a check that gives no reason scores at most 0.42, and one that
gives a reason more than 0.12. -/
theorem check_score (config : DriftDetectorConfig) {past : List ExecutedTrade} (hpast : past ≠ [])
    (recent : List ExecutedTrade) :
    (check config (some (computeProfile past)) recent).driftScore =
        chiSquared (instruments past ∪ instruments recent) (weight past) (weight recent) / 2 * 0.4 +
          deviationScore (deviation (computeProfile past).averageOrderSize (computeProfile recent).averageOrderSize) *
            0.35 +
          deviationScore (deviation (computeProfile past).averageHoldTimeMinutes
            (computeProfile recent).averageHoldTimeMinutes) * 0.25 ∧
      0 ≤ (check config (some (computeProfile past)) recent).driftScore ∧
      (check config (some (computeProfile past)) recent).driftScore ≤ 1 ∧
      ((check config (some (computeProfile past)) recent).driftReasons = [] →
        (check config (some (computeProfile past)) recent).driftScore ≤ 0.42) ∧
      ((check config (some (computeProfile past)) recent).driftReasons ≠ [] →
        0.12 < (check config (some (computeProfile past)) recent).driftScore) := by
  have htotal : (computeProfile past).totalTrades ≠ 0 := by
    simp [computeProfile, hpast]
  rw [check_profile, if_neg htotal]
  exact assess_score config (chiSquared_nonneg _ _ _) (chiSquared_profiles_le past recent)
    (fun _ h => deviation_nonneg h) fun _ h => deviation_nonneg h

def btc : Instrument := ⟨"BTC-USDT", by decide⟩

def eth : Instrument := ⟨"ETH-USDT", by decide⟩

theorem check_score_other :
    (check ⟨0.3, 0⟩ (some (computeProfile [⟨"t1", "s", btc, 1, 50000, 0⟩])) [⟨"t2", "s", eth, 2, 2500, 0⟩]).driftScore
      ≤ 1 :=
  (check_score ⟨0.3, 0⟩ (by simp) _).2.2.1

/-! ## Recording over time -/

namespace StrategyDriftDetector
variable (detector : StrategyDriftDetector)

/-- The records of a strategy. -/
def recordsOf (strategyId : String) (records : List (ExecutedTrade × ℤ)) : List (ExecutedTrade × ℤ) :=
  records.filter fun record => record.1.strategyId = strategyId

/-- The trades recorded that are not older than thirty days at a time. -/
def lastThirtyDays (records : List (ExecutedTrade × ℤ)) (now : ℤ) : List ExecutedTrade :=
  (records.map Prod.fst).filter fun trade => decide (now - thirtyDays ≤ trade.timestamp)

theorem key_inj {suffix a b : String} (h : REDIS_KEY_PREFIX ++ a ++ suffix = REDIS_KEY_PREFIX ++ b ++ suffix) :
    a = b := by
  have hlist := congrArg String.toList h
  simp only [String.toList_append] at hlist
  exact String.toList_injective (List.append_cancel_left (List.append_cancel_right hlist))

theorem tradesKey_inj {a b : String} (h : tradesKey a = tradesKey b) : a = b := key_inj h

theorem profileKey_inj {a b : String} (h : profileKey a = profileKey b) : a = b := key_inj h

theorem storeAfter_concat (records : List (ExecutedTrade × ℤ)) (record : ExecutedTrade × ℤ) :
    detector.storeAfter (records ++ [record]) =
      detector.recordTrade (detector.storeAfter records) record.1 record.2 := by
  rw [storeAfter, List.foldl_append]
  rfl

theorem lastThirtyDays_concat (records : List (ExecutedTrade × ℤ)) (record : ExecutedTrade × ℤ) (now : ℤ) :
    lastThirtyDays (records ++ [record]) now =
      (lastThirtyDays records now ++ [record.1]).filter fun trade => decide (now - thirtyDays ≤ trade.timestamp) := by
  simp [lastThirtyDays, List.filter_filter]

/-- Cutting twice is cutting at the later time. -/
theorem lastThirtyDays_later (records : List (ExecutedTrade × ℤ)) {then_ now : ℤ} (h : then_ ≤ now) :
    (lastThirtyDays records then_).filter (fun trade => decide (now - thirtyDays ≤ trade.timestamp)) =
      lastThirtyDays records now := by
  rw [lastThirtyDays, lastThirtyDays, List.filter_filter]
  apply List.filter_congr
  intro trade _
  by_cases hlater : now - thirtyDays ≤ trade.timestamp
  · have hearlier : then_ - thirtyDays ≤ trade.timestamp := by omega
    simp [hlater, hearlier]
  · simp [hlater]

variable {detector}

/-- What has expired would have been cut. -/
theorem lastThirtyDays_expired {records : List (ExecutedTrade × ℤ)} {written now : ℤ}
    (httl : thirtyDays ≤ detector.ttl) (hexpired : detector.keeps written now = false)
    (htimes : ∀ record ∈ records, record.1.timestamp < record.2 ∧ record.2 ≤ written) :
    lastThirtyDays records now = [] := by
  rw [lastThirtyDays, List.filter_eq_nil_iff]
  intro trade hmem
  obtain ⟨record, hrecord, rfl⟩ := List.mem_map.mp hmem
  obtain ⟨hbefore, hwritten⟩ := htimes record hrecord
  rw [keeps, Bool.or_eq_false_iff, decide_eq_false_iff_not] at hexpired
  have hcut : ¬ now - thirtyDays ≤ record.1.timestamp := by omega
  simpa using hcut

theorem le_last {records : List (ExecutedTrade × ℤ)} (h : records.Pairwise fun a b => a.2 ≤ b.2)
    {last : ExecutedTrade × ℤ} (hlast : records.getLast? = some last) : ∀ record ∈ records, record.2 ≤ last.2 := by
  obtain ⟨start, rfl⟩ := List.getLast?_eq_some_iff.mp hlast
  intro record hmem
  rcases List.mem_append.mp hmem with hmem | hmem
  · exact (List.pairwise_append.mp h).2.2 record hmem last List.mem_cons_self
  · rw [List.mem_singleton.mp hmem]

/-- What is stored for a strategy whose trades were last recorded at some time. -/
structure Stored (s : DriftStore) (strategyId : String) (records : List (ExecutedTrade × ℤ)) : Prop where
  none : recordsOf strategyId records = [] →
    s.trades.get (tradesKey strategyId) = none ∧ s.profile.get (profileKey strategyId) = none
  some : ∀ trade written, (recordsOf strategyId records).getLast? = some (trade, written) →
    s.trades.get (tradesKey strategyId) = some (written, lastThirtyDays (recordsOf strategyId records) written) ∧
      s.profile.get (profileKey strategyId) =
        some (written, computeProfile (lastThirtyDays (recordsOf strategyId records) written))

theorem stored_storeAfter (httl : thirtyDays ≤ detector.ttl) {records : List (ExecutedTrade × ℤ)}
    (horder : records.Pairwise fun a b => a.2 ≤ b.2) (htimes : ∀ record ∈ records, record.1.timestamp < record.2)
    (strategyId : String) : Stored (detector.storeAfter records) strategyId records := by
  induction records using List.reverseRecOn with
  | nil => exact ⟨fun _ => ⟨rfl, rfl⟩, fun _ _ hlast => nomatch hlast⟩
  | append_singleton records record ih =>
    obtain ⟨trade, now⟩ := record
    rw [List.pairwise_append] at horder
    obtain ⟨horder, -, hlater⟩ := horder
    have hstored := ih horder fun r hr => htimes r (List.mem_append_left _ hr)
    rw [storeAfter_concat]
    by_cases hmine : trade.strategyId = strategyId
    · subst hmine
      have hrecords : recordsOf trade.strategyId (records ++ [(trade, now)]) =
          recordsOf trade.strategyId records ++ [(trade, now)] := by
        simp [recordsOf]
      -- the trades read are those of the last thirty days, up to what will be cut now
      have hread : ((detector.read (detector.storeAfter records).trades now (tradesKey trade.strategyId)).getD [] ++
          [trade]).filter (fun t => decide (now - thirtyDays ≤ t.timestamp)) =
          lastThirtyDays (recordsOf trade.strategyId (records ++ [(trade, now)])) now := by
        rw [hrecords, lastThirtyDays_concat, List.filter_append, List.filter_append]
        congr 1
        cases hlast : (recordsOf trade.strategyId records).getLast? with
        | none =>
          have hnil := List.getLast?_eq_none_iff.mp hlast
          rw [read, (hstored.none hnil).1, hnil]
          rfl
        | some last =>
          obtain ⟨earlier, written⟩ := last
          have hmem := List.mem_of_mem_filter (List.mem_of_getLast? hlast)
          have hle : written ≤ now := hlater _ hmem _ List.mem_cons_self
          rw [read, (hstored.some earlier written hlast).1, Option.bind_some]
          by_cases hkeeps : detector.keeps written now = true
          · rw [if_pos hkeeps, Option.getD_some, lastThirtyDays_later _ hle, lastThirtyDays_later _ le_rfl]
          · rw [if_neg hkeeps, Option.getD_none, lastThirtyDays_expired httl (Bool.eq_false_iff.mpr hkeeps)]
            intro r hr
            have hr' := List.mem_of_mem_filter hr
            exact ⟨htimes r (List.mem_append_left _ hr'), le_last (horder.filter _) hlast r hr⟩
      refine ⟨fun hnil => by simp [hrecords] at hnil, fun t written hlast => ?_⟩
      rw [hrecords, List.getLast?_concat] at hlast
      obtain ⟨rfl, rfl⟩ := Prod.mk.inj (Option.some.inj hlast)
      simp only [recordTrade, hread, KeyValue.get_set_self, and_self]
    · have hrecords : recordsOf strategyId (records ++ [(trade, now)]) = recordsOf strategyId records := by
        simp [recordsOf, hmine]
      have htrades : tradesKey strategyId ≠ tradesKey trade.strategyId := fun heq => hmine (tradesKey_inj heq).symm
      have hprofile : profileKey strategyId ≠ profileKey trade.strategyId := fun heq => hmine (profileKey_inj heq).symm
      refine ⟨?_, ?_⟩
      all_goals
        rw [hrecords]
        simp only [recordTrade, KeyValue.get_set_of_ne htrades, KeyValue.get_set_of_ne hprofile]
      · exact hstored.none
      · exact hstored.some

end StrategyDriftDetector

/-- **Thirty days.** However trades of several strategies are recorded, each after its own time, and if the configured
time to live is thirty days at least: what is stored for a strategy are exactly its trades of the thirty days before the
last one was recorded, and a check compares with the profile of these until they expire. -/
theorem recorded_exact {detector : StrategyDriftDetector} (httl : thirtyDays ≤ detector.ttl)
    {records : List (ExecutedTrade × ℤ)} (horder : records.Pairwise fun a b => a.2 ≤ b.2)
    (htimes : ∀ record ∈ records, record.1.timestamp < record.2) (strategyId : String) (recent : List ExecutedTrade)
    (now : ℤ) :
    (StrategyDriftDetector.recordsOf strategyId records = [] →
      detector.check (detector.storeAfter records) strategyId recent now = ⟨false, 0, []⟩) ∧
    ∀ trade written, (StrategyDriftDetector.recordsOf strategyId records).getLast? = some (trade, written) →
      (detector.storeAfter records).trades.get (tradesKey strategyId) = some (written,
        StrategyDriftDetector.lastThirtyDays (StrategyDriftDetector.recordsOf strategyId records) written) ∧
      detector.check (detector.storeAfter records) strategyId recent now =
        if detector.keeps written now then
          check detector.config (some (computeProfile (StrategyDriftDetector.lastThirtyDays
            (StrategyDriftDetector.recordsOf strategyId records) written))) recent
        else ⟨false, 0, []⟩ := by
  have hstored := StrategyDriftDetector.stored_storeAfter httl horder htimes strategyId
  refine ⟨fun hnil => ?_, fun trade written hlast => ⟨(hstored.some trade written hlast).1, ?_⟩⟩
  · rw [StrategyDriftDetector.check, StrategyDriftDetector.read, (hstored.none hnil).2]
    rfl
  · rw [StrategyDriftDetector.check, StrategyDriftDetector.read, (hstored.some trade written hlast).2, Option.bind_some]
    by_cases hkeeps : detector.keeps written now = true
    · rw [if_pos hkeeps, if_pos hkeeps]
    · rw [if_neg hkeeps, if_neg hkeeps]
      rfl

/-- Two strategies; the first trade has left the window when the third is recorded. -/
theorem recorded_exact_later :
    (StrategyDriftDetector.storeAfter ⟨⟨0.3, 0⟩, true⟩ [(⟨"t1", "s", btc, 1, 50000, 0⟩, 1),
      (⟨"t2", "r", eth, 2, 2500, 5⟩, 6),
      (⟨"t3", "s", eth, 2, 2500, 2592000001⟩, 2592000002)]).trades.get (tradesKey "s") =
        some (2592000002, [⟨"t3", "s", eth, 2, 2500, 2592000001⟩]) :=
  ((@recorded_exact ⟨⟨0.3, 0⟩, true⟩ (by decide) _ (by decide) (by decide) "s" [] 2592000003).2
    ⟨"t3", "s", eth, 2, 2500, 2592000001⟩ 2592000002 rfl).1

end SuperAi.Anomaly
