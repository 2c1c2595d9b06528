import SuperAi.Foundations.FixedWindow
import Mathlib.Algebra.Order.Field.Rat

/-! # Order quotas of an exchange

`ExchangeQuotaAdapter` (`rate-limit/exchange.quota.adapter.ts`): a counter per exchange and second and
one per exchange and day, each of which expires its window after the order that started it. Orders are
sent when `canSendOrder` allows them, and each is recorded. The windows are fixed, so an interval can
have up to twice the quota less one order (`sent_bounded`). Times are in milliseconds, and the warning
that is logged is left out.
-/
namespace SuperAi.RateLimit
open SuperAi.Foundations
set_option autoImplicit false

structure ExchangeQuotaConfig where
  exchangeId : String
  ordersPerSecond : ℕ
  ordersPerDay : ℕ
  warningThresholdPercent : ℚ
  deriving DecidableEq, Repr

structure QuotaCheckResult where
  allowed : Bool
  secondsRemaining : ℕ
  dailyRemaining : ℕ
  warning : Bool
  deriving DecidableEq, Repr

/-- The counters under the keys of the seconds and of the days. -/
structure QuotaStore where
  sec : ExpiringStore String ℕ := []
  day : ExpiringStore String ℕ := []

namespace ExchangeQuotaAdapter

def secondTtl : ℤ := 1000

def dayTtl : ℤ := 86400 * 1000

/-- `INCR`, and `EXPIRE` where the counter is new. -/
def countUp (ttl now : ℤ) (counters : ExpiringStore String ℕ) (key : String) : ℕ × ExpiringStore String ℕ :=
  match counters.read now key with
  | none => (1, counters.setex now ttl key 1)
  | some count => (count + 1, counters.replace key (count + 1))

variable (configs : KeyValue String ExchangeQuotaConfig)

/-- `none` is the error of an exchange without a configuration, here and in the two methods. -/
def getConfig (exchangeId : String) : Option ExchangeQuotaConfig := KeyValue.get configs exchangeId

def recordOrderSent (now : ℤ) (s : QuotaStore) (exchangeId : String) : Option QuotaStore := do
  let _ ← getConfig configs exchangeId
  let (_, sec) := countUp secondTtl now s.sec exchangeId
  let (_, day) := countUp dayTtl now s.day exchangeId
  return ⟨sec, day⟩

def canSendOrder (now : ℤ) (s : QuotaStore) (exchangeId : String) : Option QuotaCheckResult := do
  let config ← getConfig configs exchangeId
  let secCount := (s.sec.read now exchangeId).getD 0
  let dayCount := (s.day.read now exchangeId).getD 0
  let secondsRemaining := config.ordersPerSecond - secCount
  let dailyRemaining := config.ordersPerDay - dayCount
  let usedPercent : ℚ := (dayCount : ℚ) / config.ordersPerDay * 100
  return {
    allowed := decide (0 < secondsRemaining) && decide (0 < dailyRemaining)
    secondsRemaining := secondsRemaining
    dailyRemaining := dailyRemaining
    warning := decide (config.warningThresholdPercent ≤ usedPercent) }

end ExchangeQuotaAdapter

/-! ## Attempts -/

structure OrderAttempt where
  exchangeId : String
  time : ℤ
  deriving DecidableEq, Repr

/-- The counters, and the orders sent so far. -/
structure Trading where
  store : QuotaStore := {}
  sent : List OrderAttempt := []

namespace Trading
open ExchangeQuotaAdapter
variable (configs : KeyValue String ExchangeQuotaConfig)

/-- The order is sent and recorded if it is allowed. -/
def attempt (s : Trading) (order : OrderAttempt) : Trading :=
  match canSendOrder configs order.time s.store order.exchangeId with
  | some result =>
    if result.allowed then
      match recordOrderSent configs order.time s.store order.exchangeId with
      | some store => ⟨store, s.sent ++ [order]⟩
      | none => s
    else s
  | none => s

def run (orders : List OrderAttempt) : Trading := orders.foldl (attempt configs) {}

def sentTo (s : Trading) (exchangeId : String) : List ℤ :=
  (s.sent.filter fun order => order.exchangeId == exchangeId).map OrderAttempt.time

end Trading

/-! ## The counters as windows -/

namespace ExchangeQuotaAdapter
variable {configs : KeyValue String ExchangeQuotaConfig} {counters : ExpiringStore String ℕ} {now ttl : ℤ}
  {key : String}

theorem get_countUp_self : KeyValue.get (countUp ttl now counters key).2 key =
    some (FixedWindow.hit ttl now (KeyValue.get counters key)) := by
  unfold countUp
  cases hread : counters.read now key with
  | none => exact FixedWindow.get_setex_of_read hread
  | some count => exact FixedWindow.get_replace_of_read hread

theorem get_countUp_of_ne {other : String} (hne : other ≠ key) :
    KeyValue.get (countUp ttl now counters key).2 other = KeyValue.get counters other := by
  unfold countUp
  cases counters.read now key with
  | none => exact KeyValue.get_set_of_ne hne
  | some count => exact ExpiringStore.get_replace_of_ne hne

end ExchangeQuotaAdapter

namespace Trading
open ExchangeQuotaAdapter
variable {configs : KeyValue String ExchangeQuotaConfig} {s : Trading} {order : OrderAttempt}

/-- What an attempt does: nothing, or an order goes out below both quotas. -/
theorem attempt_cases (configs : KeyValue String ExchangeQuotaConfig) (s : Trading) (order : OrderAttempt) :
    s.attempt configs order = s ∨
      ∃ config, getConfig configs order.exchangeId = some config ∧
        FixedWindow.count (KeyValue.get s.store.sec order.exchangeId) order.time < config.ordersPerSecond ∧
        FixedWindow.count (KeyValue.get s.store.day order.exchangeId) order.time < config.ordersPerDay ∧
        s.attempt configs order = ⟨⟨(countUp secondTtl order.time s.store.sec order.exchangeId).2,
          (countUp dayTtl order.time s.store.day order.exchangeId).2⟩, s.sent ++ [order]⟩ := by
  unfold attempt canSendOrder recordOrderSent
  cases hconfig : getConfig configs order.exchangeId with
  | none => exact .inl rfl
  | some config =>
    simp only [Option.bind_eq_bind, Option.bind_some, Option.pure_def, FixedWindow.read_getD, Bool.and_eq_true,
      decide_eq_true_eq]
    by_cases hallowed : 0 < config.ordersPerSecond
          - FixedWindow.count (KeyValue.get s.store.sec order.exchangeId) order.time ∧
        0 < config.ordersPerDay - FixedWindow.count (KeyValue.get s.store.day order.exchangeId) order.time
    · rw [if_pos hallowed]
      exact .inr ⟨config, rfl, by omega, by omega, rfl⟩
    · rw [if_neg hallowed]
      exact .inl rfl

/-- Both counters of an exchange bound the orders sent to it. -/
structure WithinQuota (config : ExchangeQuotaConfig) (exchangeId : String) (clock : ℤ) (s : Trading) : Prop where
  second : FixedWindow.Windowed secondTtl config.ordersPerSecond clock (s.sentTo exchangeId)
    (KeyValue.get s.store.sec exchangeId)
  day : FixedWindow.Windowed dayTtl config.ordersPerDay clock (s.sentTo exchangeId)
    (KeyValue.get s.store.day exchangeId)

theorem WithinQuota.attempt {config : ExchangeQuotaConfig} {exchangeId : String} {clock : ℤ}
    (h : WithinQuota config exchangeId clock s) (hconfig : getConfig configs exchangeId = some config)
    (hle : clock ≤ order.time) : WithinQuota config exchangeId order.time (s.attempt configs order) := by
  have hlater : WithinQuota config exchangeId order.time s := ⟨h.second.later hle, h.day.later hle⟩
  obtain hsame | ⟨found, hfound, hsecond, hday, hsent⟩ := attempt_cases configs s order
  · rwa [hsame]
  rw [hsent]
  by_cases heq : order.exchangeId = exchangeId
  · subst heq
    obtain rfl := Option.some.inj (hfound.symm.trans hconfig)
    have hhits : sentTo ⟨⟨(countUp secondTtl order.time s.store.sec order.exchangeId).2,
        (countUp dayTtl order.time s.store.day order.exchangeId).2⟩, s.sent ++ [order]⟩ order.exchangeId =
          s.sentTo order.exchangeId ++ [order.time] := by
      simp [sentTo, List.filter_append]
    constructor
    · rw [hhits, get_countUp_self]
      exact hlater.second.hit hsecond
    · rw [hhits, get_countUp_self]
      exact hlater.day.hit hday
  · have hhits : sentTo ⟨⟨(countUp secondTtl order.time s.store.sec order.exchangeId).2,
        (countUp dayTtl order.time s.store.day order.exchangeId).2⟩, s.sent ++ [order]⟩ exchangeId =
          s.sentTo exchangeId := by
      simp [sentTo, List.filter_append, heq]
    constructor
    · rw [hhits, get_countUp_of_ne (Ne.symm heq)]
      exact hlater.second
    · rw [hhits, get_countUp_of_ne (Ne.symm heq)]
      exact hlater.day

theorem WithinQuota.attempts {config : ExchangeQuotaConfig} {exchangeId : String}
    (hconfig : getConfig configs exchangeId = some config) {orders : List OrderAttempt} {clock : ℤ}
    (h : WithinQuota config exchangeId clock s)
    (htimes : (clock :: orders.map OrderAttempt.time).Pairwise (· ≤ ·)) :
    ∃ clock', WithinQuota config exchangeId clock' (orders.foldl (Trading.attempt configs) s) := by
  induction orders generalizing s clock with
  | nil => exact ⟨clock, h⟩
  | cons order orders ih =>
    obtain ⟨hfirst, hrest⟩ := List.pairwise_cons.mp htimes
    have hle : clock ≤ order.time := hfirst _ (by simp)
    exact ih (h.attempt hconfig hle) hrest

/-- **Orders in any interval.** Of the attempts at non-decreasing times, less than twice the quota goes out
in any second and in any day. -/
theorem sent_bounded {config : ExchangeQuotaConfig} {exchangeId : String}
    (hconfig : getConfig configs exchangeId = some config) {orders : List OrderAttempt}
    (htimes : (orders.map OrderAttempt.time).Pairwise (· ≤ ·)) (start : ℤ) :
    SlidingWindow.hitsIn secondTtl ((run configs orders).sentTo exchangeId) start ≤ 2 * config.ordersPerSecond - 1 ∧
      SlidingWindow.hitsIn dayTtl ((run configs orders).sentTo exchangeId) start ≤ 2 * config.ordersPerDay - 1 := by
  cases orders with
  | nil => simp [run, sentTo, SlidingWindow.hitsIn]
  | cons order orders =>
    have hstart : WithinQuota config exchangeId order.time {} := ⟨.nil, .nil⟩
    have htimes' : (order.time :: (order :: orders).map OrderAttempt.time).Pairwise (· ≤ ·) := by
      refine List.pairwise_cons.mpr ⟨fun t ht => ?_, htimes⟩
      rcases List.mem_cons.mp ht with rfl | hmem
      · exact le_refl _
      · exact (List.pairwise_cons.mp htimes).1 t hmem
    obtain ⟨clock, hquota⟩ := hstart.attempts hconfig htimes'
    exact ⟨hquota.second.bounded start, hquota.day.bounded start⟩

end Trading

/-! ## Orders on both sides of an expiry -/

def twoPerSecond : KeyValue String ExchangeQuotaConfig := [("binance", ⟨"binance", 2, 10, 80⟩)]

/-- One order opens a second, one ends it, and two follow in the next. -/
def straddling : List OrderAttempt := [0, 999, 1000, 1000].map fun time => ⟨"binance", time⟩

theorem straddling_bounded :
    SlidingWindow.hitsIn 1000 ((Trading.run twoPerSecond straddling).sentTo "binance") 999 ≤ 3 ∧
      SlidingWindow.hitsIn 86400000 ((Trading.run twoPerSecond straddling).sentTo "binance") 999 ≤ 19 :=
  have hconfig : ExchangeQuotaAdapter.getConfig twoPerSecond "binance" = some ⟨"binance", 2, 10, 80⟩ := by
    decide +kernel
  Trading.sent_bounded hconfig (by decide +kernel) 999

theorem straddling_exceeds : ∃ (configs : KeyValue String ExchangeQuotaConfig) (config : ExchangeQuotaConfig)
    (exchangeId : String) (orders : List OrderAttempt) (start : ℤ),
    KeyValue.get configs exchangeId = some config ∧ (orders.map OrderAttempt.time).Pairwise (· ≤ ·) ∧
      config.ordersPerSecond <
        SlidingWindow.hitsIn 1000 ((Trading.run configs orders).sentTo exchangeId) start :=
  ⟨twoPerSecond, ⟨"binance", 2, 10, 80⟩, "binance", straddling, 999, by decide +kernel, by decide +kernel,
    by decide +kernel⟩

end SuperAi.RateLimit
