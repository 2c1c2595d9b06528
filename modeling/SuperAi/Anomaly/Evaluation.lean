import SuperAi.Anomaly.AnomalyDetector
import SuperAi.Anomaly.StrategyDrift
import SuperAi.Risk.RiskEngine

/-! # Anomaly evaluation

`AnomalyDetector.evaluate` (`anomaly/anomaly.detector.ts`) with its five checks, the action it recommends and the alerts
it emits, for executed trades of any users and sessions, and `recordTrade` of the drift detector at any time between
them. What each check finds is a fact about the trades before (`evaluate_of_history`); a single trade drifts by its
instrument and its size alone (`check_single`). The texts of the details are left out.
-/
namespace SuperAi.Anomaly
open SuperAi.Foundations SuperAi.Risk
set_option autoImplicit false

variable {Coord N : Type}

/-! ## Events and results -/

/-- `TradeExecutedEvent` as a whole. `notional` is a field of the trade, `coords` what `geoIp.lookup` answers for the
address, and `time` the clock in milliseconds. -/
structure ExecutionEvent (Coord : Type) where
  trade : ExecutedTrade
  notional : ℚ
  userId : String
  sessionId : String
  ipAddress : String
  userAgent : String
  deviceFingerprint : String
  coords : Option Coord
  time : ℤ

/-- What the checks of windows read. -/
def ExecutionEvent.windowed (event : ExecutionEvent Coord) : TradeExecutedEvent Coord :=
  ⟨event.trade.tradeId, event.userId, event.ipAddress, event.coords, event.time⟩

inductive DetectorName
  | VELOCITY
  | HIGH_VALUE_SPIKE
  | GEO_IMPOSSIBILITY
  | DEVICE_FINGERPRINT_MISMATCH
  | STRATEGY_DRIFT
  deriving DecidableEq, Repr

structure DetectorResult where
  detector : DetectorName
  triggered : Bool
  severity : RiskLevel
  deriving DecidableEq, Repr

inductive RecommendedAction
  | ALLOW
  | WARN
  | BLOCK
  | KILL_SESSION
  deriving DecidableEq, Repr

structure AnomalyEvaluation where
  anomaliesDetected : Bool
  detectorResults : List DetectorResult
  recommendedAction : RecommendedAction
  deriving DecidableEq, Repr

/-- An alert; the last three fields are its payload. -/
structure AnomalyEvent where
  riskLevel : RiskLevel
  userId : String
  strategyId : String
  detector : DetectorName
  tradeId : String
  recommendedAction : RecommendedAction
  deriving DecidableEq, Repr

/-! ## The store -/

structure NotionalEntry where
  notional : ℚ
  timestamp : ℤ
  deriving DecidableEq, Repr

structure SessionInfo where
  userAgent : String
  deviceFingerprint : String
  deriving DecidableEq, Repr

/-- The keys of all detectors in Redis; a baseline goes with the time when it was written. -/
structure DetectorStore (Coord : Type) where
  anomaly : AnomalyStore Coord := {}
  notionals : KeyValue String (List NotionalEntry) := []
  sessions : KeyValue String (ℤ × SessionInfo) := []
  drift : DriftStore := {}

structure AnomalyDetectors (Coord N : Type) where
  windows : AnomalyDetector Coord N
  highValueSpikeMultiplier : ℚ
  driftDetector : StrategyDriftDetector

def notionalsKey (userId : String) : String := REDIS_PREFIX ++ "notionals:" ++ userId

def sessionKey (sessionId : String) : String := REDIS_PREFIX ++ "session:" ++ sessionId

/-! ## The checks -/

/-- A check that does not trigger is of low severity. -/
def DetectorResult.of (detector : DetectorName) (triggered : Bool) (severity : RiskLevel) : DetectorResult :=
  ⟨detector, triggered, if triggered then severity else .LOW⟩

def determineAction (triggeredResults : List DetectorResult) : RecommendedAction :=
  if triggeredResults.length = 0 then .ALLOW
  else
    let hasCritical := triggeredResults.any fun r => r.severity == .CRITICAL
    let highCount := triggeredResults.countP fun r => r.severity == .HIGH
    if hasCritical then .KILL_SESSION
    else if 2 ≤ highCount then .BLOCK
    else if highCount = 1 then .WARN
    else .WARN

/-- What an evaluation returns, emits and stores. -/
structure Evaluated (Coord : Type) where
  evaluation : AnomalyEvaluation
  emitted : List AnomalyEvent
  store : DetectorStore Coord

namespace AnomalyDetectors
variable [LT N] [DecidableLT N] (detectors : AnomalyDetectors Coord N)

omit [LT N] [DecidableLT N] in
def checkVelocity (s : DetectorStore Coord) (event : ExecutionEvent Coord) : DetectorResult × DetectorStore Coord :=
  let (triggered, anomaly) := detectors.windows.checkVelocity s.anomaly event.windowed
  (.of .VELOCITY triggered .HIGH, { s with anomaly })

omit [LT N] [DecidableLT N] in
/-- The average is that of the other entries. -/
def checkHighValueSpike (s : DetectorStore Coord) (event : ExecutionEvent Coord) :
    DetectorResult × DetectorStore Coord :=
  let key := notionalsKey event.userId
  let entries := (⟨event.notional, event.time⟩ :: (s.notionals.get key).getD []).take 1000
  let counted := entries.filter fun entry => decide (event.time - thirtyDays ≤ entry.timestamp)
  let sum := (counted.map NotionalEntry.notional).sum
  let count := counted.length
  let avgNotional := (sum - event.notional) / (count - 1)
  let triggered := !decide (count ≤ 1) &&
    decide (avgNotional * detectors.highValueSpikeMultiplier < event.notional ∧ 0 < avgNotional)
  (.of .HIGH_VALUE_SPIKE triggered .HIGH, { s with notionals := s.notionals.set key entries })

def checkGeoImpossibility (s : DetectorStore Coord) (event : ExecutionEvent Coord) :
    DetectorResult × DetectorStore Coord :=
  let (triggered, anomaly) := detectors.windows.checkGeoImpossibility s.anomaly event.windowed
  (.of .GEO_IMPOSSIBILITY triggered .CRITICAL, { s with anomaly })

omit [LT N] [DecidableLT N] in
/-- The first trade of a session records the baseline, for a day; later ones do not prolong it. -/
def checkDeviceFingerprint (s : DetectorStore Coord) (event : ExecutionEvent Coord) :
    DetectorResult × DetectorStore Coord :=
  let key := sessionKey event.sessionId
  match (s.sessions.get key).filter fun entry => detectors.windows.keeps entry.1 event.time with
  | none =>
    (.of .DEVICE_FINGERPRINT_MISMATCH false .HIGH,
      { s with sessions := s.sessions.set key (event.time, ⟨event.userAgent, event.deviceFingerprint⟩) })
  | some (_, baseline) =>
    let userAgentChanged := baseline.userAgent != event.userAgent
    let fingerprintChanged := baseline.deviceFingerprint != event.deviceFingerprint
    (.of .DEVICE_FINGERPRINT_MISMATCH (userAgentChanged || fingerprintChanged) .HIGH, s)

omit [LT N] [DecidableLT N] in
def checkStrategyDrift (s : DetectorStore Coord) (event : ExecutionEvent Coord) :
    DetectorResult × DetectorStore Coord :=
  let driftResult := detectors.driftDetector.check s.drift event.trade.strategyId [event.trade] event.time
  (.of .STRATEGY_DRIFT driftResult.driftDetected .MEDIUM, s)

/-- No check reads what another one writes. -/
def evaluate (s : DetectorStore Coord) (event : ExecutionEvent Coord) : Evaluated Coord :=
  let (velocityResult, s) := detectors.checkVelocity s event
  let (highValueResult, s) := detectors.checkHighValueSpike s event
  let (geoResult, s) := detectors.checkGeoImpossibility s event
  let (deviceResult, s) := detectors.checkDeviceFingerprint s event
  let (driftResult, s) := detectors.checkStrategyDrift s event
  let detectorResults := [velocityResult, highValueResult, geoResult, deviceResult, driftResult]
  let triggeredResults := detectorResults.filter DetectorResult.triggered
  let recommendedAction := determineAction triggeredResults
  { evaluation := ⟨decide (0 < triggeredResults.length), detectorResults, recommendedAction⟩
    emitted := triggeredResults.map fun result =>
      ⟨result.severity, event.userId, event.trade.strategyId, result.detector, event.trade.tradeId, recommendedAction⟩
    store := s }

end AnomalyDetectors

/-! ## Runs -/

/-- A trade is executed and evaluated, or recorded for its strategy. -/
inductive DetectorEvent (Coord : Type)
  | executed (event : ExecutionEvent Coord)
  | recorded (trade : ExecutedTrade) (now : ℤ)

def executions (events : List (DetectorEvent Coord)) : List (ExecutionEvent Coord) :=
  events.filterMap fun
    | .executed event => some event
    | .recorded _ _ => none

def recordings (events : List (DetectorEvent Coord)) : List (ExecutedTrade × ℤ) :=
  events.filterMap fun
    | .executed _ => none
    | .recorded trade now => some (trade, now)

namespace AnomalyDetectors
variable [LT N] [DecidableLT N] (detectors : AnomalyDetectors Coord N)

def step (s : DetectorStore Coord) : DetectorEvent Coord → DetectorStore Coord
  | .executed event => (detectors.evaluate s event).store
  | .recorded trade now => { s with drift := detectors.driftDetector.recordTrade s.drift trade now }

def run (events : List (DetectorEvent Coord)) : DetectorStore Coord := events.foldl detectors.step {}

end AnomalyDetectors

/-! ## What there is to find -/

/-- The trades of a user, or of a session. -/
def ofUserId (userId : String) (events : List (ExecutionEvent Coord)) : List (ExecutionEvent Coord) :=
  events.filter fun event => event.userId = userId

def ofSession (sessionId : String) (events : List (ExecutionEvent Coord)) : List (ExecutionEvent Coord) :=
  events.filter fun event => event.sessionId = sessionId

/-- The trades of the user that a new one is compared with: of the latest 999, those of the last thirty days. -/
def comparable (before : List (ExecutionEvent Coord)) (event : ExecutionEvent Coord) : List (ExecutionEvent Coord) :=
  ((ofUserId event.userId before).reverse.take 999).filter fun earlier => event.time - thirtyDays ≤ earlier.time

def average (events : List (ExecutionEvent Coord)) : ℚ :=
  (events.map ExecutionEvent.notional).sum / events.length

/-- The share of the instrument in the past trades. -/
abbrev shareOf (past : List ExecutedTrade) (trade : ExecutedTrade) : ℚ := weight past trade.instrument

def ExecutedTrade.size (trade : ExecutedTrade) : ℚ := trade.quantity * trade.price

def averageSize (past : List ExecutedTrade) : ℚ := (past.map ExecutedTrade.size).sum / past.length

/-- How far the size of a trade is off the average, 0 unless both are positive. -/
def sizeOff (past : List ExecutedTrade) (trade : ExecutedTrade) : ℚ :=
  if 0 < averageSize past ∧ 0 < trade.size then |trade.size - averageSize past| / averageSize past else 0

def singleScore (past : List ExecutedTrade) (trade : ExecutedTrade) : ℚ :=
  2 / 5 * ((1 - shareOf past trade) / (1 + shareOf past trade)) + 7 / 20 * min (sizeOff past trade) 1

namespace AnomalyDetectors
variable (detectors : AnomalyDetectors Coord N)

/-- The trade whose device is the baseline after these trades of a session: the first, and again each first one after
the baseline before has expired. -/
def baseline (events : List (ExecutionEvent Coord)) : Option (ExecutionEvent Coord) :=
  events.foldl
    (fun b event => (b.filter fun b => detectors.windows.keeps b.time event.time).or (some event)) none

/-- The trades in the profile of a strategy: those of the thirty days before one was last recorded, unless the profile
has expired. -/
def profiled (records : List (ExecutedTrade × ℤ)) (strategyId : String) (now : ℤ) : List ExecutedTrade :=
  match (StrategyDriftDetector.recordsOf strategyId records).getLast? with
  | none => []
  | some (_, written) =>
    if detectors.driftDetector.keeps written now then
      StrategyDriftDetector.lastThirtyDays (StrategyDriftDetector.recordsOf strategyId records) written
    else []

variable [LT N] [DecidableLT N]

/-- What each detector is to find in a trade, from the trades executed and recorded before. -/
def Finds (events : List (DetectorEvent Coord)) (event : ExecutionEvent Coord) : DetectorName → Prop
  | .VELOCITY => detectors.windows.config.velocityMaxTradesPerMinute <
      (min 200 (lastMinute ((executions events).map ExecutionEvent.windowed) event.windowed).length : ℕ)
  | .HIGH_VALUE_SPIKE =>
    comparable (executions events) event ≠ [] ∧ 0 < average (comparable (executions events) event) ∧
      average (comparable (executions events) event) * detectors.highValueSpikeMultiplier < event.notional
  | .GEO_IMPOSSIBILITY => detectors.windows.TooFar
      (detectors.windows.recalled ((executions events).map ExecutionEvent.windowed) event.windowed) event.windowed
  | .DEVICE_FINGERPRINT_MISMATCH =>
    ∃ b ∈ detectors.baseline (ofSession event.sessionId (executions events)),
      detectors.windows.keeps b.time event.time = true ∧
        (b.userAgent ≠ event.userAgent ∨ b.deviceFingerprint ≠ event.deviceFingerprint)
  | .STRATEGY_DRIFT =>
    detectors.profiled (recordings events) event.trade.strategyId event.time ≠ [] ∧
      detectors.driftDetector.config.driftThreshold ≤
        singleScore (detectors.profiled (recordings events) event.trade.strategyId event.time) event.trade

end AnomalyDetectors

/-- An evaluation follows from what there is to find. -/
structure Evaluated.Follows (r : Evaluated Coord) (finds : DetectorName → Prop) : Prop where
  triggered : ∀ name, (∃ result ∈ r.evaluation.detectorResults, result.detector = name ∧ result.triggered = true) ↔
    finds name
  killed : r.evaluation.recommendedAction = .KILL_SESSION ↔ finds .GEO_IMPOSSIBILITY
  blocked : r.evaluation.recommendedAction = .BLOCK ↔ ¬ finds .GEO_IMPOSSIBILITY ∧
    (finds .VELOCITY ∧ finds .HIGH_VALUE_SPIKE ∨ finds .VELOCITY ∧ finds .DEVICE_FINGERPRINT_MISMATCH ∨
      finds .HIGH_VALUE_SPIKE ∧ finds .DEVICE_FINGERPRINT_MISMATCH)
  allowed : r.evaluation.recommendedAction = .ALLOW ↔ ∀ name, ¬ finds name
  emitted : ∀ name, (∃ alert ∈ r.emitted, alert.detector = name ∧
    alert.recommendedAction = r.evaluation.recommendedAction) ↔ finds name
  once : (r.emitted.map AnomalyEvent.detector).Nodup

/-! ## One trade against a profile -/

theorem weight_single (trade : ExecutedTrade) : weight [trade] = Pi.single trade.instrument 1 := by
  funext instrument
  rw [weight, List.countP_singleton, List.length_singleton]
  by_cases h : trade.instrument = instrument
  · subst h
    simp
  · rw [Pi.single_eq_of_ne (Ne.symm h)]
    simp [h]

theorem sum_weight {s : Finset Instrument} {trades : List ExecutedTrade} (hne : trades ≠ [])
    (h : ∀ trade ∈ trades, trade.instrument ∈ s) : ∑ instrument ∈ s, weight trades instrument = 1 := by
  simp only [weight]
  rw [← Finset.sum_div, ← Nat.cast_sum, sum_count trades h]
  exact div_self (Nat.cast_ne_zero.mpr fun hzero => hne (List.length_eq_zero_iff.mp hzero))

theorem chiSquared_trade {past : List ExecutedTrade} (hpast : past ≠ []) (trade : ExecutedTrade) :
    chiSquared (instruments past ∪ instruments [trade]) (weight past) (weight [trade]) =
      2 * ((1 - shareOf past trade) / (1 + shareOf past trade)) := by
  have hmem : trade.instrument ∈ instruments past ∪ instruments [trade] :=
    Finset.mem_union_right _ (by simp [instruments])
  rw [weight_single]
  refine chiSquared_single (fun i _ => weight_nonneg past i) (sum_weight hpast fun t ht => ?_) hmem
  exact Finset.mem_union_left _ (List.mem_toFinset.mpr (List.mem_map_of_mem ht))

theorem averageOrderSize_computeProfile {trades : List ExecutedTrade} (h : trades ≠ []) :
    (computeProfile trades).averageOrderSize = averageSize trades := by
  rw [computeProfile, if_neg h]
  rfl

theorem averageHoldTime_single (trade : ExecutedTrade) : (computeProfile [trade]).averageHoldTimeMinutes = 0 := by
  have hsort : sort (fun a b : ExecutedTrade => a.minutes - b.minutes) [trade] = [trade] :=
    sort_of_pairwise (List.pairwise_singleton _ _)
  simp only [computeProfile, List.cons_ne_nil, if_false, hsort]
  rfl

theorem deviationScore_size (past : List ExecutedTrade) (trade : ExecutedTrade) :
    deviationScore (deviation (averageSize past) trade.size) = min (sizeOff past trade) 1 := by
  rw [deviation, sizeOff]
  by_cases h : 0 < averageSize past ∧ 0 < trade.size
  · rw [if_pos h, if_pos h]
    rfl
  · rw [if_neg h, if_neg h, min_eq_left zero_le_one]
    rfl

theorem deviation_hold (past : List ExecutedTrade) (trade : ExecutedTrade) :
    deviation (computeProfile past).averageHoldTimeMinutes (computeProfile [trade]).averageHoldTimeMinutes = none := by
  rw [averageHoldTime_single, deviation]
  simp

theorem check_single_eq (config : DriftDetectorConfig) {past : List ExecutedTrade} (hpast : past ≠ [])
    (trade : ExecutedTrade) :
    check config (some (computeProfile past)) [trade] =
      assess config (2 * ((1 - shareOf past trade) / (1 + shareOf past trade)))
        (deviation (averageSize past) trade.size) none := by
  have htotal : (computeProfile past).totalTrades ≠ 0 := by
    simp [computeProfile, hpast]
  have hsize : averageSize [trade] = trade.size := by simp [averageSize]
  rw [check_profile, if_neg htotal, chiSquared_trade hpast, averageOrderSize_computeProfile hpast,
    averageOrderSize_computeProfile (List.cons_ne_nil _ _), hsize, deviation_hold]

theorem shareOf_mem (past : List ExecutedTrade) (trade : ExecutedTrade) :
    0 ≤ shareOf past trade ∧ shareOf past trade ≤ 1 := by
  refine ⟨weight_nonneg _ _, div_le_one_of_le₀ ?_ (Nat.cast_nonneg _)⟩
  exact_mod_cast List.countP_le_length

theorem score_single (config : DriftDetectorConfig) {past : List ExecutedTrade} (hpast : past ≠ [])
    (trade : ExecutedTrade) :
    (check config (some (computeProfile past)) [trade]).driftScore = singleScore past trade := by
  obtain ⟨hshare0, hshare1⟩ := shareOf_mem past trade
  have hpart : 0 ≤ (1 - shareOf past trade) / (1 + shareOf past trade) :=
    div_nonneg (by linarith) (by linarith)
  have hpart' : (1 - shareOf past trade) / (1 + shareOf past trade) ≤ 1 :=
    (div_le_one (by linarith)).mpr (by linarith)
  have hsize : ∀ d, deviation (averageSize past) trade.size = some d → 0 ≤ d := fun _ h => deviation_nonneg h
  have hhold : ∀ d, (none : Option ℚ) = some d → 0 ≤ d := fun _ h => nomatch h
  have hscore := (assess_score config (mul_nonneg zero_le_two hpart) (by linarith) hsize hhold).1
  rw [check_single_eq config hpast, hscore, deviationScore_size, singleScore]
  norm_num [deviationScore]
  ring

theorem detected_single (config : DriftDetectorConfig) {past : List ExecutedTrade} (hpast : past ≠ [])
    (trade : ExecutedTrade) :
    (check config (some (computeProfile past)) [trade]).driftDetected = true ↔
      config.driftThreshold ≤ singleScore past trade := by
  rw [← score_single config hpast, check_single_eq config hpast]
  exact decide_eq_true_iff

/-- **One trade.** Against a profile, a trade scores by the share of its instrument and by how far its size is off the
average, and never by its time. With a threshold of one half, as the detector is set up, it drifts only if its size is
off by two sevenths and its instrument has at most five elevenths of the profile: a trade of the average size passes
with any instrument, one in the main instrument with any size. -/
theorem check_single (config : DriftDetectorConfig) {past : List ExecutedTrade} (hpast : past ≠ [])
    (trade : ExecutedTrade) :
    (check config (some (computeProfile past)) [trade]).driftScore = singleScore past trade ∧
      ((check config (some (computeProfile past)) [trade]).driftDetected = true ↔
        config.driftThreshold ≤ singleScore past trade) ∧
      (∀ d, .holdTime d ∉ (check config (some (computeProfile past)) [trade]).driftReasons) ∧
      (1 / 2 ≤ config.driftThreshold → (check config (some (computeProfile past)) [trade]).driftDetected = true →
        2 / 7 ≤ sizeOff past trade ∧ shareOf past trade ≤ 5 / 11) := by
  refine ⟨score_single config hpast trade, detected_single config hpast trade, fun d hmem => ?_, fun hhalf hdrift => ?_⟩
  · rw [check_single_eq config hpast, assess] at hmem
    simp only [Option.filter_none, Option.map_none, Option.toList_none, List.append_nil, List.mem_append,
      Option.mem_toList, Option.map_eq_some_iff] at hmem
    rcases hmem with hmem | ⟨size, -, heq⟩
    · split at hmem
      · cases List.mem_singleton.mp hmem
      · cases hmem
    · cases heq
  · have hscore := hhalf.trans ((detected_single config hpast trade).mp hdrift)
    obtain ⟨hshare0, hshare1⟩ := shareOf_mem past trade
    have hpart : (1 - shareOf past trade) / (1 + shareOf past trade) ≤ 1 :=
      (div_le_one (by linarith)).mpr (by linarith)
    have hoff := min_le_left (sizeOff past trade) 1
    have hoff' := min_le_right (sizeOff past trade) 1
    rw [singleScore] at hscore
    refine ⟨by linarith, ?_⟩
    have hpart' : 3 / 8 ≤ (1 - shareOf past trade) / (1 + shareOf past trade) := by linarith
    rw [le_div_iff₀ (by linarith)] at hpart'
    linarith

/-- A first trade of another instrument, at the average size. -/
theorem check_single_other : ¬ (check ⟨1 / 2, 0⟩ (some (computeProfile [⟨"t1", "s", btc, 1, 2500, 0⟩]))
    [⟨"t2", "s", eth, 1, 2500, 0⟩]).driftDetected = true := by
  intro hdrift
  have hoff := ((check_single ⟨1 / 2, 0⟩ (List.cons_ne_nil _ _) _).2.2.2 (le_refl _) hdrift).1
  norm_num [sizeOff, averageSize, ExecutedTrade.size] at hoff

/-! ## What is stored -/

def fiveResults (velocity spike geo device drift : Bool) : List DetectorResult :=
  [.of .VELOCITY velocity .HIGH, .of .HIGH_VALUE_SPIKE spike .HIGH, .of .GEO_IMPOSSIBILITY geo .CRITICAL,
    .of .DEVICE_FINGERPRINT_MISMATCH device .HIGH, .of .STRATEGY_DRIFT drift .MEDIUM]

theorem executions_concat (events : List (DetectorEvent Coord)) (e : DetectorEvent Coord) :
    executions (events ++ [e]) = executions events ++ executions [e] := List.filterMap_append

theorem recordings_concat (events : List (DetectorEvent Coord)) (e : DetectorEvent Coord) :
    recordings (events ++ [e]) = recordings events ++ recordings [e] := List.filterMap_append

theorem notionalsKey_injective : Function.Injective notionalsKey := fun _ _ h => (String.append_right_inj _).mp h

theorem sessionKey_injective : Function.Injective sessionKey := fun _ _ h => (String.append_right_inj _).mp h

namespace AnomalyDetectors
variable [LT N] [DecidableLT N] (detectors : AnomalyDetectors Coord N)

theorem run_concat (events : List (DetectorEvent Coord)) (e : DetectorEvent Coord) :
    detectors.run (events ++ [e]) = detectors.step (detectors.run events) e := by
  rw [run, List.foldl_append]
  rfl

/-- The store after the first three checks. -/
def afterWindows (s : DetectorStore Coord) (event : ExecutionEvent Coord) : DetectorStore Coord :=
  (detectors.checkGeoImpossibility (detectors.checkHighValueSpike (detectors.checkVelocity s event).2 event).2 event).2

omit [LT N] [DecidableLT N] in
/-- The fingerprint check writes sessions only. -/
theorem checkDeviceFingerprint_frame (s : DetectorStore Coord) (event : ExecutionEvent Coord) :
    (detectors.checkDeviceFingerprint s event).2.anomaly = s.anomaly ∧
      (detectors.checkDeviceFingerprint s event).2.notionals = s.notionals ∧
      (detectors.checkDeviceFingerprint s event).2.drift = s.drift := by
  unfold checkDeviceFingerprint
  dsimp only
  cases (s.sessions.get (sessionKey event.sessionId)).filter fun entry =>
      detectors.windows.keeps entry.1 event.time with
  | none => exact ⟨rfl, rfl, rfl⟩
  | some entry => exact ⟨rfl, rfl, rfl⟩

omit [LT N] [DecidableLT N] in
theorem of_checkDeviceFingerprint (s : DetectorStore Coord) (event : ExecutionEvent Coord) :
    (detectors.checkDeviceFingerprint s event).1 =
      .of .DEVICE_FINGERPRINT_MISMATCH (detectors.checkDeviceFingerprint s event).1.triggered .HIGH := by
  unfold checkDeviceFingerprint
  dsimp only
  cases (s.sessions.get (sessionKey event.sessionId)).filter fun entry =>
      detectors.windows.keeps entry.1 event.time with
  | none => rfl
  | some entry => rfl

omit [LT N] [DecidableLT N] in
theorem checkDeviceFingerprint_congr {s t : DetectorStore Coord} (h : t.sessions = s.sessions)
    (event : ExecutionEvent Coord) :
    (detectors.checkDeviceFingerprint t event).1 = (detectors.checkDeviceFingerprint s event).1 ∧
      (detectors.checkDeviceFingerprint t event).2.sessions =
        (detectors.checkDeviceFingerprint s event).2.sessions := by
  unfold checkDeviceFingerprint
  rw [h]
  dsimp only
  cases (s.sessions.get (sessionKey event.sessionId)).filter fun entry =>
      detectors.windows.keeps entry.1 event.time with
  | none => exact ⟨rfl, rfl⟩
  | some entry => exact ⟨rfl, h⟩

/-- What an evaluation stores, key by key. -/
theorem store_evaluate (s : DetectorStore Coord) (event : ExecutionEvent Coord) :
    (detectors.evaluate s event).store.anomaly = detectors.windows.evaluate s.anomaly event.windowed ∧
      (detectors.evaluate s event).store.notionals = (detectors.checkHighValueSpike s event).2.notionals ∧
      (detectors.evaluate s event).store.sessions = (detectors.checkDeviceFingerprint s event).2.sessions ∧
      (detectors.evaluate s event).store.drift = s.drift := by
  obtain ⟨hanomaly, hnotionals, hdrift⟩ :=
    detectors.checkDeviceFingerprint_frame (detectors.afterWindows s event) event
  have hsame : (detectors.afterWindows s event).sessions = s.sessions := rfl
  exact ⟨hanomaly, hnotionals, (detectors.checkDeviceFingerprint_congr hsame event).2, hdrift⟩

/-- What an evaluation finds, check by check. -/
theorem results_evaluate (s : DetectorStore Coord) (event : ExecutionEvent Coord) :
    (detectors.evaluate s event).evaluation.detectorResults =
      fiveResults (detectors.windows.checkVelocity s.anomaly event.windowed).1
        (detectors.checkHighValueSpike s event).1.triggered
        (detectors.windows.checkGeoImpossibility (detectors.windows.checkVelocity s.anomaly event.windowed).2
          event.windowed).1
        (detectors.checkDeviceFingerprint s event).1.triggered
        (detectors.driftDetector.check s.drift event.trade.strategyId [event.trade] event.time).driftDetected := by
  obtain ⟨-, -, hdrift⟩ := detectors.checkDeviceFingerprint_frame (detectors.afterWindows s event) event
  have hsame : (detectors.afterWindows s event).sessions = s.sessions := rfl
  have hdevice := (detectors.checkDeviceFingerprint_congr hsame event).1.trans
    (detectors.of_checkDeviceFingerprint s event)
  have hstored : (detectors.checkDeviceFingerprint (detectors.afterWindows s event) event).2.drift = s.drift := hdrift
  rw [fiveResults, ← hdevice, ← hstored]
  rfl

theorem anomaly_run (events : List (DetectorEvent Coord)) :
    (detectors.run events).anomaly =
      detectors.windows.storeAfter ((executions events).map ExecutionEvent.windowed) := by
  induction events using List.reverseRecOn with
  | nil => rfl
  | append_singleton events e ih =>
    rw [run_concat, executions_concat, List.map_append]
    cases e with
    | executed event =>
      rw [step, (detectors.store_evaluate _ event).1, ih]
      exact (AnomalyDetector.storeAfter_concat _ _).symm
    | recorded trade now =>
      rw [step, ih]
      exact congrArg detectors.windows.storeAfter (List.append_nil _).symm

theorem drift_run (events : List (DetectorEvent Coord)) :
    (detectors.run events).drift = detectors.driftDetector.storeAfter (recordings events) := by
  induction events using List.reverseRecOn with
  | nil => rfl
  | append_singleton events e ih =>
    rw [run_concat, recordings_concat]
    cases e with
    | executed event =>
      rw [step, (detectors.store_evaluate _ event).2.2.2, ih]
      exact congrArg detectors.driftDetector.storeAfter (List.append_nil _).symm
    | recorded trade now =>
      rw [step, ih]
      exact (detectors.driftDetector.storeAfter_concat _ (trade, now)).symm

def notionalOf (event : ExecutionEvent Coord) : NotionalEntry := ⟨event.notional, event.time⟩

/-- The latest 1000 trades of the user, latest first. -/
theorem notionals_run (events : List (DetectorEvent Coord)) (userId : String) :
    ((detectors.run events).notionals.get (notionalsKey userId)).getD [] =
      ((ofUserId userId (executions events)).reverse.map notionalOf).take 1000 := by
  induction events using List.reverseRecOn with
  | nil => rfl
  | append_singleton events e ih =>
    rw [run_concat, executions_concat, ofUserId, List.filter_append]
    cases e with
    | executed event =>
      rw [step, (detectors.store_evaluate _ event).2.1, checkHighValueSpike]
      dsimp only
      by_cases huser : event.userId = userId
      · subst huser
        have hnew : (executions [DetectorEvent.executed event]).filter (fun e => e.userId = event.userId) =
            [event] := by
          simp [executions]
        rw [KeyValue.get_set_self, Option.getD_some, ih, hnew, List.reverse_append, List.map_append]
        exact take_cons_take 1000 (notionalOf event) _
      · have hnone : (executions [DetectorEvent.executed event]).filter (fun e => e.userId = userId) = [] := by
          simp [executions, huser]
        rw [KeyValue.get_set_of_ne fun hkey => huser (notionalsKey_injective hkey).symm, ih, hnone, List.append_nil]
        rfl
    | recorded trade now =>
      rw [step]
      exact ih.trans (by simp [executions, ofUserId])

omit [LT N] [DecidableLT N] in
theorem baseline_concat (events : List (ExecutionEvent Coord)) (event : ExecutionEvent Coord) :
    detectors.baseline (events ++ [event]) =
      ((detectors.baseline events).filter fun b => detectors.windows.keeps b.time event.time).or (some event) := by
  rw [baseline, List.foldl_append]
  rfl

def infoOf (event : ExecutionEvent Coord) : SessionInfo := ⟨event.userAgent, event.deviceFingerprint⟩

omit [LT N] [DecidableLT N] in
/-- Where the adapter drops the time to live, the first trade of a session is its baseline for good. -/
theorem baseline_of_dropped (h : detectors.windows.setPassesTtl = false) (events : List (ExecutionEvent Coord)) :
    detectors.baseline events = events.head? := by
  induction events using List.reverseRecOn with
  | nil => rfl
  | append_singleton events event ih =>
    rw [baseline_concat, ih, List.head?_append]
    cases events.head? with
    | none => rfl
    | some b => simp [AnomalyDetector.keeps, h, Option.filter]

omit [LT N] [DecidableLT N] in
/-- The baseline of the session stays while it is kept, and no other one changes. -/
theorem sessions_checkDeviceFingerprint (s : DetectorStore Coord) (event : ExecutionEvent Coord) (sessionId : String) :
    (detectors.checkDeviceFingerprint s event).2.sessions.get (sessionKey sessionId) =
      if sessionId = event.sessionId then
        ((s.sessions.get (sessionKey sessionId)).filter fun entry => detectors.windows.keeps entry.1 event.time).or
          (some (event.time, infoOf event))
      else s.sessions.get (sessionKey sessionId) := by
  unfold checkDeviceFingerprint
  dsimp only
  by_cases hsession : sessionId = event.sessionId
  · subst hsession
    rw [if_pos rfl]
    cases hkept : (s.sessions.get (sessionKey event.sessionId)).filter fun entry =>
        detectors.windows.keeps entry.1 event.time with
    | none => exact KeyValue.get_set_self _ _ _
    | some entry => exact (Option.filter_eq_some_iff.mp hkept).1
  · rw [if_neg hsession]
    cases (s.sessions.get (sessionKey event.sessionId)).filter fun entry =>
        detectors.windows.keeps entry.1 event.time with
    | none => exact KeyValue.get_set_of_ne fun hkey => hsession (sessionKey_injective hkey)
    | some entry => rfl

theorem sessions_run (events : List (DetectorEvent Coord)) (sessionId : String) :
    (detectors.run events).sessions.get (sessionKey sessionId) =
      (detectors.baseline (ofSession sessionId (executions events))).map fun b => (b.time, infoOf b) := by
  induction events using List.reverseRecOn with
  | nil => rfl
  | append_singleton events e ih =>
    rw [run_concat, executions_concat, ofSession, List.filter_append]
    cases e with
    | executed event =>
      rw [step, (detectors.store_evaluate _ event).2.2.1, sessions_checkDeviceFingerprint, ih]
      by_cases hsession : sessionId = event.sessionId
      · subst hsession
        have hnew : (executions [DetectorEvent.executed event]).filter (fun e => e.sessionId = event.sessionId) =
            [event] := by
          simp [executions]
        rw [if_pos rfl, hnew, baseline_concat, Option.filter_map, Option.map_or]
        rfl
      · have hnone : (executions [DetectorEvent.executed event]).filter (fun e => e.sessionId = sessionId) = [] := by
          simp [executions, Ne.symm hsession]
        rw [if_neg hsession, hnone, List.append_nil]
        rfl
    | recorded trade now =>
      rw [step]
      exact ih.trans (by simp [executions, ofSession])

/-! ## What is found -/

omit [LT N] [DecidableLT N] in
@[simp] theorem triggered_of (detector : DetectorName) (triggered : Bool) (severity : RiskLevel) :
    (DetectorResult.of detector triggered severity).triggered = triggered := rfl

/-- The new trade stands before those it is compared with. -/
theorem counted_run (events : List (DetectorEvent Coord)) (event : ExecutionEvent Coord) :
    (((⟨event.notional, event.time⟩ : NotionalEntry) ::
        ((detectors.run events).notionals.get (notionalsKey event.userId)).getD []).take 1000).filter
      (fun entry => decide (event.time - thirtyDays ≤ entry.timestamp)) =
      notionalOf event :: (comparable (executions events) event).map notionalOf := by
  have hcut : ((detectors.run events).notionals.get (notionalsKey event.userId)).getD [] =
      ((ofUserId event.userId (executions events)).reverse.map notionalOf).take 1000 := notionals_run _ _ _
  have hself : decide (event.time - thirtyDays ≤ event.time) = true := by
    simp [thirtyDays]
  rw [hcut, take_cons_take, List.take_succ_cons, List.filter_cons, if_pos hself, ← List.map_take, List.filter_map]
  rfl

theorem spike_iff (events : List (DetectorEvent Coord)) (event : ExecutionEvent Coord) :
    (detectors.checkHighValueSpike (detectors.run events) event).1.triggered = true ↔
      detectors.Finds events event .HIGH_VALUE_SPIKE := by
  have haverage : ((notionalOf event :: (comparable (executions events) event).map notionalOf).map
        NotionalEntry.notional).sum - event.notional =
      ((comparable (executions events) event).map ExecutionEvent.notional).sum := by
    rw [List.map_cons, List.sum_cons, List.map_map]
    exact add_sub_cancel_left _ _
  have hcount : ((notionalOf event :: (comparable (executions events) event).map notionalOf).length : ℚ) - 1 =
      (comparable (executions events) event).length := by
    rw [List.length_cons, List.length_map, Nat.cast_succ, add_sub_cancel_right]
  have hfew : (notionalOf event :: (comparable (executions events) event).map notionalOf).length ≤ 1 ↔
      comparable (executions events) event = [] := by
    rw [List.length_cons, List.length_map, ← List.length_eq_zero_iff]
    omega
  simp only [checkHighValueSpike, counted_run, haverage, hcount, hfew, triggered_of, Finds, average, Bool.and_eq_true,
    Bool.not_eq_true', decide_eq_false_iff_not, decide_eq_true_eq, ne_eq]
  exact and_congr_right fun _ => and_comm

theorem device_iff (events : List (DetectorEvent Coord)) (event : ExecutionEvent Coord) :
    (detectors.checkDeviceFingerprint (detectors.run events) event).1.triggered = true ↔
      detectors.Finds events event .DEVICE_FINGERPRINT_MISMATCH := by
  rw [checkDeviceFingerprint, sessions_run]
  simp only [Finds]
  cases hbaseline : detectors.baseline (ofSession event.sessionId (executions events)) with
  | none => simp
  | some b =>
    rw [Option.map_some, Option.filter_some]
    by_cases hkeeps : detectors.windows.keeps b.time event.time = true
    · simp [hkeeps, infoOf]
    · simp [hkeeps]

omit [LT N] [DecidableLT N] in
/-- What a check of a trade compares with. -/
theorem profile_storeAfter (httl : thirtyDays ≤ detectors.driftDetector.ttl) {records : List (ExecutedTrade × ℤ)}
    (horder : records.Pairwise fun a b => a.2 ≤ b.2) (htimes : ∀ record ∈ records, record.1.timestamp < record.2)
    (strategyId : String) (recent : List ExecutedTrade) (now : ℤ) :
    detectors.driftDetector.check (detectors.driftDetector.storeAfter records) strategyId recent now =
      if detectors.profiled records strategyId now = [] then ⟨false, 0, []⟩
      else check detectors.driftDetector.config (some (computeProfile (detectors.profiled records strategyId now)))
        recent := by
  have hstored := StrategyDriftDetector.stored_storeAfter httl horder htimes strategyId
  unfold profiled StrategyDriftDetector.check StrategyDriftDetector.read
  cases hlast : (StrategyDriftDetector.recordsOf strategyId records).getLast? with
  | none =>
    rw [(hstored.none (List.getLast?_eq_none_iff.mp hlast)).2]
    rfl
  | some last =>
    obtain ⟨trade, written⟩ := last
    rw [(hstored.some trade written hlast).2, Option.bind_some]
    by_cases hkeeps : detectors.driftDetector.keeps written now = true
    · simp only [hkeeps, if_true]
      by_cases hnil : StrategyDriftDetector.lastThirtyDays (StrategyDriftDetector.recordsOf strategyId records)
          written = []
      · rw [hnil]
        rfl
      · rw [if_neg hnil]
    · simp only [hkeeps]
      rfl

theorem drift_iff (httl : thirtyDays ≤ detectors.driftDetector.ttl) {events : List (DetectorEvent Coord)}
    (horder : (recordings events).Pairwise fun a b => a.2 ≤ b.2)
    (htimes : ∀ record ∈ recordings events, record.1.timestamp < record.2) (event : ExecutionEvent Coord) :
    (detectors.driftDetector.check (detectors.run events).drift event.trade.strategyId [event.trade]
        event.time).driftDetected = true ↔ detectors.Finds events event .STRATEGY_DRIFT := by
  rw [drift_run, detectors.profile_storeAfter httl horder htimes]
  simp only [Finds]
  by_cases hnil : detectors.profiled (recordings events) event.trade.strategyId event.time = []
  · simp [hnil]
  · rw [if_neg hnil, detected_single _ hnil]
    exact (and_iff_right hnil).symm

/-- Each of the five results, from the trades before. -/
theorem results_run (httl : thirtyDays ≤ detectors.driftDetector.ttl) {events : List (DetectorEvent Coord)}
    {event : ExecutionEvent Coord} (hclock : (executions events ++ [event]).Pairwise fun a b => a.time ≤ b.time)
    (horder : (recordings events).Pairwise fun a b => a.2 ≤ b.2)
    (htimes : ∀ record ∈ recordings events, record.1.timestamp < record.2) :
    ∃ velocity spike geo device drift : Bool,
      (detectors.evaluate (detectors.run events) event).evaluation.detectorResults =
        fiveResults velocity spike geo device drift ∧
      (velocity = true ↔ detectors.Finds events event .VELOCITY) ∧
      (spike = true ↔ detectors.Finds events event .HIGH_VALUE_SPIKE) ∧
      (geo = true ↔ detectors.Finds events event .GEO_IMPOSSIBILITY) ∧
      (device = true ↔ detectors.Finds events event .DEVICE_FINGERPRINT_MISMATCH) ∧
      (drift = true ↔ detectors.Finds events event .STRATEGY_DRIFT) := by
  have hwindowed : ((executions events).map ExecutionEvent.windowed ++ [event.windowed]).Pairwise fun a b =>
      a.time ≤ b.time := by
    have hmap : ((executions events ++ [event]).map ExecutionEvent.windowed).Pairwise fun a b => a.time ≤ b.time :=
      List.pairwise_map.mpr hclock
    rwa [List.map_append] at hmap
  refine ⟨_, _, _, _, _, detectors.results_evaluate (detectors.run events) event, ?_,
    detectors.spike_iff events event, ?_, detectors.device_iff events event,
    detectors.drift_iff httl horder htimes event⟩
  · rw [anomaly_run]
    exact AnomalyDetector.velocityTriggered_iff hwindowed
  · rw [anomaly_run]
    exact AnomalyDetector.geoTriggered_iff _ _

end AnomalyDetectors

/-! ## What follows -/

/-- The action by the five results. -/
theorem determineAction_fiveResults (velocity spike geo device drift : Bool) {action : RecommendedAction}
    (h : action = determineAction ((fiveResults velocity spike geo device drift).filter DetectorResult.triggered)) :
    (action = .KILL_SESSION ↔ geo = true) ∧
      (action = .BLOCK ↔ ¬ geo = true ∧
        (velocity = true ∧ spike = true ∨ velocity = true ∧ device = true ∨ spike = true ∧ device = true)) ∧
      (action = .ALLOW ↔ ¬ velocity = true ∧ ¬ spike = true ∧ ¬ geo = true ∧ ¬ device = true ∧ ¬ drift = true) := by
  subst h
  cases velocity <;> cases spike <;> cases geo <;> cases device <;> cases drift <;> decide

/-- The result of each detector. -/
def triggeredOf (velocity spike geo device drift : Bool) : DetectorName → Bool
  | .VELOCITY => velocity
  | .HIGH_VALUE_SPIKE => spike
  | .GEO_IMPOSSIBILITY => geo
  | .DEVICE_FINGERPRINT_MISMATCH => device
  | .STRATEGY_DRIFT => drift

theorem mem_fiveResults (velocity spike geo device drift : Bool) (name : DetectorName) :
    (∃ result ∈ fiveResults velocity spike geo device drift, result.detector = name ∧ result.triggered = true) ↔
      triggeredOf velocity spike geo device drift name = true := by
  cases name <;> simp [fiveResults, DetectorResult.of, triggeredOf]

theorem nodup_fiveResults (velocity spike geo device drift : Bool) :
    (((fiveResults velocity spike geo device drift).filter DetectorResult.triggered).map
      DetectorResult.detector).Nodup := by
  have hnodup : ((fiveResults velocity spike geo device drift).map DetectorResult.detector).Nodup := by
    simp [fiveResults, DetectorResult.of]
  exact hnodup.sublist (List.filter_sublist.map _)

/-- **The evaluation follows from the history.** Whatever trades of any users and sessions were executed and recorded
before, at times that do not go back: each detector triggers exactly if there is something to find for it among them, a
session is killed exactly for an impossible distance, else a trade is blocked exactly if two of the three of high
severity trigger, and let through only if none does; and each finding is alerted once, with the action. -/
theorem evaluate_of_history [LT N] [DecidableLT N] {detectors : AnomalyDetectors Coord N}
    (httl : thirtyDays ≤ detectors.driftDetector.ttl) {events : List (DetectorEvent Coord)}
    {event : ExecutionEvent Coord} (hclock : (executions events ++ [event]).Pairwise fun a b => a.time ≤ b.time)
    (horder : (recordings events).Pairwise fun a b => a.2 ≤ b.2)
    (htimes : ∀ record ∈ recordings events, record.1.timestamp < record.2) :
    (detectors.evaluate (detectors.run events) event).Follows (detectors.Finds events event) := by
  obtain ⟨velocity, spike, geo, device, drift, hresults, hvelocity, hspike, hgeo, hdevice, hdrift⟩ :=
    detectors.results_run httl hclock horder htimes
  have hfinds : ∀ name, detectors.Finds events event name ↔
      triggeredOf velocity spike geo device drift name = true := by
    intro name
    cases name with
    | VELOCITY => exact hvelocity.symm
    | HIGH_VALUE_SPIKE => exact hspike.symm
    | GEO_IMPOSSIBILITY => exact hgeo.symm
    | DEVICE_FINGERPRINT_MISMATCH => exact hdevice.symm
    | STRATEGY_DRIFT => exact hdrift.symm
  have haction : (detectors.evaluate (detectors.run events) event).evaluation.recommendedAction =
      determineAction ((fiveResults velocity spike geo device drift).filter DetectorResult.triggered) :=
    hresults ▸ rfl
  obtain ⟨hkill, hblock, hallow⟩ := determineAction_fiveResults velocity spike geo device drift haction
  have hmem := mem_fiveResults velocity spike geo device drift
  have hnodup := nodup_fiveResults velocity spike geo device drift
  rw [← hresults] at hmem hnodup
  refine ⟨fun name => (hmem name).trans (hfinds name).symm, hkill.trans hgeo, ?_, ?_, fun name => ?_, ?_⟩
  · rw [hblock, hgeo, hvelocity, hspike, hdevice]
  · rw [hallow, hgeo, hvelocity, hspike, hdevice, hdrift]
    constructor
    · rintro ⟨hv, hs, hg, hd, hr⟩ name
      cases name <;> assumption
    · exact fun hnone => ⟨hnone _, hnone _, hnone _, hnone _, hnone _⟩
  · rw [hfinds, ← hmem]
    constructor
    · rintro ⟨alert, hemitted, rfl, -⟩
      obtain ⟨result, hresult, rfl⟩ := List.mem_map.mp hemitted
      obtain ⟨hin, htriggered⟩ := List.mem_filter.mp hresult
      exact ⟨result, hin, rfl, htriggered⟩
    · rintro ⟨result, hin, rfl, htriggered⟩
      exact ⟨_, List.mem_map_of_mem (List.mem_filter.mpr ⟨hin, htriggered⟩), rfl, rfl⟩
  · have hdetectors : ∀ s : DetectorStore Coord, (detectors.evaluate s event).emitted.map AnomalyEvent.detector =
        ((detectors.evaluate s event).evaluation.detectorResults.filter DetectorResult.triggered).map
          DetectorResult.detector := fun s => List.map_map
    rw [hdetectors]
    exact hnodup

/-! ### A session that is taken over -/

/-- The configuration of `bootstrap.ts`. -/
def bootstrapDetectors : AnomalyDetectors Place ℚ where
  windows := testDetector 50
  highValueSpikeMultiplier := 5
  driftDetector := ⟨⟨1 / 2, 30 * 24 * 60 * 60⟩, false⟩

def tradeOf (deviceFingerprint : String) (notional : ℚ) (time : ℤ) : ExecutionEvent Place where
  trade := ⟨"t1", "s", btc, 1, notional, time⟩
  notional := notional
  userId := "user-1"
  sessionId := "session-1"
  ipAddress := "1.1.1.1"
  userAgent := "Mozilla/5.0"
  deviceFingerprint := deviceFingerprint
  coords := none
  time := time

/-- Two trades of 100 dollars, the first of them recorded, and then one of 5000 from a second device. -/
def ownTrades : List (DetectorEvent Place) :=
  [.executed (tradeOf "device-1" 100 0), .recorded (tradeOf "device-1" 100 0).trade 1,
    .executed (tradeOf "device-1" 100 1000)]

theorem evaluate_of_history_takenOver :
    (bootstrapDetectors.evaluate (bootstrapDetectors.run ownTrades) (tradeOf "device-2" 5000 2000)).Follows
        (bootstrapDetectors.Finds ownTrades (tradeOf "device-2" 5000 2000)) ∧
      (bootstrapDetectors.evaluate (bootstrapDetectors.run ownTrades)
        (tradeOf "device-2" 5000 2000)).evaluation.recommendedAction = .BLOCK := by
  constructor
  · exact evaluate_of_history (by decide) (by decide) (by decide) (by decide)
  · decide +kernel

end SuperAi.Anomaly
