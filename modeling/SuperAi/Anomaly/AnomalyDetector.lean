import SuperAi.Foundations.KeyValue
import SuperAi.Foundations.RecentEntries
import Mathlib.Algebra.Order.Field.Rat
import Mathlib.Data.List.DropRight
import Mathlib.Data.List.Induction
import Mathlib.Tactic.NormNum

/-! # The windowed anomaly detectors

`checkVelocity` and `checkGeoImpossibility` of `AnomalyDetector` (`anomaly/anomaly.detector.ts`), for trade events
of any users that come one after the other. Each keeps a history of the user that is cut to a fixed number of
entries, whatever the configured window is; the windows are seen as a whole exactly where nothing that decides has
been cut off (`detectors_exact_iff`). Numbers are exact, a date text is kept as its time, and what the results say
besides `triggered` is left out.
-/
namespace SuperAi.Anomaly
open SuperAi.Foundations
set_option autoImplicit false

variable {Coord N : Type}

/-- `coords` is what `geoIp.lookup` answers for the address, and `time` the clock in milliseconds. -/
structure TradeExecutedEvent (Coord : Type) where
  tradeId : String
  userId : String
  ipAddress : String
  coords : Option Coord
  time : ℤ

structure AnomalyDetectorConfig (N : Type) where
  velocityMaxTradesPerMinute : ℚ
  geoImpossibilityMaxKm : N
  geoImpossibilityWindowMinutes : ℚ

/-- An entry of the list `velocity:`. -/
structure VelocityEntry where
  timestamp : ℤ
  tradeId : String
  deriving DecidableEq, Repr

structure IpEvent (Coord : Type) where
  ip : String
  timestamp : ℤ
  coords : Coord
  deriving DecidableEq, Repr

/-- The keys of both detectors in Redis; a key of addresses goes with the time when it was written. -/
structure AnomalyStore (Coord : Type) where
  velocity : KeyValue String (List VelocityEntry) := []
  geoip : KeyValue String (ℤ × List (IpEvent Coord)) := []

/-- The adapter's `set` may pass the time to live on to Redis, as its interface says, or drop it, as the shipped
`RedisAdapter` does. -/
structure AnomalyDetector (Coord N : Type) where
  config : AnomalyDetectorConfig N
  haversineDistanceKm : Coord → Coord → N
  setPassesTtl : Bool

def REDIS_PREFIX : String := "security:anomaly:"

def velocityKey (userId : String) : String := REDIS_PREFIX ++ "velocity:" ++ userId

def geoipKey (userId : String) : String := REDIS_PREFIX ++ "geoip:" ++ userId

/-- In milliseconds. -/
def geoipTtl : ℤ := 1000 * 86400

/-- What has been written at this time is still there. -/
def AnomalyDetector.keeps (detector : AnomalyDetector Coord N) (written now : ℤ) : Bool :=
  !detector.setPassesTtl || decide (now < written + geoipTtl)

section
variable [LT N] [DecidableLT N]

namespace AnomalyDetector
variable (detector : AnomalyDetector Coord N)

def checkVelocity (s : AnomalyStore Coord) (event : TradeExecutedEvent Coord) : Bool × AnomalyStore Coord :=
  let key := velocityKey event.userId
  let entry : VelocityEntry := ⟨event.time, event.tradeId⟩
  let entries := (entry :: (s.velocity.get key).getD []).take 200
  let recentCount := entries.countP fun entry => decide (event.time - 60000 ≤ entry.timestamp)
  (decide (detector.config.velocityMaxTradesPerMinute < recentCount), { s with velocity := s.velocity.set key entries })

/-- The addresses that are still stored for a user. -/
def previousEvents (s : AnomalyStore Coord) (now : ℤ) (userId : String) : List (IpEvent Coord) :=
  match s.geoip.get (geoipKey userId) with
  | some (written, events) => if detector.keeps written now then events else []
  | none => []

/-- An earlier event speaks against one at these coordinates. -/
def speaksAgainst (event : TradeExecutedEvent Coord) (coords : Coord) (prev : IpEvent Coord) : Bool :=
  decide ((event.time : ℚ) - detector.config.geoImpossibilityWindowMinutes * 60000 ≤ prev.timestamp) &&
    prev.ip != event.ipAddress &&
    decide (detector.config.geoImpossibilityMaxKm < detector.haversineDistanceKm prev.coords coords)

def checkGeoImpossibility (s : AnomalyStore Coord) (event : TradeExecutedEvent Coord) : Bool × AnomalyStore Coord :=
  match event.coords with
  | none => (false, s)
  | some coords =>
    let previous := detector.previousEvents s event.time event.userId
    let currentEvent : IpEvent Coord := ⟨event.ipAddress, event.time, coords⟩
    let kept := (previous ++ [currentEvent]).rtake 20
    (previous.any (detector.speaksAgainst event coords),
      { s with geoip := s.geoip.set (geoipKey event.userId) (event.time, kept) })

/-- The store after both detectors; they share no key. -/
def evaluate (s : AnomalyStore Coord) (event : TradeExecutedEvent Coord) : AnomalyStore Coord :=
  (detector.checkGeoImpossibility (detector.checkVelocity s event).2 event).2

def storeAfter (events : List (TradeExecutedEvent Coord)) : AnomalyStore Coord := events.foldl detector.evaluate {}

end AnomalyDetector

/-! ## Histories -/

def ofUser (userId : String) (events : List (TradeExecutedEvent Coord)) : List (TradeExecutedEvent Coord) :=
  events.filter fun event => event.userId == userId

/-- The events whose address could be located. -/
def located (events : List (TradeExecutedEvent Coord)) : List (IpEvent Coord) :=
  events.filterMap fun event => event.coords.map fun coords => ⟨event.ipAddress, event.time, coords⟩

/-- The events of the user up to this one that lie in its last 60 seconds. -/
def lastMinute (before : List (TradeExecutedEvent Coord)) (event : TradeExecutedEvent Coord) :
    List (TradeExecutedEvent Coord) :=
  (ofUser event.userId (before ++ [event])).filter fun earlier => decide (event.time - 60000 ≤ earlier.time)

namespace AnomalyDetector
variable (detector : AnomalyDetector Coord N)

/-- Back from now, latest first, as far as no pause lets the key expire. -/
def unbroken : ℤ → List (IpEvent Coord) → List (IpEvent Coord)
  | _, [] => []
  | now, event :: earlier =>
    if detector.keeps event.timestamp now then event :: unbroken event.timestamp earlier else []

/-- The last twenty located events of the user, unless a pause has let them expire. -/
def recalled (before : List (TradeExecutedEvent Coord)) (event : TradeExecutedEvent Coord) : List (IpEvent Coord) :=
  (detector.unbroken event.time (located (ofUser event.userId before)).reverse).take 20

/-- More trades lie in the last minute than are allowed. -/
def TooFast (before : List (TradeExecutedEvent Coord)) (event : TradeExecutedEvent Coord) : Prop :=
  detector.config.velocityMaxTradesPerMinute < (lastMinute before event).length

/-- One of the events is within the window, from a different address and too far away. -/
def TooFar (events : List (IpEvent Coord)) (event : TradeExecutedEvent Coord) : Prop :=
  ∃ coords ∈ event.coords, ∃ prev ∈ events, detector.speaksAgainst event coords prev = true

/-- What `checkVelocity` and `checkGeoImpossibility` say of the event after the ones before. -/
def velocityTriggered (before : List (TradeExecutedEvent Coord)) (event : TradeExecutedEvent Coord) : Bool :=
  (detector.checkVelocity (detector.storeAfter before) event).1

def geoTriggered (before : List (TradeExecutedEvent Coord)) (event : TradeExecutedEvent Coord) : Bool :=
  (detector.checkGeoImpossibility (detector.checkVelocity (detector.storeAfter before) event).2 event).1

end AnomalyDetector

/-! ## What is stored -/

theorem velocityKey_injective : Function.Injective velocityKey := fun _ _ h => (String.append_right_inj _).mp h

theorem geoipKey_injective : Function.Injective geoipKey := fun _ _ h => (String.append_right_inj _).mp h

theorem ofUser_concat_self (before : List (TradeExecutedEvent Coord)) (event : TradeExecutedEvent Coord) :
    ofUser event.userId (before ++ [event]) = ofUser event.userId before ++ [event] := by
  simp [ofUser]

theorem ofUser_concat_of_ne (before : List (TradeExecutedEvent Coord)) {event : TradeExecutedEvent Coord}
    {userId : String} (h : event.userId ≠ userId) : ofUser userId (before ++ [event]) = ofUser userId before := by
  simp [ofUser, h]

namespace AnomalyDetector
variable {detector : AnomalyDetector Coord N}

theorem storeAfter_concat (before : List (TradeExecutedEvent Coord)) (event : TradeExecutedEvent Coord) :
    detector.storeAfter (before ++ [event]) = detector.evaluate (detector.storeAfter before) event := by
  rw [storeAfter, List.foldl_append]
  rfl

@[simp] theorem velocity_checkGeoImpossibility (s : AnomalyStore Coord) (event : TradeExecutedEvent Coord) :
    (detector.checkGeoImpossibility s event).2.velocity = s.velocity := by
  unfold checkGeoImpossibility
  cases event.coords with
  | none => rfl
  | some coords => rfl

omit [LT N] [DecidableLT N] in
@[simp] theorem geoip_checkVelocity (s : AnomalyStore Coord) (event : TradeExecutedEvent Coord) :
    (detector.checkVelocity s event).2.geoip = s.geoip := rfl

def entryOf (event : TradeExecutedEvent Coord) : VelocityEntry := ⟨event.time, event.tradeId⟩

/-- The latest 200 events of the user, latest first. -/
theorem velocity_stored (before : List (TradeExecutedEvent Coord)) (userId : String) :
    ((detector.storeAfter before).velocity.get (velocityKey userId)).getD [] =
      ((ofUser userId before).reverse.map entryOf).take 200 := by
  induction before using List.reverseRecOn with
  | nil => rfl
  | append_singleton before event ih =>
    rw [storeAfter_concat, evaluate, velocity_checkGeoImpossibility, checkVelocity]
    dsimp only
    by_cases huser : event.userId = userId
    · subst huser
      rw [KeyValue.get_set_self, Option.getD_some, ih, ofUser_concat_self, List.reverse_append, List.map_append]
      exact take_cons_take 200 (entryOf event) _
    · rw [KeyValue.get_set_of_ne fun hkey => huser (velocityKey_injective hkey).symm, ih,
        ofUser_concat_of_ne before huser]

theorem located_concat (before : List (TradeExecutedEvent Coord)) (event : TradeExecutedEvent Coord) :
    located (before ++ [event]) =
      located before ++ (event.coords.map fun coords => ⟨event.ipAddress, event.time, coords⟩).toList := by
  unfold located
  rw [List.filterMap_append]
  cases h : event.coords <;> simp [h]

/-- The stored addresses are those that a user's events recall. -/
theorem previousEvents_stored (before : List (TradeExecutedEvent Coord)) (now : ℤ) (userId : String) :
    detector.previousEvents (detector.storeAfter before) now userId =
      ((detector.unbroken now (located (ofUser userId before)).reverse).take 20).reverse := by
  induction before using List.reverseRecOn generalizing now with
  | nil => rfl
  | append_singleton before event ih =>
    rw [storeAfter_concat, evaluate]
    unfold checkGeoImpossibility
    cases hcoords : event.coords with
    | none =>
      have hlocated : located (ofUser userId (before ++ [event])) = located (ofUser userId before) := by
        by_cases huser : event.userId = userId
        · subst huser
          rw [ofUser_concat_self, located_concat, hcoords]
          exact List.append_nil _
        · rw [ofUser_concat_of_ne before huser]
      rw [hlocated]
      exact ih now
    | some coords =>
      by_cases huser : event.userId = userId
      · subst huser
        have hprevious := ih event.time
        rw [ofUser_concat_self, located_concat, hcoords]
        unfold previousEvents at hprevious ⊢
        dsimp only
        rw [KeyValue.get_set_self]
        dsimp only [geoip_checkVelocity]
        rw [hprevious, List.rtake_eq_reverse_take_reverse, List.reverse_append, List.reverse_reverse]
        simp only [Option.map_some, Option.toList_some, List.reverse_append, List.reverse_cons, List.reverse_nil,
          List.nil_append, List.singleton_append, unbroken]
        by_cases hkeeps : detector.keeps event.time now = true
        · rw [if_pos hkeeps, if_pos hkeeps, take_cons_take]
        · rw [if_neg hkeeps, if_neg hkeeps]
          rfl
      · rw [ofUser_concat_of_ne before huser, ← ih now]
        unfold previousEvents
        dsimp only
        rw [KeyValue.get_set_of_ne fun hkey => huser (geoipKey_injective hkey).symm]
        rfl

omit [LT N] [DecidableLT N] in
theorem unbroken_sublist (now : ℤ) (events : List (IpEvent Coord)) :
    (detector.unbroken now events).Sublist events := by
  induction events generalizing now with
  | nil => exact List.nil_sublist _
  | cons event events ih =>
    rw [unbroken]
    by_cases hkeeps : detector.keeps event.timestamp now = true
    · rw [if_pos hkeeps]
      exact (ih event.timestamp).cons_cons event
    · rw [if_neg hkeeps]
      exact List.nil_sublist _

omit [LT N] [DecidableLT N] in
/-- What is recalled has happened. -/
theorem mem_located_of_recalled {before : List (TradeExecutedEvent Coord)} {event : TradeExecutedEvent Coord}
    {prev : IpEvent Coord} (h : prev ∈ detector.recalled before event) :
    prev ∈ located (ofUser event.userId before) :=
  List.mem_reverse.mp ((unbroken_sublist _ _).subset (List.mem_of_mem_take h))

theorem geoTriggered_iff (before : List (TradeExecutedEvent Coord)) (event : TradeExecutedEvent Coord) :
    detector.geoTriggered before event = true ↔ detector.TooFar (detector.recalled before event) event := by
  have hprevious : detector.previousEvents (detector.checkVelocity (detector.storeAfter before) event).2 event.time
      event.userId = (detector.recalled before event).reverse := previousEvents_stored before event.time event.userId
  unfold geoTriggered checkGeoImpossibility TooFar
  cases event.coords with
  | none => simp
  | some coords =>
    dsimp only
    rw [hprevious, List.any_reverse, List.any_eq_true]
    simp

/-! ## What has been cut off -/

theorem velocityTriggered_iff {before : List (TradeExecutedEvent Coord)} {event : TradeExecutedEvent Coord}
    (hsorted : (before ++ [event]).Pairwise fun a b => a.time ≤ b.time) :
    detector.velocityTriggered before event = true ↔
      detector.config.velocityMaxTradesPerMinute < (min 200 (lastMinute before event).length : ℕ) := by
  have hentries : (entryOf event :: ((detector.storeAfter before).velocity.get (velocityKey event.userId)).getD []).take
      200 = ((ofUser event.userId (before ++ [event])).reverse.map entryOf).take 200 := by
    rw [velocity_stored, ofUser_concat_self, List.reverse_append, List.map_append]
    exact take_cons_take 200 (entryOf event) _
  have hpair : ((ofUser event.userId (before ++ [event])).reverse.map entryOf).Pairwise fun a b =>
      decide (event.time - 60000 ≤ b.timestamp) = true → decide (event.time - 60000 ≤ a.timestamp) = true := by
    rw [List.pairwise_map, List.pairwise_reverse]
    refine (hsorted.sublist List.filter_sublist).imp fun {a b} hle hrecent => ?_
    rw [decide_eq_true_eq] at hrecent ⊢
    exact Int.le_trans hrecent hle
  have hcount : ((ofUser event.userId (before ++ [event])).reverse.map entryOf).countP
      (fun entry => decide (event.time - 60000 ≤ entry.timestamp)) = (lastMinute before event).length := by
    rw [List.countP_map, (List.reverse_perm _).countP_eq, List.countP_eq_length_filter]
    rfl
  unfold velocityTriggered checkVelocity
  dsimp only
  rw [decide_eq_true_eq, show VelocityEntry.mk event.time event.tradeId = entryOf event from rfl, hentries,
    countP_take hpair, hcount]

theorem lt_min_iff_exact (limit : ℚ) (count : ℕ) :
    ((limit < (min 200 count : ℕ)) ↔ limit < count) ↔ limit < 200 ∨ (count : ℚ) ≤ limit := by
  rw [Nat.cast_min, Nat.cast_ofNat, lt_min_iff]
  constructor
  · intro hiff
    by_cases hcount : limit < count
    · exact .inl (hiff.mpr hcount).1
    · exact .inr (not_lt.mp hcount)
  · rintro (hlimit | hcount)
    · exact ⟨fun h => h.2, fun h => ⟨hlimit, h⟩⟩
    · exact ⟨fun h => absurd h.2 (not_lt.mpr hcount), fun h => absurd h (not_lt.mpr hcount)⟩

/-- **Windows seen as a whole.** Of events at times that do not go back, the velocity check finds each one too fast
that is, exactly if the limit is below 200 or the minute has no more than the limit; and the geographic check each
one that is too far from an earlier one of its window, exactly if it is so from one that is recalled. -/
theorem detectors_exact_iff (before : List (TradeExecutedEvent Coord)) (event : TradeExecutedEvent Coord)
    (hsorted : (before ++ [event]).Pairwise fun a b => a.time ≤ b.time) :
    ((detector.velocityTriggered before event = true ↔ detector.TooFast before event) ↔
        detector.config.velocityMaxTradesPerMinute < 200 ∨
          ((lastMinute before event).length : ℚ) ≤ detector.config.velocityMaxTradesPerMinute) ∧
      ((detector.geoTriggered before event = true ↔ detector.TooFar (located (ofUser event.userId before)) event) ↔
        (detector.TooFar (located (ofUser event.userId before)) event →
          detector.TooFar (detector.recalled before event) event)) := by
  constructor
  · rw [velocityTriggered_iff hsorted]
    exact lt_min_iff_exact _ _
  · rw [geoTriggered_iff]
    constructor
    · exact fun hiff => hiff.mpr
    · intro hrecalled
      refine ⟨?_, hrecalled⟩
      rintro ⟨coords, hcoords, prev, hprev, hspeaks⟩
      exact ⟨coords, hcoords, prev, mem_located_of_recalled hprev, hspeaks⟩

end AnomalyDetector
end

/-! ## New York and Tokyo -/

/-- Latitude and longitude. -/
abbrev Place := ℚ × ℚ

def newYork : Place := (407128 / 10000, -74006 / 1000)

def tokyo : Place := (356762 / 10000, 1396503 / 10000)

/-- The distance between the two places, to the kilometre. -/
def testDistance (a b : Place) : ℚ := if a = b then 0 else 10852

/-- The values of `bootstrap.ts`, but for the limit of trades. -/
def testDetector (velocityMaxTradesPerMinute : ℚ) : AnomalyDetector Place ℚ where
  config :=
    { velocityMaxTradesPerMinute := velocityMaxTradesPerMinute
      geoImpossibilityMaxKm := 1000
      geoImpossibilityWindowMinutes := 30 }
  haversineDistanceKm := testDistance
  setPassesTtl := false

def tradeFrom (ipAddress : String) (place : Place) (time : ℤ) : TradeExecutedEvent Place :=
  ⟨"t1", "user-1", ipAddress, some place, time⟩

/-- The third trade in a minute is too fast for a limit of two, and Tokyo too far from New York. -/
theorem thirdTrade_exact :
    ((testDetector 2).velocityTriggered [tradeFrom "1.1.1.1" newYork 0, tradeFrom "1.1.1.1" newYork 1000]
        (tradeFrom "2.2.2.2" tokyo 2000) = true ↔
      (testDetector 2).TooFast [tradeFrom "1.1.1.1" newYork 0, tradeFrom "1.1.1.1" newYork 1000]
        (tradeFrom "2.2.2.2" tokyo 2000)) ∧
    ((testDetector 2).geoTriggered [tradeFrom "1.1.1.1" newYork 0, tradeFrom "1.1.1.1" newYork 1000]
        (tradeFrom "2.2.2.2" tokyo 2000) = true ↔
      (testDetector 2).TooFar (located (ofUser "user-1"
        [tradeFrom "1.1.1.1" newYork 0, tradeFrom "1.1.1.1" newYork 1000])) (tradeFrom "2.2.2.2" tokyo 2000)) := by
  have hexact := @AnomalyDetector.detectors_exact_iff _ _ _ _ (testDetector 2)
    [tradeFrom "1.1.1.1" newYork 0, tradeFrom "1.1.1.1" newYork 1000] (tradeFrom "2.2.2.2" tokyo 2000)
    (by simp [tradeFrom])
  constructor
  · exact hexact.1.mpr (.inl (by norm_num [testDetector]))
  · exact hexact.2.mpr fun _ => ⟨tokyo, rfl, ⟨"1.1.1.1", 0, newYork⟩, by decide +kernel, by decide +kernel⟩

/-- One trade from Tokyo, and twenty from New York. -/
def tokyoFirst : List (TradeExecutedEvent Place) :=
  tradeFrom "2.2.2.2" tokyo 0 :: List.replicate 20 (tradeFrom "1.1.1.1" newYork 1000)

/-- With a limit of 200, the 201st trade of a minute is let through; and after twenty trades from New York, a trade
from there does not bring back the one from Tokyo. -/
theorem detectors_miss :
    (¬ ((testDetector 200).velocityTriggered (List.replicate 200 (tradeFrom "1.1.1.1" newYork 0))
          (tradeFrom "1.1.1.1" newYork 0) = true ↔
        (testDetector 200).TooFast (List.replicate 200 (tradeFrom "1.1.1.1" newYork 0))
          (tradeFrom "1.1.1.1" newYork 0))) ∧
      ¬ ((testDetector 50).geoTriggered tokyoFirst (tradeFrom "1.1.1.1" newYork 2000) = true ↔
        (testDetector 50).TooFar (located (ofUser "user-1" tokyoFirst)) (tradeFrom "1.1.1.1" newYork 2000)) := by
  constructor
  · have hlength : (lastMinute (List.replicate 200 (tradeFrom "1.1.1.1" newYork 0))
        (tradeFrom "1.1.1.1" newYork 0)).length = 201 := by
      unfold lastMinute ofUser
      rw [← List.replicate_succ', List.filter_replicate, if_pos (by simp), List.filter_replicate, if_pos (by decide),
        List.length_replicate]
    intro hiff
    have hsorted : (List.replicate 200 (tradeFrom "1.1.1.1" newYork 0) ++ [tradeFrom "1.1.1.1" newYork 0]).Pairwise
        fun a b => a.time ≤ b.time := by
      rw [← List.replicate_succ', List.pairwise_replicate]
      exact .inr (Int.le_refl _)
    have hfast : (testDetector 200).TooFast (List.replicate 200 (tradeFrom "1.1.1.1" newYork 0))
        (tradeFrom "1.1.1.1" newYork 0) := by
      rw [AnomalyDetector.TooFast, hlength]
      norm_num [testDetector]
    have htriggered := (AnomalyDetector.velocityTriggered_iff hsorted).mp (hiff.mpr hfast)
    rw [hlength] at htriggered
    norm_num [testDetector] at htriggered
  · intro hiff
    have hnot : (testDetector 50).geoTriggered tokyoFirst (tradeFrom "1.1.1.1" newYork 2000) = false := by
      decide +kernel
    rw [hnot] at hiff
    refine absurd (hiff.mpr ⟨newYork, rfl, ⟨"2.2.2.2", 0, tokyo⟩, ?_, ?_⟩) Bool.false_ne_true
    · decide +kernel
    · decide +kernel

end SuperAi.Anomaly
