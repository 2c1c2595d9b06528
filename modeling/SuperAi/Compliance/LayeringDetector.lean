import SuperAi.Foundations.FixedWindow
import SuperAi.Foundations.Joined
import Mathlib.Algebra.Order.Field.Rat
import Mathlib.Data.PNat.Basic

/-! # The layering detector

`LayeringDetector` (`compliance/layering.detector.ts`) counts the orders and the cancellations of a user on an
instrument under two keys, each of which expires a window after the event that created it. So the ratio is that of
two fixed windows that start independently of each other (`check_eq`). Log lines and alerts are left out.
-/
namespace SuperAi.Compliance
open SuperAi.Foundations
set_option autoImplicit false

structure LayeringConfig where
  layeringDetectionWindowMs : ℕ+ := 5000
  layeringCancelRatioThreshold : ℚ := 4 / 5

structure LayeringCheckResult where
  suspicious : Bool
  cancelRatio : ℚ
  deriving DecidableEq, Repr

def LAYERING_PREFIX : String := "layering:"

def orderCountKey (userId instrument : String) : String :=
  LAYERING_PREFIX ++ "orders:" ++ userId ++ ":" ++ instrument

def cancelCountKey (userId instrument : String) : String :=
  LAYERING_PREFIX ++ "cancels:" ++ userId ++ ":" ++ instrument

/-- Without orders the ratio is zero. -/
def ratioOf (cancelCount orderCount : ℕ) : ℚ := if 0 < orderCount then cancelCount / orderCount else 0

namespace LayeringDetector
variable (cfg : LayeringConfig)

/-- The whole seconds that a key lasts, in milliseconds. -/
def countTtl : ℤ := ((cfg.layeringDetectionWindowMs : ℕ) + 999) / 1000 * 1000

/-- `incr`, and `expire` where it gives one. -/
def increment (counters : ExpiringStore String ℕ) (now : ℤ) (key : String) : ExpiringStore String ℕ :=
  match counters.read now key with
  | some count => counters.replace key (count + 1)
  | none => counters.setex now (countTtl cfg) key 1

def recordOrder (counters : ExpiringStore String ℕ) (now : ℤ) (instrument userId : String) : ExpiringStore String ℕ :=
  increment cfg counters now (orderCountKey userId instrument)

def recordCancellation (counters : ExpiringStore String ℕ) (now : ℤ) (userId instrument : String) :
    ExpiringStore String ℕ :=
  increment cfg counters now (cancelCountKey userId instrument)

def check (counters : ExpiringStore String ℕ) (now : ℤ) (userId instrument : String) : LayeringCheckResult :=
  let orderCount := (counters.read now (orderCountKey userId instrument)).getD 0
  let cancelCount := (counters.read now (cancelCountKey userId instrument)).getD 0
  let cancelRatio := ratioOf cancelCount orderCount
  if cfg.layeringCancelRatioThreshold < cancelRatio then { suspicious := true, cancelRatio := cancelRatio }
  else { suspicious := false, cancelRatio := cancelRatio }

end LayeringDetector

/-! ## Histories -/

inductive LayeringKind
  | order
  | cancellation
  deriving DecidableEq, Repr

/-- An order placed or cancelled, at a time in milliseconds. -/
structure LayeringEvent where
  kind : LayeringKind
  now : ℤ
  userId : String
  instrument : String
  deriving DecidableEq, Repr

namespace LayeringDetector
variable (cfg : LayeringConfig)

def record (counters : ExpiringStore String ℕ) (e : LayeringEvent) : ExpiringStore String ℕ :=
  match e.kind with
  | .order => recordOrder cfg counters e.now e.instrument e.userId
  | .cancellation => recordCancellation cfg counters e.now e.userId e.instrument

def recordAll (events : List LayeringEvent) : ExpiringStore String ℕ := events.foldl (record cfg) []

end LayeringDetector

/-- The user and the instrument as they stand in a key. -/
def pairName (userId instrument : String) : String := userId ++ ":" ++ instrument

/-- The times of the events of one kind of a user on an instrument. -/
def timesOf (kind : LayeringKind) (userId instrument : String) (events : List LayeringEvent) : List ℤ :=
  (events.filter fun e => decide (e.kind = kind ∧ pairName e.userId e.instrument = pairName userId instrument)).map
    LayeringEvent.now

def countKey : LayeringKind → String → String → String
  | .order => orderCountKey
  | .cancellation => cancelCountKey

/-! ## What the keys tell apart -/

theorem toList_countKey (kind : LayeringKind) (userId instrument : String) :
    (countKey kind userId instrument).toList = "layering:".toList ++ ((match kind with
      | .order => "orders:".toList
      | .cancellation => "cancels:".toList) ++ (pairName userId instrument).toList) := by
  cases kind <;> simp [countKey, orderCountKey, cancelCountKey, LAYERING_PREFIX, pairName]

theorem countKey_eq_iff {kind kind' : LayeringKind} {userId userId' instrument instrument' : String} :
    countKey kind userId instrument = countKey kind' userId' instrument' ↔
      kind = kind' ∧ pairName userId instrument = pairName userId' instrument' := by
  constructor
  · intro h
    have hchars := congrArg String.toList h
    rw [toList_countKey, toList_countKey, List.append_right_inj] at hchars
    cases kind <;> cases kind'
    · exact ⟨rfl, String.toList_injective (List.append_cancel_left hchars)⟩
    · simp at hchars
    · simp at hchars
    · exact ⟨rfl, String.toList_injective (List.append_cancel_left hchars)⟩
  · rintro ⟨rfl, hpair⟩
    have hchars := congrArg String.toList hpair
    apply String.toList_injective
    rw [toList_countKey, toList_countKey, hchars]

theorem toList_pairName (userId instrument : String) :
    (pairName userId instrument).toList = userId.toList ++ ':' :: instrument.toList := by
  simp [pairName]

/-- User ids without a colon are told apart. -/
theorem pairName_eq_iff {userId userId' instrument instrument' : String} (h : ':' ∉ userId.toList)
    (h' : ':' ∉ userId'.toList) : pairName userId instrument = pairName userId' instrument' ↔
      userId = userId' ∧ instrument = instrument' := by
  constructor
  · intro hpair
    have hchars := congrArg String.toList hpair
    rw [toList_pairName, toList_pairName] at hchars
    obtain ⟨huser, hinstrument⟩ := append_cons_inj_left h h' hchars
    exact ⟨String.toList_injective huser, String.toList_injective hinstrument⟩
  · rintro ⟨rfl, rfl⟩
    rfl

/-! ## The two windows -/

namespace LayeringDetector
variable {cfg : LayeringConfig}

theorem record_eq (counters : ExpiringStore String ℕ) (e : LayeringEvent) : record cfg counters e =
    increment cfg counters e.now (countKey e.kind e.userId e.instrument) := by
  obtain ⟨kind, now, userId, instrument⟩ := e
  cases kind <;> rfl

theorem get_increment_self (counters : ExpiringStore String ℕ) (now : ℤ) (key : String) :
    KeyValue.get (increment cfg counters now key) key =
      some (FixedWindow.hit (countTtl cfg) now (KeyValue.get counters key)) := by
  unfold increment
  cases hread : counters.read now key with
  | none => exact FixedWindow.get_setex_of_read hread
  | some count => exact FixedWindow.get_replace_of_read hread

theorem get_increment_of_ne {counters : ExpiringStore String ℕ} {now : ℤ} {key key' : String} (h : key' ≠ key) :
    KeyValue.get (increment cfg counters now key) key' = KeyValue.get counters key' := by
  unfold increment
  cases counters.read now key with
  | none => exact KeyValue.get_set_of_ne h
  | some count => exact ExpiringStore.get_replace_of_ne h

/-- Each counter goes through the events of its own kind, user and instrument. -/
theorem get_recordAll (cfg : LayeringConfig) (kind : LayeringKind) (userId instrument : String)
    (events : List LayeringEvent) : KeyValue.get (recordAll cfg events) (countKey kind userId instrument) =
      FixedWindow.after (countTtl cfg) none (timesOf kind userId instrument events) := by
  induction events using List.reverseRecOn with
  | nil => rfl
  | append_singleton events e ih =>
    have hlast : recordAll cfg (events ++ [e]) = record cfg (recordAll cfg events) e := List.foldl_concat ..
    unfold timesOf at ih ⊢
    rw [hlast, record_eq, List.filter_append, List.map_append]
    by_cases hsame : e.kind = kind ∧ pairName e.userId e.instrument = pairName userId instrument
    · have hkey := countKey_eq_iff.mpr hsame
      rw [← hkey] at ih ⊢
      rw [get_increment_self, ih, List.filter_cons_of_pos (by simpa using hsame), List.filter_nil, List.map_singleton,
        FixedWindow.after_snoc]
    · have hkey : countKey kind userId instrument ≠ countKey e.kind e.userId e.instrument := fun heq =>
        hsame (countKey_eq_iff.mp heq.symm)
      rw [get_increment_of_ne hkey, ih, List.filter_cons_of_neg (by simpa using hsame), List.filter_nil, List.map_nil,
        List.append_nil]

theorem countTtl_pos (cfg : LayeringConfig) : 0 < countTtl cfg := by
  have hpos := cfg.layeringDetectionWindowMs.pos
  unfold countTtl
  omega

/-- The count of a kind is that of the window that is running. -/
theorem count_recordAll (cfg : LayeringConfig) (kind : LayeringKind) (userId instrument : String)
    {events : List LayeringEvent} (hsorted : (events.map LayeringEvent.now).Pairwise (· ≤ ·)) (now : ℤ) :
    ((recordAll cfg events).read now (countKey kind userId instrument)).getD 0 =
      FixedWindow.hitsOfWindow (countTtl cfg) (timesOf kind userId instrument events) now := by
  rw [FixedWindow.read_getD, get_recordAll, FixedWindow.count_after (countTtl_pos cfg)]
  exact hsorted.sublist (List.filter_sublist.map LayeringEvent.now)

/-- **The layering ratio.** After events at non-decreasing times the ratio of a check is that of the
cancellations in the window that runs for them to the orders in the window that runs for those, and the check is
suspicious exactly if it exceeds the threshold. -/
theorem check_eq (cfg : LayeringConfig) {events : List LayeringEvent}
    (hsorted : (events.map LayeringEvent.now).Pairwise (· ≤ ·)) (now : ℤ) (userId instrument : String) :
    let cancellations := FixedWindow.hitsOfWindow (countTtl cfg) (timesOf .cancellation userId instrument events) now
    let orders := FixedWindow.hitsOfWindow (countTtl cfg) (timesOf .order userId instrument events) now
    (check cfg (recordAll cfg events) now userId instrument).cancelRatio = ratioOf cancellations orders ∧
      ((check cfg (recordAll cfg events) now userId instrument).suspicious = true ↔
        cfg.layeringCancelRatioThreshold < ratioOf cancellations orders) := by
  have horders := count_recordAll cfg .order userId instrument hsorted now
  have hcancellations := count_recordAll cfg .cancellation userId instrument hsorted now
  dsimp only [countKey] at horders hcancellations ⊢
  rw [← horders, ← hcancellations]
  unfold check
  dsimp only
  split
  · exact ⟨rfl, iff_of_true rfl ‹_›⟩
  · exact ⟨rfl, iff_of_false Bool.false_ne_true ‹_›⟩

end LayeringDetector

/-! ## Two windows that do not start together -/

/-- Events of the kind less than the window ago. -/
def recentOf (cfg : LayeringConfig) (kind : LayeringKind) (userId instrument : String) (events : List LayeringEvent)
    (now : ℤ) : ℕ :=
  (timesOf kind userId instrument events).countP fun t =>
    decide (now - (cfg.layeringDetectionWindowMs : ℕ) < t ∧ t ≤ now)

def eventAt (kind : LayeringKind) (now : ℤ) : LayeringEvent where
  kind := kind
  now := now
  userId := "user"
  instrument := "BTC-USDT"

/-- The window of the orders ends a moment before the check, that of the cancellations is still running. -/
def spoofing : List LayeringEvent := [eventAt .order 0, eventAt .order 4900, eventAt .cancellation 4950]

theorem spoofing_check :
    (LayeringDetector.check {} (LayeringDetector.recordAll {} spoofing) 4990 "user" "BTC-USDT").cancelRatio = 1 / 2 := by
  have hsorted : (spoofing.map LayeringEvent.now).Pairwise (· ≤ ·) := by decide
  rw [(LayeringDetector.check_eq {} hsorted 4990 "user" "BTC-USDT").1]
  decide +kernel

theorem spoofing_unnoticed : ∃ (cfg : LayeringConfig) (events : List LayeringEvent) (now : ℤ)
    (userId instrument : String), (events.map LayeringEvent.now).Pairwise (· ≤ ·) ∧
      cfg.layeringCancelRatioThreshold < ratioOf (recentOf cfg .cancellation userId instrument events now)
        (recentOf cfg .order userId instrument events now) ∧
      (LayeringDetector.check cfg (LayeringDetector.recordAll cfg events) now userId instrument).suspicious = false := by
  refine ⟨{}, spoofing, 5100, "user", "BTC-USDT", by decide, ?_, ?_⟩
  · decide +kernel
  · decide +kernel

end SuperAi.Compliance
