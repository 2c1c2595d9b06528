import SuperAi.Auth.WalletVerifier
import SuperAi.Foundations.KeyValue
import Mathlib.Algebra.Order.Ring.Rat
import Mathlib.Data.Int.ConditionallyCompleteOrder
import Mathlib.Data.List.Sort
import Mathlib.Data.Rat.Floor
import Mathlib.Order.WithBot

/-! # The track record and its rescans

The table of `IntelSnapshot` with its `IntelRescan` rows, and what `IntelRescanWorker`
(`intel-track/intel-rescan.worker.ts`) reads and writes: the batch that is due, the transaction of one snapshot, the
demotions and the purge. Each is one statement or one transaction on the database. Times are milliseconds.
-/
namespace SuperAi.IntelTrack
open SuperAi.Auth SuperAi.Foundations
set_option autoImplicit false

structure RescanConfig where
  RESCAN_INTERVAL_SEC : ℕ := 600
  RESCAN_BATCH_SIZE : ℕ := 60
  RESCAN_MAX_AGE_DAYS : ℕ := 30
  AUTO_PURGE : Bool := true
  HOT_SCAN_PURGE_DAYS : ℕ := 3
  MIN_AI_SCORE : ℤ := 60

def RUGGED_LIQ_THRESHOLD_USD : ℚ := 1000

def RUGGED_CONSECUTIVE_FAILS : ℕ := 3

def RETIRE_NO_RESPONSE_HOURS : ℕ := 72

def GRADUATED_PUMP_MULTIPLIER : ℚ := 10

def SPARKLINE_MAX_POINTS : ℕ := 60

/-! ## Rows -/

inductive IntelSource
  | hot_tokens_scan
  | manual_scan
  | telegram_scan
  | snipe
  deriving DecidableEq, Repr

inductive IntelStatus
  | active
  | retired
  | rugged
  | graduated
  deriving DecidableEq, Repr

/-- The columns that are frozen at capture. -/
structure Capture where
  userId : Option String := none
  chain : Chain := .SOLANA
  address : String
  symbol : Option String := none
  name : Option String := none
  capturedAt : ℤ
  source : IntelSource := .manual_scan
  profileKey : Option String := none
  priceUsdAtCapture : ℚ
  marketCapUsdAtCapture : Option ℚ := none
  liquidityUsdAtCapture : Option ℚ := none
  volume24hAtCapture : Option ℚ := none
  reportJson : String := ""
  aiScore : Option ℤ := none
  aiVerdict : Option String := none
  aiSummary : Option String := none
  killTriggered : Bool := false
  deriving DecidableEq, Repr

structure IntelSnapshot where
  capture : Capture
  lastRescannedAt : Option ℤ := none
  currentPriceUsd : Option ℚ
  currentMcapUsd : Option ℚ
  currentLiquidity : Option ℚ
  pumpedHigh : Option ℚ
  pumpedHighAt : Option ℤ
  drawdownLow : Option ℚ
  drawdownLowAt : Option ℤ
  rescanCount : ℕ := 0
  reappearedAt : Option ℤ := none
  reappearedSource : Option IntelSource := none
  status : IntelStatus := .active
  sparkline : List ℤ
  deriving DecidableEq, Repr

structure IntelRescan where
  snapshotId : ℕ
  ts : ℤ
  priceUsd : ℚ
  marketCapUsd : Option ℚ
  liquidityUsd : Option ℚ
  volume24hUsd : Option ℚ
  deriving DecidableEq, Repr

/-- The two tables; `nextId` has not been given to a snapshot yet. -/
structure IntelTable where
  snapshots : KeyValue ℕ IntelSnapshot := []
  rescans : List IntelRescan := []
  nextId : ℕ := 0
  deriving DecidableEq, Repr

/-- An entry of the price map. -/
structure PriceData where
  priceUsd : Option ℚ := none
  marketCapUsd : Option ℚ := none
  liquidityUsd : Option ℚ := none
  volume24hUsd : Option ℚ := none
  deriving DecidableEq, Repr

def mathRound (x : ℚ) : ℤ := ⌊x + 1 / 2⌋

/-! ## The batch -/

def IntelSnapshot.rescanned (row : IntelSnapshot) : Bool := row.status == .active || row.status == .graduated

/-- Where the query finds a row, for a tick that begins at `now`. -/
def IntelSnapshot.isStale (cfg : RescanConfig) (now : ℤ) (row : IntelSnapshot) : Bool :=
  row.rescanned && row.lastRescannedAt.all fun time => decide (time < now - cfg.RESCAN_INTERVAL_SEC * 1000)

/-- `orderBy: lastRescannedAt asc`; in PostgreSQL nulls come last. -/
def lastRescan (snapshots : KeyValue ℕ IntelSnapshot) (id : ℕ) : WithTop ℤ :=
  ((snapshots.get id).bind IntelSnapshot.lastRescannedAt).elim ⊤ fun time => (time : WithTop ℤ)

/-- The ids that one read finds, with the table in any order. -/
def staleIds (cfg : RescanConfig) (snapshots : KeyValue ℕ IntelSnapshot) (now : ℤ) (order : List ℕ) : List ℕ :=
  order.filter fun id => (snapshots.get id).any fun row => row.isStale cfg now

def batchIds (cfg : RescanConfig) (snapshots : KeyValue ℕ IntelSnapshot) (now : ℤ) (order : List ℕ) : List ℕ :=
  ((staleIds cfg snapshots now order).insertionSort fun a b => lastRescan snapshots a ≤ lastRescan snapshots b).take
    cfg.RESCAN_BATCH_SIZE

/-- The rows as they are read. -/
def batchRows (cfg : RescanConfig) (snapshots : KeyValue ℕ IntelSnapshot) (now : ℤ) (order : List ℕ) :
    List (ℕ × IntelSnapshot) :=
  (batchIds cfg snapshots now order).filterMap fun id => (snapshots.get id).map (id, ·)

/-! ## The transaction of one snapshot -/

/-- `newMcap != null && (high == null || newMcap > high)` -/
def raises (high newMcap : Option ℚ) : Bool := newMcap.any fun mcap => high.all fun h => decide (h < mcap)

/-- `newMcap != null && (low == null || newMcap < low)` -/
def lowers (low newMcap : Option ℚ) : Bool := newMcap.any fun mcap => low.all fun l => decide (mcap < l)

def newPumpedHigh (high newMcap : Option ℚ) : Option ℚ := if raises high newMcap then newMcap else high

def newDrawdown (low newMcap : Option ℚ) : Option ℚ := if lowers low newMcap then newMcap else low

def pushSparkline (sparkline : List ℤ) (newMcap : Option ℚ) : List ℤ :=
  match newMcap with
  | none => sparkline
  | some mcap =>
    let next := sparkline ++ [mathRound mcap]
    next.drop (next.length - SPARKLINE_MAX_POINTS)

def graduates (read : IntelSnapshot) (high : Option ℚ) : Bool :=
  read.status == .active && read.capture.marketCapUsdAtCapture.any fun mcap =>
    high.any fun h => decide (0 < mcap ∧ GRADUATED_PUMP_MULTIPLIER ≤ h / mcap)

/-- The update, which is computed from the row as it was read. -/
def rescanUpdate (read : IntelSnapshot) (data : PriceData) (now : ℤ) (row : IntelSnapshot) : IntelSnapshot :=
  let newMcap := data.marketCapUsd
  let high := newPumpedHigh read.pumpedHigh newMcap
  { row with
    lastRescannedAt := some now
    currentPriceUsd := data.priceUsd
    currentMcapUsd := newMcap
    currentLiquidity := data.liquidityUsd
    pumpedHigh := high
    pumpedHighAt := if raises read.pumpedHigh newMcap then some now else row.pumpedHighAt
    drawdownLow := newDrawdown read.drawdownLow newMcap
    drawdownLowAt := if lowers read.drawdownLow newMcap then some now else row.drawdownLowAt
    sparkline := pushSparkline read.sparkline newMcap
    rescanCount := row.rescanCount + 1
    status := if graduates read high then .graduated else row.status }

/-- What the loop writes for a row; a row without a price is passed over, one that is gone fails. -/
def IntelTable.persist (t : IntelTable) (id : ℕ) (read : IntelSnapshot) (data : Option PriceData) (now : ℤ) :
    IntelTable :=
  match data, data.bind PriceData.priceUsd, t.snapshots.get id with
  | some data, some priceUsd, some row =>
    { t with
      snapshots := t.snapshots.set id (rescanUpdate read data now row)
      rescans := t.rescans ++ [{
        snapshotId := id
        ts := now
        priceUsd
        marketCapUsd := data.marketCapUsd
        liquidityUsd := data.liquidityUsd
        volume24hUsd := data.volume24hUsd }] }
  | _, _, _ => t

/-! ## Demotions and the purge -/

def IntelTable.mapSnapshots (t : IntelTable) (f : ℕ → IntelSnapshot → IntelSnapshot) : IntelTable :=
  { t with snapshots := t.snapshots.map fun entry => (entry.1, f entry.1 entry.2) }

/-- No rescan for 72 hours; a null is not before any time. -/
def IntelSnapshot.unanswered (now : ℤ) (row : IntelSnapshot) : Bool :=
  row.status == .active &&
    row.lastRescannedAt.any fun time => decide (time < now - RETIRE_NO_RESPONSE_HOURS * 3600000)

def IntelTable.retire (t : IntelTable) (now : ℤ) : IntelTable :=
  t.mapSnapshots fun _ row => if row.unanswered now then { row with status := .retired } else row

/-- The rescans of a snapshot, the newest first. -/
def IntelTable.rescansOf (t : IntelTable) (id : ℕ) : List IntelRescan :=
  (t.rescans.filter fun r => r.snapshotId == id).insertionSort fun a b => b.ts ≤ a.ts

def IntelTable.isRugged (t : IntelTable) (id : ℕ) : Bool :=
  decide (RUGGED_CONSECUTIVE_FAILS ≤ ((t.rescansOf id).take RUGGED_CONSECUTIVE_FAILS).countP fun r =>
    r.liquidityUsd.any fun liquidity => decide (liquidity < RUGGED_LIQ_THRESHOLD_USD))

def IntelTable.ruggedCandidates (t : IntelTable) : List ℕ :=
  (t.snapshots.filter fun entry => entry.2.status == .active && t.isRugged entry.1).map Prod.fst

def IntelTable.demote (t : IntelTable) (ids : List ℕ) : IntelTable :=
  t.mapSnapshots fun id row => if id ∈ ids then { row with status := .rugged } else row

/-- Deletes what `p` holds of, with its rescans. -/
def IntelTable.deleteMany (t : IntelTable) (p : IntelSnapshot → Bool) : IntelTable :=
  { t with
    snapshots := t.snapshots.filter fun entry => !p entry.2
    rescans := t.rescans.filter fun r => !(t.snapshots.get r.snapshotId).any p }

def daysMs (days : ℕ) : ℤ := days * 86400000

def IntelTable.purgeRetired (cfg : RescanConfig) (t : IntelTable) (now : ℤ) : IntelTable :=
  t.deleteMany fun row => (row.status == .retired || row.status == .rugged) &&
    decide (row.capture.capturedAt < now - daysMs cfg.RESCAN_MAX_AGE_DAYS)

def IntelTable.purgeHotScan (cfg : RescanConfig) (t : IntelTable) (now : ℤ) : IntelTable :=
  t.deleteMany fun row => row.capture.source == .hot_tokens_scan && row.status != .graduated &&
    decide (row.capture.capturedAt < now - daysMs cfg.HOT_SCAN_PURGE_DAYS)

/-! ## What the statements do to a row -/

/-- The loop writes the row. -/
def isPriced (data : Option PriceData) : Bool := (data.bind PriceData.priceUsd).isSome

/-- No two entries have one id. -/
def IntelTable.Keyed (t : IntelTable) : Prop := (t.snapshots.map Prod.fst).Nodup

namespace IntelTable
variable {t : IntelTable} {id : ℕ} {row read : IntelSnapshot} {data : Option PriceData} {now : ℤ}

theorem persist_of_unpriced (h : isPriced data = false) : t.persist id read data now = t := by
  unfold isPriced at h
  rw [Option.isSome_eq_false_iff, Option.isNone_iff_eq_none] at h
  unfold persist
  rw [h]
  cases data <;> rfl

theorem persist_of_get {d : PriceData} {priceUsd : ℚ} (hprice : d.priceUsd = some priceUsd)
    (hrow : t.snapshots.get id = some row) : t.persist id read (some d) now = { t with
      snapshots := t.snapshots.set id (rescanUpdate read d now row)
      rescans := t.rescans ++ [{
        snapshotId := id
        ts := now
        priceUsd
        marketCapUsd := d.marketCapUsd
        liquidityUsd := d.liquidityUsd
        volume24hUsd := d.volume24hUsd }] } := by
  simp [persist, hprice, hrow]

theorem persist_of_gone (hgone : t.snapshots.get id = none) : t.persist id read data now = t := by
  unfold persist
  rw [hgone]
  cases data with
  | none => rfl
  | some d => cases hprice : d.priceUsd <;> simp [hprice]

/-- What the loop writes for a row, if it writes anything. -/
theorem persist_cases (t : IntelTable) (id : ℕ) (read : IntelSnapshot) (data : Option PriceData) (now : ℤ) :
    t.persist id read data now = t ∨ ∃ d priceUsd row, data = some d ∧ d.priceUsd = some priceUsd ∧
      t.snapshots.get id = some row := by
  cases data with
  | none => exact .inl (persist_of_unpriced rfl)
  | some d =>
    cases hprice : d.priceUsd with
    | none => exact .inl (persist_of_unpriced (by simp [isPriced, hprice]))
    | some priceUsd =>
      cases hrow : t.snapshots.get id with
      | none => exact .inl (persist_of_gone hrow)
      | some row => exact .inr ⟨d, priceUsd, row, rfl, hprice, rfl⟩

theorem get_persist_of_ne {other : ℕ} (h : other ≠ id) :
    (t.persist id read data now).snapshots.get other = t.snapshots.get other := by
  obtain heq | ⟨d, priceUsd, row, rfl, hprice, hrow⟩ := persist_cases t id read data now
  · rw [heq]
  · rw [persist_of_get hprice hrow]
    exact KeyValue.get_set_of_ne h

theorem get_mapSnapshots (t : IntelTable) (f : ℕ → IntelSnapshot → IntelSnapshot) (id : ℕ) :
    (t.mapSnapshots f).snapshots.get id = (t.snapshots.get id).map (f id) :=
  KeyValue.get_mapEntries t.snapshots f id

theorem get_deleteMany (h : t.Keyed) {p : IntelSnapshot → Bool} :
    (t.deleteMany p).snapshots.get id = some row ↔ t.snapshots.get id = some row ∧ p row = false := by
  unfold deleteMany
  rw [KeyValue.get_filter_eq_some h, Bool.not_eq_true']

namespace Keyed

theorem persist (h : t.Keyed) (id : ℕ) (read : IntelSnapshot) (data : Option PriceData) (now : ℤ) :
    (t.persist id read data now).Keyed := by
  obtain heq | ⟨d, priceUsd, row, rfl, hprice, hrow⟩ := persist_cases t id read data now
  · rwa [heq]
  · rw [persist_of_get hprice hrow]
    exact KeyValue.nodup_set h id _

theorem mapSnapshots (h : t.Keyed) (f : ℕ → IntelSnapshot → IntelSnapshot) : (t.mapSnapshots f).Keyed := by
  unfold Keyed IntelTable.mapSnapshots
  rw [List.map_map]
  exact h

theorem deleteMany (h : t.Keyed) (p : IntelSnapshot → Bool) : (t.deleteMany p).Keyed := KeyValue.nodup_filter h _

end Keyed
end IntelTable
end SuperAi.IntelTrack
