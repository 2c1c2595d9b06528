import SuperAi.Foundations.StepSystem
import SuperAi.IntelTrack.IntelSnapshotService

/-! # The integrity of the track record

Any number of processes with a worker each, and any number of captures, at the granularity of single statements. A
worker computes the extremes of a snapshot from the row it read before the prices came, and demotes by a list of ids
that it read before. While no other commit moves an extreme past both what was read and what is written, and no
listed snapshot graduates before its demotion, the record stays intact (`intact_runs`).
-/
namespace SuperAi.IntelTrack
open SuperAi.Foundations
set_option autoImplicit false

/-! ## Workers -/

/-- What a worker does next; `now` is a time it has taken. -/
inductive WorkerPhase
  | idle
  | pricing (rows : List (ℕ × IntelSnapshot))
  | persisting (now : ℤ) (rows : List ((ℕ × IntelSnapshot) × Option PriceData))
  | retiring (now : ℤ)
  | listing
  | demoting (ids : List ℕ)
  | purging (now : ℤ)
  | purgingHotScan (now : ℤ)
  deriving DecidableEq, Repr

/-- A capture after its lookup. -/
inductive CapturePhase
  | found (id : ℕ) (source : IntelSource)
  | missing (frozen : Capture)
  | done
  deriving DecidableEq, Repr

structure TrackState where
  now : ℤ := 0
  table : IntelTable := {}
  workers : List WorkerPhase := []
  captures : List CapturePhase := []

/-- `boot` starts a process with its worker, `tick` reads a batch, `prices` brings its prices, `advance` is the next
statement of a worker and `fail` one that fails; `capture` looks a token up and `write` ends the capture. -/
inductive TrackEvent
  | wait (ms : ℕ)
  | boot
  | tick (worker : ℕ) (order : List ℕ)
  | prices (worker : ℕ) (answers : List (Option PriceData))
  | advance (worker : ℕ)
  | fail (worker : ℕ)
  | capture (input : CaptureInput)
  | write (call : ℕ)

namespace WorkerPhase

def advance (cfg : RescanConfig) (t : IntelTable) (now : ℤ) : WorkerPhase → Option (IntelTable × WorkerPhase)
  | .persisting _ [] => some (t, .retiring now)
  | .persisting start (((id, read), data) :: rows) => some (t.persist id read data start, .persisting start rows)
  | .retiring start => some (t.retire start, .listing)
  | .listing => some (t, .demoting t.ruggedCandidates)
  | .demoting ids => some (t.demote ids, if cfg.AUTO_PURGE then .purging now else .idle)
  | .purging start => some (t.purgeRetired cfg start, .purgingHotScan start)
  | .purgingHotScan start => some (t.purgeHotScan cfg start, .idle)
  | .idle => none
  | .pricing _ => none

/-- A transaction that fails is logged and the loop goes on; any other error ends the tick. -/
def fail : WorkerPhase → WorkerPhase
  | .persisting start (_ :: rows) => .persisting start rows
  | _ => .idle

end WorkerPhase

def IntelTable.lookUp (cfg : RescanConfig) (t : IntelTable) (input : CaptureInput) (now : ℤ) : CapturePhase :=
  match input.frozen cfg now with
  | none => .done
  | some c =>
    match t.findUnique c.chain c.address with
    | some id => .found id c.source
    | none => .missing c

/-- The row is stamped when it is inserted. -/
def CapturePhase.write (t : IntelTable) (now : ℤ) : CapturePhase → Option IntelTable
  | .found id source => some (t.reappear id source now)
  | .missing c => some (t.create { c with capturedAt := now })
  | .done => none

def trackRecord (cfg : RescanConfig) : StepSystem TrackState TrackEvent where
  step s
    | .wait ms => some { s with now := s.now + ms }
    | .boot => some { s with workers := s.workers ++ [.idle] }
    | .tick w order =>
      (s.workers[w]?).bind fun phase =>
        if phase = .idle ∧ order.Perm (s.table.snapshots.map Prod.fst) then
          some { s with workers := s.workers.set w (.pricing (batchRows cfg s.table.snapshots s.now order)) }
        else none
    | .prices w answers =>
      (s.workers[w]?).bind fun phase =>
        match phase with
        | .pricing rows => some { s with workers := s.workers.set w (.persisting s.now (rows.zip answers)) }
        | _ => none
    | .advance w =>
      (s.workers[w]?).bind fun phase =>
        (phase.advance cfg s.table s.now).map fun (table, next) => { s with table, workers := s.workers.set w next }
    | .fail w => (s.workers[w]?).map fun phase => { s with workers := s.workers.set w phase.fail }
    | .capture input => some { s with captures := s.captures ++ [s.table.lookUp cfg input s.now] }
    | .write i =>
      (s.captures[i]?).bind fun phase =>
        (phase.write s.table s.now).map fun table => { s with table, captures := s.captures.set i .done }

/-! ## Integrity -/

/-- What may become of a row. -/
structure RowIntact (row row' : IntelSnapshot) : Prop where
  capture : row'.capture = row.capture
  pumpedHigh : ∀ high, row.pumpedHigh = some high → ∃ high', row'.pumpedHigh = some high' ∧ high ≤ high'
  drawdownLow : ∀ low, row.drawdownLow = some low → ∃ low', row'.drawdownLow = some low' ∧ low' ≤ low
  graduated : row.status = .graduated → row'.status = .graduated

/-- Each snapshot of both tables is intact, and no trophy has been purged. -/
structure Intact (t t' : IntelTable) : Prop where
  rows : ∀ id row row', t.snapshots.get id = some row → t'.snapshots.get id = some row' → RowIntact row row'
  trophies : ∀ id row, t.snapshots.get id = some row → row.status = .graduated →
    (t'.snapshots.get id).isSome = true

/-- No rescan of a snapshot has a market cap above its `pumpedHigh`. -/
def Covered (t : IntelTable) : Prop :=
  ∀ r ∈ t.rescans, ∀ mcap, r.marketCapUsd = some mcap → ∀ row, t.snapshots.get r.snapshotId = some row →
    ∃ high, row.pumpedHigh = some high ∧ mcap ≤ high

/-- The extremes of the row are not beyond both those that were read and the market cap to be written. -/
def NotOvertaken (read : IntelSnapshot) (mcap : Option ℚ) (row : IntelSnapshot) : Prop :=
  (row.pumpedHigh.all fun high => read.pumpedHigh.any (fun h => decide (high ≤ h)) ||
    mcap.any fun m => decide (high ≤ m)) = true ∧
  (row.drawdownLow.all fun low => read.drawdownLow.any (fun l => decide (l ≤ low)) ||
    mcap.any fun m => decide (m ≤ low)) = true

instance (read : IntelSnapshot) (mcap : Option ℚ) (row : IntelSnapshot) : Decidable (NotOvertaken read mcap row) :=
  inferInstanceAs (Decidable (_ ∧ _))

/-- What a worker's next statement must find. -/
def Undisturbed (t : IntelTable) : WorkerPhase → Prop
  | .persisting _ (((id, read), data) :: _) =>
    (t.snapshots.get id).all (fun row => data.all fun d =>
      d.priceUsd.isNone || decide (NotOvertaken read d.marketCapUsd row)) = true
  | .demoting ids => ∀ id ∈ ids, (t.snapshots.get id).all (fun row => row.status != .graduated) = true
  | _ => True

instance (t : IntelTable) (phase : WorkerPhase) : Decidable (Undisturbed t phase) := by
  unfold Undisturbed
  split <;> infer_instance

/-- Since a worker has read, no commit has overtaken what it writes. -/
def NothingLost (s : TrackState) : TrackEvent → Prop
  | .advance w => ∀ phase ∈ s.workers[w]?, Undisturbed s.table phase
  | _ => True

instance (s : TrackState) (e : TrackEvent) : Decidable (NothingLost s e) := by
  unfold NothingLost
  cases e with
  | advance w =>
    dsimp only
    cases s.workers[w]? with
    | none => exact isTrue fun phase h => by cases h
    | some phase =>
      exact decidable_of_iff (Undisturbed s.table phase) ⟨fun h p hp => Option.some.inj hp ▸ h, fun h => h phase rfl⟩
  | _ => exact isTrue trivial

/-! ## Statements -/

theorem RowIntact.refl (row : IntelSnapshot) : RowIntact row row where
  capture := rfl
  pumpedHigh high h := ⟨high, h, le_refl high⟩
  drawdownLow low h := ⟨low, h, le_refl low⟩
  graduated h := h

theorem RowIntact.trans {a b c : IntelSnapshot} (h : RowIntact a b) (h' : RowIntact b c) : RowIntact a c where
  capture := h'.capture.trans h.capture
  pumpedHigh high hhigh := by
    obtain ⟨mid, hmid, hle⟩ := h.pumpedHigh high hhigh
    obtain ⟨high', hhigh', hle'⟩ := h'.pumpedHigh mid hmid
    exact ⟨high', hhigh', hle.trans hle'⟩
  drawdownLow low hlow := by
    obtain ⟨mid, hmid, hle⟩ := h.drawdownLow low hlow
    obtain ⟨low', hlow', hle'⟩ := h'.drawdownLow mid hmid
    exact ⟨low', hlow', hle'.trans hle⟩
  graduated hstatus := h'.graduated (h.graduated hstatus)

/-- The invariant of the tables. -/
structure TableInv (t : IntelTable) : Prop where
  keyed : t.Keyed
  fresh : ∀ id row, t.snapshots.get id = some row → id < t.nextId
  rescans : ∀ r ∈ t.rescans, r.snapshotId < t.nextId
  covered : Covered t

/-- The tables go on: ids that have been given are not given again. -/
structure Continues (t t' : IntelTable) : Prop where
  ids : t.nextId ≤ t'.nextId
  rows : ∀ id row', t'.snapshots.get id = some row' → id < t.nextId →
    ∃ row, t.snapshots.get id = some row ∧ RowIntact row row'
  trophies : ∀ id row, t.snapshots.get id = some row → row.status = .graduated →
    (t'.snapshots.get id).isSome = true

namespace Continues
variable {t t' t'' : IntelTable}

theorem refl (t : IntelTable) : Continues t t where
  ids := le_refl _
  rows _ row' h _ := ⟨row', h, RowIntact.refl row'⟩
  trophies _ row h _ := by rw [h]; rfl

theorem intact (h : Continues t t') (hinv : TableInv t) : Intact t t' where
  rows id row row' hrow hrow' := by
    obtain ⟨before, hbefore, hintact⟩ := h.rows id row' hrow' (hinv.fresh id row hrow)
    rw [hrow, Option.some.injEq] at hbefore
    rwa [hbefore]
  trophies := h.trophies

theorem trans (h : Continues t t') (h' : Continues t' t'') (hinv : TableInv t) : Continues t t'' where
  ids := h.ids.trans h'.ids
  rows id row'' hrow hid := by
    obtain ⟨row', hrow', hintact'⟩ := h'.rows id row'' hrow (hid.trans_le h.ids)
    obtain ⟨row, hrow, hintact⟩ := h.rows id row' hrow' hid
    exact ⟨row, hrow, hintact.trans hintact'⟩
  trophies id row hrow hstatus := by
    obtain ⟨row', hrow'⟩ := Option.isSome_iff_exists.mp (h.trophies id row hrow hstatus)
    have hintact := (h.intact hinv).rows id row row' hrow hrow'
    exact h'.trophies id row' hrow' (hintact.graduated hstatus)

end Continues

namespace TableInv
variable {t : IntelTable} {id : ℕ} {row : IntelSnapshot}

/-- A statement that changes rows one by one and keeps each of them intact. -/
theorem mapSnapshots (h : TableInv t) {f : ℕ → IntelSnapshot → IntelSnapshot}
    (hf : ∀ id row, t.snapshots.get id = some row → RowIntact row (f id row)) :
    TableInv (t.mapSnapshots f) ∧ Continues t (t.mapSnapshots f) := by
  have hrow {id : ℕ} {row' : IntelSnapshot} (hget : (t.mapSnapshots f).snapshots.get id = some row') :
      ∃ row, t.snapshots.get id = some row ∧ RowIntact row row' := by
    rw [IntelTable.get_mapSnapshots] at hget
    obtain ⟨row, hrow, rfl⟩ := Option.map_eq_some_iff.mp hget
    exact ⟨row, hrow, hf id row hrow⟩
  constructor
  · refine ⟨h.keyed.mapSnapshots f, fun id row' hget => ?_, h.rescans, fun r hr mcap hmcap row' hget => ?_⟩
    · obtain ⟨row, hbefore, -⟩ := hrow hget
      exact h.fresh id row hbefore
    · obtain ⟨row, hbefore, hintact⟩ := hrow hget
      obtain ⟨high, hhigh, hle⟩ := h.covered r hr mcap hmcap row hbefore
      obtain ⟨high', hhigh', hle'⟩ := hintact.pumpedHigh high hhigh
      exact ⟨high', hhigh', hle.trans hle'⟩
  · refine ⟨le_refl _, fun id row' hget _ => hrow hget, fun id row hget _ => ?_⟩
    rw [IntelTable.get_mapSnapshots, hget]
    rfl

/-- A deletion of snapshots that are no trophies. -/
theorem deleteMany (h : TableInv t) {p : IntelSnapshot → Bool} (hp : ∀ row, p row = true → row.status ≠ .graduated) :
    TableInv (t.deleteMany p) ∧ Continues t (t.deleteMany p) := by
  constructor
  · refine ⟨h.keyed.deleteMany p, fun id row hget => ?_, fun r hr => ?_, fun r hr mcap hmcap row hget => ?_⟩
    · exact h.fresh id row ((IntelTable.get_deleteMany h.keyed).mp hget).1
    · exact h.rescans r (List.mem_of_mem_filter hr)
    · exact h.covered r (List.mem_of_mem_filter hr) mcap hmcap row ((IntelTable.get_deleteMany h.keyed).mp hget).1
  · refine ⟨le_refl _, fun id row hget _ => ?_, fun id row hget hstatus => ?_⟩
    · exact ⟨row, ((IntelTable.get_deleteMany h.keyed).mp hget).1, RowIntact.refl row⟩
    · have hkept : p row = false := Bool.eq_false_iff.mpr fun hdeleted => hp row hdeleted hstatus
      rw [(IntelTable.get_deleteMany h.keyed).mpr ⟨hget, hkept⟩]
      rfl

theorem retire (h : TableInv t) (now : ℤ) : TableInv (t.retire now) ∧ Continues t (t.retire now) := by
  apply h.mapSnapshots
  intro id row _
  by_cases hunanswered : row.unanswered now = true
  · rw [if_pos hunanswered]
    refine ⟨rfl, fun high hhigh => ⟨high, hhigh, le_refl _⟩, fun low hlow => ⟨low, hlow, le_refl _⟩, fun hstatus => ?_⟩
    simp [IntelSnapshot.unanswered, hstatus] at hunanswered
  · rw [if_neg hunanswered]
    exact RowIntact.refl row

theorem demote (h : TableInv t) {ids : List ℕ}
    (hids : ∀ id ∈ ids, (t.snapshots.get id).all (fun row => row.status != .graduated) = true) :
    TableInv (t.demote ids) ∧ Continues t (t.demote ids) := by
  apply h.mapSnapshots
  intro id row hrow
  by_cases hin : id ∈ ids
  · rw [if_pos hin]
    refine ⟨rfl, fun high hhigh => ⟨high, hhigh, le_refl _⟩, fun low hlow => ⟨low, hlow, le_refl _⟩, fun hstatus => ?_⟩
    have hnot := hids id hin
    simp [hrow, hstatus] at hnot
  · rw [if_neg hin]
    exact RowIntact.refl row

theorem purgeRetired (h : TableInv t) (cfg : RescanConfig) (now : ℤ) :
    TableInv (t.purgeRetired cfg now) ∧ Continues t (t.purgeRetired cfg now) := by
  apply h.deleteMany
  intro row hdeleted hstatus
  simp [hstatus] at hdeleted

theorem purgeHotScan (h : TableInv t) (cfg : RescanConfig) (now : ℤ) :
    TableInv (t.purgeHotScan cfg now) ∧ Continues t (t.purgeHotScan cfg now) := by
  apply h.deleteMany
  intro row hdeleted hstatus
  simp [hstatus] at hdeleted

theorem reappear (h : TableInv t) (id : ℕ) (source : IntelSource) (now : ℤ) :
    TableInv (t.reappear id source now) ∧ Continues t (t.reappear id source now) := by
  apply h.mapSnapshots
  intro other row _
  by_cases hid : other = id
  · rw [if_pos hid]
    exact ⟨rfl, fun high hhigh => ⟨high, hhigh, le_refl _⟩, fun low hlow => ⟨low, hlow, le_refl _⟩, fun h => h⟩
  · rw [if_neg hid]
    exact RowIntact.refl row

theorem create (h : TableInv t) (c : Capture) : TableInv (t.create c) ∧ Continues t (t.create c) := by
  unfold IntelTable.create
  split
  · exact ⟨h, Continues.refl t⟩
  · have hget {id : ℕ} (hid : id ≠ t.nextId) :
        KeyValue.get (t.snapshots.set t.nextId c.seed) id = t.snapshots.get id := KeyValue.get_set_of_ne hid
    constructor
    · refine ⟨KeyValue.nodup_set h.keyed _ _, fun id row hrow => ?_, fun r hr => ?_, fun r hr mcap hmcap row hrow => ?_⟩
      · by_cases hid : id = t.nextId
        · dsimp only
          omega
        · have hold := h.fresh id row ((hget hid).symm.trans hrow)
          dsimp only
          omega
      · have hold := h.rescans r hr
        dsimp only
        omega
      · have hold := h.rescans r hr
        exact h.covered r hr mcap hmcap row ((hget (by omega)).symm.trans hrow)
    · refine ⟨Nat.le_succ _, fun id row hrow hid => ?_, fun id row hrow _ => ?_⟩
      · exact ⟨row, (hget (by omega)).symm.trans hrow, RowIntact.refl row⟩
      · have hold := h.fresh id row hrow
        rw [hget (by omega), hrow]
        rfl

end TableInv

/-! ## The transaction of a rescan -/

theorem newPumpedHigh_ge {read mcap : Option ℚ} {x : ℚ}
    (h : (∃ high, read = some high ∧ x ≤ high) ∨ ∃ m, mcap = some m ∧ x ≤ m) :
    ∃ high', newPumpedHigh read mcap = some high' ∧ x ≤ high' := by
  unfold newPumpedHigh
  by_cases hraises : raises read mcap = true
  · rw [if_pos hraises]
    obtain ⟨m, rfl, hlt⟩ := (Option.any_eq_true _ _).mp hraises
    refine ⟨m, rfl, ?_⟩
    obtain ⟨high, rfl, hle⟩ | ⟨m', hm, hle⟩ := h
    · exact hle.trans (of_decide_eq_true hlt).le
    · rwa [Option.some.inj hm]
  · rw [if_neg hraises]
    obtain hread | ⟨m, rfl, hle⟩ := h
    · exact hread
    · cases read with
      | none => exact absurd rfl hraises
      | some high =>
        have hnot : ¬ high < m := fun hlt => hraises (decide_eq_true hlt)
        exact ⟨high, rfl, hle.trans (not_lt.mp hnot)⟩

theorem newDrawdown_le {read mcap : Option ℚ} {x : ℚ}
    (h : (∃ low, read = some low ∧ low ≤ x) ∨ ∃ m, mcap = some m ∧ m ≤ x) :
    ∃ low', newDrawdown read mcap = some low' ∧ low' ≤ x := by
  unfold newDrawdown
  by_cases hlowers : lowers read mcap = true
  · rw [if_pos hlowers]
    obtain ⟨m, rfl, hlt⟩ := (Option.any_eq_true _ _).mp hlowers
    refine ⟨m, rfl, ?_⟩
    obtain ⟨low, rfl, hle⟩ | ⟨m', hm, hle⟩ := h
    · exact (of_decide_eq_true hlt).le.trans hle
    · rwa [Option.some.inj hm]
  · rw [if_neg hlowers]
    obtain hread | ⟨m, rfl, hle⟩ := h
    · exact hread
    · cases read with
      | none => exact absurd rfl hlowers
      | some low =>
        have hnot : ¬ m < low := fun hlt => hlowers (decide_eq_true hlt)
        exact ⟨low, rfl, (not_lt.mp hnot).trans hle⟩

theorem rescanUpdate_intact {read row : IntelSnapshot} {d : PriceData} (now : ℤ)
    (h : NotOvertaken read d.marketCapUsd row) : RowIntact row (rescanUpdate read d now row) where
  capture := rfl
  pumpedHigh high hhigh := by
    have hover := h.1
    simp only [hhigh, Option.all_some, Bool.or_eq_true, Option.any_eq_true, decide_eq_true_eq] at hover
    exact newPumpedHigh_ge hover
  drawdownLow low hlow := by
    have hover := h.2
    simp only [hlow, Option.all_some, Bool.or_eq_true, Option.any_eq_true, decide_eq_true_eq] at hover
    exact newDrawdown_le hover
  graduated hstatus := by
    unfold rescanUpdate
    dsimp only
    split
    · rfl
    · exact hstatus

theorem TableInv.persist {t : IntelTable} (h : TableInv t) {id : ℕ} {read : IntelSnapshot} {data : Option PriceData}
    (hfree : (t.snapshots.get id).all (fun row => data.all fun d =>
      d.priceUsd.isNone || decide (NotOvertaken read d.marketCapUsd row)) = true) (now : ℤ) :
    TableInv (t.persist id read data now) ∧ Continues t (t.persist id read data now) := by
  obtain heq | ⟨d, priceUsd, row, rfl, hprice, hrow⟩ := IntelTable.persist_cases t id read data now
  · rw [heq]
    exact ⟨h, Continues.refl t⟩
  have hover : NotOvertaken read d.marketCapUsd row := by simpa [hrow, hprice] using hfree
  have hintact := rescanUpdate_intact now hover
  have hkeyed := h.keyed.persist id read (some d) now
  rw [IntelTable.persist_of_get hprice hrow] at hkeyed ⊢
  have hget {other : ℕ} {row' : IntelSnapshot}
      (hother : KeyValue.get (t.snapshots.set id (rescanUpdate read d now row)) other = some row') :
      ∃ before, t.snapshots.get other = some before ∧ RowIntact before row' := by
    by_cases hid : other = id
    · rw [hid, KeyValue.get_set_self, Option.some.injEq] at hother
      rw [hid, ← hother]
      exact ⟨row, hrow, hintact⟩
    · rw [KeyValue.get_set_of_ne hid] at hother
      exact ⟨row', hother, RowIntact.refl row'⟩
  constructor
  · refine ⟨hkeyed, fun other row' hother => ?_, ?_, ?_⟩
    · obtain ⟨before, hbefore, -⟩ := hget hother
      exact h.fresh other before hbefore
    · exact List.forall_mem_append.mpr ⟨h.rescans, List.forall_mem_singleton.mpr (h.fresh id row hrow)⟩
    · refine List.forall_mem_append.mpr ⟨fun r hr mcap hmcap row' hrow' => ?_, List.forall_mem_singleton.mpr ?_⟩
      · obtain ⟨before, hbefore, hkept⟩ := hget hrow'
        obtain ⟨high, hhigh, hle⟩ := h.covered r hr mcap hmcap before hbefore
        obtain ⟨high', hhigh', hle'⟩ := hkept.pumpedHigh high hhigh
        exact ⟨high', hhigh', hle.trans hle'⟩
      · intro mcap hmcap row' hrow'
        dsimp only at hrow'
        rw [KeyValue.get_set_self, Option.some.injEq] at hrow'
        rw [← hrow']
        exact newPumpedHigh_ge (.inr ⟨mcap, hmcap, le_refl mcap⟩)
  · refine ⟨le_refl _, fun other row' hother _ => hget hother, fun other before hbefore _ => ?_⟩
    by_cases hid : other = id
    · dsimp only
      rw [hid, KeyValue.get_set_self]
      rfl
    · dsimp only
      rw [KeyValue.get_set_of_ne hid, hbefore]
      rfl

/-! ## Runs -/

section Runs
variable {cfg : RescanConfig} {s s' : TrackState}

theorem advance_intact {t t' : IntelTable} {phase next : WorkerPhase} {now : ℤ} (h : TableInv t)
    (hfree : Undisturbed t phase) (hadvance : phase.advance cfg t now = some (t', next)) :
    TableInv t' ∧ Continues t t' := by
  unfold WorkerPhase.advance at hadvance
  split at hadvance
  · obtain ⟨rfl, rfl⟩ := Prod.mk.inj (Option.some.inj hadvance)
    exact ⟨h, Continues.refl t⟩
  · obtain ⟨rfl, rfl⟩ := Prod.mk.inj (Option.some.inj hadvance)
    exact h.persist hfree _
  · obtain ⟨rfl, rfl⟩ := Prod.mk.inj (Option.some.inj hadvance)
    exact h.retire _
  · obtain ⟨rfl, rfl⟩ := Prod.mk.inj (Option.some.inj hadvance)
    exact ⟨h, Continues.refl t⟩
  · obtain ⟨rfl, rfl⟩ := Prod.mk.inj (Option.some.inj hadvance)
    exact h.demote hfree
  · obtain ⟨rfl, rfl⟩ := Prod.mk.inj (Option.some.inj hadvance)
    exact h.purgeRetired cfg _
  · obtain ⟨rfl, rfl⟩ := Prod.mk.inj (Option.some.inj hadvance)
    exact h.purgeHotScan cfg _
  · cases hadvance
  · cases hadvance

theorem step_intact {e : TrackEvent} (h : TableInv s.table) (hfree : NothingLost s e)
    (hstep : (trackRecord cfg).step s e = some s') : TableInv s'.table ∧ Continues s.table s'.table := by
  cases e with
  | wait ms =>
    obtain rfl := Option.some.inj hstep
    exact ⟨h, Continues.refl _⟩
  | boot =>
    obtain rfl := Option.some.inj hstep
    exact ⟨h, Continues.refl _⟩
  | tick w order =>
    obtain ⟨phase, -, hstep⟩ := Option.bind_eq_some_iff.mp hstep
    obtain ⟨-, heq⟩ := Option.ite_none_right_eq_some.mp hstep
    obtain rfl := Option.some.inj heq
    exact ⟨h, Continues.refl _⟩
  | prices w answers =>
    obtain ⟨phase, -, hstep⟩ := Option.bind_eq_some_iff.mp hstep
    split at hstep
    · obtain rfl := Option.some.inj hstep
      exact ⟨h, Continues.refl _⟩
    · cases hstep
  | advance w =>
    obtain ⟨phase, hphase, hstep⟩ := Option.bind_eq_some_iff.mp hstep
    obtain ⟨⟨table, next⟩, hadvance, rfl⟩ := Option.map_eq_some_iff.mp hstep
    exact advance_intact h (hfree phase hphase) hadvance
  | fail w =>
    obtain ⟨phase, -, rfl⟩ := Option.map_eq_some_iff.mp hstep
    exact ⟨h, Continues.refl _⟩
  | capture input =>
    obtain rfl := Option.some.inj hstep
    exact ⟨h, Continues.refl _⟩
  | write i =>
    obtain ⟨phase, -, hstep⟩ := Option.bind_eq_some_iff.mp hstep
    obtain ⟨table, hwrite, rfl⟩ := Option.map_eq_some_iff.mp hstep
    cases phase with
    | found id source =>
      obtain rfl := Option.some.inj hwrite
      exact h.reappear id source _
    | missing c =>
      obtain rfl := Option.some.inj hwrite
      exact h.create _
    | done => cases hwrite

theorem run_intact {es : List TrackEvent} (h : TableInv s.table)
    (hrun : (trackRecord cfg).GuardedRun NothingLost s es s') : TableInv s'.table ∧ Continues s.table s'.table := by
  apply hrun.invariant (I := fun u => TableInv u.table ∧ Continues s.table u.table)
  · intro u e u' hu hfree hstep
    obtain ⟨hinv, hnext⟩ := step_intact hu.1 hfree hstep
    exact ⟨hinv, hu.2.trans hnext h⟩
  · exact ⟨h, Continues.refl _⟩

/-- **Track record.** In a run in which nothing that a worker writes has been overtaken, what a state records stays
intact in every later one, and no rescan has a market cap above the `pumpedHigh` of its snapshot. -/
theorem intact_runs {es : List TrackEvent} (hrun : (trackRecord cfg).GuardedRun NothingLost {} es s) :
    Covered s.table ∧ ∀ pre post u, es = pre ++ post → (trackRecord cfg).run {} pre = some u → Intact u.table s.table := by
  have hempty : TableInv {} := by
    refine ⟨List.nodup_nil, fun _ _ h => ?_, fun _ h => ?_, fun _ h => ?_⟩ <;> cases h
  refine ⟨(run_intact hempty hrun).1.covered, ?_⟩
  rintro pre post u rfl hpre
  obtain ⟨u', hfirst, hsecond⟩ := hrun.split
  obtain rfl := Option.some.inj (hpre.symm.trans hfirst.run)
  have hinv := (run_intact hempty hfirst).1
  exact (run_intact hinv hsecond).2.intact hinv

end Runs

/-! ## Two runs -/

def snipe : CaptureInput where
  address := "mint"
  source := .snipe
  report := { priceUsd := some 1, marketCapUsd := some 40000 }

def priced (marketCapUsd : ℚ) : Option PriceData :=
  some { priceUsd := some 1, marketCapUsd := some marketCapUsd, liquidityUsd := some 500 }

/-- Two processes, and a capture. -/
def captured : List TrackEvent := [.boot, .boot, .capture snipe, .write 0]

/-- One worker after the other; the first rescan makes the snapshot a trophy. -/
def inTurn : List TrackEvent :=
  captured ++ [.tick 0 [0], .prices 0 [priced 400000], .advance 0, .advance 0, .advance 0, .advance 0, .advance 0,
    .advance 0, .advance 0, .wait 700000, .capture snipe, .write 1, .tick 1 [0], .prices 1 [priced 30000], .advance 1]

theorem inTurn_intact : ∃ s, (trackRecord {}).run {} inTurn = some s ∧ Covered s.table ∧
    ∀ pre post u, inTurn = pre ++ post → (trackRecord {}).run {} pre = some u → Intact u.table s.table := by
  have hsome : ((trackRecord {}).guardedRun NothingLost {} inTurn).isSome = true := by decide +kernel
  obtain ⟨s, hs⟩ := Option.isSome_iff_exists.mp hsome
  have hrun := StepSystem.GuardedRun.of_guardedRun hs
  obtain ⟨hcovered, hintact⟩ := intact_runs hrun
  exact ⟨s, hrun.run, hcovered, hintact⟩

/-- Both workers have read the snapshot when the first writes it. -/
def bothRead : List TrackEvent :=
  captured ++ [.tick 0 [0], .tick 1 [0], .prices 0 [priced 100000], .prices 1 [priced 60000], .advance 0]

/-- The second transaction takes `pumpedHigh` from 100000 to 60000. -/
theorem bothRead_lowers : ¬ ∀ (cfg : RescanConfig) (es : List TrackEvent) (s : TrackState),
    (trackRecord cfg).run {} es = some s → Covered s.table ∧
      ∀ pre post u, es = pre ++ post → (trackRecord cfg).run {} pre = some u → Intact u.table s.table := by
  intro h
  have hany : ((trackRecord {}).run {} bothRead).any (fun u : TrackState =>
      ((trackRecord {}).run {} (bothRead ++ [.advance 1])).any fun s : TrackState =>
        (u.table.snapshots.get 0).any fun row => (s.table.snapshots.get 0).any fun row' =>
          decide (row.pumpedHigh = some 100000 ∧ row'.pumpedHigh = some 60000)) = true := by decide +kernel
  obtain ⟨u, hu, hany⟩ := (Option.any_eq_true _ _).mp hany
  obtain ⟨s, hs, hany⟩ := (Option.any_eq_true _ _).mp hany
  obtain ⟨row, hrow, hany⟩ := (Option.any_eq_true _ _).mp hany
  obtain ⟨row', hrow', hhighs⟩ := (Option.any_eq_true _ _).mp hany
  obtain ⟨hbefore, hafter⟩ := of_decide_eq_true hhighs
  have hintact := ((h {} _ s hs).2 bothRead [.advance 1] u rfl hu).rows 0 row row' hrow hrow'
  obtain ⟨high, hhigh, hle⟩ := hintact.pumpedHigh 100000 hbefore
  rw [hafter, Option.some.injEq] at hhigh
  rw [← hhigh] at hle
  exact absurd hle (by norm_num)

end SuperAi.IntelTrack
