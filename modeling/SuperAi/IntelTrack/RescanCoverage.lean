import SuperAi.Foundations.OldestFirst
import SuperAi.Foundations.StepSystem
import SuperAi.IntelTrack.IntelSnapshotService
import Mathlib.Algebra.Order.Floor.Div

/-! # Rescans of every snapshot

One worker whose ticks nothing comes between. A snapshot's turn comes by its last priced rescan; one that has had none
comes after all others and is never retired. In a window of ticks a snapshot that has been rescanned before is part
of a batch if no more answers have no price than there is room for beside the snapshots (`rescans_cover`).
-/
namespace SuperAi.IntelTrack
open SuperAi.Foundations
set_option autoImplicit false

/-! ## Ticks -/

/-- `pause` is the time since the last step, `order` that of the table, `took` the time of the price requests and
`answers` what they give for the rows of the batch. -/
structure RescanTick where
  pause : ℕ
  order : List ℕ
  took : ℕ
  answers : List (Option PriceData)

structure RescanState where
  now : ℤ := 0
  table : IntelTable := {}

inductive RescanEvent
  | wait (ms : ℕ)
  | capture (input : CaptureInput)
  | tick (tick : RescanTick)

def IntelTable.persistAll (now : ℤ) (t : IntelTable) : List ((ℕ × IntelSnapshot) × Option PriceData) → IntelTable
  | [] => t
  | ((id, read), data) :: rows => persistAll now (t.persist id read data now) rows

def runStatusCuration (t : IntelTable) (now : ℤ) : IntelTable := (t.retire now).demote (t.retire now).ruggedCandidates

def runPurge (cfg : RescanConfig) (t : IntelTable) (now : ℤ) : IntelTable :=
  if cfg.AUTO_PURGE then (t.purgeRetired cfg now).purgeHotScan cfg now else t

namespace RescanState

def batch (cfg : RescanConfig) (s : RescanState) (tick : RescanTick) : List ℕ :=
  batchIds cfg s.table.snapshots (s.now + tick.pause) tick.order

/-- The rows of the batch as they are read, each with its answer. -/
def readings (cfg : RescanConfig) (s : RescanState) (tick : RescanTick) :
    List ((ℕ × IntelSnapshot) × Option PriceData) :=
  (batchRows cfg s.table.snapshots (s.now + tick.pause) tick.order).zip tick.answers

def written (s : RescanState) (tick : RescanTick) : ℤ := s.now + tick.pause + tick.took

def rescanBatch (cfg : RescanConfig) (s : RescanState) (tick : RescanTick) : IntelTable :=
  s.table.persistAll (s.written tick) (s.readings cfg tick)

def tick (cfg : RescanConfig) (s : RescanState) (tick : RescanTick) : RescanState where
  now := s.written tick
  table := runPurge cfg (runStatusCuration (s.rescanBatch cfg tick) (s.written tick)) (s.written tick)

/-- The table is read in some order, and the answers are those of one price map by address. -/
def Answers (cfg : RescanConfig) (s : RescanState) (tick : RescanTick) : Prop :=
  tick.order.Perm (s.table.snapshots.map Prod.fst) ∧ tick.answers.length = (s.batch cfg tick).length ∧
    ∀ a ∈ s.readings cfg tick, ∀ b ∈ s.readings cfg tick,
      a.1.2.capture.address = b.1.2.capture.address → a.2 = b.2

instance (cfg : RescanConfig) (s : RescanState) (tick : RescanTick) : Decidable (s.Answers cfg tick) :=
  inferInstanceAs (Decidable (_ ∧ _ ∧ _))

end RescanState

def rescanWorker (cfg : RescanConfig) : StepSystem RescanState RescanEvent where
  step s
    | .wait ms => some { s with now := s.now + ms }
    | .capture input => some { s with table := s.table.capture cfg input s.now }
    | .tick tick => if s.Answers cfg tick then some (s.tick cfg tick) else none

/-- The snapshots that are active or graduated. -/
def rescannedIds (t : IntelTable) : List ℕ := (t.snapshots.filter fun entry => entry.2.rescanned).map Prod.fst

/-- How many answers of the tick have no price. -/
def RescanTick.unpriced (tick : RescanTick) : ℕ := tick.answers.countP fun data => !isPriced data

/-! ## One tick -/

namespace IntelTable
variable {t : IntelTable} {id : ℕ} {row : IntelSnapshot} {now : ℤ}
  {rows : List ((ℕ × IntelSnapshot) × Option PriceData)}

theorem persistAll_unpriced (h : ∀ r ∈ rows, r.1.1 = id → isPriced r.2 = false) :
    (t.persistAll now rows).snapshots.get id = t.snapshots.get id := by
  induction rows generalizing t with
  | nil => rfl
  | cons r rows ih =>
    obtain ⟨⟨other, read⟩, data⟩ := r
    obtain ⟨hfirst, hrest⟩ := List.forall_mem_cons.mp h
    unfold persistAll
    rw [ih hrest]
    by_cases hid : other = id
    · rw [persist_of_unpriced (hfirst hid)]
    · exact get_persist_of_ne (Ne.symm hid)

/-- A row that is written carries the time of this tick. -/
theorem persistAll_priced (hrow : t.snapshots.get id = some row)
    (h : row.lastRescannedAt = some now ∨ ∃ r ∈ rows, r.1.1 = id ∧ isPriced r.2 = true) :
    ∃ row', (t.persistAll now rows).snapshots.get id = some row' ∧ row'.lastRescannedAt = some now := by
  induction rows generalizing t row with
  | nil => exact ⟨row, hrow, h.resolve_right (by simp)⟩
  | cons r rows ih =>
    obtain ⟨⟨other, read⟩, data⟩ := r
    unfold persistAll
    by_cases hwritten : other = id ∧ isPriced data = true
    · obtain ⟨rfl, hpriced⟩ := hwritten
      obtain ⟨d, rfl⟩ : ∃ d, data = some d := by
        cases data with
        | none => cases hpriced
        | some d => exact ⟨d, rfl⟩
      obtain ⟨priceUsd, hprice⟩ := Option.isSome_iff_exists.mp hpriced
      have hnext : (t.persist other read (some d) now).snapshots.get other = some (rescanUpdate read d now row) := by
        rw [persist_of_get hprice hrow]
        exact KeyValue.get_set_self _ _ _
      exact ih hnext (.inl rfl)
    · have hsame : (t.persist other read data now).snapshots.get id = some row := by
        by_cases hid : other = id
        · rw [persist_of_unpriced (Bool.eq_false_iff.mpr fun hpriced => hwritten ⟨hid, hpriced⟩)]
          exact hrow
        · rw [get_persist_of_ne (Ne.symm hid)]
          exact hrow
      apply ih hsame
      obtain hdone | ⟨r, hmem, hid, hpriced⟩ := h
      · exact .inl hdone
      · obtain rfl | hrest := List.mem_cons.mp hmem
        · exact absurd ⟨hid, hpriced⟩ hwritten
        · exact .inr ⟨r, hrest, hid, hpriced⟩

theorem persistAll_cases {row' : IntelSnapshot} (h : (t.persistAll now rows).snapshots.get id = some row') :
    ∃ row, t.snapshots.get id = some row ∧
      (row'.lastRescannedAt = row.lastRescannedAt ∨ row'.lastRescannedAt = some now) := by
  cases hrow : t.snapshots.get id with
  | none =>
    exfalso
    induction rows generalizing t with
    | nil => simp [persistAll, hrow] at h
    | cons r rows ih =>
      apply ih h
      obtain ⟨⟨other, read⟩, data⟩ := r
      by_cases hid : id = other
      · rw [← hid, persist_of_gone hrow]
        exact hrow
      · rw [get_persist_of_ne hid]
        exact hrow
  | some row =>
    refine ⟨row, rfl, ?_⟩
    by_cases hserved : ∃ r ∈ rows, r.1.1 = id ∧ isPriced r.2 = true
    · obtain ⟨after, hafter, hlast⟩ : ∃ row', (t.persistAll now rows).snapshots.get id = some row' ∧
          row'.lastRescannedAt = some now := persistAll_priced hrow (.inr hserved)
      rw [h, Option.some.injEq] at hafter
      rw [hafter]
      exact .inr hlast
    · have hsame : (t.persistAll now rows).snapshots.get id = t.snapshots.get id :=
        persistAll_unpriced fun r hr hid => Bool.eq_false_iff.mpr fun hpriced => hserved ⟨r, hr, hid, hpriced⟩
      rw [h, hrow, Option.some.injEq] at hsame
      rw [hsame]
      exact .inl rfl

theorem Keyed.persistAll (h : t.Keyed) (now : ℤ) (rows : List ((ℕ × IntelSnapshot) × Option PriceData)) :
    (t.persistAll now rows).Keyed := by
  induction rows generalizing t with
  | nil => exact h
  | cons r rows ih => exact ih (h.persist r.1.1 r.1.2 r.2 now)

end IntelTable

section Curation
variable {cfg : RescanConfig} {t : IntelTable} {id : ℕ} {row row' : IntelSnapshot} {now : ℤ}

/-- What a demotion leaves of a row. -/
structure Demoted (row row' : IntelSnapshot) : Prop where
  lastRescannedAt : row'.lastRescannedAt = row.lastRescannedAt
  status : row'.status = row.status ∨ row'.status = .retired ∨ row'.status = .rugged

theorem Demoted.rescanned (h : Demoted row row') (hrow : row'.rescanned = true) : row.rescanned = true := by
  unfold IntelSnapshot.rescanned at hrow ⊢
  obtain heq | heq | heq := h.status
  · rwa [heq] at hrow
  · rw [heq] at hrow
    cases hrow
  · rw [heq] at hrow
    cases hrow

theorem retire_demoted (h : (t.retire now).snapshots.get id = some row') :
    ∃ row, t.snapshots.get id = some row ∧ Demoted row row' := by
  rw [IntelTable.retire, IntelTable.get_mapSnapshots] at h
  obtain ⟨row, hrow, rfl⟩ := Option.map_eq_some_iff.mp h
  refine ⟨row, hrow, ?_⟩
  split
  · exact ⟨rfl, .inr (.inl rfl)⟩
  · exact ⟨rfl, .inl rfl⟩

theorem demote_demoted {ids : List ℕ} (h : (t.demote ids).snapshots.get id = some row') :
    ∃ row, t.snapshots.get id = some row ∧ row'.lastRescannedAt = row.lastRescannedAt ∧
      row'.status = if id ∈ ids then .rugged else row.status := by
  rw [IntelTable.demote, IntelTable.get_mapSnapshots] at h
  obtain ⟨row, hrow, rfl⟩ := Option.map_eq_some_iff.mp h
  refine ⟨row, hrow, ?_, ?_⟩
  · split <;> rfl
  · split <;> rfl

theorem runStatusCuration_demoted (h : (runStatusCuration t now).snapshots.get id = some row') :
    ∃ row, t.snapshots.get id = some row ∧ Demoted row row' := by
  obtain ⟨mid, hmid, hlast, hstatus⟩ := demote_demoted h
  obtain ⟨row, hrow, hdemoted⟩ := retire_demoted hmid
  refine ⟨row, hrow, hlast.trans hdemoted.lastRescannedAt, ?_⟩
  by_cases hin : id ∈ (t.retire now).ruggedCandidates
  · rw [if_pos hin] at hstatus
    exact .inr (.inr hstatus)
  · rw [if_neg hin] at hstatus
    rw [hstatus]
    exact hdemoted.status

theorem runStatusCuration_keyed (h : t.Keyed) : (runStatusCuration t now).Keyed :=
  (h.mapSnapshots _).mapSnapshots _

theorem runPurge_keyed (h : t.Keyed) : (runPurge cfg t now).Keyed := by
  unfold runPurge
  split
  · exact (h.deleteMany _).deleteMany _
  · exact h

theorem get_of_runPurge (h : t.Keyed) (hrow : (runPurge cfg t now).snapshots.get id = some row) :
    t.snapshots.get id = some row := by
  unfold runPurge at hrow
  split at hrow
  · exact ((IntelTable.get_deleteMany h).mp ((IntelTable.get_deleteMany (h.deleteMany _)).mp hrow).1).1
  · exact hrow

/-- An active row is retired exactly when it was rescanned once and not for 72 hours. -/
theorem runStatusCuration_retired (hkeyed : t.Keyed) (hrow : t.snapshots.get id = some row) (hactive : row.status = .active)
    (h : (runStatusCuration t now).snapshots.get id = some row') :
    row'.status = .retired ↔ row.unanswered now = true := by
  obtain ⟨mid, hmid, -, hstatus⟩ := demote_demoted h
  have hretire : mid = if row.unanswered now then { row with status := .retired } else row := by
    rw [IntelTable.retire, IntelTable.get_mapSnapshots, hrow, Option.map_some, Option.some.injEq] at hmid
    exact hmid.symm
  have hcandidate : id ∈ (t.retire now).ruggedCandidates → mid.status = .active := by
    intro hin
    obtain ⟨entry, hentry, rfl⟩ := List.mem_map.mp hin
    obtain ⟨hmem, hrugged⟩ := List.mem_filter.mp hentry
    have hkeys : (t.retire now).Keyed := hkeyed.mapSnapshots _
    have hentry' : (t.retire now).snapshots.get entry.1 = some entry.2 := (KeyValue.get_eq_some_iff hkeys).mpr hmem
    rw [hmid] at hentry'
    rw [Option.some.inj hentry']
    simp only [Bool.and_eq_true, beq_iff_eq] at hrugged
    exact hrugged.1
  by_cases hunanswered : row.unanswered now = true
  · rw [if_pos hunanswered] at hretire
    have hout : id ∉ (t.retire now).ruggedCandidates := by
      intro hin
      have hmidActive := hcandidate hin
      rw [hretire] at hmidActive
      cases hmidActive
    rw [hstatus, if_neg hout, hretire]
    simp [hunanswered]
  · rw [if_neg hunanswered] at hretire
    have hne : row'.status ≠ .retired := by
      rw [hstatus, hretire, hactive]
      split <;> simp
    simp [hne, hunanswered]

end Curation

section Tick
variable {cfg : RescanConfig} {s s' t : RescanState} {tick : RescanTick} {id : ℕ} {row row' : IntelSnapshot}

/-- The snapshots that get a price. -/
def RescanState.served (cfg : RescanConfig) (s : RescanState) (tick : RescanTick) : List ℕ :=
  Foundations.served (s.batch cfg tick) tick.answers isPriced

theorem mem_batch (h : id ∈ s.batch cfg tick) :
    ∃ row, s.table.snapshots.get id = some row ∧ row.isStale cfg (s.now + tick.pause) = true := by
  have hstale := (List.mem_insertionSort _).mp (List.mem_of_mem_take h)
  exact (Option.any_eq_true _ _).mp (List.mem_filter.mp hstale).2

/-- The rows that are read are those of the batch. -/
theorem map_readings : (s.readings cfg tick).map (fun r => (r.1.1, r.2)) = (s.batch cfg tick).zip tick.answers := by
  have hrows (ids : List ℕ) (hids : ∀ id ∈ ids, (s.table.snapshots.get id).isSome = true) :
      (ids.filterMap fun id => (s.table.snapshots.get id).map (id, ·)).map Prod.fst = ids := by
    induction ids with
    | nil => rfl
    | cons id ids ih =>
      obtain ⟨hfirst, hrest⟩ := List.forall_mem_cons.mp hids
      obtain ⟨row, hrow⟩ := Option.isSome_iff_exists.mp hfirst
      simp [hrow, ih hrest]
  have hbatch : (batchRows cfg s.table.snapshots (s.now + tick.pause) tick.order).map Prod.fst = s.batch cfg tick := by
    apply hrows
    intro id hid
    obtain ⟨row, hrow, -⟩ := mem_batch hid
    rw [hrow]
    rfl
  rw [← hbatch, List.zip_map_left]
  rfl

theorem mem_served_iff : id ∈ s.served cfg tick ↔ ∃ r ∈ s.readings cfg tick, r.1.1 = id ∧ isPriced r.2 = true := by
  rw [RescanState.served, mem_served, ← map_readings]
  constructor
  · rintro ⟨data, hmem, hpriced⟩
    obtain ⟨r, hr, heq⟩ := List.mem_map.mp hmem
    obtain ⟨rfl, rfl⟩ := Prod.mk.inj heq
    exact ⟨r, hr, rfl, hpriced⟩
  · rintro ⟨r, hr, rfl, hpriced⟩
    exact ⟨r.2, List.mem_map_of_mem hr, hpriced⟩

theorem mem_rescannedIds (h : s.table.Keyed) :
    id ∈ rescannedIds s.table ↔ ∃ row, s.table.snapshots.get id = some row ∧ row.rescanned = true := by
  unfold rescannedIds
  constructor
  · intro hid
    obtain ⟨entry, hentry, rfl⟩ := List.mem_map.mp hid
    obtain ⟨hmem, hrescanned⟩ := List.mem_filter.mp hentry
    exact ⟨entry.2, (KeyValue.get_eq_some_iff h).mpr hmem, hrescanned⟩
  · rintro ⟨row, hrow, hrescanned⟩
    exact List.mem_map.mpr ⟨(id, row), List.mem_filter.mpr ⟨KeyValue.mem_of_get hrow, hrescanned⟩, rfl⟩

structure RescanInv (s : RescanState) : Prop where
  keyed : s.table.Keyed
  past : ∀ id row time, s.table.snapshots.get id = some row → row.lastRescannedAt = some time → time ≤ s.now

/-- A row after a tick comes from one that the rescans of the tick left. -/
theorem tick_row (h : s.table.Keyed) (hrow : (s.tick cfg tick).table.snapshots.get id = some row') :
    ∃ row, (s.rescanBatch cfg tick).snapshots.get id = some row ∧ Demoted row row' :=
  runStatusCuration_demoted (get_of_runPurge (runStatusCuration_keyed (h.persistAll _ _)) hrow)

theorem rescanBatch_unserved (hout : id ∉ s.served cfg tick) :
    (s.rescanBatch cfg tick).snapshots.get id = s.table.snapshots.get id := by
  apply IntelTable.persistAll_unpriced
  intro r hr hid
  rw [Bool.eq_false_iff]
  exact fun hpriced => hout (mem_served_iff.mpr ⟨r, hr, hid, hpriced⟩)

theorem rescanBatch_served (hin : id ∈ s.served cfg tick) (hrow : s.table.snapshots.get id = some row) :
    ∃ row', (s.rescanBatch cfg tick).snapshots.get id = some row' ∧
      row'.lastRescannedAt = some (s.written tick) :=
  IntelTable.persistAll_priced hrow (.inr (mem_served_iff.mp hin))

namespace RescanInv

theorem ticked (h : RescanInv s) (tick : RescanTick) : RescanInv (s.tick cfg tick) where
  keyed := runPurge_keyed (runStatusCuration_keyed (h.keyed.persistAll _ _))
  past id row' time hrow hlast := by
    obtain ⟨mid, hmid, hdemoted⟩ := tick_row h.keyed hrow
    obtain ⟨row, hbefore, hold | hnew⟩ := IntelTable.persistAll_cases hmid
    · have hpast := h.past id row time hbefore (by rw [← hold, ← hdemoted.lastRescannedAt, hlast])
      change time ≤ s.now + tick.pause + tick.took
      omega
    · rw [hdemoted.lastRescannedAt, hnew] at hlast
      exact (Option.some.inj hlast).ge

theorem captured (h : RescanInv s) (input : CaptureInput) :
    RescanInv { s with table := s.table.capture cfg input s.now } := by
  unfold IntelTable.capture
  split
  · exact h
  · rename_i c hfrozen
    split
    · rename_i known hfound
      refine ⟨h.keyed.mapSnapshots _, fun id row time hrow hlast => ?_⟩
      rw [IntelTable.reappear, IntelTable.get_mapSnapshots] at hrow
      obtain ⟨before, hbefore, rfl⟩ := Option.map_eq_some_iff.mp hrow
      apply h.past id before time hbefore
      split at hlast <;> exact hlast
    · unfold IntelTable.create
      split
      · exact h
      · refine ⟨KeyValue.nodup_set h.keyed _ _, fun id row time hrow hlast => ?_⟩
        dsimp only at hrow
        by_cases hid : id = s.table.nextId
        · rw [hid, KeyValue.get_set_self, Option.some.injEq] at hrow
          rw [← hrow] at hlast
          cases hlast
        · rw [KeyValue.get_set_of_ne hid] at hrow
          exact h.past id row time hrow hlast

theorem step {e : RescanEvent} (h : RescanInv s) (hstep : (rescanWorker cfg).step s e = some s') : RescanInv s' := by
  cases e with
  | wait ms =>
    obtain rfl := Option.some.inj hstep
    refine ⟨h.keyed, fun id row time hrow hlast => ?_⟩
    have hpast := h.past id row time hrow hlast
    dsimp only
    omega
  | capture input =>
    obtain rfl := Option.some.inj hstep
    exact h.captured input
  | tick tick =>
    obtain ⟨-, heq⟩ := Option.ite_none_right_eq_some.mp hstep
    obtain rfl := Option.some.inj heq
    exact h.ticked tick

end RescanInv
/-! ## A window -/

theorem lastRescan_sorted (snapshots : KeyValue ℕ IntelSnapshot) (ids : List ℕ) :
    (ids.insertionSort fun a b => lastRescan snapshots a ≤ lastRescan snapshots b).Pairwise fun a b =>
      lastRescan snapshots a ≤ lastRescan snapshots b := by
  have htotal : Std.Total fun a b => lastRescan snapshots a ≤ lastRescan snapshots b := ⟨fun a b => le_total _ _⟩
  have htrans : IsTrans ℕ fun a b => lastRescan snapshots a ≤ lastRescan snapshots b := ⟨fun _ _ _ => le_trans⟩
  exact List.pairwise_insertionSort _ ids

theorem lastRescan_of_get {snapshots : KeyValue ℕ IntelSnapshot} (h : snapshots.get id = some row) :
    lastRescan snapshots id = row.lastRescannedAt.elim ⊤ fun time => (time : WithTop ℤ) := by
  rw [lastRescan, h]
  rfl

/-- When the ticks are more than the interval apart, every active or graduated snapshot is due. -/
theorem staleIds_toFinset (h : RescanInv s) (horder : tick.order.Perm (s.table.snapshots.map Prod.fst))
    (hspaced : cfg.RESCAN_INTERVAL_SEC * 1000 < tick.pause) :
    (staleIds cfg s.table.snapshots (s.now + tick.pause) tick.order).toFinset = (rescannedIds s.table).toFinset := by
  ext id
  rw [List.mem_toFinset, List.mem_toFinset, mem_rescannedIds h.keyed, staleIds, List.mem_filter, Option.any_eq_true]
  constructor
  · rintro ⟨-, row, hrow, hstale⟩
    exact ⟨row, hrow, (Bool.and_eq_true_iff.mp hstale).1⟩
  · rintro ⟨row, hrow, hrescanned⟩
    have hid : id ∈ s.table.snapshots.map Prod.fst := List.mem_map.mpr ⟨_, KeyValue.mem_of_get hrow, rfl⟩
    refine ⟨horder.symm.subset hid, row, hrow, Bool.and_eq_true_iff.mpr ⟨hrescanned, ?_⟩⟩
    rw [Option.all_eq_true]
    intro time htime
    have hpast := h.past id row time hrow htime
    exact decide_eq_true (by omega)

theorem batch_oldestFirst (h : RescanInv s) (horder : tick.order.Perm (s.table.snapshots.map Prod.fst))
    (hspaced : cfg.RESCAN_INTERVAL_SEC * 1000 < tick.pause) :
    OldestFirst (lastRescan s.table.snapshots) cfg.RESCAN_BATCH_SIZE (rescannedIds s.table).toFinset
      (s.batch cfg tick).toFinset := by
  rw [← staleIds_toFinset h horder hspaced]
  have hnodup : (staleIds cfg s.table.snapshots (s.now + tick.pause) tick.order).Nodup :=
    (horder.symm.nodup h.keyed).filter _
  exact OldestFirst.of_sorted hnodup (List.perm_insertionSort _ _) (lastRescan_sorted _ _)

theorem batch_nodup (h : RescanInv s) (horder : tick.order.Perm (s.table.snapshots.map Prod.fst)) :
    (s.batch cfg tick).Nodup := by
  have hnodup : (staleIds cfg s.table.snapshots (s.now + tick.pause) tick.order).Nodup :=
    (horder.symm.nodup h.keyed).filter _
  exact ((List.perm_insertionSort _ _).symm.nodup hnodup).sublist (List.take_sublist _ _)

/-- No snapshot becomes active or graduated by a tick. -/
theorem rescannedIds_subset (h : RescanInv s) :
    (rescannedIds (s.tick cfg tick).table).toFinset ⊆ (rescannedIds s.table).toFinset := by
  intro id hid
  rw [List.mem_toFinset, mem_rescannedIds (h.ticked tick).keyed] at hid
  obtain ⟨row', hrow', hrescanned⟩ := hid
  obtain ⟨mid, hmid, hdemoted⟩ := tick_row h.keyed hrow'
  rw [List.mem_toFinset, mem_rescannedIds h.keyed]
  by_cases hserved : id ∈ s.served cfg tick
  · obtain ⟨data, hpair, -⟩ := mem_served.mp hserved
    obtain ⟨row, hrow, hstale⟩ := mem_batch (List.of_mem_zip hpair).1
    exact ⟨row, hrow, (Bool.and_eq_true_iff.mp hstale).1⟩
  · rw [rescanBatch_unserved hserved] at hmid
    exact ⟨mid, hmid, hdemoted.rescanned hrescanned⟩

/-- A row that is left out of the prices of a tick keeps its time, one with a price gets the time of the tick. -/
theorem lastRescan_tick (h : RescanInv s) (hid : id ∈ rescannedIds (s.tick cfg tick).table) :
    lastRescan (s.tick cfg tick).table.snapshots id =
      if id ∈ s.served cfg tick then ((s.written tick : ℤ) : WithTop ℤ) else lastRescan s.table.snapshots id := by
  obtain ⟨row', hrow', -⟩ := (mem_rescannedIds (h.ticked tick).keyed).mp hid
  obtain ⟨mid, hmid, hdemoted⟩ := tick_row h.keyed hrow'
  rw [lastRescan_of_get hrow', hdemoted.lastRescannedAt]
  by_cases hserved : id ∈ s.served cfg tick
  · obtain ⟨data, hpair, -⟩ := mem_served.mp hserved
    obtain ⟨row, hrow, -⟩ := mem_batch (List.of_mem_zip hpair).1
    obtain ⟨after, hafter, hlast⟩ := rescanBatch_served hserved hrow
    rw [hmid, Option.some.injEq] at hafter
    rw [if_pos hserved, hafter, hlast]
    rfl
  · rw [rescanBatch_unserved hserved] at hmid
    rw [if_neg hserved, lastRescan_of_get hmid]

theorem lastRescan_le (h : RescanInv s) (hlast : lastRescan s.table.snapshots id ≠ ⊤) :
    lastRescan s.table.snapshots id ≤ ((s.now : ℤ) : WithTop ℤ) := by
  cases hrow : s.table.snapshots.get id with
  | none => simp [lastRescan, hrow] at hlast
  | some row =>
    rw [lastRescan_of_get hrow] at hlast ⊢
    cases htime : row.lastRescannedAt with
    | none => simp [htime] at hlast
    | some time => exact WithTop.coe_le_coe.mpr (h.past id row time hrow htime)

theorem tick_renews (h : RescanInv s) (hpause : 0 < tick.pause) (hlast : lastRescan s.table.snapshots id ≠ ⊤) :
    OldestFirst.Renews id (lastRescan s.table.snapshots) (lastRescan (s.tick cfg tick).table.snapshots)
      (rescannedIds (s.tick cfg tick).table).toFinset (s.served cfg tick).toFinset where
  fresh a ha hserved := by
    rw [List.mem_toFinset] at ha hserved
    rw [lastRescan_tick h ha, if_pos hserved]
    have hlt : s.now < s.written tick := by
      unfold RescanState.written
      omega
    exact (lastRescan_le h hlast).trans_lt (WithTop.coe_lt_coe.mpr hlt)
  kept a ha hserved := by
    rw [List.mem_toFinset] at ha hserved
    rw [lastRescan_tick h ha, if_neg hserved]

/-- The step is no rescan of the snapshot. -/
def LeavesOut (cfg : RescanConfig) (id : ℕ) (s : RescanState) : RescanEvent → Prop
  | .tick tick => id ∉ s.batch cfg tick
  | _ => True

instance (cfg : RescanConfig) (id : ℕ) (s : RescanState) (e : RescanEvent) : Decidable (LeavesOut cfg id s e) := by
  cases e with
  | tick tick => exact inferInstanceAs (Decidable (id ∉ s.batch cfg tick))
  | _ => exact isTrue trivial

/-- The snapshot is active or graduated. -/
def IsRescanned (id : ℕ) (s : RescanState) (_ : RescanEvent) : Prop := id ∈ rescannedIds s.table

instance (id : ℕ) (s : RescanState) (e : RescanEvent) : Decidable (IsRescanned id s e) :=
  inferInstanceAs (Decidable (id ∈ rescannedIds s.table))

/-- A window whose ticks all leave a snapshot out. -/
theorem leftOut {ticks : List RescanTick} (h : RescanInv s)
    (hspaced : ∀ tick ∈ ticks, cfg.RESCAN_INTERVAL_SEC * 1000 < tick.pause)
    (hstays : (rescanWorker cfg).GuardedRun (IsRescanned id) s (ticks.map .tick) t)
    (hlast : ticks.length = 1 ∨ lastRescan s.table.snapshots id ≠ ⊤)
    (hrun : (rescanWorker cfg).GuardedRun (LeavesOut cfg id) s (ticks.map .tick) t) (hne : ticks ≠ []) :
    OldestFirst.LeftOut cfg.RESCAN_BATCH_SIZE id (lastRescan s.table.snapshots) (rescannedIds s.table).toFinset
      ticks.length (ticks.dropLast.map RescanTick.unpriced).sum := by
  induction ticks generalizing s with
  | nil => exact absurd rfl hne
  | cons tick ticks ih =>
    obtain ⟨hpause, hspaced⟩ := List.forall_mem_cons.mp hspaced
    cases hrun with
    | cons guard step rest =>
      cases hstays with
      | cons hrescanned step' hstays =>
      obtain rfl := Option.some.inj (step.symm.trans step')
      obtain ⟨⟨horder, hlength, -⟩, heq⟩ := Option.ite_none_right_eq_some.mp step
      obtain rfl := Option.some.inj heq
      have hout : id ∉ (s.batch cfg tick).toFinset := fun hin => guard (List.mem_toFinset.mp hin)
      have hmem : id ∈ (rescannedIds s.table).toFinset := List.mem_toFinset.mpr hrescanned
      have hpick := batch_oldestFirst h horder hpause
      cases ticks with
      | nil => exact .last hpick hmem hout
      | cons next ticks =>
        have hone : lastRescan s.table.snapshots id ≠ ⊤ := hlast.resolve_left (by simp)
        have hserved : (s.served cfg tick).Sublist (s.batch cfg tick) := served_sublist hlength _
        have hbatch : (s.batch cfg tick).Nodup := batch_nodup h horder
        have hnext : id ∈ rescannedIds (s.tick cfg tick).table := by
          cases hstays with
          | cons hrescanned _ _ => exact hrescanned
        have hkept : lastRescan (s.tick cfg tick).table.snapshots id = lastRescan s.table.snapshots id := by
          rw [lastRescan_tick h hnext, if_neg]
          exact fun hin => hout (List.mem_toFinset.mpr (hserved.subset hin))
        apply OldestFirst.LeftOut.round hpick hmem hout
        · exact fun a ha => List.mem_toFinset.mpr (hserved.subset (List.mem_toFinset.mp ha))
        · rw [List.toFinset_card_of_nodup hbatch, List.toFinset_card_of_nodup (hbatch.sublist hserved)]
          exact (length_picked hlength isPriced).le
        · exact tick_renews h (by omega) hone
        · exact rescannedIds_subset h
        · apply ih (h.ticked tick) hspaced hstays _ rest (List.cons_ne_nil _ _)
          right
          rw [hkept]
          exact hone

end Tick

/-- No price for more than 72 hours after the last rescan, or after the capture where there has been none. -/
def Overdue (row : IntelSnapshot) (now : ℤ) : Prop :=
  row.lastRescannedAt.getD row.capture.capturedAt < now - RETIRE_NO_RESPONSE_HOURS * 3600000

instance (row : IntelSnapshot) (now : ℤ) : Decidable (Overdue row now) :=
  inferInstanceAs (Decidable (row.lastRescannedAt.getD row.capture.capturedAt < now - RETIRE_NO_RESPONSE_HOURS * 3600000))

section Run
variable {cfg : RescanConfig} {s t : RescanState}

theorem rescanInv_of_run {es : List RescanEvent} (hrun : (rescanWorker cfg).run {} es = some s) : RescanInv s :=
  (StepSystem.GuardedRun.of_run hrun).invariant (fun _ _ _ h _ hstep => h.step hstep)
    ⟨List.nodup_nil, fun _ _ _ h => by cases h⟩

theorem exists_batch {ticks : List RescanTick} {id : ℕ} (h : RescanInv s) (hmem : id ∈ rescannedIds s.table)
    (hstays : (rescanWorker cfg).GuardedRun (IsRescanned id) s (ticks.map .tick) t)
    (hlength : ticks.length = (rescannedIds s.table).length ⌈/⌉ cfg.RESCAN_BATCH_SIZE)
    (hspaced : ∀ tick ∈ ticks, cfg.RESCAN_INTERVAL_SEC * 1000 < tick.pause)
    (hlast : (rescannedIds s.table).length ≤ cfg.RESCAN_BATCH_SIZE ∨ lastRescan s.table.snapshots id ≠ ⊤)
    (hanswered : (ticks.dropLast.map RescanTick.unpriced).sum + (rescannedIds s.table).length ≤
      ((rescannedIds s.table).length ⌈/⌉ cfg.RESCAN_BATCH_SIZE) * cfg.RESCAN_BATCH_SIZE) :
    ∃ pre tick post u, ticks = pre ++ tick :: post ∧ (rescanWorker cfg).run s (pre.map .tick) = some u ∧
      id ∈ u.batch cfg tick := by
  by_contra hnone
  have hout : (rescanWorker cfg).GuardedRun (LeavesOut cfg id) s (ticks.map .tick) t := by
    rw [StepSystem.GuardedRun.iff_forall_map_steps hstays.run]
    intro pre tick post u hsplit hbefore hin
    exact hnone ⟨pre, tick, post, u, hsplit, hbefore, hin⟩
  have hpos : 0 < (rescannedIds s.table).length := List.length_pos_of_mem hmem
  have hne : ticks ≠ [] := by
    rintro rfl
    rw [← hlength, List.length_nil, Nat.zero_mul] at hanswered
    omega
  have hone : ticks.length = 1 ∨ lastRescan s.table.snapshots id ≠ ⊤ := by
    obtain hfits | hbefore := hlast
    · left
      have hsize : 0 < cfg.RESCAN_BATCH_SIZE := by omega
      have hle : ticks.length ≤ 1 := by
        rw [hlength, ceilDiv_le_iff_le_mul hsize]
        omega
      have hticks := List.length_pos_iff.mpr hne
      omega
    · exact .inr hbefore
  have hbound := (leftOut h hspaced hstays hone hout hne).bound
  have hcard := List.toFinset_card_le (rescannedIds s.table)
  rw [hlength] at hbound
  omega

theorem overdue_retired_iff {tick : RescanTick} {id : ℕ} {row row' : IntelSnapshot} (h : s.table.Keyed)
    (hrow : s.table.snapshots.get id = some row) (hactive : row.status = .active)
    (hoverdue : Overdue row (s.written tick)) (hout : id ∉ s.served cfg tick)
    (hrow' : (s.tick cfg tick).table.snapshots.get id = some row') :
    row'.status = .retired ↔ row.lastRescannedAt.isSome = true := by
  have hkeyed : (s.rescanBatch cfg tick).Keyed := h.persistAll _ _
  have hcurated := get_of_runPurge (runStatusCuration_keyed hkeyed) hrow'
  rw [runStatusCuration_retired hkeyed ((rescanBatch_unserved hout).trans hrow) hactive hcurated]
  unfold IntelSnapshot.unanswered
  unfold Overdue at hoverdue
  cases hlast : row.lastRescannedAt with
  | none => simp
  | some time =>
    rw [hlast] at hoverdue
    simpa [hactive] using hoverdue

/-- **Rescans of every snapshot.** In as many ticks as the active and graduated snapshots need, each more than the
interval after the one before, a snapshot that stays one of them is part of a batch, if the batch holds them all or
the snapshot was rescanned before and no more answers before the last tick have no price than there is room for.
An overdue active snapshot that a tick leaves without a price is retired if and only if it was rescanned before. -/
theorem rescans_cover {es : List RescanEvent} (hrun : (rescanWorker cfg).run {} es = some s) :
    (∀ (ticks : List RescanTick) (t : RescanState), ∀ id ∈ rescannedIds s.table,
      (rescanWorker cfg).GuardedRun (IsRescanned id) s (ticks.map .tick) t →
      ticks.length = (rescannedIds s.table).length ⌈/⌉ cfg.RESCAN_BATCH_SIZE →
      (∀ tick ∈ ticks, cfg.RESCAN_INTERVAL_SEC * 1000 < tick.pause) →
      ((rescannedIds s.table).length ≤ cfg.RESCAN_BATCH_SIZE ∨ lastRescan s.table.snapshots id ≠ ⊤) →
      (ticks.dropLast.map RescanTick.unpriced).sum + (rescannedIds s.table).length ≤
        ((rescannedIds s.table).length ⌈/⌉ cfg.RESCAN_BATCH_SIZE) * cfg.RESCAN_BATCH_SIZE →
      ∃ pre tick post u, ticks = pre ++ tick :: post ∧ (rescanWorker cfg).run s (pre.map .tick) = some u ∧
        id ∈ u.batch cfg tick) ∧
    ∀ (tick : RescanTick) (t : RescanState) (id : ℕ) (row row' : IntelSnapshot),
      (rescanWorker cfg).run s [.tick tick] = some t → s.table.snapshots.get id = some row → row.status = .active →
      Overdue row (s.written tick) → id ∉ s.served cfg tick → t.table.snapshots.get id = some row' →
      (row'.status = .retired ↔ row.lastRescannedAt.isSome = true) := by
  have hinv := rescanInv_of_run hrun
  constructor
  · intro ticks t id hmem hstays hlength hspaced hlast hanswered
    exact exists_batch hinv hmem hstays hlength hspaced hlast hanswered
  · intro tick t id row row' htick hrow hactive hoverdue hout hrow'
    obtain ⟨u, hstep, hu⟩ := Option.bind_eq_some_iff.mp htick
    obtain rfl := Option.some.inj hu
    obtain ⟨-, heq⟩ := Option.ite_none_right_eq_some.mp hstep
    obtain rfl := Option.some.inj heq
    exact overdue_retired_iff hinv.keyed hrow hactive hoverdue hout hrow'

end Run

/-! ## Two histories -/

def oneByOne : RescanConfig := { RESCAN_BATCH_SIZE := 1 }

def call (address : String) : CaptureInput where
  address := address
  source := .snipe
  report := { priceUsd := some 1, marketCapUsd := some 50000 }

def pricedAt (pause : ℕ) : RescanTick where
  pause
  order := [0, 1]
  took := 200
  answers := [some { priceUsd := some 2, marketCapUsd := some 60000, liquidityUsd := some 9000 }]

/-- The second tick comes so soon that the first snapshot is not due. -/
def bothRescanned : List RescanEvent :=
  [.capture (call "mintA"), .capture (call "mintB"), .tick (pricedAt 0), .tick (pricedAt 1000)]

/-- A tick without a price, more than 72 hours later. -/
def silent : RescanTick where
  pause := 259300000
  order := [0, 1]
  took := 200
  answers := [none]

theorem bothRescanned_cover : ∃ s, (rescanWorker oneByOne).run {} bothRescanned = some s ∧
    (∀ id ∈ ([0, 1] : List ℕ), ∃ pre tick post u, [pricedAt 600001, pricedAt 600001] = pre ++ tick :: post ∧
      (rescanWorker oneByOne).run s (pre.map .tick) = some u ∧ id ∈ u.batch oneByOne tick) ∧
    ∃ t row, (rescanWorker oneByOne).run s [.tick silent] = some t ∧ t.table.snapshots.get 0 = some row ∧
      row.status = .retired := by
  have hany : ((rescanWorker oneByOne).run {} bothRescanned).any (fun s : RescanState => decide
      (((rescannedIds s.table).length = 2 ∧ ∀ id ∈ ([0, 1] : List ℕ), id ∈ rescannedIds s.table ∧
        lastRescan s.table.snapshots id ≠ ⊤ ∧ ((rescanWorker oneByOne).guardedRun (IsRescanned id) s
          ([pricedAt 600001, pricedAt 600001].map .tick)).isSome = true) ∧
        (s.table.snapshots.get 0).any (fun row => decide (row.status = .active ∧ Overdue row (s.written silent) ∧
          0 ∉ s.served oneByOne silent ∧ row.lastRescannedAt.isSome = true)) = true ∧
        ((rescanWorker oneByOne).run s [.tick silent]).any
          (fun t => (t.table.snapshots.get 0).isSome) = true)) = true := by decide +kernel
  obtain ⟨s, hs, hready⟩ := (Option.any_eq_true _ _).mp hany
  obtain ⟨⟨hcount, hready⟩, hbefore, hafter⟩ := of_decide_eq_true hready
  refine ⟨s, hs, fun id hid => ?_, ?_⟩
  · obtain ⟨hmem, hlast, hstays⟩ := hready id hid
    obtain ⟨t, ht⟩ := Option.isSome_iff_exists.mp hstays
    refine (rescans_cover hs).1 _ t id hmem (StepSystem.GuardedRun.of_guardedRun ht) ?_ (by decide) (.inr hlast) ?_
    · rw [hcount]
      decide
    · rw [hcount]
      decide
  · obtain ⟨row, hrow, hready⟩ := (Option.any_eq_true _ _).mp hbefore
    obtain ⟨hactive, hoverdue, hout, honce⟩ := of_decide_eq_true hready
    obtain ⟨t, ht, hleft⟩ := (Option.any_eq_true _ _).mp hafter
    obtain ⟨row', hrow'⟩ := Option.isSome_iff_exists.mp hleft
    exact ⟨t, row', ht, hrow', ((rescans_cover hs).2 silent t 0 row row' ht hrow hactive hoverdue hout hrow').mpr honce⟩

/-- Two snapshots that have not been rescanned yet. -/
def bothNew : List RescanEvent := [.capture (call "mintA"), .capture (call "mintB")]

/-- Every answer has a price, and the second snapshot's turn does not come: its null is sorted behind. -/
theorem bothNew_not_covered : ¬ ∀ (cfg : RescanConfig) (es : List RescanEvent) (s : RescanState),
    (rescanWorker cfg).run {} es = some s → ∀ (ticks : List RescanTick) (t : RescanState), ∀ id ∈ rescannedIds s.table,
      (rescanWorker cfg).GuardedRun (IsRescanned id) s (ticks.map .tick) t →
      ticks.length = (rescannedIds s.table).length ⌈/⌉ cfg.RESCAN_BATCH_SIZE →
      (∀ tick ∈ ticks, cfg.RESCAN_INTERVAL_SEC * 1000 < tick.pause) →
      ∃ pre tick post u, ticks = pre ++ tick :: post ∧ (rescanWorker cfg).run s (pre.map .tick) = some u ∧
        id ∈ u.batch cfg tick := by
  intro h
  have hany : ((rescanWorker oneByOne).run {} bothNew).any (fun s : RescanState => decide
      ((rescannedIds s.table).length = 2 ∧ 1 ∈ rescannedIds s.table ∧
        ((rescanWorker oneByOne).guardedRun (IsRescanned 1) s
          ([pricedAt 600001, pricedAt 600001].map .tick)).isSome = true ∧
        ((rescanWorker oneByOne).guardedRun (LeavesOut oneByOne 1) s
          ([pricedAt 600001, pricedAt 600001].map .tick)).isSome = true)) = true := by decide +kernel
  obtain ⟨s, hs, hready⟩ := (Option.any_eq_true _ _).mp hany
  obtain ⟨hcount, hmem, hstays, hleaves⟩ := of_decide_eq_true hready
  obtain ⟨t, ht⟩ := Option.isSome_iff_exists.mp hstays
  obtain ⟨t', ht'⟩ := Option.isSome_iff_exists.mp hleaves
  have hout := StepSystem.GuardedRun.of_guardedRun ht'
  obtain ⟨pre, tick, post, u, hsplit, hbefore, hin⟩ := h oneByOne bothNew s hs _ t 1 hmem
    (StepSystem.GuardedRun.of_guardedRun ht) (by rw [hcount]; decide) (by decide)
  exact (StepSystem.GuardedRun.iff_forall_map_steps hout.run).mp hout pre tick post u hsplit hbefore hin

end SuperAi.IntelTrack
