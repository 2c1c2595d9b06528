import Mathlib.Algebra.Order.Field.Rat
import SuperAi.Foundations.KeyValue
import SuperAi.Foundations.StepSystem

/-! # The signal pipeline

`SignalPipelineService` (`hot-tokens/signal-pipeline.service.ts`): two producers put tokens into a queue, and a loop
analyses them one after another, from one `await` to the next. What a signal result holds is a parameter; log lines, the
database and what is sent to the clients are left out. An analysed token is kept out of the queue for
`ANALYSIS_TTL_MS`; while it is in progress, it is not, and the tokens of one call are not compared with one another
(`pipeline_of_guardedRun`).
-/
namespace SuperAi.HotTokens
open SuperAi.Foundations
set_option autoImplicit false

def MAX_QUEUE : ℕ := 25

structure PipelineConfig where
  PIPELINE_ENABLED : Bool := true
  ANALYSIS_TTL_MS : ℤ := 600000

structure HotToken where
  address : String
  symbol : String
  score : ℚ
  profileKey : String

structure BatchItem where
  address : String
  symbol : String
  profileKey : Option String := none

structure QueueItem where
  address : String
  symbol : String
  heuristicScore : ℚ
  profileKey : String
  fastPath : Bool := false
  deriving DecidableEq

/-- Where `processLoop` waits: for the analysis of an item, for the end of `analyzeOne`, and between two items. -/
inductive LoopPhase
  | analyzing (item : QueueItem)
  | analyzed (item : QueueItem)
  | sleeping
  deriving DecidableEq

/-- What has happened to the analyses. -/
inductive AnalysisRecord
  | started (address : String) (time : ℤ)
  | completed (address : String) (time : ℤ)
  | threw (address : String)
  deriving DecidableEq, Repr

/-- The service, with the time, the loops that run, and the history, the last record first. -/
structure Pipeline (ρ : Type) where
  now : ℤ
  queue : List QueueItem := []
  processing : Bool := false
  destroyed : Bool := false
  doneCache : KeyValue String ℤ := []
  results : KeyValue String ρ := []
  loops : List LoopPhase := []
  log : List AnalysisRecord := []

namespace Pipeline
variable {ρ : Type}

/-- The head of the `while` of a loop, with the other loops: the next item is shifted, or the loop ends. -/
def turn (s : Pipeline ρ) (others : List LoopPhase) : Pipeline ρ :=
  match s.queue with
  | [] => { s with processing := false, loops := others }
  | item :: queue =>
    if s.destroyed then { s with processing := false, loops := others }
    else { s with queue, loops := others ++ [.analyzing item], log := .started item.address s.now :: s.log }

def processLoop (s : Pipeline ρ) : Pipeline ρ :=
  if s.processing || s.destroyed then s else turn { s with processing := true } s.loops

/-- The done-cache without what has expired. -/
def purged (s : Pipeline ρ) : KeyValue String ℤ := s.doneCache.filter fun entry => !decide (entry.2 < s.now)

def freshTokens (s : Pipeline ρ) (tokens : List HotToken) : List QueueItem :=
  (tokens.filter fun t => (KeyValue.get s.purged t.address).isNone).map fun t =>
    { address := t.address, symbol := t.symbol, heuristicScore := t.score, profileKey := t.profileKey }

def freshBatch (s : Pipeline ρ) (items : List BatchItem) : List QueueItem :=
  (items.filter fun i => (KeyValue.get s.purged i.address).isNone && (KeyValue.get s.results i.address).isNone).map
    fun i =>
      { address := i.address, symbol := i.symbol, heuristicScore := 50, profileKey := i.profileKey.getD "meme_hunter"
        fastPath := true }

/-- The queue without the items that are queued anew. -/
def kept (s : Pipeline ρ) (fresh : List QueueItem) : List QueueItem :=
  s.queue.filter fun q => !(fresh.map QueueItem.address).contains q.address

def enqueue (cfg : PipelineConfig) (s : Pipeline ρ) (tokens : List HotToken) : Pipeline ρ :=
  if !cfg.PIPELINE_ENABLED then s
  else
    let fresh := s.freshTokens tokens
    if fresh.isEmpty then { s with doneCache := s.purged }
    else
      let sorted := fresh.mergeSort fun a b => decide (b.heuristicScore ≤ a.heuristicScore)
      processLoop { s with doneCache := s.purged, queue := (sorted ++ s.kept fresh).take MAX_QUEUE }

/-- `enqueueBatch`, with the number of items that it returns. -/
def enqueueBatch (cfg : PipelineConfig) (s : Pipeline ρ) (items : List BatchItem) : ℕ × Pipeline ρ :=
  if !cfg.PIPELINE_ENABLED || items.isEmpty then (0, s)
  else
    let fresh := s.freshBatch items
    if fresh.isEmpty then (0, { s with doneCache := s.purged })
    else
      (fresh.length,
        processLoop { s with doneCache := s.purged, queue := (s.kept fresh ++ fresh).take MAX_QUEUE })

end Pipeline

/-- How an analysis ends: a report with reasoning, one without, or an error. -/
inductive AnalysisOutcome (ρ : Type)
  | verdict (result : ρ)
  | noVerdict
  | threw

inductive PipelineEvent (ρ : Type)
  | enqueue (tokens : List HotToken)
  | enqueueBatch (items : List BatchItem)
  /-- The analysis of a loop ends. -/
  | completes (loop : ℕ) (outcome : AnalysisOutcome ρ)
  /-- A loop goes on after `analyzeOne`. -/
  | continues (loop : ℕ)
  | wakes (loop : ℕ)
  | destroy

namespace Pipeline
variable {ρ : Type}

/-- `analyzeOne` from the end of the analysis on. -/
def complete (cfg : PipelineConfig) (s : Pipeline ρ) (i : ℕ) (item : QueueItem) (outcome : AnalysisOutcome ρ) :
    Pipeline ρ :=
  let s := { s with loops := s.loops.set i (.analyzed item) }
  match outcome with
  | .threw => { s with log := .threw item.address :: s.log }
  | .noVerdict =>
    { s with
      doneCache := s.doneCache.set item.address (s.now + cfg.ANALYSIS_TTL_MS)
      log := .completed item.address s.now :: s.log }
  | .verdict result =>
    { s with
      doneCache := s.doneCache.set item.address (s.now + cfg.ANALYSIS_TTL_MS)
      results := s.results.set item.address result
      log := .completed item.address s.now :: s.log }

def stepAt (cfg : PipelineConfig) (s : Pipeline ρ) : PipelineEvent ρ → Option (Pipeline ρ)
  | .enqueue tokens => some (s.enqueue cfg tokens)
  | .enqueueBatch items => some (s.enqueueBatch cfg items).2
  | .completes i outcome =>
    match s.loops[i]? with
    | some (.analyzing item) => some (s.complete cfg i item outcome)
    | _ => none
  | .continues i =>
    match s.loops[i]? with
    | some (.analyzed _) =>
      if s.queue ≠ [] ∧ s.destroyed = false then some { s with loops := s.loops.set i .sleeping }
      else some (s.turn (s.loops.eraseIdx i))
    | _ => none
  | .wakes i =>
    match s.loops[i]? with
    | some .sleeping => some (s.turn (s.loops.eraseIdx i))
    | _ => none
  | .destroy => some { s with destroyed := true }

end Pipeline

/-- Events at times that do not go back. -/
def signalPipeline (ρ : Type) (cfg : PipelineConfig) : StepSystem (Pipeline ρ) (ℤ × PipelineEvent ρ) where
  step s e := if e.1 < s.now then none else Pipeline.stepAt cfg { s with now := e.1 } e.2

/-! ## Each token once -/

/-- The addresses whose analyses have started and not ended. -/
def running : List AnalysisRecord → List String
  | [] => []
  | .started address _ :: log => address :: running log
  | .completed address _ :: log => (running log).erase address
  | .threw address :: log => (running log).erase address

/-- No analysis has started while another of its address was in progress, or within `ttlMs` of one that completed. -/
def OnceEach (ttlMs : ℤ) : List AnalysisRecord → Prop
  | [] => True
  | .started address time :: log =>
    (address ∉ running log ∧ ∀ t, .completed address t ∈ log → ttlMs ≤ time - t) ∧ OnceEach ttlMs log
  | _ :: log => OnceEach ttlMs log

structure PipelineLaw {ρ : Type} (cfg : PipelineConfig) (s : Pipeline ρ) : Prop where
  nodup : (s.queue.map QueueItem.address).Nodup
  size : s.queue.length ≤ MAX_QUEUE
  runs : s.queue ≠ [] → s.destroyed = false → s.processing = true ∧ s.loops ≠ []
  once : OnceEach cfg.ANALYSIS_TTL_MS s.log

def LoopPhase.inProgress : LoopPhase → Option String
  | .analyzing item => some item.address
  | _ => none

def Pipeline.inProgress {ρ : Type} (s : Pipeline ρ) : List String := s.loops.filterMap LoopPhase.inProgress

/-- Items that are queued anew have addresses of their own, and none of them is being analysed. -/
def Pipeline.Apart {ρ : Type} (s : Pipeline ρ) (fresh : List QueueItem) : Prop :=
  (fresh.map QueueItem.address).Nodup ∧ ∀ f ∈ fresh, f.address ∉ s.inProgress

/-- No call queues an address twice, or one that is being analysed. -/
def QueuedOnce {ρ : Type} (cfg : PipelineConfig) (s : Pipeline ρ) (e : ℤ × PipelineEvent ρ) : Prop :=
  match e.2 with
  | .enqueue tokens => cfg.PIPELINE_ENABLED = true → s.Apart ({ s with now := e.1 }.freshTokens tokens)
  | .enqueueBatch items => cfg.PIPELINE_ENABLED = true → s.Apart ({ s with now := e.1 }.freshBatch items)
  | _ => True

/-! ## The invariant -/

section Invariant
variable {ρ : Type} {cfg : PipelineConfig} {s s' : Pipeline ρ}

/-- What holds of the queue and the history, whatever the loops do. -/
structure Waiting (cfg : PipelineConfig) (s : Pipeline ρ) : Prop where
  nodup : (s.queue.map QueueItem.address).Nodup
  size : s.queue.length ≤ MAX_QUEUE
  past : ∀ address t, .completed address t ∈ s.log → t ≤ s.now
  /-- An analysis that has completed is in the done-cache, or long ago. -/
  done : ∀ address t, .completed address t ∈ s.log →
    (∃ exp, KeyValue.get s.doneCache address = some exp ∧ t + cfg.ANALYSIS_TTL_MS ≤ exp) ∨
      t + cfg.ANALYSIS_TTL_MS < s.now
  due : ∀ q ∈ s.queue, ∀ t, .completed q.address t ∈ s.log → t + cfg.ANALYSIS_TTL_MS < s.now
  once : OnceEach cfg.ANALYSIS_TTL_MS s.log

structure Sound (cfg : PipelineConfig) (s : Pipeline ρ) : Prop where
  waiting : Waiting cfg s
  single : s.loops = [] ∧ s.processing = false ∨ ∃ l, s.loops = [l] ∧ s.processing = true
  runs : s.queue ≠ [] → s.destroyed = false → s.processing = true
  running : running s.log = s.inProgress
  apart : ∀ q ∈ s.queue, q.address ∉ s.inProgress

theorem Sound.law (h : Sound cfg s) : PipelineLaw cfg s where
  nodup := h.waiting.nodup
  size := h.waiting.size
  runs hqueue hlive := by
    have hprocessing := h.runs hqueue hlive
    obtain ⟨-, hidle⟩ | ⟨l, hloops, -⟩ := h.single
    · rw [hprocessing] at hidle
      cases hidle
    · exact ⟨hprocessing, by simp [hloops]⟩
  once := h.waiting.once

theorem turn_of_end (h : s.queue = [] ∨ s.destroyed = true) (others : List LoopPhase) :
    s.turn others = { s with processing := false, loops := others } := by
  unfold Pipeline.turn
  split
  · rfl
  · rename_i item queue hqueue
    obtain hnil | hdestroyed := h
    · rw [hnil] at hqueue
      cases hqueue
    · rw [if_pos hdestroyed]

theorem turn_of_item {item : QueueItem} {queue : List QueueItem} (hqueue : s.queue = item :: queue)
    (hlive : s.destroyed = false) (others : List LoopPhase) : s.turn others =
      { s with queue, loops := others ++ [.analyzing item], log := .started item.address s.now :: s.log } := by
  unfold Pipeline.turn
  split
  · rename_i hnil
    rw [hqueue] at hnil
    cases hnil
  · rename_i item' queue' hqueue'
    rw [hqueue] at hqueue'
    obtain ⟨rfl, rfl⟩ := List.cons.inj hqueue'
    rw [if_neg (by simp [hlive])]

/-- The only loop starts the first item, or ends. -/
theorem Waiting.turn (h : Waiting cfg s) (hprocessing : s.processing = true)
    (hnone : HotTokens.running s.log = []) : Sound cfg (s.turn []) := by
  by_cases hend : s.queue = [] ∨ s.destroyed = true
  · rw [turn_of_end hend]
    refine ⟨⟨h.nodup, h.size, h.past, h.done, h.due, h.once⟩, .inl ⟨rfl, rfl⟩, fun hne hlive => ?_, hnone,
      fun _ _ hin => absurd hin List.not_mem_nil⟩
    obtain hnil | hdestroyed := hend
    · exact absurd hnil hne
    · simp [hdestroyed] at hlive
  · obtain ⟨hne, hlive⟩ := not_or.mp hend
    obtain ⟨item, queue, hqueue⟩ := List.exists_cons_of_ne_nil hne
    rw [turn_of_item hqueue (Bool.eq_false_iff.mpr hlive)]
    obtain ⟨hnodup, hsize, hpast, hdone, hdue, honce⟩ := h
    rw [hqueue, List.map_cons, List.nodup_cons] at hnodup
    rw [hqueue, List.length_cons] at hsize
    rw [hqueue, List.forall_mem_cons] at hdue
    have hwaiting : Waiting cfg
        { s with queue, loops := [.analyzing item], log := .started item.address s.now :: s.log } := by
      refine ⟨hnodup.2, by dsimp only; omega, fun address t hcompleted => ?_, fun address t hcompleted => ?_,
        fun q hq t hcompleted => ?_, ?_, honce⟩
      · exact hpast address t (by simpa using hcompleted)
      · exact hdone address t (by simpa using hcompleted)
      · exact hdue.2 q hq t (by simpa using hcompleted)
      · refine ⟨by simp [hnone], fun t hcompleted => ?_⟩
        have hlate := hdue.1 t hcompleted
        omega
    refine ⟨hwaiting, .inr ⟨_, rfl, hprocessing⟩, fun _ _ => hprocessing, ?_, ?_⟩
    · simp [HotTokens.running, hnone, Pipeline.inProgress, LoopPhase.inProgress]
    · intro q hq hin
      have haddress : q.address = item.address := by simpa [Pipeline.inProgress, LoopPhase.inProgress] using hin
      exact hnodup.1 (haddress ▸ List.mem_map_of_mem hq)

/-! ## The producers -/

theorem get_purged {address : String} {exp : ℤ} (h : KeyValue.get s.doneCache address = some exp)
    (hlive : s.now ≤ exp) : KeyValue.get s.purged address = some exp := by
  apply KeyValue.get_filter h
  simpa using hlive

theorem Waiting.purge (h : Waiting cfg s) : Waiting cfg { s with doneCache := s.purged } := by
  refine ⟨h.nodup, h.size, h.past, fun address t hcompleted => ?_, h.due, h.once⟩
  obtain ⟨exp, hget, hle⟩ | hpast := h.done address t hcompleted
  · by_cases hlive : s.now ≤ exp
    · exact .inl ⟨exp, get_purged hget hlive, hle⟩
    · right
      dsimp only
      omega
  · exact .inr hpast

/-- Fresh items take the place of queued items of their addresses. -/
theorem Waiting.place (h : Waiting cfg s) {fresh queue : List QueueItem} (hnodup : (fresh.map QueueItem.address).Nodup)
    (hfresh : ∀ f ∈ fresh, KeyValue.get s.purged f.address = none) (hperm : queue.Perm (fresh ++ s.kept fresh)) :
    Waiting cfg { s with doneCache := s.purged, queue := queue.take MAX_QUEUE } := by
  have hpurged := h.purge
  have hmem (q : QueueItem) (hq : q ∈ queue.take MAX_QUEUE) : q ∈ fresh ∨ q ∈ s.queue := by
    obtain hf | hk := List.mem_append.mp (hperm.mem_iff.mp (List.mem_of_mem_take hq))
    · exact .inl hf
    · exact .inr (List.mem_of_mem_filter hk)
  refine ⟨?_, List.length_take_le _ _, h.past, hpurged.done, ?_, h.once⟩
  · have hall : ((fresh ++ s.kept fresh).map QueueItem.address).Nodup := by
      rw [List.map_append]
      apply hnodup.append (h.nodup.sublist (List.filter_sublist.map _))
      intro address hin hkept
      obtain ⟨q, hq, rfl⟩ := List.mem_map.mp hkept
      have hout := List.of_mem_filter hq
      simp only [Bool.not_eq_true', List.contains_eq_mem, decide_eq_false_iff_not] at hout
      exact hout hin
    exact ((hperm.map QueueItem.address).nodup_iff.mpr hall).sublist ((List.take_sublist _ _).map _)
  · intro q hq t hcompleted
    obtain hf | hold := hmem q hq
    · obtain ⟨exp, hget, -⟩ | hpast := hpurged.done q.address t hcompleted
      · rw [hfresh q hf] at hget
        cases hget
      · exact hpast
    · exact h.due q hold t hcompleted

theorem Sound.place (h : Sound cfg s) {fresh queue : List QueueItem} (hapart : s.Apart fresh)
    (hfresh : ∀ f ∈ fresh, KeyValue.get s.purged f.address = none) (hperm : queue.Perm (fresh ++ s.kept fresh)) :
    Sound cfg { s with doneCache := s.purged, queue := queue.take MAX_QUEUE }.processLoop := by
  have hwaiting := h.waiting.place hapart.1 hfresh hperm
  unfold Pipeline.processLoop
  by_cases hloop : s.processing = true ∨ s.destroyed = true
  · rw [if_pos (by simpa using hloop)]
    refine ⟨hwaiting, h.single, fun hne hlive => ?_, h.running, fun q hq => ?_⟩
    · obtain hprocessing | hdestroyed := hloop
      · exact hprocessing
      · simp [hdestroyed] at hlive
    · obtain hf | hk := List.mem_append.mp (hperm.mem_iff.mp (List.mem_of_mem_take hq))
      · exact hapart.2 q hf
      · exact h.apart q (List.mem_of_mem_filter hk)
  · rw [if_neg (by simpa using hloop)]
    obtain ⟨hprocessing, -⟩ := not_or.mp hloop
    obtain ⟨hloops, -⟩ | ⟨l, -, hbusy⟩ := h.single
    · have hnone : HotTokens.running s.log = [] := by simp [h.running, Pipeline.inProgress, hloops]
      have hturn := Waiting.turn (s := { s with
        processing := true, doneCache := s.purged, queue := queue.take MAX_QUEUE })
        ⟨hwaiting.nodup, hwaiting.size, hwaiting.past, hwaiting.done, hwaiting.due, hwaiting.once⟩ rfl hnone
      dsimp only
      rw [hloops]
      exact hturn
    · exact absurd hbusy hprocessing

theorem Sound.purge (h : Sound cfg s) : Sound cfg { s with doneCache := s.purged } :=
  ⟨h.waiting.purge, h.single, h.runs, h.running, h.apart⟩

theorem Sound.enqueue (h : Sound cfg s) {tokens : List HotToken}
    (hapart : cfg.PIPELINE_ENABLED = true → s.Apart (s.freshTokens tokens)) : Sound cfg (s.enqueue cfg tokens) := by
  unfold Pipeline.enqueue
  by_cases henabled : cfg.PIPELINE_ENABLED = true
  · rw [if_neg (by simp [henabled])]
    dsimp only
    split_ifs
    · exact h.purge
    · apply h.place (hapart henabled)
      · intro f hf
        obtain ⟨t, ht, rfl⟩ := List.mem_map.mp hf
        simpa using List.of_mem_filter ht
      · exact (List.mergeSort_perm _ _).append_right _
  · rw [if_pos (by simpa using henabled)]
    exact h

theorem Sound.enqueueBatch (h : Sound cfg s) {items : List BatchItem}
    (hapart : cfg.PIPELINE_ENABLED = true → s.Apart (s.freshBatch items)) :
    Sound cfg (s.enqueueBatch cfg items).2 := by
  unfold Pipeline.enqueueBatch
  by_cases hskip : (!cfg.PIPELINE_ENABLED || items.isEmpty) = true
  · rw [if_pos hskip]
    exact h
  · rw [if_neg hskip]
    have henabled : cfg.PIPELINE_ENABLED = true := by
      by_contra hoff
      simp [hoff] at hskip
    dsimp only
    split_ifs
    · exact h.purge
    · apply h.place (hapart henabled)
      · intro f hf
        obtain ⟨i, hi, rfl⟩ := List.mem_map.mp hf
        have hkeep := List.of_mem_filter hi
        simp only [Bool.and_eq_true, Option.isNone_iff_eq_none] at hkeep
        exact hkeep.1
      · exact List.perm_append_comm

/-! ## The loop -/

theorem Sound.later (h : Sound cfg s) {now : ℤ} (hnow : s.now ≤ now) : Sound cfg { s with now } := by
  obtain ⟨⟨hnodup, hsize, hpast, hdone, hdue, honce⟩, hsingle, hruns, hrunning, hapart⟩ := h
  refine ⟨⟨hnodup, hsize, fun address t hcompleted => ?_, fun address t hcompleted => ?_,
    fun q hq t hcompleted => ?_, honce⟩, hsingle, hruns, hrunning, hapart⟩
  · exact Int.le_trans (hpast address t hcompleted) hnow
  · obtain hcached | hlong := hdone address t hcompleted
    · exact .inl hcached
    · exact .inr (Int.lt_of_lt_of_le hlong hnow)
  · exact Int.lt_of_lt_of_le (hdue q hq t hcompleted) hnow

/-- The only loop is the one that takes a step. -/
theorem Sound.loop (h : Sound cfg s) {i : ℕ} {l : LoopPhase} (hl : s.loops[i]? = some l) :
    i = 0 ∧ s.loops = [l] ∧ s.processing = true := by
  obtain ⟨hnil, -⟩ | ⟨l', hone, hprocessing⟩ := h.single
  · simp [hnil] at hl
  · rw [hone] at hl
    cases i with
    | zero =>
      obtain rfl : l' = l := by simpa using hl
      exact ⟨rfl, hone, hprocessing⟩
    | succ i => simp at hl

/-- The end of an analysis that has completed keeps its address out of the queue. -/
theorem Waiting.complete (h : Waiting cfg s) {address : String} (hout : ∀ q ∈ s.queue, q.address ≠ address)
    (loops : List LoopPhase) (results : KeyValue String ρ) :
    Waiting cfg
      { s with
        doneCache := s.doneCache.set address (s.now + cfg.ANALYSIS_TTL_MS)
        results
        loops
        log := .completed address s.now :: s.log } := by
  have hcases {address' : String} {t : ℤ}
      (hcompleted : AnalysisRecord.completed address' t ∈ AnalysisRecord.completed address s.now :: s.log) :
      address' = address ∧ t = s.now ∨ .completed address' t ∈ s.log := by
    obtain heq | hold := List.mem_cons.mp hcompleted
    · exact .inl (AnalysisRecord.completed.inj heq)
    · exact .inr hold
  refine ⟨h.nodup, h.size, fun address' t hcompleted => ?_, fun address' t hcompleted => ?_,
    fun q hq t hcompleted => ?_, h.once⟩
  · obtain ⟨-, rfl⟩ | hold := hcases hcompleted
    · exact Int.le_refl _
    · exact h.past address' t hold
  · have hpast : t ≤ s.now := by
      obtain ⟨-, rfl⟩ | hold := hcases hcompleted
      · exact Int.le_refl _
      · exact h.past address' t hold
    by_cases hsame : address' = address
    · subst hsame
      refine .inl ⟨_, KeyValue.get_set_self _ _ _, ?_⟩
      omega
    · obtain ⟨heq, -⟩ | hold := hcases hcompleted
      · exact absurd heq hsame
      · dsimp only
        rw [KeyValue.get_set_of_ne hsame]
        exact h.done address' t hold
  · obtain ⟨heq, -⟩ | hold := hcases hcompleted
    · exact absurd heq (hout q hq)
    · exact h.due q hq t hold

theorem Sound.complete (h : Sound cfg s) {i : ℕ} {item : QueueItem} (hl : s.loops[i]? = some (.analyzing item))
    (outcome : AnalysisOutcome ρ) : Sound cfg (s.complete cfg i item outcome) := by
  obtain ⟨rfl, hloops, hprocessing⟩ := h.loop hl
  have hprogress : s.inProgress = [item.address] := by simp [Pipeline.inProgress, hloops, LoopPhase.inProgress]
  have hout : ∀ q ∈ s.queue, q.address ≠ item.address := by
    intro q hq heq
    apply h.apart q hq
    rw [hprogress, heq]
    exact List.mem_cons_self
  have hset : s.loops.set 0 (.analyzed item) = [.analyzed item] := by simp [hloops]
  have hempty : (HotTokens.running s.log).erase item.address = [] := by simp [h.running, hprogress]
  have hidle (q : QueueItem) : q.address ∉ [LoopPhase.analyzed item].filterMap LoopPhase.inProgress := by
    simp [LoopPhase.inProgress]
  unfold Pipeline.complete
  dsimp only
  rw [hset]
  cases outcome with
  | threw =>
    refine ⟨⟨h.waiting.nodup, h.waiting.size, fun address t hcompleted => ?_, fun address t hcompleted => ?_,
      fun q hq t hcompleted => ?_, h.waiting.once⟩, .inr ⟨_, rfl, hprocessing⟩, h.runs, hempty, fun q _ => hidle q⟩
    · exact h.waiting.past address t (by simpa using hcompleted)
    · exact h.waiting.done address t (by simpa using hcompleted)
    · exact h.waiting.due q hq t (by simpa using hcompleted)
  | noVerdict =>
    exact ⟨h.waiting.complete hout _ _, .inr ⟨_, rfl, hprocessing⟩, h.runs, hempty, fun q _ => hidle q⟩
  | verdict result =>
    exact ⟨h.waiting.complete hout _ _, .inr ⟨_, rfl, hprocessing⟩, h.runs, hempty, fun q _ => hidle q⟩

/-- A loop that is not analysing goes on to the next item. -/
theorem Sound.turn (h : Sound cfg s) {i : ℕ} {l : LoopPhase} (hl : s.loops[i]? = some l) (hidle : l.inProgress = none) :
    Sound cfg (s.turn (s.loops.eraseIdx i)) := by
  obtain ⟨rfl, hloops, hprocessing⟩ := h.loop hl
  have hnone : HotTokens.running s.log = [] := by simp [h.running, Pipeline.inProgress, hloops, hidle]
  rw [hloops]
  exact h.waiting.turn hprocessing hnone

theorem Sound.stepAt {e : PipelineEvent ρ} (h : Sound cfg s) (hguard : QueuedOnce cfg s (s.now, e))
    (hstep : s.stepAt cfg e = some s') : Sound cfg s' := by
  cases e with
  | enqueue tokens =>
    obtain rfl := Option.some.inj hstep
    exact h.enqueue hguard
  | enqueueBatch items =>
    obtain rfl := Option.some.inj hstep
    exact h.enqueueBatch hguard
  | completes i outcome =>
    simp only [Pipeline.stepAt] at hstep
    split at hstep
    · rename_i item hl
      obtain rfl := Option.some.inj hstep
      exact h.complete hl outcome
    · cases hstep
  | continues i =>
    simp only [Pipeline.stepAt] at hstep
    split at hstep
    · rename_i item hl
      split_ifs at hstep with hmore
      · obtain rfl := Option.some.inj hstep
        obtain ⟨rfl, hloops, hprocessing⟩ := h.loop hl
        have hprogress : s.inProgress = [] := by simp [Pipeline.inProgress, hloops, LoopPhase.inProgress]
        have hrunning := h.running
        rw [hprogress] at hrunning
        refine ⟨⟨h.waiting.nodup, h.waiting.size, h.waiting.past, h.waiting.done, h.waiting.due, h.waiting.once⟩,
          .inr ⟨.sleeping, by simp [hloops], hprocessing⟩, h.runs, ?_, ?_⟩
        · simp [hrunning, Pipeline.inProgress, hloops, LoopPhase.inProgress]
        · intro q _
          simp [Pipeline.inProgress, hloops, LoopPhase.inProgress]
      · obtain rfl := Option.some.inj hstep
        exact h.turn hl rfl
    · cases hstep
  | wakes i =>
    simp only [Pipeline.stepAt] at hstep
    split at hstep
    · rename_i hl
      obtain rfl := Option.some.inj hstep
      exact h.turn hl rfl
    · cases hstep
  | destroy =>
    obtain rfl := Option.some.inj hstep
    exact ⟨⟨h.waiting.nodup, h.waiting.size, h.waiting.past, h.waiting.done, h.waiting.due, h.waiting.once⟩, h.single,
      fun _ hlive => Bool.noConfusion hlive, h.running, h.apart⟩

end Invariant

/-! ## Runs -/

section Runs
variable {ρ : Type} {cfg : PipelineConfig} {s : Pipeline ρ}

/-- The service with what it has read from the database. -/
def Pipeline.hydrated (now : ℤ) (doneCache : KeyValue String ℤ) (results : KeyValue String ρ) : Pipeline ρ :=
  { now, doneCache, results }

theorem Sound.initial (now : ℤ) (doneCache : KeyValue String ℤ) (results : KeyValue String ρ) :
    Sound cfg (.hydrated now doneCache results) where
  waiting := ⟨List.nodup_nil, Nat.zero_le _, fun _ _ hin => absurd hin List.not_mem_nil,
    fun _ _ hin => absurd hin List.not_mem_nil, fun _ hq => absurd hq List.not_mem_nil, trivial⟩
  single := .inl ⟨rfl, rfl⟩
  runs hne := absurd rfl hne
  running := rfl
  apart _ hq := absurd hq List.not_mem_nil

/-- In a run of any length in which no call queues an address twice or while it is analysed, each token is queued and
analysed once. -/
theorem pipeline_of_guardedRun {start : ℤ} {doneCache : KeyValue String ℤ} {results : KeyValue String ρ}
    {es : List (ℤ × PipelineEvent ρ)}
    (h : (signalPipeline ρ cfg).GuardedRun (QueuedOnce cfg) (.hydrated start doneCache results) es s) :
    PipelineLaw cfg s := by
  have hsound : Sound cfg s := by
    apply h.invariant _ (Sound.initial start doneCache results)
    intro t e t' hsound hguard hstep
    change (if e.1 < t.now then none else _) = some t' at hstep
    split_ifs at hstep with hback
    exact (hsound.later (Int.not_lt.mp hback)).stepAt hguard hstep
  exact hsound.law

end Runs

/-! ## Three histories -/

instance {ρ : Type} (s : Pipeline ρ) (fresh : List QueueItem) : Decidable (s.Apart fresh) :=
  inferInstanceAs (Decidable ((fresh.map QueueItem.address).Nodup ∧ ∀ f ∈ fresh, f.address ∉ s.inProgress))

instance {ρ : Type} (cfg : PipelineConfig) (s : Pipeline ρ) (e : ℤ × PipelineEvent ρ) :
    Decidable (QueuedOnce cfg s e) :=
  match e with
  | (now, .enqueue tokens) => inferInstanceAs
      (Decidable (cfg.PIPELINE_ENABLED = true → s.Apart ({ s with now }.freshTokens tokens)))
  | (now, .enqueueBatch items) => inferInstanceAs
      (Decidable (cfg.PIPELINE_ENABLED = true → s.Apart ({ s with now }.freshBatch items)))
  | (_, .completes _ _) => .isTrue trivial
  | (_, .continues _) => .isTrue trivial
  | (_, .wakes _) => .isTrue trivial
  | (_, .destroy) => .isTrue trivial

def batchOf (addresses : List String) : PipelineEvent Unit :=
  .enqueueBatch (addresses.map fun address => { address, symbol := address })

/-- Two tokens, one after the other. -/
def twoTokens : List (ℤ × PipelineEvent Unit) :=
  [(0, batchOf ["a", "b"]), (1, batchOf ["b"]), (5, .completes 0 .noVerdict), (5, .continues 0), (6, .wakes 0)]

theorem twoTokens_law : ∃ s, (signalPipeline Unit {}).run (.hydrated 0 [] []) twoTokens = some s ∧
    PipelineLaw {} s := by
  obtain ⟨s, hs⟩ := Option.isSome_iff_exists.mp
    (show ((signalPipeline Unit {}).guardedRun (QueuedOnce {}) (.hydrated 0 [] []) twoTokens).isSome = true by
      decide +kernel)
  have hguarded := StepSystem.GuardedRun.of_guardedRun hs
  exact ⟨s, hguarded.run, pipeline_of_guardedRun hguarded⟩

/-- A call with an address twice, while another is analysed. -/
def repeatedToken : List (ℤ × PipelineEvent Unit) := [(0, batchOf ["a"]), (1, batchOf ["b", "b"])]

/-- A token that is queued while it is analysed. -/
def requeuedToken : List (ℤ × PipelineEvent Unit) :=
  [(0, batchOf ["a"]), (1, batchOf ["a"]), (5, .completes 0 (.verdict ())), (5, .continues 0), (6, .wakes 0)]

/-- The queue holds an address twice, and an analysis starts a millisecond after one of its address has completed. -/
theorem pipeline_repeats :
    (¬ ∀ (cfg : PipelineConfig) (es : List (ℤ × PipelineEvent Unit)) (s : Pipeline Unit),
      (signalPipeline Unit cfg).run (.hydrated 0 [] []) es = some s → (s.queue.map QueueItem.address).Nodup) ∧
    ¬ ∀ (cfg : PipelineConfig) (es : List (ℤ × PipelineEvent Unit)) (s : Pipeline Unit),
      (signalPipeline Unit cfg).run (.hydrated 0 [] []) es = some s → OnceEach cfg.ANALYSIS_TTL_MS s.log := by
  constructor
  · intro h
    have hany : ((signalPipeline Unit {}).run (.hydrated 0 [] []) repeatedToken).any
        (fun s => decide (s.queue.map QueueItem.address = ["b", "b"])) = true := by decide +kernel
    obtain ⟨s, hs, hqueue⟩ := (Option.any_eq_true _ _).mp hany
    have hnodup := h {} repeatedToken s hs
    rw [of_decide_eq_true hqueue] at hnodup
    simp at hnodup
  · intro h
    have hany : ((signalPipeline Unit {}).run (.hydrated 0 [] []) requeuedToken).any (fun s => decide (s.log =
        [.started "a" 6, .completed "a" 5, .started "a" 0])) = true := by decide +kernel
    obtain ⟨s, hs, hlog⟩ := (Option.any_eq_true _ _).mp hany
    have honce := h {} requeuedToken s hs
    rw [of_decide_eq_true hlog] at honce
    have hlate : (600000 : ℤ) ≤ 6 - 5 := honce.1.2 5 (by simp)
    omega

end SuperAi.HotTokens
