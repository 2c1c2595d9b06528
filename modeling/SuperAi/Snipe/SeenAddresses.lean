import SuperAi.Foundations.KeyValue
import SuperAi.Foundations.Recency
import SuperAi.Foundations.StepSystem

/-! # Addresses seen before

`SnipeSessionService.isDuplicate` and the part of `cleanup` that prunes its map (`snipe/snipe-session.service.ts`). An
entry is forgotten by a cleanup five minutes later, or when `SEEN_MAX_ENTRIES` others have been recorded since; until
then it tells what `isDuplicate` answers (`seen_of_run`). The window of a config is at most those five minutes
(`snipe.dto.ts`).
-/
namespace SuperAi.Snipe
open SuperAi.Foundations
set_option autoImplicit false

def SEEN_MAX_ENTRIES : ℕ := 5000

def SEEN_TTL_MS : ℤ := 300000

def dedupeKey (userId address : String) : String := userId ++ ":" ++ address

/-- The map, in the order of its insertions. -/
abbrev SeenMap := KeyValue String ℤ

def isDuplicate (seen : SeenMap) (now : ℤ) (userId address : String) (windowMs : ℤ) : Bool × SeenMap :=
  let key := dedupeKey userId address
  if (KeyValue.get seen key).any fun last => now - last < windowMs then (true, seen)
  else
    let refreshed : SeenMap := KeyValue.del seen key ++ [(key, now)]
    (false, if SEEN_MAX_ENTRIES < refreshed.length then refreshed.tail else refreshed)

def cleanupSeen (seen : SeenMap) (now : ℤ) : SeenMap := seen.filter fun entry => !decide (SEEN_TTL_MS < now - entry.2)

/-! ## Runs -/

inductive SeenCall
  | isDuplicate (userId address : String) (windowMs : ℤ)
  | cleanup
  deriving DecidableEq, Repr

inductive SeenRecord
  | asked (userId address : String) (windowMs now : ℤ) (duplicate : Bool)
  | cleaned (now : ℤ)
  deriving DecidableEq, Repr

/-- The map, the time of the last call, and the calls so far, the last one first. -/
structure SeenState where
  seen : SeenMap := []
  now : ℤ
  log : List SeenRecord := []

/-- The clock does not go back. -/
def SeenState.step (s : SeenState) (e : ℤ × SeenCall) : Option SeenState :=
  if e.1 < s.now then none
  else
    match e.2 with
    | .isDuplicate userId address windowMs =>
      let (duplicate, seen) := Snipe.isDuplicate s.seen e.1 userId address windowMs
      some { seen, now := e.1, log := .asked userId address windowMs e.1 duplicate :: s.log }
    | .cleanup => some { seen := cleanupSeen s.seen e.1, now := e.1, log := .cleaned e.1 :: s.log }

def seenCalls : StepSystem SeenState (ℤ × SeenCall) := ⟨SeenState.step⟩

/-! ## What the calls have let through -/

/-- The key of a call that is let through. -/
def SeenRecord.passed : SeenRecord → Option String
  | .asked userId address _ _ false => some (dedupeKey userId address)
  | _ => none

/-- When a key was last let through. -/
def lastPassed (key : String) : List SeenRecord → Option ℤ
  | [] => none
  | .asked userId address _ now false :: log => if dedupeKey userId address = key then some now else lastPassed key log
  | _ :: log => lastPassed key log

/-- When an address was last let through for a user. -/
def lastSnipe (userId address : String) : List SeenRecord → Option ℤ
  | [] => none
  | .asked userId' address' _ now false :: log =>
    if userId' = userId ∧ address' = address then some now else lastSnipe userId address log
  | _ :: log => lastSnipe userId address log

def cleanupsSince (key : String) : List SeenRecord → List ℤ
  | [] => []
  | .asked userId address _ _ false :: log => if dedupeKey userId address = key then [] else cleanupsSince key log
  | .asked _ _ _ _ true :: log => cleanupsSince key log
  | .cleaned now :: log => now :: cleanupsSince key log

def othersPassed (key : String) (log : List SeenRecord) : List String :=
  touchedSince key (log.filterMap SeenRecord.passed)

/-- The entry of a key that was let through at `last` has not been forgotten. -/
structure Remembered (key : String) (log : List SeenRecord) (last : ℤ) : Prop where
  cleanups : ∀ c ∈ cleanupsSince key log, c - last ≤ SEEN_TTL_MS
  others : (othersPassed key log).toFinset.card < SEEN_MAX_ENTRIES

/-- Each answer is about the last time that the key was let through and is remembered; a window of no more than the
five minutes ends before a cleanup forgets. -/
def Answered : List SeenRecord → Prop
  | [] => True
  | .asked userId address windowMs now duplicate :: log =>
    ((duplicate = true ↔ ∃ last, lastPassed (dedupeKey userId address) log = some last ∧ now - last < windowMs ∧
        Remembered (dedupeKey userId address) log last) ∧
      ∀ last, lastSnipe userId address log = some last → now - last < windowMs → windowMs ≤ SEEN_TTL_MS →
        (othersPassed (dedupeKey userId address) log).toFinset.card < SEEN_MAX_ENTRIES → duplicate = true) ∧
    Answered log
  | .cleaned _ :: log => Answered log

/-! ## The invariant -/

/-- The entries of the map after the calls of a log. -/
structure SeenEntries (seen : SeenMap) (now : ℤ) (log : List SeenRecord) : Prop where
  recency : Recency (seen.map Prod.fst) (log.filterMap SeenRecord.passed)
  later : KeepsLater (seen.map Prod.fst) (log.filterMap SeenRecord.passed)
  sorted : seen.Pairwise fun a b => a.2 ≤ b.2
  past : ∀ e ∈ seen, e.2 ≤ now
  latest : ∀ e ∈ seen, lastPassed e.1 log = some e.2
  young : ∀ e ∈ seen, ∀ c ∈ cleanupsSince e.1 log, c - e.2 ≤ SEEN_TTL_MS
  kept : ∀ key last, lastPassed key log = some last → Remembered key log last → (key, last) ∈ seen

section Entries
variable {seen : SeenMap} {now t : ℤ} {log : List SeenRecord} {userId address : String} {windowMs : ℤ}

theorem map_refreshed (seen : SeenMap) (key : String) (now : ℤ) :
    (KeyValue.del seen key ++ [(key, now)]).map Prod.fst = (seen.map Prod.fst).filter (fun k => k ≠ key) ++ [key] := by
  rw [List.map_append, KeyValue.del, List.filter_map]
  simp [Function.comp_def, bne, beq_eq_decide]

theorem mem_del_iff {key : String} {e : String × ℤ} : e ∈ KeyValue.del seen key ↔ e ∈ seen ∧ e.1 ≠ key := by
  simp [KeyValue.del]

/-- The map tells when a key was last let through, if that is remembered. -/
theorem SeenEntries.get_iff (h : SeenEntries seen now log) (hsize : seen.length ≤ SEEN_MAX_ENTRIES) {key : String}
    {last : ℤ} : KeyValue.get seen key = some last ↔ lastPassed key log = some last ∧ Remembered key log last := by
  rw [KeyValue.get_eq_some_iff h.recency.nodup]
  constructor
  · intro hmem
    have hfew := h.later.card_lt (List.mem_map_of_mem (f := Prod.fst) hmem)
    rw [List.length_map] at hfew
    exact ⟨h.latest _ hmem, h.young _ hmem, Nat.lt_of_lt_of_le hfew hsize⟩
  · rintro ⟨hlast, hremembered⟩
    exact h.kept key last hlast hremembered

/-- A call that is let through, before it makes room. -/
theorem SeenEntries.pass (h : SeenEntries seen now log) (hnow : now ≤ t) (userId address : String) (windowMs : ℤ) :
    SeenEntries (KeyValue.del seen (dedupeKey userId address) ++ [(dedupeKey userId address, t)]) t
      (.asked userId address windowMs t false :: log) where
  recency := by
    rw [map_refreshed]
    exact h.recency.touch _
  later := by
    rw [map_refreshed]
    exact h.later.touch _
  sorted := by
    rw [List.pairwise_append]
    refine ⟨h.sorted.sublist List.filter_sublist, List.pairwise_singleton _ _, ?_⟩
    intro a ha b hb
    obtain rfl := List.mem_singleton.mp hb
    have hpast := h.past a (mem_del_iff.mp ha).1
    dsimp only
    omega
  past e he := by
    obtain he | he := List.mem_append.mp he
    · have hpast := h.past e (mem_del_iff.mp he).1
      omega
    · obtain rfl := List.mem_singleton.mp he
      exact Int.le_refl _
  latest e he := by
    obtain he | he := List.mem_append.mp he
    · obtain ⟨hmem, hne⟩ := mem_del_iff.mp he
      rw [lastPassed, if_neg hne.symm]
      exact h.latest e hmem
    · obtain rfl := List.mem_singleton.mp he
      simp [lastPassed]
  young e he := by
    obtain he | he := List.mem_append.mp he
    · obtain ⟨hmem, hne⟩ := mem_del_iff.mp he
      rw [cleanupsSince, if_neg hne.symm]
      exact h.young e hmem
    · obtain rfl := List.mem_singleton.mp he
      simp [cleanupsSince]
  kept key last hlast hremembered := by
    apply List.mem_append.mpr
    by_cases hkey : dedupeKey userId address = key
    · rw [lastPassed, if_pos hkey] at hlast
      obtain rfl := Option.some.inj hlast
      rw [hkey]
      exact .inr List.mem_cons_self
    · left
      rw [lastPassed, if_neg hkey] at hlast
      have hcleanups := hremembered.cleanups
      rw [cleanupsSince, if_neg hkey] at hcleanups
      have hfew := Nat.lt_of_le_of_lt (card_touchedSince_le _ key hkey (log.filterMap SeenRecord.passed))
        hremembered.others
      exact mem_del_iff.mpr ⟨h.kept key last hlast ⟨hcleanups, hfew⟩, Ne.symm hkey⟩

/-- The oldest entry of too many is forgotten. -/
theorem SeenEntries.evict (h : SeenEntries seen now log) (hfull : SEEN_MAX_ENTRIES < seen.length) :
    SeenEntries seen.tail now log where
  recency := by
    rw [List.map_tail]
    exact h.recency.sublist (List.tail_sublist _)
  later := by
    rw [List.map_tail]
    exact h.later.tail h.recency
  sorted := h.sorted.sublist (List.tail_sublist _)
  past e he := h.past e (List.mem_of_mem_tail he)
  latest e he := h.latest e (List.mem_of_mem_tail he)
  young e he := h.young e (List.mem_of_mem_tail he)
  kept key last hlast hremembered := by
    have hmem := h.kept key last hlast hremembered
    obtain ⟨first, rest, rfl⟩ := List.exists_cons_of_length_pos (Nat.zero_lt_of_lt hfull)
    obtain rfl | hrest := List.mem_cons.mp hmem
    · have hcard : rest.length ≤ (othersPassed key log).toFinset.card := by
        simpa [othersPassed] using h.recency.card_of_first
      rw [List.length_cons] at hfull
      exact absurd hremembered.others (by omega)
    · exact hrest

/-- A cleanup forgets the oldest entries, and what is behind an entry stays with it. -/
theorem SeenEntries.cleanup (h : SeenEntries seen now log) (hnow : now ≤ t) :
    SeenEntries (cleanupSeen seen t) t (.cleaned t :: log) where
  recency := h.recency.sublist (List.filter_sublist.map _)
  later := by
    intro k hk k' hk'
    obtain ⟨e, he, rfl⟩ := List.mem_map.mp hk
    obtain ⟨hmem, hyoung⟩ := List.mem_filter.mp he
    obtain ⟨o, ho, rfl⟩ := List.mem_map.mp (h.later e.1 (List.mem_map_of_mem hmem) k' hk')
    have hle : e.2 ≤ o.2 := h.recency.rel h.sorted hmem ho hk'
    apply List.mem_map_of_mem
    apply List.mem_filter.mpr
    refine ⟨ho, ?_⟩
    simp only [Bool.not_eq_true', decide_eq_false_iff_not] at hyoung ⊢
    omega
  sorted := h.sorted.sublist List.filter_sublist
  past e he := Int.le_trans (h.past e (List.mem_of_mem_filter he)) hnow
  latest e he := h.latest e (List.mem_of_mem_filter he)
  young e he c hc := by
    obtain ⟨hmem, hyoung⟩ := List.mem_filter.mp he
    obtain rfl | hc := List.mem_cons.mp hc
    · simp only [Bool.not_eq_true', decide_eq_false_iff_not] at hyoung
      omega
    · exact h.young e hmem c hc
  kept key last hlast hremembered := by
    have hcleanups := hremembered.cleanups
    rw [cleanupsSince, List.forall_mem_cons] at hcleanups
    obtain ⟨hthis, hbefore⟩ := hcleanups
    apply List.mem_filter.mpr
    refine ⟨h.kept key last hlast ⟨hbefore, hremembered.others⟩, ?_⟩
    simp only [Bool.not_eq_true', decide_eq_false_iff_not]
    omega

end Entries

/-! ## The times of a log -/

/-- All is in the past, and what was let through last for a key is no older than for an address of that key. -/
structure LogTimes (now : ℤ) (log : List SeenRecord) : Prop where
  passed : ∀ key last, lastPassed key log = some last → last ≤ now
  cleaned : ∀ key, ∀ c ∈ cleanupsSince key log, c ≤ now
  snipes : ∀ userId address last, lastSnipe userId address log = some last →
    ∃ latest, lastPassed (dedupeKey userId address) log = some latest ∧ last ≤ latest

section Times
variable {now t : ℤ} {log : List SeenRecord}

theorem LogTimes.pass (h : LogTimes now log) (hnow : now ≤ t) (userId address : String) (windowMs : ℤ) :
    LogTimes t (.asked userId address windowMs t false :: log) where
  passed key last hlast := by
    by_cases hkey : dedupeKey userId address = key
    · rw [lastPassed, if_pos hkey] at hlast
      exact Int.le_of_eq (Option.some.inj hlast).symm
    · rw [lastPassed, if_neg hkey] at hlast
      exact Int.le_trans (h.passed key last hlast) hnow
  cleaned key c hc := by
    by_cases hkey : dedupeKey userId address = key
    · rw [cleanupsSince, if_pos hkey] at hc
      exact absurd hc List.not_mem_nil
    · rw [cleanupsSince, if_neg hkey] at hc
      exact Int.le_trans (h.cleaned key c hc) hnow
  snipes userId' address' last hlast := by
    by_cases hpair : userId = userId' ∧ address = address'
    · rw [lastSnipe, if_pos hpair] at hlast
      obtain ⟨rfl, rfl⟩ := hpair
      exact ⟨t, by simp [lastPassed], Int.le_of_eq (Option.some.inj hlast).symm⟩
    · rw [lastSnipe, if_neg hpair] at hlast
      obtain ⟨latest, hlatest, hle⟩ := h.snipes userId' address' last hlast
      by_cases hkey : dedupeKey userId address = dedupeKey userId' address'
      · have hpast := h.passed _ latest hlatest
        exact ⟨t, by rw [lastPassed, if_pos hkey], by omega⟩
      · exact ⟨latest, by rwa [lastPassed, if_neg hkey], hle⟩

theorem LogTimes.later (h : LogTimes now log) (hnow : now ≤ t) : LogTimes t log where
  passed key last hlast := Int.le_trans (h.passed key last hlast) hnow
  cleaned key c hc := Int.le_trans (h.cleaned key c hc) hnow
  snipes := h.snipes

theorem LogTimes.clean (h : LogTimes now log) (hnow : now ≤ t) : LogTimes t (.cleaned t :: log) where
  passed := (h.later hnow).passed
  cleaned key c hc := by
    obtain rfl | hc := List.mem_cons.mp hc
    · exact Int.le_refl _
    · exact (h.later hnow).cleaned key c hc
  snipes := h.snipes

end Times

/-! ## Every run -/

structure SeenKept (s : SeenState) : Prop where
  size : s.seen.length ≤ SEEN_MAX_ENTRIES
  entries : SeenEntries s.seen s.now s.log
  times : LogTimes s.now s.log
  answered : Answered s.log

section Runs
variable {s s' : SeenState}

/-- What an address was let through for less than a window ago is in the map, if it has not made room. -/
theorem SeenKept.remembers (h : SeenKept s) {userId address : String} {t last windowMs : ℤ} (hnow : s.now ≤ t)
    (hlast : lastSnipe userId address s.log = some last) (hwindow : t - last < windowMs)
    (hshort : windowMs ≤ SEEN_TTL_MS)
    (hfew : (othersPassed (dedupeKey userId address) s.log).toFinset.card < SEEN_MAX_ENTRIES) :
    ∃ latest, KeyValue.get s.seen (dedupeKey userId address) = some latest ∧ t - latest < windowMs := by
  obtain ⟨latest, hlatest, hle⟩ := h.times.snipes userId address last hlast
  refine ⟨latest, (h.entries.get_iff h.size).mpr ⟨hlatest, ?_, hfew⟩, by omega⟩
  intro c hc
  have hpast := h.times.cleaned _ c hc
  omega

theorem SeenKept.ask (h : SeenKept s) {t : ℤ} (hnow : s.now ≤ t) (userId address : String) (windowMs : ℤ) :
    SeenKept
      { seen := (isDuplicate s.seen t userId address windowMs).2
        now := t
        log := .asked userId address windowMs t (isDuplicate s.seen t userId address windowMs).1 :: s.log } := by
  have hanswer (duplicate : Bool) (hduplicate : duplicate = true ↔
      ∃ last, KeyValue.get s.seen (dedupeKey userId address) = some last ∧ t - last < windowMs) :
      Answered (.asked userId address windowMs t duplicate :: s.log) := by
    refine ⟨⟨?_, ?_⟩, h.answered⟩
    · rw [hduplicate]
      apply exists_congr
      intro last
      rw [h.entries.get_iff h.size]
      tauto
    · intro last hlast hwindow hshort hfew
      exact hduplicate.mpr (h.remembers hnow hlast hwindow hshort hfew)
  unfold isDuplicate
  dsimp only
  by_cases hseen : (KeyValue.get s.seen (dedupeKey userId address)).any fun last => t - last < windowMs
  · have hfound : ∃ last, KeyValue.get s.seen (dedupeKey userId address) = some last ∧ t - last < windowMs := by
      simpa [Option.any_eq_true] using hseen
    rw [if_pos hseen]
    -- nothing is recorded, so that the log tells of the same entries
    exact
      { size := h.size
        entries :=
          { h.entries with
            past := fun e he => Int.le_trans (h.entries.past e he) hnow
            kept := fun key last hlast hremembered =>
              h.entries.kept key last hlast ⟨hremembered.cleanups, hremembered.others⟩ }
        times := ⟨(h.times.later hnow).passed, (h.times.later hnow).cleaned, h.times.snipes⟩
        answered := hanswer true (iff_of_true rfl hfound) }
  · have hnone : ¬ ∃ last, KeyValue.get s.seen (dedupeKey userId address) = some last ∧ t - last < windowMs := by
      simpa [Option.any_eq_true] using hseen
    have hpass := h.entries.pass hnow userId address windowMs
    have hanswered := hanswer false (iff_of_false Bool.false_ne_true hnone)
    have htimes := h.times.pass hnow userId address windowMs
    rw [if_neg hseen]
    dsimp only
    split_ifs with hfull
    · refine ⟨?_, hpass.evict hfull, htimes, hanswered⟩
      have hsize := h.size
      have hdel : (KeyValue.del s.seen (dedupeKey userId address)).length ≤ s.seen.length := List.length_filter_le _ _
      change (KeyValue.del s.seen (dedupeKey userId address) ++ [(dedupeKey userId address, t)]).tail.length ≤ _
      rw [List.length_tail, List.length_append, List.length_singleton]
      omega
    · exact ⟨Nat.not_lt.mp hfull, hpass, htimes, hanswered⟩

theorem SeenKept.step (h : SeenKept s) {e : ℤ × SeenCall} (hstep : s.step e = some s') : SeenKept s' := by
  unfold SeenState.step at hstep
  split_ifs at hstep with hback
  have hnow : s.now ≤ e.1 := Int.not_lt.mp hback
  obtain ⟨t, call⟩ := e
  cases call with
  | isDuplicate userId address windowMs =>
    obtain rfl := Option.some.inj hstep
    exact h.ask hnow userId address windowMs
  | cleanup =>
    obtain rfl := Option.some.inj hstep
    exact ⟨Nat.le_trans (List.length_filter_le _ _) h.size, h.entries.cleanup hnow, h.times.clean hnow, h.answered⟩

theorem SeenKept.initial (now : ℤ) : SeenKept { now } where
  size := Nat.zero_le _
  entries :=
    { recency := .nil _
      later := fun _ hk => absurd hk List.not_mem_nil
      sorted := List.Pairwise.nil
      past := fun _ he => absurd he List.not_mem_nil
      latest := fun _ he => absurd he List.not_mem_nil
      young := fun _ he => absurd he List.not_mem_nil
      kept := fun _ _ hlast => absurd hlast (Option.some_ne_none _).symm }
  times := ⟨fun _ _ hlast => absurd hlast (Option.some_ne_none _).symm, fun _ _ hc => absurd hc List.not_mem_nil,
    fun _ _ _ hlast => absurd hlast (Option.some_ne_none _).symm⟩
  answered := trivial

/-- In a run of any length each answer is that the text of the user and the address was let through less than the window
ago and is remembered, and within the window of a config it is, until `SEEN_MAX_ENTRIES` others have been. -/
theorem seen_of_run {start : ℤ} {es : List (ℤ × SeenCall)} (hrun : seenCalls.run { now := start } es = some s) :
    Answered s.log := by
  have hkept : SeenKept s :=
    (StepSystem.GuardedRun.of_run hrun).invariant (fun _ _ _ h _ hstep => h.step hstep) (.initial start)
  exact hkept.answered

end Runs

/-! ## Two histories -/

/-- Once within the window, and once after it. -/
def repeatedAddress : List (ℤ × SeenCall) :=
  [(0, .isDuplicate "ann" "Mint1" 30000), (1000, .isDuplicate "ann" "Mint1" 30000), (30000, .cleanup),
    (60000, .isDuplicate "ann" "Mint1" 30000)]

theorem repeatedAddress_answered : ∃ s, seenCalls.run { now := 0 } repeatedAddress = some s ∧ Answered s.log := by
  obtain ⟨s, hs⟩ := Option.isSome_iff_exists.mp
    (show (seenCalls.run { now := 0 } repeatedAddress).isSome = true by decide +kernel)
  exact ⟨s, hs, seen_of_run hs⟩

/-- A window of ten minutes, and a cleanup after five. -/
def longWindow : List (ℤ × SeenCall) :=
  [(0, .isDuplicate "ann" "Mint1" 600000), (300001, .cleanup), (300002, .isDuplicate "ann" "Mint1" 600000)]

/-- The second call lets the address through, five minutes after the first. -/
theorem longWindow_passes : ¬ ∀ (start : ℤ) (es : List (ℤ × SeenCall)) (s : SeenState) (userId address : String)
    (windowMs now : ℤ) (duplicate : Bool) (log : List SeenRecord), seenCalls.run { now := start } es = some s →
    s.log = .asked userId address windowMs now duplicate :: log →
    (duplicate = true ↔ ∃ last, lastSnipe userId address log = some last ∧ now - last < windowMs) := by
  intro h
  have hany : (seenCalls.run { now := 0 } longWindow).any (fun s => decide (s.log =
      [.asked "ann" "Mint1" 600000 300002 false, .cleaned 300001, .asked "ann" "Mint1" 600000 0 false])) = true := by
    decide +kernel
  obtain ⟨s, hs, hlog⟩ := (Option.any_eq_true _ _).mp hany
  have hduplicate := (h 0 longWindow s _ _ _ _ _ _ hs (of_decide_eq_true hlog)).mpr
    ⟨0, by simp [lastSnipe], by decide⟩
  cases hduplicate

end SuperAi.Snipe
