import SuperAi.Foundations.InTurn
import SuperAi.Foundations.SlidingWindow
import SuperAi.Foundations.StepSystem
import Mathlib.Data.List.Nodup
import Mathlib.Data.List.Perm.Subperm

/-! # The rate limiter

`RateLimiter.check` (`rate-limit/rate.limiter.ts`) for one key: any number of calls, one Redis command
after another, on a sorted set with a time to live. A call is let through by the number of entries that
it finds, and enters itself later. The limit holds in every window of a run in which each call that is
let through finds the entries of all calls of its window that were let through before it
(`allowed_bounded`), as calls that do not overlap do (`entriesSeen_of_inTurn`). Times are in milliseconds;
log lines are left out.
-/
namespace SuperAi.RateLimit
open SuperAi.Foundations
set_option autoImplicit false

/-! ## Sorted sets -/

/-- The entries under the key, a member with its score each, and when the key expires. -/
structure SortedSet where
  entries : List (ℕ × ℤ) := []
  expiresAt : Option ℤ := none
  deriving DecidableEq, Repr

namespace SortedSet

/-- A key that has expired, or has no entries left, is gone. -/
def live (set : SortedSet) (now : ℤ) : SortedSet :=
  if set.entries = [] ∨ set.expiresAt.any (fun till => decide (till ≤ now)) then {} else set

def zremrangebyscore (set : SortedSet) (now least most : ℤ) : SortedSet :=
  let set := set.live now
  { set with entries := set.entries.filter fun entry => !(decide (least ≤ entry.2) && decide (entry.2 ≤ most)) }

def zcard (set : SortedSet) (now : ℤ) : ℕ := (set.live now).entries.length

/-- Members are unique, so that each one is added. -/
def zadd (set : SortedSet) (now score : ℤ) (member : ℕ) : SortedSet :=
  let set := set.live now
  { set with entries := set.entries ++ [(member, score)] }

def expire (set : SortedSet) (now : ℤ) (seconds : ℤ) : SortedSet :=
  let set := set.live now
  if set.entries = [] then set else { set with expiresAt := some (now + seconds * 1000) }

end SortedSet

/-! ## Calls -/

structure RateLimitResult where
  allowed : Bool
  remaining : ℕ
  resetAt : ℤ
  deriving DecidableEq, Repr

/-- What a call does next. -/
inductive CheckPhase
  | pruning
  | counting
  | adding (currentCount : ℕ)
  | expiring (currentCount : ℕ)
  | returned (result : RateLimitResult)
  deriving DecidableEq, Repr

/-- A call with the time that it took when it started. -/
structure CheckCall where
  timestamp : ℤ
  phase : CheckPhase
  deriving DecidableEq, Repr

structure LimiterState where
  now : ℤ := 0
  set : SortedSet := {}
  calls : List CheckCall := []

inductive LimiterEvent
  | wait (ms : ℕ)
  | check
  | advance (call : ℕ)
  deriving DecidableEq, Repr

namespace CheckCall
variable (limit : ℕ) (windowMs : ℤ)

/-- One command of the call with this member. -/
def advance (now : ℤ) (set : SortedSet) (member : ℕ) (call : CheckCall) : Option (SortedSet × CheckPhase) :=
  let resetAt := call.timestamp + windowMs
  match call.phase with
  | .pruning => some (set.zremrangebyscore now 0 (call.timestamp - windowMs), .counting)
  | .counting =>
    let currentCount := set.zcard now
    some (set, if limit ≤ currentCount then .returned ⟨false, 0, resetAt⟩ else .adding currentCount)
  | .adding currentCount => some (set.zadd now call.timestamp member, .expiring currentCount)
  | .expiring currentCount =>
    let ttlSeconds := (windowMs + 999) / 1000
    some (set.expire now ttlSeconds, .returned ⟨true, limit - currentCount - 1, resetAt⟩)
  | .returned _ => none

/-- The call has returned that it is allowed. -/
def allowed (call : CheckCall) : Bool :=
  match call.phase with
  | .returned result => result.allowed
  | _ => false

/-- The call has found room: it is going to be allowed, or has been. -/
def letThrough (call : CheckCall) : Bool :=
  match call.phase with
  | .pruning | .counting => false
  | .adding _ | .expiring _ => true
  | .returned result => result.allowed

end CheckCall

def limiterRuns (limit : ℕ) (windowMs : ℤ) : StepSystem LimiterState LimiterEvent where
  step s
    | .wait ms => some { s with now := s.now + ms }
    | .check => some { s with calls := s.calls ++ [⟨s.now, .pruning⟩] }
    | .advance i =>
      (s.calls[i]?).bind fun call =>
        (call.advance limit windowMs s.now s.set i).map fun (set, phase) =>
          { s with set, calls := s.calls.set i { call with phase } }

/-- The timestamps of the calls that were allowed. -/
def LimiterState.allowedAt (s : LimiterState) : List ℤ := (s.calls.filter CheckCall.allowed).map CheckCall.timestamp

/-- A call that finds room finds the entries of all calls let through before whose timestamps are less
than a window away from its own. -/
def SeesWindow (limit : ℕ) (windowMs : ℤ) (s : LimiterState) (call : CheckCall) : Prop :=
  call.phase = .counting → s.set.zcard s.now < limit →
    ∀ entry ∈ s.calls.zipIdx, entry.1.letThrough = true →
      entry.1.timestamp - call.timestamp < windowMs → call.timestamp - entry.1.timestamp < windowMs →
        (entry.2, entry.1.timestamp) ∈ (s.set.live s.now).entries

instance (limit : ℕ) (windowMs : ℤ) (s : LimiterState) (call : CheckCall) :
    Decidable (SeesWindow limit windowMs s call) :=
  inferInstanceAs (Decidable (_ → _ → _))

def EntriesSeen (limit : ℕ) (windowMs : ℤ) (s : LimiterState) : LimiterEvent → Prop
  | .advance i => ∀ call ∈ s.calls[i]?, SeesWindow limit windowMs s call
  | _ => True

instance (limit : ℕ) (windowMs : ℤ) (s : LimiterState) :
    (e : LimiterEvent) → Decidable (EntriesSeen limit windowMs s e)
  | .advance i => inferInstanceAs (Decidable (∀ call ∈ s.calls[i]?, SeesWindow limit windowMs s call))
  | .wait _ | .check => isTrue trivial

/-! ## Calls of a window -/

section
variable {limit : ℕ} {windowMs : ℤ} {s t : LimiterState}

/-- The call is let through, and its timestamp is in the window from `start` on. -/
def inWindow (windowMs start : ℤ) (call : CheckCall) : Bool :=
  call.letThrough && (decide (start ≤ call.timestamp) && decide (call.timestamp < start + windowMs))

theorem hitsIn_allowedAt_le (s : LimiterState) (start : ℤ) :
    SlidingWindow.hitsIn windowMs s.allowedAt start ≤ s.calls.countP (inWindow windowMs start) := by
  unfold SlidingWindow.hitsIn LimiterState.allowedAt
  rw [List.countP_map, List.countP_filter]
  refine List.countP_mono_left fun call _ hcall => ?_
  unfold inWindow CheckCall.letThrough
  unfold CheckCall.allowed at hcall
  cases hphase : call.phase <;> simp_all

/-- Calls that have an entry each are no more than the entries. -/
theorem countP_le_entries {calls : List CheckCall} {entries : List (ℕ × ℤ)} (p : CheckCall → Bool)
    (h : ∀ entry ∈ calls.zipIdx, p entry.1 = true → (entry.2, entry.1.timestamp) ∈ entries) :
    calls.countP p ≤ entries.length := by
  have hindices : ((calls.zipIdx.filter fun entry => p entry.1).map Prod.snd).Nodup := by
    refine List.Nodup.sublist (List.filter_sublist.map Prod.snd) ?_
    rw [List.zipIdx_map_snd]
    exact List.nodup_range'
  have hkeys : ((calls.zipIdx.filter fun entry => p entry.1).map fun entry =>
      (entry.2, entry.1.timestamp)).Nodup := by
    apply List.Nodup.of_map Prod.fst
    rwa [List.map_map]
  have hsubset : ((calls.zipIdx.filter fun entry => p entry.1).map fun entry =>
      (entry.2, entry.1.timestamp)) ⊆ entries := by
    intro key hkey
    obtain ⟨entry, hentry, rfl⟩ := List.mem_map.mp hkey
    obtain ⟨hmem, hp⟩ := List.mem_filter.mp hentry
    exact h entry hmem hp
  have hcount : calls.countP p = (calls.zipIdx.filter fun entry => p entry.1).length := by
    rw [← List.countP_eq_length_filter]
    conv_lhs => rw [← List.zipIdx_map_fst 0 calls]
    rw [List.countP_map]
    rfl
  have hle := (List.subperm_of_subset hkeys hsubset).length_le
  rwa [List.length_map, ← hcount] at hle

/-! ## One command -/

theorem CheckCall.advance_letThrough {set set' : SortedSet} {now : ℤ} {member : ℕ} {call : CheckCall}
    {phase : CheckPhase} (h : call.advance limit windowMs now set member = some (set', phase)) :
    (CheckCall.letThrough { call with phase } = call.letThrough) ∨
      (call.phase = .counting ∧ set.zcard now < limit) := by
  unfold CheckCall.advance at h
  cases hphase : call.phase with
  | pruning =>
    simp only [hphase] at h
    obtain ⟨-, rfl⟩ := Prod.mk.inj (Option.some.inj h)
    exact .inl (by simp [letThrough, hphase])
  | counting =>
    simp only [hphase] at h
    obtain ⟨-, rfl⟩ := Prod.mk.inj (Option.some.inj h)
    by_cases hroom : limit ≤ set.zcard now
    · exact .inl (by simp [letThrough, hphase, hroom])
    · exact .inr ⟨rfl, not_le.mp hroom⟩
  | adding currentCount =>
    simp only [hphase] at h
    obtain ⟨-, rfl⟩ := Prod.mk.inj (Option.some.inj h)
    exact .inl (by simp [letThrough, hphase])
  | expiring currentCount =>
    simp only [hphase] at h
    obtain ⟨-, rfl⟩ := Prod.mk.inj (Option.some.inj h)
    exact .inl (by simp [letThrough, hphase])
  | returned result => simp [hphase] at h

/-- In every window at most `limit` calls are let through. -/
def Limited (limit : ℕ) (windowMs : ℤ) (s : LimiterState) : Prop :=
  ∀ start, s.calls.countP (inWindow windowMs start) ≤ limit

theorem step_limited (s : LimiterState) (e : LimiterEvent) (t : LimiterState) (h : Limited limit windowMs s)
    (hseen : EntriesSeen limit windowMs s e) (hstep : (limiterRuns limit windowMs).step s e = some t) :
    Limited limit windowMs t := by
  intro start
  cases e with
  | wait ms =>
    obtain rfl := Option.some.inj hstep
    exact h start
  | check =>
    obtain rfl := Option.some.inj hstep
    have hnew : inWindow windowMs start ⟨s.now, .pruning⟩ = false := rfl
    simpa [List.countP_append, hnew] using h start
  | advance i =>
    obtain ⟨call, hcall, hbind⟩ := Option.bind_eq_some_iff.mp hstep
    obtain ⟨⟨set, phase⟩, hadvance, rfl⟩ := Option.map_eq_some_iff.mp hbind
    have hcount := countP_set_eq (inWindow windowMs start) hcall { call with phase }
    dsimp only
    obtain hsame | ⟨hcounting, hroom⟩ := CheckCall.advance_letThrough hadvance
    · have hwindow : inWindow windowMs start { call with phase } = inWindow windowMs start call := by
        simp only [inWindow, hsame]
      rw [countP_set_of_eq _ hcall hwindow]
      exact h start
    · by_cases hin : start ≤ call.timestamp ∧ call.timestamp < start + windowMs
      · -- All calls of the window have their entries in the set, which is not full.
        have hentries : s.calls.countP (inWindow windowMs start) ≤ (s.set.live s.now).entries.length := by
          refine countP_le_entries _ fun entry hentry hwindow => ?_
          unfold inWindow at hwindow
          simp only [Bool.and_eq_true, decide_eq_true_eq] at hwindow
          exact hseen call hcall hcounting hroom entry hentry hwindow.1 (by omega) (by omega)
        have hbelow : s.calls.countP (inWindow windowMs start) < limit := lt_of_le_of_lt hentries hroom
        by_cases hnew : inWindow windowMs start { call with phase } = true
        · rw [if_pos hnew] at hcount
          omega
        · rw [if_neg hnew] at hcount
          omega
      · have hout : inWindow windowMs start { call with phase } = false := by
          unfold inWindow
          simp only [Bool.and_eq_false_iff, decide_eq_false_iff_not]
          exact .inr (not_and_or.mp hin)
        rw [hout] at hcount
        have hbefore := h start
        simp only [Bool.false_eq_true, if_false, Nat.add_zero] at hcount
        omega

/-- **Rate limit.** If every call that is let through finds the entries of the calls of its window that were let
through before it, no more than `limit` calls are allowed in any window. -/
theorem allowed_bounded {start : LimiterState} (hstart : start.calls = []) {es : List LimiterEvent}
    (h : (limiterRuns limit windowMs).GuardedRun (EntriesSeen limit windowMs) start es t) (windowStart : ℤ) :
    SlidingWindow.hitsIn windowMs t.allowedAt windowStart ≤ limit := by
  have hfirst : Limited limit windowMs start := by
    intro windowStart
    rw [hstart]
    exact Nat.zero_le limit
  exact le_trans (hitsIn_allowedAt_le t windowStart) (h.invariant step_limited hfirst windowStart)

/-! ## Calls that do not overlap -/

def CheckCall.running (call : CheckCall) : Bool :=
  match call.phase with
  | .returned _ => false
  | _ => true

/-- The call has entered itself. -/
def CheckCall.entered (call : CheckCall) : Bool :=
  match call.phase with
  | .expiring _ => true
  | .returned result => result.allowed
  | _ => false

/-- Time passes and calls start only when every call has returned. -/
def ChecksInTurn (s : LimiterState) : LimiterEvent → Prop
  | .advance _ => True
  | .wait _ | .check => ∀ call ∈ s.calls, call.running = false

namespace SortedSet
variable {set : SortedSet} {now : ℤ} {entry : ℕ × ℤ}

theorem live_eq_self (hmem : entry ∈ set.entries) (hlasts : ∀ till ∈ set.expiresAt, now < till) :
    set.live now = set := by
  refine if_neg ?_
  rintro (hnil | hexpired)
  · simp [hnil] at hmem
  · obtain ⟨till, htill, hle⟩ := (Option.any_eq_true _ _).mp hexpired
    have hlater := hlasts till htill
    have hle := of_decide_eq_true hle
    omega

/-- An entry that is found shows that the key has not expired. -/
theorem of_mem_live (h : entry ∈ (set.live now).entries) : set.live now = set ∧ entry ∈ set.entries := by
  unfold live at h ⊢
  by_cases hgone : set.entries = [] ∨ set.expiresAt.any (fun till => decide (till ≤ now)) = true
  · simp [hgone] at h
  · rw [if_neg hgone] at h ⊢
    exact ⟨rfl, h⟩

theorem lt_of_mem_live {till : ℤ} (h : till ∈ (set.live now).expiresAt) : till ∈ set.expiresAt ∧ now < till := by
  unfold live at h
  by_cases hgone : set.entries = [] ∨ set.expiresAt.any (fun till => decide (till ≤ now)) = true
  · simp [hgone] at h
  · rw [if_neg hgone] at h
    refine ⟨h, ?_⟩
    by_contra hended
    exact (not_or.mp hgone).2 ((Option.any_eq_true _ _).mpr ⟨till, h, decide_eq_true (by omega)⟩)

theorem mem_live_of_same {entries : List (ℕ × ℤ)} (hmem : entry ∈ entries) :
    entry ∈ (live ⟨entries, (set.live now).expiresAt⟩ now).entries := by
  have hlive : live ⟨entries, (set.live now).expiresAt⟩ now = ⟨entries, (set.live now).expiresAt⟩ :=
    live_eq_self hmem fun till htill => (lt_of_mem_live htill).2
  rwa [hlive]

end SortedSet

/-- What a command of a call does to the set, at the time of the call's timestamp. -/
structure Kept (windowMs now : ℤ) (set set' : SortedSet) (member : ℕ) (call next : CheckCall) : Prop where
  young : ∀ entry ∈ (set.live now).entries, now < entry.2 + windowMs → entry ∈ (set'.live now).entries
  entered : next.entered = true → call.entered = true ∨ (member, now) ∈ (set'.live now).entries
  expiresAt : ∀ till ∈ set'.expiresAt, till ∈ set.expiresAt ∨ now + windowMs ≤ till
  allowed : next.allowed = true → ∀ till ∈ set'.expiresAt, now + windowMs ≤ till

theorem CheckCall.running_of_advance {set : SortedSet} {now : ℤ} {member : ℕ} {call : CheckCall}
    {next : SortedSet × CheckPhase} (h : call.advance limit windowMs now set member = some next) :
    call.running = true := by
  unfold running
  cases hphase : call.phase with
  | returned result => simp [advance, hphase] at h
  | _ => rfl

theorem CheckCall.advance_kept (hwindow : 0 < windowMs) {set set' : SortedSet} {now : ℤ} {member : ℕ}
    {call : CheckCall} {phase : CheckPhase} (htime : call.timestamp = now)
    (h : call.advance limit windowMs now set member = some (set', phase)) :
    Kept windowMs now set set' member call { call with phase } := by
  unfold CheckCall.advance at h
  cases hphase : call.phase with
  | pruning =>
    simp only [hphase] at h
    obtain ⟨rfl, rfl⟩ := Prod.mk.inj (Option.some.inj h)
    refine ⟨fun entry hentry hyoung => ?_, by simp [CheckCall.entered], ?_,
      by simp [CheckCall.allowed]⟩
    · apply SortedSet.mem_live_of_same
      refine List.mem_filter.mpr ⟨hentry, ?_⟩
      have hlate : ¬ entry.2 ≤ call.timestamp - windowMs := by omega
      simp [hlate]
    · exact fun till htill => .inl (SortedSet.lt_of_mem_live htill).1
  | counting =>
    simp only [hphase] at h
    obtain ⟨rfl, rfl⟩ := Prod.mk.inj (Option.some.inj h)
    refine ⟨fun entry hentry _ => hentry, ?_, fun till htill => .inl htill, ?_⟩
    · by_cases hfull : limit ≤ set.zcard now
      · simp [CheckCall.entered, hfull]
      · simp [CheckCall.entered, hfull]
    · by_cases hfull : limit ≤ set.zcard now
      · simp [CheckCall.allowed, hfull]
      · simp [CheckCall.allowed, hfull]
  | adding currentCount =>
    simp only [hphase] at h
    obtain ⟨rfl, rfl⟩ := Prod.mk.inj (Option.some.inj h)
    refine ⟨fun entry hentry _ => ?_, fun _ => .inr ?_, ?_, by simp [CheckCall.allowed]⟩
    · exact SortedSet.mem_live_of_same (List.mem_append_left _ hentry)
    · rw [← htime]
      exact SortedSet.mem_live_of_same (List.mem_append_right _ (List.mem_singleton.mpr rfl))
    · exact fun till htill => .inl (SortedSet.lt_of_mem_live htill).1
  | expiring currentCount =>
    simp only [hphase] at h
    obtain ⟨rfl, rfl⟩ := Prod.mk.inj (Option.some.inj h)
    -- The seconds of the time to live cover the window.
    have hlasts : ∀ till ∈ (set.expire now ((windowMs + 999) / 1000)).expiresAt, now + windowMs ≤ till := by
      intro till htill
      unfold SortedSet.expire at htill
      by_cases hempty : (set.live now).entries = []
      · simp only [if_pos hempty] at htill
        unfold SortedSet.live at htill hempty
        by_cases hgone : set.entries = [] ∨ set.expiresAt.any (fun till => decide (till ≤ now)) = true
        · simp [hgone] at htill
        · rw [if_neg hgone] at hempty
          exact absurd (.inl hempty) hgone
      · simp only [if_neg hempty] at htill
        obtain rfl := Option.some.inj htill
        omega
    refine ⟨fun entry hentry _ => ?_, fun _ => .inl (by simp [CheckCall.entered, hphase]),
      fun till htill => .inr (hlasts till htill), fun _ => hlasts⟩
    have hne : (set.live now).entries ≠ [] := List.ne_nil_of_mem hentry
    have hmem : entry ∈ (set.expire now ((windowMs + 999) / 1000)).entries := by
      unfold SortedSet.expire
      simpa only [if_neg hne] using hentry
    have hlater : ∀ till ∈ (set.expire now ((windowMs + 999) / 1000)).expiresAt, now < till := by
      intro till htill
      have hcovers := hlasts till htill
      omega
    rwa [SortedSet.live_eq_self hmem hlater]
  | returned result => simp [hphase] at h

/-- The last call at most is under way, at the time of its timestamp, and a call that has entered itself is
found for a window. -/
structure OneAtATime (windowMs : ℤ) (s : LimiterState) : Prop where
  last : LastOnly CheckCall.running s.calls
  past : ∀ call ∈ s.calls, call.timestamp ≤ s.now
  busy : ∀ call ∈ s.calls, call.running = true → call.timestamp = s.now
  kept : ∀ i call, s.calls[i]? = some call → call.entered = true → s.now < call.timestamp + windowMs →
    (i, call.timestamp) ∈ (s.set.live s.now).entries
  lasts : ∀ call ∈ s.calls, call.allowed = true → ∀ till ∈ s.set.expiresAt, call.timestamp + windowMs ≤ till

theorem CheckCall.allowed_of_entered {call : CheckCall} (h : call.entered = true) (hidle : call.running = false) :
    call.allowed = true := by
  unfold entered at h
  unfold running at hidle
  unfold allowed
  cases hphase : call.phase <;> simp_all

theorem CheckCall.entered_of_letThrough {call : CheckCall} (h : call.letThrough = true)
    (hidle : call.running = false) : call.entered = true := by
  unfold letThrough at h
  unfold running at hidle
  unfold entered
  cases hphase : call.phase <;> simp_all

theorem OneAtATime.wait (h : OneAtATime windowMs s) (hidle : ∀ call ∈ s.calls, call.running = false) (ms : ℕ) :
    OneAtATime windowMs { s with now := s.now + ms } := by
  refine ⟨h.last, fun call hcall => ?_, fun call hcall hrunning => ?_, fun i call hcall hentered hyoung => ?_, h.lasts⟩
  · have hpast := h.past call hcall
    dsimp only
    omega
  · rw [hidle call hcall] at hrunning
    cases hrunning
  · have hmem := List.mem_of_getElem? hcall
    have hallowed := CheckCall.allowed_of_entered hentered (hidle call hmem)
    dsimp only at hyoung ⊢
    have hfound := (SortedSet.of_mem_live (h.kept i call hcall hentered (by omega))).2
    have hlater : ∀ till ∈ s.set.expiresAt, s.now + ms < till := by
      intro till htill
      have hcovers := h.lasts call hmem hallowed till htill
      omega
    rwa [SortedSet.live_eq_self hfound hlater]

theorem OneAtATime.check (h : OneAtATime windowMs s) (hidle : ∀ call ∈ s.calls, call.running = false) :
    OneAtATime windowMs { s with calls := s.calls ++ [⟨s.now, .pruning⟩] } := by
  have hnew : ∀ {P : CheckCall → Prop}, (∀ call ∈ s.calls, P call) → P ⟨s.now, .pruning⟩ →
      ∀ call ∈ s.calls ++ [⟨s.now, .pruning⟩], P call := by
    intro P hold hlast call hcall
    rcases List.mem_append.mp hcall with hmem | hmem
    · exact hold call hmem
    · obtain rfl := List.mem_singleton.mp hmem
      exact hlast
  refine ⟨.snoc hidle _, hnew h.past (Int.le_refl s.now), hnew h.busy fun _ => rfl, fun i call hcall => ?_,
    hnew h.lasts fun hallowed => ?_⟩
  · obtain hold | ⟨rfl, rfl⟩ := getElem?_snoc hcall
    · exact h.kept i call hold
    · intro hentered
      cases hentered
  · cases hallowed

theorem OneAtATime.advance (hwindow : 0 < windowMs) (h : OneAtATime windowMs s) {i : ℕ} {call : CheckCall}
    {set : SortedSet} {phase : CheckPhase} (hcall : s.calls[i]? = some call)
    (hadvance : call.advance limit windowMs s.now s.set i = some (set, phase)) :
    OneAtATime windowMs { s with set := set, calls := s.calls.set i { call with phase } } := by
  have hmem := List.mem_of_getElem? hcall
  have hrunning := CheckCall.running_of_advance hadvance
  have htime := h.busy call hmem hrunning
  have hkept := CheckCall.advance_kept hwindow htime hadvance
  refine ⟨h.last.set hcall hrunning _, forall_mem_set h.past ?_ i, forall_mem_set h.busy ?_ i,
    fun j found hfound hentered hyoung => ?_, forall_mem_set (fun found hfound hallowed till htill => ?_) ?_ i⟩
  · exact h.past call hmem
  · exact fun _ => htime
  · obtain ⟨rfl, rfl⟩ | hold := getElem?_set_cases hcall hfound
    · obtain hbefore | hnew := hkept.entered hentered
      · exact hkept.young _ (h.kept j call hcall hbefore hyoung) hyoung
      · dsimp only
        rwa [htime]
    · exact hkept.young _ (h.kept j found hold hentered hyoung) hyoung
  · obtain hold | hlater := hkept.expiresAt till htill
    · exact h.lasts found hfound hallowed till hold
    · have hpast := h.past found hfound
      omega
  · intro hallowed till htill
    dsimp only
    rw [htime]
    exact hkept.allowed hallowed till htill

theorem OneAtATime.step (hwindow : 0 < windowMs) (h : OneAtATime windowMs s) (e : LimiterEvent)
    (hturn : ChecksInTurn s e) (hstep : (limiterRuns limit windowMs).step s e = some t) :
    OneAtATime windowMs t := by
  cases e with
  | wait ms =>
    obtain rfl := Option.some.inj hstep
    exact h.wait hturn ms
  | check =>
    obtain rfl := Option.some.inj hstep
    exact h.check hturn
  | advance i =>
    obtain ⟨call, hcall, hbind⟩ := Option.bind_eq_some_iff.mp hstep
    obtain ⟨⟨set, phase⟩, hadvance, rfl⟩ := Option.map_eq_some_iff.mp hbind
    exact h.advance hwindow hcall hadvance

/-- A call that does not overlap with others finds all entries of its window. -/
theorem OneAtATime.seen (h : OneAtATime windowMs s) (limit : ℕ) (e : LimiterEvent) :
    EntriesSeen limit windowMs s e := by
  cases e with
  | wait ms => trivial
  | check => trivial
  | advance i =>
    intro call hcall hcounting _ entry hentry hthrough _ hyoung
    have hrunning : call.running = true := by simp [CheckCall.running, hcounting]
    have htime := h.busy call (List.mem_of_getElem? hcall) hrunning
    have hfound : s.calls[entry.2]? = some entry.1 := List.mem_zipIdx_iff_getElem?.mp hentry
    obtain heq | hidle := h.last.eq_or_idle hcall hrunning (List.mem_of_getElem? hfound)
    · simp [heq, CheckCall.letThrough, hcounting] at hthrough
    · exact h.kept entry.2 entry.1 hfound (CheckCall.entered_of_letThrough hthrough hidle) (by omega)

/-- **One call after another.** Without overlapping calls the entries of the window are always found. -/
theorem entriesSeen_of_inTurn (hwindow : 0 < windowMs) {start : LimiterState} (hstart : start.calls = [])
    {es : List LimiterEvent} (h : (limiterRuns limit windowMs).GuardedRun ChecksInTurn start es t) :
    (limiterRuns limit windowMs).GuardedRun (EntriesSeen limit windowMs) start es t := by
  have hfirst : OneAtATime windowMs start := by
    refine ⟨hstart ▸ LastOnly.nil, ?_, ?_, ?_, ?_⟩
    all_goals simp [hstart]
  exact h.mono_of_invariant (fun s e u hs hturn hstep => ⟨hs.step hwindow e hturn hstep, hs.seen limit e⟩) hfirst

end

/-! ## One call after another, and two at once -/

/-- The second call starts when the first has returned, and the third a window later. -/
def oneByOne : List LimiterEvent :=
  [.check, .advance 0, .advance 0, .advance 0, .advance 0, .wait 999, .check, .advance 1, .advance 1,
    .wait 1, .check, .advance 2, .advance 2, .advance 2, .advance 2]

/-- Both calls count before either has entered itself. -/
def twoAtOnce : List LimiterEvent :=
  [.check, .check, .advance 0, .advance 1, .advance 0, .advance 1, .advance 0, .advance 1, .advance 0, .advance 1]

theorem oneByOne_bounded : ∃ t : LimiterState, (limiterRuns 1 1000).run {} oneByOne = some t ∧
    t.allowedAt = [0, 1000] ∧ SlidingWindow.hitsIn 1000 t.allowedAt 0 ≤ 1 := by
  have hsome : ((limiterRuns 1 1000).guardedRun (EntriesSeen 1 1000) {} oneByOne).any
      (fun t => decide (t.allowedAt = [0, 1000])) = true := by decide +kernel
  obtain ⟨t, ht, hallowed⟩ := (Option.any_eq_true _ _).mp hsome
  have hrun := StepSystem.GuardedRun.of_guardedRun ht
  exact ⟨t, hrun.run, of_decide_eq_true hallowed, allowed_bounded rfl hrun 0⟩

theorem twoAtOnce_exceeds : ∃ (limit : ℕ) (windowMs : ℤ) (es : List LimiterEvent) (t : LimiterState) (start : ℤ),
    0 < windowMs ∧ (limiterRuns limit windowMs).run {} es = some t ∧
      limit < SlidingWindow.hitsIn windowMs t.allowedAt start := by
  have hsome : ((limiterRuns 1 1000).run {} twoAtOnce).any
      (fun t => decide (t.allowedAt = [0, 0])) = true := by decide +kernel
  obtain ⟨t, ht, hallowed⟩ := (Option.any_eq_true _ _).mp hsome
  refine ⟨1, 1000, twoAtOnce, t, 0, by decide, ht, ?_⟩
  rw [of_decide_eq_true hallowed]
  decide

end SuperAi.RateLimit
