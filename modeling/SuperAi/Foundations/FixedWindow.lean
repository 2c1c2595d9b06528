import SuperAi.Foundations.ExpiringStore
import SuperAi.Foundations.SlidingWindow
import Mathlib.Data.List.Induction

/-! # Fixed windows

A counter with an expiry bounds the hits of one window, which the first hit after the last window
starts. An interval of the length of a window can meet two windows, but not the first hit of both, so
it has at most `2 * limit - 1` hits (`Windowed.bounded`). Twice the limit less one is reached by hits
at the end of one window and the start of the next.
-/
namespace SuperAi.Foundations.FixedWindow
open SlidingWindow
set_option autoImplicit false

universe u

/-- The count that a read of the counter gives. -/
def count (counter : Option (Expiring ℕ)) (now : ℤ) : ℕ :=
  match counter with
  | some entry => if now < entry.expiresAt then entry.value else 0
  | none => 0

/-- One more hit: the first after the expiry starts a window. -/
def hit (length now : ℤ) (counter : Option (Expiring ℕ)) : Expiring ℕ :=
  match counter with
  | some entry => if now < entry.expiresAt then ⟨entry.value + 1, entry.expiresAt⟩ else ⟨1, now + length⟩
  | none => ⟨1, now + length⟩

/-- The hits since the window of the counter started, its first one included, are those counted; of the
hits before it, fewer than `limit` are younger than the length of a window. -/
structure Current (length : ℤ) (limit : ℕ) (hits : List ℤ) (entry : Expiring ℕ) : Prop where
  counted : entry.value ≤ limit
  split : ∃ earlier later, hits = earlier ++ (entry.expiresAt - length) :: later ∧
    later.length + 1 = entry.value ∧ (∀ t ∈ earlier, t ≤ entry.expiresAt - length) ∧
    earlier.countP (fun t => decide (entry.expiresAt - length - length < t)) < limit

structure Windowed (length : ℤ) (limit : ℕ) (clock : ℤ) (hits : List ℤ) (counter : Option (Expiring ℕ)) :
    Prop where
  past : ∀ t ∈ hits, t ≤ clock
  bounded : ∀ start, hitsIn length hits start ≤ 2 * limit - 1
  unused : counter = none → hits = []
  current : ∀ entry ∈ counter, Current length limit hits entry

variable {length clock now start : ℤ} {limit : ℕ} {hits : List ℤ} {counter : Option (Expiring ℕ)}

theorem hit_of_expired {entry : Expiring ℕ} (h : ¬ now < entry.expiresAt) :
    hit length now (some entry) = ⟨1, now + length⟩ :=
  if_neg h

theorem hit_of_running {entry : Expiring ℕ} (h : now < entry.expiresAt) :
    hit length now (some entry) = ⟨entry.value + 1, entry.expiresAt⟩ :=
  if_pos h

theorem value_hit (length now : ℤ) (counter : Option (Expiring ℕ)) :
    (hit length now counter).value = count counter now + 1 := by
  cases counter with
  | none => rfl
  | some entry =>
    by_cases hrunning : now < entry.expiresAt
    · rw [hit_of_running hrunning]
      simp [count, hrunning]
    · rw [hit_of_expired hrunning]
      simp [count, hrunning]

/-! ## Counters in a store -/

section
variable {κ : Type u} [DecidableEq κ] {counters : ExpiringStore κ ℕ} {key : κ}

theorem read_getD (counters : ExpiringStore κ ℕ) (now : ℤ) (key : κ) :
    (counters.read now key).getD 0 = count (KeyValue.get counters key) now := by
  unfold ExpiringStore.read count
  cases KeyValue.get counters key with
  | none => rfl
  | some entry =>
    by_cases hrunning : now < entry.expiresAt
    · simp [hrunning]
    · simp [hrunning]

/-- A counter that a read does not find is written anew. -/
theorem get_setex_of_read (h : counters.read now key = none) :
    KeyValue.get (counters.setex now length key 1) key = some (hit length now (KeyValue.get counters key)) := by
  unfold ExpiringStore.read at h
  rw [ExpiringStore.setex, KeyValue.get_set_self]
  cases hget : KeyValue.get counters key with
  | none => rfl
  | some entry =>
    have hexpired : ¬ now < entry.expiresAt := by simpa [hget] using h
    rw [hit_of_expired hexpired]

/-- One that it finds keeps its expiry. -/
theorem get_replace_of_read {value : ℕ} (h : counters.read now key = some value) :
    KeyValue.get (counters.replace key (value + 1)) key = some (hit length now (KeyValue.get counters key)) := by
  unfold ExpiringStore.read at h
  obtain ⟨entry, hget, hentry⟩ := Option.bind_eq_some_iff.mp h
  obtain ⟨hrunning, hvalue⟩ := Option.ite_none_right_eq_some.mp hentry
  obtain rfl := Option.some.inj hvalue
  rw [ExpiringStore.get_replace hget, hget, hit_of_running hrunning]

end

/-! ## One hit after another -/

/-- The hits of an interval that `now` is in are younger than the length of a window. -/
theorem hitsIn_le_countP {earliest : ℤ} (h : earliest < start) :
    hitsIn length hits start ≤ hits.countP fun t => decide (earliest < t) := by
  refine List.countP_mono_left fun t _ ht => ?_
  simp only [Bool.and_eq_true, decide_eq_true_eq] at ht ⊢
  omega

/-- One more hit, at the latest time: intervals without it have the hits that they had. -/
theorem hitsIn_snoc_le {bound : ℕ} (hbounded : hitsIn length hits start ≤ bound)
    (hin : start ≤ now → now < start + length → hitsIn length hits start + 1 ≤ bound) :
    hitsIn length (hits ++ [now]) start ≤ bound := by
  rw [hitsIn_append]
  by_cases hnow : start ≤ now ∧ now < start + length
  · have hone : hitsIn length [now] start ≤ [now].length := List.countP_le_length
    have hbound := hin hnow.1 hnow.2
    rw [List.length_singleton] at hone
    omega
  · rw [hitsIn_singleton_of_not hnow]
    omega

namespace Windowed

theorem nil : Windowed length limit clock [] none where
  past := by simp
  bounded _ := Nat.zero_le _
  unused _ := rfl
  current := by simp

theorem later (h : Windowed length limit clock hits counter) (hle : clock ≤ now) :
    Windowed length limit now hits counter where
  past t ht := le_trans (h.past t ht) hle
  bounded := h.bounded
  unused := h.unused
  current := h.current

/-- The hits before a window starts: the last window leaves fewer than `limit` that are young. -/
theorem young_lt (h : Windowed length limit now hits counter) (hroom : count counter now < limit)
    (hstarts : ∀ entry ∈ counter, ¬ now < entry.expiresAt) :
    hits.countP (fun t => decide (now - length < t)) < limit := by
  cases hcounter : counter with
  | none =>
    rw [h.unused hcounter]
    exact lt_of_le_of_lt (Nat.zero_le _) hroom
  | some entry =>
    have hexpired := hstarts entry hcounter
    obtain ⟨earlier, later, hhits, hlater, hearlier, -⟩ := (h.current entry hcounter).split
    have hcounted := (h.current entry hcounter).counted
    have hold : earlier.countP (fun t => decide (now - length < t)) = 0 := by
      apply List.countP_eq_zero.mpr
      intro t ht
      have hle := hearlier t ht
      simp only [decide_eq_true_eq]
      omega
    have hfirst : ¬ now - length < entry.expiresAt - length := by omega
    have hyoung : later.countP (fun t => decide (now - length < t)) ≤ later.length := List.countP_le_length
    rw [hhits, List.countP_append, hold, List.countP_cons_of_neg (by simpa using hfirst)]
    omega

/-- **One window after another.** A hit is let through while the counter is below the limit. -/
theorem hit (h : Windowed length limit now hits counter) (hroom : count counter now < limit) :
    Windowed length limit now (hits ++ [now]) (some (FixedWindow.hit length now counter)) := by
  have hpast : ∀ t ∈ hits ++ [now], t ≤ now := by
    intro t ht
    rcases List.mem_append.mp ht with hmem | hmem
    · exact h.past t hmem
    · exact le_of_eq (List.mem_singleton.mp hmem)
  by_cases hrunning : ∃ entry ∈ counter, now < entry.expiresAt
  · obtain ⟨entry, hcounter, hrunning⟩ := hrunning
    obtain rfl := Option.mem_def.mp hcounter
    obtain ⟨earlier, later, hhits, hlater, hearlier, hyoung⟩ := (h.current entry rfl).split
    have hbelow : entry.value < limit := by simpa [count, hrunning] using hroom
    have hfirst : entry.expiresAt - length ≤ now := h.past _ (by simp [hhits])
    rw [hit_of_running hrunning]
    refine ⟨hpast, fun start => hitsIn_snoc_le (h.bounded start) fun hle hlt => ?_, by simp, ?_⟩
    · -- Young hits before the window, and those of the window.
      have hbefore : hitsIn length earlier start ≤
          earlier.countP fun t => decide (entry.expiresAt - length - length < t) :=
        hitsIn_le_countP (by omega)
      have hwindow : hitsIn length ((entry.expiresAt - length) :: later) start ≤
          ((entry.expiresAt - length) :: later).length := List.countP_le_length
      rw [List.length_cons] at hwindow
      rw [hhits, hitsIn_append]
      omega
    · intro next hnext
      obtain rfl := Option.some.inj hnext
      refine ⟨hbelow, earlier, later ++ [now], ?_, ?_, hearlier, hyoung⟩
      · simp [hhits]
      · simpa using hlater
  · push Not at hrunning
    have hstarts : ∀ entry ∈ counter, ¬ now < entry.expiresAt := fun entry hentry =>
      not_lt.mpr (hrunning entry hentry)
    have hyoung := h.young_lt hroom hstarts
    have hnext : FixedWindow.hit length now counter = ⟨1, now + length⟩ := by
      cases hcounter : counter with
      | none => rfl
      | some entry => exact hit_of_expired (hstarts entry hcounter)
    rw [hnext]
    refine ⟨hpast, fun start => hitsIn_snoc_le (h.bounded start) fun hle hlt => ?_, by simp, ?_⟩
    · have hbefore : hitsIn length hits start ≤ hits.countP fun t => decide (now - length < t) :=
        hitsIn_le_countP (by omega)
      omega
    · intro next hnext
      obtain rfl := Option.some.inj hnext
      have hcancel : now + length - length = now := by omega
      have hone : 1 ≤ limit := by omega
      refine ⟨hone, hits, [], by simp [hcancel], rfl, fun t ht => ?_, ?_⟩
      · rw [hcancel]
        exact h.past t ht
      · simpa only [hcancel] using hyoung

end Windowed

/-! ## Bursts

As many hits as the limit within less than the length of a window are a burst. The counter reaches the
limit by the end of the first burst unless its window ends in the middle of it (`reaches_iff`).
-/

/-- The counter after hits that are all let through. -/
def after (length : ℤ) (counter : Option (Expiring ℕ)) (times : List ℤ) : Option (Expiring ℕ) :=
  times.foldl (fun counter now => some (FixedWindow.hit length now counter)) counter

/-- The counter is at the limit after one of the hits. -/
def Reaches (length : ℤ) (limit : ℕ) : Option (Expiring ℕ) → List ℤ → Prop
  | _, [] => False
  | counter, now :: times => limit ≤ (FixedWindow.hit length now counter).value ∨
      Reaches length limit (some (FixedWindow.hit length now counter)) times

/-- The end of the window that is running after the hits, or the last that was. -/
def windowEnd (length : ℤ) (till : Option ℤ) (times : List ℤ) : Option ℤ :=
  times.foldl (fun till now => some (if (till.any fun till => decide (now < till)) then till.getD now
    else now + length)) till

/-- A burst: `limit` hits, any two of them closer than the length of a window. -/
def Burst (length : ℤ) (limit : ℕ) (times : List ℤ) : Prop :=
  times.length = limit ∧ ∀ s ∈ times, ∀ t ∈ times, t - s < length

instance (length : ℤ) (limit : ℕ) (times : List ℤ) : Decidable (Burst length limit times) :=
  inferInstanceAs (Decidable (_ ∧ _))

def EndsInBurst (length : ℤ) (limit : ℕ) (times : List ℤ) : Prop :=
  ∃ earlier burst, times = earlier ++ burst ∧ Burst length limit burst

/-- A burst at the end of the hits, which no other of them ends. -/
structure FirstBurst (length : ℤ) (limit : ℕ) (pre burst : List ℤ) : Prop where
  isBurst : Burst length limit burst
  isFirst : ∀ before later, pre ++ burst = before ++ later → EndsInBurst length limit before → later = []

/-- The end of a window is not in the middle of the hits. -/
def Unbroken (till : Option ℤ) (burst : List ℤ) : Prop :=
  ∀ t ∈ till, (∀ u ∈ burst, t ≤ u) ∨ ∀ u ∈ burst, u < t

/-- The hits before the expiry of the counter that was there before them take it to the limit. -/
def FillsUp (limit : ℕ) (counter : Option (Expiring ℕ)) (times : List ℤ) : Prop :=
  ∃ entry ∈ counter, (∃ t ∈ times, t < entry.expiresAt) ∧
    limit ≤ entry.value + times.countP fun t => decide (t < entry.expiresAt)

variable {times : List ℤ}

theorem after_append (xs ys : List ℤ) :
    after length counter (xs ++ ys) = after length (after length counter xs) ys :=
  List.foldl_append

theorem after_snoc (xs : List ℤ) (now : ℤ) :
    after length counter (xs ++ [now]) = some (FixedWindow.hit length now (after length counter xs)) :=
  after_append xs [now]

theorem windowEnd_snoc (till : Option ℤ) (xs : List ℤ) (now : ℤ) :
    windowEnd length till (xs ++ [now]) =
      some (if ((windowEnd length till xs).any fun till => decide (now < till)) then
        (windowEnd length till xs).getD now else now + length) :=
  List.foldl_append

theorem expiresAt_after (xs : List ℤ) : (after length counter xs).map Expiring.expiresAt =
    windowEnd length (counter.map Expiring.expiresAt) xs := by
  induction xs using List.reverseRecOn with
  | nil => rfl
  | append_singleton xs now ih =>
    rw [after_snoc, windowEnd_snoc, ← ih]
    cases after length counter xs with
    | none => rfl
    | some entry =>
      by_cases hrunning : now < entry.expiresAt
      · simp [FixedWindow.hit, hrunning]
      · simp [FixedWindow.hit, hrunning]

theorem reaches_append (xs ys : List ℤ) : Reaches length limit counter (xs ++ ys) ↔
    Reaches length limit counter xs ∨ Reaches length limit (after length counter xs) ys := by
  induction xs generalizing counter with
  | nil => simp [Reaches, after]
  | cons now xs ih =>
    rw [List.cons_append, Reaches, Reaches, ih, or_assoc]
    rfl

theorem reaches_iff_exists : Reaches length limit counter times ↔
    ∃ before now later, times = before ++ now :: later ∧
      limit ≤ (FixedWindow.hit length now (after length counter before)).value := by
  induction times generalizing counter with
  | nil => simp [Reaches]
  | cons now times ih =>
    rw [Reaches, ih]
    constructor
    · rintro (hnow | ⟨before, t, later, rfl, hreached⟩)
      · exact ⟨[], now, times, rfl, hnow⟩
      · exact ⟨now :: before, t, later, rfl, hreached⟩
    · rintro ⟨before, t, later, hsplit, hreached⟩
      cases before with
      | nil =>
        obtain ⟨rfl, -⟩ := List.cons.inj hsplit
        exact .inl hreached
      | cons first before =>
        obtain ⟨rfl, rfl⟩ := List.cons.inj hsplit
        exact .inr ⟨before, t, later, rfl, hreached⟩

theorem reaches_of_running {entry : Expiring ℕ} (h : ∀ t ∈ times, t < entry.expiresAt) (hne : times ≠ [])
    (hlimit : limit ≤ entry.value + times.length) : Reaches length limit (some entry) times := by
  induction times generalizing entry with
  | nil => exact absurd rfl hne
  | cons now times ih =>
    rw [List.length_cons] at hlimit
    rw [Reaches, hit_of_running (h now List.mem_cons_self)]
    by_cases hlast : times = []
    · subst hlast
      exact .inl hlimit
    · exact .inr (ih (fun t ht => h t (List.mem_cons_of_mem now ht)) hlast (by dsimp only; omega))

theorem reaches_of_fillsUp (hsorted : times.Pairwise (· ≤ ·)) (h : FillsUp limit counter times) :
    Reaches length limit counter times := by
  induction times generalizing counter with
  | nil =>
    obtain ⟨-, -, ⟨t, ht, -⟩, -⟩ := h
    cases ht
  | cons now times ih =>
    obtain ⟨entry, hentry, ⟨t, ht, hrunning⟩, hfills⟩ := h
    obtain rfl := Option.mem_def.mp hentry
    obtain ⟨hfirst, hrest⟩ := List.pairwise_cons.mp hsorted
    have hnow : now < entry.expiresAt := by
      rcases List.mem_cons.mp ht with rfl | hmem
      · exact hrunning
      · exact lt_of_le_of_lt (hfirst t hmem) hrunning
    have hcount : (now :: times).countP (fun t => decide (t < entry.expiresAt)) =
        times.countP (fun t => decide (t < entry.expiresAt)) + 1 :=
      List.countP_cons_of_pos (by simpa using hnow)
    rw [hcount] at hfills
    rw [Reaches, hit_of_running hnow]
    by_cases hmore : ∃ t ∈ times, t < entry.expiresAt
    · exact .inr (ih hrest ⟨_, rfl, hmore, by dsimp only; omega⟩)
    · push Not at hmore
      have hnone : times.countP (fun t => decide (t < entry.expiresAt)) = 0 := by
        apply List.countP_eq_zero.mpr
        intro t ht
        simpa using hmore t ht
      exact .inl (by dsimp only; omega)

/-- A burst whose first hit starts a window. -/
theorem reaches_of_starting {now : ℤ} (hexpired : ∀ entry ∈ counter, ¬ now < entry.expiresAt)
    (htimes : ∀ t ∈ times, t < now + length) (hlimit : limit ≤ times.length + 1) :
    Reaches length limit counter (now :: times) := by
  have hstart : FixedWindow.hit length now counter = ⟨1, now + length⟩ := by
    cases hcounter : counter with
    | none => rfl
    | some entry => exact hit_of_expired (hexpired entry hcounter)
  rw [Reaches, hstart]
  by_cases hne : times = []
  · subst hne
    exact .inl hlimit
  · refine .inr (reaches_of_running htimes hne ?_)
    dsimp only
    omega

/-- The counter after some hits: it was there before them and has counted all of them, or its window
started at one of them, at which no other was running. -/
theorem after_cases {entry : Expiring ℕ} (h : after length counter times = some entry) :
    (∃ found ∈ counter, entry = ⟨found.value + times.length, found.expiresAt⟩ ∧
      ∀ t ∈ times, t < found.expiresAt) ∨
    ∃ earlier first later, times = earlier ++ first :: later ∧
      entry = ⟨later.length + 1, first + length⟩ ∧ (∀ t ∈ later, t < first + length) ∧
      ∀ till ∈ windowEnd length (counter.map Expiring.expiresAt) earlier, till ≤ first := by
  induction times using List.reverseRecOn generalizing entry with
  | nil => exact .inl ⟨entry, h, rfl, by simp⟩
  | append_singleton times now ih =>
    rw [after_snoc] at h
    obtain rfl := Option.some.inj h
    by_cases hrunning : ∃ running ∈ after length counter times, now < running.expiresAt
    · obtain ⟨running, hafter, hnow⟩ := hrunning
      rw [Option.mem_def] at hafter
      rw [hafter, hit_of_running hnow]
      obtain ⟨found, hfound, rfl, hall⟩ | ⟨earlier, first, later, rfl, rfl, hlater, hstarted⟩ := ih hafter
      · refine .inl ⟨found, hfound, by simp [Nat.add_assoc], fun t ht => ?_⟩
        rcases List.mem_append.mp ht with hmem | hmem
        · exact hall t hmem
        · exact List.mem_singleton.mp hmem ▸ hnow
      · refine .inr ⟨earlier, first, later ++ [now], by simp, by simp, fun t ht => ?_, hstarted⟩
        rcases List.mem_append.mp ht with hmem | hmem
        · exact hlater t hmem
        · exact List.mem_singleton.mp hmem ▸ hnow
    · push Not at hrunning
      refine .inr ⟨times, now, [], rfl, ?_, by simp, ?_⟩
      · cases hafter : after length counter times with
        | none => rfl
        | some running => exact hit_of_expired (not_lt.mpr (hrunning running hafter))
      · intro till htill
        rw [← expiresAt_after] at htill
        obtain ⟨running, hafter, rfl⟩ := Option.map_eq_some_iff.mp htill
        exact hrunning running hafter

theorem eq_nil_of_windowEnd {from_ : Option ℤ} (h : windowEnd length from_ times = none) : times = [] := by
  induction times using List.reverseRecOn with
  | nil => rfl
  | append_singleton times now _ =>
    rw [windowEnd_snoc] at h
    cases h

/-- A window ends after each hit so far. -/
theorem lt_windowEnd {from_ : Option ℤ} {till : ℤ} (hlength : 0 < length) (hsorted : times.Pairwise (· ≤ ·))
    (htill : windowEnd length from_ times = some till) : ∀ t ∈ times, t < till := by
  induction times using List.reverseRecOn with
  | nil => simp
  | append_singleton times now _ =>
    rw [windowEnd_snoc] at htill
    have hlast : now < till := by
      cases hend : windowEnd length from_ times with
      | none =>
        rw [hend] at htill
        simp only [Option.any_none, Bool.false_eq_true, if_false, Option.some.injEq] at htill
        omega
      | some before =>
        rw [hend] at htill
        simp only [Option.any_some, decide_eq_true_eq, Option.getD_some, Option.some.injEq] at htill
        by_cases hrunning : now < before
        · rw [if_pos hrunning] at htill
          omega
        · rw [if_neg hrunning] at htill
          omega
    intro t ht
    obtain hmem | hmem := List.mem_append.mp ht
    · have hle := (List.pairwise_append.mp hsorted).2.2 t hmem now (List.mem_singleton.mpr rfl)
      omega
    · rw [List.mem_singleton.mp hmem]
      exact hlast

/-- The hits since the window that is running started. -/
def hitsOfWindow (length : ℤ) (times : List ℤ) (now : ℤ) : ℕ :=
  match windowEnd length none times with
  | some till => if now < till then times.countP fun t => decide (till - length ≤ t) else 0
  | none => 0

/-- What the counter gives after hits from the first on. -/
theorem count_after (hlength : 0 < length) (hsorted : times.Pairwise (· ≤ ·)) (now : ℤ) :
    count (after length none times) now = hitsOfWindow length times now := by
  have hends : (after length none times).map Expiring.expiresAt =
      windowEnd length (Option.map Expiring.expiresAt none) times := expiresAt_after times
  unfold hitsOfWindow
  cases hafter : after length none times with
  | none =>
    rw [hafter, Option.map_none] at hends
    rw [← hends]
    rfl
  | some entry =>
    rw [hafter, Option.map_some, Option.map_none] at hends
    rw [← hends]
    obtain ⟨found, hfound, -⟩ | ⟨earlier, first, later, rfl, rfl, -, hearlier⟩ := after_cases hafter
    · cases hfound
    · obtain ⟨hbefore, hrest, -⟩ := List.pairwise_append.mp hsorted
      have hold : earlier.countP (fun t => decide (first ≤ t)) = 0 := by
        rw [List.countP_eq_zero]
        intro t ht
        rw [decide_eq_true_eq]
        cases hend : windowEnd length (Option.map Expiring.expiresAt none) earlier with
        | none =>
          rw [eq_nil_of_windowEnd hend] at ht
          cases ht
        | some till =>
          have hlt := lt_windowEnd hlength hbefore hend t ht
          have hle := hearlier till hend
          omega
      have hnew : (first :: later).countP (fun t => decide (first ≤ t)) = later.length + 1 := by
        rw [List.countP_eq_length.mpr, List.length_cons]
        intro t ht
        rw [decide_eq_true_eq]
        obtain rfl | hmem := List.mem_cons.mp ht
        · exact le_refl _
        · exact List.rel_of_pairwise_cons hrest hmem
      dsimp only [count]
      have hstart : first + length - length = first := by omega
      rw [hstart, List.countP_append, hold, hnew, Nat.zero_add]

/-- The counter reaches the limit only at the end of a burst, or by filling up. -/
theorem fillsUp_or_burst_of_reaches (hlength : 0 < length) (hsorted : times.Pairwise (· ≤ ·))
    (h : Reaches length limit counter times) :
    FillsUp limit counter times ∨ ∃ earlier burst later, times = earlier ++ burst ++ later ∧
      Burst length limit burst ∧
      ∀ till ∈ windowEnd length (counter.map Expiring.expiresAt) earlier, ∀ t ∈ burst, till ≤ t := by
  obtain ⟨before, now, rest, rfl, hreached⟩ := reaches_iff_exists.mp h
  rw [List.append_cons] at hsorted ⊢
  obtain ⟨found, hfound, hentry, hall⟩ | ⟨earlier, first, later, hsplit, hentry, hlater, hstarted⟩ :=
    after_cases (after_snoc before now)
  · have hcount : (before ++ [now]).countP (fun t => decide (t < found.expiresAt)) = (before ++ [now]).length :=
      List.countP_eq_length.mpr fun t ht => decide_eq_true (hall t ht)
    refine .inl ⟨found, hfound, ⟨now, by simp, hall now (by simp)⟩, ?_⟩
    rw [hentry] at hreached
    rw [List.countP_append, hcount]
    exact le_trans hreached (by dsimp only; omega)
  · rw [hentry] at hreached
    rw [hsplit] at hsorted ⊢
    have hwindow : (first :: later).Pairwise (· ≤ ·) :=
      (List.pairwise_append.mp (List.pairwise_append.mp hsorted).1).2.1
    have hfirst : ∀ t ∈ (first :: later).take limit, first ≤ t ∧ t < first + length := by
      intro t ht
      rcases List.mem_cons.mp (List.mem_of_mem_take ht) with rfl | hmem
      · exact ⟨le_refl _, by omega⟩
      · exact ⟨(List.pairwise_cons.mp hwindow).1 t hmem, hlater t hmem⟩
    refine .inr ⟨earlier, (first :: later).take limit, (first :: later).drop limit ++ rest, ?_, ⟨?_, ?_⟩, ?_⟩
    · rw [List.append_assoc earlier (List.take _ _), ← List.append_assoc (List.take _ _),
        List.take_append_drop, List.append_assoc]
    · rw [List.length_take, List.length_cons]
      exact Nat.min_eq_left hreached
    · intro s hs t ht
      have hle := (hfirst s hs).1
      have hlt := (hfirst t ht).2
      omega
    · intro till htill t ht
      exact le_trans (hstarted till htill) (hfirst t ht).1

/-- **First bursts.** The counter is at the limit by the end of the first burst if and only if no window ends
in the middle of it, or the counter that was there before fills up. -/
theorem reaches_iff {pre burst : List ℤ} (hlength : 0 < length) (hlimit : 0 < limit)
    (hsorted : (pre ++ burst).Pairwise (· ≤ ·)) (h : FirstBurst length limit pre burst) :
    Reaches length limit counter (pre ++ burst) ↔
      Unbroken (windowEnd length (counter.map Expiring.expiresAt) pre) burst ∨
        FillsUp limit counter (pre ++ burst) := by
  obtain ⟨hburst, hfirst⟩ := h
  constructor
  · intro h
    obtain hfills | ⟨earlier, found, later, hsplit, hfound, hstarted⟩ :=
      fillsUp_or_burst_of_reaches hlength hsorted h
    · exact .inr hfills
    · obtain rfl := hfirst (earlier ++ found) later hsplit ⟨earlier, found, rfl, hfound⟩
      rw [List.append_nil] at hsplit
      obtain ⟨rfl, rfl⟩ := List.append_inj' hsplit (hburst.1.trans hfound.1.symm)
      exact .inl fun till htill => .inl (hstarted till htill)
  · rintro (hunbroken | hfills)
    · rw [reaches_append]
      obtain ⟨first, rest, rfl⟩ := List.exists_cons_of_length_pos (hburst.1 ▸ hlimit : 0 < burst.length)
      refine .inr ?_
      by_cases hrunning : ∃ entry ∈ after length counter pre, first < entry.expiresAt
      · obtain ⟨entry, hentry, hlt⟩ := hrunning
        rw [Option.mem_def] at hentry
        have htill : entry.expiresAt ∈ windowEnd length (counter.map Expiring.expiresAt) pre := by
          rw [← expiresAt_after, hentry]
          rfl
        rw [hentry]
        obtain hended | hall := hunbroken _ htill
        · have hle := hended first List.mem_cons_self
          omega
        · refine reaches_of_running hall (List.cons_ne_nil _ _) ?_
          rw [hburst.1]
          omega
      · push Not at hrunning
        refine reaches_of_starting (fun entry hentry => not_lt.mpr (hrunning entry hentry)) ?_ ?_
        · intro t ht
          have hclose := hburst.2 first List.mem_cons_self t (List.mem_cons_of_mem _ ht)
          omega
        · exact le_of_eq (by rw [← hburst.1, List.length_cons])
    · exact reaches_of_fillsUp hsorted hfills

theorem EndsInBurst.exists_first (h : EndsInBurst length limit times) :
    ∃ pre burst later, times = pre ++ burst ++ later ∧ FirstBurst length limit pre burst := by
  induction hn : times.length using Nat.strong_induction_on generalizing times with
  | _ n ih =>
    obtain ⟨pre, burst, rfl, hburst⟩ := h
    by_cases hfirst : ∀ before later, pre ++ burst = before ++ later →
        EndsInBurst length limit before → later = []
    · exact ⟨pre, burst, [], (List.append_nil _).symm, hburst, hfirst⟩
    · push Not at hfirst
      obtain ⟨before, later, hsplit, hends, hlater⟩ := hfirst
      have hshorter : before.length < n := by
        rw [← hn, hsplit, List.length_append]
        have hpos := List.length_pos_iff.mpr hlater
        omega
      obtain ⟨pre', burst', rest, rfl, hfirst'⟩ := ih _ hshorter hends rfl
      exact ⟨pre', burst', rest ++ later, by rw [hsplit, List.append_assoc], hfirst'⟩

/-- **Every burst.** The counter is at the limit by the end of every burst exactly if it is by the end of
the first. -/
theorem reaches_bursts_iff (hlength : 0 < length) (hlimit : 0 < limit) (hsorted : times.Pairwise (· ≤ ·)) :
    (∀ before later, times = before ++ later → EndsInBurst length limit before →
      Reaches length limit counter before) ↔
    ∀ pre burst later, times = pre ++ burst ++ later → FirstBurst length limit pre burst →
      Unbroken (windowEnd length (counter.map Expiring.expiresAt) pre) burst ∨
        FillsUp limit counter (pre ++ burst) := by
  constructor
  · rintro hall pre burst later rfl hfirst
    have hreached := hall (pre ++ burst) later rfl ⟨pre, burst, rfl, hfirst.isBurst⟩
    exact (reaches_iff hlength hlimit (List.pairwise_append.mp hsorted).1 hfirst).mp hreached
  · rintro hall before later rfl hends
    obtain ⟨pre, burst, rest, rfl, hfirst⟩ := hends.exists_first
    have hbefore := (List.pairwise_append.mp hsorted).1
    have hsplit : pre ++ burst ++ rest ++ later = pre ++ burst ++ (rest ++ later) := List.append_assoc _ _ _
    have hreached := (reaches_iff hlength hlimit (List.pairwise_append.mp hbefore).1 hfirst).mpr
      (hall pre burst (rest ++ later) hsplit hfirst)
    exact (reaches_append _ _).mpr (.inl hreached)

end SuperAi.Foundations.FixedWindow
