import SuperAi.Common.BoundedCache
import SuperAi.Foundations.Recency
import SuperAi.Foundations.StepSystem

/-! # What a bounded cache keeps

The keys stand in the order in which they were last set or found: those behind a key have all been touched since. So a
key that makes room is followed by `max` keys touched since it was (`Kept.of_set`), and a value stays until then, or
until it expires (`cache_of_run`). Values are defined.
-/
namespace SuperAi.Common
open SuperAi.Foundations
set_option autoImplicit false

universe u v

namespace BoundedCache
variable {κ : Type u} {α : Type v} [DecidableEq κ]

def delete (cache : BoundedCache κ α) (key : κ) : BoundedCache κ α := { cache with store := cache.remove key }

def has (cache : BoundedCache κ α) (now : ℤ) (key : κ) : Bool × BoundedCache κ α :=
  ((cache.get now key).1.isSome, (cache.get now key).2)

def clear (cache : BoundedCache κ α) : BoundedCache κ α := { cache with store := [] }

def prune (cache : BoundedCache κ α) (now : ℤ) : BoundedCache κ α :=
  { cache with store := cache.store.filter fun e => !decide (cache.ttlMs < now - e.2.ts) }

end BoundedCache

/-! ## Calls -/

inductive CacheOp (κ : Type u) (α : Type v)
  | set (key : κ) (value : α)
  | get (key : κ)
  | has (key : κ)
  | delete (key : κ)
  | clear
  | prune

structure CacheCall (κ : Type u) (α : Type v) where
  now : ℤ
  op : CacheOp κ α

/-- A call, with the key that it set or found. -/
structure CacheRecord (κ : Type u) (α : Type v) where
  call : CacheCall κ α
  touched : Option κ

/-- A cache, the time of the last call, and the calls so far, the last one first. -/
structure CacheUse (κ : Type u) (α : Type v) where
  cache : BoundedCache κ α
  now : ℤ
  log : List (CacheRecord κ α) := []

section Calls
variable {κ : Type u} {α : Type v} [DecidableEq κ]

/-- What a call leaves, and the key that it set or found. -/
def CacheOp.apply (cache : BoundedCache κ α) (now : ℤ) : CacheOp κ α → Option κ × BoundedCache κ α
  | .set key value => (some key, cache.set now key value)
  | .get key => (if (cache.get now key).1.isSome then some key else none, (cache.get now key).2)
  | .has key => (if (cache.has now key).1 then some key else none, (cache.has now key).2)
  | .delete key => (none, cache.delete key)
  | .clear => (none, cache.clear)
  | .prune => (none, cache.prune now)

/-- The clock does not go back. -/
def CacheUse.step (s : CacheUse κ α) (call : CacheCall κ α) : Option (CacheUse κ α) :=
  if call.now < s.now then none
  else
    some
      { cache := (call.op.apply s.cache call.now).2
        now := call.now
        log := ⟨call, (call.op.apply s.cache call.now).1⟩ :: s.log }

def cacheCalls : StepSystem (CacheUse κ α) (CacheCall κ α) := ⟨CacheUse.step⟩

/-- The value and the time of the latest `set` of a key, if it has not been deleted since. -/
def latestSet (key : κ) : List (CacheRecord κ α) → Option (CacheEntry α)
  | [] => none
  | r :: log =>
    match r.call.op with
    | .set k value => if k = key then some ⟨value, r.call.now⟩ else latestSet key log
    | .delete k => if k = key then none else latestSet key log
    | .clear => none
    | _ => latestSet key log

/-- The other keys set or found since a key was. -/
def othersSince (key : κ) (log : List (CacheRecord κ α)) : List κ :=
  touchedSince key (log.filterMap CacheRecord.touched)

/-! ## The invariant -/

/-- The entries of a cache after the calls of a log, the last one at `now`. -/
structure Ordered (cache : BoundedCache κ α) (now : ℤ) (log : List (CacheRecord κ α)) : Prop where
  recency : Recency (cache.store.map Prod.fst) (log.filterMap CacheRecord.touched)
  latest : ∀ e ∈ cache.store, latestSet e.1 log = some e.2
  kept : ∀ key entry, latestSet key log = some entry → now - entry.ts ≤ cache.ttlMs →
    (othersSince key log).toFinset.card < cache.max → (key, entry) ∈ cache.store

structure Kept (s : CacheUse κ α) : Prop where
  size : s.cache.store.length ≤ s.cache.max
  ordered : Ordered s.cache s.now s.log

section Ordered
variable {cache : BoundedCache κ α} {now : ℤ} {log : List (CacheRecord κ α)} {key : κ}

theorem mem_remove {e : κ × CacheEntry α} : e ∈ cache.remove key ↔ e ∈ cache.store ∧ e.1 ≠ key := by
  simp [BoundedCache.remove]

theorem map_remove (cache : BoundedCache κ α) (key : κ) (entry : CacheEntry α) :
    (cache.remove key ++ [(key, entry)]).map Prod.fst =
      (cache.store.map Prod.fst).filter (fun k => k ≠ key) ++ [key] := by
  rw [List.map_append, List.filter_map]
  rfl

/-- A call that touches no key takes out entries that are deleted by it, or have expired. -/
theorem Ordered.of_sublist (h : Ordered cache now log) {c : CacheCall κ α} (hnow : now ≤ c.now)
    {store : List (κ × CacheEntry α)} (hsub : store.Sublist cache.store)
    (hlatest : ∀ key, latestSet key (⟨c, none⟩ :: log) = latestSet key log ∨
      latestSet key (⟨c, none⟩ :: log) = none ∧ ∀ e ∈ store, e.1 ≠ key)
    (hkept : ∀ e ∈ cache.store, c.now - e.2.ts ≤ cache.ttlMs →
      e ∈ store ∨ latestSet e.1 (⟨c, none⟩ :: log) = none) :
    Ordered { cache with store } c.now (⟨c, none⟩ :: log) where
  recency := h.recency.sublist (hsub.map _)
  latest e he := by
    obtain hsame | ⟨-, hgone⟩ := hlatest e.1
    · rw [hsame]
      exact h.latest e (hsub.subset he)
    · exact absurd rfl (hgone e he)
  kept key entry hset hlive hfew := by
    have hlive : c.now - entry.ts ≤ cache.ttlMs := hlive
    obtain hsame | ⟨hgone, -⟩ := hlatest key
    · have hmem := h.kept key entry (hsame ▸ hset) (by omega) hfew
      obtain hin | hnone := hkept (key, entry) hmem hlive
      · exact hin
      · rw [hset] at hnone
        cases hnone
    · rw [hset] at hgone
      cases hgone

/-- A key that is set or found goes to the end, behind all others. -/
theorem Ordered.touch (h : Ordered cache now log) {c : CacheCall κ α} (hnow : now ≤ c.now) {entry : CacheEntry α}
    (hself : latestSet key (⟨c, some key⟩ :: log) = some entry)
    (hother : ∀ k, k ≠ key → latestSet k (⟨c, some key⟩ :: log) = latestSet k log) :
    Ordered { cache with store := cache.remove key ++ [(key, entry)] } c.now (⟨c, some key⟩ :: log) where
  recency := by
    rw [map_remove]
    exact h.recency.touch key
  latest e he := by
    obtain he | he := List.mem_append.mp he
    · rw [hother e.1 (mem_remove.mp he).2]
      exact h.latest e (mem_remove.mp he).1
    · obtain rfl := List.mem_singleton.mp he
      exact hself
  kept k entry' hset hlive hfew := by
    have hlive : c.now - entry'.ts ≤ cache.ttlMs := hlive
    apply List.mem_append.mpr
    by_cases hk : k = key
    · subst hk
      rw [hself] at hset
      obtain rfl := Option.some.inj hset
      exact .inr List.mem_cons_self
    · left
      have hless : (othersSince k log).toFinset.card < cache.max :=
        (card_touchedSince_le key k (Ne.symm hk) _).trans_lt hfew
      rw [hother k hk] at hset
      exact mem_remove.mpr ⟨h.kept k entry' hset (by omega) hless, hk⟩

/-- The first key of too many has been followed by `max` others. -/
theorem Ordered.evict (h : Ordered cache now log) (hfull : cache.max < cache.store.length) :
    Ordered { cache with store := cache.store.tail } now log where
  recency := h.recency.sublist ((List.tail_sublist _).map _)
  latest e he := h.latest e (List.mem_of_mem_tail he)
  kept key entry hset hlive hfew := by
    have hfew : (othersSince key log).toFinset.card < cache.max := hfew
    have hmem := h.kept key entry hset hlive hfew
    obtain ⟨first, rest, hstore⟩ := List.exists_cons_of_length_pos (Nat.zero_lt_of_lt hfull)
    rw [hstore] at hmem
    obtain rfl | hrest := List.mem_cons.mp hmem
    · have hrecency := h.recency
      rw [hstore, List.map_cons] at hrecency
      have hcard : rest.length ≤ (othersSince key log).toFinset.card := by
        simpa [othersSince] using hrecency.card_of_first
      rw [hstore, List.length_cons] at hfull
      exact absurd hfew (by omega)
    · change (key, entry) ∈ cache.store.tail
      rw [hstore]
      exact hrest

end Ordered

/-! ## One call -/

section Step
variable {s s' : CacheUse κ α} {c : CacheCall κ α}

theorem get_cases (cache : BoundedCache κ α) (now : ℤ) (key : κ) :
    (cache.get now key = (none, cache) ∧ ∀ e ∈ cache.store, e.1 ≠ key) ∨
    ∃ entry, (key, entry) ∈ cache.store ∧
      (cache.ttlMs < now - entry.ts ∧ cache.get now key = (none, cache.delete key) ∨
       now - entry.ts ≤ cache.ttlMs ∧
        cache.get now key = (some entry.value, { cache with store := cache.remove key ++ [(key, entry)] })) := by
  unfold BoundedCache.get
  cases hfind : cache.store.find? fun e => decide (e.1 = key) with
  | none =>
    left
    refine ⟨rfl, ?_⟩
    simpa using hfind
  | some e =>
    right
    have hkey : e.1 = key := by simpa using List.find?_some hfind
    have he : (key, e.2) = e := Prod.ext hkey.symm rfl
    have hmem := List.mem_of_find?_eq_some hfind
    refine ⟨e.2, by rwa [he], ?_⟩
    by_cases hexpired : cache.ttlMs < now - e.2.ts
    · left
      exact ⟨hexpired, by simp [hexpired, BoundedCache.delete]⟩
    · right
      exact ⟨by omega, by simp [hexpired, he]⟩

/-- Both `get` and `has`, with what they log. -/
theorem Kept.read (h : Kept s) (hnow : s.now ≤ c.now) {key : κ}
    (hlatest : ∀ k t, latestSet k (⟨c, t⟩ :: s.log) = latestSet k s.log) :
    Kept
      { cache := (s.cache.get c.now key).2
        now := c.now
        log := ⟨c, if (s.cache.get c.now key).1.isSome then some key else none⟩ :: s.log } := by
  obtain ⟨hget, -⟩ | ⟨entry, hentry, ⟨hexpired, hget⟩ | ⟨hlive, hget⟩⟩ := get_cases s.cache c.now key
  · rw [hget]
    exact ⟨h.size, h.ordered.of_sublist hnow (List.Sublist.refl _) (fun k => .inl (hlatest k none))
      fun e he _ => .inl he⟩
  · rw [hget]
    refine ⟨(List.length_filter_le _ _).trans h.size,
      h.ordered.of_sublist hnow List.filter_sublist (fun k => .inl (hlatest k none)) ?_⟩
    intro e he hlive
    left
    apply mem_remove.mpr
    refine ⟨he, ?_⟩
    rintro rfl
    -- the entry of this key is the one that has expired
    have hsame : some e.2 = some entry := (h.ordered.latest e he).symm.trans (h.ordered.latest (e.1, entry) hentry)
    rw [Option.some.inj hsame] at hlive
    exact absurd hexpired (by omega)
  · rw [hget]
    constructor
    · have hlength : (s.cache.remove key).length < s.cache.store.length :=
        List.length_filter_lt_length_iff_exists.mpr ⟨_, hentry, by simp⟩
      have hsize := h.size
      change (s.cache.remove key ++ [(key, entry)]).length ≤ s.cache.max
      rw [List.length_append, List.length_singleton]
      omega
    · apply h.ordered.touch hnow
      · rw [hlatest]
        exact h.ordered.latest _ hentry
      · intro k _
        exact hlatest k _

theorem Kept.set (h : Kept s) (hnow : s.now ≤ c.now) {key : κ} {value : α} (hop : c.op = .set key value) :
    Kept { cache := s.cache.set c.now key value, now := c.now, log := ⟨c, some key⟩ :: s.log } := by
  have hself : latestSet key (⟨c, some key⟩ :: s.log) = some ⟨value, c.now⟩ := by simp [latestSet, hop]
  have hordered := h.ordered.touch hnow hself fun k hk => by simp [latestSet, hop, Ne.symm hk]
  have hsize := h.size
  have hlength : (s.cache.remove key ++ [(key, CacheEntry.mk value c.now)]).length ≤ s.cache.max + 1 := by
    have hremove : (s.cache.remove key).length ≤ s.cache.store.length := List.length_filter_le _ _
    rw [List.length_append, List.length_singleton]
    omega
  unfold BoundedCache.set
  dsimp only
  split_ifs with hfull
  · refine ⟨?_, hordered.evict hfull⟩
    change (s.cache.remove key ++ [(key, CacheEntry.mk value c.now)]).tail.length ≤ s.cache.max
    rw [List.length_tail]
    omega
  · exact ⟨Nat.not_lt.mp hfull, hordered⟩

theorem Kept.prune (h : Kept s) (hnow : s.now ≤ c.now) (hop : c.op = .prune) :
    Kept { cache := s.cache.prune c.now, now := c.now, log := ⟨c, none⟩ :: s.log } := by
  refine ⟨(List.length_filter_le _ _).trans h.size,
    h.ordered.of_sublist hnow List.filter_sublist (fun k => .inl (by simp [latestSet, hop])) ?_⟩
  intro e he hlive
  left
  apply List.mem_filter.mpr
  exact ⟨he, by simpa using hlive⟩

theorem Kept.delete (h : Kept s) (hnow : s.now ≤ c.now) {key : κ} (hop : c.op = .delete key) :
    Kept { cache := s.cache.delete key, now := c.now, log := ⟨c, none⟩ :: s.log } := by
  refine ⟨(List.length_filter_le _ _).trans h.size,
    h.ordered.of_sublist hnow List.filter_sublist (fun k => ?_) ?_⟩
  · by_cases hk : key = k
    · right
      refine ⟨by simp [latestSet, hop, hk], fun e he => ?_⟩
      rw [← hk]
      exact (mem_remove.mp he).2
    · left
      simp [latestSet, hop, hk]
  · intro e he _
    by_cases hk : e.1 = key
    · right
      simp [latestSet, hop, hk]
    · left
      exact mem_remove.mpr ⟨he, hk⟩

theorem Kept.clear (h : Kept s) (hnow : s.now ≤ c.now) (hop : c.op = .clear) :
    Kept { cache := s.cache.clear, now := c.now, log := ⟨c, none⟩ :: s.log } := by
  refine ⟨Nat.zero_le _, h.ordered.of_sublist hnow (List.nil_sublist _) (fun k => ?_) ?_⟩
  · right
    exact ⟨by simp [latestSet, hop], fun e he => absurd he List.not_mem_nil⟩
  · intro e _ _
    right
    simp [latestSet, hop]

theorem Kept.step (h : Kept s) (hstep : s.step c = some s') : Kept s' := by
  unfold CacheUse.step at hstep
  split_ifs at hstep with hback
  obtain rfl := Option.some.inj hstep
  have hnow : s.now ≤ c.now := Int.not_lt.mp hback
  obtain ⟨now, op⟩ := c
  cases op with
  | set key value => exact h.set hnow rfl
  | get key => exact h.read hnow fun _ _ => rfl
  | has key => exact h.read hnow fun _ _ => rfl
  | delete key => exact h.delete hnow rfl
  | clear => exact h.clear hnow rfl
  | prune => exact h.prune hnow rfl

theorem step_config (hstep : s.step c = some s') :
    s'.cache.max = s.cache.max ∧ s'.cache.ttlMs = s.cache.ttlMs := by
  have hget (now : ℤ) (key : κ) : (s.cache.get now key).2.max = s.cache.max ∧
      (s.cache.get now key).2.ttlMs = s.cache.ttlMs := by
    obtain ⟨hget, -⟩ | ⟨entry, -, ⟨-, hget⟩ | ⟨-, hget⟩⟩ := get_cases s.cache now key
    · rw [hget]
      exact ⟨rfl, rfl⟩
    · rw [hget]
      exact ⟨rfl, rfl⟩
    · rw [hget]
      exact ⟨rfl, rfl⟩
  unfold CacheUse.step at hstep
  split_ifs at hstep
  obtain rfl := Option.some.inj hstep
  obtain ⟨now, op⟩ := c
  cases op with
  | get key => exact hget now key
  | has key => exact hget now key
  | _ => exact ⟨rfl, rfl⟩

end Step

/-! ## Runs -/

section Runs
variable {max : ℕ} {ttlMs start : ℤ} {cs : List (CacheCall κ α)} {s : CacheUse κ α}

def emptyCache (max : ℕ) (ttlMs start : ℤ) : CacheUse κ α := { cache := { max, ttlMs }, now := start }

theorem Kept.initial (max : ℕ) (ttlMs start : ℤ) : Kept (emptyCache max ttlMs start : CacheUse κ α) where
  size := Nat.zero_le _
  ordered :=
    { recency := .nil _
      latest := fun _ he => absurd he List.not_mem_nil
      kept := fun _ _ hset => absurd hset (Option.some_ne_none _).symm }

/-- In a run of any length the cache keeps to its size, gives only what was set last and has not expired, and gives it
as long as fewer than `max` other keys have been touched since. -/
theorem cache_of_run (hrun : cacheCalls.run (emptyCache max ttlMs start) cs = some s) :
    s.cache.store.length ≤ max ∧ ∀ (now : ℤ) (key : κ) (value : α), s.now ≤ now →
      ((s.cache.get now key).1 = some value →
        ∃ ts, latestSet key s.log = some ⟨value, ts⟩ ∧ now - ts ≤ ttlMs) ∧
      ∀ ts, latestSet key s.log = some ⟨value, ts⟩ → now - ts ≤ ttlMs →
        (othersSince key s.log).toFinset.card < max → (s.cache.get now key).1 = some value := by
  have hkept : Kept s ∧ s.cache.max = max ∧ s.cache.ttlMs = ttlMs := by
    apply (StepSystem.GuardedRun.of_run hrun).invariant
      (I := fun t : CacheUse κ α => Kept t ∧ t.cache.max = max ∧ t.cache.ttlMs = ttlMs)
    · rintro t c t' ⟨h, hmax, httl⟩ - hstep
      obtain ⟨hmax', httl'⟩ := step_config hstep
      exact ⟨h.step hstep, hmax'.trans hmax, httl'.trans httl⟩
    · exact ⟨.initial max ttlMs start, rfl, rfl⟩
  obtain ⟨h, rfl, rfl⟩ := hkept
  refine ⟨h.size, fun now key value hnow => ⟨?_, ?_⟩⟩
  · intro hvalue
    obtain ⟨hget, -⟩ | ⟨entry, hentry, ⟨-, hget⟩ | ⟨hlive, hget⟩⟩ := get_cases s.cache now key
    · rw [hget] at hvalue
      cases hvalue
    · rw [hget] at hvalue
      cases hvalue
    · rw [hget] at hvalue
      obtain rfl := Option.some.inj hvalue
      exact ⟨entry.ts, h.ordered.latest _ hentry, hlive⟩
  · intro ts hset hlive hfew
    have hmem := h.ordered.kept key ⟨value, ts⟩ hset (by dsimp only; omega) hfew
    obtain ⟨-, habsent⟩ | ⟨entry, hentry, hread⟩ := get_cases s.cache now key
    · exact absurd rfl (habsent _ hmem)
    · have hsame : some entry = some (CacheEntry.mk value ts) := (h.ordered.latest _ hentry).symm.trans hset
      obtain rfl := Option.some.inj hsame
      obtain ⟨hexpired, -⟩ | ⟨-, hget⟩ := hread
      · exact absurd hexpired (by dsimp only; omega)
      · rw [hget]

end Runs

end Calls

/-- Two keys fit, and the one that has been read stays. -/
def twoOfThree : List (CacheCall String ℕ) :=
  [⟨0, .set "a" 1⟩, ⟨1, .set "b" 2⟩, ⟨2, .get "a"⟩, ⟨3, .set "c" 3⟩]

theorem twoOfThree_kept : ∃ s : CacheUse String ℕ, cacheCalls.run (emptyCache 2 10 0) twoOfThree = some s ∧
    (s.cache.get 4 "a").1 = some 1 := by
  have hany : (cacheCalls.run (emptyCache 2 10 0) twoOfThree).any (fun s => decide (s.now = 3 ∧
      latestSet "a" s.log = some ⟨1, 0⟩ ∧ (othersSince "a" s.log).toFinset.card = 1)) = true := by decide +kernel
  obtain ⟨s, hs, hlog⟩ := (Option.any_eq_true _ _).mp hany
  obtain ⟨hnow, hset, hcard⟩ := of_decide_eq_true hlog
  refine ⟨s, hs, ((cache_of_run hs).2 4 "a" 1 (by omega)).2 0 hset (by decide) ?_⟩
  omega

end SuperAi.Common
