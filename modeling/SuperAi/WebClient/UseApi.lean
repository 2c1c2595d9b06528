import Mathlib.Data.Int.Notation
import SuperAi.Foundations.OrderedMap
import SuperAi.Foundations.InTurn
import SuperAi.Foundations.StepSystem

/-! # The shared fetches of the web client (`web/lib/useApi.ts`)

Components that use one path share an entry of the module cache: its data, the promise of the request on the way, the
subscribers and a poll timer. Effects are run and cleaned up, requests answered, timers fire and pages invalidate or
mutate entries in any order. A path never has two requests on the way or two timers, and it has a timer only while
somebody is subscribed (`one_request_one_timer`).
-/
namespace SuperAi.WebClient
open SuperAi.Foundations
set_option autoImplicit false

universe u
variable {α : Type u}

structure Entry (α : Type u) where
  data : Option α := none
  error : Option String := none
  promise : Bool := false
  fetchedAt : ℤ := 0
  /-- the `force` functions of the effects that have run -/
  subscribers : List ℕ := []
  pollTimer : Option ℕ := none
  pollMs : Option ℕ := none

/-- The module: its cache, the effects not cleaned up yet, the requests on the way and the intervals set. -/
structure SharedApi (α : Type u) where
  cache : KeyValue String (Entry α) := []
  effects : List (ℕ × String) := []
  requests : List String := []
  timers : List (ℕ × String) := []
  nextId : ℕ := 0

namespace SharedApi

def getEntry (s : SharedApi α) (key : String) : Entry α := (s.cache.get key).getD {}

def setEntry (s : SharedApi α) (key : String) (entry : Entry α) : SharedApi α :=
  { s with cache := s.cache.put key entry }

/-- `doFetch` on an entry that is in the cache. -/
def doFetch (s : SharedApi α) (key : String) : SharedApi α :=
  let entry := s.getEntry key
  if entry.promise then s
  else { s with cache := s.cache.put key { entry with promise := true }, requests := s.requests ++ [key] }

/-- `if (entry.pollTimer) clearInterval(entry.pollTimer)`. -/
def clearTimer (s : SharedApi α) (key : String) : SharedApi α :=
  match (s.getEntry key).pollTimer with
  | some id => { s with timers := s.timers.filter fun timer => timer.1 ≠ id }
  | none => s

/-- Poll management of an effect. -/
def poll (s : SharedApi α) (key : String) (pollMs : Option ℕ) : SharedApi α :=
  let entry := s.getEntry key
  if (pollMs.any fun ms => ms ≠ 0) ∧ (entry.pollTimer = none ∨ entry.pollMs ≠ pollMs) then
    { s with
      cache := s.cache.put key { entry with pollMs, pollTimer := some s.nextId }
      timers := (s.clearTimer key).timers ++ [(s.nextId, key)]
      nextId := s.nextId + 1 }
  else s

/-- The effect of a component that is ready. -/
def subscribe (s : SharedApi α) (key : String) (pollMs : Option ℕ) (ttlMs now : ℤ) : SharedApi α :=
  let id := s.nextId
  let entry := s.getEntry key
  let s : SharedApi α := { s with
    cache := s.cache.put key { entry with subscribers := entry.subscribers ++ [id] }
    effects := s.effects ++ [(id, key)]
    nextId := s.nextId + 1 }
  let s := if entry.data.isNone ∨ ¬ now - entry.fetchedAt < ttlMs then s.doFetch key else s
  s.poll key pollMs

/-- The cleanup of an effect. -/
def unsubscribe (s : SharedApi α) (id : ℕ) (key : String) : SharedApi α :=
  let entry := { s.getEntry key with subscribers := (s.getEntry key).subscribers.filter fun force => force ≠ id }
  let effects := s.effects.filter fun effect => effect.1 ≠ id
  if entry.subscribers = [] ∧ entry.pollTimer.isSome then
    { s with
      cache := s.cache.put key { entry with pollTimer := none, pollMs := none }
      effects
      timers := (s.clearTimer key).timers }
  else { s with cache := s.cache.put key entry, effects }

def respond (s : SharedApi α) (key : String) (result : Except String α) (now : ℤ) : SharedApi α :=
  let entry := s.getEntry key
  match result with
  | .ok data => s.setEntry key { entry with data := some data, error := none, fetchedAt := now, promise := false }
  | .error message => s.setEntry key { entry with error := some message, promise := false }

end SharedApi

inductive ApiEvent (α : Type u)
  | subscribe (path : String) (pollMs : Option ℕ) (ttlMs now : ℤ)
  | unsubscribe (k : ℕ)
  | tick (k : ℕ)
  | respond (k : ℕ) (result : Except String α) (now : ℤ)
  | invalidate (key : String)
  | mutate (key : String) (updater : Option α → α) (now : ℤ)
  | refresh (path : String)

namespace SharedApi

def step (s : SharedApi α) : ApiEvent α → Option (SharedApi α)
  | .subscribe path pollMs ttlMs now => some (s.subscribe path pollMs ttlMs now)
  | .unsubscribe k => (s.effects[k]?).map fun effect => s.unsubscribe effect.1 effect.2
  | .tick k =>
    (s.timers[k]?).map fun timer => if (s.getEntry timer.2).subscribers ≠ [] then s.doFetch timer.2 else s
  | .respond k result now =>
    (s.requests[k]?).map fun key => { s with requests := s.requests.eraseIdx k }.respond key result now
  | .invalidate key =>
    some (match s.cache.get key with
      | some entry => (s.setEntry key { entry with fetchedAt := 0, data := none }).doFetch key
      | none => s)
  | .mutate key updater now =>
    some (match s.cache.get key with
      | some entry => s.setEntry key { entry with data := some (updater entry.data), fetchedAt := now }
      | none => s)
  | .refresh path => some ((s.setEntry path { s.getEntry path with fetchedAt := 0 }).doFetch path)

/-! ## The invariant -/

def promised (s : SharedApi α) (key : String) : Bool := (s.getEntry key).promise

def polled (s : SharedApi α) (key : String) : Bool := (s.getEntry key).pollTimer.isSome

/-- Requests and timers are those the entries know of, and effects are subscribed to their paths. -/
structure Accounted (s : SharedApi α) : Prop where
  requests : Single some s.promised s.requests
  timers : Single (fun timer => some timer.2) s.polled s.timers
  timer : ∀ key id, (s.getEntry key).pollTimer = some id → (id, key) ∈ s.timers ∧ (s.getEntry key).subscribers ≠ []
  timerIds : (s.timers.map Prod.fst).Nodup
  effects : ∀ id key, (id, key) ∈ s.effects ↔ id ∈ (s.getEntry key).subscribers
  effectIds : (s.effects.map Prod.fst).Nodup
  fresh : (∀ timer ∈ s.timers, timer.1 < s.nextId) ∧ ∀ effect ∈ s.effects, effect.1 < s.nextId

variable {s s' t : SharedApi α} {key : String} {entry : Entry α} {e : ApiEvent α}

theorem getEntry_put (h : t.cache = s.cache.put key entry) (key' : String) :
    t.getEntry key' = if key' = key then entry else s.getEntry key' := by
  rw [getEntry, h]
  by_cases heq : key' = key
  · rw [if_pos heq, heq, KeyValue.get_put_self, Option.getD_some]
  · rw [if_neg heq, KeyValue.get_put_of_ne heq, getEntry]

theorem getEntry_mk (s : SharedApi α) (key : String) (entry : Entry α) (effects : List (ℕ × String))
    (requests : List String) (timers : List (ℕ × String)) (nextId : ℕ) (key' : String) :
    getEntry ⟨s.cache.put key entry, effects, requests, timers, nextId⟩ key' =
      if key' = key then entry else s.getEntry key' := getEntry_put rfl key'

theorem promised_put (h : t.cache = s.cache.put key entry) :
    t.promised = Function.update s.promised key entry.promise := by
  funext key'
  rw [promised, getEntry_put h]
  by_cases heq : key' = key
  · rw [if_pos heq, heq, Function.update_self]
  · rw [if_neg heq, Function.update_of_ne heq, promised]

theorem polled_put (h : t.cache = s.cache.put key entry) :
    t.polled = Function.update s.polled key entry.pollTimer.isSome := by
  funext key'
  rw [polled, getEntry_put h]
  by_cases heq : key' = key
  · rw [if_pos heq, heq, Function.update_self]
  · rw [if_neg heq, Function.update_of_ne heq, polled]

/-- An entry changes in its data and its promise, and the requests with it. -/
theorem Accounted.setData (key : String) (h : Accounted s) (hput : t.cache = s.cache.put key entry)
    (hrequests : Single some (Function.update s.promised key entry.promise) t.requests)
    (htimer : entry.pollTimer = (s.getEntry key).pollTimer)
    (hsubscribers : entry.subscribers = (s.getEntry key).subscribers) (htimers : t.timers = s.timers)
    (heffects : t.effects = s.effects) (hnextId : t.nextId = s.nextId) : Accounted t := by
  have hsame : ∀ key', (t.getEntry key').pollTimer = (s.getEntry key').pollTimer ∧
      (t.getEntry key').subscribers = (s.getEntry key').subscribers := by
    intro key'
    rw [getEntry_put hput]
    by_cases heq : key' = key
    · rw [if_pos heq, heq]
      exact ⟨htimer, hsubscribers⟩
    · rw [if_neg heq]
      exact ⟨rfl, rfl⟩
  have hpolled : t.polled = s.polled := by
    funext key'
    rw [polled, (hsame key').1, polled]
  refine ⟨promised_put hput ▸ hrequests, ?_, fun key' id hid => ?_, htimers ▸ h.timerIds, fun id key' => ?_,
    heffects ▸ h.effectIds, ?_⟩
  · rw [hpolled, htimers]
    exact h.timers
  · rw [(hsame key').1] at hid
    rw [(hsame key').2, htimers]
    exact h.timer key' id hid
  · rw [(hsame key').2, heffects]
    exact h.effects id key'
  · rw [htimers, heffects, hnextId]
    exact h.fresh

/-- Only the data changes. -/
theorem Accounted.setEntry (h : Accounted s) (hpromise : entry.promise = (s.getEntry key).promise)
    (htimer : entry.pollTimer = (s.getEntry key).pollTimer)
    (hsubscribers : entry.subscribers = (s.getEntry key).subscribers) : Accounted (s.setEntry key entry) := by
  refine h.setData key rfl ?_ htimer hsubscribers rfl rfl rfl
  have hsame : Function.update s.promised key entry.promise = s.promised := by
    rw [hpromise]
    exact Function.update_eq_self key s.promised
  rw [hsame]
  exact h.requests

theorem Accounted.doFetch (h : Accounted s) (key : String) : Accounted (s.doFetch key) := by
  unfold SharedApi.doFetch
  by_cases hpromise : (s.getEntry key).promise = true
  · rw [if_pos hpromise]
    exact h
  · rw [if_neg hpromise]
    exact h.setData key rfl (h.requests.start rfl (Bool.eq_false_iff.mpr hpromise)) rfl rfl rfl rfl rfl

theorem subscribers_doFetch (s : SharedApi α) (key key' : String) :
    ((s.doFetch key).getEntry key').subscribers = (s.getEntry key').subscribers := by
  unfold SharedApi.doFetch
  by_cases hpromise : (s.getEntry key).promise = true
  · rw [if_pos hpromise]
  · rw [if_neg hpromise, getEntry_mk]
    by_cases heq : key' = key
    · rw [if_pos heq, heq]
    · rw [if_neg heq]

theorem Accounted.respond (h : Accounted s) {k : ℕ} (hrequest : s.requests[k]? = some key) (result : Except String α)
    (now : ℤ) : Accounted ({ s with requests := s.requests.eraseIdx k }.respond key result now) := by
  cases result with
  | ok data => exact h.setData key rfl (h.requests.finish hrequest rfl) rfl rfl rfl rfl rfl
  | error message => exact h.setData key rfl (h.requests.finish hrequest rfl) rfl rfl rfl rfl rfl

/-! ## Timers -/

/-- The timer of an entry is the only one of its path. -/
theorem Accounted.timer_iff (h : Accounted s) {id : ℕ} (hid : (s.getEntry key).pollTimer = some id) :
    ∀ timer ∈ s.timers, timer.1 = id ↔ timer.2 = key := by
  intro timer hmem
  have hown := (h.timer key id hid).1
  constructor
  · intro hfst
    rw [List.inj_on_of_nodup_map h.timerIds hmem hown hfst]
  · intro hsnd
    rw [h.timers.eq_of_owner hmem hown (by rw [hsnd]) rfl]

/-- The timers without that of a path. -/
theorem Accounted.clearTimer (h : Accounted s) (key : String) :
    Single (fun timer => some timer.2) (Function.update s.polled key false) (s.clearTimer key).timers ∧
      (s.clearTimer key).timers.Sublist s.timers ∧
      ∀ timer ∈ s.timers, timer.2 ≠ key → timer ∈ (s.clearTimer key).timers := by
  unfold SharedApi.clearTimer
  cases hid : (s.getEntry key).pollTimer with
  | none =>
    have hfree : Function.update s.polled key false = s.polled := by
      have hpolled : s.polled key = false := by rw [polled, hid, Option.isSome_none]
      rw [← hpolled, Function.update_eq_self]
    rw [hfree]
    exact ⟨h.timers, List.Sublist.refl _, fun _ hmem _ => hmem⟩
  | some id =>
    have hiff := h.timer_iff hid
    refine ⟨h.timers.remove _ fun timer hmem => ?_, List.filter_sublist, fun timer hmem hne => ?_⟩
    · simpa using not_congr (hiff timer hmem)
    · exact List.mem_filter.mpr ⟨hmem, by simpa using (not_congr (hiff timer hmem)).mpr hne⟩

theorem Accounted.poll (h : Accounted s) (hsubscribers : (s.getEntry key).subscribers ≠ []) (pollMs : Option ℕ) :
    Accounted (s.poll key pollMs) := by
  unfold SharedApi.poll
  dsimp only
  split
  · obtain ⟨hsingle, hsub, hkeep⟩ := h.clearTimer key
    refine ⟨?_, ?_, fun key' id hid => ?_, ?_, fun id key' => ?_, h.effectIds, ?_⟩
    · rw [promised_put (s := s) rfl]
      have hsame : Function.update s.promised key (s.getEntry key).promise = s.promised :=
        Function.update_eq_self key s.promised
      rw [hsame]
      exact h.requests
    · rw [polled_put (s := s) rfl]
      have hstart := hsingle.start (a := (s.nextId, key)) rfl (Function.update_self key false s.polled)
      rwa [Function.update_idem] at hstart
    · rw [getEntry_mk] at hid ⊢
      by_cases heq : key' = key
      · subst heq
        rw [if_pos rfl] at hid ⊢
        obtain rfl := Option.some.inj hid
        exact ⟨List.mem_append_right _ List.mem_cons_self, hsubscribers⟩
      · rw [if_neg heq] at hid ⊢
        obtain ⟨hmem, hne⟩ := h.timer key' id hid
        exact ⟨List.mem_append_left _ (hkeep _ hmem heq), hne⟩
    · rw [List.map_append, List.nodup_append]
      refine ⟨h.timerIds.sublist (hsub.map _), List.nodup_singleton _, fun a ha b hb => ?_⟩
      obtain ⟨timer, htimer, rfl⟩ := List.mem_map.mp ha
      obtain rfl := List.mem_singleton.mp hb
      exact Nat.ne_of_lt (h.fresh.1 timer (hsub.subset htimer))
    · rw [getEntry_mk]
      by_cases heq : key' = key
      · subst heq
        rw [if_pos rfl]
        exact h.effects id key'
      · rw [if_neg heq]
        exact h.effects id key'
    · refine ⟨fun timer hmem => ?_, fun effect hmem => Nat.lt_succ_of_lt (h.fresh.2 effect hmem)⟩
      rcases List.mem_append.mp hmem with hmem | hmem
      · exact Nat.lt_succ_of_lt (h.fresh.1 timer (hsub.subset hmem))
      · obtain rfl := List.mem_singleton.mp hmem
        exact Nat.lt_succ_self _
  · exact h

/-! ## Effects -/

theorem Accounted.mount (h : Accounted s) (key : String) :
    Accounted { s with
      cache := s.cache.put key { s.getEntry key with subscribers := (s.getEntry key).subscribers ++ [s.nextId] }
      effects := s.effects ++ [(s.nextId, key)]
      nextId := s.nextId + 1 } := by
  refine ⟨?_, ?_, fun key' id hid => ?_, h.timerIds, fun id key' => ?_, ?_, ?_⟩
  · rw [promised_put (s := s) rfl]
    have hsame : Function.update s.promised key (s.getEntry key).promise = s.promised :=
      Function.update_eq_self key s.promised
    rw [hsame]
    exact h.requests
  · rw [polled_put (s := s) rfl]
    have hsame : Function.update s.polled key (s.getEntry key).pollTimer.isSome = s.polled :=
      Function.update_eq_self key s.polled
    rw [hsame]
    exact h.timers
  · rw [getEntry_mk] at hid ⊢
    by_cases heq : key' = key
    · subst heq
      rw [if_pos rfl] at hid ⊢
      exact ⟨(h.timer key' id hid).1, by simp⟩
    · rw [if_neg heq] at hid ⊢
      exact h.timer key' id hid
  · rw [getEntry_mk, List.mem_append, List.mem_singleton, h.effects id key', Prod.mk.injEq]
    by_cases heq : key' = key
    · subst heq
      simp
    · rw [if_neg heq]
      simp [heq]
  · rw [List.map_append, List.nodup_append]
    refine ⟨h.effectIds, List.nodup_singleton _, fun a ha b hb => ?_⟩
    obtain ⟨effect, heffect, rfl⟩ := List.mem_map.mp ha
    obtain rfl := List.mem_singleton.mp hb
    exact Nat.ne_of_lt (h.fresh.2 effect heffect)
  · refine ⟨fun timer hmem => Nat.lt_succ_of_lt (h.fresh.1 timer hmem), fun effect hmem => ?_⟩
    rcases List.mem_append.mp hmem with hmem | hmem
    · exact Nat.lt_succ_of_lt (h.fresh.2 effect hmem)
    · obtain rfl := List.mem_singleton.mp hmem
      exact Nat.lt_succ_self _

theorem Accounted.subscribe (h : Accounted s) (key : String) (pollMs : Option ℕ) (ttlMs now : ℤ) :
    Accounted (s.subscribe key pollMs ttlMs now) := by
  have hmount := h.mount key
  have hsubscribers : (SharedApi.getEntry { s with
      cache := s.cache.put key { s.getEntry key with subscribers := (s.getEntry key).subscribers ++ [s.nextId] }
      effects := s.effects ++ [(s.nextId, key)]
      nextId := s.nextId + 1 } key).subscribers ≠ [] := by
    rw [getEntry_mk, if_pos rfl]
    simp
  unfold SharedApi.subscribe
  dsimp only
  split
  · exact (hmount.doFetch key).poll (by rwa [subscribers_doFetch]) pollMs
  · exact hmount.poll hsubscribers pollMs

theorem Accounted.unsubscribe (h : Accounted s) {id : ℕ} (hmem : (id, key) ∈ s.effects) :
    Accounted (s.unsubscribe id key) := by
  obtain ⟨hsingle, hsub, hkeep⟩ := h.clearTimer key
  have hothers : ∀ key' id', (id', key') ∈ s.effects.filter (fun effect => effect.1 ≠ id) ↔
      id' ∈ (if key' = key then (s.getEntry key).subscribers.filter fun force => force ≠ id
        else (s.getEntry key').subscribers) := by
    intro key' id'
    rw [List.mem_filter, h.effects id' key']
    by_cases heq : key' = key
    · subst heq
      rw [if_pos rfl, List.mem_filter]
    · rw [if_neg heq, and_iff_left_of_imp]
      -- an effect of another path is another effect
      intro hother
      have hne : id' ≠ id := fun hid =>
        heq (congrArg Prod.snd (List.inj_on_of_nodup_map h.effectIds ((h.effects id' key').mpr hother) hmem hid))
      simpa using hne
  have hids : ((s.effects.filter fun effect => effect.1 ≠ id).map Prod.fst).Nodup :=
    h.effectIds.sublist (List.filter_sublist.map _)
  have hfresh : ∀ effect ∈ s.effects.filter (fun effect => effect.1 ≠ id), effect.1 < s.nextId := fun effect heffect =>
    h.fresh.2 effect (List.mem_of_mem_filter heffect)
  have hpromised : Function.update s.promised key (s.getEntry key).promise = s.promised :=
    Function.update_eq_self key s.promised
  unfold SharedApi.unsubscribe
  dsimp only
  split
  · rename_i hlast
    refine ⟨?_, ?_, fun key' id' hid => ?_, h.timerIds.sublist (hsub.map _), fun id' key' => ?_, hids,
      fun timer htimer => h.fresh.1 timer (hsub.subset htimer), hfresh⟩
    · rw [promised_put (s := s) rfl, hpromised]
      exact h.requests
    · rw [polled_put (s := s) rfl]
      exact hsingle
    · rw [getEntry_mk] at hid ⊢
      by_cases heq : key' = key
      · rw [if_pos heq] at hid
        cases hid
      · rw [if_neg heq] at hid ⊢
        obtain ⟨htimer, hne⟩ := h.timer key' id' hid
        exact ⟨hkeep _ htimer heq, hne⟩
    · rw [getEntry_mk, hothers key' id']
      by_cases heq : key' = key
      · rw [if_pos heq, if_pos heq]
      · rw [if_neg heq, if_neg heq]
  · rename_i hlast
    refine ⟨?_, ?_, fun key' id' hid => ?_, h.timerIds, fun id' key' => ?_, hids, h.fresh.1, hfresh⟩
    · rw [promised_put (s := s) rfl, hpromised]
      exact h.requests
    · rw [polled_put (s := s) rfl]
      have hpolled : Function.update s.polled key (s.getEntry key).pollTimer.isSome = s.polled :=
        Function.update_eq_self key s.polled
      rw [hpolled]
      exact h.timers
    · rw [getEntry_mk] at hid ⊢
      by_cases heq : key' = key
      · subst heq
        rw [if_pos rfl] at hid ⊢
        refine ⟨(h.timer key' id' hid).1, fun hempty => hlast ⟨hempty, ?_⟩⟩
        rw [show (s.getEntry key').pollTimer = some id' from hid, Option.isSome_some]
      · rw [if_neg heq] at hid ⊢
        exact h.timer key' id' hid
    · rw [getEntry_mk, hothers key' id']
      by_cases heq : key' = key
      · rw [if_pos heq, if_pos heq]
      · rw [if_neg heq, if_neg heq]

theorem getEntry_of_get (h : s.cache.get key = some entry) : s.getEntry key = entry := by
  rw [getEntry, h, Option.getD_some]

theorem Accounted.step (h : Accounted s) (hstep : s.step e = some s') : Accounted s' := by
  cases e with
  | subscribe path pollMs ttlMs now => exact Option.some.inj hstep ▸ h.subscribe path pollMs ttlMs now
  | unsubscribe k =>
    obtain ⟨effect, heffect, rfl⟩ := Option.map_eq_some_iff.mp hstep
    exact h.unsubscribe (List.mem_of_getElem? heffect)
  | tick k =>
    obtain ⟨timer, htimer, rfl⟩ := Option.map_eq_some_iff.mp hstep
    split
    · exact h.doFetch timer.2
    · exact h
  | respond k result now =>
    obtain ⟨key, hrequest, rfl⟩ := Option.map_eq_some_iff.mp hstep
    exact h.respond hrequest result now
  | invalidate key =>
    obtain rfl := Option.some.inj hstep
    split
    · rename_i entry hget
      have hentry := getEntry_of_get hget
      exact (h.setEntry (by rw [hentry]) (by rw [hentry]) (by rw [hentry])).doFetch key
    · exact h
  | mutate key updater now =>
    obtain rfl := Option.some.inj hstep
    split
    · rename_i entry hget
      have hentry := getEntry_of_get hget
      exact h.setEntry (by rw [hentry]) (by rw [hentry]) (by rw [hentry])
    · exact h
  | refresh path =>
    obtain rfl := Option.some.inj hstep
    have hset : Accounted (s.setEntry path { s.getEntry path with fetchedAt := 0 }) := h.setEntry rfl rfl rfl
    exact hset.doFetch path

theorem Accounted.initial : Accounted ({} : SharedApi α) := by
  refine ⟨fun _ => rfl, fun _ => rfl, fun _ _ hid => ?_, List.nodup_nil, fun id key => ?_, List.nodup_nil, by simp⟩
  · cases hid
  · simp [getEntry]

end SharedApi

def sharedApi (α : Type u) : StepSystem (SharedApi α) (ApiEvent α) := ⟨SharedApi.step⟩

/-- **One request and one timer.** In every run a path has one request on the way if its entry holds a promise and none
otherwise; it has at most one interval, and only while some effect on it has not been cleaned up. -/
theorem one_request_one_timer {es : List (ApiEvent α)} {s : SharedApi α} (h : (sharedApi α).run {} es = some s)
    (key : String) : s.requests.count key = (if (s.getEntry key).promise then 1 else 0) ∧
      (s.timers.countP fun timer => timer.2 = key) ≤ 1 ∧
      ((∃ timer ∈ s.timers, timer.2 = key) → ∃ effect ∈ s.effects, effect.2 = key) := by
  have haccounted := (StepSystem.GuardedRun.of_run h).invariant (I := SharedApi.Accounted)
    (fun _ _ _ hinv _ hstep => hinv.step hstep) .initial
  have htimers : (s.timers.countP fun timer => timer.2 = key) =
      flights (fun timer : ℕ × String => some timer.2) s.timers key := by
    apply List.countP_congr
    intro timer _
    simp
  refine ⟨?_, htimers ▸ haccounted.timers.one key, fun ⟨timer, hmem, htimer⟩ => ?_⟩
  · rw [← SharedApi.promised, ← haccounted.requests key, flights, List.count]
    apply List.countP_congr
    intro request _
    simp
  · have hpolled := haccounted.timers.busy_of_mem hmem (k := key) (by rw [htimer])
    obtain ⟨id, hid⟩ := Option.isSome_iff_exists.mp hpolled
    obtain ⟨force, hforce⟩ := List.exists_mem_of_ne_nil _ (haccounted.timer key id hid).2
    exact ⟨(force, key), (haccounted.effects force key).mpr hforce, rfl⟩

/-- Two components poll one path at different rates, one leaves, the answer comes late, a page invalidates. -/
theorem one_request_one_timer_shared : ∃ es s, (sharedApi ℕ).run {} es = some s ∧
    s.requests.count "/wallets" = (if (s.getEntry "/wallets").promise then 1 else 0) ∧
      (s.timers.countP fun timer => timer.2 = "/wallets") ≤ 1 ∧
      ((∃ timer ∈ s.timers, timer.2 = "/wallets") → ∃ effect ∈ s.effects, effect.2 = "/wallets") := by
  obtain ⟨s, hs⟩ := Option.isSome_iff_exists.mp (show ((sharedApi ℕ).run {}
    [.subscribe "/wallets" (some 5000) 30000 1, .subscribe "/wallets" (some 1000) 30000 2, .tick 0, .unsubscribe 0,
      .respond 0 (.ok 7) 3, .tick 0, .invalidate "/wallets", .mutate "/wallets" (fun _ => 8) 4]).isSome = true
    by decide +kernel)
  exact ⟨_, s, hs, one_request_one_timer hs "/wallets"⟩

end SuperAi.WebClient
