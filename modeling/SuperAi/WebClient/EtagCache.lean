import Mathlib.Data.Int.Notation
import Mathlib.Logic.Function.Basic
import SuperAi.Foundations.OrderedMap
import SuperAi.Foundations.StepSystem

/-! # Conditional requests of the web client

`doFetch` and the part of `ApiClient.request` behind the 401 check (`web/lib/api.ts`): a GET carries the ETag of the
cached response, a 304 gives the cached body, a 200 is cached, a write clears the cache. Calls overlap in any order, and
the resources change on the server meanwhile. A GET then gives the body of the version the server had when it answered,
just as an unconditional one would (`get_as_plain`), provided that no other response has replaced the cached one between
a conditional request and its 304.
-/
namespace SuperAi.WebClient
open SuperAi.Foundations
set_option autoImplicit false

universe u
variable {α : Type u}

/-- A response with its parsed body, and the message an error would take from it. -/
structure Response (α : Type u) where
  status : ℕ
  etag : Option String
  data : α
  message : String

structure EtagEntry (α : Type u) where
  etag : String
  body : α
  ts : ℤ

def Response.ok (response : Response α) : Bool := decide (200 ≤ response.status ∧ response.status < 300)

/-- A call with the version of its resource that the server had when it answered. A GET that gets a 304 after its
entry is gone is sent once more without a condition. -/
inductive HttpCall (α : Type u)
  | sent (method path : String) (ifNoneMatch : Option String)
  | answered (method path : String) (ifNoneMatch : Option String) (version : String) (response : Response α)
  | resolved (method path version : String) (data : α) (status : ℕ)
  | rejected (message : String) (status : ℕ) (data : α)

abbrev EtagCache (α : Type u) := KeyValue String (EtagEntry α)

namespace EtagCache

def ETAG_MAX : ℕ := 200

/-- The `If-None-Match` header of a GET. -/
def ifNoneMatch (cache : EtagCache α) (path : String) : Option String :=
  (cache.get path).bind fun cached => if cached.etag = "" then none else some cached.etag

/-- `if (oldest) this.etagCache.delete(oldest)`: an empty key is not deleted. -/
def evict (cache : EtagCache α) : EtagCache α :=
  if ETAG_MAX ≤ cache.length then
    match cache with
    | [] => []
    | oldest :: _ => if oldest.1 = "" then cache else cache.del oldest.1
  else cache

def store (cache : EtagCache α) (path : String) (response : Response α) (now : ℤ) : EtagCache α :=
  match response.etag.filter (· ≠ "") with
  | some etag => cache.evict.put path ⟨etag, response.data, now⟩
  | none => cache

/-- What a response that is not a 304 does to the cache. -/
def receive (cache : EtagCache α) (method path : String) (response : Response α) (now : ℤ) : EtagCache α :=
  if response.ok then
    let cache := if method = "GET" ∧ response.status = 200 then cache.store path response now else cache
    if method ≠ "GET" ∧ method ≠ "HEAD" then [] else cache
  else cache

end EtagCache

/-- The client, and the version of each resource on the server. -/
structure EtagClient (α : Type u) where
  etagCache : EtagCache α := []
  calls : List (HttpCall α) := []
  current : String → String

inductive EtagEvent (α : Type u)
  | call (method path : String)
  /-- the server answers call `k`; it may leave the ETag out -/
  | serve (k : ℕ) (tagged : Bool)
  /-- the server answers with an error, or answers another method than GET -/
  | other (k : ℕ) (response : Response α)
  | receive (k : ℕ) (now : ℤ)
  | update (path version : String)

section
variable (bodyOf : String → String → α) (null : α)

/-- What the server answers to a GET, with or without a condition. -/
def serve (path : String) (ifNoneMatch : Option String) (version : String) (tagged : Bool) : Response α :=
  if ifNoneMatch = some version then ⟨304, some version, null, "Not Modified"⟩
  else ⟨200, if tagged then some version else none, bodyOf path version, "OK"⟩

def HttpCall.receive (method path version : String) (response : Response α) : HttpCall α :=
  if response.ok then .resolved method path version response.data response.status
  else .rejected response.message response.status response.data

def EtagClient.step (client : EtagClient α) : EtagEvent α → Option (EtagClient α)
  | .call method path =>
    let ifNoneMatch := if method = "GET" then client.etagCache.ifNoneMatch path else none
    some { client with calls := client.calls ++ [.sent method path ifNoneMatch] }
  | .serve k tagged =>
    match client.calls[k]? with
    | some (.sent method path ifNoneMatch) =>
      let version := client.current path
      if method = "GET" then
        some { client with
          calls := client.calls.set k
            (.answered method path ifNoneMatch version (serve bodyOf null path ifNoneMatch version tagged)) }
      else none
    | _ => none
  | .other k response =>
    match client.calls[k]? with
    | some (.sent method path ifNoneMatch) =>
      if method ≠ "GET" ∨ response.ok = false ∧ response.status ≠ 304 then
        some { client with
          calls := client.calls.set k (.answered method path ifNoneMatch (client.current path) response) }
      else none
    | _ => none
  | .receive k now =>
    match client.calls[k]? with
    | some (.answered method path _ version response) =>
      if response.status = 304 ∧ method = "GET" then
        match client.etagCache.get path with
        | some cached => some { client with
            etagCache := client.etagCache.put path { cached with ts := now }
            calls := client.calls.set k (.resolved method path version cached.body 200) }
        | none => some { client with calls := client.calls.set k (.sent method path none) }
      else some { client with
        etagCache := client.etagCache.receive method path response now
        calls := client.calls.set k (.receive method path version response) }
    | _ => none
  | .update path version => some { client with current := Function.update client.current path version }

def etagClient : StepSystem (EtagClient α) (EtagEvent α) := ⟨EtagClient.step bodyOf null⟩

/-- A 304 finds the entry its request was sent with, or none. -/
def EtagCache.confirmed (cache : EtagCache α) : Option (HttpCall α) → Bool
  | some (.answered _ path ifNoneMatch _ response) =>
    response.status ≠ 304 || (cache.get path).all fun cached => ifNoneMatch = some cached.etag
  | _ => true

/-- Paths are not empty, and no entry is replaced between a conditional request and its 304. -/
def Unreplaced (client : EtagClient α) : EtagEvent α → Prop
  | .call _ path => path ≠ ""
  | .receive k _ => client.etagCache.confirmed client.calls[k]? = true
  | _ => True

instance (client : EtagClient α) : DecidablePred (Unreplaced client)
  | .call _ path => inferInstanceAs (Decidable (path ≠ ""))
  | .receive k _ => inferInstanceAs (Decidable (client.etagCache.confirmed client.calls[k]? = true))
  | .serve _ _ | .other _ _ | .update _ _ => .isTrue trivial

/-! ## The cache -/

/-- Every entry is a body the server has sent with that ETag for that path. -/
def Genuine (cache : EtagCache α) : Prop :=
  ∀ path cached, cache.get path = some cached → cached.body = bodyOf path cached.etag

/-- A call in order: an answer is the server's, and what a GET resolves with is the body of the version. -/
def HttpCall.Right : HttpCall α → Prop
  | .sent _ path _ => path ≠ ""
  | .answered method path ifNoneMatch version response => path ≠ "" ∧ (method = "GET" →
      response.status = 304 ∧ ifNoneMatch = some version ∨
      response.status = 200 ∧ response.data = bodyOf path version ∧
        (∀ etag, response.etag = some etag → etag = version) ∨
      response.ok = false ∧ response.status ≠ 304)
  | .resolved method path version data status => method = "GET" → data = bodyOf path version ∧ status = 200
  | .rejected _ _ _ => True

structure EtagClient.Right (client : EtagClient α) : Prop where
  genuine : Genuine bodyOf client.etagCache
  keys : (client.etagCache.map Prod.fst).Nodup ∧ "" ∉ client.etagCache.map Prod.fst
  bounded : client.etagCache.length ≤ EtagCache.ETAG_MAX
  calls : ∀ call ∈ client.calls, call.Right bodyOf

variable {bodyOf null} {cache : EtagCache α} {client client' : EtagClient α} {e : EtagEvent α}

theorem get_evict {path : String} {cached : EtagEntry α} (h : cache.evict.get path = some cached) :
    cache.get path = some cached := by
  unfold EtagCache.evict at h
  split at h
  · cases cache with
    | nil => exact h
    | cons oldest rest =>
      dsimp only at h
      split at h
      · exact h
      · by_cases hpath : path = oldest.1
        · rw [hpath, KeyValue.get_del_self] at h
          cases h
        · rwa [KeyValue.get_del_of_ne hpath] at h
  · exact h

theorem evict_length (hbounded : cache.length ≤ EtagCache.ETAG_MAX) (hkeys : "" ∉ cache.map Prod.fst) :
    cache.evict.length + 1 ≤ EtagCache.ETAG_MAX := by
  unfold EtagCache.evict
  split
  · cases cache with
    | nil => simp [EtagCache.ETAG_MAX]
    | cons oldest rest =>
      dsimp only
      rw [if_neg fun hempty => hkeys (List.mem_map.mpr ⟨oldest, List.mem_cons_self, hempty⟩)]
      have hlt : (KeyValue.del (oldest :: rest) oldest.1).length < (oldest :: rest).length := by
        refine List.length_filter_lt_length_iff_exists.mpr ⟨oldest, List.mem_cons_self, ?_⟩
        simp
      omega
  · omega

theorem evict_keys_sublist : (cache.evict.map Prod.fst).Sublist (cache.map Prod.fst) := by
  unfold EtagCache.evict
  split
  · cases cache with
    | nil => exact List.Sublist.refl _
    | cons oldest rest =>
      dsimp only
      split
      · exact List.Sublist.refl _
      · exact List.filter_sublist.map _
  · exact List.Sublist.refl _

/-- What `store` keeps of the cache. -/
theorem store_right (hgenuine : Genuine bodyOf cache)
    (hkeys : (cache.map Prod.fst).Nodup ∧ "" ∉ cache.map Prod.fst) (hbounded : cache.length ≤ EtagCache.ETAG_MAX)
    {path : String} (hpath : path ≠ "") {response : Response α}
    (hbody : ∀ etag, response.etag = some etag → response.data = bodyOf path etag) (now : ℤ) :
    Genuine bodyOf (cache.store path response now) ∧
      (((cache.store path response now).map Prod.fst).Nodup ∧ "" ∉ (cache.store path response now).map Prod.fst) ∧
      (cache.store path response now).length ≤ EtagCache.ETAG_MAX := by
  unfold EtagCache.store
  split
  · rename_i etag hetag
    have hsome := (Option.filter_eq_some_iff.mp hetag).1
    refine ⟨fun path' cached hget => ?_,
      ⟨KeyValue.nodup_put (hkeys.1.sublist evict_keys_sublist) _ _, fun hmem => ?_⟩, ?_⟩
    · by_cases heq : path' = path
      · subst heq
        rw [KeyValue.get_put_self] at hget
        obtain rfl := Option.some.inj hget
        exact hbody etag hsome
      · rw [KeyValue.get_put_of_ne heq] at hget
        exact hgenuine path' cached (get_evict hget)
    · rcases KeyValue.mem_keys_put.mp hmem with heq | hmem
      · exact hpath heq.symm
      · exact hkeys.2 (evict_keys_sublist.subset hmem)
    · have hlength := KeyValue.length_put_le cache.evict path ⟨etag, response.data, now⟩
      have hroom := evict_length hbounded hkeys.2
      omega
  · exact ⟨hgenuine, hkeys, hbounded⟩

/-! ## Steps -/

theorem EtagClient.Right.setCall (h : client.Right bodyOf) (k : ℕ) {call : HttpCall α} (hcall : call.Right bodyOf) :
    ({ client with calls := client.calls.set k call } : EtagClient α).Right bodyOf := by
  refine ⟨h.genuine, h.keys, h.bounded, fun other hmem => ?_⟩
  rcases List.mem_or_eq_of_mem_set hmem with hmem | rfl
  · exact h.calls other hmem
  · exact hcall

theorem EtagClient.Right.setCache (h : client.Right bodyOf) {etagCache : EtagCache α}
    (hgenuine : Genuine bodyOf etagCache)
    (hkeys : (etagCache.map Prod.fst).Nodup ∧ "" ∉ etagCache.map Prod.fst)
    (hbounded : etagCache.length ≤ EtagCache.ETAG_MAX) : ({ client with etagCache } : EtagClient α).Right bodyOf :=
  ⟨hgenuine, hkeys, hbounded, h.calls⟩

/-- A 304 touches the time of its entry only. -/
theorem EtagClient.Right.touch (h : client.Right bodyOf) {path : String} {cached : EtagEntry α}
    (hget : client.etagCache.get path = some cached) (now : ℤ) :
    ({ client with etagCache := client.etagCache.put path { cached with ts := now } } : EtagClient α).Right bodyOf := by
  have hmem : path ∈ client.etagCache.map Prod.fst := List.mem_map.mpr ⟨_, KeyValue.mem_of_get hget, rfl⟩
  have hkeys : ∀ key, key ∈ (client.etagCache.put path { cached with ts := now }).map Prod.fst →
      key ∈ client.etagCache.map Prod.fst := fun key hkey =>
    (KeyValue.mem_keys_put.mp hkey).elim (fun heq => heq ▸ hmem) id
  have hnodup := KeyValue.nodup_put h.keys.1 path { cached with ts := now }
  refine h.setCache (fun path' cached' hget' => ?_) ⟨hnodup, fun hempty => h.keys.2 (hkeys _ hempty)⟩ ?_
  · by_cases heq : path' = path
    · subst heq
      rw [KeyValue.get_put_self] at hget'
      obtain rfl := Option.some.inj hget'
      exact h.genuine path' cached hget
    · rw [KeyValue.get_put_of_ne heq] at hget'
      exact h.genuine path' cached' hget'
  · have hle := (List.subperm_of_subset hnodup hkeys).length_le
    simp only [List.length_map] at hle
    exact Nat.le_trans hle h.bounded

theorem EtagClient.Right.receive (h : client.Right bodyOf) {method path version : String} {ifNoneMatch : Option String}
    {response : Response α} (hcall : (HttpCall.answered method path ifNoneMatch version response).Right bodyOf)
    (hstatus : ¬ (response.status = 304 ∧ method = "GET")) (now : ℤ) :
    ({ client with etagCache := client.etagCache.receive method path response now } : EtagClient α).Right bodyOf := by
  obtain ⟨hpath, hanswer⟩ := hcall
  unfold EtagCache.receive
  split
  · rename_i hok
    by_cases hget : method = "GET"
    · subst hget
      simp only [ne_eq, not_true_eq_false, false_and, if_false, true_and]
      split
      · rename_i h200
        rcases hanswer rfl with ⟨h304, -⟩ | ⟨-, hdata, hetag⟩ | hfailed
        · exact absurd ⟨h304, rfl⟩ hstatus
        · obtain ⟨hgenuine, hkeys, hbounded⟩ := store_right h.genuine h.keys h.bounded hpath
            (fun etag hsome => (hetag etag hsome) ▸ hdata) now
          exact h.setCache hgenuine hkeys hbounded
        · rw [hfailed.1] at hok
          cases hok
      · exact h.setCache h.genuine h.keys h.bounded
    · simp only [hget, false_and, if_false]
      split
      · exact h.setCache (fun _ _ hnone => nomatch hnone) ⟨List.nodup_nil, by simp⟩ (Nat.zero_le _)
      · exact h.setCache h.genuine h.keys h.bounded
  · exact h.setCache h.genuine h.keys h.bounded

theorem serve_right {path : String} {ifNoneMatch : Option String} (version : String) (tagged : Bool)
    (hpath : path ≠ "") :
    (HttpCall.answered "GET" path ifNoneMatch version
      (serve bodyOf null path ifNoneMatch version tagged)).Right bodyOf := by
  refine ⟨hpath, fun _ => ?_⟩
  unfold serve
  split
  · rename_i hmatch
    exact .inl ⟨rfl, hmatch⟩
  · refine .inr (.inl ⟨rfl, rfl, fun etag hetag => ?_⟩)
    cases tagged with
    | false => cases hetag
    | true => exact (Option.some.inj hetag).symm

theorem EtagClient.Right.step (h : client.Right bodyOf) (hguard : Unreplaced client e)
    (hstep : (etagClient bodyOf null).step client e = some client') : client'.Right bodyOf := by
  replace hstep : EtagClient.step bodyOf null client e = some client' := hstep
  cases e with
  | call method path =>
    obtain rfl := Option.some.inj hstep
    refine ⟨h.genuine, h.keys, h.bounded, fun call hmem => ?_⟩
    rcases List.mem_append.mp hmem with hmem | hmem
    · exact h.calls call hmem
    · obtain rfl := List.mem_singleton.mp hmem
      exact hguard
  | serve k tagged =>
    simp only [EtagClient.step] at hstep
    split at hstep
    · rename_i method path ifNoneMatch hcall
      obtain ⟨rfl, hstep⟩ := Option.ite_none_right_eq_some.mp hstep
      obtain rfl := Option.some.inj hstep
      exact h.setCall k (serve_right _ _ (h.calls _ (List.mem_of_getElem? hcall)))
    · cases hstep
  | other k response =>
    simp only [EtagClient.step] at hstep
    split at hstep
    · rename_i method path ifNoneMatch hcall
      obtain ⟨hother, hstep⟩ := Option.ite_none_right_eq_some.mp hstep
      obtain rfl := Option.some.inj hstep
      refine h.setCall k ⟨h.calls _ (List.mem_of_getElem? hcall), fun hget => .inr (.inr ?_)⟩
      exact hother.resolve_left fun hne => hne hget
    · cases hstep
  | receive k now =>
    simp only [EtagClient.step] at hstep
    split at hstep
    · rename_i method path ifNoneMatch version response hcall
      have hright := h.calls _ (List.mem_of_getElem? hcall)
      split at hstep
      · rename_i h304
        obtain ⟨hstatus, rfl⟩ := h304
        split at hstep
        · rename_i cached hget
          obtain rfl := Option.some.inj hstep
          -- the entry is still the one whose ETag the server has confirmed
          have hsame : ifNoneMatch = some cached.etag := by
            have hconfirmed : client.etagCache.confirmed client.calls[k]? = true := hguard
            rw [hcall] at hconfirmed
            simpa [EtagCache.confirmed, hstatus, hget] using hconfirmed
          refine (h.touch hget now).setCall k fun _ => ⟨?_, rfl⟩
          rcases hright.2 rfl with ⟨-, hversion⟩ | ⟨h200, -⟩ | hfailed
          · have hetag : cached.etag = version := Option.some.inj (hsame.symm.trans hversion)
            exact hetag ▸ h.genuine path cached hget
          · rw [hstatus] at h200
            cases h200
          · exact absurd hstatus hfailed.2
        · obtain rfl := Option.some.inj hstep
          exact h.setCall k hright.1
      · rename_i hstatus
        obtain rfl := Option.some.inj hstep
        refine (h.receive hright hstatus now).setCall k ?_
        unfold HttpCall.receive
        split
        · rename_i hok
          intro hget
          subst hget
          rcases hright.2 rfl with ⟨h304, -⟩ | ⟨h200, hdata, -⟩ | hfailed
          · exact absurd ⟨h304, rfl⟩ hstatus
          · exact ⟨hdata, h200⟩
          · rw [hfailed.1] at hok
            cases hok
        · trivial
    · cases hstep
  | update path version =>
    obtain rfl := Option.some.inj hstep
    exact ⟨h.genuine, h.keys, h.bounded, h.calls⟩

/-- **A conditional GET is as good as a plain one.** In every run in which paths are not empty and no response replaces
a cached one between a conditional request and its 304, a GET that resolves gives with status 200 the body of the
version the server had when it answered, and the cache stays within its bound. -/
theorem get_as_plain {current : String → String} {es : List (EtagEvent α)}
    (h : (etagClient bodyOf null).GuardedRun Unreplaced { current } es client) :
    (∀ path version data status, .resolved "GET" path version data status ∈ client.calls →
      data = bodyOf path version ∧ status = 200) ∧ client.etagCache.length ≤ EtagCache.ETAG_MAX := by
  have hright := h.invariant (I := fun client => client.Right bodyOf) (fun _ _ _ hinv hguard hstep =>
    hinv.step hguard hstep) ⟨by simp [Genuine], ⟨List.nodup_nil, by simp⟩, Nat.zero_le _, by simp⟩
  exact ⟨fun path version data status hmem => hright.calls _ hmem rfl, hright.bounded⟩

end

/-- A GET, a GET confirmed by a 304, and a third one whose 304 comes after a write has cleared the cache. -/
theorem get_as_plain_cached : ∃ es client,
    (etagClient (fun path version => (path, version)) ("", "")).GuardedRun Unreplaced
      { current := fun _ => "v1" } es client ∧
    (∀ path version data status, .resolved "GET" path version data status ∈ client.calls →
      data = (path, version) ∧ status = 200) ∧ client.etagCache.length ≤ EtagCache.ETAG_MAX := by
  obtain ⟨client, hclient⟩ := Option.isSome_iff_exists.mp (show ((etagClient (fun path version => (path, version))
    ("", "")).guardedRun Unreplaced { current := fun _ => "v1" }
    [.call "GET" "/wallets", .serve 0 true, .receive 0 1, .call "GET" "/wallets", .serve 1 true, .receive 1 2,
      .call "GET" "/wallets", .serve 2 true, .call "POST" "/wallets", .other 3 ⟨201, none, ("", ""), ""⟩, .receive 3 3,
      .receive 2 4, .update "/wallets" "v2", .serve 2 true, .receive 2 5]).isSome = true by decide +kernel)
  have hrun := StepSystem.GuardedRun.of_guardedRun hclient
  exact ⟨_, client, hrun, get_as_plain hrun⟩

end SuperAi.WebClient
