import Mathlib.Data.Int.Notation
import Mathlib.Logic.Function.Basic
import SuperAi.Foundations.StepSystem

/-! # The session of the web client

`request` and `refreshAccessToken` of `ApiClient` (`web/lib/api.ts`) and the store with its refresh hook
(`web/lib/auth-store.ts`), for any number of tabs over one `localStorage`, against an API that gives a new pair for a
refresh token and accepts the old one no more. A tab is one page load. Its events are those of the JavaScript loop: the
calls that a settled refresh resumes run before anything else in the tab (`ready`), all other steps come in any order.
What follows on a response that is not a first 401 is in `WebClient.EtagCache`.
-/
namespace SuperAi.WebClient
open SuperAi.Foundations
set_option autoImplicit false

/-- The item of `localStorage`, and the newValue of a storage event. -/
structure Stored where
  accessToken : String
  refreshToken : String
  expiresAt : Option ℤ
  deriving DecidableEq, Repr

structure Request where
  method : String
  path : String
  body : Option String
  deriving DecidableEq, Repr

/-- `path.startsWith('/auth/')`. -/
def Request.isAuth (request : Request) : Bool := "/auth/".toList.isPrefixOf request.path.toList

/-- Where a call of `request` is: its main request is on the way, it waits for the refresh in flight, it goes on with
what the refresh gave, or it has its response. -/
inductive Call
  | fetching (request : Request) (authorization : Option String) (isRetry : Bool)
  | refreshing (request : Request) (attemptedRefresh : Option String)
  | refreshed (request : Request) (attemptedRefresh newToken : Option String)
  | answered (status : ℕ)
  | rejected (message : String) (status : ℕ)
  deriving DecidableEq, Repr

def Call.isRefreshed : Call → Bool
  | .refreshed _ _ _ => true
  | _ => false

def Call.isRefreshing : Call → Bool
  | .refreshing _ _ => true
  | _ => false

/-- A waiting call when the refresh settles. -/
def Call.settle (newToken : Option String) : Call → Call
  | .refreshing request attemptedRefresh => .refreshed request attemptedRefresh newToken
  | call => call

/-! ## A tab -/

structure Tab where
  accessToken : Option String := none
  refreshToken : Option String := none
  expiresAt : Option ℤ := none
  hydrated : Bool := false
  /-- `api.defaults.headers.common.Authorization` -/
  authorization : Option String := none
  storageSyncInstalled : Bool := false
  refreshInflight : Bool := false
  calls : List Call := []
  /-- storage events not yet dispatched, the oldest first -/
  inbox : List (Option Stored) := []
  closed : Bool := false
  deriving DecidableEq, Repr

namespace Tab

def setToken (tab : Tab) (token : Option String) : Tab :=
  { tab with
    authorization :=
      match token with
      | none => none
      | some token => if token = "" then none else some ("Bearer " ++ token) }

/-- `setToken` and `set` as the store always does them together. -/
def hold (tab : Tab) : Option Stored → Tab
  | none => { tab.setToken none with accessToken := none, refreshToken := none, expiresAt := none }
  | some stored =>
    { tab.setToken (some stored.accessToken) with
      accessToken := some stored.accessToken
      refreshToken := some stored.refreshToken
      expiresAt := stored.expiresAt }

def setCall (tab : Tab) (k : ℕ) (call : Call) : Tab := { tab with calls := tab.calls.set k call }

/-- `fetch` of a call that starts, with the headers of the moment. -/
def send (tab : Tab) (request : Request) : Tab :=
  { tab with calls := tab.calls ++ [.fetching request tab.authorization false] }

/-- The promise of the refresh settles, and its calls are resumed. -/
def settle (tab : Tab) (newToken : Option String) : Tab :=
  { tab with refreshInflight := false, calls := tab.calls.map (Call.settle newToken) }

/-- The listener of storage events. -/
def onStorage (tab : Tab) : Option Stored → Tab
  | none => tab.hold none
  | some next => if next.accessToken = "" ∨ next.refreshToken = "" then tab else tab.hold (some next)

/-- No resumed call has still to run. -/
def ready (tab : Tab) : Bool := !tab.closed && !tab.calls.any Call.isRefreshed

end Tab

/-- `expiresIn > 0 ? Date.now() + expiresIn * 1000 : null`. -/
def expiry (expiresIn now : ℤ) : Option ℤ := if 0 < expiresIn then some (now + expiresIn * 1000) else none

/-- `read()`: a stored pair with an empty token counts as none. -/
def read (storage : Option Stored) : Option Stored :=
  storage.filter fun stored => stored.accessToken ≠ "" ∧ stored.refreshToken ≠ ""

/-! ## The API and the network -/

/-- What the API answers to a refresh. -/
structure Grant where
  accessToken : String
  refreshToken : String
  expiresIn : ℤ
  deriving DecidableEq, Repr

/-- A request to `/auth/refresh`; the tab that waits for it may have been closed, and the API may not have served it
yet. -/
structure Exchange where
  client : Option ℕ
  refreshToken : String
  answer : Option (Option Grant) := none
  deriving DecidableEq, Repr

/-- The pairs given out, the refresh tokens accepted, and those revoked before they were exchanged. -/
structure Api where
  issued : List (String × String) := []
  live : List String := []
  revoked : List String := []
  deriving DecidableEq, Repr

/-- The tokens drawn are not empty, and the refresh token is a new one. -/
def Api.Draws (api : Api) (accessToken refreshToken : String) : Prop :=
  accessToken ≠ "" ∧ refreshToken ≠ "" ∧ refreshToken ∉ api.issued.map Prod.snd

instance (api : Api) (accessToken refreshToken : String) : Decidable (api.Draws accessToken refreshToken) :=
  inferInstanceAs (Decidable (_ ∧ _ ∧ _))

def Api.issue (api : Api) (accessToken refreshToken : String) : Api :=
  { api with issued := (accessToken, refreshToken) :: api.issued, live := refreshToken :: api.live }

def Api.exchange (api : Api) (presented accessToken refreshToken : String) : Api :=
  ({ api with live := api.live.filter (· ≠ presented) }).issue accessToken refreshToken

def Api.revoke (api : Api) (refreshToken : String) : Api :=
  { api with live := api.live.filter (· ≠ refreshToken), revoked := refreshToken :: api.revoked }

structure Browser where
  storage : Option Stored := none
  tabs : ℕ → Tab := fun _ => {}
  exchanges : List Exchange := []
  api : Api := {}

namespace Browser

def setTab (b : Browser) (i : ℕ) (tab : Tab) : Browser := { b with tabs := Function.update b.tabs i tab }

/-- `persist`: every other tab gets a storage event, unless nothing changes. -/
def persist (b : Browser) (i : ℕ) (state : Option Stored) : Browser :=
  { b with
    storage := state
    tabs := fun j =>
      if j = i ∨ b.storage = state then b.tabs j else { b.tabs j with inbox := (b.tabs j).inbox ++ [state] } }

/-- `persist` with the `setToken` and `set` beside it. -/
def write (b : Browser) (i : ℕ) (state : Option Stored) : Browser :=
  (b.persist i state).setTab i ((b.tabs i).hold state)

/-- `onSessionLost`: another pair in storage is adopted, otherwise the session is over. -/
def onSessionLost (b : Browser) (i : ℕ) : Browser :=
  match read b.storage with
  | some stored =>
    if some stored.refreshToken ≠ (b.tabs i).refreshToken then b.setTab i ((b.tabs i).hold (some stored))
    else b.write i none
  | none => b.write i none

/-- A first 401: the call joins the refresh in flight, starts one, or finds no token to present. -/
def unauthorized (b : Browser) (i k : ℕ) (request : Request) : Browser :=
  let tab := b.tabs i
  if tab.refreshInflight then b.setTab i (tab.setCall k (.refreshing request tab.refreshToken))
  else
    match tab.refreshToken.filter (· ≠ "") with
    | none => b.setTab i (tab.setCall k (.refreshed request tab.refreshToken none))
    | some refreshToken =>
      { b.setTab i { tab.setCall k (.refreshing request tab.refreshToken) with refreshInflight := true } with
        exchanges := b.exchanges ++ [{ client := some i, refreshToken }] }

/-- The rest of `request` after `refreshAccessToken`. -/
def resume (b : Browser) (i k : ℕ) (request : Request) (attemptedRefresh : Option String) : Option String → Browser
  | some _ => b.setTab i ((b.tabs i).setCall k (.fetching request (b.tabs i).authorization true))
  | none =>
    let b := b.onSessionLost i
    let tab := b.tabs i
    if tab.refreshToken.any (· ≠ "") && tab.refreshToken ≠ attemptedRefresh then
      b.setTab i (tab.setCall k (.fetching request tab.authorization true))
    else b.setTab i (tab.setCall k (.rejected "Session expired" 401))

/-- The reply of `/auth/refresh` as the client takes it: `null` when a token is missing. -/
def settle (b : Browser) (i : ℕ) (now : ℤ) : Option Grant → Browser
  | some grant =>
    if grant.accessToken = "" ∨ grant.refreshToken = "" then b.setTab i ((b.tabs i).settle none)
    else
      let b := b.write i (some ⟨grant.accessToken, grant.refreshToken, expiry grant.expiresIn now⟩)
      b.setTab i ((b.tabs i).settle (some grant.accessToken))
  | none => b.setTab i ((b.tabs i).settle none)

/-- `logout` revokes the token in the background, under `/auth/` and with the headers from before. -/
def logout (b : Browser) (i : ℕ) : Browser :=
  let b :=
    match (b.tabs i).refreshToken.filter (· ≠ "") with
    | some refreshToken => b.setTab i ((b.tabs i).send ⟨"POST", "/auth/logout", some refreshToken⟩)
    | none => b
  b.write i none

def hydrate (b : Browser) (i : ℕ) : Browser :=
  let tab := { b.tabs i with storageSyncInstalled := true }
  b.setTab i { (match read b.storage with | some stored => tab.hold (some stored) | none => tab) with hydrated := true }

end Browser

/-! ## Steps -/

inductive Event
  | request (i : ℕ) (request : Request)
  | respond (i k status : ℕ)
  | unreachable (i k : ℕ)
  | resume (i k : ℕ)
  | serve (k : ℕ) (accessToken refreshToken : String) (expiresIn : ℤ)
  | reply (k : ℕ) (now : ℤ)
  | drop (k : ℕ)
  | signIn (i : ℕ) (accessToken refreshToken : String) (expiresIn now : ℤ)
  | logout (i : ℕ)
  | hydrate (i : ℕ)
  | storage (i : ℕ)
  | close (i : ℕ)
  | revoke (refreshToken : String)
  deriving DecidableEq, Repr

namespace Browser

def step (b : Browser) : Event → Option Browser
  | .request i request => if (b.tabs i).ready then some (b.setTab i ((b.tabs i).send request)) else none
  | .respond i k status =>
    if (b.tabs i).ready then
      match (b.tabs i).calls[k]? with
      | some (.fetching request _ isRetry) =>
        if status = 401 ∧ isRetry = false ∧ request.isAuth = false then some (b.unauthorized i k request)
        else some (b.setTab i ((b.tabs i).setCall k (.answered status)))
      | _ => none
    else none
  | .unreachable i k =>
    if (b.tabs i).ready then
      match (b.tabs i).calls[k]? with
      | some (.fetching _ _ _) => some (b.setTab i ((b.tabs i).setCall k (.rejected "Network error" 0)))
      | _ => none
    else none
  | .resume i k =>
    if (b.tabs i).closed then none
    else
      match (b.tabs i).calls[k]? with
      | some (.refreshed request attemptedRefresh newToken) => some (b.resume i k request attemptedRefresh newToken)
      | _ => none
  | .serve k accessToken refreshToken expiresIn =>
    match b.exchanges[k]? with
    | some ⟨client, presented, none⟩ =>
      if presented ∈ b.api.live then
        if b.api.Draws accessToken refreshToken then
          some { b with
            exchanges := b.exchanges.set k ⟨client, presented, some (some ⟨accessToken, refreshToken, expiresIn⟩)⟩
            api := b.api.exchange presented accessToken refreshToken }
        else none
      else some { b with exchanges := b.exchanges.set k ⟨client, presented, some none⟩ }
    | _ => none
  | .reply k now =>
    match b.exchanges[k]? with
    | some ⟨some i, _, some answer⟩ =>
      if (b.tabs i).ready then some ({ b with exchanges := b.exchanges.eraseIdx k }.settle i now answer) else none
    | _ => none
  | .drop k =>
    match b.exchanges[k]? with
    | some ⟨some i, presented, answer⟩ =>
      -- the API may serve it all the same
      if (b.tabs i).ready then
        some ({ b with exchanges := b.exchanges.set k ⟨none, presented, answer⟩ }.settle i 0 none)
      else none
    | _ => none
  | .signIn i accessToken refreshToken expiresIn now =>
    if (b.tabs i).ready ∧ b.api.Draws accessToken refreshToken then
      some ({ b with api := b.api.issue accessToken refreshToken }.write i
        (some ⟨accessToken, refreshToken, expiry expiresIn now⟩))
    else none
  | .logout i => if (b.tabs i).ready then some (b.logout i) else none
  | .hydrate i => if (b.tabs i).ready then some (b.hydrate i) else none
  | .storage i =>
    if (b.tabs i).ready then
      match (b.tabs i).inbox with
      | newValue :: inbox =>
        let tab := { b.tabs i with inbox }
        some (b.setTab i (if tab.storageSyncInstalled then tab.onStorage newValue else tab))
      | [] => none
    else none
  | .close i =>
    if (b.tabs i).closed then none
    else some { b.setTab i { b.tabs i with closed := true } with
      exchanges := b.exchanges.map fun exchange =>
        if exchange.client = some i then { exchange with client := none } else exchange }
  | .revoke refreshToken =>
    if refreshToken ∈ b.api.live then some { b with api := b.api.revoke refreshToken } else none

end Browser

def browser : StepSystem Browser Event := ⟨Browser.step⟩

namespace Browser
variable {b b' : Browser} {e : Event}

/-- What a step can be. -/
inductive Stepped (b : Browser) : Event → Browser → Prop
  | request {i : ℕ} {request : Request} (hready : (b.tabs i).ready = true) :
      Stepped b (.request i request) (b.setTab i ((b.tabs i).send request))
  | answered {i k status : ℕ} {request : Request} {authorization : Option String} {isRetry : Bool}
      (hready : (b.tabs i).ready = true)
      (hcall : (b.tabs i).calls[k]? = some (.fetching request authorization isRetry)) :
      Stepped b (.respond i k status) (b.setTab i ((b.tabs i).setCall k (.answered status)))
  | unauthorized {i k : ℕ} {request : Request} {authorization : Option String} (hready : (b.tabs i).ready = true)
      (hcall : (b.tabs i).calls[k]? = some (.fetching request authorization false))
      (hpath : request.isAuth = false) : Stepped b (.respond i k 401) (b.unauthorized i k request)
  | unreachable {i k : ℕ} {request : Request} {authorization : Option String} {isRetry : Bool}
      (hready : (b.tabs i).ready = true)
      (hcall : (b.tabs i).calls[k]? = some (.fetching request authorization isRetry)) :
      Stepped b (.unreachable i k) (b.setTab i ((b.tabs i).setCall k (.rejected "Network error" 0)))
  | resume {i k : ℕ} {request : Request} {attemptedRefresh newToken : Option String}
      (hopen : (b.tabs i).closed = false)
      (hcall : (b.tabs i).calls[k]? = some (.refreshed request attemptedRefresh newToken)) :
      Stepped b (.resume i k) (b.resume i k request attemptedRefresh newToken)
  | granted {k : ℕ} {accessToken refreshToken : String} {expiresIn : ℤ} {client : Option ℕ} {presented : String}
      (hexchange : b.exchanges[k]? = some ⟨client, presented, none⟩) (hlive : presented ∈ b.api.live)
      (hdraws : b.api.Draws accessToken refreshToken) :
      Stepped b (.serve k accessToken refreshToken expiresIn)
        { b with
          exchanges := b.exchanges.set k ⟨client, presented, some (some ⟨accessToken, refreshToken, expiresIn⟩)⟩
          api := b.api.exchange presented accessToken refreshToken }
  | refused {k : ℕ} {accessToken refreshToken : String} {expiresIn : ℤ} {client : Option ℕ} {presented : String}
      (hexchange : b.exchanges[k]? = some ⟨client, presented, none⟩) (hlive : presented ∉ b.api.live) :
      Stepped b (.serve k accessToken refreshToken expiresIn)
        { b with exchanges := b.exchanges.set k ⟨client, presented, some none⟩ }
  | reply {k i : ℕ} {now : ℤ} {presented : String} {answer : Option Grant}
      (hexchange : b.exchanges[k]? = some ⟨some i, presented, some answer⟩) (hready : (b.tabs i).ready = true) :
      Stepped b (.reply k now) ({ b with exchanges := b.exchanges.eraseIdx k }.settle i now answer)
  | drop {k i : ℕ} {presented : String} {answer : Option (Option Grant)}
      (hexchange : b.exchanges[k]? = some ⟨some i, presented, answer⟩) (hready : (b.tabs i).ready = true) :
      Stepped b (.drop k)
        ({ b with exchanges := b.exchanges.set k ⟨none, presented, answer⟩ }.settle i 0 none)
  | signIn {i : ℕ} {accessToken refreshToken : String} {expiresIn now : ℤ} (hready : (b.tabs i).ready = true)
      (hdraws : b.api.Draws accessToken refreshToken) :
      Stepped b (.signIn i accessToken refreshToken expiresIn now)
        ({ b with api := b.api.issue accessToken refreshToken }.write i
          (some ⟨accessToken, refreshToken, expiry expiresIn now⟩))
  | logout {i : ℕ} (hready : (b.tabs i).ready = true) : Stepped b (.logout i) (b.logout i)
  | hydrate {i : ℕ} (hready : (b.tabs i).ready = true) : Stepped b (.hydrate i) (b.hydrate i)
  | storage {i : ℕ} {newValue : Option Stored} {inbox : List (Option Stored)} (hready : (b.tabs i).ready = true)
      (hinbox : (b.tabs i).inbox = newValue :: inbox) (hinstalled : (b.tabs i).storageSyncInstalled = true) :
      Stepped b (.storage i) (b.setTab i ({ b.tabs i with inbox }.onStorage newValue))
  | unheard {i : ℕ} {newValue : Option Stored} {inbox : List (Option Stored)} (hready : (b.tabs i).ready = true)
      (hinbox : (b.tabs i).inbox = newValue :: inbox) (hinstalled : (b.tabs i).storageSyncInstalled = false) :
      Stepped b (.storage i) (b.setTab i { b.tabs i with inbox })
  | close {i : ℕ} (hopen : (b.tabs i).closed = false) :
      Stepped b (.close i)
        { b.setTab i { b.tabs i with closed := true } with
          exchanges := b.exchanges.map fun exchange =>
            if exchange.client = some i then { exchange with client := none } else exchange }
  | revoke {refreshToken : String} (hlive : refreshToken ∈ b.api.live) :
      Stepped b (.revoke refreshToken) { b with api := b.api.revoke refreshToken }

theorem stepped_of_step (h : browser.step b e = some b') : Stepped b e b' := by
  replace h : Browser.step b e = some b' := h
  cases e with
  | request i request =>
    simp only [step, Option.ite_none_right_eq_some, Option.some.injEq] at h
    exact h.2 ▸ .request h.1
  | respond i k status =>
    simp only [step, Option.ite_none_right_eq_some] at h
    obtain ⟨hready, h⟩ := h
    split at h
    · rename_i request authorization isRetry hcall
      split at h
      · rename_i hfirst
        obtain ⟨rfl, rfl, hpath⟩ := hfirst
        exact Option.some.inj h ▸ .unauthorized hready hcall hpath
      · exact Option.some.inj h ▸ .answered hready hcall
    · cases h
  | unreachable i k =>
    simp only [step, Option.ite_none_right_eq_some] at h
    obtain ⟨hready, h⟩ := h
    split at h
    · rename_i hcall
      exact Option.some.inj h ▸ .unreachable hready hcall
    · cases h
  | resume i k =>
    simp only [step, Option.ite_none_left_eq_some] at h
    obtain ⟨hopen, h⟩ := h
    split at h
    · rename_i hcall
      exact Option.some.inj h ▸ .resume (Bool.eq_false_iff.mpr hopen) hcall
    · cases h
  | serve k accessToken refreshToken expiresIn =>
    simp only [step] at h
    split at h
    · rename_i client presented hexchange
      by_cases hlive : presented ∈ b.api.live
      · rw [if_pos hlive] at h
        obtain ⟨hdraws, h⟩ := Option.ite_none_right_eq_some.mp h
        exact Option.some.inj h ▸ .granted hexchange hlive hdraws
      · rw [if_neg hlive] at h
        exact Option.some.inj h ▸ .refused hexchange hlive
    · cases h
  | reply k now =>
    simp only [step] at h
    split at h
    · rename_i hexchange
      obtain ⟨hready, h⟩ := Option.ite_none_right_eq_some.mp h
      exact Option.some.inj h ▸ .reply hexchange hready
    · cases h
  | drop k =>
    simp only [step] at h
    split at h
    · rename_i hexchange
      obtain ⟨hready, h⟩ := Option.ite_none_right_eq_some.mp h
      exact Option.some.inj h ▸ .drop hexchange hready
    · cases h
  | signIn i accessToken refreshToken expiresIn now =>
    simp only [step, Option.ite_none_right_eq_some, Option.some.injEq] at h
    exact h.2 ▸ .signIn h.1.1 h.1.2
  | logout i =>
    simp only [step, Option.ite_none_right_eq_some, Option.some.injEq] at h
    exact h.2 ▸ .logout h.1
  | hydrate i =>
    simp only [step, Option.ite_none_right_eq_some, Option.some.injEq] at h
    exact h.2 ▸ .hydrate h.1
  | storage i =>
    simp only [step, Option.ite_none_right_eq_some] at h
    obtain ⟨hready, h⟩ := h
    split at h
    · rename_i hinbox
      by_cases hinstalled : (b.tabs i).storageSyncInstalled = true
      · rw [if_pos hinstalled] at h
        exact Option.some.inj h ▸ .storage hready hinbox hinstalled
      · rw [if_neg hinstalled] at h
        exact Option.some.inj h ▸ .unheard hready hinbox (Bool.eq_false_iff.mpr hinstalled)
    · cases h
  | close i =>
    simp only [step, Option.ite_none_left_eq_some, Option.some.injEq] at h
    exact h.2 ▸ .close (Bool.eq_false_iff.mpr h.1)
  | revoke refreshToken =>
    simp only [step, Option.ite_none_right_eq_some, Option.some.injEq] at h
    exact h.2 ▸ .revoke h.1

/-! ## What the writes leave as it is -/

section
variable (b : Browser) (i j : ℕ) (tab : Tab) (state : Option Stored)

@[simp] theorem setTab_self : (b.setTab i tab).tabs i = tab := by simp [setTab]

theorem setTab_of_ne {i j : ℕ} (h : j ≠ i) : (b.setTab i tab).tabs j = b.tabs j := by simp [setTab, h]

@[simp] theorem setTab_storage : (b.setTab i tab).storage = b.storage := rfl
@[simp] theorem setTab_exchanges : (b.setTab i tab).exchanges = b.exchanges := rfl
@[simp] theorem setTab_api : (b.setTab i tab).api = b.api := rfl
@[simp] theorem write_storage : (b.write i state).storage = state := rfl
@[simp] theorem write_exchanges : (b.write i state).exchanges = b.exchanges := rfl
@[simp] theorem write_api : (b.write i state).api = b.api := rfl
@[simp] theorem write_self : (b.write i state).tabs i = (b.tabs i).hold state := setTab_self _ i _

theorem write_of_ne {i j : ℕ} (h : j ≠ i) : (b.write i state).tabs j =
    if b.storage = state then b.tabs j else { b.tabs j with inbox := (b.tabs j).inbox ++ [state] } := by
  rw [write, setTab_of_ne _ _ h]
  simp [persist, h]

end
end Browser

namespace Tab
variable (tab : Tab) (state : Option Stored)

@[simp] theorem hold_calls : (tab.hold state).calls = tab.calls := by cases state <;> rfl
@[simp] theorem hold_refreshInflight : (tab.hold state).refreshInflight = tab.refreshInflight := by cases state <;> rfl
@[simp] theorem hold_closed : (tab.hold state).closed = tab.closed := by cases state <;> rfl
@[simp] theorem hold_inbox : (tab.hold state).inbox = tab.inbox := by cases state <;> rfl
@[simp] theorem hold_storageSyncInstalled : (tab.hold state).storageSyncInstalled = tab.storageSyncInstalled := by
  cases state <;> rfl
@[simp] theorem hold_refreshToken : (tab.hold state).refreshToken = state.map Stored.refreshToken := by
  cases state <;> rfl

theorem onStorage_cases : tab.onStorage state = tab ∨ tab.onStorage state = tab.hold state := by
  cases state with
  | none => exact .inr rfl
  | some next =>
    simp only [onStorage]
    split
    · exact .inl rfl
    · exact .inr rfl

end Tab
end SuperAi.WebClient
