import SuperAi.WebClient.TokenPairs

/-! # Refreshes in turn

The API accepts a refresh token once, and every other tab still holds it then. As long as a tab starts a refresh only
when it has seen all storage events and no refresh is on the way, no token is presented a second time, so that the API
refuses revoked tokens only (`refused_only_revoked`). A tab that waits for an event may hold a spent token; what it will
hold once it has seen the last event is alive (`InTurn`).
-/
namespace SuperAi.WebClient
open SuperAi.Foundations
set_option autoImplicit false

namespace Browser

/-- Tabs install the listener before they sign in or call; a refresh starts after the last event and alone, and is
neither lost nor left behind. -/
def InTurnGuard (b : Browser) : Event → Prop
  | .respond i _ status => status = 401 → (b.tabs i).storageSyncInstalled = true ∧
      ((b.tabs i).refreshInflight = true ∨ (b.tabs i).inbox = [] ∧ b.exchanges = [])
  | .signIn i _ _ _ _ => (b.tabs i).storageSyncInstalled = true
  | .drop _ => False
  | .close i => (b.tabs i).refreshInflight = false
  | _ => True

instance (b : Browser) : DecidablePred b.InTurnGuard
  | .respond i _ status => inferInstanceAs (Decidable (status = 401 → (b.tabs i).storageSyncInstalled = true ∧
      ((b.tabs i).refreshInflight = true ∨ (b.tabs i).inbox = [] ∧ b.exchanges = [])))
  | .signIn i _ _ _ _ => inferInstanceAs (Decidable ((b.tabs i).storageSyncInstalled = true))
  | .drop _ => .isFalse id
  | .close i => inferInstanceAs (Decidable ((b.tabs i).refreshInflight = false))
  | .request _ _ | .unreachable _ _ | .resume _ _ | .serve _ _ _ _ | .reply _ _ | .logout _ | .hydrate _ | .storage _
  | .revoke _ => .isTrue trivial

def Accepted (b : Browser) (token : String) : Prop := token ∈ b.api.live ∨ token ∈ b.api.revoked

/-- The token is accepted, or has just been exchanged and the new pair is on its way. -/
def Alive (b : Browser) (token : String) : Prop :=
  b.Accepted token ∨
    ∃ exchange ∈ b.exchanges, exchange.refreshToken = token ∧ ∃ grant, exchange.answer = some (some grant)

/-- The last that tab `i` will come to hold is alive. -/
structure TabInTurn (b : Browser) (i : ℕ) (tab : Tab) : Prop where
  last : ∀ stored, tab.inbox.getLast? = some (some stored) → b.Alive stored.refreshToken
  held : tab.inbox = [] → ∀ token, tab.refreshToken = some token → b.Alive token
  deaf : tab.storageSyncInstalled = false →
    tab.refreshToken = none ∧ ∀ call ∈ tab.calls, call.isRefreshing = false ∧ call.isRefreshed = false
  own : ∀ exchange ∈ b.exchanges, exchange.client = some i → tab.storageSyncInstalled = true ∧
    ∀ stored, some stored ∈ tab.inbox → stored.refreshToken ≠ exchange.refreshToken

structure InTurn (b : Browser) : Prop where
  one : b.exchanges.length ≤ 1
  storage : ∀ stored, b.storage = some stored → b.Alive stored.refreshToken
  tabs : ∀ i, TabInTurn b i (b.tabs i)
  unserved : ∀ exchange ∈ b.exchanges, exchange.answer = none → b.Accepted exchange.refreshToken
  refused : ∀ exchange ∈ b.exchanges, exchange.answer = some none → exchange.refreshToken ∈ b.api.revoked
  granted : ∀ exchange ∈ b.exchanges, ∀ grant, exchange.answer = some (some grant) → b.Accepted grant.refreshToken ∧
    ∀ stored, b.storage = some stored → stored.refreshToken ≠ grant.refreshToken

variable {b b' : Browser} {e : Event} {i k : ℕ} {tab : Tab}

/-! ## Steps of a tab -/

theorem TabInTurn.congr {tab' : Tab} (h : TabInTurn b i tab) (hinbox : tab'.inbox = tab.inbox)
    (hrefresh : tab'.refreshToken = tab.refreshToken)
    (hinstalled : tab'.storageSyncInstalled = tab.storageSyncInstalled)
    (hcalls : tab.storageSyncInstalled = false → ∀ call ∈ tab'.calls,
      call.isRefreshing = false ∧ call.isRefreshed = false) : TabInTurn b i tab' := by
  refine ⟨?_, ?_, fun hdeaf => ?_, ?_⟩
  · rw [hinbox]
    exact h.last
  · rw [hinbox, hrefresh]
    exact h.held
  · rw [hinstalled] at hdeaf
    exact ⟨hrefresh.trans (h.deaf hdeaf).1, hcalls hdeaf⟩
  · rw [hinbox, hinstalled]
    exact h.own

theorem TabInTurn.setCall (h : TabInTurn b i tab) (k : ℕ) {call : Call}
    (hcall : tab.storageSyncInstalled = false → call.isRefreshing = false ∧ call.isRefreshed = false) :
    TabInTurn b i (tab.setCall k call) := by
  refine h.congr rfl rfl rfl fun hdeaf other hother => ?_
  rcases List.mem_or_eq_of_mem_set hother with hmem | rfl
  · exact (h.deaf hdeaf).2 other hmem
  · exact hcall hdeaf

theorem TabInTurn.send (h : TabInTurn b i tab) (request : Request) : TabInTurn b i (tab.send request) := by
  refine h.congr rfl rfl rfl fun hdeaf other hother => ?_
  rcases List.mem_append.mp hother with hmem | hmem
  · exact (h.deaf hdeaf).2 other hmem
  · obtain rfl := List.mem_singleton.mp hmem
    exact ⟨rfl, rfl⟩

theorem TabInTurn.settle (h : TabInTurn b i tab) (newToken : Option String) : TabInTurn b i (tab.settle newToken) := by
  refine h.congr rfl rfl rfl fun hdeaf other hother => ?_
  obtain ⟨call, hcall, rfl⟩ := List.mem_map.mp hother
  have hidle := (h.deaf hdeaf).2 call hcall
  cases call with
  | refreshing => cases hidle.1
  | _ => exact hidle

/-- A tab that hears of the pairs it comes to hold. -/
theorem TabInTurn.hold (h : TabInTurn b i tab) {state : Option Stored}
    (hstate : tab.inbox = [] → ∀ stored, state = some stored → b.Alive stored.refreshToken)
    (hinstalled : state = none ∨ tab.storageSyncInstalled = true) : TabInTurn b i (tab.hold state) := by
  refine ⟨by simpa using h.last, fun hempty token htoken => ?_, fun hdeaf => ?_, by simpa using h.own⟩
  · rw [Tab.hold_inbox] at hempty
    rw [Tab.hold_refreshToken] at htoken
    obtain ⟨stored, hstored, rfl⟩ := Option.map_eq_some_iff.mp htoken
    exact hstate hempty stored hstored
  · rw [Tab.hold_storageSyncInstalled] at hdeaf
    rw [Tab.hold_calls, Tab.hold_refreshToken]
    refine ⟨?_, (h.deaf hdeaf).2⟩
    rcases hinstalled with rfl | hheard
    · rfl
    · rw [hdeaf] at hheard
      cases hheard

/-- An event arrives. -/
theorem TabInTurn.deliver (h : TabInTurn b i tab) {state : Option Stored}
    (hstate : ∀ stored, state = some stored → b.Alive stored.refreshToken ∧
      ∀ exchange ∈ b.exchanges, stored.refreshToken ≠ exchange.refreshToken) :
    TabInTurn b i { tab with inbox := tab.inbox ++ [state] } := by
  refine ⟨fun stored hlast => ?_, fun hempty => by simp at hempty, h.deaf,
    fun exchange hmem hclient => ⟨(h.own exchange hmem hclient).1, fun stored hstored => ?_⟩⟩
  · rw [List.getLast?_append, List.getLast?_singleton, Option.some_or] at hlast
    exact (hstate stored (Option.some.inj hlast)).1
  · rcases List.mem_append.mp hstored with hold | hnew
    · exact (h.own exchange hmem hclient).2 stored hold
    · exact (hstate stored (List.mem_singleton.mp hnew).symm).2 exchange hmem

/-- An event is dispatched. -/
theorem TabInTurn.dispatch (h : TabInTurn b i tab) {newValue : Option Stored} {inbox : List (Option Stored)}
    (hinbox : tab.inbox = newValue :: inbox) (htoken : inbox = [] → tab.refreshToken = none) :
    TabInTurn b i { tab with inbox } := by
  refine ⟨fun stored hlast => h.last stored ?_, fun hempty token hheld => ?_, h.deaf,
    fun exchange hmem hclient => ⟨(h.own exchange hmem hclient).1,
      fun stored hstored => (h.own exchange hmem hclient).2 stored ?_⟩⟩
  · cases inbox with
    | nil => cases hlast
    | cons next inbox => rw [hinbox, List.getLast?_cons_cons, hlast]
  · rw [htoken hempty] at hheld
    cases hheld
  · rw [hinbox]
    exact List.mem_cons_of_mem _ hstored

theorem InTurn.setTab (h : InTurn b) (htab : TabInTurn b i tab) : InTurn (b.setTab i tab) := by
  refine ⟨h.one, h.storage, fun j => ?_, h.unserved, h.refused, h.granted⟩
  by_cases hj : j = i
  · subst hj
    rw [setTab_self]
    exact ⟨htab.last, htab.held, htab.deaf, htab.own⟩
  · rw [setTab_of_ne _ _ hj]
    exact ⟨(h.tabs j).last, (h.tabs j).held, (h.tabs j).deaf, (h.tabs j).own⟩

/-- The pair written is new, so every other tab hears of it. -/
theorem InTurn.write (h : InTurn b) (i : ℕ) {state : Option Stored}
    (hstate : ∀ stored, state = some stored → b.Accepted stored.refreshToken ∧
      ∀ exchange ∈ b.exchanges, stored.refreshToken ≠ exchange.refreshToken ∧
        ∀ grant, exchange.answer = some (some grant) → stored.refreshToken ≠ grant.refreshToken)
    (hinstalled : state = none ∨ (b.tabs i).storageSyncInstalled = true) : InTurn (b.write i state) := by
  have halive : ∀ stored, state = some stored → b.Alive stored.refreshToken :=
    fun stored hstored => .inl (hstate stored hstored).1
  refine ⟨h.one, halive, fun j => ?_, h.unserved, h.refused, fun exchange hmem grant hgrant => ?_⟩
  · by_cases hj : j = i
    · subst hj
      rw [write_self]
      have hheld := (h.tabs j).hold (fun _ => halive) hinstalled
      exact ⟨hheld.last, hheld.held, hheld.deaf, hheld.own⟩
    · rw [write_of_ne _ _ hj]
      split
      · exact ⟨(h.tabs j).last, (h.tabs j).held, (h.tabs j).deaf, (h.tabs j).own⟩
      · have hheard := (h.tabs j).deliver fun stored hstored =>
          ⟨halive stored hstored, fun exchange hmem => ((hstate stored hstored).2 exchange hmem).1⟩
        exact ⟨hheard.last, hheard.held, hheard.deaf, hheard.own⟩
  · exact ⟨(h.granted exchange hmem grant hgrant).1,
      fun stored hstored => ((hstate stored hstored).2 exchange hmem).2 grant hgrant⟩

theorem InTurn.erase (h : InTurn b) (i : ℕ) : InTurn (b.write i none) :=
  h.write i (fun _ hstate => nomatch hstate) (.inl rfl)

theorem InTurn.onSessionLost (h : InTurn b) (hinstalled : (b.tabs i).storageSyncInstalled = true) :
    InTurn (b.onSessionLost i) := by
  unfold Browser.onSessionLost
  split
  · rename_i stored hread
    split
    · refine h.setTab ((h.tabs i).hold (fun _ stored' hstored' => ?_) (.inr hinstalled))
      obtain rfl := Option.some.inj hstored'
      exact h.storage stored (Option.filter_eq_some_iff.mp hread).1
    · exact h.erase i
  · exact h.erase i

theorem InTurn.resume (h : InTurn b) {request : Request} {attemptedRefresh newToken : Option String}
    (hcall : (b.tabs i).calls[k]? = some (.refreshed request attemptedRefresh newToken)) :
    InTurn (b.resume i k request attemptedRefresh newToken) := by
  have hinstalled : (b.tabs i).storageSyncInstalled = true := by
    by_contra hdeaf
    have hidle := ((h.tabs i).deaf (Bool.eq_false_iff.mpr hdeaf)).2 _ (List.mem_of_getElem? hcall)
    cases hidle.2
  cases newToken with
  | some token => exact h.setTab ((h.tabs i).setCall k fun _ => ⟨rfl, rfl⟩)
  | none =>
    have hlost := h.onSessionLost hinstalled
    simp only [Browser.resume]
    split
    · exact hlost.setTab ((hlost.tabs i).setCall k fun _ => ⟨rfl, rfl⟩)
    · exact hlost.setTab ((hlost.tabs i).setCall k fun _ => ⟨rfl, rfl⟩)

theorem InTurn.hydrate (h : InTurn b) (i : ℕ) : InTurn (b.hydrate i) := by
  refine h.setTab ⟨?_, ?_, ?_, ?_⟩
  · split
    · simpa using (h.tabs i).last
    · exact (h.tabs i).last
  · split
    · rename_i stored hread
      intro _ token htoken
      rw [Tab.hold_refreshToken, Option.map_some] at htoken
      obtain rfl := Option.some.inj htoken
      exact h.storage stored (Option.filter_eq_some_iff.mp hread).1
    · exact (h.tabs i).held
  · intro hdeaf
    split at hdeaf
    · rw [Tab.hold_storageSyncInstalled] at hdeaf
      cases hdeaf
    · cases hdeaf
  · intro exchange hmem hclient
    have hown := ((h.tabs i).own exchange hmem hclient).2
    split
    · exact ⟨by simp, by simpa using hown⟩
    · exact ⟨rfl, hown⟩

theorem InTurn.onStorage (h : InTurn b) (hsourced : Sourced b) {newValue : Option Stored}
    {inbox : List (Option Stored)} (hinbox : (b.tabs i).inbox = newValue :: inbox)
    (hinstalled : (b.tabs i).storageSyncInstalled = true) :
    InTurn (b.setTab i ({ b.tabs i with inbox }.onStorage newValue)) := by
  have hheld : { b.tabs i with inbox }.onStorage newValue = ({ b.tabs i with inbox } : Tab).hold newValue := by
    cases newValue with
    | none => rfl
    | some next =>
      have hfilled := hsourced.filled _ ((hsourced.tabs i).inbox next (hinbox ▸ List.mem_cons_self))
      exact if_neg fun hempty => hempty.elim hfilled.1 hfilled.2
  rw [hheld]
  refine h.setTab ⟨fun stored hlast => (h.tabs i).last stored ?_, fun hempty token htoken => ?_, fun hdeaf => ?_,
    fun exchange hmem hclient => ?_⟩
  · rw [Tab.hold_inbox] at hlast
    cases inbox with
    | nil => cases hlast
    | cons next inbox => rw [hinbox, List.getLast?_cons_cons, hlast]
  · rw [Tab.hold_inbox] at hempty
    rw [Tab.hold_refreshToken] at htoken
    obtain ⟨stored, rfl, rfl⟩ := Option.map_eq_some_iff.mp htoken
    exact (h.tabs i).last stored (by rw [hinbox, show inbox = [] from hempty, List.getLast?_singleton])
  · rw [Tab.hold_storageSyncInstalled] at hdeaf
    rw [hinstalled] at hdeaf
    cases hdeaf
  · have hown := (h.tabs i).own exchange hmem hclient
    rw [Tab.hold_inbox, Tab.hold_storageSyncInstalled]
    exact ⟨hown.1, fun stored hstored => hown.2 stored (hinbox ▸ List.mem_cons_of_mem _ hstored)⟩

/-! ## Steps of the API and the network -/

theorem TabInTurn.mono (h : TabInTurn b i tab) (halive : ∀ token, b.Alive token → b'.Alive token)
    (hexchanges : ∀ exchange ∈ b'.exchanges, exchange.client = some i → ∃ before ∈ b.exchanges,
      before.client = some i ∧ before.refreshToken = exchange.refreshToken) : TabInTurn b' i tab := by
  refine ⟨fun stored hlast => halive _ (h.last stored hlast),
    fun hempty token htoken => halive _ (h.held hempty token htoken), h.deaf, fun exchange hmem hclient => ?_⟩
  obtain ⟨before, hbefore, hbeforeClient, hsame⟩ := hexchanges exchange hmem hclient
  exact hsame ▸ h.own before hbefore hbeforeClient

theorem InTurn.exchanges_eq (h : InTurn b) {exchange : Exchange} (hexchange : b.exchanges[k]? = some exchange) :
    k = 0 ∧ b.exchanges = [exchange] := by
  have hone := h.one
  match hlist : b.exchanges with
  | [] => simp [hlist] at hexchange
  | [only] =>
    cases k with
    | zero => exact ⟨rfl, by simpa [hlist] using hexchange⟩
    | succ k => simp [hlist] at hexchange
  | _ :: _ :: _ =>
    rw [hlist, List.length_cons, List.length_cons] at hone
    omega

theorem alive_api {api : Api} (hlive : ∀ token ∈ b.api.live, token ∈ api.live ∨ token ∈ api.revoked)
    (hrevoked : ∀ token ∈ b.api.revoked, token ∈ api.revoked) {token : String} (h : b.Alive token) :
    ({ b with api } : Browser).Alive token := by
  refine h.imp (fun haccepted => ?_) id
  rcases haccepted with hmem | hmem
  · exact hlive token hmem
  · exact .inr (hrevoked token hmem)

theorem InTurn.api (h : InTurn b) {api : Api}
    (hlive : ∀ token ∈ b.api.live, token ∈ api.live ∨ token ∈ api.revoked)
    (hrevoked : ∀ token ∈ b.api.revoked, token ∈ api.revoked) : InTurn { b with api } := by
  have haccepted : ∀ token, b.Accepted token → ({ b with api } : Browser).Accepted token := fun token hmem =>
    hmem.elim (hlive token) fun hmem => .inr (hrevoked token hmem)
  refine ⟨h.one, fun stored hstored => alive_api hlive hrevoked (h.storage stored hstored), fun i => ?_,
    fun exchange hmem hnone => haccepted _ (h.unserved exchange hmem hnone),
    fun exchange hmem hnone => hrevoked _ (h.refused exchange hmem hnone),
    fun exchange hmem grant hgrant => (h.granted exchange hmem grant hgrant).imp_left (haccepted _)⟩
  exact (h.tabs i).mono (fun token => alive_api hlive hrevoked) fun exchange hmem hclient =>
    ⟨exchange, hmem, hclient, rfl⟩

theorem InTurn.serveGranted (h : InTurn b) (hsourced : Sourced b) {client : Option ℕ}
    {presented accessToken refreshToken : String} {expiresIn : ℤ}
    (hexchange : b.exchanges[k]? = some ⟨client, presented, none⟩)
    (hdraws : b.api.Draws accessToken refreshToken) :
    InTurn { b with
      exchanges := b.exchanges.set k ⟨client, presented, some (some ⟨accessToken, refreshToken, expiresIn⟩)⟩
      api := b.api.exchange presented accessToken refreshToken } := by
  obtain ⟨rfl, hlist⟩ := h.exchanges_eq hexchange
  rw [hlist, List.set_cons_zero]
  have halive : ∀ token, b.Alive token → ({ b with
      exchanges := [⟨client, presented, some (some ⟨accessToken, refreshToken, expiresIn⟩)⟩]
      api := b.api.exchange presented accessToken refreshToken } : Browser).Alive token := by
    intro token htoken
    by_cases hpresented : token = presented
    · exact .inr ⟨_, List.mem_singleton_self _, hpresented.symm, _, rfl⟩
    · rcases htoken with (hlive | hrevoked) | ⟨exchange, hmem, -, grant, hgrant⟩
      · exact .inl (.inl (List.mem_cons_of_mem _ (List.mem_filter.mpr ⟨hlive, by simpa using hpresented⟩)))
      · exact .inl (.inr hrevoked)
      · rw [hlist] at hmem
        obtain rfl := List.mem_singleton.mp hmem
        cases hgrant
  refine ⟨Nat.le_refl 1, fun stored hstored => halive _ (h.storage stored hstored), fun i => ?_, ?_, ?_, ?_⟩
  · refine (h.tabs i).mono halive fun exchange hmem hclient => ?_
    obtain rfl := List.mem_singleton.mp hmem
    exact ⟨⟨client, presented, none⟩, List.mem_of_getElem? hexchange, hclient, rfl⟩
  · intro exchange hmem hnone
    obtain rfl := List.mem_singleton.mp hmem
    cases hnone
  · intro exchange hmem hnone
    obtain rfl := List.mem_singleton.mp hmem
    cases hnone
  · intro exchange hmem grant hgrant
    obtain rfl := List.mem_singleton.mp hmem
    obtain rfl := Option.some.inj (Option.some.inj hgrant)
    refine ⟨.inl List.mem_cons_self, fun stored hstored heq => hdraws.2.2 ?_⟩
    exact List.mem_map.mpr ⟨stored.pair, hsourced.storage stored hstored, heq⟩

theorem InTurn.serveRefused (h : InTurn b) {client : Option ℕ} {presented : String}
    (hexchange : b.exchanges[k]? = some ⟨client, presented, none⟩) (hlive : presented ∉ b.api.live) :
    InTurn { b with exchanges := b.exchanges.set k ⟨client, presented, some none⟩ } := by
  obtain ⟨rfl, hlist⟩ := h.exchanges_eq hexchange
  have hrevoked : presented ∈ b.api.revoked :=
    (h.unserved _ (List.mem_of_getElem? hexchange) rfl).resolve_left hlive
  have halive : ∀ token, b.Alive token →
      ({ b with exchanges := [⟨client, presented, some none⟩] } : Browser).Alive token := by
    intro token htoken
    rcases htoken with haccepted | ⟨exchange, hmem, -, grant, hgrant⟩
    · exact .inl haccepted
    · rw [hlist] at hmem
      obtain rfl := List.mem_singleton.mp hmem
      cases hgrant
  rw [hlist, List.set_cons_zero]
  refine ⟨Nat.le_refl 1, fun stored hstored => halive _ (h.storage stored hstored), fun i => ?_, ?_, ?_, ?_⟩
  · refine (h.tabs i).mono halive fun exchange hmem hclient => ?_
    obtain rfl := List.mem_singleton.mp hmem
    exact ⟨⟨client, presented, none⟩, List.mem_of_getElem? hexchange, hclient, rfl⟩
  · intro exchange hmem hnone
    obtain rfl := List.mem_singleton.mp hmem
    cases hnone
  · intro exchange hmem _
    obtain rfl := List.mem_singleton.mp hmem
    exact hrevoked
  · intro exchange hmem grant hgrant
    obtain rfl := List.mem_singleton.mp hmem
    cases hgrant

/-- Without exchanges on the way only accepted tokens are alive. -/
theorem InTurn.ofNoExchange (hnone : b.exchanges = [])
    (hstorage : ∀ stored, b.storage = some stored → b.Accepted stored.refreshToken)
    (htabs : ∀ i, (∀ stored, (b.tabs i).inbox.getLast? = some (some stored) → b.Accepted stored.refreshToken) ∧
      ((b.tabs i).inbox = [] → ∀ token, (b.tabs i).refreshToken = some token → b.Accepted token) ∧
      ((b.tabs i).storageSyncInstalled = false → (b.tabs i).refreshToken = none ∧
        ∀ call ∈ (b.tabs i).calls, call.isRefreshing = false ∧ call.isRefreshed = false)) : InTurn b := by
  refine ⟨by simp [hnone], fun stored hstored => .inl (hstorage stored hstored), fun i => ?_, by simp [hnone],
    by simp [hnone], by simp [hnone]⟩
  exact ⟨fun stored hlast => .inl ((htabs i).1 stored hlast),
    fun hempty token htoken => .inl ((htabs i).2.1 hempty token htoken), (htabs i).2.2, by simp [hnone]⟩

theorem InTurn.reply (h : InTurn b) (hsourced : Sourced b) {presented : String} {now : ℤ} {answer : Option Grant}
    (hexchange : b.exchanges[k]? = some ⟨some i, presented, some answer⟩) :
    InTurn ({ b with exchanges := b.exchanges.eraseIdx k }.settle i now answer) := by
  obtain ⟨rfl, hlist⟩ := h.exchanges_eq hexchange
  have hmem := List.mem_of_getElem? hexchange
  have herased : b.exchanges.eraseIdx 0 = [] := by rw [hlist]; rfl
  rw [herased]
  cases answer with
  | none =>
    have haccepted : ∀ token, b.Alive token → b.Accepted token := by
      rintro token (haccepted | ⟨exchange, hother, -, grant, hgrant⟩)
      · exact haccepted
      · rw [hlist] at hother
        obtain rfl := List.mem_singleton.mp hother
        cases hgrant
    have hrest : InTurn { b with exchanges := [] } :=
      .ofNoExchange rfl (fun stored hstored => haccepted _ (h.storage stored hstored)) fun j =>
        ⟨fun stored hlast => haccepted _ ((h.tabs j).last stored hlast),
          fun hempty token htoken => haccepted _ ((h.tabs j).held hempty token htoken), (h.tabs j).deaf⟩
    exact hrest.setTab ((hrest.tabs i).settle none)
  | some grant =>
    obtain ⟨hgrant, hnew⟩ := h.granted _ hmem grant rfl
    obtain ⟨hinstalled, hown⟩ := (h.tabs i).own _ hmem rfl
    have hfilled := hsourced.filled _ (hsourced.answers _ hmem grant rfl)
    simp only [Browser.settle, hfilled.1, hfilled.2, or_self, if_false]
    -- an event still to come was written by another sign-in, so it does not carry the token just exchanged
    have hlast : ∀ stored, (b.tabs i).inbox.getLast? = some (some stored) → b.Accepted stored.refreshToken := by
      intro stored hstored
      rcases (h.tabs i).last stored hstored with haccepted | ⟨exchange, hother, htoken, -⟩
      · exact haccepted
      · rw [hlist] at hother
        obtain rfl := List.mem_singleton.mp hother
        exact absurd htoken.symm (hown stored (List.mem_of_getLast? hstored))
    have hrest : InTurn ({ b with exchanges := [] }.write i
        (some ⟨grant.accessToken, grant.refreshToken, expiry grant.expiresIn now⟩)) := by
      refine .ofNoExchange rfl (fun stored hstored => ?_) fun j => ?_
      · obtain rfl := Option.some.inj hstored
        exact hgrant
      · by_cases hj : j = i
        · subst hj
          rw [write_self, Tab.hold_inbox, Tab.hold_refreshToken, Tab.hold_storageSyncInstalled]
          refine ⟨hlast, fun _ token htoken => ?_, fun hdeaf => ?_⟩
          · obtain rfl := Option.some.inj htoken
            exact hgrant
          · rw [hinstalled] at hdeaf
            cases hdeaf
        · have hchanged : b.storage ≠ some ⟨grant.accessToken, grant.refreshToken, expiry grant.expiresIn now⟩ :=
            fun heq => hnew _ heq rfl
          rw [write_of_ne _ _ hj, if_neg hchanged]
          refine ⟨fun stored hstored => ?_, fun hempty => by simp at hempty, (h.tabs j).deaf⟩
          rw [List.getLast?_append, List.getLast?_singleton, Option.some_or] at hstored
          obtain rfl := Option.some.inj (Option.some.inj hstored)
          exact hgrant
    exact hrest.setTab ((hrest.tabs i).settle _)

theorem InTurn.unauthorized (h : InTurn b) (hinstalled : (b.tabs i).storageSyncInstalled = true)
    (hguard : (b.tabs i).refreshInflight = true ∨ (b.tabs i).inbox = [] ∧ b.exchanges = []) (request : Request) :
    InTurn (b.unauthorized i k request) := by
  have hset : ∀ call, TabInTurn b i ((b.tabs i).setCall k call) := fun call =>
    (h.tabs i).setCall k fun hdeaf => by simp [hinstalled] at hdeaf
  simp only [Browser.unauthorized]
  by_cases hinflight : (b.tabs i).refreshInflight = true
  · rw [if_pos hinflight]
    exact h.setTab (hset _)
  · rw [if_neg hinflight]
    split
    · exact h.setTab (hset _)
    · rename_i refreshToken hread
      obtain ⟨hinbox, hnone⟩ := hguard.resolve_left hinflight
      have haccepted : ∀ token, b.Alive token → b.Accepted token := by
        rintro token (haccepted | ⟨exchange, hmem, -⟩)
        · exact haccepted
        · simp [hnone] at hmem
      have hrefresh : (b.tabs i).refreshToken = some refreshToken := (Option.filter_eq_some_iff.mp hread).1
      rw [hnone, List.nil_append]
      refine ⟨Nat.le_refl 1, fun stored hstored => .inl (haccepted _ (h.storage stored hstored)), fun j => ?_, ?_, ?_,
        ?_⟩
      · by_cases hj : j = i
        · subst hj
          simp only [Browser.setTab, Function.update_self]
          refine ⟨fun stored hlast => ?_,
            fun _ token htoken => .inl (haccepted _ ((h.tabs j).held hinbox token htoken)), fun hdeaf => ?_,
            fun exchange _ _ => ⟨hinstalled, fun stored hstored => ?_⟩⟩
          · simp [Tab.setCall, hinbox] at hlast
          · simp [Tab.setCall, hinstalled] at hdeaf
          · simp [Tab.setCall, hinbox] at hstored
        · simp only [Browser.setTab, Function.update_of_ne hj]
          refine ⟨fun stored hlast => .inl (haccepted _ ((h.tabs j).last stored hlast)),
            fun hempty token htoken => .inl (haccepted _ ((h.tabs j).held hempty token htoken)), (h.tabs j).deaf,
            fun exchange hmem hclient => ?_⟩
          obtain rfl := List.mem_singleton.mp hmem
          exact absurd (Option.some.inj hclient).symm hj
      · intro exchange hmem _
        obtain rfl := List.mem_singleton.mp hmem
        exact haccepted _ ((h.tabs i).held hinbox refreshToken hrefresh)
      · intro exchange hmem hanswer
        obtain rfl := List.mem_singleton.mp hmem
        cases hanswer
      · intro exchange hmem grant hanswer
        obtain rfl := List.mem_singleton.mp hmem
        cases hanswer

theorem InTurn.signIn (h : InTurn b) (hsourced : Sourced b) {accessToken refreshToken : String} {expiresAt : Option ℤ}
    (hdraws : b.api.Draws accessToken refreshToken) (hinstalled : (b.tabs i).storageSyncInstalled = true) :
    InTurn ({ b with api := b.api.issue accessToken refreshToken }.write i
      (some ⟨accessToken, refreshToken, expiresAt⟩)) := by
  have hissue : InTurn { b with api := b.api.issue accessToken refreshToken } :=
    h.api (fun token hmem => .inl (List.mem_cons_of_mem _ hmem)) fun token hmem => hmem
  refine hissue.write i (fun stored hstored => ?_) (.inr hinstalled)
  obtain rfl := Option.some.inj hstored
  refine ⟨.inl List.mem_cons_self, fun exchange hmem =>
    ⟨fun heq => hdraws.2.2 ?_, fun grant hgrant heq => hdraws.2.2 ?_⟩⟩
  · exact (show refreshToken = exchange.refreshToken from heq) ▸ hsourced.presented exchange hmem
  · exact List.mem_map.mpr ⟨_, hsourced.answers exchange hmem grant hgrant, heq.symm⟩

theorem InTurn.step (h : InTurn b) (hflight : Flight b) (hsourced : Sourced b) (hguard : b.InTurnGuard e)
    (hstep : browser.step b e = some b') : InTurn b' := by
  cases stepped_of_step hstep with
  | request hready => exact h.setTab ((h.tabs _).send _)
  | answered hready hcall => exact h.setTab ((h.tabs _).setCall _ fun _ => ⟨rfl, rfl⟩)
  | unauthorized hready hcall hpath => exact h.unauthorized (hguard rfl).1 (hguard rfl).2 _
  | unreachable hready hcall => exact h.setTab ((h.tabs _).setCall _ fun _ => ⟨rfl, rfl⟩)
  | resume hopen hcall => exact h.resume hcall
  | granted hexchange hlive hdraws => exact h.serveGranted hsourced hexchange hdraws
  | refused hexchange hlive => exact h.serveRefused hexchange hlive
  | reply hexchange hready => exact h.reply hsourced hexchange
  | drop hexchange hready => exact hguard.elim
  | signIn hready hdraws => exact h.signIn hsourced hdraws hguard
  | @logout i hready =>
    unfold Browser.logout
    split
    · exact (h.setTab ((h.tabs i).send _)).erase i
    · exact h.erase i
  | hydrate hready => exact h.hydrate _
  | storage hready hinbox hinstalled => exact h.onStorage hsourced hinbox hinstalled
  | unheard hready hinbox hinstalled =>
    exact h.setTab ((h.tabs _).dispatch hinbox fun _ => ((h.tabs _).deaf hinstalled).1)
  | @close i hopen =>
    have hsame : (b.exchanges.map fun exchange =>
        if exchange.client = some i then { exchange with client := none } else exchange) = b.exchanges := by
      conv_rhs => rw [← List.map_id b.exchanges]
      refine List.map_congr_left fun exchange hmem => if_neg fun hclient => ?_
      have hbusy := (busy_of_client hflight hmem hclient).1
      rw [show (b.tabs i).refreshInflight = false from hguard] at hbusy
      cases hbusy
    rw [hsame]
    exact h.setTab (i := i) ((h.tabs i).congr rfl rfl rfl fun hdeaf => ((h.tabs i).deaf hdeaf).2)
  | @revoke refreshToken hlive =>
    refine h.api (fun token hmem => ?_) fun token hmem => List.mem_cons_of_mem _ hmem
    by_cases heq : token = refreshToken
    · exact .inr (heq ▸ List.mem_cons_self)
    · exact .inl (List.mem_filter.mpr ⟨hmem, by simpa using heq⟩)

theorem InTurn.initial : InTurn {} where
  one := Nat.zero_le _
  storage := by simp
  tabs i := ⟨by simp, by simp, by simp, by simp⟩
  unserved := by simp
  refused := by simp
  granted := by simp

end Browser

end SuperAi.WebClient
