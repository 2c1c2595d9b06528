import SuperAi.WebClient.RefreshFlight

/-! # Tokens stay in their pairs

A pair is copied from the API's answer to `localStorage`, from there into storage events and other tabs, and its access
token into the headers of requests, at different times and in any order. No copy ever puts together tokens of two pairs
(`Sourced`).
-/
namespace SuperAi.WebClient
open SuperAi.Foundations
set_option autoImplicit false

/-- The tokens of a stored pair as the API lists them. -/
def Stored.pair (stored : Stored) : String × String := (stored.accessToken, stored.refreshToken)

/-- The tab holds a pair given out, with its header, or nothing. -/
def Tab.Paired (issued : List (String × String)) (tab : Tab) : Prop :=
  ∃ pair : Option (String × String), (∀ p, pair = some p → p ∈ issued) ∧ tab.accessToken = pair.map Prod.fst ∧
    tab.refreshToken = pair.map Prod.snd ∧ tab.authorization = pair.map fun p => "Bearer " ++ p.1

/-- The header of a request is that of a pair given out, or absent. -/
def Authorized (issued : List (String × String)) (authorization : Option String) : Prop :=
  authorization = none ∨ ∃ p ∈ issued, authorization = some ("Bearer " ++ p.1)

structure Tab.Sourced (issued : List (String × String)) (tab : Tab) : Prop where
  paired : tab.Paired issued
  inbox : ∀ stored, some stored ∈ tab.inbox → stored.pair ∈ issued
  headers : ∀ request authorization isRetry, .fetching request authorization isRetry ∈ tab.calls →
    Authorized issued authorization

namespace Tab.Sourced
variable {issued : List (String × String)} {tab : Tab}

theorem mono {issued' : List (String × String)} (h : tab.Sourced issued) (hsub : ∀ p ∈ issued, p ∈ issued') :
    tab.Sourced issued' := by
  obtain ⟨pair, hpair, htokens⟩ := h.paired
  refine ⟨⟨pair, fun p hp => hsub p (hpair p hp), htokens⟩, fun stored hstored => hsub _ (h.inbox stored hstored),
    fun request authorization isRetry hcall => ?_⟩
  exact (h.headers request authorization isRetry hcall).imp_right fun ⟨p, hp, heq⟩ => ⟨p, hsub p hp, heq⟩

theorem authorized (h : tab.Sourced issued) : Authorized issued tab.authorization := by
  obtain ⟨pair, hpair, -, -, hauthorization⟩ := h.paired
  cases pair with
  | none => exact .inl hauthorization
  | some p => exact .inr ⟨p, hpair p rfl, hauthorization⟩

theorem hold (h : tab.Sourced issued) {state : Option Stored}
    (hstate : ∀ stored, state = some stored → stored.pair ∈ issued)
    (hfilled : ∀ p ∈ issued, p.1 ≠ "" ∧ p.2 ≠ "") : (tab.hold state).Sourced issued := by
  refine ⟨⟨state.map Stored.pair, fun p hp => ?_, ?_⟩, by simpa using h.inbox, by simpa using h.headers⟩
  · obtain ⟨stored, hstored, rfl⟩ := Option.map_eq_some_iff.mp hp
    exact hstate stored hstored
  · cases state with
    | none => exact ⟨rfl, rfl, rfl⟩
    | some stored =>
      have hne : stored.accessToken ≠ "" := (hfilled _ (hstate stored rfl)).1
      exact ⟨rfl, rfl, by simp [Tab.hold, Tab.setToken, hne, Stored.pair]⟩

theorem setCall (h : tab.Sourced issued) (k : ℕ) {call : Call}
    (hcall : ∀ request authorization isRetry, call = .fetching request authorization isRetry →
      Authorized issued authorization) : (tab.setCall k call).Sourced issued := by
  refine ⟨h.paired, h.inbox, fun request authorization isRetry hmem => ?_⟩
  rcases List.mem_or_eq_of_mem_set hmem with hmem | heq
  · exact h.headers request authorization isRetry hmem
  · exact hcall request authorization isRetry heq.symm

theorem setIdle (h : tab.Sourced issued) (k : ℕ) {call : Call} (hcall : Browser.onTheWay (some call) = false) :
    (tab.setCall k call).Sourced issued := by
  refine h.setCall k fun request authorization isRetry heq => ?_
  rw [heq] at hcall
  cases hcall

theorem setRetry (h : tab.Sourced issued) (k : ℕ) (request : Request) :
    (tab.setCall k (.fetching request tab.authorization true)).Sourced issued := by
  refine h.setCall k fun _ authorization _ heq => ?_
  obtain ⟨-, rfl, -⟩ := Call.fetching.inj heq
  exact h.authorized

theorem send (h : tab.Sourced issued) (request : Request) : (tab.send request).Sourced issued := by
  refine ⟨h.paired, h.inbox, fun request' authorization isRetry hmem => ?_⟩
  rcases List.mem_append.mp hmem with hmem | hmem
  · exact h.headers request' authorization isRetry hmem
  · obtain ⟨-, rfl, -⟩ := Call.fetching.inj (List.mem_singleton.mp hmem)
    exact h.authorized

theorem settle (h : tab.Sourced issued) (newToken : Option String) : (tab.settle newToken).Sourced issued := by
  refine ⟨h.paired, h.inbox, fun request authorization isRetry hmem => ?_⟩
  obtain ⟨call, hcall, heq⟩ := List.mem_map.mp hmem
  cases call with
  | refreshing => cases heq
  | _ => exact h.headers request authorization isRetry (heq ▸ hcall)

theorem dispatch (h : tab.Sourced issued) {newValue : Option Stored} {inbox : List (Option Stored)}
    (hinbox : tab.inbox = newValue :: inbox) : ({ tab with inbox } : Tab).Sourced issued :=
  ⟨h.paired, fun stored hstored => h.inbox stored (hinbox ▸ List.mem_cons_of_mem _ hstored), h.headers⟩

theorem deliver (h : tab.Sourced issued) {state : Option Stored}
    (hstate : ∀ stored, state = some stored → stored.pair ∈ issued) :
    ({ tab with inbox := tab.inbox ++ [state] } : Tab).Sourced issued := by
  refine ⟨h.paired, fun stored hstored => ?_, h.headers⟩
  rcases List.mem_append.mp hstored with hmem | hmem
  · exact h.inbox stored hmem
  · exact hstate stored (List.mem_singleton.mp hmem).symm

end Tab.Sourced

namespace Browser

/-- Every token anywhere comes from a pair the API gave out. -/
structure Sourced (b : Browser) : Prop where
  filled : ∀ p ∈ b.api.issued, p.1 ≠ "" ∧ p.2 ≠ ""
  storage : ∀ stored, b.storage = some stored → stored.pair ∈ b.api.issued
  tabs : ∀ i, (b.tabs i).Sourced b.api.issued
  presented : ∀ exchange ∈ b.exchanges, exchange.refreshToken ∈ b.api.issued.map Prod.snd
  answers : ∀ exchange ∈ b.exchanges, ∀ grant, exchange.answer = some (some grant) →
    (grant.accessToken, grant.refreshToken) ∈ b.api.issued

namespace Sourced
variable {b b' : Browser} {e : Event} {i k : ℕ}

theorem setTab (h : Sourced b) {tab : Tab} (htab : tab.Sourced b.api.issued) (i : ℕ) : Sourced (b.setTab i tab) := by
  refine ⟨h.filled, h.storage, fun j => ?_, h.presented, h.answers⟩
  by_cases hj : j = i
  · subst hj
    rw [setTab_self]
    exact htab
  · rw [setTab_of_ne _ _ hj]
    exact h.tabs j

theorem write (h : Sourced b) (i : ℕ) {state : Option Stored}
    (hstate : ∀ stored, state = some stored → stored.pair ∈ b.api.issued) : Sourced (b.write i state) := by
  refine ⟨h.filled, hstate, fun j => ?_, h.presented, h.answers⟩
  by_cases hj : j = i
  · subst hj
    rw [write_self]
    exact (h.tabs j).hold hstate h.filled
  · rw [write_of_ne _ _ hj]
    split
    · exact h.tabs j
    · exact (h.tabs j).deliver hstate

theorem erase (h : Sourced b) : Sourced (b.write i none) := h.write i fun _ hstate => nomatch hstate

theorem api (h : Sourced b) {api : Api} (hsub : ∀ p ∈ b.api.issued, p ∈ api.issued)
    (hfilled : ∀ p ∈ api.issued, p.1 ≠ "" ∧ p.2 ≠ "") : Sourced { b with api } :=
  ⟨hfilled, fun stored hstored => hsub _ (h.storage stored hstored), fun j => (h.tabs j).mono hsub,
    fun exchange hmem => by
      obtain ⟨p, hp, heq⟩ := List.mem_map.mp (h.presented exchange hmem)
      exact List.mem_map.mpr ⟨p, hsub p hp, heq⟩,
    fun exchange hmem grant hgrant => hsub _ (h.answers exchange hmem grant hgrant)⟩

theorem issue (h : Sourced b) {accessToken refreshToken : String} (hdraws : b.api.Draws accessToken refreshToken)
    {api : Api} (hissued : api.issued = (accessToken, refreshToken) :: b.api.issued) : Sourced { b with api } := by
  refine h.api (fun p hp => hissued ▸ List.mem_cons_of_mem _ hp) fun p hp => ?_
  rw [hissued] at hp
  rcases List.mem_cons.mp hp with rfl | hp
  · exact ⟨hdraws.1, hdraws.2.1⟩
  · exact h.filled p hp

/-- The exchanges change only in who waits for them, in an answer, or by one leaving. -/
theorem exchanges (h : Sourced b) {exchanges : List Exchange}
    (hfrom : ∀ exchange ∈ exchanges, exchange.refreshToken ∈ b.api.issued.map Prod.snd ∧
      ∀ grant, exchange.answer = some (some grant) → (grant.accessToken, grant.refreshToken) ∈ b.api.issued) :
    Sourced { b with exchanges } :=
  ⟨h.filled, h.storage, h.tabs, fun exchange hmem => (hfrom exchange hmem).1,
    fun exchange hmem => (hfrom exchange hmem).2⟩

theorem onSessionLost (h : Sourced b) (i : ℕ) : Sourced (b.onSessionLost i) := by
  unfold Browser.onSessionLost
  split
  · rename_i stored hread
    split
    · refine h.setTab ((h.tabs i).hold (fun stored' hstored' => ?_) h.filled) i
      obtain rfl := Option.some.inj hstored'
      exact h.storage stored (Option.filter_eq_some_iff.mp hread).1
    · exact h.erase
  · exact h.erase

theorem resume (h : Sourced b) (i k : ℕ) (request : Request) (attemptedRefresh newToken : Option String) :
    Sourced (b.resume i k request attemptedRefresh newToken) := by
  cases newToken with
  | some token => exact h.setTab ((h.tabs i).setRetry k request) i
  | none =>
    have hlost := h.onSessionLost i
    simp only [Browser.resume]
    split
    · exact hlost.setTab ((hlost.tabs i).setRetry k request) i
    · exact hlost.setTab ((hlost.tabs i).setIdle k rfl) i

theorem settle (h : Sourced b) (i : ℕ) (now : ℤ) {answer : Option Grant}
    (hanswer : ∀ grant, answer = some grant → (grant.accessToken, grant.refreshToken) ∈ b.api.issued) :
    Sourced (b.settle i now answer) := by
  cases answer with
  | none => exact h.setTab ((h.tabs i).settle none) i
  | some grant =>
    simp only [Browser.settle]
    split
    · exact h.setTab ((h.tabs i).settle none) i
    · have hwrite : Sourced (b.write i (some ⟨grant.accessToken, grant.refreshToken, expiry grant.expiresIn now⟩)) := by
        refine h.write i fun stored hstored => ?_
        obtain rfl := Option.some.inj hstored
        exact hanswer grant rfl
      exact hwrite.setTab ((hwrite.tabs i).settle _) i

theorem unauthorized (h : Sourced b) (i k : ℕ) (request : Request) : Sourced (b.unauthorized i k request) := by
  simp only [Browser.unauthorized]
  split
  · exact h.setTab ((h.tabs i).setIdle k rfl) i
  · split
    · exact h.setTab ((h.tabs i).setIdle k rfl) i
    · rename_i refreshToken hread
      have htab : Tab.Sourced b.api.issued
          { (b.tabs i).setCall k (.refreshing request (b.tabs i).refreshToken) with refreshInflight := true } := by
        have hset : ((b.tabs i).setCall k (.refreshing request (b.tabs i).refreshToken)).Sourced b.api.issued :=
          (h.tabs i).setIdle k rfl
        exact ⟨hset.paired, hset.inbox, hset.headers⟩
      refine (h.setTab htab i).exchanges fun exchange hmem => ?_
      rcases List.mem_append.mp hmem with hmem | hmem
      · exact ⟨h.presented exchange hmem, h.answers exchange hmem⟩
      · obtain rfl := List.mem_singleton.mp hmem
        refine ⟨?_, fun grant hgrant => nomatch hgrant⟩
        obtain ⟨pair, hpair, -, hrefresh, -⟩ := (h.tabs i).paired
        rw [hrefresh] at hread
        obtain ⟨p, hp, rfl⟩ := Option.map_eq_some_iff.mp (Option.filter_eq_some_iff.mp hread).1
        exact List.mem_map_of_mem (hpair p hp)

theorem step (h : Sourced b) (hstep : browser.step b e = some b') : Sourced b' := by
  cases stepped_of_step hstep with
  | request hready => exact h.setTab ((h.tabs _).send _) _
  | answered hready hcall => exact h.setTab ((h.tabs _).setIdle _ rfl) _
  | unauthorized hready hcall hpath => exact h.unauthorized _ _ _
  | unreachable hready hcall => exact h.setTab ((h.tabs _).setIdle _ rfl) _
  | resume hopen hcall => exact h.resume _ _ _ _ _
  | @granted k accessToken refreshToken expiresIn client presented hexchange hlive hdraws =>
    have hissue : Sourced { b with api := b.api.exchange presented accessToken refreshToken } := h.issue hdraws rfl
    refine hissue.exchanges fun exchange hmem => ?_
    rcases List.mem_or_eq_of_mem_set hmem with hmem | rfl
    · exact ⟨hissue.presented exchange hmem, hissue.answers exchange hmem⟩
    · refine ⟨hissue.presented ⟨client, presented, none⟩ (List.mem_of_getElem? hexchange), fun grant hgrant => ?_⟩
      obtain rfl := Option.some.inj (Option.some.inj hgrant)
      exact List.mem_cons_self
  | @refused k accessToken refreshToken expiresIn client presented hexchange hlive =>
    refine h.exchanges fun exchange hmem => ?_
    rcases List.mem_or_eq_of_mem_set hmem with hmem | rfl
    · exact ⟨h.presented exchange hmem, h.answers exchange hmem⟩
    · exact ⟨h.presented ⟨client, presented, none⟩ (List.mem_of_getElem? hexchange), fun grant hgrant => nomatch hgrant⟩
  | @reply k i now presented answer hexchange hready =>
    have hrest : Sourced { b with exchanges := b.exchanges.eraseIdx k } :=
      h.exchanges fun exchange hmem => ⟨h.presented exchange (List.mem_of_mem_eraseIdx hmem),
        h.answers exchange (List.mem_of_mem_eraseIdx hmem)⟩
    refine hrest.settle i now fun grant hgrant => ?_
    exact h.answers _ (List.mem_of_getElem? hexchange) grant (by rw [hgrant])
  | @drop k i presented answer hexchange hready =>
    have hrest : Sourced { b with exchanges := b.exchanges.set k ⟨none, presented, answer⟩ } := by
      refine h.exchanges fun exchange hmem => ?_
      rcases List.mem_or_eq_of_mem_set hmem with hmem | rfl
      · exact ⟨h.presented exchange hmem, h.answers exchange hmem⟩
      · exact ⟨h.presented ⟨some i, presented, answer⟩ (List.mem_of_getElem? hexchange),
          h.answers ⟨some i, presented, answer⟩ (List.mem_of_getElem? hexchange)⟩
    exact hrest.settle i 0 fun grant hgrant => nomatch hgrant
  | @signIn i accessToken refreshToken expiresIn now hready hdraws =>
    have hissue : Sourced { b with api := b.api.issue accessToken refreshToken } := h.issue hdraws rfl
    refine hissue.write i fun stored hstored => ?_
    obtain rfl := Option.some.inj hstored
    exact List.mem_cons_self
  | @logout i hready =>
    unfold Browser.logout
    split
    · exact (h.setTab ((h.tabs i).send _) i).erase
    · exact h.erase
  | @hydrate i hready =>
    refine h.setTab ?_ i
    have htab : Tab.Sourced b.api.issued { b.tabs i with storageSyncInstalled := true } :=
      ⟨(h.tabs i).paired, (h.tabs i).inbox, (h.tabs i).headers⟩
    split
    · rename_i stored hread
      have hissued : ∀ stored', some stored = some stored' → stored'.pair ∈ b.api.issued := by
        intro stored' hstored'
        obtain rfl := Option.some.inj hstored'
        exact h.storage stored (Option.filter_eq_some_iff.mp hread).1
      have hheld := htab.hold hissued h.filled
      exact ⟨hheld.paired, hheld.inbox, hheld.headers⟩
    · exact ⟨htab.paired, htab.inbox, htab.headers⟩
  | @storage i newValue inbox hready hinbox hinstalled =>
    refine h.setTab ?_ i
    have htab := (h.tabs i).dispatch hinbox
    rcases Tab.onStorage_cases { b.tabs i with inbox } newValue with hsame | hheld
    · rw [hsame]
      exact htab
    · rw [hheld]
      refine htab.hold (fun stored hstored => (h.tabs i).inbox stored ?_) h.filled
      rw [hinbox, hstored]
      exact List.mem_cons_self
  | unheard hready hinbox hinstalled => exact h.setTab ((h.tabs _).dispatch hinbox) _
  | @close i hopen =>
    have htab : Tab.Sourced b.api.issued { b.tabs i with closed := true } :=
      ⟨(h.tabs i).paired, (h.tabs i).inbox, (h.tabs i).headers⟩
    refine (h.setTab htab i).exchanges fun exchange hmem => ?_
    obtain ⟨before, hbefore, rfl⟩ := List.mem_map.mp hmem
    by_cases hclient : before.client = some i
    · rw [if_pos hclient]
      exact ⟨h.presented before hbefore, h.answers before hbefore⟩
    · rw [if_neg hclient]
      exact ⟨h.presented before hbefore, h.answers before hbefore⟩
  | revoke hlive => exact h.api (fun p hp => hp) h.filled

theorem initial : Sourced {} where
  filled := by simp
  storage := by simp
  tabs i := ⟨⟨none, by simp, rfl, rfl, rfl⟩, by simp, by simp⟩
  presented := by simp
  answers := by simp

theorem of_run {es : List Event} (h : browser.run {} es = some b) : Sourced b :=
  (StepSystem.GuardedRun.of_run h).invariant (fun _ _ _ hinv _ hstep => hinv.step hstep) initial

end Sourced
end Browser

/-- **Tokens stay in their pairs.** In every run of any number of tabs, the access token, the refresh token and the
header a tab holds are those of one pair the API gave out, and so are what is stored, what a storage event carries and
the header of every request on the way. -/
theorem tokens_of_one_pair {es : List Event} {b : Browser} (h : browser.run {} es = some b) :
    (∀ i, (b.tabs i).Paired b.api.issued) ∧ (∀ stored, b.storage = some stored → stored.pair ∈ b.api.issued) ∧
      (∀ i stored, some stored ∈ (b.tabs i).inbox → stored.pair ∈ b.api.issued) ∧
      ∀ i request authorization isRetry, .fetching request authorization isRetry ∈ (b.tabs i).calls →
        Authorized b.api.issued authorization := by
  have hsourced := Browser.Sourced.of_run h
  exact ⟨fun i => (hsourced.tabs i).paired, hsourced.storage, fun i => (hsourced.tabs i).inbox,
    fun i => (hsourced.tabs i).headers⟩

/-- Two tabs refresh in turn, and the second adopts the pair of the first before it retries. -/
theorem tokens_of_one_pair_adopted : ∃ es b, browser.run {} es = some b ∧
    (∀ i, (b.tabs i).Paired b.api.issued) ∧ (∀ stored, b.storage = some stored → stored.pair ∈ b.api.issued) ∧
      (∀ i stored, some stored ∈ (b.tabs i).inbox → stored.pair ∈ b.api.issued) ∧
      ∀ i request authorization isRetry, .fetching request authorization isRetry ∈ (b.tabs i).calls →
        Authorized b.api.issued authorization := by
  obtain ⟨b, hb⟩ := Option.isSome_iff_exists.mp (show (browser.run {}
    [.hydrate 0, .hydrate 1, .signIn 0 "a0" "r0" 900 0, .storage 1, .request 0 ⟨"GET", "/wallets", none⟩,
      .request 1 ⟨"GET", "/wallets", none⟩, .respond 0 0 401, .respond 1 0 401, .serve 0 "a1" "r1" 900,
      .serve 1 "a2" "r2" 900, .reply 0 1, .reply 0 1, .resume 1 0]).isSome = true by decide +kernel)
  exact ⟨_, b, hb, tokens_of_one_pair hb⟩

end SuperAi.WebClient
