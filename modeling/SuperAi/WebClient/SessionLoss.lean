import SuperAi.WebClient.TokenPairs

/-! # A live pair is not wiped

When a refresh is refused, `onSessionLost` wipes `localStorage` if the stored refresh token is the one the tab holds
now, which need not be the one it has presented: a storage event, or an earlier call that has waited for the same
refresh, may have put the pair of another tab in its place. In the runs in which neither happens and no reply is lost,
a refused tab still holds the dead token (`Calm`), so that what is wiped was of no use.
-/
namespace SuperAi.WebClient
open SuperAi.Foundations
set_option autoImplicit false

def Call.isPending (call : Call) : Bool := call.isRefreshing || call.isRefreshed

namespace Browser

/-- A refresh fails only where the API refuses it. While it is on the way its tab takes over no other pair, and only
one call waits for it. -/
def Undisturbed (b : Browser) : Event → Prop
  | .respond i _ status => status = 401 → (b.tabs i).refreshInflight = false
  | .signIn i _ _ _ _ | .hydrate i | .storage i => (b.tabs i).refreshInflight = false
  | .drop _ => False
  | _ => True

instance (b : Browser) : DecidablePred b.Undisturbed
  | .respond i _ status => inferInstanceAs (Decidable (status = 401 → (b.tabs i).refreshInflight = false))
  | .signIn i _ _ _ _ | .hydrate i | .storage i => inferInstanceAs (Decidable ((b.tabs i).refreshInflight = false))
  | .drop _ => .isFalse id
  | .request _ _ | .unreachable _ _ | .resume _ _ | .serve _ _ _ _ | .reply _ _ | .logout _ | .close _
  | .revoke _ => .isTrue trivial

/-- A call that resumes without a new token finds its tab with a dead token or none. -/
structure TabCalm (live : List String) (tab : Tab) : Prop where
  lost : ∀ request attemptedRefresh, .refreshed request attemptedRefresh none ∈ tab.calls →
    ∀ token, tab.refreshToken = some token → token ∉ live
  one : tab.calls.countP Call.isPending ≤ 1
  idle : (∃ call ∈ tab.calls, call.isRefreshed = true) → tab.refreshInflight = false

structure Calm (b : Browser) : Prop where
  tabs : ∀ i, TabCalm b.api.live (b.tabs i)
  holder : ∀ exchange ∈ b.exchanges, ∀ i, exchange.client = some i →
    (b.tabs i).refreshToken = some exchange.refreshToken ∨ (b.tabs i).refreshToken = none
  dead : ∀ exchange ∈ b.exchanges, exchange.answer = some none → exchange.refreshToken ∉ b.api.live

variable {b b' : Browser} {e : Event} {i k : ℕ} {tab tab' : Tab} {live : List String}

/-! ## Tabs -/

theorem not_refreshed_of_ready (h : tab.ready = true) : ∀ call ∈ tab.calls, call.isRefreshed = false := by
  intro call hcall
  rw [Tab.ready, Bool.and_eq_true, Bool.not_eq_true', Bool.not_eq_true', List.any_eq_false] at h
  exact Bool.eq_false_iff.mpr (h.2 call hcall)

theorem pending_settle (newToken : Option String) (call : Call) :
    (call.settle newToken).isPending = call.isPending := by
  cases call <;> rfl

theorem TabCalm.ofReady (hready : ∀ call ∈ tab.calls, call.isRefreshed = false)
    (hone : tab.calls.countP Call.isPending ≤ 1) : TabCalm live tab := by
  refine ⟨fun request attemptedRefresh hcall => ?_, hone, fun ⟨call, hcall, hrefreshed⟩ => ?_⟩
  · cases hready _ hcall
  · rw [hready call hcall] at hrefreshed
    cases hrefreshed

theorem TabCalm.congr (h : TabCalm live tab) (hcalls : tab'.calls = tab.calls)
    (hrefresh : tab'.refreshToken = tab.refreshToken ∨ tab'.refreshToken = none)
    (hinflight : tab'.refreshInflight = tab.refreshInflight) : TabCalm live tab' := by
  refine ⟨fun request attemptedRefresh hcall token htoken => ?_, hcalls ▸ h.one, hcalls ▸ hinflight ▸ h.idle⟩
  rcases hrefresh with hsame | hnone
  · exact h.lost request attemptedRefresh (hcalls ▸ hcall) token (hsame ▸ htoken)
  · rw [hnone] at htoken
    cases htoken

theorem TabCalm.setIdle (h : TabCalm live tab) {call call' : Call} (hcall : tab.calls[k]? = some call)
    (hidle : call'.isPending = false) : TabCalm live (tab.setCall k call') := by
  have hrefreshed : call'.isRefreshed = false := (Bool.or_eq_false_iff.mp hidle).2
  refine ⟨fun request attemptedRefresh hmem => ?_, ?_, fun ⟨other, hmem, hother⟩ => ?_⟩
  · rcases List.mem_or_eq_of_mem_set hmem with hmem | rfl
    · exact h.lost request attemptedRefresh hmem
    · cases hrefreshed
  · have hcount := countP_set_eq Call.isPending hcall call'
    have hone := h.one
    simp only [hidle, Bool.false_eq_true, if_false] at hcount
    simp only [Tab.setCall]
    omega
  · rcases List.mem_or_eq_of_mem_set hmem with hmem | rfl
    · exact h.idle ⟨other, hmem, hother⟩
    · rw [hrefreshed] at hother
      cases hother

theorem TabCalm.send (h : TabCalm live tab) (request : Request) : TabCalm live (tab.send request) := by
  refine ⟨fun request' attemptedRefresh hmem => ?_, ?_, fun ⟨other, hmem, hother⟩ => ?_⟩
  · rcases List.mem_append.mp hmem with hmem | hmem
    · exact h.lost request' attemptedRefresh hmem
    · cases List.mem_singleton.mp hmem
  · simpa [Tab.send, List.countP_append, Call.isPending, Call.isRefreshing, Call.isRefreshed] using h.one
  · rcases List.mem_append.mp hmem with hmem | hmem
    · exact h.idle ⟨other, hmem, hother⟩
    · obtain rfl := List.mem_singleton.mp hmem
      cases hother

/-- A call that has resumed was the only one. -/
theorem TabCalm.resumed (h : TabCalm live tab) {call call' : Call} (hcall : tab.calls[k]? = some call)
    (hpending : call.isPending = true) (hidle : call'.isPending = false) (htab : tab'.calls = tab.calls.set k call') :
    TabCalm live tab' := by
  have hcount := countP_set_eq Call.isPending hcall call'
  have hone := h.one
  simp only [hpending, hidle, if_true, Bool.false_eq_true, if_false] at hcount
  have hnone : tab'.calls.countP Call.isPending = 0 := by
    rw [htab]
    omega
  refine .ofReady (fun other hother => ?_) (by omega)
  have hother' := List.countP_eq_zero.mp hnone other hother
  exact (Bool.or_eq_false_iff.mp (Bool.eq_false_iff.mpr hother')).2

theorem TabCalm.settle (h : TabCalm live tab) (hready : ∀ call ∈ tab.calls, call.isRefreshed = false)
    (newToken : Option String) (hdead : newToken = none → ∀ token, tab.refreshToken = some token → token ∉ live) :
    TabCalm live (tab.settle newToken) := by
  refine ⟨fun request attemptedRefresh hmem token htoken => ?_, ?_, fun _ => rfl⟩
  · obtain ⟨call, hcall, heq⟩ := List.mem_map.mp hmem
    cases call with
    | refreshing =>
      obtain ⟨-, -, rfl⟩ := Call.refreshed.inj heq
      exact hdead rfl token htoken
    | refreshed => cases hready _ hcall
    | _ => cases heq
  · have hsame : Call.isPending ∘ Call.settle newToken = Call.isPending := by
      funext call
      exact pending_settle newToken call
    rw [Tab.settle, List.countP_map, hsame]
    exact h.one

/-! ## Steps -/

theorem Calm.setTab (h : Calm b) (htab : TabCalm b.api.live tab)
    (hrefresh : (∀ exchange ∈ b.exchanges, exchange.client ≠ some i) ∨
      tab.refreshToken = (b.tabs i).refreshToken ∨ tab.refreshToken = none) : Calm (b.setTab i tab) := by
  refine ⟨fun j => ?_, fun exchange hmem j hclient => ?_, h.dead⟩
  · by_cases hj : j = i
    · subst hj
      rw [setTab_self]
      exact htab
    · rw [setTab_of_ne _ _ hj]
      exact h.tabs j
  · by_cases hj : j = i
    · subst hj
      rw [setTab_self]
      rcases hrefresh with hnone | hsame | hnone
      · exact absurd hclient (hnone exchange hmem)
      · exact hsame ▸ h.holder exchange hmem j hclient
      · exact .inr hnone
    · rw [setTab_of_ne _ _ hj]
      exact h.holder exchange hmem j hclient

theorem Calm.write (h : Calm b) {state : Option Stored}
    (hready : state = none ∨ ∀ call ∈ (b.tabs i).calls, call.isRefreshed = false)
    (hrefresh : state = none ∨ ∀ exchange ∈ b.exchanges, exchange.client ≠ some i) : Calm (b.write i state) := by
  have hpersist : Calm (b.persist i state) := by
    have hsame : ∀ j, ((b.persist i state).tabs j).calls = (b.tabs j).calls ∧
        ((b.persist i state).tabs j).refreshToken = (b.tabs j).refreshToken ∧
        ((b.persist i state).tabs j).refreshInflight = (b.tabs j).refreshInflight := by
      intro j
      unfold persist
      dsimp only
      split
      · exact ⟨rfl, rfl, rfl⟩
      · exact ⟨rfl, rfl, rfl⟩
    exact ⟨fun j => (h.tabs j).congr (hsame j).1 (.inl (hsame j).2.1) (hsame j).2.2,
      fun exchange hmem j hclient => (hsame j).2.1 ▸ h.holder exchange hmem j hclient, h.dead⟩
  refine hpersist.setTab ?_ ?_
  · rcases hready with rfl | hready
    · exact (h.tabs i).congr (by simp) (.inr (by simp)) (by simp)
    · exact .ofReady (by simpa using hready) (by simpa using (h.tabs i).one)
  · rcases hrefresh with rfl | hnone
    · exact .inr (.inr (by simp))
    · exact .inl hnone

theorem no_exchange (hflight : Flight b) (hfree : (b.tabs i).refreshInflight = false) :
    ∀ exchange ∈ b.exchanges, exchange.client ≠ some i := by
  intro exchange hmem hclient
  have hbusy := (busy_of_client hflight hmem hclient).1
  rw [hfree] at hbusy
  cases hbusy

theorem Calm.hold (h : Calm b) (hflight : Flight b) (hfree : (b.tabs i).refreshInflight = false)
    (hready : (b.tabs i).ready = true) {state : Option Stored} (hcalls : tab.calls = (b.tabs i).calls) :
    Calm (b.setTab i (tab.hold state)) := by
  refine h.setTab (.ofReady ?_ ?_) (.inl (no_exchange hflight hfree))
  · rw [Tab.hold_calls, hcalls]
    exact not_refreshed_of_ready hready
  · rw [Tab.hold_calls, hcalls]
    exact (h.tabs i).one

/-- Tokens that are dead stay dead. -/
theorem Calm.api (h : Calm b) (hsourced : Sourced b) {api : Api}
    (hlive : ∀ token ∈ api.live, token ∈ b.api.live ∨ token ∉ b.api.issued.map Prod.snd) : Calm { b with api } := by
  refine ⟨fun i => ⟨fun request attemptedRefresh hcall token htoken hmem => ?_, (h.tabs i).one, (h.tabs i).idle⟩,
    h.holder, fun exchange hmem hanswer hlive' => ?_⟩
  · rcases hlive token hmem with hold | hnew
    · exact (h.tabs i).lost request attemptedRefresh hcall token htoken hold
    · obtain ⟨pair, hpair, -, hrefresh, -⟩ := (hsourced.tabs i).paired
      rw [hrefresh] at htoken
      obtain ⟨p, hp, rfl⟩ := Option.map_eq_some_iff.mp htoken
      exact hnew (List.mem_map_of_mem (hpair p hp))
  · rcases hlive _ hlive' with hold | hnew
    · exact h.dead exchange hmem hanswer hold
    · exact hnew (hsourced.presented exchange hmem)

theorem Calm.exchanges (h : Calm b) {exchanges : List Exchange}
    (hfrom : ∀ exchange ∈ exchanges, (∀ i, exchange.client = some i →
        (b.tabs i).refreshToken = some exchange.refreshToken ∨ (b.tabs i).refreshToken = none) ∧
      (exchange.answer = some none → exchange.refreshToken ∉ b.api.live)) : Calm { b with exchanges } :=
  ⟨h.tabs, fun exchange hmem => (hfrom exchange hmem).1, fun exchange hmem => (hfrom exchange hmem).2⟩

theorem Calm.set (h : Calm b) {before after : Exchange} (hexchange : b.exchanges[k]? = some before)
    (hclient : after.client = before.client) (htoken : after.refreshToken = before.refreshToken)
    (hdead : after.answer = some none → after.refreshToken ∉ b.api.live) :
    Calm { b with exchanges := b.exchanges.set k after } := by
  refine h.exchanges fun exchange hmem => ?_
  rcases List.mem_or_eq_of_mem_set hmem with hmem | rfl
  · exact ⟨h.holder exchange hmem, h.dead exchange hmem⟩
  · refine ⟨fun i hi => ?_, hdead⟩
    rw [htoken]
    exact h.holder before (List.mem_of_getElem? hexchange) i (hclient ▸ hi)

/-- What a refused call of a calm tab wipes is dead. -/
theorem onSessionLost_storage (h : Calm b) {request : Request} {attemptedRefresh : Option String}
    (hcall : (b.tabs i).calls[k]? = some (.refreshed request attemptedRefresh none)) {stored : Stored}
    (hstored : read b.storage = some stored) (hlive : stored.refreshToken ∈ b.api.live) :
    b.onSessionLost i = b.setTab i ((b.tabs i).hold (some stored)) := by
  have hne : some stored.refreshToken ≠ (b.tabs i).refreshToken := fun heq =>
    (h.tabs i).lost request attemptedRefresh (List.mem_of_getElem? hcall) _ heq.symm hlive
  simp only [onSessionLost, hstored, if_pos hne]

theorem Calm.resume (h : Calm b) (hflight : Flight b) {request : Request} {attemptedRefresh newToken : Option String}
    (hcall : (b.tabs i).calls[k]? = some (.refreshed request attemptedRefresh newToken)) :
    Calm (b.resume i k request attemptedRefresh newToken) := by
  have hfree : (b.tabs i).refreshInflight = false := (h.tabs i).idle ⟨_, List.mem_of_getElem? hcall, rfl⟩
  have hnone := no_exchange hflight hfree
  -- the tab may have taken over a pair by now; the call that resumes was the last to wait
  have hset : ∀ (c : Browser) (call : Call), c.exchanges = b.exchanges → c.api = b.api →
      (c.tabs i).calls = (b.tabs i).calls → (∀ j, j ≠ i → TabCalm b.api.live (c.tabs j) ∧
        (c.tabs j).refreshToken = (b.tabs j).refreshToken) →
      call.isPending = false → Calm (c.setTab i ((c.tabs i).setCall k call)) := by
    intro c call hexchanges hapi hcalls hothers hidle
    refine ⟨fun j => ?_, fun exchange hmem j hclient => ?_, ?_⟩
    · by_cases hj : j = i
      · subst hj
        rw [setTab_self, setTab_api, hapi]
        exact (h.tabs j).resumed hcall rfl hidle (by rw [Tab.setCall, hcalls])
      · rw [setTab_of_ne _ _ hj, setTab_api, hapi]
        exact (hothers j hj).1
    · rw [setTab_exchanges, hexchanges] at hmem
      by_cases hj : j = i
      · subst hj
        exact absurd hclient (hnone exchange hmem)
      · rw [setTab_of_ne _ _ hj, (hothers j hj).2]
        exact h.holder exchange hmem j hclient
    · rw [setTab_exchanges, setTab_api, hexchanges, hapi]
      exact h.dead
  cases newToken with
  | some token => exact hset b _ rfl rfl rfl (fun j _ => ⟨h.tabs j, rfl⟩) rfl
  | none =>
    have hothers : ∀ j, j ≠ i → TabCalm b.api.live ((b.onSessionLost i).tabs j) ∧
        ((b.onSessionLost i).tabs j).refreshToken = (b.tabs j).refreshToken := by
      intro j hj
      have hwrite : TabCalm b.api.live ((b.write i none).tabs j) ∧
          ((b.write i none).tabs j).refreshToken = (b.tabs j).refreshToken := by
        rw [write_of_ne _ _ hj]
        split
        · exact ⟨h.tabs j, rfl⟩
        · exact ⟨(h.tabs j).congr rfl (.inl rfl) rfl, rfl⟩
      unfold Browser.onSessionLost
      split
      · split
        · rw [setTab_of_ne _ _ hj]
          exact ⟨h.tabs j, rfl⟩
        · exact hwrite
      · exact hwrite
    have hapi : (b.onSessionLost i).api = b.api := by
      unfold Browser.onSessionLost
      split
      · split <;> rfl
      · rfl
    simp only [Browser.resume]
    split
    · exact hset _ _ (exchanges_onSessionLost b i) hapi (calls_onSessionLost b i i) hothers rfl
    · exact hset _ _ (exchanges_onSessionLost b i) hapi (calls_onSessionLost b i i) hothers rfl

theorem Calm.unauthorized (h : Calm b) (hflight : Flight b) (hsourced : Sourced b)
    (hfree : (b.tabs i).refreshInflight = false) (hready : (b.tabs i).ready = true) {request : Request}
    {authorization : Option String} (hcall : (b.tabs i).calls[k]? = some (.fetching request authorization false)) :
    Calm (b.unauthorized i k request) := by
  have hnone : (b.tabs i).calls.countP Call.isPending = 0 := by
    rw [List.countP_eq_zero]
    intro call hmem hpending
    rcases (Bool.or_eq_true _ _).mp hpending with hrefreshing | hrefreshed
    · have hinflight := hflight.awaited i call hmem hrefreshing
      rw [hfree] at hinflight
      cases hinflight
    · rw [not_refreshed_of_ready hready call hmem] at hrefreshed
      cases hrefreshed
  have hone : ∀ call, ((b.tabs i).calls.set k call).countP Call.isPending ≤ 1 := by
    intro call
    have hcount := countP_set_eq Call.isPending hcall call
    have hpending : (if call.isPending = true then 1 else 0) ≤ 1 := by split <;> omega
    simp only [show (Call.fetching request authorization false).isPending = false from rfl, Bool.false_eq_true,
      if_false] at hcount
    omega
  simp only [Browser.unauthorized, hfree, Bool.false_eq_true, if_false]
  split
  · rename_i hread
    refine h.setTab ⟨fun _ _ _ token htoken => ?_, hone _, fun _ => hfree⟩ (.inr (.inl rfl))
    -- a tab that finds no token to present holds none
    obtain ⟨pair, hpair, -, hrefresh, -⟩ := (hsourced.tabs i).paired
    rw [show (b.tabs i).refreshToken = some token from htoken] at hread hrefresh
    obtain ⟨p, hp, hsnd⟩ := Option.map_eq_some_iff.mp hrefresh.symm
    have hfilled := (hsourced.filled p (hpair p hp)).2
    rw [hsnd] at hfilled
    simp [Option.filter, hfilled] at hread
  · rename_i refreshToken hread
    have hrefresh : (b.tabs i).refreshToken = some refreshToken := (Option.filter_eq_some_iff.mp hread).1
    have htab : TabCalm b.api.live
        { (b.tabs i).setCall k (.refreshing request (b.tabs i).refreshToken) with refreshInflight := true } := by
      refine .ofReady (fun call hmem => ?_) (hone _)
      rcases List.mem_or_eq_of_mem_set hmem with hmem | rfl
      · exact not_refreshed_of_ready hready call hmem
      · rfl
    refine (h.setTab htab (.inr (.inl rfl))).exchanges fun exchange hmem => ?_
    rcases List.mem_append.mp hmem with hmem | hmem
    · exact ⟨(h.setTab htab (.inr (.inl rfl))).holder exchange hmem, h.dead exchange hmem⟩
    · obtain rfl := List.mem_singleton.mp hmem
      refine ⟨fun j hj => .inl ?_, fun hanswer => by cases hanswer⟩
      obtain rfl := Option.some.inj hj
      rw [setTab_self]
      exact hrefresh

theorem Calm.reply (h : Calm b) (hflight : Flight b) (hsourced : Sourced b) {presented : String} {now : ℤ}
    {answer : Option Grant} (hexchange : b.exchanges[k]? = some ⟨some i, presented, some answer⟩)
    (hready : (b.tabs i).ready = true) : Calm ({ b with exchanges := b.exchanges.eraseIdx k }.settle i now answer) := by
  have hmem := List.mem_of_getElem? hexchange
  have hrest : Calm { b with exchanges := b.exchanges.eraseIdx k } :=
    h.exchanges fun exchange hother => ⟨h.holder exchange (List.mem_of_mem_eraseIdx hother),
      h.dead exchange (List.mem_of_mem_eraseIdx hother)⟩
  have hgone : ∀ exchange ∈ b.exchanges.eraseIdx k, exchange.client ≠ some i := by
    intro exchange hother hclient
    have hbusy := (hflight.single.finish hexchange rfl).busy_of_mem hother hclient
    rw [Function.update_self] at hbusy
    cases hbusy
  have hcalls := not_refreshed_of_ready hready
  cases answer with
  | none =>
    refine hrest.setTab ((h.tabs i).settle hcalls none fun _ token htoken => ?_) (.inr (.inl rfl))
    rcases h.holder _ hmem i rfl with hheld | hheld
    · obtain rfl := Option.some.inj (htoken.symm.trans hheld)
      exact h.dead _ hmem rfl
    · rw [hheld] at htoken
      cases htoken
  | some grant =>
    have hfilled := hsourced.filled _ (hsourced.answers _ hmem grant rfl)
    simp only [Browser.settle, hfilled.1, hfilled.2, or_self, if_false]
    have hwrite : Calm (Browser.write _ i (some ⟨grant.accessToken, grant.refreshToken, expiry grant.expiresIn now⟩)) :=
      hrest.write (.inr hcalls) (.inr hgone)
    refine hwrite.setTab ((hwrite.tabs i).settle ?_ _ fun hnone => by cases hnone) (.inr (.inl rfl))
    rw [calls_write]
    exact hcalls

theorem Calm.step (h : Calm b) (hflight : Flight b) (hsourced : Sourced b) (hguard : b.Undisturbed e)
    (hstep : browser.step b e = some b') : Calm b' := by
  cases stepped_of_step hstep with
  | request hready => exact h.setTab ((h.tabs _).send _) (.inr (.inl rfl))
  | answered hready hcall => exact h.setTab ((h.tabs _).setIdle hcall rfl) (.inr (.inl rfl))
  | unauthorized hready hcall hpath => exact h.unauthorized hflight hsourced (hguard rfl) hready hcall
  | unreachable hready hcall => exact h.setTab ((h.tabs _).setIdle hcall rfl) (.inr (.inl rfl))
  | resume hopen hcall => exact h.resume hflight hcall
  | @granted k accessToken refreshToken expiresIn client presented hexchange hlive hdraws =>
    have hapi : Calm { b with api := b.api.exchange presented accessToken refreshToken } := by
      refine h.api hsourced fun token hmem => ?_
      rcases List.mem_cons.mp hmem with rfl | hmem
      · exact .inr hdraws.2.2
      · exact .inl (List.mem_filter.mp hmem).1
    exact hapi.set hexchange rfl rfl fun hanswer => by cases hanswer
  | refused hexchange hlive => exact h.set hexchange rfl rfl fun _ => hlive
  | reply hexchange hready => exact h.reply hflight hsourced hexchange hready
  | drop hexchange hready => exact hguard.elim
  | @signIn i accessToken refreshToken expiresIn now hready hdraws =>
    have hissue : Calm { b with api := b.api.issue accessToken refreshToken } := by
      refine h.api hsourced fun token hmem => ?_
      rcases List.mem_cons.mp hmem with rfl | hmem
      · exact .inr hdraws.2.2
      · exact .inl hmem
    exact hissue.write (.inr (not_refreshed_of_ready hready))
      (.inr (show ∀ exchange ∈ b.exchanges, exchange.client ≠ some i from no_exchange hflight hguard))
  | @logout i hready =>
    unfold Browser.logout
    split
    · exact (h.setTab ((h.tabs i).send _) (.inr (.inl rfl))).write (.inl rfl) (.inl rfl)
    · exact h.write (.inl rfl) (.inl rfl)
  | @hydrate i hready =>
    refine h.setTab (.ofReady ?_ ?_) (.inl (no_exchange hflight hguard))
    · split
      · simpa using not_refreshed_of_ready hready
      · exact not_refreshed_of_ready hready
    · split
      · simpa using (h.tabs i).one
      · exact (h.tabs i).one
  | @storage i newValue inbox hready hinbox hinstalled =>
    rcases Tab.onStorage_cases { b.tabs i with inbox } newValue with hsame | hheld
    · rw [hsame]
      exact h.setTab ((h.tabs i).congr rfl (.inl rfl) rfl) (.inr (.inl rfl))
    · rw [hheld]
      exact h.hold hflight hguard hready rfl
  | unheard hready hinbox hinstalled => exact h.setTab ((h.tabs _).congr rfl (.inl rfl) rfl) (.inr (.inl rfl))
  | @close i hopen =>
    have hclosed : Calm (b.setTab i { b.tabs i with closed := true }) :=
      h.setTab ((h.tabs i).congr rfl (.inl rfl) rfl) (.inr (.inl rfl))
    refine hclosed.exchanges fun exchange hmem => ?_
    obtain ⟨before, hbefore, rfl⟩ := List.mem_map.mp hmem
    by_cases hclient : before.client = some i
    · rw [if_pos hclient]
      exact ⟨by simp, h.dead before hbefore⟩
    · rw [if_neg hclient]
      refine ⟨fun j hj => ?_, h.dead before hbefore⟩
      have hne : j ≠ i := fun heq => hclient (heq ▸ hj)
      rw [setTab_of_ne _ _ hne]
      exact h.holder before hbefore j hj
  | revoke hlive => exact h.api hsourced fun token hmem => .inl (List.mem_filter.mp hmem).1

theorem Calm.initial : Calm {} where
  tabs i := .ofReady (by simp) (by simp)
  holder := by simp
  dead := by simp

/-- Only a logout takes a live pair out of storage. -/
theorem Calm.storage_ne_none (h : Calm b) (hsourced : Sourced b) (hstep : browser.step b e = some b')
    (hguard : b.Undisturbed e) (hlogout : ∀ i, e ≠ .logout i) {stored : Stored} (hstored : b.storage = some stored)
    (hlive : stored.refreshToken ∈ b.api.live) : b'.storage ≠ none := by
  have hkept : b.storage ≠ none := by simp [hstored]
  cases stepped_of_step hstep with
  | @resume i k request attemptedRefresh newToken hopen hcall =>
    cases newToken with
    | some token => exact hkept
    | none =>
      have hfilled := hsourced.filled _ (hsourced.storage stored hstored)
      have hread : read b.storage = some stored := by
        rw [hstored, read, Option.filter_some, if_pos]
        simpa [Stored.pair] using hfilled
      simp only [Browser.resume, onSessionLost_storage h hcall hread hlive]
      split
      · exact hkept
      · exact hkept
  | unauthorized hready hcall hpath =>
    simp only [Browser.unauthorized]
    split
    · exact hkept
    · split <;> exact hkept
  | @reply k i now presented answer hexchange hready =>
    cases answer with
    | none => exact hkept
    | some grant =>
      simp only [Browser.settle]
      split
      · exact hkept
      · intro hnone
        cases hnone
  | drop hexchange hready => exact hguard.elim
  | signIn hready hdraws =>
    intro hnone
    cases hnone
  | @logout i hready => exact absurd rfl (hlogout i)
  | _ => exact hkept

end Browser

/-- **A live pair is not wiped.** In every run of any number of tabs in which no refresh is lost on the network, a tab
takes over no pair while its refresh is on the way, and one call at most waits for it, no step but a logout takes a pair
out of storage that the API still accepts. -/
theorem live_pair_not_wiped {es : List Event} {b b' : Browser} {e : Event} {stored : Stored}
    (h : browser.GuardedRun Browser.Undisturbed {} es b) (hguard : b.Undisturbed e)
    (hstep : browser.step b e = some b') (hlogout : ∀ i, e ≠ .logout i) (hstored : b.storage = some stored)
    (hlive : stored.refreshToken ∈ b.api.live) : b'.storage ≠ none := by
  have hinv := h.invariant (I := fun b : Browser => b.Flight ∧ b.Sourced ∧ b.Calm) (fun s e s' hinv hguard hstep =>
    ⟨hinv.1.step hstep, hinv.2.1.step hstep, hinv.2.2.step hinv.1 hinv.2.1 hguard hstep⟩)
    ⟨Browser.flight_initial, Browser.Sourced.initial, Browser.Calm.initial⟩
  exact hinv.2.2.storage_ne_none hinv.2.1 hstep hguard hlogout hstored hlive

/-- Two tabs present the same token; the refused one finds the pair of the other in storage and leaves it there. -/
theorem live_pair_not_wiped_race : ∃ es b b' stored, browser.GuardedRun Browser.Undisturbed {} es b ∧
    browser.step b (.resume 1 0) = some b' ∧ b.storage = some stored ∧ stored.refreshToken ∈ b.api.live ∧
    b'.storage ≠ none := by
  obtain ⟨b, hb, hlive⟩ := (Option.any_eq_true _ _).mp (show (browser.guardedRun Browser.Undisturbed {}
    [.hydrate 0, .hydrate 1, .signIn 0 "a0" "r0" 900 0, .storage 1, .request 0 ⟨"GET", "/wallets", none⟩,
      .request 1 ⟨"GET", "/wallets", none⟩, .respond 0 0 401, .respond 1 0 401, .serve 0 "a1" "r1" 900,
      .serve 1 "a2" "r2" 900, .reply 0 1, .reply 0 1]).any (fun b => (browser.step b (.resume 1 0)).isSome &&
        b.storage.any fun stored => stored.refreshToken ∈ b.api.live) = true by decide +kernel)
  obtain ⟨hsome, hany⟩ := Bool.and_eq_true_iff.mp hlive
  obtain ⟨b', hstep⟩ := Option.isSome_iff_exists.mp hsome
  obtain ⟨stored, hstored, hmem⟩ := (Option.any_eq_true _ _).mp hany
  have hrun := StepSystem.GuardedRun.of_guardedRun hb
  have hmem' : stored.refreshToken ∈ b.api.live := of_decide_eq_true hmem
  exact ⟨_, b, b', stored, hrun, hstep, hstored, hmem',
    live_pair_not_wiped hrun (show b.Undisturbed (.resume 1 0) from trivial) hstep (by simp) hstored hmem'⟩

/-- A second call that has waited for the refused refresh finds the pair the first one adopted, and wipes it. -/
example : (browser.run {} [.hydrate 0, .hydrate 1, .signIn 0 "a0" "r0" 900 0, .storage 1,
    .request 0 ⟨"GET", "/wallets", none⟩, .request 1 ⟨"GET", "/wallets", none⟩, .request 1 ⟨"GET", "/users", none⟩,
    .respond 0 0 401, .respond 1 0 401, .respond 1 1 401, .serve 0 "a1" "r1" 900, .serve 1 "a2" "r2" 900, .reply 0 1,
    .reply 0 1, .resume 1 0, .resume 1 1]).any (fun b => b.storage == none && b.api.live == ["r1"]) = true := by
  decide +kernel

end SuperAi.WebClient
