import SuperAi.Foundations.InTurn
import SuperAi.WebClient.AuthStore

/-! # One refresh at a time

Concurrent 401s of a tab share one refresh. The promise in `refreshInflight` and the request on the way are kept in
different places, and a tab may be closed or lose its connection in between; they agree in every run (`Flight`). A call
goes through `fetching`, `refreshing` and `refreshed` to a retry and no further, so its main request is sent twice at
most.
-/
namespace SuperAi.WebClient
open SuperAi.Foundations
set_option autoImplicit false

namespace Browser

def busy (b : Browser) (i : ℕ) : Bool := (b.tabs i).refreshInflight && !(b.tabs i).closed

/-- What is on the way belongs to the promises held, and the calls that wait have a promise to wait for. -/
structure Flight (b : Browser) : Prop where
  single : Single Exchange.client b.busy b.exchanges
  awaited : ∀ i, ∀ call ∈ (b.tabs i).calls, call.isRefreshing = true → (b.tabs i).refreshInflight = true

variable {b b' : Browser} {e : Event} {i j k : ℕ}

/-! ## Steps that start and end no refresh -/

/-- In tab `j` neither the promise nor the waiting calls change. -/
structure Quiet (b b' : Browser) (j : ℕ) : Prop where
  refreshInflight : (b'.tabs j).refreshInflight = (b.tabs j).refreshInflight
  closed : (b'.tabs j).closed = (b.tabs j).closed
  waiting : ∀ call ∈ (b'.tabs j).calls, call.isRefreshing = true → call ∈ (b.tabs j).calls

theorem Quiet.refl (b : Browser) (j : ℕ) : Quiet b b j := ⟨rfl, rfl, fun _ hcall _ => hcall⟩

theorem Quiet.trans {b'' : Browser} (h : Quiet b b' j) (h' : Quiet b' b'' j) : Quiet b b'' j :=
  ⟨h'.refreshInflight.trans h.refreshInflight, h'.closed.trans h.closed,
    fun call hcall hwaits => h.waiting call (h'.waiting call hcall hwaits) hwaits⟩

theorem Quiet.setTab (b : Browser) (i : ℕ) (tab : Tab) (hinflight : tab.refreshInflight = (b.tabs i).refreshInflight)
    (hclosed : tab.closed = (b.tabs i).closed)
    (hwaiting : ∀ call ∈ tab.calls, call.isRefreshing = true → call ∈ (b.tabs i).calls) (j : ℕ) :
    Quiet b (b.setTab i tab) j := by
  by_cases hj : j = i
  · subst hj
    exact ⟨by rw [setTab_self, hinflight], by rw [setTab_self, hclosed], by rwa [setTab_self]⟩
  · exact ⟨by rw [setTab_of_ne _ _ hj], by rw [setTab_of_ne _ _ hj],
      fun call hcall _ => by rwa [setTab_of_ne _ _ hj] at hcall⟩

theorem Quiet.hold (b : Browser) (i : ℕ) (state : Option Stored) (j : ℕ) :
    Quiet b (b.setTab i ((b.tabs i).hold state)) j :=
  setTab b i _ (by simp) (by simp) (by simp_all) j

theorem Quiet.setCall (b : Browser) (i k : ℕ) {call : Call} (hcall : call.isRefreshing = false) (j : ℕ) :
    Quiet b (b.setTab i ((b.tabs i).setCall k call)) j := by
  refine setTab b i ((b.tabs i).setCall k call) rfl rfl (fun waiting hwaiting hwaits => ?_) j
  rcases List.mem_or_eq_of_mem_set hwaiting with hmem | rfl
  · exact hmem
  · rw [hcall] at hwaits
    cases hwaits

theorem Quiet.send (b : Browser) (i : ℕ) (request : Request) (j : ℕ) :
    Quiet b (b.setTab i ((b.tabs i).send request)) j := by
  refine setTab b i ((b.tabs i).send request) rfl rfl (fun call hcall hwaits => ?_) j
  rcases List.mem_append.mp hcall with hmem | hmem
  · exact hmem
  · obtain rfl := List.mem_singleton.mp hmem
    cases hwaits

theorem Quiet.write (b : Browser) (i : ℕ) (state : Option Stored) (j : ℕ) : Quiet b (b.write i state) j := by
  by_cases hj : j = i
  · subst hj
    exact ⟨by simp, by simp, by simp_all⟩
  · rw [Browser.write, Browser.persist]
    refine ⟨?_, ?_, ?_⟩
    all_goals
      rw [setTab_of_ne _ _ hj]
      simp only
      split
    · rfl
    · rfl
    · rfl
    · rfl
    · exact fun _ hcall _ => hcall
    · exact fun _ hcall _ => hcall

theorem Quiet.onSessionLost (b : Browser) (i j : ℕ) : Quiet b (b.onSessionLost i) j := by
  unfold Browser.onSessionLost
  split
  · split
    · exact hold b i _ j
    · exact write b i none j
  · exact write b i none j

theorem Quiet.resume (b : Browser) (i k : ℕ) (request : Request) (attemptedRefresh newToken : Option String) (j : ℕ) :
    Quiet b (b.resume i k request attemptedRefresh newToken) j := by
  cases newToken with
  | some token => exact setCall b i k rfl j
  | none =>
    simp only [Browser.resume]
    split
    · exact (onSessionLost b i j).trans (setCall _ i k rfl j)
    · exact (onSessionLost b i j).trans (setCall _ i k rfl j)

theorem Quiet.logout (b : Browser) (i j : ℕ) : Quiet b (b.logout i) j := by
  unfold Browser.logout
  split
  · exact (send b i _ j).trans (write _ i none j)
  · exact write b i none j

theorem Quiet.hydrate (b : Browser) (i j : ℕ) : Quiet b (b.hydrate i) j := by
  unfold Browser.hydrate
  split
  · exact setTab b i _ (by simp) (by simp) (by simp_all) j
  · exact setTab b i { b.tabs i with storageSyncInstalled := true, hydrated := true } rfl rfl (fun _ hcall _ => hcall) j

theorem exchanges_onSessionLost (b : Browser) (i : ℕ) : (b.onSessionLost i).exchanges = b.exchanges := by
  unfold onSessionLost
  split
  · split <;> rfl
  · rfl

theorem exchanges_resume (b : Browser) (i k : ℕ) (request : Request) (attemptedRefresh newToken : Option String) :
    (b.resume i k request attemptedRefresh newToken).exchanges = b.exchanges := by
  cases newToken with
  | some token => rfl
  | none =>
    simp only [resume]
    split
    · exact exchanges_onSessionLost b i
    · exact exchanges_onSessionLost b i

theorem exchanges_logout (b : Browser) (i : ℕ) : (b.logout i).exchanges = b.exchanges := by
  unfold logout
  split <;> rfl

theorem Flight.quiet (h : Flight b) (hquiet : ∀ j, Quiet b b' j)
    (hsingle : Single Exchange.client b.busy b'.exchanges) : Flight b' := by
  have hbusy : b'.busy = b.busy := by
    funext j
    rw [busy, busy, (hquiet j).refreshInflight, (hquiet j).closed]
  refine ⟨hbusy ▸ hsingle, fun i call hcall hwaits => ?_⟩
  rw [(hquiet i).refreshInflight]
  exact h.awaited i call ((hquiet i).waiting call hcall hwaits) hwaits

/-! ## Steps that do -/

theorem not_closed_of_ready {tab : Tab} (h : tab.ready = true) : tab.closed = false := by
  rw [Tab.ready, Bool.and_eq_true, Bool.not_eq_true'] at h
  exact h.1

theorem busy_of_client (h : Flight b) {exchange : Exchange} (hmem : exchange ∈ b.exchanges)
    (hclient : exchange.client = some i) : (b.tabs i).refreshInflight = true ∧ (b.tabs i).closed = false := by
  have hbusy := h.single.busy_of_mem hmem hclient
  rw [busy, Bool.and_eq_true, Bool.not_eq_true'] at hbusy
  exact hbusy

theorem Flight.unauthorized (h : Flight b) (hopen : (b.tabs i).closed = false) (request : Request) :
    Flight (b.unauthorized i k request) := by
  unfold Browser.unauthorized
  by_cases hinflight : (b.tabs i).refreshInflight = true
  · rw [if_pos hinflight]
    refine ⟨?_, fun j call hcall hwaits => ?_⟩
    · have hbusy : (b.setTab i ((b.tabs i).setCall k (.refreshing request (b.tabs i).refreshToken))).busy = b.busy := by
        funext j
        by_cases hj : j = i
        · subst hj
          rw [busy, setTab_self]
          rfl
        · rw [busy, setTab_of_ne _ _ hj]
          rfl
      exact hbusy ▸ h.single
    · by_cases hj : j = i
      · subst hj
        rwa [setTab_self]
      · rw [setTab_of_ne _ _ hj] at hcall ⊢
        exact h.awaited j call hcall hwaits
  · have hfree : (b.tabs i).refreshInflight = false := Bool.eq_false_iff.mpr hinflight
    rw [if_neg hinflight]
    split
    · exact h.quiet (Quiet.setCall b i k rfl) h.single
    · rename_i refreshToken _
      refine ⟨?_, fun j call hcall hwaits => ?_⟩
      · refine (show busy _ = Function.update b.busy i true from ?_) ▸ h.single.start rfl (by simp [busy, hfree])
        funext j
        by_cases hj : j = i
        · subst hj
          simp [busy, setTab, Tab.setCall, hopen]
        · simp [busy, setTab, hj]
      · by_cases hj : j = i
        · subst hj
          simp [setTab]
        · simp only [setTab, Function.update_of_ne hj] at hcall ⊢
          exact h.awaited j call hcall hwaits

theorem settle_not_refreshing (newToken : Option String) (call : Call) :
    (call.settle newToken).isRefreshing = false := by
  cases call <;> rfl

theorem awaited_settle {tab : Tab} {newToken : Option String} :
    ∀ call ∈ (tab.settle newToken).calls, call.isRefreshing = true → (tab.settle newToken).refreshInflight = true := by
  intro call hcall hwaits
  obtain ⟨before, -, rfl⟩ := List.mem_map.mp hcall
  rw [settle_not_refreshing] at hwaits
  cases hwaits

/-- The promise of tab `i` settles when its exchange has left the network. -/
theorem Flight.settleTab (hawaited : ∀ j, ∀ call ∈ (b.tabs j).calls, call.isRefreshing = true →
      (b.tabs j).refreshInflight = true)
    (hsingle : Single Exchange.client (Function.update b.busy i false) b.exchanges) (newToken : Option String) :
    Flight (b.setTab i ((b.tabs i).settle newToken)) := by
  refine ⟨?_, fun j call hcall hwaits => ?_⟩
  · refine (show busy _ = Function.update b.busy i false from ?_) ▸ hsingle
    funext j
    by_cases hj : j = i
    · subst hj
      simp [busy, Tab.settle]
    · simp [busy, setTab_of_ne _ _ hj, hj]
  · by_cases hj : j = i
    · subst hj
      rw [setTab_self] at hcall ⊢
      exact awaited_settle call hcall hwaits
    · rw [setTab_of_ne _ _ hj] at hcall ⊢
      exact hawaited j call hcall hwaits

theorem Flight.settle (hawaited : ∀ j, ∀ call ∈ (b.tabs j).calls, call.isRefreshing = true →
      (b.tabs j).refreshInflight = true)
    (hsingle : Single Exchange.client (Function.update b.busy i false) b.exchanges) (now : ℤ) (answer : Option Grant) :
    Flight (b.settle i now answer) := by
  cases answer with
  | none => exact settleTab hawaited hsingle none
  | some grant =>
    simp only [Browser.settle]
    split
    · exact settleTab hawaited hsingle none
    · have hquiet := Quiet.write b i (some ⟨grant.accessToken, grant.refreshToken, expiry grant.expiresIn now⟩)
      have hbusy : (b.write i (some ⟨grant.accessToken, grant.refreshToken, expiry grant.expiresIn now⟩)).busy =
          b.busy := by
        funext j
        rw [busy, busy, (hquiet j).refreshInflight, (hquiet j).closed]
      refine settleTab (fun j call hcall hwaits => ?_) (hbusy ▸ hsingle) _
      rw [(hquiet j).refreshInflight]
      exact hawaited j call ((hquiet j).waiting call hcall hwaits) hwaits

theorem Flight.step (h : Flight b) (hstep : browser.step b e = some b') : Flight b' := by
  cases stepped_of_step hstep with
  | request hready => exact h.quiet (Quiet.send b _ _) h.single
  | answered hready hcall => exact h.quiet (Quiet.setCall b _ _ rfl) h.single
  | unauthorized hready hcall hpath => exact h.unauthorized (not_closed_of_ready hready) _
  | unreachable hready hcall => exact h.quiet (Quiet.setCall b _ _ rfl) h.single
  | resume hopen hcall =>
    refine h.quiet (Quiet.resume b _ _ _ _ _) ?_
    rw [exchanges_resume]
    exact h.single
  | granted hexchange hlive hdraws => exact ⟨h.single.replace hexchange rfl, h.awaited⟩
  | refused hexchange hlive => exact ⟨h.single.replace hexchange rfl, h.awaited⟩
  | @reply k i now presented answer hexchange hready =>
    exact .settle (b := { b with exchanges := b.exchanges.eraseIdx k }) h.awaited (h.single.finish hexchange rfl) _ _
  | @drop k i presented answer hexchange hready =>
    exact .settle (b := { b with exchanges := b.exchanges.set k ⟨none, presented, answer⟩ }) h.awaited
      (h.single.release hexchange rfl rfl) _ _
  | @signIn i accessToken refreshToken expiresIn now hready hdraws =>
    exact Flight.quiet (b := { b with api := b.api.issue accessToken refreshToken }) ⟨h.single, h.awaited⟩
      (Quiet.write _ _ _) h.single
  | logout hready =>
    refine h.quiet (Quiet.logout b _) ?_
    rw [exchanges_logout]
    exact h.single
  | hydrate hready => exact h.quiet (Quiet.hydrate b _) h.single
  | @storage i newValue inbox hready hinbox hinstalled =>
    refine h.quiet (fun j => ?_) h.single
    rcases Tab.onStorage_cases { b.tabs i with inbox } newValue with hsame | hheld
    · rw [hsame]
      exact Quiet.setTab b i { b.tabs i with inbox } rfl rfl (fun _ hcall _ => hcall) j
    · rw [hheld]
      exact Quiet.setTab b i _ (by simp) (by simp) (by simp_all) j
  | unheard hready hinbox hinstalled => exact h.quiet (Quiet.setTab b _ _ rfl rfl fun _ hcall _ => hcall) h.single
  | @close i hopen =>
    refine ⟨(show busy _ = Function.update b.busy i false from ?_) ▸ h.single.disown i _ fun _ => rfl,
      fun j call hcall hwaits => ?_⟩
    · funext j
      by_cases hj : j = i
      · subst hj
        simp [busy, setTab]
      · simp [busy, setTab, hj]
    · by_cases hj : j = i
      · subst hj
        simp only [setTab, Function.update_self] at hcall ⊢
        exact h.awaited j call hcall hwaits
      · simp only [setTab, Function.update_of_ne hj] at hcall ⊢
        exact h.awaited j call hcall hwaits
  | revoke hlive => exact ⟨h.single, h.awaited⟩

theorem flight_initial : Flight {} := ⟨Single.nil, fun _ _ hcall _ => nomatch hcall⟩

theorem flight_of_run {es : List Event} (h : browser.run {} es = some b) : Flight b :=
  (StepSystem.GuardedRun.of_run h).invariant (fun _ _ _ hinv _ hstep => hinv.step hstep) flight_initial

/-! ## How often a call is sent -/

/-- How a call goes on. -/
inductive Next : Option Call → Option Call → Prop
  | same (call : Option Call) : Next call call
  | start {request : Request} {authorization : Option String} :
      Next none (some (.fetching request authorization false))
  | answered {request : Request} {authorization : Option String} {isRetry : Bool} {status : ℕ} :
      Next (some (.fetching request authorization isRetry)) (some (.answered status))
  | failed {request : Request} {authorization : Option String} {isRetry : Bool} {message : String} {status : ℕ} :
      Next (some (.fetching request authorization isRetry)) (some (.rejected message status))
  | refreshing {request : Request} {authorization attemptedRefresh : Option String} :
      Next (some (.fetching request authorization false)) (some (.refreshing request attemptedRefresh))
  | tokenless {request : Request} {authorization attemptedRefresh newToken : Option String} :
      Next (some (.fetching request authorization false)) (some (.refreshed request attemptedRefresh newToken))
  | settled {request : Request} {attemptedRefresh newToken : Option String} :
      Next (some (.refreshing request attemptedRefresh)) (some (.refreshed request attemptedRefresh newToken))
  | retried {request : Request} {attemptedRefresh newToken authorization : Option String} :
      Next (some (.refreshed request attemptedRefresh newToken)) (some (.fetching request authorization true))
  | lost {request : Request} {attemptedRefresh newToken : Option String} {message : String} {status : ℕ} :
      Next (some (.refreshed request attemptedRefresh newToken)) (some (.rejected message status))

def onTheWay : Option Call → Bool
  | some (.fetching _ _ _) => true
  | _ => false

/-- A main request of call `k` in tab `i` goes out. -/
def sends (place : ℕ × ℕ) (b : Browser) (e : Event) : Bool :=
  (b.step e).any fun b' => onTheWay (b'.tabs place.1).calls[place.2]? && !onTheWay (b.tabs place.1).calls[place.2]?

/-- How many main requests a call has sent at most. -/
def sentAtMost : Option Call → ℕ
  | none => 0
  | some (.fetching _ _ false) | some (.refreshing _ _) | some (.refreshed _ _ _) => 1
  | some (.fetching _ _ true) | some (.answered _) | some (.rejected _ _) => 2

theorem Next.sent_le {call call' : Option Call} (h : Next call call') :
    sentAtMost call + (if onTheWay call' && !onTheWay call then 1 else 0) ≤ sentAtMost call' := by
  cases h with
  | same => simp
  | @answered request authorization isRetry status => cases isRetry <;> simp [sentAtMost, onTheWay]
  | @failed request authorization isRetry message status => cases isRetry <;> simp [sentAtMost, onTheWay]
  | _ => simp [sentAtMost, onTheWay]

theorem calls_write (b : Browser) (i : ℕ) (state : Option Stored) (j : ℕ) :
    ((b.write i state).tabs j).calls = (b.tabs j).calls := by
  by_cases hj : j = i
  · subst hj
    simp
  · rw [write_of_ne _ _ hj]
    split <;> rfl

theorem calls_hold (b : Browser) (i : ℕ) (state : Option Stored) (j : ℕ) :
    ((b.setTab i ((b.tabs i).hold state)).tabs j).calls = (b.tabs j).calls := by
  by_cases hj : j = i
  · subst hj
    simp
  · rw [setTab_of_ne _ _ hj]

theorem calls_onSessionLost (b : Browser) (i j : ℕ) : ((b.onSessionLost i).tabs j).calls = (b.tabs j).calls := by
  unfold onSessionLost
  split
  · split
    · exact calls_hold b i _ j
    · exact calls_write b i none j
  · exact calls_write b i none j

/-- One call of one tab goes on. -/
theorem next_of_set {tab : Tab} {calls : List Call} {call call' : Call} (hcall : calls[k]? = some call)
    (htab : tab.calls = calls.set k call') (hnext : Next (some call) (some call')) (b : Browser) (i j n : ℕ)
    (hcalls : (b.tabs i).calls = calls) : Next (b.tabs j).calls[n]? ((b.setTab i tab).tabs j).calls[n]? := by
  by_cases hj : j = i
  · subst hj
    rw [setTab_self, htab, hcalls]
    by_cases hn : n = k
    · subst hn
      rw [hcall, List.getElem?_set_self (List.getElem?_eq_some_iff.mp hcall).1]
      exact hnext
    · rw [List.getElem?_set_ne (Ne.symm hn)]
      exact .same _
  · rw [setTab_of_ne _ _ hj]
    exact .same _

theorem next_send (b : Browser) (i : ℕ) (request : Request) (j n : ℕ) :
    Next (b.tabs j).calls[n]? ((b.setTab i ((b.tabs i).send request)).tabs j).calls[n]? := by
  by_cases hj : j = i
  · subst hj
    rw [setTab_self]
    simp only [Tab.send]
    rcases Nat.lt_trichotomy n (b.tabs j).calls.length with hlt | rfl | hgt
    · rw [List.getElem?_append_left hlt]
      exact .same _
    · rw [List.getElem?_concat_length, List.getElem?_eq_none (Nat.le_refl _)]
      exact .start
    · rw [List.getElem?_eq_none (by omega), List.getElem?_eq_none (by simp; omega)]
      exact .same _
  · rw [setTab_of_ne _ _ hj]
    exact .same _

theorem next_settleTab (b : Browser) (i : ℕ) (newToken : Option String) (j n : ℕ) :
    Next (b.tabs j).calls[n]? ((b.setTab i ((b.tabs i).settle newToken)).tabs j).calls[n]? := by
  by_cases hj : j = i
  · subst hj
    rw [setTab_self]
    simp only [Tab.settle, List.getElem?_map]
    cases (b.tabs j).calls[n]? with
    | none => exact .same _
    | some call =>
      cases call with
      | refreshing request attemptedRefresh => exact .settled
      | _ => exact .same _
  · rw [setTab_of_ne _ _ hj]
    exact .same _

theorem next_settle (b : Browser) (i : ℕ) (now : ℤ) (answer : Option Grant) (j n : ℕ) :
    Next (b.tabs j).calls[n]? ((b.settle i now answer).tabs j).calls[n]? := by
  cases answer with
  | none => exact next_settleTab b i none j n
  | some grant =>
    simp only [settle]
    split
    · exact next_settleTab b i none j n
    · rw [← calls_write b i (some ⟨grant.accessToken, grant.refreshToken, expiry grant.expiresIn now⟩) j]
      exact next_settleTab _ i _ j n

theorem next_unauthorized {request : Request} {authorization : Option String}
    (hcall : (b.tabs i).calls[k]? = some (.fetching request authorization false)) (j n : ℕ) :
    Next (b.tabs j).calls[n]? ((b.unauthorized i k request).tabs j).calls[n]? := by
  unfold unauthorized
  by_cases hinflight : (b.tabs i).refreshInflight = true
  · rw [if_pos hinflight]
    exact next_of_set hcall rfl .refreshing b i j n rfl
  · rw [if_neg hinflight]
    split
    · exact next_of_set hcall rfl .tokenless b i j n rfl
    · exact next_of_set hcall rfl .refreshing b i j n rfl

theorem next_resume {request : Request} {attemptedRefresh newToken : Option String}
    (hcall : (b.tabs i).calls[k]? = some (.refreshed request attemptedRefresh newToken)) (j n : ℕ) :
    Next (b.tabs j).calls[n]? ((b.resume i k request attemptedRefresh newToken).tabs j).calls[n]? := by
  cases newToken with
  | some token => exact next_of_set hcall rfl .retried b i j n rfl
  | none =>
    rw [← calls_onSessionLost b i] at hcall
    rw [← calls_onSessionLost b i j]
    simp only [resume]
    split
    · exact next_of_set hcall rfl .retried _ i j n rfl
    · exact next_of_set hcall rfl .lost _ i j n rfl

theorem next_of_step (hstep : browser.step b e = some b') (j n : ℕ) :
    Next (b.tabs j).calls[n]? (b'.tabs j).calls[n]? := by
  cases stepped_of_step hstep with
  | request hready => exact next_send b _ _ j n
  | answered hready hcall => exact next_of_set hcall rfl .answered b _ j n rfl
  | unauthorized hready hcall hpath => exact next_unauthorized hcall j n
  | unreachable hready hcall => exact next_of_set hcall rfl .failed b _ j n rfl
  | resume hopen hcall => exact next_resume hcall j n
  | granted hexchange hlive hdraws => exact .same _
  | refused hexchange hlive => exact .same _
  | @reply k i now presented answer hexchange hready =>
    exact next_settle { b with exchanges := b.exchanges.eraseIdx k } i now answer j n
  | @drop k i presented answer hexchange hready =>
    exact next_settle { b with exchanges := b.exchanges.set k ⟨none, presented, answer⟩ } i 0 none j n
  | signIn hready hdraws =>
    rw [calls_write]
    exact .same _
  | @logout i hready =>
    unfold logout
    split
    · rw [calls_write]
      exact next_send b i _ j n
    · rw [calls_write]
      exact .same _
  | @hydrate i hready =>
    have hcalls : ((b.hydrate i).tabs j).calls = (b.tabs j).calls := by
      unfold hydrate
      by_cases hj : j = i
      · subst hj
        rw [setTab_self]
        split <;> simp
      · rw [setTab_of_ne _ _ hj]
    rw [hcalls]
    exact .same _
  | @storage i newValue inbox hready hinbox hinstalled =>
    have hcalls : ((b.setTab i ({ b.tabs i with inbox }.onStorage newValue)).tabs j).calls = (b.tabs j).calls := by
      by_cases hj : j = i
      · subst hj
        rw [setTab_self]
        rcases Tab.onStorage_cases { b.tabs j with inbox } newValue with hsame | hheld
        · rw [hsame]
        · rw [hheld, Tab.hold_calls]
      · rw [setTab_of_ne _ _ hj]
    rw [hcalls]
    exact .same _
  | @unheard i newValue inbox hready hinbox hinstalled =>
    by_cases hj : j = i
    · subst hj
      rw [setTab_self]
      exact .same _
    · rw [setTab_of_ne _ _ hj]
      exact .same _
  | @close i hopen =>
    by_cases hj : j = i
    · subst hj
      simp only [setTab, Function.update_self]
      exact .same _
    · simp only [setTab, Function.update_of_ne hj]
      exact .same _
  | revoke hlive => exact .same _

theorem count_sends_le {es : List Event} (h : browser.run {} es = some b) (place : ℕ × ℕ) :
    browser.count (sends place) {} es ≤ sentAtMost (b.tabs place.1).calls[place.2]? := by
  refine (StepSystem.GuardedRun.of_run h).counting (p := sends)
    (I := fun _ n s => ∀ place, n place ≤ sentAtMost (s.tabs place.1).calls[place.2]?)
    (fun _ n s e s' hinv _ hstep place => ?_) (fun _ => Nat.zero_le _) place
  have hnext := (next_of_step hstep place.1 place.2).sent_le
  have hsends : sends place s e =
      (onTheWay (s'.tabs place.1).calls[place.2]? && !onTheWay (s.tabs place.1).calls[place.2]?) := by
    rw [sends, show s.step e = some s' from hstep, Option.any_some]
  have hbound := hinv place
  show n place + (if sends place s e = true then 1 else 0) ≤ _
  rw [hsends]
  omega

theorem sentAtMost_le_two (call : Option Call) : sentAtMost call ≤ 2 := by
  cases call with
  | none => decide
  | some call =>
    cases call with
    | fetching request authorization isRetry => cases isRetry <;> simp [sentAtMost]
    | _ => simp [sentAtMost]

end Browser

end SuperAi.WebClient
