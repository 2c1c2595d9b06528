import SuperAi.ExitEngine.HolderWatchService
import SuperAi.Foundations.OldestFirst
import Mathlib.Algebra.Order.Floor.Div

/-! # Checks of every position

A token's turn comes by the time of its last snapshot, which a failed check leaves as it is. In a window of ticks in
which at most as many checks fail as there is room for beside the tokens, every token of an open position is checked
(`checked_of_few_failures`); tokens whose checks keep failing shut others out for good.
-/
namespace SuperAi.ExitEngine
open SuperAi.Foundations
set_option autoImplicit false

/-- How many checks of the tick fail. -/
def HolderTick.failures (tick : HolderTick) : ℕ := tick.answers.countP fun answer => answer.2.failed

/-! ## One tick -/

namespace HolderWatch
variable {cfg : HolderConfig} {w : HolderWatch} {token : String} {answer : RpcAnswer} {now : ℤ}

theorem fetchSnapshot_of_failed (h : answer.failed = true) : fetchSnapshot answer now = none := by
  unfold RpcAnswer.failed at h
  simp [fetchSnapshot, h]

theorem fetchSnapshot_ts (now : ℤ) (h : answer.failed = false) :
    ∃ snap, fetchSnapshot answer now = some snap ∧ snap.ts = now := by
  unfold RpcAnswer.failed at h
  simp [fetchSnapshot, h]

theorem lastTs_checkToken_of_failed (h : answer.failed = true) (key : String) :
    (w.checkToken cfg token answer now).lastTs key = w.lastTs key := by
  rw [checkToken, fetchSnapshot_of_failed h]

theorem lastTs_checkToken_of_ne {key : String} (h : key ≠ token) :
    (w.checkToken cfg token answer now).lastTs key = w.lastTs key := by
  unfold checkToken
  cases fetchSnapshot answer now with
  | none => rfl
  | some snap =>
    unfold lastTs
    rw [KeyValue.get_set_of_ne h]

theorem lastTs_checkToken_self (h : answer.failed = false) :
    (w.checkToken cfg token answer now).lastTs token = now := by
  obtain ⟨snap, hsnap, hts⟩ := fetchSnapshot_ts now h
  unfold checkToken lastTs
  rw [hsnap]
  simp [hts]

variable {checks : List (String × ℕ × RpcAnswer)}

theorem le_checkTokens_now : now ≤ (w.checkTokens cfg now checks).2 := by
  induction checks generalizing w now with
  | nil => exact le_refl _
  | cons check checks ih =>
    obtain ⟨token, took, answer⟩ := check
    have hrest := @ih (w.checkToken cfg token answer (now + took)) (now + took)
    unfold checkTokens
    omega

/-- A token without an answer that succeeds keeps its time. -/
theorem lastTs_checkTokens_of_unserved {key : String}
    (h : ∀ check ∈ checks, check.1 = key → check.2.2.failed = true) :
    (w.checkTokens cfg now checks).1.lastTs key = w.lastTs key := by
  induction checks generalizing w now with
  | nil => rfl
  | cons check checks ih =>
    obtain ⟨token, took, answer⟩ := check
    obtain ⟨hfirst, hrest⟩ := List.forall_mem_cons.mp h
    unfold checkTokens
    rw [ih hrest]
    by_cases hkey : token = key
    · exact lastTs_checkToken_of_failed (hfirst hkey) key
    · exact lastTs_checkToken_of_ne (Ne.symm hkey)

/-- A token with an answer that succeeds gets a time of this tick. -/
theorem le_lastTs_checkTokens {key : String} {start : ℤ} (hstart : start ≤ now)
    (h : start ≤ w.lastTs key ∨ ∃ check ∈ checks, check.1 = key ∧ check.2.2.failed = false) :
    start ≤ (w.checkTokens cfg now checks).1.lastTs key := by
  induction checks generalizing w now with
  | nil => exact h.resolve_right (by simp)
  | cons check checks ih =>
    obtain ⟨token, took, answer⟩ := check
    unfold checkTokens
    apply ih (by omega)
    by_cases hserved : token = key ∧ answer.failed = false
    · left
      rw [← hserved.1, lastTs_checkToken_self hserved.2]
      omega
    · obtain hold | ⟨check, hmem, hkey, hok⟩ := h
      · left
        by_cases hkey : token = key
        · have hfailed : answer.failed = true := Bool.not_eq_false _ ▸ fun hok => hserved ⟨hkey, hok⟩
          rwa [lastTs_checkToken_of_failed hfailed]
        · rwa [lastTs_checkToken_of_ne (Ne.symm hkey)]
      · obtain rfl | hrest := List.mem_cons.mp hmem
        · exact absurd ⟨hkey, hok⟩ hserved
        · exact .inr ⟨check, hrest, hkey, hok⟩

/-- No snapshot is younger than the clock. -/
theorem lastTs_checkTokens_le (h : ∀ key, w.lastTs key ≤ now) (key : String) :
    (w.checkTokens cfg now checks).1.lastTs key ≤ (w.checkTokens cfg now checks).2 := by
  induction checks generalizing w now with
  | nil => exact h key
  | cons check checks ih =>
    obtain ⟨token, took, answer⟩ := check
    unfold checkTokens
    apply ih
    intro other
    by_cases hkey : other = token
    · cases hfailed : answer.failed with
      | true =>
        rw [lastTs_checkToken_of_failed hfailed]
        have hother := h other
        omega
      | false => rw [hkey, lastTs_checkToken_self hfailed]
    · rw [lastTs_checkToken_of_ne hkey]
      have hother := h other
      omega

theorem lastTs_consumeSignal (token key : String) : (w.consumeSignal token).2.lastTs key = w.lastTs key := by
  unfold consumeSignal
  cases w.signals.get token <;> rfl

end HolderWatch

section Tick
variable {cfg : HolderConfig} {s s' t : HolderState} {tick : HolderTick} {token : String}

/-- The tokens whose checks succeed. -/
def HolderState.served (cfg : HolderConfig) (s : HolderState) (tick : HolderTick) : List String :=
  Foundations.served (s.due cfg tick) tick.answers fun answer => !answer.2.failed

theorem sorted_perm (w : HolderWatch) (rows : List String) :
    (rows.insertionSort fun a b => w.lastTs a ≤ w.lastTs b).Perm rows :=
  List.perm_insertionSort _ rows

theorem sorted_pairwise (w : HolderWatch) (rows : List String) :
    (rows.insertionSort fun a b => w.lastTs a ≤ w.lastTs b).Pairwise fun a b => w.lastTs a ≤ w.lastTs b := by
  have htotal : Std.Total fun a b => w.lastTs a ≤ w.lastTs b := ⟨fun a b => le_total _ _⟩
  have htrans : IsTrans String fun a b => w.lastTs a ≤ w.lastTs b := ⟨fun _ _ _ => le_trans⟩
  exact List.pairwise_insertionSort _ rows

theorem due_oldestFirst (hnodup : tick.rows.Nodup) :
    OldestFirst s.watch.lastTs cfg.BATCH tick.rows.toFinset (s.due cfg tick).toFinset :=
  OldestFirst.of_sorted hnodup (sorted_perm s.watch tick.rows) (sorted_pairwise s.watch tick.rows)

theorem due_nodup (hnodup : tick.rows.Nodup) : (s.due cfg tick).Nodup :=
  ((sorted_perm s.watch tick.rows).symm.nodup hnodup).sublist (List.take_sublist _ _)

theorem length_due (hlength : tick.answers.length = (s.due cfg tick).length) :
    (s.due cfg tick).length = (s.served cfg tick).length + tick.failures := by
  have htotal := length_picked hlength fun answer => !answer.2.failed
  simp only [Bool.not_not] at htotal
  exact htotal

structure HolderInv (s : HolderState) : Prop where
  start : 0 ≤ s.now
  past : ∀ token, s.watch.lastTs token ≤ s.now

theorem HolderInv.ticked (h : HolderInv s) (tick : HolderTick) : HolderInv (s.tick cfg tick) where
  start := by
    have hle : s.now + tick.pause ≤ (s.tick cfg tick).now := HolderWatch.le_checkTokens_now
    have hstart := h.start
    omega
  past token := by
    apply HolderWatch.lastTs_checkTokens_le
    intro key
    have hpast := h.past key
    omega

theorem HolderInv.step {e : HolderEvent} (h : HolderInv s) (hstep : (holderWatch cfg).step s e = some s') :
    HolderInv s' := by
  cases e with
  | trades rows =>
    obtain rfl := Option.some.inj hstep
    exact ⟨h.start, h.past⟩
  | consume token =>
    obtain rfl := Option.some.inj hstep
    refine ⟨h.start, fun key => ?_⟩
    rw [HolderWatch.lastTs_consumeSignal]
    exact h.past key
  | tick tick =>
    obtain ⟨-, heq⟩ := Option.ite_none_right_eq_some.mp hstep
    obtain rfl := Option.some.inj heq
    exact h.ticked tick

/-- The tokens that are served become the youngest. -/
theorem tick_renews (h : HolderInv s) (hpause : 0 < tick.pause) (rows : Finset String) :
    OldestFirst.Renews token s.watch.lastTs (s.tick cfg tick).watch.lastTs rows (s.served cfg tick).toFinset where
  fresh a _ ha := by
    obtain ⟨answer, hmem, hok⟩ := mem_served.mp (List.mem_toFinset.mp ha)
    have hfresh : s.now + tick.pause ≤ (s.tick cfg tick).watch.lastTs a :=
      HolderWatch.le_lastTs_checkTokens (le_refl _) (.inr ⟨(a, answer), hmem, rfl, Bool.not_eq_true' _ ▸ hok⟩)
    have hpast := h.past token
    omega
  kept a _ hout := by
    apply HolderWatch.lastTs_checkTokens_of_unserved
    rintro check hcheck rfl
    by_contra hfailed
    exact hout (List.mem_toFinset.mpr (mem_served.mpr ⟨check.2, hcheck, by simpa using hfailed⟩))

theorem rows_toFinset (h : tick.Answers (watchedTokens cfg s.trades))
    (hfew : (watchedTokens cfg s.trades).length ≤ TAKE) :
    tick.rows.toFinset = (watchedTokens cfg s.trades).toFinset := by
  obtain ⟨hnodup, hsub, hlength⟩ := h
  apply Finset.eq_of_subset_of_card_le
  · intro token htoken
    exact List.mem_toFinset.mpr (hsub (List.mem_toFinset.mp htoken))
  · rw [List.toFinset_card_of_nodup hnodup, hlength, min_eq_right hfew]
    exact List.toFinset_card_le _

/-! ## A window -/

def HolderEvent.tick? : HolderEvent → Option HolderTick
  | .tick tick => some tick
  | _ => none

/-- The ticks of a window, in which signals are consumed and rows are written as well. -/
def ticksOf (window : List HolderEvent) : List HolderTick := window.filterMap HolderEvent.tick?

/-- The tokens of open positions stay the same. -/
def SameTokens (cfg : HolderConfig) (s : HolderState) : HolderEvent → Prop
  | .trades rows => (watchedTokens cfg rows).Perm (watchedTokens cfg s.trades)
  | _ => True

instance (cfg : HolderConfig) (s : HolderState) (e : HolderEvent) : Decidable (SameTokens cfg s e) := by
  cases e with
  | trades rows => exact inferInstanceAs (Decidable (List.Perm _ _))
  | _ => exact isTrue trivial

/-- The step is no check of the token. -/
def LeavesOut (cfg : HolderConfig) (token : String) (s : HolderState) : HolderEvent → Prop
  | .tick tick => token ∉ s.due cfg tick
  | _ => True

instance (cfg : HolderConfig) (token : String) (s : HolderState) (e : HolderEvent) :
    Decidable (LeavesOut cfg token s e) := by
  cases e with
  | tick tick => exact inferInstanceAs (Decidable (token ∉ s.due cfg tick))
  | _ => exact isTrue trivial

/-- One tick of a window that leaves a token out; `rest` is the window after it. -/
theorem leftOut_tick (h : HolderInv s) (hpause : 0 < tick.pause)
    (hfew : (watchedTokens cfg s.trades).length ≤ TAKE) (htoken : token ∈ watchedTokens cfg s.trades)
    (hanswers : tick.Answers (watchedTokens cfg s.trades)) (hlength : tick.answers.length = (s.due cfg tick).length)
    (hguard : token ∉ s.due cfg tick) {ticks : List HolderTick}
    (rest : ticks ≠ [] → OldestFirst.LeftOut cfg.BATCH token (s.tick cfg tick).watch.lastTs
      (watchedTokens cfg s.trades).toFinset ticks.length (ticks.dropLast.map HolderTick.failures).sum) :
    OldestFirst.LeftOut cfg.BATCH token s.watch.lastTs (watchedTokens cfg s.trades).toFinset (tick :: ticks).length
      ((tick :: ticks).dropLast.map HolderTick.failures).sum := by
  have hout : token ∉ (s.due cfg tick).toFinset := fun hin => hguard (List.mem_toFinset.mp hin)
  have hmem : token ∈ (watchedTokens cfg s.trades).toFinset := List.mem_toFinset.mpr htoken
  have hpick : OldestFirst s.watch.lastTs cfg.BATCH tick.rows.toFinset (s.due cfg tick).toFinset :=
    due_oldestFirst hanswers.1
  rw [rows_toFinset hanswers hfew] at hpick
  cases ticks with
  | nil => exact .last hpick hmem hout
  | cons next ticks =>
    have hserved : (s.served cfg tick).Sublist (s.due cfg tick) := served_sublist hlength _
    apply OldestFirst.LeftOut.round hpick hmem hout
    · exact fun a ha => List.mem_toFinset.mpr (hserved.subset (List.mem_toFinset.mp ha))
    · have hdue : (s.due cfg tick).Nodup := due_nodup hanswers.1
      rw [List.toFinset_card_of_nodup hdue, List.toFinset_card_of_nodup (hdue.sublist hserved)]
      exact (length_due hlength).le
    · exact tick_renews h hpause (watchedTokens cfg s.trades).toFinset
    · exact subset_rfl
    · exact rest (List.cons_ne_nil _ _)

/-- A window whose ticks all leave a token out. -/
theorem leftOut {window : List HolderEvent} (h : HolderInv s) (hclock : ∀ tick ∈ ticksOf window, 0 < tick.pause)
    (hfew : (watchedTokens cfg s.trades).length ≤ TAKE) (htoken : token ∈ watchedTokens cfg s.trades)
    (hsame : (holderWatch cfg).GuardedRun (SameTokens cfg) s window t)
    (hrun : (holderWatch cfg).GuardedRun (LeavesOut cfg token) s window t) (hne : ticksOf window ≠ []) :
    OldestFirst.LeftOut cfg.BATCH token s.watch.lastTs (watchedTokens cfg s.trades).toFinset (ticksOf window).length
      ((ticksOf window).dropLast.map HolderTick.failures).sum := by
  induction window generalizing s with
  | nil => exact absurd rfl hne
  | cons e window ih =>
    cases hsame with
    | cons same step hsame =>
      cases hrun with
      | cons guard step' hrun =>
        obtain rfl := Option.some.inj (step.symm.trans step')
        have hinv := h.step step
        cases e with
        | trades rows =>
          obtain rfl := Option.some.inj step
          have hperm : (watchedTokens cfg rows).Perm (watchedTokens cfg s.trades) := same
          have hrest := ih hinv hclock (hperm.length_eq.trans_le hfew) (hperm.mem_iff.mpr htoken) hsame hrun hne
          rwa [List.toFinset_eq_of_perm _ _ hperm] at hrest
        | consume consumed =>
          obtain rfl := Option.some.inj step
          have hkept : (s.watch.consumeSignal consumed).2.lastTs = s.watch.lastTs :=
            funext (HolderWatch.lastTs_consumeSignal consumed)
          have hrest := ih hinv hclock hfew htoken hsame hrun hne
          rwa [hkept] at hrest
        | tick tick =>
          obtain ⟨⟨hanswers, hlength⟩, heq⟩ := Option.ite_none_right_eq_some.mp step
          obtain rfl := Option.some.inj heq
          obtain ⟨hpause, hclock⟩ := List.forall_mem_cons.mp hclock
          apply leftOut_tick h hpause hfew htoken hanswers hlength guard
          exact ih hinv hclock hfew htoken hsame hrun

end Tick

/-- **Checks of every position.** While the open positions are of the same tokens, no more than the query takes, a
window of ticks, each later than the one before, checks all of them if no more checks of all its ticks but the last
fail than there is room for beside one check of each token. -/
theorem checked_of_few_failures {cfg : HolderConfig} {es window : List HolderEvent} {s t : HolderState}
    (hrun : (holderWatch cfg).run {} es = some s)
    (hwindow : (holderWatch cfg).GuardedRun (SameTokens cfg) s window t)
    (hfew : (watchedTokens cfg s.trades).length ≤ TAKE)
    (hlength : (ticksOf window).length = (watchedTokens cfg s.trades).length ⌈/⌉ cfg.BATCH + 1)
    (hclock : ∀ tick ∈ ticksOf window, 0 < tick.pause)
    (hanswered : ((ticksOf window).dropLast.map HolderTick.failures).sum + (watchedTokens cfg s.trades).length ≤
      ((watchedTokens cfg s.trades).length ⌈/⌉ cfg.BATCH + 1) * cfg.BATCH) :
    ∀ token ∈ watchedTokens cfg s.trades, ∃ pre tick post u, window = pre ++ .tick tick :: post ∧
      (holderWatch cfg).run s pre = some u ∧ token ∈ u.due cfg tick := by
  intro token htoken
  by_contra hnone
  have hinv : HolderInv s := (StepSystem.GuardedRun.of_run hrun).invariant (fun _ _ _ h _ hstep => h.step hstep)
    ⟨le_refl _, fun _ => le_refl _⟩
  have hout : (holderWatch cfg).GuardedRun (LeavesOut cfg token) s window t := by
    rw [StepSystem.GuardedRun.iff_forall_steps hwindow.run]
    intro pre e post u hsplit hbefore
    cases e with
    | tick tick => exact fun hin => hnone ⟨pre, tick, post, u, hsplit, hbefore, hin⟩
    | trades rows => trivial
    | consume token => trivial
  have hne : ticksOf window ≠ [] := by
    intro hnil
    rw [hnil, List.length_nil] at hlength
    omega
  have hbound := (leftOut hinv hclock hfew htoken hwindow hout hne).bound
  have hcard := List.toFinset_card_le (watchedTokens cfg s.trades)
  rw [hlength] at hbound
  omega

/-! ## Two windows -/

def oneByOne : HolderConfig := { BATCH := 1 }

def twoPositions : HolderState := { trades := [{ tokenOut := "mintA" }, { tokenOut := "mintB" }] }

def tickOf (largest : Option (List (Option ℚ))) : HolderTick where
  pause := 120000
  rows := ["mintA", "mintB"]
  answers := [(300, { largest, supply := some 1000 })]

/-- The first check fails, and the two after it succeed. -/
def firstFails : List HolderEvent :=
  [.tick (tickOf none), .consume "mintA", .tick (tickOf (some [some 600])), .tick (tickOf (some [some 500]))]

theorem firstFails_checked : ∃ t, (holderWatch oneByOne).run twoPositions firstFails = some t ∧
    ∀ token ∈ ["mintA", "mintB"], ∃ pre tick post u, firstFails = pre ++ .tick tick :: post ∧
      (holderWatch oneByOne).run twoPositions pre = some u ∧ token ∈ u.due oneByOne tick := by
  have hsome : ((holderWatch oneByOne).guardedRun (SameTokens oneByOne) twoPositions firstFails).isSome = true := by
    decide +kernel
  obtain ⟨t, ht⟩ := Option.isSome_iff_exists.mp hsome
  have hwindow := StepSystem.GuardedRun.of_guardedRun ht
  have hstart : (holderWatch oneByOne).run {} [.trades twoPositions.trades] = some twoPositions := rfl
  exact ⟨t, hwindow.run,
    checked_of_few_failures hstart hwindow (by decide) (by decide) (by decide) (by decide)⟩

/-- The checks of one token fail again and again. -/
def alwaysFails : List HolderEvent := [.tick (tickOf none), .tick (tickOf none), .tick (tickOf none)]

/-- The second token's turn never comes. -/
theorem alwaysFails_unchecked : ¬ ∀ (cfg : HolderConfig) (es window : List HolderEvent) (s t : HolderState),
    (holderWatch cfg).run {} es = some s → (holderWatch cfg).GuardedRun (SameTokens cfg) s window t →
    (watchedTokens cfg s.trades).length ≤ TAKE →
    (ticksOf window).length = (watchedTokens cfg s.trades).length ⌈/⌉ cfg.BATCH + 1 →
    (∀ tick ∈ ticksOf window, 0 < tick.pause) →
    ∀ token ∈ watchedTokens cfg s.trades, ∃ pre tick post u, window = pre ++ .tick tick :: post ∧
      (holderWatch cfg).run s pre = some u ∧ token ∈ u.due cfg tick := by
  intro h
  have hboth : ((holderWatch oneByOne).guardedRun (fun s e => SameTokens oneByOne s e ∧ LeavesOut oneByOne "mintB" s e)
      twoPositions alwaysFails).isSome = true := by decide +kernel
  obtain ⟨t, ht⟩ := Option.isSome_iff_exists.mp hboth
  have hrun := StepSystem.GuardedRun.of_guardedRun ht
  have hsteps := (StepSystem.GuardedRun.iff_forall_steps hrun.run).mp hrun
  have hsame : (holderWatch oneByOne).GuardedRun (SameTokens oneByOne) twoPositions alwaysFails t :=
    (StepSystem.GuardedRun.iff_forall_steps hrun.run).mpr fun pre e post u hsplit hbefore =>
      (hsteps pre e post u hsplit hbefore).1
  have hstart : (holderWatch oneByOne).run {} [.trades twoPositions.trades] = some twoPositions := rfl
  obtain ⟨pre, tick, post, u, hsplit, hbefore, hin⟩ :=
    h oneByOne _ alwaysFails twoPositions t hstart hsame (by decide) (by decide) (by decide) "mintB" (by decide)
  exact (hsteps pre (.tick tick) post u hsplit hbefore).2 hin

end SuperAi.ExitEngine
