import SuperAi.Guardrails.LiveTradeGuard
import SuperAi.Foundations.SlidingWindow
import SuperAi.Foundations.SingleUse

/-! # The ramp and the rate limit

Trade rows are not removed, so that a count of them, in the cache or on its way to it, is at most the
number there is: a cached count can hold a buy back, but does not let one through too early. The
buckets are the sliding windows of the limiter, one per user.
-/
namespace SuperAi.Guardrails
open SuperAi.Foundations SuperAi.Execution
set_option autoImplicit false

/-! ## The rate limit -/

/-- The times of a user's hits. -/
def hitsOf (log : List (String × ℤ)) (userId : String) : List ℤ :=
  (log.filter fun hit => hit.1 == userId).map Prod.snd

/-- Every bucket limits the hits of its user. -/
def LimitedBuckets (window : ℤ) (limit : ℕ) (clock : ℤ) (log : List (String × ℤ)) (buckets : Buckets) : Prop :=
  ∀ userId, SlidingWindow.Limited window limit clock (hitsOf log userId) (bucketOf buckets userId)

theorem hitsOf_append_self (log : List (String × ℤ)) (userId : String) (now : ℤ) :
    hitsOf (log ++ [(userId, now)]) userId = hitsOf log userId ++ [now] := by
  simp [hitsOf]

theorem hitsOf_append_of_ne {log : List (String × ℤ)} {userId other : String} (now : ℤ) (h : other ≠ userId) :
    hitsOf (log ++ [(userId, now)]) other = hitsOf log other := by
  simp [hitsOf, Ne.symm h]

@[simp] theorem bucketOf_set_self (buckets : Buckets) (userId : String) (ts : List ℤ) :
    bucketOf (buckets.set userId ts) userId = ts := by
  simp [bucketOf]

theorem bucketOf_set_of_ne {buckets : Buckets} {userId other : String} (ts : List ℤ) (h : other ≠ userId) :
    bucketOf (buckets.set userId ts) other = bucketOf buckets other := by
  unfold bucketOf
  rw [KeyValue.get_set_of_ne h]

namespace LimitedBuckets
variable {window clock now : ℤ} {limit : ℕ} {log : List (String × ℤ)} {buckets buckets' : Buckets}
  {userId : String} {kind : RateKind}

theorem nil : LimitedBuckets window limit clock [] [] := fun _ => .nil

theorem later (h : LimitedBuckets window limit clock log buckets) (hle : clock ≤ now) :
    LimitedBuckets window limit now log buckets :=
  fun userId => (h userId).later hle

/-- A hit that is refused leaves the log. -/
theorem refused {e : GuardError} (h : LimitedBuckets window limit now log buckets)
    (hhit : hitRate buckets userId now window limit kind = (.error e, buckets')) :
    LimitedBuckets window limit now log buckets' := by
  unfold hitRate at hhit
  dsimp only at hhit
  split at hhit
  · obtain ⟨-, rfl⟩ := Prod.mk.inj hhit
    intro other
    by_cases hother : other = userId
    · subst hother
      rw [bucketOf_set_self]
      exact (h other).prune
    · rw [bucketOf_set_of_ne _ hother]
      exact h other
  · obtain ⟨hok, -⟩ := Prod.mk.inj hhit
    cases hok

theorem passed (h : LimitedBuckets window limit now log buckets)
    (hhit : hitRate buckets userId now window limit kind = (.ok (), buckets')) :
    LimitedBuckets window limit now (log ++ [(userId, now)]) buckets' := by
  unfold hitRate at hhit
  dsimp only at hhit
  split at hhit
  · obtain ⟨herror, -⟩ := Prod.mk.inj hhit
    cases herror
  · rename_i hroom
    obtain ⟨-, rfl⟩ := Prod.mk.inj hhit
    intro other
    by_cases hother : other = userId
    · subst hother
      rw [bucketOf_set_self, hitsOf_append_self]
      exact (h other).prune.hit (Nat.lt_of_not_le hroom)
    · rw [bucketOf_set_of_ne _ hother, hitsOf_append_of_ne _ hother]
      exact h other

end LimitedBuckets

/-! ## The ramp -/

/-- A count of the user's rows that has been read is at most their number. -/
def CheckPhase.Counted (liveTrades : List String) : CheckPhase → Prop
  | .store userId _ read => read ≤ liveTrades.count userId
  | .count _ _ | .ended => True

/-- A buy above the cap had enough trades before it. -/
def PassedBuy.Ramped (buy : PassedBuy) : Prop :=
  FIRST_LIVE_TRADE_CAP_USD < buy.notionalUsd → FIRST_LIVE_TRADE_COUNT ≤ buy.recorded

structure Sound (s : GuardState) : Prop where
  cached : ∀ userId entry, s.guard.capCache.get userId = some entry →
    entry.liveTradesSoFar ≤ s.liveTrades.count userId
  counted : ∀ phase ∈ s.calls, phase.Counted s.liveTrades
  ramped : ∀ buy ∈ s.passed, buy.Ramped
  swaps : LimitedBuckets SWAP_WINDOW_MS SWAP_MAX s.clock s.swapHits s.guard.swapBuckets
  withdraws : LimitedBuckets WITHDRAW_WINDOW_MS WITHDRAW_MAX s.clock s.withdrawHits s.guard.withdrawBuckets

variable {s s' t : GuardState} {userId : String} {notionalUsd : ℚ} {i count : ℕ}

theorem checkCap_ok {liveCount : ℕ} (h : checkCap liveCount notionalUsd = .ok ()) :
    FIRST_LIVE_TRADE_CAP_USD < notionalUsd → FIRST_LIVE_TRADE_COUNT ≤ liveCount := by
  intro hcap
  unfold checkCap at h
  split at h
  · cases h
  · rename_i hnot
    by_contra hlt
    exact hnot ⟨Nat.lt_of_not_le hlt, hcap⟩

theorem CheckPhase.Counted.grow {liveTrades : List String} {phase : CheckPhase} (later : List String)
    (h : phase.Counted liveTrades) : phase.Counted (liveTrades ++ later) := by
  cases phase with
  | store userId notionalUsd read =>
    have hle : read ≤ liveTrades.count userId := h
    change read ≤ (liveTrades ++ later).count userId
    rw [List.count_append]
    omega
  | count userId notionalUsd => trivial
  | ended => trivial

namespace Sound

theorem initial (clock : ℤ) (liveTrades : List String) : Sound { clock, liveTrades } where
  cached := nofun
  counted := nofun
  ramped := nofun
  swaps := .nil
  withdraws := .nil

theorem later (h : Sound s) {now : ℤ} (hle : s.clock ≤ now) : Sound { s with clock := now } :=
  { h with swaps := h.swaps.later hle, withdraws := h.withdraws.later hle }

theorem start (h : Sound s) {phase : CheckPhase} (hphase : phase.Counted s.liveTrades) :
    Sound { s with calls := s.calls ++ [phase] } :=
  { h with counted := List.forall_mem_append.mpr ⟨h.counted, List.forall_mem_singleton.mpr hphase⟩ }

theorem setPhase (h : Sound s) {phase : CheckPhase} (hphase : phase.Counted s.liveTrades) :
    Sound (s.setPhase i phase) where
  cached := h.cached
  counted := forall_mem_set h.counted hphase i
  ramped := h.ramped
  swaps := h.swaps
  withdraws := h.withdraws

/-- The check ends with a count that is at most the number of rows. -/
theorem finish (h : Sound s) {liveCount : ℕ} (hle : liveCount ≤ s.liveTrades.count userId) :
    Sound (s.finish userId notionalUsd liveCount).2 := by
  unfold GuardState.finish
  split
  · rename_i hok
    have hramped : PassedBuy.Ramped ⟨userId, notionalUsd, s.liveTrades.count userId⟩ := by
      intro hcap
      exact Nat.le_trans (checkCap_ok hok hcap) hle
    exact { h with ramped := List.forall_mem_append.mpr ⟨h.ramped, List.forall_mem_singleton.mpr hramped⟩ }
  · exact h

theorem cachedCount (h : Sound s) {now : ℤ} {liveCount : ℕ}
    (hcached : s.guard.cachedCount userId now = some liveCount) : liveCount ≤ s.liveTrades.count userId := by
  obtain ⟨entry, hentry, rfl⟩ := Option.map_eq_some_iff.mp hcached
  exact h.cached userId entry (Option.filter_eq_some_iff.mp hentry).1

theorem checkLiveSwap (h : Sound s) (side : Option Side) : Sound (s.checkLiveSwap userId notionalUsd side).2 := by
  unfold GuardState.checkLiveSwap
  split
  · exact h
  · split
    · rename_i hhit
      exact { h with swaps := h.swaps.refused hhit }
    · rename_i buckets hhit
      have hpassed : Sound { s with guard.swapBuckets := buckets, swapHits := s.swapHits ++ [(userId, s.clock)] } :=
        { h with swaps := h.swaps.passed hhit }
      dsimp only
      split
      · rename_i hcached
        exact hpassed.finish (hpassed.cachedCount hcached)
      · exact hpassed.start trivial

theorem checkLiveWithdraw (h : Sound s) : Sound (s.checkLiveWithdraw userId) := by
  unfold GuardState.checkLiveWithdraw
  split
  · rename_i hhit
    exact { h with withdraws := h.withdraws.refused hhit }
  · rename_i hhit
    exact { h with withdraws := h.withdraws.passed hhit }

theorem stored (h : Sound s) (hcall : s.calls[i]? = some (.store userId notionalUsd count)) :
    Sound (s.stored i userId notionalUsd count) := by
  have hcount : count ≤ s.liveTrades.count userId := h.counted _ (List.mem_of_getElem? hcall)
  have hcached : Sound { s with guard.capCache := s.guard.capCache.set userId ⟨count, s.clock⟩ } :=
    { h with
      cached := fun other entry hentry => by
        by_cases hother : other = userId
        · subst hother
          obtain rfl := Option.some.inj ((KeyValue.get_set_self _ _ _).symm.trans hentry)
          exact hcount
        · exact h.cached other entry ((KeyValue.get_set_of_ne hother).symm.trans hentry) }
  have hended : Sound (GuardState.setPhase _ i .ended) := hcached.setPhase trivial
  exact hended.finish hcount

theorem invalidate (h : Sound s) (userId : String) :
    Sound { s with guard.capCache := s.guard.capCache.del userId } :=
  { h with
    cached := fun other entry hentry => by
      by_cases hother : other = userId
      · subst hother
        rw [KeyValue.get_del_self] at hentry
        cases hentry
      · exact h.cached other entry ((KeyValue.get_del_of_ne hother).symm.trans hentry) }

theorem record (h : Sound s) (userId : String) : Sound { s with liveTrades := s.liveTrades ++ [userId] } :=
  { h with
    cached := fun other entry hentry => by
      have hle := h.cached other entry hentry
      change entry.liveTradesSoFar ≤ (s.liveTrades ++ [userId]).count other
      rw [List.count_append]
      omega
    counted := fun phase hphase => (h.counted phase hphase).grow [userId] }

theorem stepAt {e : GuardEvent} (h : Sound s) (hstep : s.stepAt e = some s') : Sound s' := by
  cases e with
  | checkLiveSwap userId notionalUsd side =>
    obtain rfl := Option.some.inj hstep
    exact h.checkLiveSwap side
  | counted i =>
    obtain ⟨phase, hcall, hphase⟩ := Option.bind_eq_some_iff.mp hstep
    cases phase with
    | count userId notionalUsd =>
      obtain rfl := Option.some.inj hphase
      exact h.setPhase (Nat.le_refl _)
    | _ => cases hphase
  | countFails i =>
    obtain ⟨phase, hcall, hphase⟩ := Option.bind_eq_some_iff.mp hstep
    cases phase with
    | count userId notionalUsd =>
      obtain rfl := Option.some.inj hphase
      exact h.setPhase trivial
    | _ => cases hphase
  | stored i =>
    obtain ⟨phase, hcall, hphase⟩ := Option.bind_eq_some_iff.mp hstep
    cases phase with
    | store userId notionalUsd count =>
      obtain rfl := Option.some.inj hphase
      exact h.stored hcall
    | _ => cases hphase
  | checkLiveWithdraw userId =>
    obtain rfl := Option.some.inj hstep
    exact h.checkLiveWithdraw
  | invalidate userId =>
    obtain rfl := Option.some.inj hstep
    exact h.invalidate userId
  | record userId =>
    obtain rfl := Option.some.inj hstep
    exact h.record userId

theorem step {e : ℤ × GuardEvent} (h : Sound s) (hstep : liveTradeGuard.step s e = some s') : Sound s' := by
  obtain ⟨hle, hat⟩ := Option.ite_none_right_eq_some.mp hstep
  exact (h.later hle).stepAt hat

end Sound

/-! ## Runs -/

/-- Three small buys and their rows, a large one while the count is cached, and a large one afterwards. -/
def rampSteps : List (ℤ × GuardEvent) :=
  [(0, .checkLiveSwap "u1" 50 (some .buy)), (1, .counted 0), (2, .stored 0), (3, .record "u1"),
    (10, .checkLiveSwap "u1" 100 none), (11, .record "u1"), (12, .record "u1"),
    (20, .checkLiveSwap "u1" 5000 (some .buy)), (30, .invalidate "u1"),
    (40, .checkLiveSwap "u1" 5000 (some .buy)), (41, .counted 1), (50, .stored 1)]

end SuperAi.Guardrails
