import SuperAi.Foundations.InTurn
import SuperAi.Foundations.StepSystem
import SuperAi.Risk.Breakers

/-! # Concurrent calls on one circuit breaker

Calls of `getState`, `recordSuccess`, `recordFailure` and `forceOpen` by any number of workers, one Redis
command after another. State, time of opening and failure counter are keys of their own, and a transition is
written some commands after the reads that it comes from. A breaker stays open for its reset timeout in every
run in which each transition is written over the state that it was computed from, and `openBreaker` ends at
the time that it stamps (`stays_open`), as in calls that do not overlap (`undisturbed_of_inTurn`).
-/
namespace SuperAi.Risk
open SuperAi.Foundations
set_option autoImplicit false

/-! ## Keys -/

/-- The failure counter; it has no expiry until its first `EXPIRE`. -/
structure FailureCounter where
  count : ℕ
  expiresAt : Option ℤ
  deriving DecidableEq, Repr

structure BreakerKeys where
  state : Option CircuitBreakerState := none
  openedAt : Option ℤ := none
  failures : Option FailureCounter := none
  deriving DecidableEq, Repr

namespace BreakerKeys

def liveFailures (keys : BreakerKeys) (now : ℤ) : Option FailureCounter :=
  keys.failures.filter fun counter => counter.expiresAt.all fun till => decide (now < till)

def incr (keys : BreakerKeys) (now : ℤ) : FailureCounter :=
  match keys.liveFailures now with
  | some counter => ⟨counter.count + 1, counter.expiresAt⟩
  | none => ⟨1, none⟩

def expire (keys : BreakerKeys) (now ttl : ℤ) : Option FailureCounter :=
  (keys.liveFailures now).map fun counter => ⟨counter.count, some (now + ttl)⟩

end BreakerKeys

/-! ## Calls -/

inductive BreakerOp
  | getState
  | recordSuccess
  | recordFailure
  | forceOpen
  deriving DecidableEq, Repr

/-- What a call does next. The phases up to `halfOpening` are those of `getState`, the next three those of a
success that closes the breaker, the next two those of a failure, and the last four those of `openBreaker`. -/
inductive BreakerPhase
  | readingState
  | readingOpenedAt
  | deciding (openedAt : ℤ)
  | halfOpening (openedAt : ℤ)
  | closing
  | clearingFailures
  | clearingOpenedAt
  | counting
  | expiring (count : ℕ)
  | opening
  | stamping
  | writingOpenedAt (stamp : ℤ)
  | droppingFailures (stamp : ℤ)
  | done
  deriving DecidableEq, Repr

/-- A call with the time of the last opening that was complete when it started, and what its `getState`
has returned and when. -/
structure BreakerCall where
  op : BreakerOp
  phase : BreakerPhase
  opened : Option ℤ
  returned : Option (CircuitBreakerState × ℤ) := none
  deriving DecidableEq, Repr

structure BreakerRace where
  now : ℤ := 0
  keys : BreakerKeys := {}
  lastOpened : Option ℤ := none
  calls : List BreakerCall := []

inductive BreakerEvent
  | wait (ms : ℕ)
  | call (op : BreakerOp)
  | advance (call : ℕ)
  deriving DecidableEq, Repr

namespace BreakerOp

def firstPhase : BreakerOp → BreakerPhase
  | .forceOpen => .opening
  | _ => .readingState

/-- What follows when `getState` has returned. -/
def next : BreakerOp → CircuitBreakerState → BreakerPhase
  | .recordSuccess, .HALF_OPEN => .closing
  | .recordFailure, .HALF_OPEN => .opening
  | .recordFailure, .CLOSED => .counting
  | _, _ => .done

end BreakerOp

namespace BreakerCall

def found (call : BreakerCall) (now : ℤ) (state : CircuitBreakerState) : BreakerCall :=
  { call with phase := call.op.next state, returned := some (state, now) }

def move (call : BreakerCall) (phase : BreakerPhase) : BreakerCall := { call with phase }

/-- One command of the call, or one look at the clock. -/
def advance (b : CountingBreaker) (now : ℤ) (keys : BreakerKeys) (call : BreakerCall) :
    Option (BreakerKeys × BreakerCall) :=
  let counted (count : ℕ) : BreakerPhase := if b.threshold ≤ count then .opening else .done
  match call.phase with
  | .readingState =>
    match keys.state with
    | some .OPEN => some (keys, call.move .readingOpenedAt)
    | some .HALF_OPEN => some (keys, call.found now .HALF_OPEN)
    | some .CLOSED => some (keys, call.found now .CLOSED)
    | none => some (keys, call.found now .CLOSED)
  | .readingOpenedAt =>
    match keys.openedAt with
    | some openedAt => some (keys, call.move (.deciding openedAt))
    | none => some (keys, call.found now .OPEN)
  | .deciding openedAt =>
    some (keys, if b.resetTimeoutMs ≤ now - openedAt then call.move (.halfOpening openedAt) else call.found now .OPEN)
  | .halfOpening _ => some ({ keys with state := some .HALF_OPEN }, call.found now .HALF_OPEN)
  | .closing => some ({ keys with state := some .CLOSED }, call.move .clearingFailures)
  | .clearingFailures => some ({ keys with failures := none }, call.move .clearingOpenedAt)
  | .clearingOpenedAt => some ({ keys with openedAt := none }, call.move .done)
  | .counting =>
    let counter := keys.incr now
    some ({ keys with failures := some counter },
      call.move (if counter.count = 1 then .expiring counter.count else counted counter.count))
  | .expiring count => some ({ keys with failures := keys.expire now b.windowTtl }, call.move (counted count))
  | .opening => some ({ keys with state := some .OPEN }, call.move .stamping)
  | .stamping => some (keys, call.move (.writingOpenedAt now))
  | .writingOpenedAt stamp => some ({ keys with openedAt := some stamp }, call.move (.droppingFailures stamp))
  | .droppingFailures _ => some ({ keys with failures := none }, call.move .done)
  | .done => none

/-- The call completes `openBreaker` with what it does next. -/
def completes (call : BreakerCall) : Bool :=
  match call.phase with
  | .droppingFailures _ => true
  | _ => false

/-- The call has written that the breaker is open, and not yet since when. -/
def betweenWrites (call : BreakerCall) : Bool :=
  match call.phase with
  | .stamping | .writingOpenedAt _ => true
  | _ => false

end BreakerCall

/-- What the next command of a call can do. -/
inductive BreakerCall.Advances (b : CountingBreaker) (now : ℤ) (keys : BreakerKeys) (call : BreakerCall) :
    BreakerKeys → BreakerCall → Prop
  | findsOpen (phase : call.phase = .readingState) (state : keys.state = some .OPEN) :
    Advances b now keys call keys (call.move .readingOpenedAt)
  | findsNotOpen (found : CircuitBreakerState) (phase : call.phase = .readingState)
    (state : keys.state ≠ some .OPEN) (half : found = .HALF_OPEN → keys.state = some .HALF_OPEN) :
    Advances b now keys call keys (call.found now found)
  | findsOpenedAt (openedAt : ℤ) (phase : call.phase = .readingOpenedAt) (stored : keys.openedAt = some openedAt) :
    Advances b now keys call keys (call.move (.deciding openedAt))
  | findsNoTime (phase : call.phase = .readingOpenedAt) : Advances b now keys call keys (call.found now .OPEN)
  | timedOut (openedAt : ℤ) (phase : call.phase = .deciding openedAt) (passed : b.resetTimeoutMs ≤ now - openedAt) :
    Advances b now keys call keys (call.move (.halfOpening openedAt))
  | notTimedOut (openedAt : ℤ) (phase : call.phase = .deciding openedAt) :
    Advances b now keys call keys (call.found now .OPEN)
  | halfOpens (openedAt : ℤ) (phase : call.phase = .halfOpening openedAt) :
    Advances b now keys call { keys with state := some .HALF_OPEN } (call.found now .HALF_OPEN)
  | closes (phase : call.phase = .closing) :
    Advances b now keys call { keys with state := some .CLOSED } (call.move .clearingFailures)
  | clearsOpenedAt (phase : call.phase = .clearingOpenedAt) :
    Advances b now keys call { keys with openedAt := none } (call.move .done)
  | writesFailures (failures : Option FailureCounter) (next : BreakerPhase)
    (phase : call.phase = .clearingFailures ∨ call.phase = .counting ∨ ∃ count, call.phase = .expiring count)
    (unread : next = .clearingOpenedAt ∨ next = .opening ∨ next = .done ∨ ∃ count, next = .expiring count) :
    Advances b now keys call { keys with failures } (call.move next)
  | opens (phase : call.phase = .opening) :
    Advances b now keys call { keys with state := some .OPEN } (call.move .stamping)
  | stamps (phase : call.phase = .stamping) : Advances b now keys call keys (call.move (.writingOpenedAt now))
  | writesOpenedAt (stamp : ℤ) (phase : call.phase = .writingOpenedAt stamp) :
    Advances b now keys call { keys with openedAt := some stamp } (call.move (.droppingFailures stamp))
  | completes (stamp : ℤ) (phase : call.phase = .droppingFailures stamp) :
    Advances b now keys call { keys with failures := none } (call.move .done)

theorem BreakerCall.advance_cases {b : CountingBreaker} {now : ℤ} {keys keys' : BreakerKeys} {call next : BreakerCall}
    (h : call.advance b now keys = some (keys', next)) : call.Advances b now keys keys' next := by
  unfold advance at h
  cases hphase : call.phase with
  | readingState =>
    simp only [hphase] at h
    cases hstate : keys.state with
    | none =>
      simp only [hstate] at h
      obtain ⟨rfl, rfl⟩ := Prod.mk.inj (Option.some.inj h)
      exact .findsNotOpen .CLOSED hphase (by simp [hstate]) (by simp)
    | some state =>
      cases state with
      | OPEN =>
        simp only [hstate] at h
        obtain ⟨rfl, rfl⟩ := Prod.mk.inj (Option.some.inj h)
        exact .findsOpen hphase hstate
      | HALF_OPEN =>
        simp only [hstate] at h
        obtain ⟨rfl, rfl⟩ := Prod.mk.inj (Option.some.inj h)
        exact .findsNotOpen .HALF_OPEN hphase (by simp [hstate]) fun _ => hstate
      | CLOSED =>
        simp only [hstate] at h
        obtain ⟨rfl, rfl⟩ := Prod.mk.inj (Option.some.inj h)
        exact .findsNotOpen .CLOSED hphase (by simp [hstate]) (by simp)
  | readingOpenedAt =>
    simp only [hphase] at h
    cases hopened : keys.openedAt with
    | none =>
      simp only [hopened] at h
      obtain ⟨rfl, rfl⟩ := Prod.mk.inj (Option.some.inj h)
      exact .findsNoTime hphase
    | some openedAt =>
      simp only [hopened] at h
      obtain ⟨rfl, rfl⟩ := Prod.mk.inj (Option.some.inj h)
      exact .findsOpenedAt openedAt hphase hopened
  | deciding openedAt =>
    simp only [hphase] at h
    obtain ⟨rfl, rfl⟩ := Prod.mk.inj (Option.some.inj h)
    by_cases htimeout : b.resetTimeoutMs ≤ now - openedAt
    · rw [if_pos htimeout]
      exact .timedOut openedAt hphase htimeout
    · rw [if_neg htimeout]
      exact .notTimedOut openedAt hphase
  | halfOpening openedAt =>
    simp only [hphase] at h
    obtain ⟨rfl, rfl⟩ := Prod.mk.inj (Option.some.inj h)
    exact .halfOpens openedAt hphase
  | closing =>
    simp only [hphase] at h
    obtain ⟨rfl, rfl⟩ := Prod.mk.inj (Option.some.inj h)
    exact .closes hphase
  | clearingFailures =>
    simp only [hphase] at h
    obtain ⟨rfl, rfl⟩ := Prod.mk.inj (Option.some.inj h)
    exact .writesFailures none _ (.inl hphase) (.inl rfl)
  | clearingOpenedAt =>
    simp only [hphase] at h
    obtain ⟨rfl, rfl⟩ := Prod.mk.inj (Option.some.inj h)
    exact .clearsOpenedAt hphase
  | counting =>
    simp only [hphase] at h
    obtain ⟨rfl, rfl⟩ := Prod.mk.inj (Option.some.inj h)
    refine .writesFailures _ _ (.inr (.inl hphase)) ?_
    repeat' split
    all_goals simp
  | expiring count =>
    simp only [hphase] at h
    obtain ⟨rfl, rfl⟩ := Prod.mk.inj (Option.some.inj h)
    refine .writesFailures _ _ (.inr (.inr ⟨count, hphase⟩)) ?_
    split
    all_goals simp
  | opening =>
    simp only [hphase] at h
    obtain ⟨rfl, rfl⟩ := Prod.mk.inj (Option.some.inj h)
    exact .opens hphase
  | stamping =>
    simp only [hphase] at h
    obtain ⟨rfl, rfl⟩ := Prod.mk.inj (Option.some.inj h)
    exact .stamps hphase
  | writingOpenedAt stamp =>
    simp only [hphase] at h
    obtain ⟨rfl, rfl⟩ := Prod.mk.inj (Option.some.inj h)
    exact .writesOpenedAt stamp hphase
  | droppingFailures stamp =>
    simp only [hphase] at h
    obtain ⟨rfl, rfl⟩ := Prod.mk.inj (Option.some.inj h)
    exact .completes stamp hphase
  | done => simp [hphase] at h

def breakerRuns (b : CountingBreaker) : StepSystem BreakerRace BreakerEvent where
  step s
    | .wait ms => some { s with now := s.now + ms }
    | .call op => some { s with calls := s.calls ++ [{ op := op, phase := op.firstPhase, opened := s.lastOpened }] }
    | .advance i =>
      (s.calls[i]?).bind fun call =>
        (call.advance b s.now s.keys).map fun (keys, next) =>
          { s with keys, calls := s.calls.set i next,
                   lastOpened := if call.completes then some s.now else s.lastOpened }

/-- The call's next command writes over what it has read, and a stamp is the time at which it is written. -/
def BreakerCall.Undisturbed (s : BreakerRace) (call : BreakerCall) : Prop :=
  match call.phase with
  | .halfOpening openedAt => s.keys.state = some .OPEN ∧ s.keys.openedAt = some openedAt ∧
      ∀ other ∈ s.calls, other.betweenWrites = false
  | .closing => s.keys.state = some .HALF_OPEN
  | .writingOpenedAt stamp => stamp = s.now
  | .droppingFailures stamp => stamp = s.now
  | _ => True

instance (s : BreakerRace) : (call : BreakerCall) → Decidable (call.Undisturbed s)
  | ⟨_, .halfOpening _, _, _⟩ => inferInstanceAs (Decidable (_ ∧ _ ∧ _))
  | ⟨_, .closing, _, _⟩ => inferInstanceAs (Decidable (_ = _))
  | ⟨_, .writingOpenedAt stamp, _, _⟩ => inferInstanceAs (Decidable (stamp = s.now))
  | ⟨_, .droppingFailures stamp, _, _⟩ => inferInstanceAs (Decidable (stamp = s.now))
  | ⟨_, .readingState, _, _⟩ | ⟨_, .readingOpenedAt, _, _⟩ | ⟨_, .deciding _, _, _⟩
  | ⟨_, .clearingFailures, _, _⟩ | ⟨_, .clearingOpenedAt, _, _⟩ | ⟨_, .counting, _, _⟩
  | ⟨_, .expiring _, _, _⟩ | ⟨_, .opening, _, _⟩ | ⟨_, .stamping, _, _⟩ | ⟨_, .done, _, _⟩ => isTrue trivial

/-- Every `getState` that started after an opening was complete, and ended before the reset timeout since then,
has returned that the breaker is open. -/
def StaysOpen (b : CountingBreaker) (s : BreakerRace) : Prop :=
  ∀ call ∈ s.calls, ∀ result ∈ call.returned, ∀ opened ∈ call.opened,
    result.2 < opened + b.resetTimeoutMs → result.1 = .OPEN

def RaceUndisturbed (s : BreakerRace) : BreakerEvent → Prop
  | .advance i => ∀ call ∈ s.calls[i]?, call.Undisturbed s
  | _ => True

instance (s : BreakerRace) : (e : BreakerEvent) → Decidable (RaceUndisturbed s e)
  | .advance i => inferInstanceAs (Decidable (∀ call ∈ s.calls[i]?, call.Undisturbed s))
  | .wait _ | .call _ => isTrue trivial

/-! ## The invariant -/

section
variable {b : CountingBreaker} {now now' : ℤ} {keys keys' : BreakerKeys} {s t : BreakerRace}

/-- Until the timeout since `opened` has passed the breaker is open, and its stored time is not before. -/
def KeptOpen (b : CountingBreaker) (now : ℤ) (keys : BreakerKeys) (opened : ℤ) : Prop :=
  now < opened + b.resetTimeoutMs → keys.state = some .OPEN ∧ ∀ stored ∈ keys.openedAt, opened ≤ stored

/-- What a call may rely on in its phase. -/
def BreakerPhase.Sound (b : CountingBreaker) (now : ℤ) (keys : BreakerKeys) (opened : Option ℤ) :
    BreakerPhase → Prop
  | .deciding openedAt => ∀ t ∈ opened, now < t + b.resetTimeoutMs → t ≤ openedAt
  | .halfOpening openedAt => openedAt + b.resetTimeoutMs ≤ now ∧ ∀ t ∈ opened, t + b.resetTimeoutMs ≤ now
  | .stamping | .writingOpenedAt _ => keys.state = some .OPEN
  | .droppingFailures stamp => stamp ≤ now ∧ KeptOpen b now keys stamp
  | _ => True

structure CallSound (b : CountingBreaker) (now : ℤ) (keys : BreakerKeys) (lastOpened : Option ℤ)
    (call : BreakerCall) : Prop where
  since : ∀ t ∈ call.opened, ∃ last ∈ lastOpened, t ≤ last
  phase : call.phase.Sound b now keys call.opened
  returned : ∀ result ∈ call.returned, ∀ t ∈ call.opened, result.2 < t + b.resetTimeoutMs → result.1 = .OPEN

structure RaceSound (b : CountingBreaker) (s : BreakerRace) : Prop where
  past : ∀ last ∈ s.lastOpened, last ≤ s.now
  kept : ∀ last ∈ s.lastOpened, KeptOpen b s.now s.keys last
  calls : ∀ call ∈ s.calls, CallSound b s.now s.keys s.lastOpened call

theorem RaceSound.staysOpen (h : RaceSound b s) : StaysOpen b s := fun call hcall => (h.calls call hcall).returned

/-! ## Time -/

theorem KeptOpen.later {opened : ℤ} (h : KeptOpen b now keys opened) (hle : now ≤ now') :
    KeptOpen b now' keys opened := fun hwithin => h (by omega)

theorem BreakerPhase.Sound.later {opened : Option ℤ} {phase : BreakerPhase} (h : phase.Sound b now keys opened)
    (hle : now ≤ now') : phase.Sound b now' keys opened := by
  cases phase with
  | deciding openedAt => exact fun t ht hwithin => h t ht (by omega)
  | halfOpening openedAt => exact ⟨le_trans h.1 hle, fun t ht => le_trans (h.2 t ht) hle⟩
  | droppingFailures stamp => exact ⟨le_trans h.1 hle, h.2.later hle⟩
  | _ => exact h

/-! ## Writes -/

/-- A write that keeps what is kept open, and leaves the state where a call stands between its writes. -/
structure Harmless (b : CountingBreaker) (now : ℤ) (calls : List BreakerCall) (keys keys' : BreakerKeys) :
    Prop where
  kept : ∀ opened ≤ now, KeptOpen b now keys opened → KeptOpen b now keys' opened
  between : (∃ call ∈ calls, call.betweenWrites = true) → keys.state = some .OPEN → keys'.state = some .OPEN

variable {calls : List BreakerCall}

theorem Harmless.of_same (hstate : keys'.state = keys.state) (hopenedAt : keys'.openedAt = keys.openedAt) :
    Harmless b now calls keys keys' := by
  refine ⟨fun opened _ h => ?_, fun _ h => hstate.trans h⟩
  unfold KeptOpen
  rw [hstate, hopenedAt]
  exact h

theorem CallSound.write {lastOpened : Option ℤ} {call : BreakerCall} (hmem : call ∈ calls)
    (h : CallSound b now keys lastOpened call) (hwrite : Harmless b now calls keys keys') :
    CallSound b now keys' lastOpened call := by
  refine ⟨h.since, ?_, h.returned⟩
  have hphase := h.phase
  cases hcase : call.phase with
  | stamping =>
    rw [hcase] at hphase
    exact hwrite.between ⟨call, hmem, by simp [BreakerCall.betweenWrites, hcase]⟩ hphase
  | writingOpenedAt stamp =>
    rw [hcase] at hphase
    exact hwrite.between ⟨call, hmem, by simp [BreakerCall.betweenWrites, hcase]⟩ hphase
  | droppingFailures stamp =>
    rw [hcase] at hphase
    exact ⟨hphase.1, hwrite.kept stamp hphase.1 hphase.2⟩
  | deciding openedAt => rwa [hcase] at hphase
  | halfOpening openedAt => rwa [hcase] at hphase
  | _ => trivial

theorem CallSound.completed {last : ℤ} {lastOpened : Option ℤ} {call : BreakerCall}
    (hpast : ∀ t ∈ lastOpened, t ≤ last) (h : CallSound b now keys lastOpened call) :
    CallSound b now keys (some last) call := by
  refine ⟨fun t ht => ?_, h.phase, h.returned⟩
  obtain ⟨before, hbefore, hle⟩ := h.since t ht
  exact ⟨last, rfl, le_trans hle (hpast before hbefore)⟩

/-! ## One command -/

theorem BreakerOp.next_sound (op : BreakerOp) (state : CircuitBreakerState) (opened : Option ℤ) :
    (op.next state).Sound b now keys opened := by
  cases op <;> cases state <;> trivial

section
variable {lastOpened : Option ℤ} {call : BreakerCall}

theorem CallSound.move (h : CallSound b now keys lastOpened call) {phase : BreakerPhase}
    (hphase : phase.Sound b now keys' call.opened) : CallSound b now keys' lastOpened (call.move phase) :=
  ⟨h.since, hphase, h.returned⟩

/-- `getState` returns that the breaker is open, or ends after the timeout since every opening before it. -/
theorem CallSound.found (h : CallSound b now keys lastOpened call) {state : CircuitBreakerState}
    (hstate : state = .OPEN ∨ ∀ t ∈ call.opened, t + b.resetTimeoutMs ≤ now) :
    CallSound b now keys' lastOpened (call.found now state) := by
  refine ⟨h.since, call.op.next_sound state call.opened, fun result hresult t ht hwithin => ?_⟩
  obtain rfl := Option.some.inj hresult
  rcases hstate with hopen | hpassed
  · exact hopen
  · have hafter := hpassed t ht
    dsimp only at hwithin
    omega

theorem CallSound.ended_of_not_open (h : CallSound b now keys lastOpened call)
    (hkept : ∀ last ∈ lastOpened, KeptOpen b now keys last) (hstate : keys.state ≠ some .OPEN) :
    ∀ t ∈ call.opened, t + b.resetTimeoutMs ≤ now := by
  intro t ht
  obtain ⟨last, hlast, hle⟩ := h.since t ht
  by_contra hwithin
  exact hstate (hkept last hlast (by omega)).1

end

/-- What the next command of a call does, if it is undisturbed. -/
structure Advanced (b : CountingBreaker) (s : BreakerRace) (call : BreakerCall) (keys : BreakerKeys)
    (next : BreakerCall) : Prop where
  harmless : Harmless b s.now s.calls s.keys keys
  sound : CallSound b s.now keys s.lastOpened next
  completes : call.completes = true → KeptOpen b s.now keys s.now

theorem RaceSound.advance {call next : BreakerCall} (h : RaceSound b s) (hmem : call ∈ s.calls)
    (hguard : call.Undisturbed s) (hadvance : call.advance b s.now s.keys = some (keys, next)) :
    Advanced b s call keys next := by
  have hcall := h.calls call hmem
  have hphase := hcall.phase
  unfold BreakerCall.Undisturbed at hguard
  cases BreakerCall.advance_cases hadvance with
  | findsOpen phase state =>
    exact ⟨.of_same rfl rfl, hcall.move trivial, by simp [BreakerCall.completes, phase]⟩
  | findsNotOpen found phase state half =>
    exact ⟨.of_same rfl rfl, hcall.found (.inr (hcall.ended_of_not_open h.kept state)),
      by simp [BreakerCall.completes, phase]⟩
  | findsOpenedAt openedAt phase stored =>
    refine ⟨.of_same rfl rfl, hcall.move fun t ht hwithin => ?_, by simp [BreakerCall.completes, phase]⟩
    obtain ⟨last, hlast, hle⟩ := hcall.since t ht
    have hstored := (h.kept last hlast (by omega)).2 openedAt stored
    omega
  | findsNoTime phase =>
    exact ⟨.of_same rfl rfl, hcall.found (.inl rfl), by simp [BreakerCall.completes, phase]⟩
  | timedOut openedAt phase passed =>
    rw [phase] at hphase
    refine ⟨.of_same rfl rfl, hcall.move ⟨by omega, fun t ht => ?_⟩, by simp [BreakerCall.completes, phase]⟩
    by_contra hwithin
    have hle := hphase t ht (by omega)
    omega
  | notTimedOut openedAt phase =>
    exact ⟨.of_same rfl rfl, hcall.found (.inl rfl), by simp [BreakerCall.completes, phase]⟩
  | halfOpens openedAt phase =>
    simp only [phase] at hguard
    obtain ⟨hstate, hopenedAt, hnone⟩ := hguard
    rw [phase] at hphase
    refine ⟨⟨fun opened _ hkept hwithin => ?_, ?_⟩, hcall.found (.inr hphase.2), by simp [BreakerCall.completes, phase]⟩
    · have hle := (hkept hwithin).2 openedAt hopenedAt
      have hpassed := hphase.1
      omega
    · rintro ⟨other, hother, hbetween⟩
      rw [hnone other hother] at hbetween
      cases hbetween
  | closes phase =>
    simp only [phase] at hguard
    refine ⟨⟨fun opened _ hkept hwithin => ?_, fun _ hopen => ?_⟩, hcall.move trivial,
      by simp [BreakerCall.completes, phase]⟩
    · have hopen := (hkept hwithin).1
      rw [hguard] at hopen
      cases hopen
    · rw [hguard] at hopen
      cases hopen
  | clearsOpenedAt phase =>
    exact ⟨⟨fun opened _ hkept hwithin => ⟨(hkept hwithin).1, by simp⟩, fun _ hopen => hopen⟩,
      hcall.move trivial, by simp [BreakerCall.completes, phase]⟩
  | writesFailures failures next phase unread =>
    refine ⟨.of_same rfl rfl, hcall.move ?_, ?_⟩
    · obtain rfl | rfl | rfl | ⟨count, rfl⟩ := unread
      all_goals trivial
    · obtain phase | phase | ⟨count, phase⟩ := phase
      all_goals simp [BreakerCall.completes, phase]
  | opens phase =>
    exact ⟨⟨fun opened _ hkept hwithin => ⟨rfl, (hkept hwithin).2⟩, fun _ _ => rfl⟩, hcall.move rfl,
      by simp [BreakerCall.completes, phase]⟩
  | stamps phase =>
    rw [phase] at hphase
    exact ⟨.of_same rfl rfl, hcall.move hphase, by simp [BreakerCall.completes, phase]⟩
  | writesOpenedAt stamp phase =>
    simp only [phase] at hguard
    rw [phase] at hphase
    have hstored : ∀ opened ≤ s.now, ∀ stored ∈ some stamp, opened ≤ stored := by
      intro opened hle stored hmem
      obtain rfl := Option.some.inj hmem
      omega
    exact ⟨⟨fun opened hle hkept hwithin => ⟨(hkept hwithin).1, hstored opened hle⟩, fun _ hopen => hopen⟩,
      hcall.move ⟨le_of_eq hguard, fun _ => ⟨hphase, hstored stamp (le_of_eq hguard)⟩⟩,
      by simp [BreakerCall.completes, phase]⟩
  | completes stamp phase =>
    simp only [phase] at hguard
    rw [phase] at hphase
    exact ⟨.of_same rfl rfl, hcall.move trivial, fun _ => hguard ▸ hphase.2⟩

theorem step_sound (s : BreakerRace) (e : BreakerEvent) (t : BreakerRace) (h : RaceSound b s)
    (hguard : RaceUndisturbed s e) (hstep : (breakerRuns b).step s e = some t) : RaceSound b t := by
  cases e with
  | wait ms =>
    obtain rfl := Option.some.inj hstep
    have hle : s.now ≤ s.now + ms := by omega
    exact ⟨fun last hlast => le_trans (h.past last hlast) hle, fun last hlast => (h.kept last hlast).later hle,
      fun call hcall => ⟨(h.calls call hcall).since, (h.calls call hcall).phase.later hle,
        (h.calls call hcall).returned⟩⟩
  | call op =>
    obtain rfl := Option.some.inj hstep
    refine ⟨h.past, h.kept, fun call hcall => ?_⟩
    rcases List.mem_append.mp hcall with hold | hnew
    · exact h.calls call hold
    · obtain rfl := List.mem_singleton.mp hnew
      refine ⟨fun t ht => ⟨t, ht, le_refl t⟩, ?_, by simp⟩
      cases op <;> trivial
  | advance i =>
    obtain ⟨call, hcall, hbind⟩ := Option.bind_eq_some_iff.mp hstep
    obtain ⟨⟨keys, next⟩, hadvance, rfl⟩ := Option.map_eq_some_iff.mp hbind
    obtain ⟨hharmless, hsound, hcompletes⟩ :=
      h.advance (List.mem_of_getElem? hcall) (hguard call hcall) hadvance
    have hothers : ∀ other ∈ s.calls, CallSound b s.now keys s.lastOpened other := fun other hother =>
      (h.calls other hother).write hother hharmless
    have hcalls := forall_mem_set hothers hsound i
    by_cases hcomplete : call.completes = true
    · simp only [if_pos hcomplete]
      refine ⟨fun last hlast => ?_, fun last hlast => ?_, fun other hother => ?_⟩
      · obtain rfl := Option.some.inj hlast
        exact le_refl _
      · obtain rfl := Option.some.inj hlast
        exact hcompletes hcomplete
      · exact (hcalls other hother).completed h.past
    · simp only [if_neg hcomplete]
      exact ⟨h.past, fun last hlast => hharmless.kept last (h.past last hlast) (h.kept last hlast), hcalls⟩

/-- **Open breakers.** If every transition is written over the state that it was computed from and every opening
ends at the time that it stamps, each `getState` that starts after an opening and ends before the reset timeout
returns that the breaker is open. -/
theorem stays_open {start : BreakerRace} (hcalls : start.calls = []) (hopened : start.lastOpened = none)
    {es : List BreakerEvent} (h : (breakerRuns b).GuardedRun RaceUndisturbed start es t) : StaysOpen b t := by
  have hstart : RaceSound b start := ⟨by simp [hopened], by simp [hopened], by simp [hcalls]⟩
  exact (h.invariant step_sound hstart).staysOpen

/-! ## Calls that do not overlap -/

def BreakerCall.running (call : BreakerCall) : Bool := decide (call.phase ≠ .done)

/-- Time passes and calls start only when every call is done. -/
def CallsInTurn (s : BreakerRace) : BreakerEvent → Prop
  | .advance _ => True
  | .wait _ | .call _ => ∀ call ∈ s.calls, call.running = false

/-- What a call has read is still there, and its stamp is the time. -/
def BreakerPhase.Fresh (now : ℤ) (keys : BreakerKeys) : BreakerPhase → Prop
  | .readingOpenedAt => keys.state = some .OPEN
  | .deciding openedAt | .halfOpening openedAt => keys.state = some .OPEN ∧ keys.openedAt = some openedAt
  | .closing => keys.state = some .HALF_OPEN
  | .writingOpenedAt stamp | .droppingFailures stamp => stamp = now
  | _ => True

structure RaceFresh (s : BreakerRace) : Prop where
  last : LastOnly BreakerCall.running s.calls
  fresh : ∀ call ∈ s.calls, call.phase.Fresh s.now s.keys

theorem BreakerCall.running_of_advance {call : BreakerCall} {next : BreakerKeys × BreakerCall}
    (h : call.advance b now keys = some next) : call.running = true := by
  refine decide_eq_true fun hdone => ?_
  simp [advance, hdone] at h

theorem BreakerCall.fresh_of_idle {call : BreakerCall} (h : call.running = false) : call.phase.Fresh now keys := by
  have hdone : call.phase = .done := by simpa [running] using h
  rw [hdone]
  trivial

/-- A call that has returned closes the breaker if it has found it half-open. -/
theorem BreakerOp.next_fresh (op : BreakerOp) {state : CircuitBreakerState}
    (h : state = .HALF_OPEN → keys.state = some .HALF_OPEN) : (op.next state).Fresh now keys := by
  cases state with
  | HALF_OPEN =>
    cases op with
    | recordSuccess => exact h rfl
    | _ => trivial
  | OPEN => cases op <;> trivial
  | CLOSED => cases op <;> trivial

theorem BreakerCall.advance_fresh {call next : BreakerCall} (h : call.phase.Fresh now keys)
    (hadvance : call.advance b now keys = some (keys', next)) : next.phase.Fresh now keys' := by
  cases advance_cases hadvance with
  | findsOpen phase state => exact state
  | findsNotOpen found phase state half => exact call.op.next_fresh half
  | findsOpenedAt openedAt phase stored =>
    rw [phase] at h
    exact ⟨h, stored⟩
  | timedOut openedAt phase passed =>
    rw [phase] at h
    exact h
  | halfOpens openedAt phase => exact call.op.next_fresh fun _ => rfl
  | findsNoTime phase => exact call.op.next_fresh fun hhalf => by cases hhalf
  | notTimedOut openedAt phase => exact call.op.next_fresh fun hhalf => by cases hhalf
  | writesFailures failures next phase unread =>
    obtain rfl | rfl | rfl | ⟨count, rfl⟩ := unread
    all_goals trivial
  | stamps phase => exact rfl
  | writesOpenedAt stamp phase =>
    rw [phase] at h
    exact h
  | closes phase => trivial
  | clearsOpenedAt phase => trivial
  | opens phase => trivial
  | completes stamp phase => trivial

theorem RaceFresh.step (h : RaceFresh s) (e : BreakerEvent) (hturn : CallsInTurn s e)
    (hstep : (breakerRuns b).step s e = some t) : RaceFresh t := by
  cases e with
  | wait ms =>
    obtain rfl := Option.some.inj hstep
    exact ⟨h.last, fun call hcall => BreakerCall.fresh_of_idle (hturn call hcall)⟩
  | call op =>
    obtain rfl := Option.some.inj hstep
    refine ⟨.snoc hturn _, fun call hcall => ?_⟩
    rcases List.mem_append.mp hcall with hold | hnew
    · exact h.fresh call hold
    · obtain rfl := List.mem_singleton.mp hnew
      cases op <;> trivial
  | advance i =>
    obtain ⟨call, hcall, hbind⟩ := Option.bind_eq_some_iff.mp hstep
    obtain ⟨⟨keys, next⟩, hadvance, rfl⟩ := Option.map_eq_some_iff.mp hbind
    have hrunning := BreakerCall.running_of_advance hadvance
    have hnext := BreakerCall.advance_fresh (h.fresh call (List.mem_of_getElem? hcall)) hadvance
    exact ⟨h.last.set hcall hrunning _,
      h.last.forall_mem_set hcall hrunning (fun _ hidle => BreakerCall.fresh_of_idle hidle) hnext⟩

theorem RaceFresh.undisturbed (h : RaceFresh s) (e : BreakerEvent) : RaceUndisturbed s e := by
  cases e with
  | wait ms => trivial
  | call op => trivial
  | advance i =>
    intro call hcall
    rw [Option.mem_def] at hcall
    have hfresh := h.fresh call (List.mem_of_getElem? hcall)
    unfold BreakerCall.Undisturbed
    cases hphase : call.phase with
    | halfOpening openedAt =>
      rw [hphase] at hfresh
      have hrunning : call.running = true := by simp [BreakerCall.running, hphase]
      refine ⟨hfresh.1, hfresh.2, fun other hother => ?_⟩
      obtain rfl | hidle := h.last.eq_or_idle hcall hrunning hother
      · simp [BreakerCall.betweenWrites, hphase]
      · have hdone : other.phase = .done := by simpa [BreakerCall.running] using hidle
        simp [BreakerCall.betweenWrites, hdone]
    | closing => rwa [hphase] at hfresh
    | writingOpenedAt stamp => rwa [hphase] at hfresh
    | droppingFailures stamp => rwa [hphase] at hfresh
    | _ => trivial

/-- **One call after another.** Calls that do not overlap write over what they have read. -/
theorem undisturbed_of_inTurn {start : BreakerRace} (hstart : start.calls = []) {es : List BreakerEvent}
    (h : (breakerRuns b).GuardedRun CallsInTurn start es t) :
    (breakerRuns b).GuardedRun RaceUndisturbed start es t := by
  have hfirst : RaceFresh start := ⟨hstart ▸ LastOnly.nil, by simp [hstart]⟩
  exact h.mono_of_invariant (fun s e u hs hturn hstep => ⟨hs.step e hturn hstep, hs.undisturbed e⟩) hfirst

/-! ## A call on its own -/

def BreakerKeys.ofStore (b : CountingBreaker) (store : RiskStore) : BreakerKeys :=
  ⟨store.breakerState.get b.name, store.openedAt.get b.name, none⟩

/-- The race of one call, before any opening is complete. -/
def BreakerCall.alone (call : BreakerCall) (now : ℤ) (keys : BreakerKeys) : BreakerRace :=
  { now := now, keys := keys, calls := [call] }

theorem run_alone_cons {call next : BreakerCall} {es : List BreakerEvent}
    (hadvance : call.advance b now keys = some (keys', next)) (hcompletes : call.completes = false)
    (hrun : (breakerRuns b).run (next.alone now keys') es = some t) :
    (breakerRuns b).run (call.alone now keys) (.advance 0 :: es) = some t := by
  have hstep : (breakerRuns b).step (call.alone now keys) (.advance 0) = some (next.alone now keys') := by
    simp [breakerRuns, BreakerCall.alone, hadvance, hcompletes]
  rw [StepSystem.run_cons _ hstep, hrun]

/-- Without other calls and in no time, `getState` is that of the sequential model. -/
theorem getState_alone (b : CountingBreaker) (now : ℤ) (store : RiskStore) :
    ∃ steps, (breakerRuns b).run { now := now, keys := .ofStore b store }
      (.call .getState :: List.replicate steps (.advance 0)) =
        some { now := now, keys := .ofStore b (b.getState now store).2,
               calls := [⟨.getState, .done, none, some ((b.getState now store).1, now)⟩] } := by
  have hstart : (breakerRuns b).step { now := now, keys := .ofStore b store } (.call .getState) =
      some (BreakerCall.alone ⟨.getState, .readingState, none, none⟩ now (.ofStore b store)) := rfl
  unfold CircuitBreaker.getState
  cases hstate : store.breakerState.get b.name with
  | none =>
    have hread : (BreakerKeys.ofStore b store).state = none := hstate
    refine ⟨1, ?_⟩
    rw [StepSystem.run_cons _ hstart]
    exact run_alone_cons (by simp [BreakerCall.advance, BreakerCall.found, BreakerOp.next, hread]) rfl rfl
  | some state =>
    have hread : (BreakerKeys.ofStore b store).state = some state := hstate
    cases state with
    | CLOSED =>
      refine ⟨1, ?_⟩
      rw [StepSystem.run_cons _ hstart]
      exact run_alone_cons (by simp [BreakerCall.advance, BreakerCall.found, BreakerOp.next, hread]) rfl rfl
    | HALF_OPEN =>
      refine ⟨1, ?_⟩
      rw [StepSystem.run_cons _ hstart]
      exact run_alone_cons (by simp [BreakerCall.advance, BreakerCall.found, BreakerOp.next, hread]) rfl rfl
    | OPEN =>
      have hopen : BreakerCall.advance b now (.ofStore b store) ⟨.getState, .readingState, none, none⟩ =
          some (.ofStore b store, ⟨.getState, .readingOpenedAt, none, none⟩) := by
        simp only [BreakerCall.advance, hread]
        rfl
      cases hopened : store.openedAt.get b.name with
      | none =>
        have hnever : BreakerCall.advance b now (.ofStore b store) ⟨.getState, .readingOpenedAt, none, none⟩ =
            some (.ofStore b store, ⟨.getState, .done, none, some (.OPEN, now)⟩) := by
          simp [BreakerCall.advance, BreakerCall.found, BreakerOp.next, BreakerKeys.ofStore, hopened]
        refine ⟨2, ?_⟩
        rw [StepSystem.run_cons _ hstart]
        apply run_alone_cons hopen rfl
        exact run_alone_cons hnever rfl rfl
      | some openedAt =>
        have hsince : BreakerCall.advance b now (.ofStore b store) ⟨.getState, .readingOpenedAt, none, none⟩ =
            some (.ofStore b store, ⟨.getState, .deciding openedAt, none, none⟩) := by
          simp [BreakerCall.advance, BreakerCall.move, BreakerKeys.ofStore, hopened]
        by_cases htimeout : b.resetTimeoutMs ≤ now - openedAt
        · have hpassed : BreakerCall.advance b now (.ofStore b store) ⟨.getState, .deciding openedAt, none, none⟩ =
              some (.ofStore b store, ⟨.getState, .halfOpening openedAt, none, none⟩) := by
            simp [BreakerCall.advance, BreakerCall.move, htimeout]
          refine ⟨4, ?_⟩
          rw [StepSystem.run_cons _ hstart]
          apply run_alone_cons hopen rfl
          apply run_alone_cons hsince rfl
          apply run_alone_cons hpassed rfl
          -- The last command writes the state that `transitionTo` writes.
          apply run_alone_cons rfl rfl
          simp [BreakerCall.alone, BreakerCall.found, BreakerOp.next, BreakerKeys.ofStore,
            CircuitBreaker.transitionTo, htimeout, hopened]
        · have hwaits : BreakerCall.advance b now (.ofStore b store) ⟨.getState, .deciding openedAt, none, none⟩ =
              some (.ofStore b store, ⟨.getState, .done, none, some (.OPEN, now)⟩) := by
            simp [BreakerCall.advance, BreakerCall.found, BreakerOp.next, htimeout]
          refine ⟨3, ?_⟩
          rw [StepSystem.run_cons _ hstart]
          apply run_alone_cons hopen rfl
          apply run_alone_cons hsince rfl
          apply run_alone_cons hwaits rfl
          simp [BreakerCall.alone, htimeout]

end

/-! ## A probe on its own, and one beside a slow read -/

def probedBreaker : CountingBreaker := ⟨⟨"velocity", 100⟩, 3, 1000⟩

/-- Open since time 0, for its whole timeout. -/
def timedOut : BreakerRace := { now := 100, keys := { state := some .OPEN, openedAt := some 0 } }

/-- A probe finds the breaker half-open and fails, and the breaker is looked at then and just before the timeout. -/
def failedProbe : List BreakerEvent :=
  .call .recordFailure :: List.replicate 8 (.advance 0) ++
    [.call .getState, .advance 1, .advance 1, .advance 1, .wait 99, .call .getState, .advance 2, .advance 2, .advance 2]

/-- Another call has read that the timeout is over, and writes this after the probe has failed. -/
def slowRead : List BreakerEvent :=
  [.call .getState, .advance 0, .advance 0, .advance 0] ++
    .call .recordFailure :: List.replicate 8 (.advance 1) ++ [.advance 0, .call .getState, .advance 2]

theorem failedProbe_staysOpen : ∃ t : BreakerRace, (breakerRuns probedBreaker).run timedOut failedProbe = some t ∧
    t.calls.map BreakerCall.returned = [some (.HALF_OPEN, 100), some (.OPEN, 100), some (.OPEN, 199)] ∧
    StaysOpen probedBreaker t := by
  have hsome : ((breakerRuns probedBreaker).guardedRun RaceUndisturbed timedOut failedProbe).any (fun t =>
      decide (t.calls.map BreakerCall.returned =
        [some (.HALF_OPEN, 100), some (.OPEN, 100), some (.OPEN, 199)])) = true := by
    decide +kernel
  obtain ⟨t, ht, hreturned⟩ := (Option.any_eq_true _ _).mp hsome
  have hrun := StepSystem.GuardedRun.of_guardedRun ht
  exact ⟨t, hrun.run, of_decide_eq_true hreturned, stays_open rfl rfl hrun⟩

theorem slowRead_halfOpens : ∃ (b : CountingBreaker) (start : BreakerRace) (es : List BreakerEvent)
    (t : BreakerRace), start.calls = [] ∧ start.lastOpened = none ∧ (breakerRuns b).run start es = some t ∧
      ¬ StaysOpen b t := by
  have hsome : ((breakerRuns probedBreaker).run timedOut slowRead).any (fun t =>
      decide (t.calls[2]? = some ⟨.getState, .done, some 100, some (.HALF_OPEN, 100)⟩)) = true := by
    decide +kernel
  obtain ⟨t, ht, hcall⟩ := (Option.any_eq_true _ _).mp hsome
  refine ⟨probedBreaker, timedOut, slowRead, t, rfl, rfl, ht, fun hstays => ?_⟩
  have hopen := hstays _ (List.mem_of_getElem? (of_decide_eq_true hcall)) _ rfl 100 rfl (by decide)
  cases hopen

end SuperAi.Risk
