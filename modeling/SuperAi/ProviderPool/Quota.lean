import SuperAi.Foundations.SingleUse
import SuperAi.ProviderPool.ProviderPoolService

/-! # Quotas and cooldowns

The counter of a window is read before a handler is invoked and advanced after some of its outcomes, and the cooldown
is read before either. While a counter that lets an attempt through is not behind by more than the room that is left,
and no 429 is handled between another attempt's reading of the cooldown and its invocation, no provider is invoked
more often than its quota in a window, or while it cools down (`kept_runs`).
-/
namespace SuperAi.ProviderPool
open SuperAi.Foundations
set_option autoImplicit false

def startedIn (p : ProviderEntry) (slot : ℤ) : PoolLog → Bool
  | .started key time => decide (key = p.key ∧ p.slot time = slot)
  | .cooled _ _ => false

/-- The attempt has been let through, and the handler is still to be invoked. -/
def Attempt.waits (a : Attempt) (key : String) : Bool := decide (a.provider.key = key ∧ a.phase = .start)

/-- The attempt is between its reading of the cooldown and the invocation. -/
def Attempt.checked (a : Attempt) : Bool :=
  match a.phase with
  | .readSlot | .readCount _ | .start => true
  | _ => false

namespace Pool

def startsIn (s : Pool) (p : ProviderEntry) (slot : ℤ) : ℕ := s.log.countP (startedIn p slot)

def waiting (s : Pool) (key : String) : ℕ := s.attempts.countP fun a => a.waits key

end Pool

/-- `b`, later than `a`, is no invocation within the cooldown of `a`. -/
def CoolsDown (cfg : PoolConfig) (a b : PoolLog) : Prop :=
  ∀ p ∈ cfg.providers, ∀ cooled started, a = .cooled p.key cooled → b = .started p.key started →
    cooled + p.cooldownSec * 1000 ≤ started

/-- No window has more invocations than the quota, and none is within a cooldown. -/
structure Kept (cfg : PoolConfig) (s : Pool) : Prop where
  quota : ∀ p ∈ cfg.providers, ∀ slot, s.startsIn p slot ≤ p.reqsPerWindow
  apart : s.log.Pairwise (CoolsDown cfg)

/-- An attempt is let through when what has been invoked in the window, and what is about to be, leaves room; and a
429 is handled when no attempt of the provider is between its reading of the cooldown and the invocation. -/
def InTime (s : Pool) : PoolEvent → Prop
  | .advance i =>
    match s.attempts[i]? with
    | some a =>
      match a.phase with
      | .readCount slot => s.redis.count s.now a.provider.key slot < a.provider.reqsPerWindow →
          s.startsIn a.provider (a.provider.slot s.now) + s.waiting a.provider.key < a.provider.reqsPerWindow
      | .markCooldown => 0 < a.provider.cooldownSec →
          ∀ b ∈ s.attempts, b.provider.key = a.provider.key → b.checked = false
      | _ => True
    | none => True
  | _ => True

instance (s : Pool) (e : PoolEvent) : Decidable (InTime s e) := by
  unfold InTime
  cases e with
  | advance i =>
    dsimp only
    split
    · split
      · infer_instance
      · infer_instance
      · infer_instance
    · infer_instance
  | _ => exact isTrue trivial

/-! ## Invariant -/

def PoolLog.time : PoolLog → ℤ
  | .started _ time | .cooled _ time => time

structure PoolInv (cfg : PoolConfig) (s : Pool) : Prop where
  past : ∀ e ∈ s.log, e.time ≤ s.now
  providers : ∀ a ∈ s.attempts, a.provider ∈ cfg.providers ∧ ∀ p ∈ a.rest, p ∈ cfg.providers
  quota : ∀ p ∈ cfg.providers, ∀ slot, s.startsIn p slot ≤ p.reqsPerWindow
  room : ∀ p ∈ cfg.providers, s.startsIn p (p.slot s.now) + s.waiting p.key ≤ p.reqsPerWindow
  cooling : ∀ p ∈ cfg.providers, 0 < p.cooldownSec → ∀ time, .cooled p.key time ∈ s.log →
    s.redis.cd.Lasts p.key (time + p.cooldownSec * 1000)
  cooled : ∀ a ∈ s.attempts, a.checked = true → ∀ time, .cooled a.provider.key time ∈ s.log →
    time + a.provider.cooldownSec * 1000 ≤ s.now
  apart : s.log.Pairwise (CoolsDown cfg)

section Invariant
variable {cfg : PoolConfig} {s s' : Pool}

theorem provider_eq {p q : ProviderEntry} (hp : p ∈ cfg.providers) (hq : q ∈ cfg.providers) (h : p.key = q.key) :
    p = q :=
  List.inj_on_of_nodup_map cfg.keys hp hq h

theorem slot_mono (p : ProviderEntry) {a b : ℤ} (h : a ≤ b) : p.slot a ≤ p.slot b := by
  unfold ProviderEntry.slot
  by_cases hzero : p.windowSec = 0
  · simp [hzero]
  · exact Int.ediv_le_ediv (by omega) h

theorem skip_not_checked (a : Attempt) : a.skip.checked = false := by
  unfold Attempt.skip
  cases a.rest with
  | nil => rfl
  | cons provider rest => rfl

theorem waits_of_not_checked {a : Attempt} (h : a.checked = false) (key : String) : a.waits key = false := by
  by_cases hstart : a.phase = .start
  · simp [Attempt.checked, hstart] at h
  · simp [Attempt.waits, hstart]

theorem skip_providers {a : Attempt} (h : a.provider ∈ cfg.providers ∧ ∀ p ∈ a.rest, p ∈ cfg.providers) :
    a.skip.provider ∈ cfg.providers ∧ ∀ p ∈ a.skip.rest, p ∈ cfg.providers := by
  unfold Attempt.skip
  cases hrest : a.rest with
  | nil => simpa [hrest] using h
  | cons provider rest =>
    rw [hrest] at h
    exact List.forall_mem_cons.mp h.2

theorem available_mem {group : String} {handlers : List String} {p : ProviderEntry}
    (h : p ∈ available cfg group handlers) : p ∈ cfg.providers := List.mem_of_mem_filter h

namespace PoolInv

theorem initial : PoolInv cfg {} where
  past _ h := absurd h List.not_mem_nil
  providers _ h := absurd h List.not_mem_nil
  quota _ _ _ := Nat.zero_le _
  room _ _ := Nat.zero_le _
  cooling _ _ _ _ h := absurd h List.not_mem_nil
  cooled _ h := absurd h List.not_mem_nil
  apart := List.Pairwise.nil

theorem kept (h : PoolInv cfg s) : Kept cfg s := ⟨h.quota, h.apart⟩

/-- In a later window nothing has been invoked yet. -/
theorem wait (h : PoolInv cfg s) (ms : ℕ) : PoolInv cfg { s with now := s.now + ms } where
  past e he := by
    have hpast := h.past e he
    dsimp only
    omega
  providers := h.providers
  quota := h.quota
  room p hp := by
    dsimp only
    have hmono := slot_mono p (show s.now ≤ s.now + ms by omega)
    by_cases hslot : p.slot (s.now + ms) = p.slot s.now
    · rw [hslot]
      exact h.room p hp
    · have hnone : s.log.countP (startedIn p (p.slot (s.now + ms))) = 0 := by
        rw [List.countP_eq_zero]
        intro e he hstarted
        cases e with
        | started key time =>
          have hin : p.slot time = p.slot (s.now + ms) := (of_decide_eq_true hstarted).2
          have hle := slot_mono p (h.past _ he)
          change p.slot time ≤ p.slot s.now at hle
          omega
        | cooled key time => cases hstarted
      have hroom := h.room p hp
      change s.log.countP (startedIn p (p.slot (s.now + ms))) + s.waiting p.key ≤ _
      omega
  cooling := h.cooling
  cooled a ha hchecked time htime := by
    have hcooled := h.cooled a ha hchecked time htime
    dsimp only
    omega
  apart := h.apart

/-- Attempts begin. -/
theorem add (h : PoolInv cfg s) {new : List Attempt} (hphase : ∀ a ∈ new, a.checked = false)
    (hproviders : ∀ a ∈ new, a.provider ∈ cfg.providers ∧ ∀ p ∈ a.rest, p ∈ cfg.providers) :
    PoolInv cfg { s with attempts := s.attempts ++ new } where
  past := h.past
  providers := List.forall_mem_append.mpr ⟨h.providers, hproviders⟩
  quota := h.quota
  room p hp := by
    have hnone : new.countP (fun a => a.waits p.key) = 0 := by
      rw [List.countP_eq_zero]
      intro a ha
      simp [waits_of_not_checked (hphase a ha)]
    have hroom := h.room p hp
    change s.startsIn p (p.slot s.now) + (s.attempts ++ new).countP (fun a => a.waits p.key) ≤ _
    rw [List.countP_append, hnone]
    exact hroom
  cooling := h.cooling
  cooled := by
    refine List.forall_mem_append.mpr ⟨h.cooled, fun a ha hchecked => ?_⟩
    rw [hphase a ha] at hchecked
    cases hchecked
  apart := h.apart

/-- An attempt goes on, and leaves the log and the cooldowns. -/
theorem move (h : PoolInv cfg s) {i : ℕ} (next : Attempt) {redis : RateLimit} (hcd : redis.cd = s.redis.cd)
    (hproviders : next.provider ∈ cfg.providers ∧ ∀ p ∈ next.rest, p ∈ cfg.providers)
    (hroom : ∀ p ∈ cfg.providers,
      s.startsIn p (p.slot s.now) + (s.attempts.set i next).countP (fun a => a.waits p.key) ≤ p.reqsPerWindow)
    (hcooled : next.checked = true → ∀ time, .cooled next.provider.key time ∈ s.log →
      time + next.provider.cooldownSec * 1000 ≤ s.now) :
    PoolInv cfg { s with redis, attempts := s.attempts.set i next } where
  past := h.past
  providers := forall_mem_set h.providers hproviders i
  quota := h.quota
  room := hroom
  cooling p hp hpos time htime := by
    dsimp only
    rw [hcd]
    exact h.cooling p hp hpos time htime
  cooled := forall_mem_set h.cooled hcooled i
  apart := h.apart

/-- An attempt goes on and does not come to wait for its invocation. -/
theorem room_of_idle (h : PoolInv cfg s) {i : ℕ} {a next : Attempt} (ha : s.attempts[i]? = some a)
    (hidle : ∀ key, next.waits key = false) : ∀ p ∈ cfg.providers,
      s.startsIn p (p.slot s.now) + (s.attempts.set i next).countP (fun a => a.waits p.key) ≤ p.reqsPerWindow := by
  intro p hp
  have hcount := countP_set_eq (fun a => a.waits p.key) ha next
  have hroom := h.room p hp
  unfold Pool.waiting at hroom
  simp only [hidle, Bool.false_eq_true, if_false] at hcount
  omega

/-- A skipped attempt reads the next provider's cooldown anew. -/
theorem skip (h : PoolInv cfg s) {i : ℕ} {a : Attempt} (ha : s.attempts[i]? = some a) :
    PoolInv cfg { s with attempts := s.attempts.set i a.skip } := by
  apply h.move a.skip rfl (skip_providers (h.providers a (List.mem_of_getElem? ha)))
  · exact h.room_of_idle ha (waits_of_not_checked (skip_not_checked a))
  · intro hchecked
    rw [skip_not_checked] at hchecked
    cases hchecked

/-- The attempt stays with its provider, and comes to a phase that is none between the check and the invocation. -/
theorem leave (h : PoolInv cfg s) {i : ℕ} {a : Attempt} (ha : s.attempts[i]? = some a) {phase : Phase}
    (hphase : Attempt.checked { a with phase } = false) {redis : RateLimit} (hcd : redis.cd = s.redis.cd) :
    PoolInv cfg { s with redis, attempts := s.attempts.set i { a with phase } } := by
  apply h.move { a with phase } hcd (h.providers a (List.mem_of_getElem? ha))
  · exact h.room_of_idle ha (waits_of_not_checked hphase)
  · intro hchecked
    rw [hphase] at hchecked
    cases hchecked

/-- No cooldown is found: those that were set are over. -/
theorem check (h : PoolInv cfg s) {i : ℕ} {a : Attempt} (ha : s.attempts[i]? = some a)
    (hcooling : s.redis.cooling s.now a.provider.key = false) :
    PoolInv cfg { s with attempts := s.attempts.set i { a with phase := .readSlot } } := by
  have hprovider := h.providers a (List.mem_of_getElem? ha)
  apply h.move { a with phase := .readSlot } rfl hprovider
  · exact h.room_of_idle ha fun key => by simp [Attempt.waits]
  · intro _ time htime
    by_cases hpos : 0 < a.provider.cooldownSec
    · by_contra hlate
      have hlasts := h.cooling a.provider hprovider.1 hpos time htime
      have hthere := ExpiringStore.read_of_lasts hlasts (not_le.mp hlate)
      unfold RateLimit.cooling at hcooling
      rw [hthere] at hcooling
      cases hcooling
    · have hpast := h.past _ htime
      change time ≤ s.now at hpast
      dsimp only
      omega

/-- The slot of the window is taken. -/
theorem takeSlot (h : PoolInv cfg s) {i : ℕ} {a : Attempt} (ha : s.attempts[i]? = some a)
    (hphase : a.phase = .readSlot) (slot : ℤ) :
    PoolInv cfg { s with attempts := s.attempts.set i { a with phase := .readCount slot } } := by
  have hmem := List.mem_of_getElem? ha
  apply h.move { a with phase := .readCount slot } rfl (h.providers a hmem)
  · exact h.room_of_idle ha fun key => by simp [Attempt.waits]
  · intro _
    exact h.cooled a hmem (by simp [Attempt.checked, hphase])

/-- The counter lets the attempt through, and there is room. -/
theorem letThrough (h : PoolInv cfg s) {i : ℕ} {a : Attempt} (ha : s.attempts[i]? = some a) {slot : ℤ}
    (hphase : a.phase = .readCount slot)
    (hfits : s.startsIn a.provider (a.provider.slot s.now) + s.waiting a.provider.key < a.provider.reqsPerWindow) :
    PoolInv cfg { s with attempts := s.attempts.set i { a with phase := .start } } := by
  have hmem := List.mem_of_getElem? ha
  have hprovider := h.providers a hmem
  apply h.move { a with phase := .start } rfl hprovider
  · intro p hp
    have hcount := countP_set_eq (fun b => b.waits p.key) ha { a with phase := .start }
    have hroom := h.room p hp
    have hold : a.waits p.key = false := by simp [Attempt.waits, hphase]
    rw [hold] at hcount
    by_cases hkey : a.provider.key = p.key
    · have heq := provider_eq hprovider.1 hp hkey
      rw [heq] at hfits
      have hnew : Attempt.waits { a with phase := .start } p.key = true := by simp [Attempt.waits, hkey]
      rw [hnew] at hcount
      unfold Pool.waiting at hfits
      simp only [Bool.false_eq_true, if_false, if_true] at hcount
      omega
    · have hnew : Attempt.waits { a with phase := .start } p.key = false := by simp [Attempt.waits, hkey]
      rw [hnew] at hcount
      unfold Pool.waiting at hroom
      omega
  · intro _
    exact h.cooled a hmem (by simp [Attempt.checked, hphase])

/-- A waiting attempt invokes its handler. -/
theorem invoke (h : PoolInv cfg s) {i : ℕ} {a : Attempt} (ha : s.attempts[i]? = some a) (hphase : a.phase = .start) :
    PoolInv cfg { s with
      log := s.log ++ [.started a.provider.key s.now]
      attempts := s.attempts.set i { a with phase := .running } } := by
  have hmem := List.mem_of_getElem? ha
  have hprovider := h.providers a hmem
  have hidle : ∀ key, Attempt.waits { a with phase := .running } key = false := fun key => by simp [Attempt.waits]
  have hstarts (p : ProviderEntry) (slot : ℤ) :
      (s.log ++ [PoolLog.started a.provider.key s.now]).countP (startedIn p slot) =
        s.startsIn p slot + if a.provider.key = p.key ∧ p.slot s.now = slot then 1 else 0 := by
    rw [List.countP_append, List.countP_singleton]
    simp [startedIn, Pool.startsIn]
  have hroom (p : ProviderEntry) (hp : p ∈ cfg.providers) :
      (s.startsIn p (p.slot s.now) + if a.provider.key = p.key then 1 else 0) +
        (s.attempts.set i { a with phase := .running }).countP (fun b => b.waits p.key) ≤ p.reqsPerWindow := by
    have hcount := countP_set_eq (fun b => b.waits p.key) ha { a with phase := .running }
    have hold := h.room p hp
    have hwaits : a.waits p.key = decide (a.provider.key = p.key) := by simp [Attempt.waits, hphase]
    rw [hidle, hwaits] at hcount
    unfold Pool.waiting at hold
    simp only [decide_eq_true_eq, Bool.false_eq_true, if_false] at hcount
    omega
  constructor
  · exact List.forall_mem_append.mpr ⟨h.past, List.forall_mem_singleton.mpr (le_refl s.now)⟩
  · exact forall_mem_set (b := { a with phase := .running }) h.providers hprovider i
  · intro p hp slot
    change (s.log ++ _).countP _ ≤ _
    rw [hstarts]
    have hold := h.quota p hp slot
    have hnew := hroom p hp
    by_cases hstarted : a.provider.key = p.key ∧ p.slot s.now = slot
    · rw [if_pos hstarted.1, hstarted.2] at hnew
      rw [if_pos hstarted]
      omega
    · rw [if_neg hstarted]
      omega
  · intro p hp
    change (s.log ++ _).countP _ + (s.attempts.set i _).countP _ ≤ _
    rw [hstarts]
    simp only [and_true]
    exact hroom p hp
  · intro p hp hpos time htime
    apply h.cooling p hp hpos time
    simpa using htime
  · apply forall_mem_set
    · intro b hb hchecked time htime
      apply h.cooled b hb hchecked time
      simpa using htime
    · intro hchecked
      cases hchecked
  · refine List.pairwise_append.mpr ⟨h.apart, List.pairwise_singleton _ _, ?_⟩
    rintro e he b hb p hp cooled started rfl heq
    rw [List.mem_singleton.mp hb] at heq
    obtain ⟨hkey, rfl⟩ := PoolLog.started.inj heq
    obtain rfl := provider_eq hprovider.1 hp hkey
    exact h.cooled a hmem (by simp [Attempt.checked, hphase]) cooled he

/-- A 429 is handled when no attempt of the provider is on its way to an invocation. -/
theorem cool (h : PoolInv cfg s) {i : ℕ} {a : Attempt} (ha : s.attempts[i]? = some a)
    (hclear : 0 < a.provider.cooldownSec → ∀ b ∈ s.attempts, b.provider.key = a.provider.key → b.checked = false) :
    PoolInv cfg { s with
      redis := s.redis.markCooldown s.now a.provider
      log := s.log ++ [.cooled a.provider.key s.now]
      attempts := s.attempts.set i a.skip } := by
  have hmem := List.mem_of_getElem? ha
  have hprovider := h.providers a hmem
  have hskip := h.skip ha
  have hstarts (p : ProviderEntry) (slot : ℤ) :
      (s.log ++ [PoolLog.cooled a.provider.key s.now]).countP (startedIn p slot) = s.startsIn p slot := by
    rw [List.countP_append, List.countP_singleton]
    simp [startedIn, Pool.startsIn]
  constructor
  · exact List.forall_mem_append.mpr ⟨h.past, List.forall_mem_singleton.mpr (le_refl s.now)⟩
  · exact hskip.providers
  · intro p hp slot
    change (s.log ++ _).countP _ ≤ _
    rw [hstarts]
    exact h.quota p hp slot
  · intro p hp
    change (s.log ++ _).countP _ + _ ≤ _
    rw [hstarts]
    exact hskip.room p hp
  · intro p hp hpos time htime
    dsimp only [RateLimit.markCooldown]
    by_cases hkey : p.key = a.provider.key
    · obtain rfl := provider_eq hp hprovider.1 hkey
      have htimePast : time ≤ s.now := by
        obtain hold | hnew := List.mem_append.mp htime
        · exact h.past _ hold
        · have heq := PoolLog.cooled.inj (List.mem_singleton.mp hnew)
          exact heq.2.le
      rw [if_neg (by omega)]
      refine ⟨_, KeyValue.get_set_self _ _ _, ?_⟩
      dsimp only
      omega
    · have hold : .cooled p.key time ∈ s.log := by
        refine (List.mem_append.mp htime).resolve_right fun hnew => hkey ?_
        exact (PoolLog.cooled.inj (List.mem_singleton.mp hnew)).1
      obtain ⟨entry, hget, hexpires⟩ := h.cooling p hp hpos time hold
      split_ifs
      · exact ⟨entry, hget, hexpires⟩
      · refine ⟨entry, ?_, hexpires⟩
        exact (KeyValue.get_set_of_ne hkey).trans hget
  · intro b hb hchecked time htime
    obtain hold | hnew := List.mem_append.mp htime
    · exact hskip.cooled b hb hchecked time hold
    · obtain ⟨hkey, rfl⟩ := PoolLog.cooled.inj (List.mem_singleton.mp hnew)
      have hb' : b ∈ s.attempts := by
        obtain hold | rfl := List.mem_or_eq_of_mem_set hb
        · exact hold
        · rw [skip_not_checked] at hchecked
          cases hchecked
      have heq := provider_eq (h.providers b hb').1 hprovider.1 hkey
      by_cases hpos : 0 < a.provider.cooldownSec
      · rw [hclear hpos b hb' hkey] at hchecked
        cases hchecked
      · rw [heq]
        dsimp only
        omega
  · refine List.pairwise_append.mpr ⟨h.apart, List.pairwise_singleton _ _, ?_⟩
    rintro e he b hb p hp cooled started rfl heq
    rw [List.mem_singleton.mp hb] at heq
    cases heq

/-! ### Steps -/

theorem advance (h : PoolInv cfg s) {i : ℕ} (hguard : InTime s (.advance i))
    (hstep : (providerPool cfg).step s (.advance i) = some s') : PoolInv cfg s' := by
  obtain ⟨a, ha, hstep⟩ := Option.bind_eq_some_iff.mp hstep
  obtain ⟨⟨redis, entries, next⟩, hadvance, rfl⟩ := Option.map_eq_some_iff.mp hstep
  unfold InTime at hguard
  dsimp only at hguard
  rw [ha] at hguard
  dsimp only at hguard
  unfold Pool.advance at hadvance
  cases hphase : a.phase with
  | checkCooldown =>
    simp only [hphase, Option.some.injEq, Prod.mk.injEq] at hadvance
    obtain ⟨rfl, rfl, rfl⟩ := hadvance
    dsimp only
    rw [List.append_nil]
    by_cases hcooling : s.redis.cooling s.now a.provider.key = true
    · rw [if_pos hcooling]
      exact h.skip ha
    · rw [if_neg hcooling]
      exact h.check ha (Bool.eq_false_iff.mpr hcooling)
  | readSlot =>
    simp only [hphase, Option.some.injEq, Prod.mk.injEq] at hadvance
    obtain ⟨rfl, rfl, rfl⟩ := hadvance
    dsimp only
    rw [List.append_nil]
    exact h.takeSlot ha hphase _
  | readCount slot =>
    simp only [hphase, Option.some.injEq, Prod.mk.injEq] at hadvance hguard
    obtain ⟨rfl, rfl, rfl⟩ := hadvance
    dsimp only
    rw [List.append_nil]
    by_cases hfree : s.redis.count s.now a.provider.key slot < a.provider.reqsPerWindow
    · rw [if_pos hfree]
      exact h.letThrough ha hphase (hguard hfree)
    · rw [if_neg hfree]
      exact h.skip ha
  | start =>
    simp only [hphase, Option.some.injEq, Prod.mk.injEq] at hadvance
    obtain ⟨rfl, rfl, rfl⟩ := hadvance
    exact h.invoke ha hphase
  | recordSlot status =>
    simp only [hphase, Option.some.injEq, Prod.mk.injEq] at hadvance
    obtain ⟨rfl, rfl, rfl⟩ := hadvance
    dsimp only
    rw [List.append_nil]
    exact h.leave ha rfl rfl
  | record slot status =>
    simp only [hphase, Option.some.injEq, Prod.mk.injEq] at hadvance
    obtain ⟨rfl, rfl, rfl⟩ := hadvance
    dsimp only
    rw [List.append_nil]
    exact h.leave ha rfl rfl
  | markCooldown =>
    simp only [hphase, Option.some.injEq, Prod.mk.injEq] at hadvance hguard
    obtain ⟨rfl, rfl, rfl⟩ := hadvance
    exact h.cool ha hguard
  | running => simp [hphase] at hadvance
  | done status => simp [hphase] at hadvance

theorem finish (h : PoolInv cfg s) {i : ℕ} {a : Attempt} (ha : s.attempts[i]? = some a) (outcome : Outcome) :
    PoolInv cfg { s with attempts := s.attempts.set i (a.finish outcome) } := by
  unfold Attempt.finish
  cases outcome with
  | data => exact h.leave ha rfl rfl
  | falsy =>
    dsimp only
    split_ifs
    · exact h.skip ha
    · exact h.leave ha rfl rfl
  | null =>
    dsimp only
    split_ifs
    · exact h.skip ha
    · exact h.leave ha rfl rfl
  | rateLimited => exact h.leave ha rfl rfl
  | throws => exact h.skip ha

theorem step {e : PoolEvent} (h : PoolInv cfg s) (hguard : InTime s e)
    (hstep : (providerPool cfg).step s e = some s') : PoolInv cfg s' := by
  cases e with
  | wait ms =>
    obtain rfl := Option.some.inj hstep
    exact h.wait ms
  | execute group handlers =>
    unfold providerPool Pool.step at hstep
    dsimp only at hstep
    split at hstep
    · obtain rfl := Option.some.inj hstep
      exact h
    · rename_i provider rest havailable
      obtain rfl := Option.some.inj hstep
      have htried : ∀ p ∈ provider :: rest, p ∈ cfg.providers := by
        intro p hp
        rw [← havailable] at hp
        exact available_mem hp
      apply h.add
      · exact List.forall_mem_singleton.mpr rfl
      · exact List.forall_mem_singleton.mpr (List.forall_mem_cons.mp htried)
  | executeAll group handlers =>
    obtain rfl := Option.some.inj hstep
    apply h.add
    · exact List.forall_mem_map.mpr fun p _ => rfl
    · exact List.forall_mem_map.mpr fun p hp => ⟨available_mem hp, by simp⟩
  | advance i => exact h.advance hguard hstep
  | finish i outcome =>
    obtain ⟨a, ha, hstep⟩ := Option.bind_eq_some_iff.mp hstep
    obtain ⟨-, heq⟩ := Option.ite_none_right_eq_some.mp hstep
    obtain rfl := Option.some.inj heq
    exact h.finish ha outcome

end PoolInv

/-- In a run whose steps are in time, no quota is exceeded and no cooldown is broken. -/
theorem kept_runs {es : List PoolEvent} (hrun : (providerPool cfg).GuardedRun InTime {} es s) : Kept cfg s :=
  (hrun.invariant (fun _ _ _ h hguard hstep => PoolInv.step h hguard hstep) PoolInv.initial).kept

end Invariant

/-! ## Two runs -/

/-- One provider of one request a minute. -/
def onePerMinute : PoolConfig where
  providers := [{
    key := "gecko"
    displayName := "GeckoTerminal"
    dataGroup := "MARKET_DATA"
    priority := 1
    reqsPerWindow := 1
    windowSec := 60
    cooldownSec := 120
    enabled := true
    requiresKey := none }]
  keys := List.nodup_singleton _

/-- A call of either kind with the one handler, up to its handler's outcome. -/
def callUpTo (e : PoolEvent) (i : ℕ) (outcome : Outcome) : List PoolEvent :=
  [e, .advance i, .advance i, .advance i, .advance i, .finish i outcome]

/-- One answer is recorded, the next call is skipped, and after the window a 429 is handled. -/
def dataThenLimited : List PoolEvent :=
  callUpTo (.execute "MARKET_DATA" ["gecko"]) 0 .data ++ [.advance 0, .advance 0] ++
    [.executeAll "MARKET_DATA" ["gecko"], .advance 1, .advance 1, .advance 1, .wait 60000] ++
    callUpTo (.executeAll "MARKET_DATA" ["gecko"]) 2 .rateLimited ++ [.advance 2, .wait 60000] ++
    [.execute "MARKET_DATA" ["gecko"], .advance 3]

theorem dataThenLimited_kept : ∃ s, (providerPool onePerMinute).run {} dataThenLimited = some s ∧
    Kept onePerMinute s := by
  have hsome : ((providerPool onePerMinute).guardedRun InTime {} dataThenLimited).isSome = true := by
    decide +kernel
  obtain ⟨s, hs⟩ := Option.isSome_iff_exists.mp hsome
  have hrun := StepSystem.GuardedRun.of_guardedRun hs
  exact ⟨s, hrun.run, kept_runs hrun⟩

/-- `executeAll` does not record an empty answer. -/
def twoEmptyAnswers : List PoolEvent :=
  callUpTo (.executeAll "MARKET_DATA" ["gecko"]) 0 .null ++ callUpTo (.executeAll "MARKET_DATA" ["gecko"]) 1 .null

/-- The provider is invoked twice in a window of one request. -/
theorem twoEmptyAnswers_exceed : ¬ ∀ (cfg : PoolConfig) (es : List PoolEvent) (s : Pool),
    (providerPool cfg).run {} es = some s → Kept cfg s := by
  intro h
  have hany : ((providerPool onePerMinute).run {} twoEmptyAnswers).any (fun s =>
      onePerMinute.providers.any fun p => decide (p.reqsPerWindow < s.startsIn p 0)) = true := by decide +kernel
  obtain ⟨s, hs, hexceeds⟩ := (Option.any_eq_true _ _).mp hany
  obtain ⟨p, hp, hlt⟩ := List.any_eq_true.mp hexceeds
  have hquota := (h onePerMinute twoEmptyAnswers s hs).quota p hp 0
  exact absurd hquota (not_le.mpr (of_decide_eq_true hlt))

end SuperAi.ProviderPool
