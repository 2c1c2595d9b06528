import SuperAi.Foundations.ExpiringStore
import SuperAi.Foundations.StepSystem
import Mathlib.Data.List.Nodup

/-! # The provider pool

`ProviderPoolService` (`provider-pool/provider-pool.service.ts`) with `RateLimitService`
(`provider-pool/rate-limit.service.ts`), while Redis answers. `execute` tries one provider after another, `executeAll`
tries all of them at once; what either does about one provider is an attempt, and the attempts of any number of calls
interleave between their reads and writes. A log keeps the invocations and the handled 429s in their order.
-/
namespace SuperAi.ProviderPool
open SuperAi.Foundations
set_option autoImplicit false

structure ProviderEntry where
  key : String
  displayName : String
  dataGroup : String
  priority : ℤ
  reqsPerWindow : ℕ
  windowSec : ℕ
  cooldownSec : ℕ
  enabled : Bool
  requiresKey : Option String
  deriving DecidableEq, Repr

/-- The rows of `ProviderConfig` by priority and key, and the environment variables that are not blank. -/
structure PoolConfig where
  providers : List ProviderEntry
  keys : (providers.map ProviderEntry.key).Nodup
  env : List String := []

def isKeyPresent (cfg : PoolConfig) (requiresKey : Option String) : Bool :=
  requiresKey.all fun name => name == "" || cfg.env.contains name

/-- The providers that a call with these handlers tries. -/
def available (cfg : PoolConfig) (group : String) (handlers : List String) : List ProviderEntry :=
  cfg.providers.filter fun p =>
    p.dataGroup == group && p.enabled && handlers.contains p.key && isKeyPresent cfg p.requiresKey

/-- The window slot of a time in milliseconds. -/
def ProviderEntry.slot (p : ProviderEntry) (now : ℤ) : ℤ := now / (1000 * p.windowSec)

/-! ## Redis -/

structure RateLimit where
  cnt : ExpiringStore (String × ℤ) ℕ := []
  cd : ExpiringStore String Unit := []

namespace RateLimit

def cooling (r : RateLimit) (now : ℤ) (key : String) : Bool := (r.cd.read now key).isSome

def count (r : RateLimit) (now : ℤ) (key : String) (slot : ℤ) : ℕ := (r.cnt.read now (key, slot)).getD 0

def record (r : RateLimit) (now : ℤ) (p : ProviderEntry) (slot : ℤ) : RateLimit :=
  { r with cnt := r.cnt.setex now (p.windowSec * 2 * 1000) (p.key, slot) (r.count now p.key slot + 1) }

/-- Redis refuses a time to live of zero. -/
def markCooldown (r : RateLimit) (now : ℤ) (p : ProviderEntry) : RateLimit :=
  if p.cooldownSec = 0 then r else { r with cd := r.cd.setex now (p.cooldownSec * 1000) p.key () }

end RateLimit

/-! ## Attempts -/

inductive ExecuteStatus
  | hit
  | miss
  | exhausted
  | skipped
  deriving DecidableEq, Repr

/-- What comes next in an attempt. -/
inductive Phase
  | checkCooldown
  | readSlot
  | readCount (slot : ℤ)
  | start
  | running
  | recordSlot (status : ExecuteStatus)
  | record (slot : ℤ) (status : ExecuteStatus)
  | markCooldown
  | done (status : ExecuteStatus)
  deriving DecidableEq, Repr

/-- An attempt of `execute` goes on with the rest of the providers. -/
structure Attempt where
  provider : ProviderEntry
  all : Bool
  rest : List ProviderEntry := []
  phase : Phase := .checkCooldown
  deriving DecidableEq, Repr

/-- What a handler comes to; data can be a falsy value. -/
inductive Outcome
  | data
  | falsy
  | null
  | rateLimited
  | throws
  deriving DecidableEq, Repr

def Attempt.skip (a : Attempt) : Attempt :=
  match a.rest with
  | [] => { a with phase := .done (if a.all then .skipped else .exhausted) }
  | provider :: rest => { a with provider, rest, phase := .checkCooldown }

/-- `execute` records data and `null`, `executeAll` only what is truthy. -/
def Attempt.finish (a : Attempt) : Outcome → Attempt
  | .data => { a with phase := .recordSlot .hit }
  | .falsy => if a.all then a.skip else { a with phase := .recordSlot .hit }
  | .null => if a.all then a.skip else { a with phase := .recordSlot .miss }
  | .rateLimited => { a with phase := .markCooldown }
  | .throws => a.skip

inductive PoolLog
  | started (key : String) (time : ℤ)
  | cooled (key : String) (time : ℤ)
  deriving DecidableEq, Repr

structure Pool where
  now : ℤ := 0
  redis : RateLimit := {}
  attempts : List Attempt := []
  log : List PoolLog := []

inductive PoolEvent
  | wait (ms : ℕ)
  | execute (group : String) (handlers : List String)
  | executeAll (group : String) (handlers : List String)
  | advance (i : ℕ)
  | finish (i : ℕ) (outcome : Outcome)

/-- The next read or write of an attempt, or the invocation of the handler. -/
def Pool.advance (s : Pool) (a : Attempt) : Option (RateLimit × List PoolLog × Attempt) :=
  match a.phase with
  | .checkCooldown =>
    some (s.redis, [], if s.redis.cooling s.now a.provider.key then a.skip else { a with phase := .readSlot })
  | .readSlot => some (s.redis, [], { a with phase := .readCount (a.provider.slot s.now) })
  | .readCount slot =>
    some (s.redis, [],
      if s.redis.count s.now a.provider.key slot < a.provider.reqsPerWindow then { a with phase := .start } else a.skip)
  | .start => some (s.redis, [.started a.provider.key s.now], { a with phase := .running })
  | .recordSlot status => some (s.redis, [], { a with phase := .record (a.provider.slot s.now) status })
  | .record slot status => some (s.redis.record s.now a.provider slot, [], { a with phase := .done status })
  | .markCooldown => some (s.redis.markCooldown s.now a.provider, [.cooled a.provider.key s.now], a.skip)
  | .running => none
  | .done _ => none

def Pool.step (cfg : PoolConfig) (s : Pool) : PoolEvent → Option Pool
  | .wait ms => some { s with now := s.now + ms }
  | .execute group handlers =>
    match available cfg group handlers with
    | [] => some s
    | provider :: rest => some { s with attempts := s.attempts ++ [{ provider, all := false, rest }] }
  | .executeAll group handlers =>
    some { s with attempts := s.attempts ++ (available cfg group handlers).map fun provider => { provider, all := true } }
  | .advance i =>
    (s.attempts[i]?).bind fun a =>
      (s.advance a).map fun (redis, entries, next) =>
        { s with redis, log := s.log ++ entries, attempts := s.attempts.set i next }
  | .finish i outcome =>
    (s.attempts[i]?).bind fun a =>
      if a.phase = .running then some { s with attempts := s.attempts.set i (a.finish outcome) } else none

def providerPool (cfg : PoolConfig) : StepSystem Pool PoolEvent := ⟨Pool.step cfg⟩

end SuperAi.ProviderPool
