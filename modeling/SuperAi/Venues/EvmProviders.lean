import Mathlib.Data.List.Basic
import Mathlib.Tactic.Basic

/-! # RPC failover

`EvmBalancesService.withProvider` and `resolveProvider` (`venues/evm-balances.service.ts`). What an endpoint answers is
a parameter, and so is the host of a URL; the probe that concurrent callers share is left out. The liveness calls walk
the list of the candidates, and `fn` is called on the first that answers one, and on no other (`withProvider_iff`).
-/
namespace SuperAi.Venues
set_option autoImplicit false

/-- What the failover reads of a chain. -/
structure RpcSpec where
  key : String
  rpcEnvVar : String
  defaultRpcUrl : String
  fallbackRpcUrls : List String

/-- `process.env` -/
abbrev ProcessEnv := String → Option String

def candidates (env : ProcessEnv) (spec : RpcSpec) : List String :=
  ((env spec.rpcEnvVar).filter fun url => url ≠ "").toList ++ (spec.defaultRpcUrl :: spec.fallbackRpcUrls)

/-- A provider for one of the candidates of a chain. -/
abbrev JsonRpcProvider (env : ProcessEnv) (spec : RpcSpec) := { url : String // url ∈ candidates env spec }

def RPC_TIMEOUT_MS : ℕ := 8000

/-- What becomes of a promise by the time of the timeout; an error may have a message. -/
inductive RpcAnswer (α : Type)
  | resolves (value : α)
  | rejects (message : Option String)
  | silent

def withTimeout {α : Type} : RpcAnswer α → Except (Option String) α
  | .resolves value => .ok value
  | .rejects message => .error message
  | .silent => .error (some ("timeout after " ++ toString RPC_TIMEOUT_MS ++ "ms"))

/-- The answers of the endpoints to the liveness call, and the host of a URL that can be parsed. -/
structure Network where
  getBlockNumber : String → RpcAnswer ℕ
  urlHost : String → Option String

def hostOf (net : Network) (url : String) : String := (net.urlHost url).getD url

section Providers
variable {env : ProcessEnv} {spec : RpcSpec} {α : Type}

/-- The probe of `resolveProvider`, with the errors so far. -/
def probe (net : Network) (errors : List String) :
    List (JsonRpcProvider env spec) → Except (Option String) (JsonRpcProvider env spec)
  | [] => .error (some ("all RPCs failed for " ++ spec.key ++ " — " ++ "; ".intercalate errors))
  | provider :: rest =>
    match withTimeout (net.getBlockNumber provider.1) with
    | .ok _ => .ok provider
    | .error message => probe net (errors ++ [hostOf net provider.1 ++ ": " ++ message.getD "failed"]) rest

def resolveProvider (net : Network) (working : Option (JsonRpcProvider env spec)) :
    Except (Option String) (JsonRpcProvider env spec) :=
  match working with
  | some provider => .ok provider
  | none => probe net [] (candidates env spec).attach

/-- The call after the cached provider: a provider is resolved and remembered, and `fn` is called on it. -/
def withResolved (net : Network) (fn : JsonRpcProvider env spec → RpcAnswer α) :
    Except (Option String) α × Option (JsonRpcProvider env spec) :=
  match resolveProvider net none with
  | .error message => (.error message, none)
  | .ok provider => (withTimeout (fn provider), some provider)

/-- What `withProvider` returns or throws, and the provider that it remembers. -/
def withProvider (net : Network) (working : Option (JsonRpcProvider env spec))
    (fn : JsonRpcProvider env spec → RpcAnswer α) :
    Except (Option String) α × Option (JsonRpcProvider env spec) :=
  match working with
  | none => withResolved net fn
  | some cached =>
    match withTimeout (fn cached) with
    | .ok value => (.ok value, some cached)
    | .error _ => withResolved net fn

/-! ## Exhaustive failover -/

def RpcAnswer.answers {β : Type} : RpcAnswer β → Bool
  | .resolves _ => true
  | _ => false

def live (net : Network) (provider : JsonRpcProvider env spec) : Bool := (net.getBlockNumber provider.1).answers

/-- An error means that each candidate fails one of the two calls, and a value is the answer of a candidate. -/
structure Exhaustive (net : Network) (fn : JsonRpcProvider env spec → RpcAnswer α) (result : Except (Option String) α) :
    Prop where
  rejects : ∀ message, result = .error message → ∀ provider, live net provider = true → (fn provider).answers = false
  returns : ∀ value, result = .ok value → ∃ provider, fn provider = .resolves value

/-- The cached provider answers `fn`, or the first live candidate does, or none that is live. -/
def FirstAnswers (net : Network) (working : Option (JsonRpcProvider env spec))
    (fn : JsonRpcProvider env spec → RpcAnswer α) : Prop :=
  (∃ cached, working = some cached ∧ (fn cached).answers = true) ∨
  (∃ first, (candidates env spec).attach.find? (live net) = some first ∧ (fn first).answers = true) ∨
  ∀ provider, live net provider = true → (fn provider).answers = false

variable {net : Network} {fn : JsonRpcProvider env spec → RpcAnswer α}

theorem ok_of_answers {β : Type} {answer : RpcAnswer β} (h : answer.answers = true) :
    ∃ value, answer = .resolves value ∧ withTimeout answer = .ok value := by
  cases answer with
  | resolves value => exact ⟨value, rfl, rfl⟩
  | rejects message => cases h
  | silent => cases h

theorem error_of_not_answers {β : Type} {answer : RpcAnswer β} (h : answer.answers = false) :
    ∃ message, withTimeout answer = .error message := by
  cases answer with
  | resolves value => cases h
  | rejects message => exact ⟨message, rfl⟩
  | silent => exact ⟨_, rfl⟩

/-- The probe stops at the first candidate that is live. -/
theorem probe_cases (errors : List String) (providers : List (JsonRpcProvider env spec)) :
    (∃ first, providers.find? (live net) = some first ∧ probe net errors providers = .ok first) ∨
    providers.find? (live net) = none ∧ ∃ message, probe net errors providers = .error message := by
  induction providers generalizing errors with
  | nil => exact .inr ⟨rfl, _, rfl⟩
  | cons provider rest ih =>
    rw [List.find?_cons, probe]
    cases hlive : live net provider with
    | true =>
      left
      obtain ⟨value, -, hok⟩ := ok_of_answers hlive
      exact ⟨provider, rfl, by rw [hok]⟩
    | false =>
      obtain ⟨message, herror⟩ := error_of_not_answers hlive
      rw [herror]
      exact ih _

/-- After the cached provider, the first live candidate is asked alone. -/
theorem withResolved_cases (net : Network) (fn : JsonRpcProvider env spec → RpcAnswer α) :
    (∃ first, (candidates env spec).attach.find? (live net) = some first ∧
      (withResolved net fn).1 = withTimeout (fn first)) ∨
    (∀ provider : JsonRpcProvider env spec, live net provider = false) ∧
      ∃ message, (withResolved net fn).1 = .error message := by
  unfold withResolved resolveProvider
  obtain ⟨first, hfind, hprobe⟩ | ⟨hnone, message, hprobe⟩ :=
    @probe_cases env spec net [] (candidates env spec).attach
  · left
    exact ⟨first, hfind, by rw [hprobe]⟩
  · right
    refine ⟨fun provider => ?_, message, by rw [hprobe]⟩
    have hdead := List.find?_eq_none.mp hnone provider (List.mem_attach _ _)
    simpa using hdead

theorem exhaustive_of_ok {value : α} {provider : JsonRpcProvider env spec} (h : fn provider = .resolves value) :
    Exhaustive net fn (.ok value) where
  rejects _ herror := by cases herror
  returns value' hvalue := by
    obtain rfl := Except.ok.inj hvalue
    exact ⟨provider, h⟩

theorem exhaustive_error_iff (message : Option String) : Exhaustive net fn (.error message) ↔
    ∀ provider, live net provider = true → (fn provider).answers = false := by
  constructor
  · intro h
    exact h.rejects message rfl
  · intro h
    exact ⟨fun _ _ => h, fun value hvalue => by cases hvalue⟩

theorem withResolved_iff : Exhaustive net fn (withResolved net fn).1 ↔
    (∃ first, (candidates env spec).attach.find? (live net) = some first ∧ (fn first).answers = true) ∨
    ∀ provider, live net provider = true → (fn provider).answers = false := by
  obtain ⟨first, hfind, hresult⟩ | ⟨hdead, message, hresult⟩ := withResolved_cases net fn
  · rw [hresult, hfind]
    cases hanswers : (fn first).answers with
    | true =>
      obtain ⟨value, hfn, hok⟩ := ok_of_answers hanswers
      rw [hok]
      exact iff_of_true (exhaustive_of_ok hfn) (.inl ⟨first, rfl, hanswers⟩)
    | false =>
      obtain ⟨message, herror⟩ := error_of_not_answers hanswers
      rw [herror, exhaustive_error_iff]
      constructor
      · exact .inr
      · rintro (⟨other, hother, htrue⟩ | hnone)
        · obtain rfl := Option.some.inj hother
          rw [hanswers] at htrue
          cases htrue
        · exact hnone
  · have hnone : ∀ provider, live net provider = true → (fn provider).answers = false := by
      intro provider hlive
      rw [hdead provider] at hlive
      cases hlive
    rw [hresult, exhaustive_error_iff]
    exact iff_of_true hnone (.inr hnone)

/-- Whatever the endpoints answer: the failover is exhaustive exactly if the cached provider or the first live candidate
answers `fn`, or none that is live does. -/
theorem withProvider_iff (net : Network) (working : Option (JsonRpcProvider env spec))
    (fn : JsonRpcProvider env spec → RpcAnswer α) :
    Exhaustive net fn (withProvider net working fn).1 ↔ FirstAnswers net working fn := by
  unfold FirstAnswers withProvider
  cases working with
  | none =>
    dsimp only
    rw [withResolved_iff]
    simp
  | some cached =>
    cases hanswers : (fn cached).answers with
    | true =>
      obtain ⟨value, hfn, hok⟩ := ok_of_answers hanswers
      dsimp only
      rw [hok]
      exact iff_of_true (exhaustive_of_ok hfn) (.inl ⟨cached, rfl, hanswers⟩)
    | false =>
      obtain ⟨message, herror⟩ := error_of_not_answers hanswers
      dsimp only
      rw [herror, withResolved_iff]
      simp [hanswers]

end Providers

/-! ## A healthy endpoint that is not asked -/

def sampleSpec : RpcSpec where
  key := "base"
  rpcEnvVar := "BASE_RPC_URL"
  defaultRpcUrl := "https://mainnet.base.org"
  fallbackRpcUrls := ["https://base.llamarpc.com"]

/-- Both endpoints are live. -/
def sampleNetwork : Network where
  getBlockNumber _ := .resolves 1
  urlHost _ := none

/-- The default endpoint is rate-limited. -/
def rateLimited (provider : JsonRpcProvider (fun _ => none) sampleSpec) : RpcAnswer ℕ :=
  if provider.1 = "https://mainnet.base.org" then .rejects (some "429") else .resolves 7

/-- The call is rejected, although the fallback would answer. -/
theorem rateLimited_rejects : ¬ ∀ (env : ProcessEnv) (spec : RpcSpec) (net : Network)
    (working : Option (JsonRpcProvider env spec)) (fn : JsonRpcProvider env spec → RpcAnswer ℕ),
    Exhaustive net fn (withProvider net working fn).1 := by
  intro h
  have hexhaustive := h (fun _ => none) sampleSpec sampleNetwork none rateLimited
  have hresult : (withProvider sampleNetwork none rateLimited).1 = .error (some "429") := by decide +kernel
  rw [hresult] at hexhaustive
  have hfails := hexhaustive.rejects _ rfl ⟨"https://base.llamarpc.com", by decide⟩ rfl
  revert hfails
  decide +kernel

end SuperAi.Venues
