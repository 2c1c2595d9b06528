import SuperAi.Audit.HmacChain
import SuperAi.Foundations.JsonAccess
import SuperAi.Foundations.StepSystem

/-! # Context seals

`ContextIntegrityService` (`input/context.integrity.ts`) signs the hash of a prompt, a session id and a time, put
one after another without a separator, and reads the time back from the stored record. A record is read as
whatever JSON it holds. So a seal stands for every prompt and session that make the same text with some other time
(`verify_binds_iff`). Log lines and events are left out.
-/
namespace SuperAi.Input
open SuperAi.Foundations SuperAi.Audit
set_option autoImplicit false

structure SealedContext where
  hash : String
  signature : String
  sessionId : String
  timestamp : String
  deriving DecidableEq, Repr

def SealedContext.json (sealed : SealedContext) : JsonValue :=
  .obj [("hash", .str sealed.hash), ("signature", .str sealed.signature), ("sessionId", .str sealed.sessionId),
    ("timestamp", .str sealed.timestamp)]

/-- The error of the service, and those of `JSON.parse` and of hashing what is not a string. -/
inductive ContextError
  | IntegrityError (message : String)
  | SyntaxError
  | TypeError
  deriving DecidableEq, Repr

/-- A property that is this string. -/
def isText : Option JsonValue → String → Bool
  | some (.str s), text => s == text
  | _, _ => false

abbrev ContextStore := KeyValue String (List Char)

structure ContextIntegrityService where
  sha256 : String → String
  hmac : Hmac
  hmacChainSecret : String

namespace ContextIntegrityService
variable (service : ContextIntegrityService)

def computeHash (systemPrompt sessionId timestamp : String) : String :=
  service.sha256 (systemPrompt ++ sessionId ++ timestamp)

def sign (hash : String) : String := service.hmac service.hmacChainSecret hash

def redisKey (sessionId : String) : String := "security:context:" ++ sessionId

def sealOf (systemPrompt sessionId timestamp : String) : SealedContext :=
  let hash := service.computeHash systemPrompt sessionId timestamp
  { hash := hash, signature := service.sign hash, sessionId := sessionId, timestamp := timestamp }

/-- `seal`, with the time that it takes. -/
def sealContext (redis : ContextStore) (systemPrompt sessionId timestamp : String) : SealedContext × ContextStore :=
  let sealed := service.sealOf systemPrompt sessionId timestamp
  (sealed, redis.set (redisKey sessionId) sealed.json.text)

def verify (redis : ContextStore) (systemPrompt sessionId : String) : Except ContextError JsonValue :=
  match redis.get (redisKey sessionId) with
  | none => .error (.IntegrityError ("No sealed context found for session " ++ sessionId))
  | some raw =>
    match parseJson raw with
    | none => .error .SyntaxError
    | some stored =>
      match property stored "timestamp" with
      | some (.str timestamp) =>
        let recomputedHash := service.computeHash systemPrompt sessionId timestamp
        let recomputedSignature := service.sign recomputedHash
        if isText (property stored "hash") recomputedHash && isText (property stored "signature") recomputedSignature then
          .ok stored
        else .error (.IntegrityError ("Context integrity check failed for session " ++ sessionId))
      | _ => .error .TypeError

end ContextIntegrityService

/-! ## Seals and what others write -/

structure SealCall where
  systemPrompt : String
  sessionId : String
  timestamp : String
  deriving DecidableEq, Repr

/-- The text that a seal is the hash of. -/
def SealCall.text (call : SealCall) : String := call.systemPrompt ++ call.sessionId ++ call.timestamp

structure ContextState where
  redis : ContextStore := []
  seals : List SealCall := []
  deriving DecidableEq, Repr

/-- A seal, a text that somebody without the secret writes, or a key that expires. -/
inductive ContextEvent
  | sealing (call : SealCall)
  | write (key : String) (raw : List Char)
  | expires (key : String)

def contextSystem (service : ContextIntegrityService) : StepSystem ContextState ContextEvent where
  step s
    | .sealing call =>
      some
        { redis := (service.sealContext s.redis call.systemPrompt call.sessionId call.timestamp).2
          seals := call :: s.seals }
    | .write key raw => some { s with redis := s.redis.set key raw }
    | .expires key => some { s with redis := s.redis.del key }

section
variable (service : ContextIntegrityService)

/-- A record whose signature is that of its hash has the hash of a seal. -/
def Genuine (seals : List SealCall) (raw : List Char) : Prop :=
  ∀ stored hash, parseJson raw = some stored → property stored "hash" = some (.str hash) →
    property stored "signature" = some (.str (service.sign hash)) → ∃ call ∈ seals, service.sha256 call.text = hash

/-- What is written holds no forged signature. -/
def WritesGenuine (s : ContextState) : ContextEvent → Prop
  | .write _ raw => Genuine service s.seals raw
  | _ => True

/-- The prompt was sealed for the session. -/
def Sealed (seals : List SealCall) (systemPrompt sessionId : String) : Prop :=
  ∃ call ∈ seals, call.systemPrompt = systemPrompt ∧ call.sessionId = sessionId

/-- The record of the session has the hash and the signature of a seal, and a time with which the prompt and the
session make the text of that seal. -/
def Shifted (s : ContextState) (systemPrompt sessionId : String) : Prop :=
  ∃ raw stored timestamp, s.redis.get (ContextIntegrityService.redisKey sessionId) = some raw ∧
    parseJson raw = some stored ∧ property stored "timestamp" = some (.str timestamp) ∧
    ∃ call ∈ s.seals, call.text = systemPrompt ++ sessionId ++ timestamp ∧
      property stored "hash" = some (.str (service.sha256 call.text)) ∧
      property stored "signature" = some (.str (service.sign (service.sha256 call.text)))

end

section
variable {service : ContextIntegrityService} {s s' : ContextState} {systemPrompt sessionId : String}

theorem SealedContext.json_wellFormed (sealed : SealedContext) : sealed.json.WellFormed := by
  refine .obj (by simp) ?_
  simp only [List.forall_mem_cons, List.not_mem_nil, false_implies, implies_true, and_true]
  exact ⟨.str _, .str _, .str _, .str _⟩

theorem isText_iff {v : Option JsonValue} {text : String} : isText v text = true ↔ v = some (.str text) := by
  cases v with
  | none => simp [isText]
  | some v => cases v <;> simp [isText]

theorem verify_ok_iff {redis : ContextStore} {stored : JsonValue} :
    service.verify redis systemPrompt sessionId = .ok stored ↔
      ∃ raw timestamp, redis.get (ContextIntegrityService.redisKey sessionId) = some raw ∧ parseJson raw = some stored ∧
        property stored "timestamp" = some (.str timestamp) ∧
        property stored "hash" = some (.str (service.computeHash systemPrompt sessionId timestamp)) ∧
        property stored "signature" =
          some (.str (service.sign (service.computeHash systemPrompt sessionId timestamp))) := by
  unfold ContextIntegrityService.verify
  constructor
  · intro h
    cases hget : redis.get (ContextIntegrityService.redisKey sessionId) with
    | none =>
      rw [hget] at h
      cases h
    | some raw =>
      rw [hget] at h
      dsimp only at h
      cases hparse : parseJson raw with
      | none =>
        rw [hparse] at h
        cases h
      | some found =>
        rw [hparse] at h
        dsimp only at h
        split at h
        · next timestamp htimestamp =>
          by_cases hsame : (isText (property found "hash") (service.computeHash systemPrompt sessionId timestamp) &&
              isText (property found "signature")
                (service.sign (service.computeHash systemPrompt sessionId timestamp))) = true
          · rw [if_pos hsame] at h
            obtain rfl := Except.ok.inj h
            rw [Bool.and_eq_true, isText_iff, isText_iff] at hsame
            exact ⟨raw, timestamp, rfl, hparse, htimestamp, hsame.1, hsame.2⟩
          · rw [if_neg hsame] at h
            cases h
        · cases h
  · rintro ⟨raw, timestamp, hget, hparse, htimestamp, hhash, hsignature⟩
    rw [hget]
    dsimp only
    rw [hparse]
    dsimp only
    rw [htimestamp]
    exact if_pos (Bool.and_eq_true_iff.mpr ⟨isText_iff.mpr hhash, isText_iff.mpr hsignature⟩)

/-- A seal that nobody has touched is verified. -/
theorem verify_sealContext (service : ContextIntegrityService) (redis : ContextStore)
    (systemPrompt sessionId timestamp : String) :
    service.verify (service.sealContext redis systemPrompt sessionId timestamp).2 systemPrompt sessionId =
      .ok (service.sealOf systemPrompt sessionId timestamp).json := by
  refine verify_ok_iff.mpr ⟨_, timestamp, KeyValue.get_set_self _ _ _, parseJson_text (SealedContext.json_wellFormed _),
    rfl, rfl, rfl⟩

theorem Genuine.later {seals : List SealCall} {raw : List Char} (h : Genuine service seals raw) (call : SealCall) :
    Genuine service (call :: seals) raw := by
  intro stored hash hparse hhash hsignature
  obtain ⟨earlier, hmem, heq⟩ := h stored hash hparse hhash hsignature
  exact ⟨earlier, List.mem_cons_of_mem _ hmem, heq⟩

/-- Every record in the store is genuine. -/
def StoresGenuine (service : ContextIntegrityService) (s : ContextState) : Prop :=
  ∀ key raw, s.redis.get key = some raw → Genuine service s.seals raw

theorem storesGenuine_step {e : ContextEvent} (h : StoresGenuine service s) (hguard : WritesGenuine service s e)
    (hstep : (contextSystem service).step s e = some s') : StoresGenuine service s' := by
  cases e with
  | sealing call =>
    obtain rfl := Option.some.inj hstep
    apply KeyValue.forall_get_set fun key raw hget => (h key raw hget).later call
    intro stored hash hparse hhash _
    obtain rfl := Option.some.inj (hparse.symm.trans (parseJson_text (SealedContext.json_wellFormed _)))
    exact ⟨call, List.mem_cons_self, JsonValue.str.inj (Option.some.inj hhash)⟩
  | write key raw =>
    obtain rfl := Option.some.inj hstep
    exact KeyValue.forall_get_set h hguard
  | expires key =>
    obtain rfl := Option.some.inj hstep
    exact KeyValue.forall_get_del h key

/-- What is verified without having been sealed is the seal of another prompt or session, shifted. -/
theorem verified_iff (hsha256 : Function.Injective service.sha256) (hgenuine : StoresGenuine service s) :
    (∃ stored, service.verify s.redis systemPrompt sessionId = .ok stored) ↔
      Shifted service s systemPrompt sessionId := by
  constructor
  · rintro ⟨stored, hverify⟩
    obtain ⟨raw, timestamp, hget, hparse, htimestamp, hhash, hsignature⟩ := verify_ok_iff.mp hverify
    obtain ⟨call, hmem, hcall⟩ := hgenuine _ raw hget stored _ hparse hhash hsignature
    rw [← hcall] at hhash hsignature
    exact ⟨raw, stored, timestamp, hget, hparse, htimestamp, call, hmem, hsha256 hcall, hhash, hsignature⟩
  · rintro ⟨raw, stored, timestamp, hget, hparse, htimestamp, call, -, htext, hhash, hsignature⟩
    rw [htext] at hhash hsignature
    exact ⟨stored, verify_ok_iff.mpr ⟨raw, timestamp, hget, hparse, htimestamp, hhash, hsignature⟩⟩

/-- **What a seal binds.** In every state that seals, expiries and writes without forged signatures lead to, a
prompt is verified for a session only if it was sealed for it, unless the record of the session is a shifted
seal of another prompt or session; and then it is verified. -/
theorem verify_binds_iff (hsha256 : Function.Injective service.sha256) {events : List ContextEvent} {t : ContextState}
    (h : (contextSystem service).GuardedRun (WritesGenuine service) {} events t) (systemPrompt sessionId : String) :
    (∀ stored, service.verify t.redis systemPrompt sessionId = .ok stored → Sealed t.seals systemPrompt sessionId) ↔
      (Shifted service t systemPrompt sessionId → Sealed t.seals systemPrompt sessionId) := by
  have hgenuine : StoresGenuine service t := by
    refine h.invariant (fun _ _ _ => storesGenuine_step) ?_
    intro key raw hget
    cases hget
  rw [← verified_iff hsha256 hgenuine]
  constructor
  · rintro hall ⟨stored, hverify⟩
    exact hall stored hverify
  · intro hshifted stored hverify
    exact hshifted ⟨stored, hverify⟩

/-- Session ids of one length and times of one length leave no room for a shift. -/
theorem sealed_of_shifted (hsession : ∀ call ∈ s.seals, call.sessionId.length = sessionId.length)
    (htime : ∀ raw stored timestamp, s.redis.get (ContextIntegrityService.redisKey sessionId) = some raw →
      parseJson raw = some stored → property stored "timestamp" = some (.str timestamp) →
      ∀ call ∈ s.seals, call.timestamp.length = timestamp.length)
    (h : Shifted service s systemPrompt sessionId) : Sealed s.seals systemPrompt sessionId := by
  obtain ⟨raw, stored, timestamp, hget, hparse, htimestamp, call, hmem, htext, -⟩ := h
  have hchars := congrArg String.toList htext
  simp only [SealCall.text, String.toList_append] at hchars
  obtain ⟨hjoined, -⟩ := List.append_inj' hchars (htime raw stored timestamp hget hparse htimestamp call hmem)
  obtain ⟨hprompt, hid⟩ := List.append_inj' hjoined (hsession call hmem)
  exact ⟨call, hmem, String.toList_injective hprompt, String.toList_injective hid⟩

end

/-! ## A session whose id begins another one -/

/-- The real digests of the texts that occur below. -/
def testService : ContextIntegrityService where
  sha256 := tableHmac
    [("Be helpful.ab2024-01-01T00:00:00.000Z", "8f86ec649f3e875e8d5fe74f5e9622ccc8e55c5a61d406e2d56899fceab94b50")] ""
  hmac := tableHmac
    [("8f86ec649f3e875e8d5fe74f5e9622ccc8e55c5a61d406e2d56899fceab94b50",
      "0b02b429413e0cd8974732afc0ad49808fd389462e00e34cab1a097abba60f18")]
  hmacChainSecret := "test-secret-0123456789-0123456789"

theorem testService_injective : Function.Injective testService.sha256 :=
  tableHmac_injective (by decide +kernel) (by decide +kernel) ""

def sealAb : SealCall := ⟨"Be helpful.", "ab", "2024-01-01T00:00:00.000Z"⟩

/-- The seal of the session `ab` with the end of its id at the front of the time. -/
def shiftedSeal : SealedContext :=
  { testService.sealOf "Be helpful." "ab" "2024-01-01T00:00:00.000Z" with
    sessionId := "a", timestamp := "b2024-01-01T00:00:00.000Z" }

theorem sealAb_verified : ∃ t, (contextSystem testService).run {} [.sealing sealAb] = some t ∧
    ∀ stored, testService.verify t.redis "Be helpful." "ab" = .ok stored → Sealed t.seals "Be helpful." "ab" := by
  have hrun : (contextSystem testService).GuardedRun (WritesGenuine testService) {} [.sealing sealAb] _ :=
    .cons trivial rfl (.nil _)
  exact ⟨_, rfl, (verify_binds_iff testService_injective hrun _ _).mpr fun _ =>
    ⟨sealAb, List.mem_cons_self, rfl, rfl⟩⟩

/-- With the seal of one session under the key of another, the prompt is verified for a session that it was never
sealed for. -/
theorem shifted_seal_verified : ∃ (service : ContextIntegrityService) (events : List ContextEvent) (t : ContextState)
    (systemPrompt sessionId : String) (stored : JsonValue), Function.Injective service.sha256 ∧
      (contextSystem service).GuardedRun (WritesGenuine service) {} events t ∧
      service.verify t.redis systemPrompt sessionId = .ok stored ∧ ¬ Sealed t.seals systemPrompt sessionId := by
  have hparse := parseJson_text (SealedContext.json_wellFormed shiftedSeal)
  have hgenuine : Genuine testService [sealAb] shiftedSeal.json.text := by
    intro stored hash hstored hhash _
    obtain rfl := Option.some.inj (hstored.symm.trans hparse)
    exact ⟨sealAb, List.mem_cons_self, JsonValue.str.inj (Option.some.inj hhash)⟩
  have hrun : (contextSystem testService).GuardedRun (WritesGenuine testService) {}
      [.sealing sealAb, .write (ContextIntegrityService.redisKey "a") shiftedSeal.json.text] _ :=
    .cons trivial rfl (.cons hgenuine rfl (.nil _))
  refine ⟨testService, _, _, "Be helpful.", "a", shiftedSeal.json, testService_injective, hrun, ?_, ?_⟩
  · refine verify_ok_iff.mpr ⟨_, "b2024-01-01T00:00:00.000Z", KeyValue.get_set_self _ _ _, hparse, rfl, rfl, rfl⟩
  · rintro ⟨call, hmem, -, hsession⟩
    obtain rfl := List.mem_singleton.mp hmem
    exact absurd hsession (by decide)

end SuperAi.Input
