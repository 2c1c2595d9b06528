import SuperAi.Audit.HmacChain
import SuperAi.Foundations.JsonAccess

/-! # Approval challenges (`confirmation/approval.flow.ts`)

A challenge is a record in Redis under its id. `submitApproval` looks for the marker of a consumed
challenge, reads the record, checks its expiry, its owner and the approval signature, and only then
deletes the record and sets the marker. The record is read as whatever JSON it holds; the signature
that `createChallenge` stores in it is not among the things that are checked.
-/
namespace SuperAi.Confirmation
open SuperAi.Foundations SuperAi.Audit
set_option autoImplicit false

/-! ## Challenges -/

structure ApprovalChallenge where
  challengeId : String
  userId : String
  sessionId : String
  actionPayload : String
  signature : String
  createdAt : String
  expiresAt : String

def ApprovalChallenge.json (c : ApprovalChallenge) : JsonValue :=
  .obj [("challengeId", .str c.challengeId), ("userId", .str c.userId), ("sessionId", .str c.sessionId),
    ("actionPayload", .str c.actionPayload), ("signature", .str c.signature),
    ("createdAt", .str c.createdAt), ("expiresAt", .str c.expiresAt)]

structure ApprovedAction where
  challengeId : String
  userId : String
  action : JsonValue
  approvedAt : String

/-- The errors of `submitApproval`: four of its own, and those of `JSON.parse`, of a property of
`null` and of `timingSafeEqual`. -/
inductive SubmitError
  | ConfirmationReplayError (challengeId : String)
  | ConfirmationExpiredError (challengeId : String)
  | ConfirmationOwnershipError (challengeId : String)
  | ConfirmationSignatureError (challengeId : String)
  | SyntaxError
  | TypeError
  | RangeError
  deriving DecidableEq

def challengeKey (challengeId : String) : String := "confirmation:challenge:" ++ challengeId

def consumedKey (challengeId : String) : String := "confirmation:consumed:" ++ challengeId

theorem consumedKey_ne_challengeKey (challengeId challengeId' : String) :
    consumedKey challengeId ≠ challengeKey challengeId' := by
  intro h
  have hafter : "confirmation:c" ++ ("onsumed:" ++ challengeId) =
      "confirmation:c" ++ ("hallenge:" ++ challengeId') := by
    rw [← String.append_assoc, ← String.append_assoc]
    exact h
  have hhead := congrArg (·.toList.head?) ((String.append_right_inj _).mp hafter)
  simp at hhead

abbrev Redis := KeyValue String (List Char)

/-- What a flow is given: the HMAC, its key, and `new Date(value).getTime()`, where `none` is `NaN`. -/
structure ApprovalFlow where
  hmac : Hmac
  hmacChainSecret : String
  getTime : Option JsonValue → Option ℤ

/-- What the checks of a submission make of the record. -/
inductive Examination
  | throws (error : SubmitError)
  | expired
  | passes (challenge : JsonValue)

namespace ApprovalFlow
variable (flow : ApprovalFlow)

def computeHmac (challengeId userId sessionId actionPayload : String) : String :=
  flow.hmac flow.hmacChainSecret
    (challengeId ++ ":" ++ userId ++ ":" ++ sessionId ++ ":" ++ actionPayload)

def computeApprovalSignature (challengeId userId : String) : String :=
  flow.hmac flow.hmacChainSecret ("approve:" ++ challengeId ++ ":" ++ userId)

/-- The action is plain data; the id and the dates are answers of the environment. -/
def newChallenge (action : JsonValue) (userId sessionId : String)
    (challengeId createdAt expiresAt : String) : ApprovalChallenge :=
  let actionPayload := String.ofList action.text
  ⟨challengeId, userId, sessionId, actionPayload,
    flow.computeHmac challengeId userId sessionId actionPayload, createdAt, expiresAt⟩

def createChallenge (action : JsonValue) (userId sessionId : String)
    (challengeId createdAt expiresAt : String) (redis : Redis) : ApprovalChallenge × Redis :=
  let challenge := flow.newChallenge action userId sessionId challengeId createdAt expiresAt
  (challenge, redis.set (challengeKey challengeId) challenge.json.text)

/-- The checks between the reading of the record and the next write. -/
def examine (challengeId userId signedApproval : String) (now : ℤ) : Option (List Char) → Examination
  | none => .throws (.ConfirmationExpiredError challengeId)
  | some raw =>
    match parseJson raw with
    | none => .throws .SyntaxError
    | some .null => .throws .TypeError
    | some challenge =>
      if (flow.getTime (property challenge "expiresAt")).any (· < now) then .expired
      else
        match property challenge "userId" with
        | some (.str owner) =>
          if owner ≠ userId then .throws (.ConfirmationOwnershipError challengeId)
          else
            match safeCompare signedApproval (flow.computeApprovalSignature challengeId userId) with
            | .error _ => .throws .RangeError
            | .ok false => .throws (.ConfirmationSignatureError challengeId)
            | .ok true => .passes challenge
        | _ => .throws (.ConfirmationOwnershipError challengeId)

/-- The end of a submission, after the record is deleted and the marker set; the log line reads
`action.type`. -/
def approve (challengeId userId approvedAt : String) (challenge : JsonValue) :
    Except SubmitError ApprovedAction :=
  match parseJson (coerce (property challenge "actionPayload")) with
  | none => .error .SyntaxError
  | some .null => .error .TypeError
  | some action => .ok ⟨challengeId, userId, action, approvedAt⟩

/-- `submitApproval` with no other call under way. -/
def submitApproval (challengeId userId signedApproval : String) (now : ℤ) (approvedAt : String)
    (redis : Redis) : Except SubmitError ApprovedAction × Redis :=
  if (redis.get (consumedKey challengeId)).isSome then
    (.error (.ConfirmationReplayError challengeId), redis)
  else
    match flow.examine challengeId userId signedApproval now (redis.get (challengeKey challengeId)) with
    | .throws error => (.error error, redis)
    | .expired =>
      (.error (.ConfirmationExpiredError challengeId), redis.del (challengeKey challengeId))
    | .passes challenge =>
      (approve challengeId userId approvedAt challenge,
        (redis.del (challengeKey challengeId)).set (consumedKey challengeId) "consumed".toList)

/-- What a record has to be, to pass: JSON other than `null`, not past its expiry, with the user of
the call as its owner; and the signature is that of an approval by this user. -/
structure Passes (challengeId userId signedApproval : String) (now : ℤ) (raw : Option (List Char))
    (challenge : JsonValue) : Prop where
  parsed : raw.bind parseJson = some challenge
  notNull : challenge ≠ .null
  fresh : (flow.getTime (property challenge "expiresAt")).any (· < now) = false
  owned : property challenge "userId" = some (.str userId)
  signed : signedApproval = flow.computeApprovalSignature challengeId userId

variable {flow}

theorem examine_eq_passes {challengeId userId signedApproval : String} {now : ℤ} {raw : Option (List Char)}
    {challenge : JsonValue} :
    flow.examine challengeId userId signedApproval now raw = .passes challenge ↔
      flow.Passes challengeId userId signedApproval now raw challenge := by
  constructor
  · intro h
    cases raw with
    | none => cases h
    | some raw =>
      simp only [examine] at h
      split at h
      · cases h
      · cases h
      · rename_i challenge' hnull hparse
        split at h
        · cases h
        · rename_i hfresh
          split at h
          · rename_i owner howner
            split at h
            · cases h
            · rename_i heq
              obtain rfl : owner = userId := not_not.mp heq
              split at h
              · cases h
              · cases h
              · rename_i hcompare
                obtain rfl : challenge' = challenge := by simpa using h
                exact ⟨by rw [Option.bind_some, hparse], hnull, Bool.eq_false_iff.mpr hfresh, howner,
                  safeCompare_eq_true.mp hcompare⟩
          · cases h
  · intro h
    cases raw with
    | none => cases h.parsed
    | some raw =>
      have hparse : parseJson raw = some challenge := h.parsed
      have hcompare := safeCompare_eq_true.mpr h.signed
      -- only an object has an owner
      obtain ⟨ms, rfl⟩ : ∃ ms, challenge = .obj ms := by
        have howned := h.owned
        cases challenge with
        | obj ms => exact ⟨ms, rfl⟩
        | _ => cases howned
      simp [examine, hparse, h.fresh, h.owned, hcompare]

theorem computeApprovalSignature_inj (hinjective : (flow.hmac flow.hmacChainSecret).Injective)
    {challengeId userId userId' : String} :
    flow.computeApprovalSignature challengeId userId = flow.computeApprovalSignature challengeId userId' ↔
      userId = userId' := by
  constructor
  · intro h
    exact (String.append_right_inj _).mp (hinjective h)
  · rintro rfl
    rfl

theorem newChallenge_payload (action : JsonValue)
    (userId sessionId challengeId createdAt expiresAt : String) :
    (flow.newChallenge action userId sessionId challengeId createdAt expiresAt).actionPayload =
      String.ofList action.text := rfl

theorem createChallenge_redis (action : JsonValue)
    (userId sessionId challengeId createdAt expiresAt : String) (redis : Redis) :
    (flow.createChallenge action userId sessionId challengeId createdAt expiresAt redis).2 =
      redis.set (challengeKey challengeId)
        (flow.newChallenge action userId sessionId challengeId createdAt expiresAt).json.text := rfl

end ApprovalFlow
end SuperAi.Confirmation
