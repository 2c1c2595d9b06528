import SuperAi.Confirmation.ApprovalFlow

/-! # What an approval binds

The signature in a stored challenge covers its id, user, session and action, but nothing recomputes
it: the approval signature, the only one that is checked, covers the id and the user. So the action
that is approved, and the session it belongs to, are whatever the record says when it is read
(`approvedIntact_iff`).
-/
namespace SuperAi.Confirmation
open SuperAi.Foundations SuperAi.Audit
set_option autoImplicit false

structure Creation where
  action : JsonValue
  userId : String
  sessionId : String

def storedSession (redis : Redis) (challengeId : String) : Option JsonValue :=
  ((redis.get (challengeKey challengeId)).bind parseJson).bind fun challenge =>
    property challenge "sessionId"

/-- The approval is for the action, the user and the session that the challenge was created for. -/
def ApprovedFor (creation : Creation) (redis : Redis) (approved : ApprovedAction) : Prop :=
  approved.action = creation.action ∧ approved.userId = creation.userId ∧
    storedSession redis approved.challengeId = some (.str creation.sessionId)

/-- The record is accepted: no marker stands in its way, and it passes the checks. -/
def Accepted (flow : ApprovalFlow) (challengeId userId signedApproval : String) (now : ℤ)
    (redis : Redis) (challenge : JsonValue) : Prop :=
  redis.get (consumedKey challengeId) = none ∧
    flow.Passes challengeId userId signedApproval now (redis.get (challengeKey challengeId)) challenge

/-- The payload of the record still holds the action, and the record the session; or the payload is
of no use at all. -/
def PayloadIntact (creation : Creation) (challenge : JsonValue) : Prop :=
  ∀ action, parseJson (coerce (property challenge "actionPayload")) = some action → action ≠ .null →
    action = creation.action ∧ property challenge "sessionId" = some (.str creation.sessionId)

theorem approve_eq_ok {challengeId userId approvedAt : String} {challenge : JsonValue}
    {approved : ApprovedAction} :
    ApprovalFlow.approve challengeId userId approvedAt challenge = .ok approved ↔
      ∃ action, parseJson (coerce (property challenge "actionPayload")) = some action ∧
        action ≠ .null ∧ approved = ⟨challengeId, userId, action, approvedAt⟩ := by
  unfold ApprovalFlow.approve
  split
  · rename_i hparse
    simp [hparse]
  · rename_i hparse
    simp [hparse]
  · rename_i action hnull hparse
    rw [hparse]
    constructor
    · intro h
      exact ⟨action, rfl, hnull, (Except.ok.inj h).symm⟩
    · rintro ⟨_, ⟨⟩, -, rfl⟩
      rfl

theorem submitApproval_eq_ok {flow : ApprovalFlow} {challengeId userId signedApproval : String} {now : ℤ}
    {approvedAt : String} {redis : Redis} {approved : ApprovedAction} :
    (flow.submitApproval challengeId userId signedApproval now approvedAt redis).1 = .ok approved ↔
      ∃ challenge, Accepted flow challengeId userId signedApproval now redis challenge ∧
        ApprovalFlow.approve challengeId userId approvedAt challenge = .ok approved := by
  unfold ApprovalFlow.submitApproval Accepted
  simp only [← ApprovalFlow.examine_eq_passes]
  cases redis.get (consumedKey challengeId) with
  | some marker => simp
  | none =>
    cases flow.examine challengeId userId signedApproval now (redis.get (challengeKey challengeId)) with
    | throws error => simp
    | expired => simp
    | passes challenge => simp

theorem ApprovalChallenge.json_wellFormed (c : ApprovalChallenge) : c.json.WellFormed := by
  refine .obj (by simp) ?_
  simp only [List.forall_mem_cons, List.not_mem_nil, false_implies, implies_true, and_true]
  exact ⟨.str _, .str _, .str _, .str _, .str _, .str _, .str _⟩

theorem passes_json (flow : ApprovalFlow) (c : ApprovalChallenge) {challengeId : String} {now : ℤ}
    (hfresh : (flow.getTime (some (.str c.expiresAt))).any (· < now) = false) :
    flow.Passes challengeId c.userId (flow.computeApprovalSignature challengeId c.userId) now
      (some c.json.text) c.json where
  parsed := parseJson_text c.json_wellFormed
  notNull := JsonValue.noConfusion
  fresh := hfresh
  owned := rfl
  signed := rfl

/-- The payload of a created challenge is intact, whatever else its record says. -/
theorem payloadIntact_of_created {creation : Creation} (hwf : creation.action.WellFormed)
    {c : ApprovalChallenge} (hpayload : c.actionPayload = String.ofList creation.action.text)
    (hsession : c.sessionId = creation.sessionId) : PayloadIntact creation c.json := by
  intro action hparse _
  have hcoerce : coerce (property c.json "actionPayload") = creation.action.text := by
    show c.actionPayload.toList = creation.action.text
    rw [hpayload, String.toList_ofList]
  rw [hcoerce, parseJson_text hwf] at hparse
  refine ⟨(Option.some.inj hparse).symm, ?_⟩
  rw [← hsession]
  rfl

/-! ## A challenge, and a record with another payload -/

def testChallengeId : String := "550e8400-e29b-41d4-a716-446655440000"

def cancelOrder (instrument : String) : JsonValue :=
  .obj [("type", .str "CancelOrder"), ("clientOrderId", .str "550e8400-e29b-41d4-a716-446655440001"),
    ("instrument", .str instrument), ("strategyId", .str "strat-1")]

theorem cancelOrder_wellFormed (instrument : String) : (cancelOrder instrument).WellFormed := by
  refine .obj (by simp) ?_
  simp only [List.forall_mem_cons, List.not_mem_nil, false_implies, implies_true, and_true]
  exact ⟨.str _, .str _, .str _, .str _⟩

/-- The digests that the creation and the approval of the test challenge ask for. -/
def approvalHmac : Hmac := tableHmac
  [("550e8400-e29b-41d4-a716-446655440000:user-1:session-1:\x7b\"type\":\"CancelOrder\",\"clientOrderId\":\"550e8400-e29b-41d4-a716-446655440001\",\"instrument\":\"BTC-USDT\",\"strategyId\":\"strat-1\"\x7d",
      "e6e49c9f33830960a61246a42787529cf902da3b023f38b072d20c01c4bc524e"),
    ("approve:550e8400-e29b-41d4-a716-446655440000:user-1",
      "8a726a0006bf63e79fad4e67834ef2ee6cbee09a4db3067e8a2032bad62ab955")]

def testFlow : ApprovalFlow where
  hmac := approvalHmac
  hmacChainSecret := "a]9$Kz!mP2wQ8rT5vX0bN3gF6jL1dH4e"
  getTime
    | some (.str value) => if value = "2026-04-12T10:05:00.000Z" then some 1775988300000 else none
    | _ => none

theorem approvalHmac_injective (secret : String) : (approvalHmac secret).Injective :=
  tableHmac_injective (by decide +kernel) (by decide +kernel) secret

theorem testFlow_injective : (testFlow.hmac testFlow.hmacChainSecret).Injective := by
  simp only [testFlow]
  exact approvalHmac_injective _

theorem testFlow_getTime :
    testFlow.getTime (some (.str "2026-04-12T10:05:00.000Z")) = some 1775988300000 := by
  simp only [testFlow, if_true]

theorem testFlow_issued (userId : String)
    (h : testFlow.computeApprovalSignature testChallengeId "user-1" =
      testFlow.computeApprovalSignature testChallengeId userId) : userId = "user-1" := by
  have huser := (ApprovalFlow.computeApprovalSignature_inj testFlow_injective).mp h
  exact huser.symm

def testCreation (instrument : String) : Creation := ⟨cancelOrder instrument, "user-1", "session-1"⟩

/-- The record that `createChallenge` stores, with the payload of an order of this instrument. -/
def testChallenge (instrument : String) : ApprovalChallenge :=
  { testFlow.newChallenge (cancelOrder "BTC-USDT") "user-1" "session-1" testChallengeId
      "2026-04-12T10:00:00.000Z" "2026-04-12T10:05:00.000Z" with
    actionPayload := String.ofList (cancelOrder instrument).text }

def testRedis (instrument : String) : Redis :=
  KeyValue.set [] (challengeKey testChallengeId) (testChallenge instrument).json.text

theorem testChallenge_created :
    testChallenge "BTC-USDT" = testFlow.newChallenge (cancelOrder "BTC-USDT") "user-1" "session-1"
      testChallengeId "2026-04-12T10:00:00.000Z" "2026-04-12T10:05:00.000Z" := by
  rw [testChallenge, ← ApprovalFlow.newChallenge_payload]

def testSubmission (redis : Redis) : Except SubmitError ApprovedAction :=
  (testFlow.submitApproval testChallengeId "user-1"
    (testFlow.computeApprovalSignature testChallengeId "user-1") 1775988060000
    "2026-04-12T10:01:00.000Z" redis).1

theorem testChallenge_accepted (instrument : String) :
    Accepted testFlow testChallengeId "user-1" (testFlow.computeApprovalSignature testChallengeId "user-1")
      1775988060000 (testRedis instrument) (testChallenge instrument).json := by
  refine ⟨?_, ?_⟩
  · rw [testRedis, KeyValue.get_set_of_ne (consumedKey_ne_challengeKey _ _)]
    rfl
  · rw [testRedis, KeyValue.get_set_self]
    have hexpiresAt : (testChallenge instrument).expiresAt = "2026-04-12T10:05:00.000Z" := rfl
    refine passes_json testFlow (testChallenge instrument) ?_
    rw [hexpiresAt, testFlow_getTime]
    decide

theorem testChallenge_approved (instrument approvedAt : String) :
    ApprovalFlow.approve testChallengeId "user-1" approvedAt (testChallenge instrument).json =
      .ok ⟨testChallengeId, "user-1", cancelOrder instrument, approvedAt⟩ := by
  refine approve_eq_ok.mpr ⟨cancelOrder instrument, ?_, JsonValue.noConfusion, rfl⟩
  have hcoerce : coerce (property (testChallenge instrument).json "actionPayload") =
      (cancelOrder instrument).text := String.toList_ofList
  rw [hcoerce, parseJson_text (cancelOrder_wellFormed instrument)]

theorem testSubmission_approves (instrument : String) :
    testSubmission (testRedis instrument) =
      .ok ⟨testChallengeId, "user-1", cancelOrder instrument, "2026-04-12T10:01:00.000Z"⟩ := by
  rw [testSubmission]
  exact submitApproval_eq_ok.mpr
    ⟨_, testChallenge_accepted instrument, testChallenge_approved instrument _⟩

theorem testChallenge_intact (instrument : String) :
    PayloadIntact (testCreation instrument) (testChallenge instrument).json :=
  payloadIntact_of_created (cancelOrder_wellFormed instrument) rfl rfl

end SuperAi.Confirmation
