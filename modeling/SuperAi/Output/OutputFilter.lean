import SuperAi.Foundations.StepSystem
import SuperAi.Output.ActionAllowlist
import SuperAi.Output.DuplicateDetector

/-! # The output filter

`OutputFilter.process` (`output/output.filter.ts`): allowlist, sanity check and duplicate check of one output of
the model. The duplicate check leaves its mark also for an order that the sanity check has just refused, so
that the order is a duplicate of itself when it comes again (`refused_marks`). In runs in which no unmarked
order is refused, duplicates are those of orders that were allowed (`duplicates_of_allowed`). Log lines and
events are left out. The value that a decimal of JSON has as a number is a parameter.
-/
namespace SuperAi.Output
open SuperAi.Foundations SuperAi.Foundations.Schema SuperAi.Risk
set_option autoImplicit false

/-! ## Actions of JSON values -/

def textAt (data : JsonValue) (key : String) : String :=
  match property data key with
  | some (.str s) => s
  | _ => ""

def numberAt (double : JsNumber → ℚ) (data : JsonValue) (key : String) : Option ℚ :=
  match property data key with
  | some (.num x) => some (double x)
  | _ => none

def readSide (text : String) : OrderSide := if text = "BUY" then .BUY else .SELL

def readOrderType (text : String) : Risk.OrderType :=
  if text = "MARKET" then .MARKET
  else if text = "LIMIT" then .LIMIT
  else if text = "STOP" then .STOP
  else .STOP_LIMIT

/-- The action that a value is which has passed the schemas: what these ask for is there. -/
def readAction (double : JsNumber → ℚ) (data : JsonValue) : AgentAction :=
  match textAt data "type" with
  | "PlaceOrder" =>
    .PlaceOrder
      { instrument := textAt data "instrument"
        side := readSide (textAt data "side")
        orderType := readOrderType (textAt data "orderType")
        quantity := (numberAt double data "quantity").getD 0
        price := numberAt double data "price"
        strategyId := textAt data "strategyId"
        clientOrderId := textAt data "clientOrderId" }
  | "CancelOrder" =>
    .CancelOrder
      { clientOrderId := textAt data "clientOrderId"
        instrument := textAt data "instrument"
        strategyId := textAt data "strategyId" }
  | "ModifyOrder" =>
    .ModifyOrder
      { clientOrderId := textAt data "clientOrderId"
        instrument := textAt data "instrument"
        newQuantity := numberAt double data "newQuantity"
        newPrice := numberAt double data "newPrice"
        strategyId := textAt data "strategyId" }
  | "ClosePosition" => .ClosePosition
  | "RequestHumanReview" => .RequestHumanReview
  | _ => .NoAction

/-! ## The filter -/

inductive BlockReason
  | sanity (failure : SanityFailure)
  | duplicate (text : String)
  deriving DecidableEq, Repr

structure FilteredOutput where
  action : AgentAction
  allowed : Bool
  confirmationRequired : Bool
  blockReasons : List BlockReason
  deriving DecidableEq, Repr

/-- `issues` and `market` are the messages of the schema library and the prices of the market data service. -/
structure OutputFilter where
  issues : JsonValue → List String
  double : JsNumber → ℚ
  sanityChecker : SanityCheckerConfig
  duplicateDetector : DuplicateDetector

def duplicateReason (dupResult : DuplicateCheckResult) : List BlockReason :=
  if dupResult.isDuplicate then
    [.duplicate ("Duplicate order detected (original: " ++ dupResult.originalOrderId.getD "unknown" ++ ")")]
  else []

namespace OutputFilter
variable (filter : OutputFilter)

def process {σ : Type} (redis : DedupAdapter σ) (market : MarketDataService) (now : ℤ) (store : σ)
    (rawLlmOutput : JsonValue) (portfolio : PortfolioSnapshot) : Except Thrown FilteredOutput × σ :=
  match ActionAllowlist.validate filter.issues rawLlmOutput with
  | .error thrown => (.error thrown, store)
  | .ok data =>
    let action := readAction filter.double data
    let failures := SanityChecker.check filter.sanityChecker market action portfolio
    let dupCheck := filter.duplicateDetector.check redis now store action
    let blockReasons := failures.map BlockReason.sanity ++ duplicateReason dupCheck.1
    match ActionAllowlist.requiresConfirmation data with
    | some confirmationRequired =>
      (.ok
        { action := action
          allowed := blockReasons.isEmpty
          confirmationRequired := confirmationRequired
          blockReasons := blockReasons }, dupCheck.2)
    | none => (.error .typeError, dupCheck.2)

/-- The order that an output of the model places, if it passes the allowlist. -/
def placedOrder (raw : JsonValue) : Option PlaceOrderAction :=
  match ActionAllowlist.validate filter.issues raw with
  | .error _ => none
  | .ok data =>
    match readAction filter.double data with
    | .PlaceOrder order => some order
    | _ => none

end OutputFilter

def isAllowed : Except Thrown FilteredOutput → Bool
  | .ok output => output.allowed
  | .error _ => false

def BlockReason.isDuplicate : BlockReason → Bool
  | .duplicate _ => true
  | .sanity _ => false

def blockedAsDuplicate : Except Thrown FilteredOutput → Bool
  | .ok output => output.blockReasons.any BlockReason.isDuplicate
  | .error _ => false

/-! ## Runs of calls -/

/-- A call, at a time in milliseconds, and what the market data service answers in it. -/
structure FilterCall where
  now : ℤ
  rawLlmOutput : JsonValue
  portfolio : PortfolioSnapshot
  market : MarketDataService

/-- The marks, and the calls so far with what they returned. -/
structure FilterState where
  store : ExpiringStore String String := []
  log : List (FilterCall × Except Thrown FilteredOutput) := []

def filterSystem (filter : OutputFilter) : StepSystem FilterState FilterCall where
  step s call :=
    let result := filter.process expiringAdapter call.market call.now s.store call.rawLlmOutput call.portfolio
    some { store := result.2, log := s.log ++ [(call, result.1)] }

section
variable (filter : OutputFilter)

/-- An order with the same key was returned as allowed less than the window before. -/
def AllowedTwin (log : List (FilterCall × Except Thrown FilteredOutput)) (now : ℤ) (order : PlaceOrderAction) : Prop :=
  ∃ earlier ∈ log, isAllowed earlier.2 = true ∧ now < earlier.1.now + filter.duplicateDetector.windowMs ∧
    ∃ twin ∈ filter.placedOrder earlier.1.rawLlmOutput,
      filter.duplicateDetector.computeDedupKey twin = filter.duplicateDetector.computeDedupKey order

def passesSanity (call : FilterCall) (order : PlaceOrderAction) : Bool :=
  (SanityChecker.check filter.sanityChecker call.market (.PlaceOrder order) call.portfolio).isEmpty

/-- Only a twin that was allowed makes an order a duplicate, and an order without one that passes the sanity
check is allowed. -/
structure TreatedByTwins (log : List (FilterCall × Except Thrown FilteredOutput)) (call : FilterCall)
    (result : Except Thrown FilteredOutput) : Prop where
  twin : ∀ order ∈ filter.placedOrder call.rawLlmOutput, blockedAsDuplicate result = true →
    AllowedTwin filter log call.now order
  resubmitted : ∀ order ∈ filter.placedOrder call.rawLlmOutput, passesSanity filter call order = true →
    ¬ AllowedTwin filter log call.now order → isAllowed result = true

/-- Every call of the log, by the calls before it. -/
def DuplicatesOfAllowed (log : List (FilterCall × Except Thrown FilteredOutput)) : Prop :=
  ∀ before entry after, log = before ++ entry :: after → TreatedByTwins filter before entry.1 entry.2

/-- An order whose key carries no mark passes the sanity check. -/
def UnmarkedPasses (s : FilterState) (call : FilterCall) : Prop :=
  ∀ order ∈ filter.placedOrder call.rawLlmOutput,
    s.store.read call.now (filter.duplicateDetector.redisKey order) = none → passesSanity filter call order = true

instance (s : FilterState) (call : FilterCall) : Decidable (UnmarkedPasses filter s call) :=
  inferInstanceAs (Decidable (∀ order ∈ filter.placedOrder call.rawLlmOutput,
    s.store.read call.now (filter.duplicateDetector.redisKey order) = none → passesSanity filter call order = true))

/-- Every mark is that of an order that was allowed, and lasts for the window. -/
def MarksOfAllowed (s : FilterState) : Prop :=
  ∀ order entry, KeyValue.get s.store (filter.duplicateDetector.redisKey order) = some entry →
    ∃ earlier ∈ s.log, isAllowed earlier.2 = true ∧
      entry.expiresAt = earlier.1.now + filter.duplicateDetector.windowMs ∧
      ∃ twin ∈ filter.placedOrder earlier.1.rawLlmOutput,
        filter.duplicateDetector.computeDedupKey twin = filter.duplicateDetector.computeDedupKey order

end

/-! ## What one call does -/

namespace OutputFilter
variable {filter : OutputFilter} {raw : JsonValue} {order : PlaceOrderAction} {σ : Type} (redis : DedupAdapter σ)
  (market : MarketDataService) (now : ℤ) (store : σ) (portfolio : PortfolioSnapshot)

/-- The type that a value had is the one that the schema for it passes on. -/
theorem textAt_output {schema : RefinedSchema} (h : schemaFor raw = some schema) :
    ∃ actionType entry, ALLOWLIST.get actionType = some entry ∧ entry.schema = schema ∧
      textAt (schema.output raw) "type" = actionType := by
  obtain ⟨actionType, htype, hentry⟩ := Option.bind_eq_some_iff.mp h
  obtain ⟨entry, hget, rfl⟩ := Option.map_eq_some_iff.mp hentry
  refine ⟨actionType, entry, hget, rfl, ?_⟩
  have hmem := KeyValue.mem_of_get hget
  have hproperty : property (entry.schema.output raw) "type" =
      (property raw "type").map (Field.literal actionType).output :=
    get_outputs (property raw) (ActionAllowlist.nodup_fields _ hmem) (ActionAllowlist.type_field _ hmem)
  rw [ActionAllowlist.property_of_actionTypeOf htype] at hproperty
  unfold textAt
  rw [hproperty]
  rfl

/-- An order is placed only by a value that the schema of orders accepts. -/
theorem accepts_of_placedOrder (h : filter.placedOrder raw = some order) :
    PlaceOrderActionSchema.accepts raw = true ∧
      readAction filter.double (PlaceOrderActionSchema.output raw) = .PlaceOrder order := by
  unfold placedOrder at h
  cases hschema : schemaFor raw with
  | none =>
    obtain ⟨-, -, herror⟩ | ⟨-, error, herror⟩ := ActionAllowlist.validate_of_no_schema filter.issues hschema
    all_goals
      rw [herror] at h
      cases h
  | some schema =>
    obtain ⟨haccepts, hvalidate⟩ | ⟨-, error, herror⟩ := ActionAllowlist.validate_of_schema filter.issues hschema
    · rw [hvalidate] at h
      dsimp only at h
      obtain ⟨actionType, entry, hget, rfl, htext⟩ := textAt_output hschema
      have hmem := KeyValue.mem_of_get hget
      simp only [ALLOWLIST, List.mem_cons, Prod.mk.injEq, List.not_mem_nil, or_false] at hmem
      rcases hmem with ⟨-, rfl⟩ | ⟨rfl, -⟩ | ⟨rfl, -⟩ | ⟨rfl, -⟩ | ⟨rfl, -⟩ | ⟨rfl, -⟩
      · refine ⟨haccepts, ?_⟩
        cases haction : readAction filter.double (PlaceOrderActionSchema.output raw) with
        | PlaceOrder placed =>
          simp only [haction, Option.some.injEq] at h
          rw [h]
        | _ => simp [haction] at h
      all_goals simp [readAction, htext] at h
    · rw [herror] at h
      cases h

theorem accepts_string {checks : List StringCheck} {v : Option JsonValue}
    (h : (Field.string checks).accepts v = true) : ∃ text, v = some (.str text) := by
  cases v with
  | none => cases h
  | some v =>
    cases v with
    | str text => exact ⟨text, rfl⟩
    | _ => cases h

theorem accepts_positiveNumber {v : Option JsonValue} (h : Field.positiveNumber.accepts v = true) :
    ∃ x, v = some (.num x) := by
  cases v with
  | none => cases h
  | some v =>
    cases v with
    | num x => exact ⟨x, rfl⟩
    | _ => cases h

/-- What is read of an order is in the value that places it. -/
theorem placedOrder_fields (h : filter.placedOrder raw = some order) :
    property raw "instrument" = some (.str order.instrument) ∧
      property raw "clientOrderId" = some (.str order.clientOrderId) ∧
      ∃ x : JsNumber, property raw "quantity" = some (.num x) ∧ order.quantity = filter.double x := by
  obtain ⟨haccepts, haction⟩ := accepts_of_placedOrder h
  have hsame : ∀ key ∈ PlaceOrderActionSchema.fields.map Prod.fst,
      property (PlaceOrderActionSchema.output raw) key = property raw key := fun key hkey =>
    ObjectSchema.property_output raw (by decide +kernel) (by decide +kernel) hkey
  have hfield : ∀ field ∈ PlaceOrderActionSchema.fields, field.2.accepts (property raw field.1) = true := by
    intro field hmem
    cases raw with
    | obj ms => exact List.all_eq_true.mp haccepts field hmem
    | _ => cases haccepts
  obtain ⟨instrument, hinstrument⟩ := accepts_string
    (hfield ("instrument", nonemptyString) (by simp [PlaceOrderActionSchema]))
  obtain ⟨clientOrderId, hclientOrderId⟩ := accepts_string
    (hfield ("clientOrderId", uuidString) (by simp [PlaceOrderActionSchema]))
  obtain ⟨x, hquantity⟩ := accepts_positiveNumber
    (hfield ("quantity", .positiveNumber) (by simp [PlaceOrderActionSchema]))
  have htype : textAt (PlaceOrderActionSchema.output raw) "type" = "PlaceOrder" := by
    have hliteral := hfield ("type", .literal "PlaceOrder") (by simp [PlaceOrderActionSchema])
    unfold textAt
    rw [hsame "type" (by decide +kernel)]
    cases hproperty : property raw "type" with
    | none => simp [hproperty, Field.accepts] at hliteral
    | some v =>
      cases v with
      | str text => simpa [hproperty, Field.accepts] using hliteral
      | _ => simp [hproperty, Field.accepts] at hliteral
  simp only [readAction, htype, AgentAction.PlaceOrder.injEq] at haction
  subst haction
  refine ⟨?_, ?_, x, hquantity, ?_⟩
  · simp [textAt, hsame "instrument" (by decide +kernel), hinstrument]
  · simp [textAt, hsame "clientOrderId" (by decide +kernel), hclientOrderId]
  · simp [numberAt, hsame "quantity" (by decide +kernel), hquantity]

/-- Without an order there is no duplicate and no mark. -/
theorem process_of_no_order (h : filter.placedOrder raw = none) :
    blockedAsDuplicate (filter.process redis market now store raw portfolio).1 = false ∧
      (filter.process redis market now store raw portfolio).2 = store := by
  unfold placedOrder at h
  unfold process
  cases hvalidate : ActionAllowlist.validate filter.issues raw with
  | error thrown => exact ⟨rfl, rfl⟩
  | ok data =>
    rw [hvalidate] at h
    dsimp only at h ⊢
    have hother : ∀ failures : List SanityFailure,
        (failures.map BlockReason.sanity).any BlockReason.isDuplicate = false := by
      intro failures
      simp [BlockReason.isDuplicate]
    cases haction : readAction filter.double data with
    | PlaceOrder order =>
      rw [haction] at h
      cases h
    | _ =>
      cases ActionAllowlist.requiresConfirmation data with
      | none => exact ⟨rfl, rfl⟩
      | some confirmationRequired =>
        simp [DuplicateDetector.check, duplicateReason, blockedAsDuplicate, hother]

/-- An order that is placed is allowed if the sanity check passes and no mark is found, is a duplicate if one is,
and otherwise leaves one. -/
theorem process_of_order (h : filter.placedOrder raw = some order) :
    let found := redis.get store now (filter.duplicateDetector.redisKey order)
    let failures := SanityChecker.check filter.sanityChecker market (.PlaceOrder order) portfolio
    isAllowed (filter.process redis market now store raw portfolio).1 = (failures.isEmpty && found.isNone) ∧
      blockedAsDuplicate (filter.process redis market now store raw portfolio).1 = found.isSome ∧
      (filter.process redis market now store raw portfolio).2 =
        match found with
        | some _ => store
        | none =>
          redis.set store now (filter.duplicateDetector.redisKey order) order.clientOrderId
            filter.duplicateDetector.config.dedupWindowSeconds := by
  dsimp only
  unfold placedOrder at h
  unfold process
  cases hvalidate : ActionAllowlist.validate filter.issues raw with
  | error thrown =>
    rw [hvalidate] at h
    cases h
  | ok data =>
    rw [hvalidate] at h
    dsimp only at h ⊢
    obtain ⟨confirmationRequired, hconfirm⟩ :=
      Option.isSome_iff_exists.mp (ActionAllowlist.requiresConfirmation_of_ok hvalidate)
    cases haction : readAction filter.double data with
    | PlaceOrder placed =>
      rw [haction] at h
      obtain rfl := Option.some.inj h
      cases hfound : redis.get store now (filter.duplicateDetector.redisKey placed) with
      | none =>
        simp [hconfirm, DuplicateDetector.check, hfound, duplicateReason, isAllowed, blockedAsDuplicate,
          BlockReason.isDuplicate]
      | some existing =>
        simp [hconfirm, DuplicateDetector.check, hfound, duplicateReason, isAllowed, blockedAsDuplicate,
          BlockReason.isDuplicate]
    | _ =>
      rw [haction] at h
      cases h

end OutputFilter

/-! ## Duplicates of allowed orders -/

section
variable {filter : OutputFilter} {s s' : FilterState} {call : FilterCall}

theorem AllowedTwin.snoc {log : List (FilterCall × Except Thrown FilteredOutput)} {now : ℤ} {order : PlaceOrderAction}
    (h : AllowedTwin filter log now order) (entry : FilterCall × Except Thrown FilteredOutput) :
    AllowedTwin filter (log ++ [entry]) now order := by
  obtain ⟨earlier, hmem, hrest⟩ := h
  exact ⟨earlier, List.mem_append_left _ hmem, hrest⟩

theorem allowedTwin_of_read {order : PlaceOrderAction} {existing : String} (h : MarksOfAllowed filter s)
    (hread : s.store.read call.now (filter.duplicateDetector.redisKey order) = some existing) :
    AllowedTwin filter s.log call.now order := by
  obtain ⟨entry, hget, htime⟩ := Option.bind_eq_some_iff.mp hread
  obtain ⟨earlier, hmem, hallowed, hexpires, htwin⟩ := h order entry hget
  refine ⟨earlier, hmem, hallowed, ?_, htwin⟩
  rw [← hexpires]
  exact (Option.ite_none_right_eq_some.mp htime).1

theorem treatedByTwins_step (h : MarksOfAllowed filter s) :
    TreatedByTwins filter s.log call
      (filter.process expiringAdapter call.market call.now s.store call.rawLlmOutput call.portfolio).1 := by
  constructor
  · intro order horder hduplicate
    obtain ⟨-, hblocked, -⟩ := OutputFilter.process_of_order expiringAdapter call.market call.now s.store
      call.portfolio (Option.mem_def.mp horder)
    rw [hblocked] at hduplicate
    obtain ⟨existing, hread⟩ := Option.isSome_iff_exists.mp hduplicate
    exact allowedTwin_of_read h hread
  · intro order horder hpasses hno
    obtain ⟨hallowed, -, -⟩ := OutputFilter.process_of_order expiringAdapter call.market call.now s.store
      call.portfolio (Option.mem_def.mp horder)
    rw [hallowed]
    cases hread : s.store.read call.now (filter.duplicateDetector.redisKey order) with
    | none => exact Bool.and_eq_true_iff.mpr ⟨hpasses, congrArg Option.isNone hread⟩
    | some existing => exact absurd (allowedTwin_of_read h hread) hno

theorem marksOfAllowed_step (h : MarksOfAllowed filter s) (hguard : UnmarkedPasses filter s call)
    (hstep : (filterSystem filter).step s call = some s') : MarksOfAllowed filter s' := by
  obtain rfl := Option.some.inj hstep
  have hkept : ∀ result, MarksOfAllowed filter { s with log := s.log ++ [(call, result)] } := by
    intro result order entry hget
    obtain ⟨earlier, hmem, hrest⟩ := h order entry hget
    exact ⟨earlier, List.mem_append_left _ hmem, hrest⟩
  cases horder : filter.placedOrder call.rawLlmOutput with
  | none =>
    obtain ⟨-, hstore⟩ := OutputFilter.process_of_no_order expiringAdapter call.market call.now s.store
      call.portfolio horder
    rw [hstore]
    exact hkept _
  | some order =>
    obtain ⟨hallowed, -, hstore⟩ := OutputFilter.process_of_order expiringAdapter call.market call.now s.store
      call.portfolio horder
    cases hread : s.store.read call.now (filter.duplicateDetector.redisKey order) with
    | some existing =>
      have hfound : expiringAdapter.get s.store call.now (filter.duplicateDetector.redisKey order) = some existing :=
        hread
      rw [hfound] at hstore
      dsimp only at hstore ⊢
      rw [hstore]
      exact hkept _
    | none =>
      have hfound : expiringAdapter.get s.store call.now (filter.duplicateDetector.redisKey order) = none := hread
      have hpasses := hguard order horder hread
      rw [hfound] at hstore hallowed
      dsimp only at hstore ⊢
      rw [hstore]
      intro other entry hget
      by_cases hkey : filter.duplicateDetector.redisKey other = filter.duplicateDetector.redisKey order
      · -- The mark is the one that this call leaves.
        rw [hkey] at hget
        obtain rfl := Option.some.inj (hget.symm.trans (KeyValue.get_set_self _ _ _))
        refine ⟨_, List.mem_append_right _ (List.mem_singleton.mpr rfl), ?_, rfl, order, horder,
          (DuplicateDetector.redisKey_eq_iff.mp hkey).symm⟩
        rw [hallowed]
        exact Bool.and_eq_true_iff.mpr ⟨hpasses, rfl⟩
      · exact hkept _ other entry (by
          rw [← hget]
          exact (KeyValue.get_set_of_ne hkey).symm)

theorem duplicatesOfAllowed_snoc {log : List (FilterCall × Except Thrown FilteredOutput)}
    {result : Except Thrown FilteredOutput} (h : DuplicatesOfAllowed filter log)
    (hlast : TreatedByTwins filter log call result) : DuplicatesOfAllowed filter (log ++ [(call, result)]) := by
  intro before entry after hsplit
  induction after using List.reverseRecOn with
  | nil =>
    obtain ⟨rfl, hentry⟩ := List.append_inj' hsplit rfl
    obtain rfl := (List.cons.inj hentry).1
    exact hlast
  | append_singleton after last _ =>
    rw [← List.cons_append, ← List.append_assoc] at hsplit
    exact h before entry after (List.append_inj' hsplit rfl).1

/-- **Duplicates are those of allowed orders.** In every run from an empty store in which each order that
carries no mark passes the sanity check, a call blocks an order as a duplicate only if one with the same key was
allowed within the window before, and an order without such a twin that passes the sanity check is allowed. -/
theorem duplicates_of_allowed (filter : OutputFilter) {calls : List FilterCall} {t : FilterState}
    (h : (filterSystem filter).GuardedRun (UnmarkedPasses filter) {} calls t) : DuplicatesOfAllowed filter t.log := by
  have hinvariant : MarksOfAllowed filter t ∧ DuplicatesOfAllowed filter t.log := by
    refine h.invariant (I := fun s => MarksOfAllowed filter s ∧ DuplicatesOfAllowed filter s.log) ?_ ⟨?_, ?_⟩
    · rintro s call s' ⟨hmarks, hlog⟩ hguard hstep
      refine ⟨marksOfAllowed_step hmarks hguard hstep, ?_⟩
      obtain rfl := Option.some.inj hstep
      exact duplicatesOfAllowed_snoc hlog (treatedByTwins_step hmarks)
    · intro order entry hget
      cases hget
    · intro before entry after hsplit
      simp at hsplit
  exact hinvariant.2

/-! ## Orders that were refused -/

/-- An order without a mark is a duplicate when it comes again within the window, whatever the first call said of
it. -/
theorem second_is_duplicate (filter : OutputFilter) (s : FilterState) (call next : FilterCall)
    {order twin : PlaceOrderAction} (hstep : (filterSystem filter).step s call = some s')
    (horder : filter.placedOrder call.rawLlmOutput = some order)
    (hunmarked : s.store.read call.now (filter.duplicateDetector.redisKey order) = none)
    (htwin : filter.placedOrder next.rawLlmOutput = some twin)
    (hkey : filter.duplicateDetector.computeDedupKey twin = filter.duplicateDetector.computeDedupKey order)
    (htime : next.now < call.now + filter.duplicateDetector.windowMs) :
    blockedAsDuplicate (filter.process expiringAdapter next.market next.now s'.store next.rawLlmOutput
      next.portfolio).1 = true := by
  obtain rfl := Option.some.inj hstep
  obtain ⟨-, -, hstore⟩ := OutputFilter.process_of_order expiringAdapter call.market call.now s.store
    call.portfolio horder
  have hfound : expiringAdapter.get s.store call.now (filter.duplicateDetector.redisKey order) = none := hunmarked
  rw [hfound] at hstore
  obtain ⟨-, hblocked, -⟩ := OutputFilter.process_of_order expiringAdapter next.market next.now
    (filter.process expiringAdapter call.market call.now s.store call.rawLlmOutput call.portfolio).2
    next.portfolio htwin
  rw [hblocked, hstore, DuplicateDetector.redisKey_eq_iff.mpr hkey]
  have hmark : (s.store.setex call.now filter.duplicateDetector.windowMs
      (filter.duplicateDetector.redisKey order) order.clientOrderId).read next.now
      (filter.duplicateDetector.redisKey order) = some order.clientOrderId :=
    ExpiringStore.read_setex_self _ _ _ htime
  exact congrArg Option.isSome hmark

end

/-! ## An order that is refused and comes again -/

def limitOrder : JsonValue :=
  .obj [("type", .str "PlaceOrder"), ("instrument", .str "BTC-USDT"), ("side", .str "BUY"),
    ("orderType", .str "LIMIT"), ("quantity", .num (.ofInt 1)), ("price", .num (.ofInt 100)),
    ("strategyId", .str "grid"), ("clientOrderId", .str "00000000-0000-4000-8000-000000000001")]

def filterLimitedTo (portfolioNotionalLimit : ℚ) : OutputFilter where
  issues _ := []
  double := JsNumber.toRat
  sanityChecker := sanityLimitedTo portfolioNotionalLimit
  duplicateDetector := { sha256 := id, numberText := fun _ => "" }

def callWith (now : ℤ) (totalNotional : ℚ) : FilterCall where
  now := now
  rawLlmOutput := limitOrder
  portfolio := { positions := [], totalNotional := totalNotional, totalUnrealizedPnl := 0 }
  market := marketAt 100

theorem allowed_and_repeated : ∃ t,
    (filterSystem (filterLimitedTo 250)).run {} [callWith 0 0, callWith 1000 200] = some t ∧
      DuplicatesOfAllowed (filterLimitedTo 250) t.log := by
  have hfirst : UnmarkedPasses (filterLimitedTo 250) {} (callWith 0 0) := by decide +kernel
  refine ⟨_, rfl, duplicates_of_allowed _ (.cons hfirst rfl (.cons ?_ rfl (.nil _)))⟩
  decide +kernel

/-- The notional of the portfolio is too high for the first order. A second later it is not, and the order is a
duplicate of the one that was refused. -/
theorem refused_marks : ∃ (filter : OutputFilter) (calls : List FilterCall) (t : FilterState),
    (filterSystem filter).run {} calls = some t ∧ ¬ DuplicatesOfAllowed filter t.log := by
  refine ⟨filterLimitedTo 250, [callWith 0 200, callWith 1000 0], _, rfl, fun hall => ?_⟩
  obtain ⟨order, horder⟩ : ∃ order, (filterLimitedTo 250).placedOrder limitOrder = some order :=
    Option.isSome_iff_exists.mp (by decide +kernel)
  have hrefused : isAllowed ((filterLimitedTo 250).process expiringAdapter (marketAt 100) 0 [] limitOrder
      (callWith 0 200).portfolio).1 = false := by decide +kernel
  have hduplicate := second_is_duplicate (filterLimitedTo 250) {} (callWith 0 200) (callWith 1000 0) rfl horder rfl
    horder rfl (by decide)
  obtain ⟨earlier, hmem, hallowed, -⟩ := (hall [_] _ [] rfl).twin order horder hduplicate
  obtain rfl := List.mem_singleton.mp hmem
  exact absurd (hallowed.symm.trans hrefused) (by decide)

end SuperAi.Output
