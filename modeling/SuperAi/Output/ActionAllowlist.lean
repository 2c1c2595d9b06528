import SuperAi.Foundations.Schema

/-! # The action allowlist

`ActionAllowlist.validate` (`output/action.allowlist.ts`) on any JSON value, with the action schemas
(`types/actions.ts`). It parses with a union of the schemas without their refinements, and no refinement is
asked afterwards. So it decides what the schema registered for the type of an action says in exactly the cases in
which a value that has the fields of that schema also meets its refinements, apart from what JavaScript and
the schema library do to the keys `toString` and `__proto__` (`validates_iff`). Log lines and events are left
out; the library's messages are a parameter.
-/
namespace SuperAi.Output
open SuperAi.Foundations SuperAi.Foundations.Schema
set_option autoImplicit false

/-! ## Action schemas -/

def OrderSideSchema : Field := .nativeEnum ["BUY", "SELL"]

def OrderTypeSchema : Field := .nativeEnum ["MARKET", "LIMIT", "STOP", "STOP_LIMIT"]

/-- `z.string().min(1)` -/
def nonemptyString : Field := .string [.nonempty]

/-- `z.string().uuid()` -/
def uuidString : Field := .string [.uuid]

def equalsText (v : Option JsonValue) (text : String) : Bool :=
  match v with
  | some (.str s) => s == text
  | _ => false

def requiresPrice : Refinement where
  holds data :=
    if equalsText (property data "orderType") "LIMIT" || equalsText (property data "orderType") "STOP_LIMIT" then
      (property data "price").isSome
    else true
  message := "price is required for LIMIT and STOP_LIMIT orders"

def requiresStopPrice : Refinement where
  holds data :=
    if equalsText (property data "orderType") "STOP" || equalsText (property data "orderType") "STOP_LIMIT" then
      (property data "stopPrice").isSome
    else true
  message := "stopPrice is required for STOP and STOP_LIMIT orders"

def requiresChange : Refinement where
  holds data := (property data "newQuantity").isSome || (property data "newPrice").isSome
  message := "At least one of newQuantity or newPrice must be provided"

def PlaceOrderActionSchema : RefinedSchema where
  fields := [("type", .literal "PlaceOrder"), ("instrument", nonemptyString), ("side", OrderSideSchema),
    ("orderType", OrderTypeSchema), ("quantity", .positiveNumber), ("price", .optional .positiveNumber),
    ("stopPrice", .optional .positiveNumber), ("strategyId", nonemptyString), ("clientOrderId", uuidString)]
  refinements := [requiresPrice, requiresStopPrice]

def CancelOrderActionSchema : RefinedSchema where
  fields := [("type", .literal "CancelOrder"), ("clientOrderId", uuidString), ("instrument", nonemptyString),
    ("strategyId", nonemptyString)]

def ModifyOrderActionSchema : RefinedSchema where
  fields := [("type", .literal "ModifyOrder"), ("clientOrderId", uuidString), ("instrument", nonemptyString),
    ("newQuantity", .optional .positiveNumber), ("newPrice", .optional .positiveNumber),
    ("strategyId", nonemptyString)]
  refinements := [requiresChange]

def ClosePositionActionSchema : RefinedSchema where
  fields := [("type", .literal "ClosePosition"), ("instrument", nonemptyString), ("strategyId", nonemptyString)]

def RequestHumanReviewActionSchema : RefinedSchema where
  fields := [("type", .literal "RequestHumanReview"), ("reason", nonemptyString), ("context", .record),
    ("strategyId", nonemptyString)]

def NoActionSchema : RefinedSchema where
  fields := [("type", .literal "NoAction"), ("reason", nonemptyString)]

def PlaceOrderActionBaseSchema : ObjectSchema where
  fields := [("type", .literal "PlaceOrder"), ("instrument", nonemptyString), ("side", OrderSideSchema),
    ("orderType", OrderTypeSchema), ("quantity", .positiveNumber), ("price", .optional .positiveNumber),
    ("stopPrice", .optional .positiveNumber), ("strategyId", nonemptyString), ("clientOrderId", uuidString)]

def ModifyOrderActionBaseSchema : ObjectSchema where
  fields := [("type", .literal "ModifyOrder"), ("clientOrderId", uuidString), ("instrument", nonemptyString),
    ("newQuantity", .optional .positiveNumber), ("newPrice", .optional .positiveNumber),
    ("strategyId", nonemptyString)]

def actionOptions : List ObjectSchema :=
  [PlaceOrderActionBaseSchema, CancelOrderActionSchema.toObjectSchema, ModifyOrderActionBaseSchema,
    ClosePositionActionSchema.toObjectSchema, RequestHumanReviewActionSchema.toObjectSchema,
    NoActionSchema.toObjectSchema]

/-- `AgentActionSchema.safeParse` -/
def parseAgentAction (raw : JsonValue) : Option JsonValue := discriminatedUnion "type" actionOptions raw

/-! ## The allowlist -/

def AgentActionType : List String :=
  ["PlaceOrder", "CancelOrder", "ModifyOrder", "ClosePosition", "RequestHumanReview", "NoAction"]

structure AllowlistEntry where
  schema : RefinedSchema
  requiresConfirmation : Bool

def ALLOWLIST : KeyValue String AllowlistEntry :=
  [("PlaceOrder", ⟨PlaceOrderActionSchema, true⟩), ("CancelOrder", ⟨CancelOrderActionSchema, false⟩),
    ("ModifyOrder", ⟨ModifyOrderActionSchema, true⟩), ("ClosePosition", ⟨ClosePositionActionSchema, true⟩),
    ("RequestHumanReview", ⟨RequestHumanReviewActionSchema, false⟩), ("NoAction", ⟨NoActionSchema, false⟩)]

/-- `z.object({ type: z.string() })`; other keys are passed through and not used. -/
def RawLlmOutputSchema : ObjectSchema where
  fields := [("type", .string [])]

structure ActionBlockedError where
  message : String
  code : String := "ACTION_SANITY_CHECK_FAILED"
  context : List (String × JsonValue)

inductive Thrown
  | blocked (error : ActionBlockedError)
  | typeError

mutual

/-- `String(raw)` throws: an object with a `toString` of its own, which JSON cannot make a function, is the value
or is to be joined into it. -/
def throwsOnString : JsonValue → Bool
  | .obj ms => (KeyValue.get ms "toString").isSome
  | .arr es => anyThrowsOnString es
  | _ => false

def anyThrowsOnString : List JsonValue → Bool
  | [] => false
  | e :: es => throwsOnString e || anyThrowsOnString es

end

namespace ActionAllowlist

def isAllowedActionType (type : String) : Bool := AgentActionType.contains type

/-- The constructor of the error puts the first words. -/
def block (message : String) (context : List (String × JsonValue)) : Except Thrown JsonValue :=
  .error (.blocked { message := "Action blocked: " ++ message, context := context })

/-- `issues` are the messages of the schema library for a value that the union does not accept. -/
def validate (issues : JsonValue → List String) (raw : JsonValue) : Except Thrown JsonValue :=
  match RawLlmOutputSchema.accepts raw, property raw "type" with
  | true, some (.str actionType) =>
    if !isAllowedActionType actionType then
      block ("Action type '" ++ actionType ++ "' is not in the allow-list") [("actionType", .str actionType)]
    else
      match parseAgentAction raw with
      | some data => .ok data
      | none =>
        block ("Action validation failed: " ++ "; ".intercalate (issues raw)) [("actionType", .str actionType)]
  | _, _ =>
    if throwsOnString raw then .error .typeError
    else
      block "LLM output is not a valid object with a type field"
        [("raw", .str (String.ofList (coerce (some raw))))]

/-- `none` is the error of an action whose type has no entry. -/
def requiresConfirmation (action : JsonValue) : Option Bool :=
  match property action "type" with
  | some (.str actionType) => (ALLOWLIST.get actionType).map AllowlistEntry.requiresConfirmation
  | _ => none

end ActionAllowlist

/-! ## What the allowlist registers -/

/-- The type of the value, where it is an object with a string there. -/
def actionTypeOf (raw : JsonValue) : Option String :=
  match property raw "type" with
  | some (.str actionType) => some actionType
  | _ => none

def schemaFor (raw : JsonValue) : Option RefinedSchema :=
  (actionTypeOf raw).bind fun actionType => (ALLOWLIST.get actionType).map AllowlistEntry.schema

/-- The value satisfies the schema registered for its type, refinements included. -/
def InGrammar (raw : JsonValue) : Prop := ∃ schema ∈ schemaFor raw, (schema.safeParse raw).isSome = true

/-- `validate` returns the value's fields exactly for the values of the grammar, and blocks the others. -/
structure ValidatesGrammar (issues : JsonValue → List String) (raw : JsonValue) : Prop where
  returns : ∀ action, ActionAllowlist.validate issues raw = .ok action ↔
    ∃ schema ∈ schemaFor raw, (schema.safeParse raw).isSome = true ∧ action = schema.restrict raw
  blocks : ¬ InGrammar raw → ∃ error, ActionAllowlist.validate issues raw = .error (.blocked error)

/-- A value without a type is made a string, and a value with the fields of the schema for its type meets the
schema's refinements and has no field that a record changes. -/
structure Regular (raw : JsonValue) : Prop where
  printable : actionTypeOf raw = none → throwsOnString raw = false
  refined : ∀ schema ∈ schemaFor raw, schema.accepts raw = true → ∀ r ∈ schema.refinements, r.holds raw = true
  verbatim : ∀ schema ∈ schemaFor raw, schema.accepts raw = true → schema.Verbatim raw

namespace ActionAllowlist
variable {raw : JsonValue} {actionType : String} {schema : RefinedSchema}

theorem keys_allowlist : ALLOWLIST.map Prod.fst = AgentActionType := rfl

theorem options_eq : actionOptions = ALLOWLIST.map fun entry => entry.2.schema.toObjectSchema := rfl

theorem tag_allowlist : ∀ entry ∈ ALLOWLIST, entry.2.schema.tag "type" = some entry.1 := by
  simp [ALLOWLIST, ObjectSchema.tag, PlaceOrderActionSchema, CancelOrderActionSchema, ModifyOrderActionSchema,
    ClosePositionActionSchema, RequestHumanReviewActionSchema, NoActionSchema, KeyValue.get]

theorem isAllowedActionType_iff : isAllowedActionType actionType = true ↔ (ALLOWLIST.get actionType).isSome = true := by
  unfold isAllowedActionType
  rw [← keys_allowlist, List.contains_iff_mem, ← not_iff_not, Bool.not_eq_true, Option.isSome_eq_false_iff,
    Option.isNone_iff_eq_none, KeyValue.get_eq_none_iff]

/-- Options that are told apart by the keys of a map are found as its entries are. -/
theorem find?_entries {entries : KeyValue String AllowlistEntry}
    (htag : ∀ entry ∈ entries, entry.2.schema.tag "type" = some entry.1) (actionType : String) :
    ((entries.map fun entry => entry.2.schema.toObjectSchema).find? fun schema =>
      schema.tag "type" == some actionType) =
        (entries.get actionType).map fun entry => entry.schema.toObjectSchema := by
  induction entries with
  | nil => rfl
  | cons entry entries ih =>
    obtain ⟨hfirst, hrest⟩ := List.forall_mem_cons.mp htag
    rw [List.map_cons, KeyValue.get_cons]
    by_cases heq : actionType = entry.1
    · rw [List.find?_cons_of_pos (by simp [hfirst, heq]), if_pos heq]
      rfl
    · have hne : entry.1 ≠ actionType := Ne.symm heq
      rw [List.find?_cons_of_neg (by simpa [hfirst] using hne), if_neg heq]
      exact ih hrest

theorem property_of_actionTypeOf (h : actionTypeOf raw = some actionType) :
    property raw "type" = some (.str actionType) := by
  unfold actionTypeOf at h
  cases hproperty : property raw "type" with
  | none => simp [hproperty] at h
  | some v =>
    cases v <;> simp_all

theorem parseAgentAction_eq (h : schemaFor raw = some schema) :
    parseAgentAction raw = schema.toObjectSchema.safeParse raw := by
  obtain ⟨actionType, htype, hentry⟩ := Option.bind_eq_some_iff.mp h
  obtain ⟨entry, hget, rfl⟩ := Option.map_eq_some_iff.mp hentry
  unfold parseAgentAction discriminatedUnion
  rw [property_of_actionTypeOf htype]
  dsimp only
  rw [options_eq, find?_entries tag_allowlist, hget]
  rfl

/-- The refinements look at fields that every schema passes on. -/
theorem holds_output (h : schemaFor raw = some schema) :
    ∀ r ∈ schema.refinements, r.holds (schema.output raw) = r.holds raw := by
  obtain ⟨actionType, -, hentry⟩ := Option.bind_eq_some_iff.mp h
  obtain ⟨entry, hget, rfl⟩ := Option.map_eq_some_iff.mp hentry
  have hplace : ∀ key ∈ PlaceOrderActionSchema.fields.map Prod.fst,
      property (PlaceOrderActionSchema.output raw) key = property raw key := fun key hkey =>
    ObjectSchema.property_output raw (by decide +kernel) (by decide +kernel) hkey
  have hmodify : ∀ key ∈ ModifyOrderActionSchema.fields.map Prod.fst,
      property (ModifyOrderActionSchema.output raw) key = property raw key := fun key hkey =>
    ObjectSchema.property_output raw (by decide +kernel) (by decide +kernel) hkey
  have hmem := KeyValue.mem_of_get hget
  simp only [ALLOWLIST, List.mem_cons, Prod.mk.injEq, List.not_mem_nil, or_false] at hmem
  rcases hmem with ⟨-, rfl⟩ | ⟨-, rfl⟩ | ⟨-, rfl⟩ | ⟨-, rfl⟩ | ⟨-, rfl⟩ | ⟨-, rfl⟩
  · have horderType := hplace "orderType" (by decide +kernel)
    have hprice := hplace "price" (by decide +kernel)
    have hstopPrice := hplace "stopPrice" (by decide +kernel)
    intro r hr
    obtain rfl | rfl : r = requiresPrice ∨ r = requiresStopPrice := by
      simpa [PlaceOrderActionSchema] using hr
    · simp only [requiresPrice, horderType, hprice]
    · simp only [requiresStopPrice, horderType, hstopPrice]
  · simp [CancelOrderActionSchema]
  · have hquantity := hmodify "newQuantity" (by decide +kernel)
    have hprice := hmodify "newPrice" (by decide +kernel)
    intro r hr
    obtain rfl : r = requiresChange := by simpa [ModifyOrderActionSchema] using hr
    simp only [requiresChange, hquantity, hprice]
  · simp [ClosePositionActionSchema]
  · simp [RequestHumanReviewActionSchema]
  · simp [NoActionSchema]

theorem accepts_of_actionTypeOf (h : actionTypeOf raw = some actionType) : RawLlmOutputSchema.accepts raw = true := by
  have htype := property_of_actionTypeOf h
  cases raw with
  | obj ms =>
    have hget : KeyValue.get ms "type" = some (.str actionType) := htype
    simp [ObjectSchema.accepts, RawLlmOutputSchema, hget, Field.accepts]
  | _ => cases htype

variable {issues : JsonValue → List String}

theorem validate_of_type (h : actionTypeOf raw = some actionType) : validate issues raw =
    if !isAllowedActionType actionType then
      block ("Action type '" ++ actionType ++ "' is not in the allow-list") [("actionType", .str actionType)]
    else
      match parseAgentAction raw with
      | some data => .ok data
      | none =>
        block ("Action validation failed: " ++ "; ".intercalate (issues raw)) [("actionType", .str actionType)] := by
  unfold validate
  rw [accepts_of_actionTypeOf h, property_of_actionTypeOf h]

/-- A value without a type is blocked, if it can be put into words. -/
theorem validate_of_no_type (h : actionTypeOf raw = none) : validate issues raw =
    if throwsOnString raw then .error .typeError
    else block "LLM output is not a valid object with a type field"
      [("raw", .str (String.ofList (coerce (some raw))))] := by
  have hstring : ∀ actionType, property raw "type" ≠ some (.str actionType) := by
    intro actionType htype
    simp [actionTypeOf, htype] at h
  unfold validate
  split
  · exact absurd ‹_› (hstring _)
  · rfl

/-- Once the type is registered, the fields of its schema decide. -/
theorem validate_of_schema (issues : JsonValue → List String) (h : schemaFor raw = some schema) :
    (schema.accepts raw = true ∧ validate issues raw = .ok (schema.output raw)) ∨
      (schema.accepts raw = false ∧ ∃ error, validate issues raw = .error (.blocked error)) := by
  obtain ⟨actionType, htype, hentry⟩ := Option.bind_eq_some_iff.mp h
  obtain ⟨entry, hget, -⟩ := Option.map_eq_some_iff.mp hentry
  have hallowed : isAllowedActionType actionType = true := isAllowedActionType_iff.mpr (by rw [hget]; rfl)
  rw [validate_of_type htype, hallowed, parseAgentAction_eq h, ObjectSchema.safeParse]
  cases haccepts : schema.accepts raw with
  | true => exact .inl ⟨rfl, rfl⟩
  | false => exact .inr ⟨rfl, _, rfl⟩

/-- Without a registered schema nothing is returned. -/
theorem validate_of_no_schema (issues : JsonValue → List String) (h : schemaFor raw = none) :
    (actionTypeOf raw = none ∧ throwsOnString raw = true ∧ validate issues raw = .error .typeError) ∨
      ((actionTypeOf raw = none → throwsOnString raw = false) ∧
        ∃ error, validate issues raw = .error (.blocked error)) := by
  cases htype : actionTypeOf raw with
  | none =>
    rw [validate_of_no_type htype]
    cases hthrows : throwsOnString raw with
    | true => exact .inl ⟨rfl, rfl, rfl⟩
    | false => exact .inr ⟨fun _ => rfl, _, rfl⟩
  | some actionType =>
    have hnone : (ALLOWLIST.get actionType).isSome = false := by
      unfold schemaFor at h
      rw [htype, Option.bind_some, Option.map_eq_none_iff] at h
      rw [h]
      rfl
    have hallowed : isAllowedActionType actionType = false := by
      rw [← Bool.not_eq_true, isAllowedActionType_iff, hnone]
      exact Bool.false_ne_true
    refine .inr ⟨by simp, ?_⟩
    rw [validate_of_type htype, hallowed]
    exact ⟨_, rfl⟩

/-- What the schema registered for a type accepts, fields and refinements. -/
theorem isSome_safeParse_iff (h : schemaFor raw = some schema) : (schema.safeParse raw).isSome = true ↔
    schema.accepts raw = true ∧ ∀ r ∈ schema.refinements, r.holds raw = true := by
  unfold RefinedSchema.safeParse ObjectSchema.safeParse
  cases haccepts : schema.accepts raw with
  | true =>
    have hholds : (schema.refinements.all fun r => r.holds (schema.output raw)) = true ↔
        ∀ r ∈ schema.refinements, r.holds raw = true := by
      rw [List.all_eq_true]
      exact forall₂_congr fun r hr => by rw [holds_output h r hr]
    simp [Option.filter_some, hholds]
  | false => simp

/-- **The grammar of actions.** `validate` returns the fields of exactly the values that satisfy the schema
registered for their type, and blocks every other value, if and only if the value is regular. -/
theorem validates_iff (issues : JsonValue → List String) (raw : JsonValue) :
    ValidatesGrammar issues raw ↔ Regular raw := by
  cases hschema : schemaFor raw with
  | none =>
    have hnot : ¬ InGrammar raw := by
      rintro ⟨schema, hmem, -⟩
      rw [Option.mem_def, hschema] at hmem
      cases hmem
    obtain ⟨htype, hthrows, hvalidate⟩ | ⟨hprints, error, hvalidate⟩ := validate_of_no_schema issues hschema
    · constructor
      · intro h
        obtain ⟨error, herror⟩ := h.blocks hnot
        rw [hvalidate] at herror
        cases herror
      · intro h
        rw [h.printable htype] at hthrows
        cases hthrows
    · refine iff_of_true ⟨fun action => ?_, fun _ => ⟨error, hvalidate⟩⟩ ⟨hprints, ?_, ?_⟩
      · simp [hvalidate, hschema]
      · simp [hschema]
      · simp [hschema]
  | some schema =>
    have honly : ∀ other ∈ schemaFor raw, other = schema := fun other hother =>
      Option.some.inj ((Option.mem_def.mp hother).symm.trans hschema)
    have hprints : actionTypeOf raw = none → throwsOnString raw = false := by
      intro htype
      simp [schemaFor, htype] at hschema
    have hsafe := isSome_safeParse_iff hschema
    obtain ⟨haccepts, hvalidate⟩ | ⟨haccepts, error, hvalidate⟩ := validate_of_schema issues hschema
    · constructor
      · intro h
        obtain ⟨other, hother, hparsed, houtput⟩ := (h.returns _).mp hvalidate
        obtain rfl := honly other hother
        refine ⟨hprints, fun found hfound _ => ?_, fun found hfound _ => ?_⟩
        · rw [honly found hfound]
          exact (hsafe.mp hparsed).2
        · rw [honly found hfound]
          exact ObjectSchema.output_eq_restrict_iff.mp houtput
      · intro h
        have hparsed := hsafe.mpr ⟨haccepts, h.refined schema hschema haccepts⟩
        have houtput := ObjectSchema.output_eq_restrict_iff.mpr (h.verbatim schema hschema haccepts)
        refine ⟨fun action => ?_, fun hnot => absurd ⟨schema, hschema, hparsed⟩ hnot⟩
        rw [hvalidate, houtput, Except.ok.injEq]
        constructor
        · rintro rfl
          exact ⟨schema, hschema, hparsed, rfl⟩
        · rintro ⟨other, hother, -, rfl⟩
          rw [honly other hother]
    · have hnot : ∀ other ∈ schemaFor raw, ¬ (other.safeParse raw).isSome = true := by
        intro other hother hparsed
        rw [honly other hother] at hparsed
        rw [(hsafe.mp hparsed).1] at haccepts
        cases haccepts
      refine iff_of_true ⟨fun action => ?_, fun _ => ⟨error, hvalidate⟩⟩
        ⟨hprints, fun found hfound hfields => ?_, fun found hfound hfields => ?_⟩
      · rw [hvalidate]
        constructor
        · intro heq
          cases heq
        · rintro ⟨other, hother, hparsed, -⟩
          exact absurd hparsed (hnot other hother)
      · rw [honly found hfound, haccepts] at hfields
        cases hfields
      · rw [honly found hfound, haccepts] at hfields
        cases hfields

/-! ## Confirmation of what is returned -/

theorem type_field : ∀ entry ∈ ALLOWLIST, ("type", Field.literal entry.1) ∈ entry.2.schema.fields := by
  simp [ALLOWLIST, PlaceOrderActionSchema, CancelOrderActionSchema, ModifyOrderActionSchema,
    ClosePositionActionSchema, RequestHumanReviewActionSchema, NoActionSchema]

theorem nodup_fields : ∀ entry ∈ ALLOWLIST, (entry.2.schema.fields.map Prod.fst).Nodup := by
  decide +kernel

/-- Every action that is returned has an entry that says whether it must be confirmed. -/
theorem requiresConfirmation_of_ok {action : JsonValue} (h : validate issues raw = .ok action) :
    (requiresConfirmation action).isSome = true := by
  cases hschema : schemaFor raw with
  | none =>
    obtain ⟨-, -, herror⟩ | ⟨-, error, herror⟩ := validate_of_no_schema issues hschema
    all_goals
      rw [h] at herror
      cases herror
  | some schema =>
    obtain ⟨-, hvalidate⟩ | ⟨-, error, herror⟩ := validate_of_schema issues hschema
    · obtain rfl := Except.ok.inj (h.symm.trans hvalidate)
      obtain ⟨actionType, htype, hentry⟩ := Option.bind_eq_some_iff.mp hschema
      obtain ⟨entry, hget, rfl⟩ := Option.map_eq_some_iff.mp hentry
      have hmem := KeyValue.mem_of_get hget
      have hproperty : property (entry.schema.output raw) "type" =
          (property raw "type").map (Field.literal actionType).output :=
        get_outputs (property raw) (nodup_fields _ hmem) (type_field _ hmem)
      rw [property_of_actionTypeOf htype] at hproperty
      have hsame : (Field.literal actionType).output (.str actionType) = .str actionType := rfl
      unfold requiresConfirmation
      rw [hproperty, Option.map_some, hsame]
      dsimp only
      rw [hget]
      rfl
    · rw [h] at herror
      cases herror

end ActionAllowlist

/-! ## A limit order without a price -/

def limitWithoutPrice : JsonValue :=
  .obj [("type", .str "PlaceOrder"), ("instrument", .str "BTC-USDT"), ("side", .str "BUY"),
    ("orderType", .str "LIMIT"), ("quantity", .num (.ofInt 1)), ("strategyId", .str "grid"),
    ("clientOrderId", .str "00000000-0000-4000-8000-000000000001")]

theorem limitWithoutPrice_returned : ∃ (issues : JsonValue → List String) (raw action : JsonValue),
    ActionAllowlist.validate issues raw = .ok action ∧ ¬ InGrammar raw := by
  have hschema : schemaFor limitWithoutPrice = some PlaceOrderActionSchema := rfl
  have hrefused : (PlaceOrderActionSchema.safeParse limitWithoutPrice).isSome = false := by decide +kernel
  have haccepts : PlaceOrderActionSchema.accepts limitWithoutPrice = true := by decide +kernel
  obtain ⟨-, hvalidate⟩ | ⟨hrejects, -⟩ := ActionAllowlist.validate_of_schema (fun _ => []) hschema
  · refine ⟨fun _ => [], limitWithoutPrice, _, hvalidate, ?_⟩
    rintro ⟨schema, hmem, hparsed⟩
    obtain rfl := Option.some.inj ((Option.mem_def.mp hmem).symm.trans hschema)
    rw [hrefused] at hparsed
    cases hparsed
  · rw [haccepts] at hrejects
    cases hrejects

end SuperAi.Output
