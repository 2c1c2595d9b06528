import SuperAi.Foundations.JsonAccess

/-! # Schemas of JSON values

A schema library's checks on values that come from `JSON.parse`: objects of named fields that drop every
other key, refinements of them, and unions that a literal field tells apart. A field passes its value on
unchanged, except that a record loses a member named `__proto__`. So what a schema accepts it returns
restricted to its fields (`output_eq_restrict_iff`).
-/
namespace SuperAi.Foundations.Schema
set_option autoImplicit false

/-! ## Strings -/

def isHexDigit (c : Char) : Bool := (hexVal? c).isSome

/-- Groups of hexadecimal digits of the given sizes, with a hyphen between them. -/
def matchesGroups : List ℕ → List Char → Bool
  | [], cs => cs.isEmpty
  | [size], cs => decide (cs.length = size) && cs.all isHexDigit
  | size :: sizes, cs =>
    decide ((cs.take size).length = size) && (cs.take size).all isHexDigit &&
      decide ((cs.drop size).head? = some '-') && matchesGroups sizes (cs.drop (size + 1))

def isUuid (s : String) : Bool := matchesGroups [8, 4, 4, 4, 12] s.toList

inductive StringCheck
  | nonempty
  | uuid
  deriving DecidableEq, Repr

def StringCheck.passes : StringCheck → String → Bool
  | .nonempty, s => s != ""
  | .uuid, s => isUuid s

/-! ## Fields and objects -/

inductive Field
  | literal (value : String)
  | string (checks : List StringCheck)
  | nativeEnum (values : List String)
  | positiveNumber
  | optional (field : Field)
  | record
  deriving Repr

namespace Field

/-- `none` is the value of a key that is missing. -/
def accepts : Field → Option JsonValue → Bool
  | .optional _, none => true
  | .optional field, some v => field.accepts (some v)
  | .literal value, some (.str s) => s == value
  | .string checks, some (.str s) => checks.all fun check => check.passes s
  | .nativeEnum values, some (.str s) => values.contains s
  | .positiveNumber, some (.num x) => decide (0 < x.toRat)
  | .record, some (.obj _) => true
  | _, _ => false

def output : Field → JsonValue → JsonValue
  | .optional field, v => field.output v
  | .record, .obj ms => .obj (ms.filter fun m => m.1 != "__proto__")
  | _, v => v

/-- The field passes the value on as it is. -/
def verbatim : Field → JsonValue → Bool
  | .optional field, v => field.verbatim v
  | .record, .obj ms => ms.all fun m => m.1 != "__proto__"
  | _, _ => true

/-- The field is not a record. -/
def plain : Field → Bool
  | .optional field => field.plain
  | .record => false
  | _ => true

theorem output_of_plain {field : Field} (h : field.plain = true) (v : JsonValue) : field.output v = v := by
  induction field with
  | optional field ih => exact ih h
  | record => cases h
  | _ => simp [output]

theorem output_eq_iff (field : Field) (v : JsonValue) : field.output v = v ↔ field.verbatim v = true := by
  induction field with
  | optional field ih => exact ih
  | record =>
    cases v with
    | obj ms => simp [output, verbatim, List.filter_eq_self]
    | _ => simp [output, verbatim]
  | _ => simp [output, verbatim]

end Field

/-- An object with these fields; other keys are dropped. -/
structure ObjectSchema where
  fields : List (String × Field)

namespace ObjectSchema
variable (schema : ObjectSchema)

def accepts : JsonValue → Bool
  | .obj ms => schema.fields.all fun field => field.2.accepts (KeyValue.get ms field.1)
  | _ => false

/-- The fields that are there, as their schemas return them. -/
def output (raw : JsonValue) : JsonValue :=
  .obj (schema.fields.filterMap fun field => (property raw field.1).map fun v => (field.1, field.2.output v))

def safeParse (raw : JsonValue) : Option JsonValue :=
  if schema.accepts raw then some (schema.output raw) else none

/-- The value with the schema's fields only. -/
def restrict (raw : JsonValue) : JsonValue :=
  .obj (schema.fields.filterMap fun field => (property raw field.1).map fun v => (field.1, v))

/-- No field changes its value. -/
def Verbatim (raw : JsonValue) : Prop :=
  ∀ field ∈ schema.fields, ∀ v ∈ property raw field.1, field.2.verbatim v = true

variable {schema} {raw : JsonValue}

theorem output_eq_restrict_iff : schema.output raw = schema.restrict raw ↔ schema.Verbatim raw := by
  unfold output restrict Verbatim
  rw [JsonValue.obj.injEq]
  induction schema.fields with
  | nil => simp
  | cons field fields ih =>
    rw [List.forall_mem_cons, ← ih]
    cases hvalue : property raw field.1 with
    | none => simp [hvalue]
    | some v =>
      simp only [List.filterMap_cons, hvalue, Option.map_some, List.cons.injEq, Prod.mk.injEq, true_and,
        Field.output_eq_iff]
      simp

end ObjectSchema

/-- What is found under a key among the fields that are there. -/
def outputs (fields : List (String × Field)) (value : String → Option JsonValue) : List (String × JsonValue) :=
  fields.filterMap fun field => (value field.1).map fun v => (field.1, field.2.output v)

theorem outputs_cons (first : String × Field) (fields : List (String × Field)) (value : String → Option JsonValue) :
    outputs (first :: fields) value = (match value first.1 with
      | some v => (first.1, first.2.output v) :: outputs fields value
      | none => outputs fields value) := by
  unfold outputs
  rw [List.filterMap_cons]
  cases value first.1 <;> rfl

theorem get_outputs_of_not_mem {fields : List (String × Field)} (value : String → Option JsonValue) {key : String}
    (h : key ∉ fields.map Prod.fst) : KeyValue.get (outputs fields value) key = none := by
  induction fields with
  | nil => rfl
  | cons first fields ih =>
    rw [List.map_cons, List.mem_cons, not_or] at h
    rw [outputs_cons]
    cases value first.1 with
    | none => exact ih h.2
    | some v =>
      dsimp only
      rw [KeyValue.get_cons, if_neg h.1]
      exact ih h.2

theorem get_outputs {fields : List (String × Field)} (value : String → Option JsonValue)
    (hnodup : (fields.map Prod.fst).Nodup) {key : String} {field : Field} (hfield : (key, field) ∈ fields) :
    KeyValue.get (outputs fields value) key = (value key).map field.output := by
  induction fields with
  | nil => cases hfield
  | cons first fields ih =>
    obtain ⟨hfresh, hrest⟩ := List.nodup_cons.mp hnodup
    rw [outputs_cons]
    rcases List.mem_cons.mp hfield with rfl | hmem
    · cases hvalue : value key with
      | none => exact get_outputs_of_not_mem value hfresh
      | some v => exact if_pos rfl
    · have hne : key ≠ first.1 := fun heq => hfresh (heq ▸ List.mem_map_of_mem hmem)
      cases value first.1 with
      | none => exact ih hrest hmem
      | some v =>
        dsimp only
        rw [KeyValue.get_cons, if_neg hne]
        exact ih hrest hmem

/-- A schema without records leaves the values under its keys as they are. -/
theorem ObjectSchema.property_output {schema : ObjectSchema} (raw : JsonValue)
    (hnodup : (schema.fields.map Prod.fst).Nodup) (hplain : (schema.fields.all fun field => field.2.plain) = true)
    {key : String} (hkey : key ∈ schema.fields.map Prod.fst) :
    property (schema.output raw) key = property raw key := by
  obtain ⟨⟨key, field⟩, hfield, rfl⟩ := List.mem_map.mp hkey
  have hvalue : property (schema.output raw) key = (property raw key).map field.output :=
    get_outputs (property raw) hnodup hfield
  have hsame := Field.output_of_plain (List.all_eq_true.mp hplain _ hfield)
  rw [hvalue]
  cases property raw key with
  | none => rfl
  | some v => exact congrArg some (hsame v)

/-! ## Refinements and unions -/

structure Refinement where
  holds : JsonValue → Bool
  message : String

structure RefinedSchema extends ObjectSchema where
  refinements : List Refinement := []

/-- Refinements are asked of what the object schema returns. -/
def RefinedSchema.safeParse (schema : RefinedSchema) (raw : JsonValue) : Option JsonValue :=
  (schema.toObjectSchema.safeParse raw).filter fun data => schema.refinements.all fun r => r.holds data

/-- The literal that a schema asks of the discriminator. -/
def ObjectSchema.tag (schema : ObjectSchema) (discriminator : String) : Option String :=
  match KeyValue.get schema.fields discriminator with
  | some (.literal value) => some value
  | _ => none

def discriminatedUnion (discriminator : String) (options : List ObjectSchema) (raw : JsonValue) :
    Option JsonValue :=
  match property raw discriminator with
  | some (.str tag) =>
    (options.find? fun schema => schema.tag discriminator == some tag).bind fun schema => schema.safeParse raw
  | _ => none

end SuperAi.Foundations.Schema
