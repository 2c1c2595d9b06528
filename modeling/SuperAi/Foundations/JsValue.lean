import SuperAi.Foundations.JsonText
import SuperAi.Foundations.KeyValue
import Mathlib.Data.String.Basic

/-! # JavaScript values under `JSON.stringify`

A JavaScript value has what JSON has not: `undefined`, numbers that are not finite, members whose
value is `undefined`. `toJson` is the conversion that `JSON.stringify` makes, with the list of keys
it may be given: that list selects the members of every object at every depth, and orders them.
A value is looked at along paths; what a key list lets through at each path (`visible`) determines
the printed text (`visible_eq_iff`).
-/
namespace SuperAi.Foundations
set_option autoImplicit false

inductive JsNum
  | finite (x : JsNumber)
  | nan
  | infinite (negative : Bool)

inductive JsValue
  | undefined
  | null
  | bool (b : Bool)
  | num (x : JsNum)
  | str (s : String)
  | arr (elems : List JsValue)
  | obj (members : List (String × JsValue))

/-- The keys of every object are distinct. -/
inductive JsValue.WellFormed : JsValue → Prop
  | undefined : WellFormed .undefined
  | null : WellFormed .null
  | bool (b : Bool) : WellFormed (.bool b)
  | num (x : JsNum) : WellFormed (.num x)
  | str (s : String) : WellFormed (.str s)
  | arr {es : List JsValue} (elems : ∀ e ∈ es, WellFormed e) : WellFormed (.arr es)
  | obj {ms : List (String × JsValue)} (keys : (ms.map Prod.fst).Nodup)
      (members : ∀ m ∈ ms, WellFormed m.2) : WellFormed (.obj ms)

/-! ## Conversion to JSON -/

def JsNum.toJson : JsNum → JsonValue
  | .finite x => .num x
  | .nan => .null
  | .infinite _ => .null

/-- The members that have a value, in the order of the list of keys, if there is one. -/
def selectMembers (keys : Option (List String)) (ms : List (String × Option JsonValue)) :
    List (String × JsonValue) :=
  match keys with
  | none => ms.filterMap fun m => m.2.map (m.1, ·)
  | some keys => keys.filterMap fun key => (KeyValue.get ms key).join.map (key, ·)

namespace JsValue
variable (keys : Option (List String))

mutual

/-- `none` where `JSON.stringify` gives `undefined`. -/
def toJson : JsValue → Option JsonValue
  | .undefined => none
  | .null => some .null
  | .bool b => some (.bool b)
  | .num x => some x.toJson
  | .str s => some (.str s)
  | .arr es => some (.arr (toJsonElems es))
  | .obj ms => some (.obj (selectMembers keys (toJsonMembers ms)))

def toJsonElems : List JsValue → List JsonValue
  | [] => []
  | e :: es => (toJson e).getD .null :: toJsonElems es

def toJsonMember : String × JsValue → String × Option JsonValue
  | (key, value) => (key, toJson value)

def toJsonMembers : List (String × JsValue) → List (String × Option JsonValue)
  | [] => []
  | m :: ms => toJsonMember m :: toJsonMembers ms

end

theorem toJsonElems_eq (es : List JsValue) :
    toJsonElems keys es = es.map fun e => (toJson keys e).getD .null := by
  induction es with
  | nil => rfl
  | cons e es ih => rw [toJsonElems, List.map_cons, ih]

theorem toJsonMembers_eq (ms : List (String × JsValue)) :
    toJsonMembers keys ms = ms.map fun m => (m.1, toJson keys m.2) := by
  induction ms with
  | nil => rfl
  | cons m ms ih =>
    obtain ⟨key, value⟩ := m
    rw [toJsonMembers, toJsonMember, List.map_cons, ih]

theorem get_toJsonMembers (ms : List (String × JsValue)) (key : String) :
    KeyValue.get (toJsonMembers keys ms) key = (KeyValue.get ms key).map (toJson keys) := by
  rw [toJsonMembers_eq, KeyValue.get_map]

end JsValue

/-! ## Paths -/

inductive PathStep
  | key (k : String)
  | idx (i : ℕ)
  deriving DecidableEq

inductive JsonHead
  | null
  | bool (b : Bool)
  | num (x : JsNumber)
  | str (s : String)
  | arr (length : ℕ)
  | obj

namespace JsonValue

def head : JsonValue → JsonHead
  | .null => .null
  | .bool b => .bool b
  | .num x => .num x
  | .str s => .str s
  | .arr es => .arr es.length
  | .obj _ => .obj

def child : JsonValue → PathStep → Option JsonValue
  | .arr es, .idx i => es[i]?
  | .obj ms, .key k => KeyValue.get ms k
  | _, _ => none

def headAt (v : JsonValue) : List PathStep → Option JsonHead
  | [] => some v.head
  | step :: path => (v.child step).bind fun w => headAt w path

/-- The members of every object are in the order of their keys. -/
inductive Sorted : JsonValue → Prop
  | null : Sorted .null
  | bool (b : Bool) : Sorted (.bool b)
  | num (x : JsNumber) : Sorted (.num x)
  | str (s : String) : Sorted (.str s)
  | arr {es : List JsonValue} (elems : ∀ e ∈ es, Sorted e) : Sorted (.arr es)
  | obj {ms : List (String × JsonValue)} (keys : (ms.map Prod.fst).Pairwise (· < ·))
      (members : ∀ m ∈ ms, Sorted m.2) : Sorted (.obj ms)

theorem Sorted.wellFormed {v : JsonValue} (h : v.Sorted) : v.WellFormed := by
  induction h with
  | null => exact .null
  | bool b => exact .bool b
  | num x => exact .num x
  | str s => exact .str s
  | arr _ ih => exact .arr ih
  | obj keys _ ih => exact .obj (keys.imp ne_of_lt) ih

theorem child_eq {v w : JsonValue} (step : PathStep)
    (hchild : ∀ c d, v.child step = some c → w.child step = some d →
      (∀ path, c.headAt path = d.headAt path) → c = d)
    (h : ∀ path, v.headAt path = w.headAt path) : v.child step = w.child step := by
  have hstep : ∀ path, (v.child step).bind (fun c => headAt c path) =
      (w.child step).bind fun d => headAt d path := fun path => h (step :: path)
  cases hv : v.child step with
  | none =>
    have hnil := hstep []
    rw [hv, Option.bind_none] at hnil
    cases hw : w.child step with
    | none => rfl
    | some d => simp [hw, headAt] at hnil
  | some c =>
    cases hw : w.child step with
    | none =>
      have hnil := hstep []
      simp [hv, hw, headAt] at hnil
    | some d =>
      rw [hchild c d hv hw fun path => by simpa [hv, hw] using hstep path]

/-- **Extensionality.** Sorted values that look the same along every path are equal. -/
theorem Sorted.ext {v w : JsonValue} (hv : v.Sorted) (hw : w.Sorted)
    (h : ∀ path, v.headAt path = w.headAt path) : v = w := by
  induction hv generalizing w with
  | null | bool | num | str =>
    have hroot := h []
    cases w <;> simp_all [headAt, head]
  | @arr es _ ih =>
    have hroot := h []
    cases w <;> simp only [headAt, head, Option.some.injEq, reduceCtorEq] at hroot
    rename_i es'
    have hlen : es.length = es'.length := by simpa using hroot
    cases hw with
    | arr hes' =>
      congr 1
      refine List.ext_getElem? fun i => child_eq (v := .arr es) (w := .arr es') (.idx i) ?_ h
      exact fun c d hc hd => ih c (List.mem_of_getElem? hc) (hes' d (List.mem_of_getElem? hd))
  | @obj ms keys _ ih =>
    have hroot := h []
    cases w <;> simp only [headAt, head, Option.some.injEq, reduceCtorEq] at hroot
    rename_i ms'
    cases hw with
    | obj keys' hms' =>
      congr 1
      refine KeyValue.eq_of_get keys keys' fun key =>
        child_eq (v := .obj ms) (w := .obj ms') (.key key) ?_ h
      exact fun c d hc hd =>
        ih (key, c) (KeyValue.mem_of_get hc) (hms' (key, d) (KeyValue.mem_of_get hd))

end JsonValue

/-! ## What a key list lets through -/

namespace JsValue

def child : JsValue → PathStep → Option JsValue
  | .arr es, .idx i => es[i]?
  | .obj ms, .key k => KeyValue.get ms k
  | _, _ => none

def head : JsValue → Option JsonHead
  | .undefined => none
  | .null => some .null
  | .bool b => some (.bool b)
  | .num (.finite x) => some (.num x)
  | .num _ => some .null
  | .str s => some (.str s)
  | .arr es => some (.arr es.length)
  | .obj _ => some .obj

/-- An element of an array that is `undefined` is printed as `null`. -/
def asElement : JsValue → JsValue
  | .undefined => .null
  | v => v

/-- The root, as printed, of the value at the end of a path all of whose keys are in the list. -/
def visible (keys : List String) (v : JsValue) : List PathStep → Option JsonHead
  | [] => v.head
  | .idx i :: path => (v.child (.idx i)).bind fun w => visible keys w.asElement path
  | .key k :: path => if k ∈ keys then (v.child (.key k)).bind fun w => visible keys w path else none

theorem sizeOf_child {v w : JsValue} {step : PathStep} (h : v.child step = some w) :
    sizeOf w < sizeOf v := by
  cases v with
  | arr es =>
    cases step with
    | idx i =>
      have hlt := List.sizeOf_lt_of_mem (List.mem_of_getElem? h)
      simp only [arr.sizeOf_spec]
      omega
    | key k => cases h
  | obj ms =>
    cases step with
    | idx i => cases h
    | key k =>
      have hlt := List.sizeOf_lt_of_mem (KeyValue.mem_of_get h)
      simp only [Prod.mk.sizeOf_spec] at hlt
      simp only [obj.sizeOf_spec]
      omega
  | _ => cases step <;> cases h

theorem WellFormed.child {v w : JsValue} (h : v.WellFormed) {step : PathStep}
    (hchild : v.child step = some w) : w.WellFormed := by
  cases h with
  | arr elems =>
    cases step with
    | idx i => exact elems w (List.mem_of_getElem? hchild)
    | key k => cases hchild
  | obj keys members =>
    cases step with
    | idx i => cases hchild
    | key k => exact members (k, w) (KeyValue.mem_of_get hchild)
  | _ => cases step <;> cases hchild

theorem WellFormed.asElement {v : JsValue} (h : v.WellFormed) : v.asElement.WellFormed := by
  cases v <;> first | exact h | exact .null

theorem toJson_asElement (keys : Option (List String)) (v : JsValue) :
    toJson keys v.asElement = some ((toJson keys v).getD .null) := by
  cases v <;> rfl

theorem head_toJson (keys : List String) (v : JsValue) :
    (toJson (some keys) v).map JsonValue.head = v.head := by
  cases v with
  | num x => cases x <;> rfl
  | arr es => simp [toJson, JsonValue.head, head, toJsonElems_eq]
  | _ => rfl

theorem child_num (x : JsNum) (step : PathStep) : x.toJson.child step = none := by
  cases x <;> cases step <;> rfl

theorem child_idx_toJson (keys : Option (List String)) (v : JsValue) (i : ℕ) :
    ((toJson keys v).bind fun j => j.child (.idx i)) =
      (v.child (.idx i)).bind fun w => toJson keys w.asElement := by
  cases v with
  | arr es =>
    simp only [toJson, Option.bind_some, JsonValue.child, child, toJsonElems_eq, List.getElem?_map,
      toJson_asElement]
    cases es[i]? <;> rfl
  | num x => exact child_num x _
  | _ => rfl

theorem child_key_toJson (keys : List String) (v : JsValue) (k : String) :
    ((toJson (some keys) v).bind fun j => j.child (.key k)) =
      if k ∈ keys then (v.child (.key k)).bind (toJson (some keys)) else none := by
  cases v with
  | obj ms =>
    simp only [toJson, Option.bind_some, JsonValue.child, child, selectMembers, get_toJsonMembers]
    rw [KeyValue.get_ofKeys keys _ k]
    cases KeyValue.get ms k <;> rfl
  | num x => simp [toJson, child, child_num]
  | _ => simp [toJson, JsonValue.child, child]

theorem headAt_toJson (keys : List String) (v : JsValue) (path : List PathStep) :
    (toJson (some keys) v).bind (fun j => j.headAt path) = v.visible keys path := by
  induction path generalizing v with
  | nil =>
    rw [visible, ← head_toJson keys v]
    cases toJson (some keys) v <;> rfl
  | cons step path ih =>
    have hsplit : ((toJson (some keys) v).bind fun j => j.headAt (step :: path)) =
        ((toJson (some keys) v).bind fun j => j.child step).bind fun j => j.headAt path := by
      rw [Option.bind_assoc]
      rfl
    rw [hsplit]
    cases step with
    | idx i =>
      rw [child_idx_toJson, visible, Option.bind_assoc]
      cases hw : v.child (.idx i) with
      | none => rfl
      | some w => exact ih w.asElement
    | key k =>
      rw [child_key_toJson, visible]
      split
      · rw [Option.bind_assoc]
        cases hw : v.child (.key k) with
        | none => rfl
        | some w => exact ih w
      · rfl

theorem sorted_toJson {keys : List String} (hkeys : keys.Pairwise (· < ·)) {v : JsValue}
    {j : JsonValue} (h : toJson (some keys) v = some j) : j.Sorted := by
  cases v with
  | undefined => cases h
  | null => cases h; exact .null
  | bool b => cases h; exact .bool b
  | num x => cases x <;> cases h <;> first | exact .num _ | exact .null
  | str s => cases h; exact .str s
  | arr es =>
    cases h
    rw [toJsonElems_eq]
    refine .arr fun e he => ?_
    obtain ⟨e', he', rfl⟩ := List.mem_map.mp he
    obtain ⟨i, hi⟩ := List.mem_iff_getElem?.mp he'
    have hlt := sizeOf_child (show (arr es).child (.idx i) = some e' from hi)
    cases hj : toJson (some keys) e' with
    | none => exact .null
    | some j => exact sorted_toJson hkeys hj
  | obj ms =>
    cases h
    refine .obj ?_ fun m hm => ?_
    · refine List.pairwise_map.mpr (List.Pairwise.filterMap _ ?_ hkeys)
      intro k k' hlt m hm m' hm'
      obtain ⟨_, -, rfl⟩ := Option.map_eq_some_iff.mp hm
      obtain ⟨_, -, rfl⟩ := Option.map_eq_some_iff.mp hm'
      exact hlt
    · obtain ⟨k, -, hk⟩ := List.mem_filterMap.mp hm
      obtain ⟨j, hget, rfl⟩ := Option.map_eq_some_iff.mp hk
      rw [get_toJsonMembers, Option.join_eq_some_iff, Option.map_eq_some_iff] at hget
      obtain ⟨w, hw, hj⟩ := hget
      have hlt := sizeOf_child (show (obj ms).child (.key k) = some w from hw)
      exact sorted_toJson hkeys hj
termination_by sizeOf v

/-- **What a key list lets through.** Two values print alike, each with its own sorted list of keys,
exactly when the same is visible along every path. -/
theorem visible_eq_iff {keys keys' : List String} (hkeys : keys.Pairwise (· < ·))
    (hkeys' : keys'.Pairwise (· < ·)) (v w : JsValue) :
    toJson (some keys) v = toJson (some keys') w ↔
      ∀ path, v.visible keys path = w.visible keys' path := by
  constructor
  · intro heq path
    rw [← headAt_toJson keys v, ← headAt_toJson keys' w, heq]
  · intro h
    have hpaths : ∀ path, (toJson (some keys) v).bind (fun j => j.headAt path) =
        (toJson (some keys') w).bind fun j => j.headAt path := by
      intro path
      rw [headAt_toJson keys v, headAt_toJson keys' w, h]
    cases hj : toJson (some keys) v with
    | none =>
      cases hj' : toJson (some keys') w with
      | none => rfl
      | some j' => simpa [hj, hj', JsonValue.headAt] using hpaths []
    | some j =>
      cases hj' : toJson (some keys') w with
      | none => simpa [hj, hj', JsonValue.headAt] using hpaths []
      | some j' =>
        have hsame : ∀ path, j.headAt path = j'.headAt path := fun path => by
          simpa [hj, hj'] using hpaths path
        rw [(sorted_toJson hkeys hj).ext (sorted_toJson hkeys' hj') hsame]

/-- An object none of whose keys is in the list prints as an empty one, whatever it holds. -/
theorem toJson_hidden {keys : List String} {ms : List (String × JsValue)}
    (h : ∀ m ∈ ms, m.1 ∉ keys) : toJson (some keys) (.obj ms) = some (.obj []) := by
  simp only [toJson, selectMembers, get_toJsonMembers]
  congr 2
  refine List.filterMap_eq_nil_iff.mpr fun key hkey => ?_
  have hnone : KeyValue.get ms key = none := by
    refine KeyValue.get_eq_none_iff.mpr fun hmem => ?_
    obtain ⟨m, hm, rfl⟩ := List.mem_map.mp hmem
    exact h m hm hkey
  simp [hnone]

def look (v : JsValue) : List PathStep → Option JsonHead
  | [] => v.head
  | .idx i :: path => (v.child (.idx i)).bind fun w => look w.asElement path
  | .key k :: path => (v.child (.key k)).bind fun w => look w path

def pathKeys (path : List PathStep) : List String :=
  path.filterMap fun step =>
    match step with
    | .key k => some k
    | .idx _ => none

theorem visible_of_subset {keys : List String} {path : List PathStep} (h : ∀ k ∈ pathKeys path, k ∈ keys)
    (v : JsValue) : v.visible keys path = v.look path := by
  induction path generalizing v with
  | nil => rfl
  | cons step path ih =>
    cases step with
    | idx i =>
      rw [visible, look]
      exact congrArg _ (funext fun w => ih h w.asElement)
    | key k =>
      have hk : k ∈ keys := h k (by simp [pathKeys])
      rw [visible, look, if_pos hk]
      exact congrArg _ (funext fun w => ih (fun k' hk' => h k' (List.mem_cons_of_mem k hk')) w)

theorem visible_of_not_mem {keys : List String} {path : List PathStep} {k : String}
    (hk : k ∈ pathKeys path) (h : k ∉ keys) (v : JsValue) : v.visible keys path = none := by
  induction path generalizing v with
  | nil => cases hk
  | cons step path ih =>
    cases step with
    | idx i =>
      rw [visible]
      cases v.child (.idx i) with
      | none => rfl
      | some w => exact ih hk w.asElement
    | key k' =>
      rw [visible]
      split
      · rename_i hk'
        have hrest : k ∈ pathKeys path := by
          rcases List.mem_cons.mp hk with rfl | hrest
          · exact absurd hk' h
          · exact hrest
        cases v.child (.key k') with
        | none => rfl
        | some w => exact ih hrest w
      · rfl

theorem visible_eq_iff_of_subset {keys keys' : List String} (h : keys' ⊆ keys) (v : JsValue) :
    (∀ path, v.visible keys path = v.visible keys' path) ↔
      ∀ path, ∀ k ∈ pathKeys path, k ∉ keys' → v.visible keys path = none := by
  constructor
  · intro hsame path k hk hnot
    rw [hsame path, visible_of_not_mem hk hnot]
  · intro hnone path
    by_cases hall : ∀ k ∈ pathKeys path, k ∈ keys'
    · rw [visible_of_subset hall, visible_of_subset fun k hk => h (hall k hk)]
    · simp only [not_forall] at hall
      obtain ⟨k, hk, hnot⟩ := hall
      rw [hnone path k hk hnot, visible_of_not_mem hk hnot]

/-! ## Reading back what was printed -/

mutual

/-- The value that `JSON.parse` builds. -/
def ofJson : JsonValue → JsValue
  | .null => .null
  | .bool b => .bool b
  | .num x => .num (.finite x)
  | .str s => .str s
  | .arr es => .arr (ofJsonElems es)
  | .obj ms => .obj (ofJsonMembers ms)

def ofJsonElems : List JsonValue → List JsValue
  | [] => []
  | e :: es => ofJson e :: ofJsonElems es

def ofJsonMember : String × JsonValue → String × JsValue
  | (key, value) => (key, ofJson value)

def ofJsonMembers : List (String × JsonValue) → List (String × JsValue)
  | [] => []
  | m :: ms => ofJsonMember m :: ofJsonMembers ms

end

theorem ofJsonElems_eq (es : List JsonValue) : ofJsonElems es = es.map ofJson := by
  induction es with
  | nil => rfl
  | cons e es ih => rw [ofJsonElems, List.map_cons, ih]

theorem ofJsonMembers_eq (ms : List (String × JsonValue)) :
    ofJsonMembers ms = ms.map fun m => (m.1, ofJson m.2) := by
  induction ms with
  | nil => rfl
  | cons m ms ih =>
    obtain ⟨key, value⟩ := m
    rw [ofJsonMembers, ofJsonMember, List.map_cons, ih]

theorem asElement_ofJson (j : JsonValue) : (ofJson j).asElement = ofJson j := by
  cases j <;> rfl

theorem head_ofJson (j : JsonValue) : (ofJson j).head = some j.head := by
  cases j with
  | arr es => simp [ofJson, head, JsonValue.head, ofJsonElems_eq]
  | _ => rfl

theorem child_ofJson (j : JsonValue) (step : PathStep) :
    (ofJson j).child step = (j.child step).map ofJson := by
  cases j with
  | arr es => cases step <;> simp [ofJson, child, JsonValue.child, ofJsonElems_eq]
  | obj ms => cases step <;> simp [ofJson, child, JsonValue.child, ofJsonMembers_eq, KeyValue.get_map]
  | _ => cases step <;> rfl

theorem head_toJson_none (v : JsValue) : (toJson none v).map JsonValue.head = v.head := by
  cases v with
  | num x => cases x <;> rfl
  | arr es => simp [toJson, JsonValue.head, head, toJsonElems_eq]
  | _ => rfl

theorem selectMembers_none (ms : List (String × JsValue)) :
    selectMembers none (toJsonMembers none ms) =
      ms.filterMap fun m => (toJson none m.2).map (m.1, ·) := by
  simp only [selectMembers, toJsonMembers_eq, List.filterMap_map]
  rfl

theorem child_toJson_none {v : JsValue} (h : v.WellFormed) (k : String) :
    ((toJson none v).bind fun j => j.child (.key k)) = (v.child (.key k)).bind (toJson none) := by
  cases h with
  | @obj ms hkeys _ =>
    simp only [toJson, Option.bind_some, JsonValue.child, child, selectMembers_none]
    rw [KeyValue.get_filterMap hkeys]
  | num x => simp [toJson, child, child_num]
  | _ => simp [toJson, JsonValue.child, child]

theorem visible_undefined (keys : List String) (path : List PathStep) :
    visible keys .undefined path = none := by
  cases path with
  | nil => rfl
  | cons step path =>
    cases step with
    | idx i => rfl
    | key k => simp [visible, child]

/-- **Printing loses nothing that a list of keys would let through.** -/
theorem visible_ofJson (keys : List String) {v : JsValue} (h : v.WellFormed) {j : JsonValue}
    (hj : toJson none v = some j) (path : List PathStep) :
    (ofJson j).visible keys path = v.visible keys path := by
  induction path generalizing v j with
  | nil =>
    have hhead := head_toJson_none v
    rw [hj] at hhead
    rw [visible, visible, head_ofJson]
    exact hhead
  | cons step path ih =>
    cases step with
    | idx i =>
      have hchild := child_idx_toJson none v i
      rw [hj, Option.bind_some] at hchild
      rw [visible, visible, child_ofJson, hchild]
      cases hw : v.child (.idx i) with
      | none => rfl
      | some w =>
        cases hjw : toJson none w.asElement with
        | none => simp [toJson_asElement] at hjw
        | some jw =>
          simp only [Option.bind_some, hjw, Option.map_some, asElement_ofJson]
          exact ih (h.child hw).asElement hjw
    | key k =>
      have hchild := child_toJson_none h k
      rw [hj, Option.bind_some] at hchild
      rw [visible, visible, child_ofJson, hchild]
      cases hw : v.child (.key k) with
      | none => rfl
      | some w =>
        cases hjw : toJson none w with
        | none =>
          have hundefined : w = .undefined := by
            cases w <;> first | rfl | simp [toJson] at hjw
          subst hundefined
          simp [toJson, visible_undefined]
        | some jw =>
          simp only [Option.bind_some, hjw, Option.map_some]
          rw [ih (h.child hw) hjw]

theorem JsNum.toJson_wellFormed (x : JsNum) : x.toJson.WellFormed := by
  cases x with
  | finite x => exact .num x
  | nan => exact .null
  | infinite negative => exact .null

theorem WellFormed.toJson {v : JsValue} (h : v.WellFormed) {j : JsonValue}
    (hj : JsValue.toJson none v = some j) : j.WellFormed := by
  induction h generalizing j with
  | undefined => cases hj
  | null => cases hj; exact .null
  | bool b => cases hj; exact .bool b
  | num x => cases hj; exact JsNum.toJson_wellFormed x
  | str s => cases hj; exact .str s
  | @arr es _ ih =>
    cases hj
    rw [toJsonElems_eq]
    refine .arr fun e he => ?_
    obtain ⟨e', he', rfl⟩ := List.mem_map.mp he
    cases hj : JsValue.toJson none e' with
    | none => exact .null
    | some j => exact ih e' he' hj
  | @obj ms hkeys _ ih =>
    cases hj
    rw [selectMembers_none]
    refine .obj ((KeyValue.keys_filterMap_sublist ms (JsValue.toJson none)).nodup hkeys) fun m hm => ?_
    obtain ⟨m', hm', heq⟩ := List.mem_filterMap.mp hm
    obtain ⟨j', hj', rfl⟩ := Option.map_eq_some_iff.mp heq
    exact ih m' hm' hj'

end JsValue
end SuperAi.Foundations
