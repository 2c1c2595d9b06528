import SuperAi.Foundations.Base64
import SuperAi.Foundations.JsValue
import SuperAi.Foundations.ObjectKeys

/-! # Signing (`security/crypto/signing.service.ts`)

A payload is signed by its canonical text, the JSON text of a copy whose objects are built in the order of their keys.
The copy has no member `__proto__`, so the text, and with it the signature, tells two payloads apart exactly if they
differ in something else (`signing_exact_iff`).
-/
namespace SuperAi.Crypto
open SuperAi.Foundations
set_option autoImplicit false

/-! ## The canonical text -/

mutual

def sortKeysDeep : JsonValue → JsonValue
  | .null => .null
  | .bool b => .bool b
  | .num x => .num x
  | .str s => .str s
  | .arr es => .arr (sortKeysElems es)
  | .obj ms => .obj (buildSorted (sortKeysMembers ms))

def sortKeysElems : List JsonValue → List JsonValue
  | [] => []
  | e :: es => sortKeysDeep e :: sortKeysElems es

/-- The members of an object, each with its value sorted. -/
def sortKeysMembers : List (String × JsonValue) → List (String × JsonValue)
  | [] => []
  | (key, value) :: ms => (key, sortKeysDeep value) :: sortKeysMembers ms

end

abbrev Payload := List (String × JsonValue)

def canonicalize (payload : Payload) : String := String.ofList (sortKeysDeep (.obj payload)).text

/-! ## Signatures -/

/-- The functions of `node:crypto`; none where a key is refused. -/
structure Ed25519 (SK PK : Type) where
  createPrivateKey : String → Option SK
  createPublicKey : String → Option PK
  sign : SK → List UInt8 → List UInt8
  verify : PK → List UInt8 → List UInt8 → Bool

/-- `PayloadSchema.parse`: a record is copied without `__proto__`. -/
def parsePayload (payload : Payload) : Payload := payload.filter fun m => m.1 ≠ "__proto__"

/-- `Buffer.from(s, 'utf8')`. -/
def utf8 (s : String) : List UInt8 := s.toUTF8.data.toList

section
variable {SK PK : Type} (ed : Ed25519 SK PK)

/-- `signingKey` is what `secretsLoader.get('signing-private-key')` answers. -/
def sign (signingKey : Except String String) (payload : Payload) : Except String String :=
  let data := utf8 (canonicalize (parsePayload payload))
  match signingKey with
  | .error e => .error e
  | .ok privatePem =>
    match ed.createPrivateKey privatePem with
    | none => .error "createPrivateKey"
    | some privateKey => .ok (toBase64 (ed.sign privateKey data))

def verify (payload : Payload) (signature publicKey : String) : Except String Bool :=
  if !isBase64 signature then .error "Invalid base64"
  else if signature = "" ∨ publicKey = "" then .error "String must contain at least 1 character(s)"
  else
    let data := utf8 (canonicalize (parsePayload payload))
    match ed.createPublicKey publicKey with
    | none => .error "createPublicKey"
    | some pubKey => .ok (ed.verify pubKey data (fromBase64 signature))

/-- The two texts are keys of one pair, and a signature of the pair is that of one text and no other. -/
structure Ed25519.Pair (privatePem publicPem : String) : Prop where
  public_ne : publicPem ≠ ""
  keys : ∃ privateKey pubKey, ed.createPrivateKey privatePem = some privateKey ∧
    ed.createPublicKey publicPem = some pubKey ∧ (∀ data, ed.sign privateKey data ≠ []) ∧
    ∀ data data', ed.verify pubKey data' (ed.sign privateKey data) = true ↔ data' = data

end

/-! ## Equality of payloads -/

/-- The two values are equal up to the order of the keys: they look the same along every path. -/
def SameData (v w : JsonValue) : Prop := ∀ path, v.headAt path = w.headAt path

/-- They are, apart from members `__proto__`. -/
def SameButProto (v w : JsonValue) : Prop :=
  ∀ path, PathStep.key "__proto__" ∉ path → v.headAt path = w.headAt path

theorem SameData.sameButProto {v w : JsonValue} (h : SameData v w) : SameButProto v w := fun path _ => h path

theorem sortKeysElems_eq (es : List JsonValue) : sortKeysElems es = es.map sortKeysDeep := by
  induction es with
  | nil => rfl
  | cons e es ih => rw [sortKeysElems, ih, List.map_cons]

theorem sortKeysMembers_eq (ms : List (String × JsonValue)) :
    sortKeysMembers ms = ms.map fun m => (m.1, sortKeysDeep m.2) := by
  induction ms with
  | nil => rfl
  | cons m ms ih => rw [sortKeysMembers, ih, List.map_cons]

theorem keys_sortKeysMembers (ms : List (String × JsonValue)) : (sortKeysMembers ms).map Prod.fst = ms.map Prod.fst := by
  rw [sortKeysMembers_eq, List.map_map]
  rfl

theorem get_sortKeysMembers (ms : List (String × JsonValue)) (key : String) :
    KeyValue.get (sortKeysMembers ms) key = (KeyValue.get ms key).map sortKeysDeep := by
  rw [sortKeysMembers_eq, KeyValue.get_map]

/-! ### What the sorted copy shows -/

theorem wellFormed_sortKeysDeep {v : JsonValue} (h : v.WellFormed) : (sortKeysDeep v).WellFormed := by
  induction h with
  | null => exact .null
  | bool b => exact .bool b
  | num x => exact .num x
  | str s => exact .str s
  | @arr es _ ih =>
    rw [sortKeysDeep, sortKeysElems_eq]
    refine .arr ?_
    intro e he
    obtain ⟨e', he', rfl⟩ := List.mem_map.mp he
    exact ih e' he'
  | @obj ms keys _ ih =>
    have hkeys : ((sortKeysMembers ms).map Prod.fst).Nodup := by rwa [keys_sortKeysMembers]
    rw [sortKeysDeep]
    refine .obj (nodup_buildSorted hkeys) ?_
    intro m hm
    have hmem := List.mem_of_mem_filter ((buildSorted_perm hkeys).mem_iff.mp hm)
    rw [sortKeysMembers_eq] at hmem
    obtain ⟨m', hm', rfl⟩ := List.mem_map.mp hmem
    exact ih m' hm'

theorem child_sortKeysDeep {v : JsonValue} (h : v.WellFormed) (step : PathStep) :
    (sortKeysDeep v).child step =
      if step = .key "__proto__" then none else (v.child step).map sortKeysDeep := by
  cases v with
  | arr es =>
    rw [sortKeysDeep, sortKeysElems_eq]
    cases step with
    | idx i => simp [JsonValue.child]
    | key k => simp [JsonValue.child]
  | obj ms =>
    cases h with
    | obj keys members =>
      have hkeys : ((sortKeysMembers ms).map Prod.fst).Nodup := by rwa [keys_sortKeysMembers]
      rw [sortKeysDeep]
      cases step with
      | idx i => simp [JsonValue.child]
      | key k =>
        simp only [JsonValue.child, PathStep.key.injEq]
        rw [get_buildSorted hkeys, get_sortKeysMembers]
  | null | bool | num | str => simp [sortKeysDeep, JsonValue.child]

theorem head_sortKeysDeep (v : JsonValue) : (sortKeysDeep v).head = v.head := by
  cases v with
  | arr es => simp [sortKeysDeep, JsonValue.head, sortKeysElems_eq]
  | null | bool | num | str | obj => simp [sortKeysDeep, JsonValue.head]

theorem wellFormed_child {v w : JsonValue} (h : v.WellFormed) {step : PathStep} (hchild : v.child step = some w) :
    w.WellFormed := by
  cases h with
  | arr elems =>
    cases step with
    | idx i => exact elems w (List.mem_of_getElem? hchild)
    | key k => cases hchild
  | obj keys members =>
    cases step with
    | idx i => cases hchild
    | key k => exact members (k, w) (KeyValue.mem_of_get hchild)
  | null => cases step <;> cases hchild
  | bool => cases step <;> cases hchild
  | num => cases step <;> cases hchild
  | str => cases step <;> cases hchild

/-- The copy shows what the value shows, but nothing below `__proto__`. -/
theorem headAt_sortKeysDeep {v : JsonValue} (h : v.WellFormed) (path : List PathStep) :
    (sortKeysDeep v).headAt path = if .key "__proto__" ∈ path then none else v.headAt path := by
  induction path generalizing v with
  | nil => simp [JsonValue.headAt, head_sortKeysDeep]
  | cons step path ih =>
    rw [JsonValue.headAt, child_sortKeysDeep h]
    by_cases hstep : step = .key "__proto__"
    · simp [hstep]
    · rw [if_neg hstep, JsonValue.headAt]
      cases hchild : v.child step with
      | none => simp
      | some w =>
        rw [Option.map_some, Option.bind_some, Option.bind_some, ih (wellFormed_child h hchild)]
        simp [Ne.symm hstep]

/-! ### Equal copies -/

theorem sameButProto_child {v w c d : JsonValue} {step : PathStep} (h : SameButProto v w)
    (hstep : step ≠ .key "__proto__") (hc : v.child step = some c) (hd : w.child step = some d) : SameButProto c d := by
  intro path hpath
  have hnot : PathStep.key "__proto__" ∉ step :: path := by
    simp [hpath, Ne.symm hstep]
  have hlook := h (step :: path) hnot
  rwa [JsonValue.headAt, JsonValue.headAt, hc, hd] at hlook

theorem child_isSome {v w : JsonValue} {step : PathStep} (h : SameButProto v w) (hstep : step ≠ .key "__proto__") :
    (v.child step).isSome = (w.child step).isSome := by
  have hlook := h [step] (by simpa using Ne.symm hstep)
  rw [JsonValue.headAt, JsonValue.headAt] at hlook
  cases hv : v.child step with
  | none =>
    cases hw : w.child step with
    | none => rfl
    | some d => simp [hv, hw, JsonValue.headAt] at hlook
  | some c =>
    cases hw : w.child step with
    | none => simp [hv, hw, JsonValue.headAt] at hlook
    | some d => rfl

/-- The copies of a child are equal where those of all children that look the same are. -/
theorem child_map_eq {v w : JsonValue} {step : PathStep} (h : SameButProto v w) (hstep : step ≠ .key "__proto__")
    (hchild : ∀ c d, v.child step = some c → w.child step = some d → SameButProto c d →
      sortKeysDeep c = sortKeysDeep d) : (v.child step).map sortKeysDeep = (w.child step).map sortKeysDeep := by
  have hsome := child_isSome h hstep
  cases hv : v.child step with
  | none =>
    cases hw : w.child step with
    | none => rfl
    | some d =>
      rw [hv, hw] at hsome
      cases hsome
  | some c =>
    rw [hv] at hsome
    obtain ⟨d, hw⟩ := Option.isSome_iff_exists.mp hsome.symm
    rw [hw, Option.map_some, Option.map_some, hchild c d hv hw (sameButProto_child h hstep hv hw)]

theorem sortKeysDeep_congr {v w : JsonValue} (hv : v.WellFormed) (hw : w.WellFormed) (h : SameButProto v w) :
    sortKeysDeep v = sortKeysDeep w := by
  have hroot : v.head = w.head := Option.some.inj (h [] (by simp))
  induction hv generalizing w with
  | null | bool | num | str => cases w <;> simp_all [JsonValue.head]
  | @arr es _ ih =>
    cases w <;> simp only [JsonValue.head, reduceCtorEq] at hroot
    rename_i es'
    cases hw with
    | arr hes' =>
      rw [sortKeysDeep, sortKeysDeep, sortKeysElems_eq, sortKeysElems_eq]
      congr 1
      apply List.ext_getElem?
      intro i
      rw [List.getElem?_map, List.getElem?_map]
      refine @child_map_eq (.arr es) (.arr es') (.idx i) h (by simp) ?_
      intro c d hc hd hsame
      exact ih c (List.mem_of_getElem? hc) (hes' d (List.mem_of_getElem? hd)) hsame (Option.some.inj (hsame [] (by simp)))
  | @obj ms keys _ ih =>
    cases w <;> simp only [JsonValue.head, reduceCtorEq] at hroot
    rename_i ms'
    cases hw with
    | obj keys' hms' =>
      rw [sortKeysDeep, sortKeysDeep]
      congr 1
      apply buildSorted_congr (by rwa [keys_sortKeysMembers]) (by rwa [keys_sortKeysMembers])
      intro key hkey
      rw [get_sortKeysMembers, get_sortKeysMembers]
      refine @child_map_eq (.obj ms) (.obj ms') (.key key) h (by simpa using hkey) ?_
      intro c d hc hd hsame
      exact ih (key, c) (KeyValue.mem_of_get hc) (hms' (key, d) (KeyValue.mem_of_get hd)) hsame
        (Option.some.inj (hsame [] (by simp)))

/-- **Canonical text.** Two payloads have the same text exactly if they are equal up to the order of their keys, apart
from members `__proto__`. -/
theorem canonicalize_eq_iff {a b : Payload} (ha : (JsonValue.obj a).WellFormed) (hb : (JsonValue.obj b).WellFormed) :
    canonicalize a = canonicalize b ↔ SameButProto (.obj a) (.obj b) := by
  rw [canonicalize, canonicalize, String.ofList_inj,
    JsonValue.text_inj (wellFormed_sortKeysDeep ha) (wellFormed_sortKeysDeep hb)]
  constructor
  · intro heq path hpath
    have hlook := headAt_sortKeysDeep ha path
    rw [heq, headAt_sortKeysDeep hb, if_neg hpath, if_neg hpath] at hlook
    exact hlook.symm
  · exact sortKeysDeep_congr ha hb

/-! ## Verification -/

theorem wellFormed_parsePayload {a : Payload} (ha : (JsonValue.obj a).WellFormed) :
    (JsonValue.obj (parsePayload a)).WellFormed := by
  cases ha with
  | obj keys members =>
    exact .obj (keys.sublist (List.filter_sublist.map Prod.fst)) fun m hm => members m (List.mem_of_mem_filter hm)

/-- What the record leaves out, the text leaves out as well. -/
theorem canonicalize_parsePayload {a : Payload} (ha : (JsonValue.obj a).WellFormed) :
    canonicalize (parsePayload a) = canonicalize a := by
  rw [canonicalize_eq_iff (wellFormed_parsePayload ha) ha]
  intro path hpath
  cases path with
  | nil => rfl
  | cons step path =>
    rw [JsonValue.headAt, JsonValue.headAt]
    cases step with
    | idx i => rfl
    | key k =>
      have hkey : k ≠ "__proto__" := by
        rintro rfl
        exact hpath List.mem_cons_self
      have hget : KeyValue.get (parsePayload a) k = KeyValue.get a k := by
        cases ha with
        | obj keys members =>
          apply Option.ext
          intro value
          rw [parsePayload, KeyValue.get_filter_eq_some keys, KeyValue.get_eq_some_iff keys]
          simp [hkey]
      rw [JsonValue.child, JsonValue.child, hget]

theorem utf8_inj {s t : String} : utf8 s = utf8 t ↔ s = t := by
  constructor
  · intro h
    apply String.toByteArray_inj.mp
    apply ByteArray.ext
    exact Array.toList_inj.mp h
  · rintro rfl
    rfl

variable {SK PK : Type} {ed : Ed25519 SK PK} {privatePem publicPem : String}

/-- A signature verifies the payloads that have the text of the signed one. -/
theorem verify_sign_iff (hpair : ed.Pair privatePem publicPem) {a b : Payload} (ha : (JsonValue.obj a).WellFormed)
    (hb : (JsonValue.obj b).WellFormed) :
    ∃ signature, sign ed (.ok privatePem) a = .ok signature ∧
      (verify ed b signature publicPem = .ok true ↔ canonicalize a = canonicalize b) := by
  obtain ⟨privateKey, pubKey, hprivate, hpublic, hne, hverify⟩ := hpair.keys
  have hsign : sign ed (.ok privatePem) a =
      .ok (toBase64 (ed.sign privateKey (utf8 (canonicalize (parsePayload a))))) := by
    simp only [sign, hprivate]
  refine ⟨_, hsign, ?_⟩
  have hfull := toBase64_ne_empty (hne (utf8 (canonicalize (parsePayload a))))
  have hok : verify ed b (toBase64 (ed.sign privateKey (utf8 (canonicalize (parsePayload a))))) publicPem =
      .ok (ed.verify pubKey (utf8 (canonicalize (parsePayload b)))
        (ed.sign privateKey (utf8 (canonicalize (parsePayload a))))) := by
    simp only [verify, isBase64_toBase64, Bool.not_true, Bool.false_eq_true, if_false, hfull, hpair.public_ne, or_self,
      hpublic, fromBase64_toBase64]
  rw [hok, Except.ok.injEq, hverify, utf8_inj, canonicalize_parsePayload ha, canonicalize_parsePayload hb]
  exact eq_comm

/-- **Signed payloads.** The canonical text, and the verification of a signature, tell two payloads apart exactly up
to the order of their keys, if and only if the payloads do not differ in members `__proto__` alone. -/
theorem signing_exact_iff (hpair : ed.Pair privatePem publicPem) {a b : Payload} (ha : (JsonValue.obj a).WellFormed)
    (hb : (JsonValue.obj b).WellFormed) :
    ((canonicalize a = canonicalize b ↔ SameData (.obj a) (.obj b)) ∧
      ∃ signature, sign ed (.ok privatePem) a = .ok signature ∧
        (verify ed b signature publicPem = .ok true ↔ SameData (.obj a) (.obj b))) ↔
      (SameButProto (.obj a) (.obj b) → SameData (.obj a) (.obj b)) := by
  obtain ⟨signature, hsign, hverify⟩ := verify_sign_iff hpair ha hb
  have htext := canonicalize_eq_iff ha hb
  constructor
  · rintro ⟨hexact, -⟩ hbut
    exact hexact.mp (htext.mpr hbut)
  · intro hbut
    have hsame : canonicalize a = canonicalize b ↔ SameData (.obj a) (.obj b) :=
      htext.trans ⟨hbut, SameData.sameButProto⟩
    exact ⟨hsame, signature, hsign, hverify.trans hsame⟩

/-! ### Examples -/

/-- Signatures that show their text. -/
def openKeys : Ed25519 Unit Unit where
  createPrivateKey pem := if pem = "private" then some () else none
  createPublicKey pem := if pem = "public" then some () else none
  sign _ data := 0 :: data
  verify _ data signature := signature == 0 :: data

theorem openKeys_pair : openKeys.Pair "private" "public" := by
  refine ⟨by decide, (), (), rfl, rfl, ?_, ?_⟩
  · intro data
    exact List.cons_ne_nil 0 data
  · intro data data'
    change (0 :: data == 0 :: data') = true ↔ data' = data
    rw [beq_iff_eq, List.cons.injEq]
    exact ⟨fun h => h.2.symm, fun h => ⟨rfl, h.symm⟩⟩

def buyOrder : Payload := [("instrument", .str "BTC-USD"), ("action", .str "buy")]

/-- A signed order verifies with its keys in another order. -/
theorem buyOrder_reversed : ∃ signature, sign openKeys (.ok "private") buyOrder = .ok signature ∧
    verify openKeys buyOrder.reverse signature "public" = .ok true := by
  have horder : (JsonValue.obj buyOrder).WellFormed :=
    .obj (by decide) (by
      intro m hm
      simp only [buyOrder, List.mem_cons, List.not_mem_nil, or_false] at hm
      obtain rfl | rfl := hm
      · exact .str _
      · exact .str _)
  have hreversed : (JsonValue.obj buyOrder.reverse).WellFormed := by
    cases horder with
    | obj keys members => exact .obj (by decide) fun m hm => members m (List.mem_reverse.mp hm)
  have hget : ∀ key, KeyValue.get buyOrder key = KeyValue.get buyOrder.reverse key := by
    intro key
    simp only [buyOrder, List.reverse_cons, List.reverse_nil, List.nil_append, List.cons_append, KeyValue.get_cons,
      KeyValue.get_nil]
    by_cases haction : key = "action"
    · subst haction
      rfl
    · rw [if_neg haction, if_neg haction]
  have hsame : SameData (.obj buyOrder) (.obj buyOrder.reverse) := by
    intro path
    cases path with
    | nil => rfl
    | cons step path =>
      rw [JsonValue.headAt, JsonValue.headAt]
      cases step with
      | idx i => rfl
      | key k => rw [JsonValue.child, JsonValue.child, hget]
  obtain ⟨-, signature, hsign, hverify⟩ :=
    (signing_exact_iff openKeys_pair horder hreversed).mpr fun _ => hsame
  exact ⟨signature, hsign, hverify.mpr hsame⟩

/-- A member `__proto__` can be added to a signed payload. -/
theorem proto_added : ∃ signature, sign openKeys (.ok "private") [] = .ok signature ∧
    verify openKeys [("__proto__", .obj [("isAdmin", .bool true)])] signature "public" = .ok true ∧
    canonicalize [("__proto__", .obj [("isAdmin", .bool true)])] = canonicalize [] ∧
    ¬ SameData (.obj [("__proto__", .obj [("isAdmin", .bool true)])]) (.obj []) := by
  have hempty : (JsonValue.obj []).WellFormed := .obj (by simp) (by simp)
  have hproto : (JsonValue.obj [("__proto__", .obj [("isAdmin", .bool true)])]).WellFormed :=
    .obj (by simp) (by
      intro m hm
      obtain rfl := List.mem_singleton.mp hm
      refine .obj (by simp) ?_
      intro m hm
      obtain rfl := List.mem_singleton.mp hm
      exact .bool true)
  have htext : canonicalize [("__proto__", .obj [("isAdmin", .bool true)])] = canonicalize [] := by
    rw [canonicalize_eq_iff hproto hempty]
    intro path hpath
    cases path with
    | nil => rfl
    | cons step path =>
      cases step with
      | idx i => rfl
      | key k =>
        have hkey : k ≠ "__proto__" := by
          rintro rfl
          exact hpath List.mem_cons_self
        rw [JsonValue.headAt, JsonValue.child, KeyValue.get_cons, if_neg hkey]
        rfl
  obtain ⟨signature, hsign, hverify⟩ := verify_sign_iff openKeys_pair hempty hproto
  refine ⟨signature, hsign, hverify.mpr htext.symm, htext, ?_⟩
  intro hsame
  have hlook := hsame [.key "__proto__"]
  simp [JsonValue.headAt, JsonValue.child, KeyValue.get_cons] at hlook

end SuperAi.Crypto
