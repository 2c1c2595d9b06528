import SuperAi.Foundations.KeyValue
import Mathlib.Data.String.Basic
import Mathlib.Data.List.Sort

/-! # Objects that are built key by key

Keys are compared by their UTF-16 code units, as `Array.prototype.sort` does. An assignment to `__proto__` makes no
member; an object lists its array indices first, in the order of the numbers, and then its other keys in the order of
their assignments. An object that is built in the order of its keys depends only on what its keys hold
(`buildSorted_congr`).
-/
namespace SuperAi.Foundations
set_option autoImplicit false

universe v

/-! ## Code units -/

def utf16Units (c : Char) : List ℕ :=
  if c.toNat < 65536 then [c.toNat] else [55296 + (c.toNat - 65536) / 1024, 56320 + (c.toNat - 65536) % 1024]

def utf16 (s : String) : List ℕ := s.toList.flatMap utf16Units

/-- No scalar value is a surrogate. -/
theorem toNat_scalar (c : Char) : (c.toNat < 55296 ∨ 57343 < c.toNat) ∧ c.toNat < 1114112 := by
  have hvalid := c.valid
  simp only [UInt32.isValidChar, Nat.isValidChar] at hvalid
  change (c.val.toNat < 55296 ∨ 57343 < c.val.toNat) ∧ c.val.toNat < 1114112
  omega

theorem utf16Units_append_inj {c d : Char} {u v : List ℕ} (h : utf16Units c ++ u = utf16Units d ++ v) :
    c = d ∧ u = v := by
  have hc := toNat_scalar c
  have hd := toNat_scalar d
  have hchar : c.toNat = d.toNat → c = d := fun heq => Char.toNat_inj.mp heq
  unfold utf16Units at h
  by_cases hsmall : c.toNat < 65536
  · by_cases hsmall' : d.toNat < 65536
    · rw [if_pos hsmall, if_pos hsmall'] at h
      simp only [List.cons_append, List.nil_append, List.cons.injEq] at h
      exact ⟨hchar h.1, h.2⟩
    · rw [if_pos hsmall, if_neg hsmall'] at h
      simp only [List.cons_append, List.nil_append, List.cons.injEq] at h
      omega
  · by_cases hsmall' : d.toNat < 65536
    · rw [if_neg hsmall, if_pos hsmall'] at h
      simp only [List.cons_append, List.nil_append, List.cons.injEq] at h
      omega
    · rw [if_neg hsmall, if_neg hsmall'] at h
      simp only [List.cons_append, List.nil_append, List.cons.injEq] at h
      exact ⟨hchar (by omega), h.2.2⟩

theorem utf16_injective : Function.Injective utf16 := by
  have hlists : ∀ cs ds : List Char, cs.flatMap utf16Units = ds.flatMap utf16Units → cs = ds := by
    intro cs
    induction cs with
    | nil =>
      intro ds h
      cases ds with
      | nil => rfl
      | cons d ds =>
        rw [List.flatMap_nil, List.flatMap_cons, utf16Units] at h
        split at h
        · cases h
        · cases h
    | cons c cs ih =>
      intro ds h
      cases ds with
      | nil =>
        rw [List.flatMap_nil, List.flatMap_cons, utf16Units] at h
        split at h
        · cases h
        · cases h
      | cons d ds =>
        rw [List.flatMap_cons, List.flatMap_cons] at h
        obtain ⟨rfl, hrest⟩ := utf16Units_append_inj h
        rw [ih ds hrest]
  intro s t h
  exact String.toList_inj.mp (hlists _ _ h)

/-- The order of texts by their code units. -/
def unitsLe : List ℕ → List ℕ → Bool
  | [], _ => true
  | _ :: _, [] => false
  | a :: u, b :: v => decide (a < b) || (a == b && unitsLe u v)

theorem unitsLe_cons {a b : ℕ} {u v : List ℕ} :
    unitsLe (a :: u) (b :: v) = true ↔ a < b ∨ a = b ∧ unitsLe u v = true := by
  simp [unitsLe]

theorem unitsLe_trans : ∀ {u v w : List ℕ}, unitsLe u v = true → unitsLe v w = true → unitsLe u w = true := by
  intro u
  induction u with
  | nil => exact fun _ _ => rfl
  | cons a u ih =>
    intro v w huv hvw
    cases v with
    | nil => cases huv
    | cons b v =>
      cases w with
      | nil => cases hvw
      | cons c w =>
        rw [unitsLe_cons] at huv hvw ⊢
        obtain hab | ⟨rfl, huv⟩ := huv
        · obtain hbc | ⟨rfl, -⟩ := hvw
          · exact .inl (hab.trans hbc)
          · exact .inl hab
        · exact hvw.imp_right fun hrest => ⟨hrest.1, ih huv hrest.2⟩

theorem unitsLe_total : ∀ u v : List ℕ, unitsLe u v = true ∨ unitsLe v u = true := by
  intro u
  induction u with
  | nil => exact fun _ => .inl rfl
  | cons a u ih =>
    intro v
    cases v with
    | nil => exact .inr rfl
    | cons b v =>
      rw [unitsLe_cons, unitsLe_cons]
      have hrest := ih v
      grind

theorem unitsLe_antisymm : ∀ {u v : List ℕ}, unitsLe u v = true → unitsLe v u = true → u = v := by
  intro u
  induction u with
  | nil =>
    intro v _ hvu
    cases v with
    | nil => rfl
    | cons b v => cases hvu
  | cons a u ih =>
    intro v huv hvu
    cases v with
    | nil => cases huv
    | cons b v =>
      rw [unitsLe_cons] at huv hvu
      obtain hab | ⟨rfl, huv⟩ := huv
      · omega
      · obtain hlt | ⟨-, hvu⟩ := hvu
        · omega
        · rw [ih huv hvu]

/-! ## Building an object -/

variable {α : Type v}

/-- `object[key] = value`. -/
def assign (object : KeyValue String α) (key : String) (value : α) : KeyValue String α :=
  if key = "__proto__" then object
  else if key ∈ object.map Prod.fst then object.map fun m => if m.1 = key then (key, value) else m
  else object ++ [(key, value)]

def assignAll (members : List (String × α)) : KeyValue String α :=
  members.foldl (fun object m => assign object m.1 m.2) []

/-- The number that a key is, if it is an array index. -/
def arrayIndex (key : String) : Option ℕ :=
  key.toNat?.filter fun n => toString n = key ∧ n < 4294967295

/-- The members in the order in which the object lists them. -/
def listed (object : KeyValue String α) : KeyValue String α :=
  (object.filter fun m => (arrayIndex m.1).isSome).mergeSort
      (fun m m' => decide ((arrayIndex m.1).getD 0 ≤ (arrayIndex m'.1).getD 0)) ++
    object.filter fun m => (arrayIndex m.1).isNone

def byKey (m m' : String × α) : Bool := unitsLe (utf16 m.1) (utf16 m'.1)

/-- The object that gets the members in the order of their keys. -/
def buildSorted (members : List (String × α)) : KeyValue String α := listed (assignAll (members.mergeSort byKey))

theorem assignAll_eq {members : List (String × α)} (h : (members.map Prod.fst).Nodup) :
    assignAll members = members.filter fun m => m.1 ≠ "__proto__" := by
  have hfold : ∀ (rest done : List (String × α)), ((done ++ rest).map Prod.fst).Nodup →
      rest.foldl (fun object m => assign object m.1 m.2) done = done ++ rest.filter fun m => m.1 ≠ "__proto__" := by
    intro rest
    induction rest with
    | nil =>
      intro done _
      simp
    | cons m rest ih =>
      intro done hnodup
      rw [List.foldl_cons, assign]
      by_cases hproto : m.1 = "__proto__"
      · rw [if_pos hproto, List.filter_cons_of_neg (by simpa using hproto)]
        apply ih
        rw [List.map_append, List.map_cons, List.nodup_middle, ← List.map_append] at hnodup
        exact hnodup.of_cons
      · have hfresh : m.1 ∉ done.map Prod.fst := by
          rw [List.map_append, List.map_cons, List.nodup_middle, ← List.map_append, List.nodup_cons] at hnodup
          exact fun hmem => hnodup.1 (by rw [List.map_append]; exact List.mem_append_left _ hmem)
        rw [if_neg hproto, if_neg hfresh, List.filter_cons_of_pos (by simpa using hproto)]
        have hnext := ih (done ++ [m]) (by rwa [List.append_assoc])
        rw [hnext, List.append_assoc]
        rfl
  exact hfold members [] h

theorem listed_perm (object : KeyValue String α) : (listed object).Perm object := by
  have hsplit := List.filter_append_perm (fun m : String × α => (arrayIndex m.1).isSome) object
  refine List.Perm.trans ((List.mergeSort_perm _ _).append_right _) ?_
  have hnone : (fun m : String × α => (arrayIndex m.1).isNone) = fun m => !(arrayIndex m.1).isSome := by
    funext m
    cases arrayIndex m.1 with
    | none => rfl
    | some n => rfl
  rw [hnone]
  exact hsplit

theorem nodup_keys_perm {m m' : List (String × α)} (h : m.Perm m') (hnodup : (m'.map Prod.fst).Nodup) :
    (m.map Prod.fst).Nodup := (h.map Prod.fst).symm.nodup hnodup

/-- The members of the object are those it was built of, but for `__proto__`. -/
theorem buildSorted_perm {members : List (String × α)} (h : (members.map Prod.fst).Nodup) :
    (buildSorted members).Perm (members.filter fun m => m.1 ≠ "__proto__") := by
  have hsorted := List.mergeSort_perm members byKey
  refine (listed_perm _).trans ?_
  rw [assignAll_eq (nodup_keys_perm hsorted h)]
  exact hsorted.filter _

theorem nodup_buildSorted {members : List (String × α)} (h : (members.map Prod.fst).Nodup) :
    ((buildSorted members).map Prod.fst).Nodup := by
  apply nodup_keys_perm (buildSorted_perm h)
  exact h.sublist (List.filter_sublist.map Prod.fst)

theorem get_buildSorted {members : List (String × α)} (h : (members.map Prod.fst).Nodup) (key : String) :
    KeyValue.get (buildSorted members) key = if key = "__proto__" then none else KeyValue.get members key := by
  apply Option.ext
  intro value
  rw [KeyValue.get_eq_some_iff (nodup_buildSorted h), (buildSorted_perm h).mem_iff, List.mem_filter]
  by_cases hproto : key = "__proto__"
  · simp [hproto]
  · simp [hproto, KeyValue.get_eq_some_iff h]

/-- **Canonical form.** What is built in the order of the keys depends only on what the keys hold. -/
theorem buildSorted_congr {ms ms' : List (String × α)} (h : (ms.map Prod.fst).Nodup) (h' : (ms'.map Prod.fst).Nodup)
    (hget : ∀ key, key ≠ "__proto__" → KeyValue.get ms key = KeyValue.get ms' key) : buildSorted ms = buildSorted ms' := by
  have htrans : ∀ a b c : String × α, byKey a b = true → byKey b c = true → byKey a c = true := by
    intro a b c hab hbc
    exact unitsLe_trans hab hbc
  have htotal : ∀ a b : String × α, (byKey a b || byKey b a) = true := by
    intro a b
    rw [Bool.or_eq_true]
    exact unitsLe_total _ _
  have hassigned : assignAll (ms.mergeSort byKey) = assignAll (ms'.mergeSort byKey) := by
    have hsorted := List.mergeSort_perm ms byKey
    have hsorted' := List.mergeSort_perm ms' byKey
    rw [assignAll_eq (nodup_keys_perm hsorted h), assignAll_eq (nodup_keys_perm hsorted' h')]
    have hnodup : ((ms.filter fun m => m.1 ≠ "__proto__").map Prod.fst).Nodup :=
      h.sublist (List.filter_sublist.map Prod.fst)
    have hnodup' : ((ms'.filter fun m => m.1 ≠ "__proto__").map Prod.fst).Nodup :=
      h'.sublist (List.filter_sublist.map Prod.fst)
    have hmem : ∀ m : String × α, m ∈ ms.filter (fun m => m.1 ≠ "__proto__") ↔
        m ∈ ms'.filter (fun m => m.1 ≠ "__proto__") := by
      intro m
      rw [List.mem_filter, List.mem_filter, ← KeyValue.get_eq_some_iff h, ← KeyValue.get_eq_some_iff h']
      by_cases hproto : m.1 = "__proto__"
      · simp [hproto]
      · rw [hget m.1 hproto]
    have hperm := (List.perm_ext_iff_of_nodup (List.Nodup.of_map _ hnodup) (List.Nodup.of_map _ hnodup')).mpr hmem
    apply List.Perm.eq_of_pairwise _ ((List.pairwise_mergeSort htrans htotal ms).filter _)
      ((List.pairwise_mergeSort htrans htotal ms').filter _)
      ((hsorted.filter _).trans (hperm.trans (hsorted'.filter _).symm))
    intro a b ha hb hab hba
    have hkey : a.1 = b.1 := utf16_injective (unitsLe_antisymm hab hba)
    -- both are members of the second list, which has each key once
    have ha' := (hmem a).mp ((hsorted.filter _).mem_iff.mp ha)
    have hb' := (hsorted'.filter _).mem_iff.mp hb
    have hvalue := (KeyValue.get_eq_some_iff hnodup').mpr ha'
    rw [hkey, (KeyValue.get_eq_some_iff hnodup').mpr hb'] at hvalue
    exact Prod.ext hkey (Option.some.inj hvalue).symm
  rw [buildSorted, buildSorted, hassigned]

end SuperAi.Foundations
