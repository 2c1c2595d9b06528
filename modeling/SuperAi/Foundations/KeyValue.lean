import Mathlib.Data.List.Sort

/-! # Key-value maps

An association list read from the front: JavaScript's `Map`, or one kind of key of a key-value
store.
-/
namespace SuperAi.Foundations
set_option autoImplicit false

universe u v

abbrev KeyValue (κ : Type u) (α : Type v) := List (κ × α)

namespace KeyValue
variable {κ : Type u} {α : Type v} [DecidableEq κ]

def get : KeyValue κ α → κ → Option α
  | [], _ => none
  | entry :: m, key => if key = entry.1 then some entry.2 else get m key

def del (m : KeyValue κ α) (key : κ) : KeyValue κ α := m.filter fun entry => entry.1 != key

def set (m : KeyValue κ α) (key : κ) (value : α) : KeyValue κ α := (key, value) :: m.del key

@[simp] theorem get_nil (key : κ) : get ([] : KeyValue κ α) key = none := rfl

theorem get_cons (entry : κ × α) (m : KeyValue κ α) (key : κ) :
    get (entry :: m) key = if key = entry.1 then some entry.2 else get m key := rfl

@[simp] theorem get_set_self (m : KeyValue κ α) (key : κ) (value : α) :
    get (m.set key value) key = some value := by
  rw [set, get_cons, if_pos rfl]

@[simp] theorem get_del_self (m : KeyValue κ α) (key : κ) : get (m.del key) key = none := by
  induction m with
  | nil => rfl
  | cons entry m ih =>
    rw [del, List.filter_cons]
    split
    · rename_i hne
      rw [get_cons, if_neg (fun heq => by simp [heq] at hne)]
      exact ih
    · exact ih

theorem get_del_of_ne {m : KeyValue κ α} {key key' : κ} (h : key' ≠ key) :
    get (m.del key) key' = get m key' := by
  induction m with
  | nil => rfl
  | cons entry m ih =>
    rw [del, List.filter_cons]
    split
    · rw [get_cons, get_cons]
      exact congrArg _ ih
    · rename_i heq
      have hkey : entry.1 = key := by simpa using heq
      rw [get_cons, if_neg (by rwa [hkey])]
      exact ih

theorem get_set_of_ne {m : KeyValue κ α} {key key' : κ} {value : α} (h : key' ≠ key) :
    get (m.set key value) key' = get m key' := by
  rw [set, get_cons, if_neg h, get_del_of_ne h]

/-- What holds of every entry holds after one more is set of which it holds. -/
theorem forall_get_set {m : KeyValue κ α} {P : κ → α → Prop} (h : ∀ key value, get m key = some value → P key value)
    {key : κ} {value : α} (hnew : P key value) :
    ∀ key' value', get (m.set key value) key' = some value' → P key' value' := by
  intro key' value' hget
  by_cases hkey : key' = key
  · subst hkey
    rw [get_set_self] at hget
    exact Option.some.inj hget ▸ hnew
  · rw [get_set_of_ne hkey] at hget
    exact h key' value' hget

theorem forall_get_del {m : KeyValue κ α} {P : κ → α → Prop} (h : ∀ key value, get m key = some value → P key value)
    (key : κ) : ∀ key' value', get (m.del key) key' = some value' → P key' value' := by
  intro key' value' hget
  by_cases hkey : key' = key
  · subst hkey
    rw [get_del_self] at hget
    cases hget
  · rw [get_del_of_ne hkey] at hget
    exact h key' value' hget

theorem mem_of_get {m : KeyValue κ α} {key : κ} {value : α} (h : get m key = some value) :
    (key, value) ∈ m := by
  induction m with
  | nil => simp at h
  | cons entry m ih =>
    rw [get_cons] at h
    split at h
    · rename_i heq
      obtain rfl := Option.some.inj h
      exact List.mem_cons.mpr (.inl (by rw [heq]))
    · exact List.mem_cons_of_mem _ (ih h)

theorem mem_del {m : KeyValue κ α} {key : κ} {entry : κ × α} (h : entry ∈ m.del key) : entry ∈ m :=
  List.mem_of_mem_filter h

theorem get_filter {m : KeyValue κ α} {p : κ × α → Bool} {key : κ} {value : α} (h : get m key = some value)
    (hp : p (key, value) = true) : get (m.filter p) key = some value := by
  induction m with
  | nil => simp at h
  | cons entry m ih =>
    rw [get_cons] at h
    by_cases heq : key = entry.1
    · rw [if_pos heq] at h
      have hentry : entry = (key, value) := Prod.ext heq.symm (Option.some.inj h)
      rw [List.filter_cons, hentry, if_pos hp, get_cons, if_pos rfl]
    · rw [if_neg heq] at h
      rw [List.filter_cons]
      split
      · rw [get_cons, if_neg heq]
        exact ih h
      · exact ih h

theorem get_mapEntries {β : Type v} (m : KeyValue κ α) (f : κ → α → β) (key : κ) :
    get (m.map fun entry => (entry.1, f entry.1 entry.2)) key = (get m key).map (f key) := by
  induction m with
  | nil => rfl
  | cons entry m ih =>
    rw [List.map_cons, get_cons, get_cons, ih]
    by_cases heq : key = entry.1
    · rw [if_pos heq, if_pos heq, heq]
      rfl
    · rw [if_neg heq, if_neg heq]

theorem get_map {β : Type v} (m : KeyValue κ α) (f : α → β) (key : κ) :
    get (m.map fun entry => (entry.1, f entry.2)) key = (get m key).map f :=
  get_mapEntries m (fun _ => f) key

theorem get_append (m m' : KeyValue κ α) (key : κ) : get (m ++ m') key = (get m key).or (get m' key) := by
  induction m with
  | nil => rfl
  | cons entry m ih =>
    rw [List.cons_append, get_cons, get_cons, ih]
    split <;> rfl

/-! ## Maps with distinct keys -/

theorem get_eq_some_iff {m : KeyValue κ α} (h : (m.map Prod.fst).Nodup) {key : κ} {value : α} :
    get m key = some value ↔ (key, value) ∈ m := by
  refine ⟨mem_of_get, fun hmem => ?_⟩
  induction m with
  | nil => cases hmem
  | cons entry m ih =>
    obtain ⟨hfresh, hnodup⟩ := List.nodup_cons.mp h
    rw [get_cons]
    rcases List.mem_cons.mp hmem with rfl | hmem
    · rw [if_pos rfl]
    · have hkey : key ∈ m.map Prod.fst := List.mem_map.mpr ⟨_, hmem, rfl⟩
      have hne : key ≠ entry.1 := fun heq => hfresh (heq ▸ hkey)
      rw [if_neg hne, ih hnodup hmem]

theorem get_eq_none_iff {m : KeyValue κ α} {key : κ} : get m key = none ↔ key ∉ m.map Prod.fst := by
  induction m with
  | nil => simp
  | cons entry m ih =>
    rw [get_cons, List.map_cons, List.mem_cons]
    by_cases heq : key = entry.1
    · simp [heq]
    · simp [heq, ih]

theorem nodup_set {m : KeyValue κ α} (h : (m.map Prod.fst).Nodup) (key : κ) (value : α) :
    ((m.set key value).map Prod.fst).Nodup := by
  have hdel : ((m.del key).map Prod.fst).Nodup := h.sublist (List.filter_sublist.map Prod.fst)
  refine List.nodup_cons.mpr ⟨fun hmem => ?_, hdel⟩
  exact get_eq_none_iff.mp (get_del_self m key) hmem

omit [DecidableEq κ] in
theorem nodup_filter {m : KeyValue κ α} (h : (m.map Prod.fst).Nodup) (p : κ × α → Bool) :
    ((m.filter p).map Prod.fst).Nodup :=
  h.sublist (List.filter_sublist.map Prod.fst)

theorem get_filter_eq_some {m : KeyValue κ α} (h : (m.map Prod.fst).Nodup) {p : κ × α → Bool} {key : κ} {value : α} :
    get (m.filter p) key = some value ↔ get m key = some value ∧ p (key, value) = true := by
  rw [get_eq_some_iff (nodup_filter h p), get_eq_some_iff h, List.mem_filter]

theorem get_filterMap {β : Type v} {m : KeyValue κ α} (h : (m.map Prod.fst).Nodup) (f : α → Option β)
    (key : κ) :
    get (m.filterMap fun entry => (f entry.2).map (entry.1, ·)) key = (get m key).bind f := by
  induction m with
  | nil => rfl
  | cons entry m ih =>
    obtain ⟨hfresh, hnodup⟩ := List.nodup_cons.mp h
    rw [get_cons]
    by_cases heq : key = entry.1
    · subst heq
      cases hf : f entry.2 with
      | none =>
        rw [List.filterMap_cons_none (by simp [hf]), ih hnodup, if_pos rfl, Option.bind_some, hf,
          get_eq_none_iff.mpr hfresh, Option.bind_none]
      | some b =>
        rw [List.filterMap_cons_some (b := (entry.1, b)) (by simp [hf]), get_cons, if_pos rfl, if_pos rfl,
          Option.bind_some, hf]
    · rw [if_neg heq, ← ih hnodup]
      cases hf : f entry.2 with
      | none => rw [List.filterMap_cons_none (by simp [hf])]
      | some b => rw [List.filterMap_cons_some (b := (entry.1, b)) (by simp [hf]), get_cons, if_neg heq]

omit [DecidableEq κ] in
theorem keys_filterMap_sublist {β : Type v} (m : KeyValue κ α) (f : α → Option β) :
    ((m.filterMap fun entry => (f entry.2).map (entry.1, ·)).map Prod.fst).Sublist (m.map Prod.fst) := by
  induction m with
  | nil => exact List.Sublist.refl _
  | cons entry m ih =>
    cases hf : f entry.2 with
    | none =>
      rw [List.filterMap_cons_none (by simp [hf])]
      exact ih.cons _
    | some b =>
      rw [List.filterMap_cons_some (b := (entry.1, b)) (by simp [hf])]
      exact ih.cons_cons _

/-- The map that a function gives on a list of keys. -/
theorem get_ofKeys (keys : List κ) (f : κ → Option α) (key : κ) :
    get (keys.filterMap fun k => (f k).map (k, ·)) key = if key ∈ keys then f key else none := by
  induction keys with
  | nil => rfl
  | cons k keys ih =>
    by_cases heq : key = k
    · subst heq
      cases hf : f key with
      | none =>
        rw [List.filterMap_cons_none (by simp [hf]), ih]
        simp [hf]
      | some b =>
        rw [List.filterMap_cons_some (b := (key, b)) (by simp [hf]), get_cons, if_pos rfl]
        simp
    · have hrest : get ((k :: keys).filterMap fun k => (f k).map (k, ·)) key =
          get (keys.filterMap fun k => (f k).map (k, ·)) key := by
        cases hf : f k with
        | none => rw [List.filterMap_cons_none (by simp [hf])]
        | some b => rw [List.filterMap_cons_some (b := (k, b)) (by simp [hf]), get_cons, if_neg heq]
      rw [hrest, ih]
      simp [heq]

/-- Maps in the order of their keys are determined by their entries. -/
theorem eq_of_get {κ : Type u} [LinearOrder κ] {m m' : KeyValue κ α}
    (h : (m.map Prod.fst).Pairwise (· < ·)) (h' : (m'.map Prod.fst).Pairwise (· < ·))
    (hget : ∀ key, get m key = get m' key) : m = m' := by
  have hmem : ∀ entry, entry ∈ m ↔ entry ∈ m' := by
    intro entry
    rw [← get_eq_some_iff (h.imp ne_of_lt), ← get_eq_some_iff (h'.imp ne_of_lt), hget]
  have hirrefl : Std.Irrefl fun a b : κ × α => a.1 < b.1 := ⟨fun a => lt_irrefl a.1⟩
  have hantisymm : Std.Antisymm fun a b : κ × α => a.1 < b.1 :=
    ⟨fun a b hab hba => absurd hba (lt_asymm hab)⟩
  exact (List.pairwise_map.mp h).eq_of_mem_iff (List.pairwise_map.mp h') hmem

end KeyValue

/-! ## Object literals as tables

`table[key]` of a JavaScript object literal: its own members, and below them what every object inherits.
-/

/-- The keys of `Object.prototype`. -/
def prototypeKeys : List String :=
  ["constructor", "__defineGetter__", "__defineSetter__", "hasOwnProperty", "__lookupGetter__", "__lookupSetter__",
    "isPrototypeOf", "propertyIsEnumerable", "toString", "valueOf", "__proto__", "toLocaleString"]

inductive Lookup (α : Type u)
  | own (value : α)
  | inherited
  | undefined
  deriving DecidableEq, Repr

def lookup {α : Type u} (table : KeyValue String α) (key : String) : Lookup α :=
  match table.get key with
  | some value => .own value
  | none => if key ∈ prototypeKeys then .inherited else .undefined

section
variable {α : Type u} {table : KeyValue String α} {key : String}

theorem lookup_of_not_own (h : table.get key = none) :
    lookup table key = if key ∈ prototypeKeys then .inherited else .undefined := by
  rw [lookup, h]

end
end SuperAi.Foundations
