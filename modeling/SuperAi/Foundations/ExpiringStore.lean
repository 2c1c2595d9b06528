import SuperAi.Foundations.KeyValue

/-! # Keys with an expiry

A store whose keys are written with a time to live: a value is there until its time has come, and a
read at that time no longer finds it. Times are those of one clock.
-/
namespace SuperAi.Foundations
set_option autoImplicit false

universe u v

structure Expiring (α : Type v) where
  value : α
  expiresAt : ℤ

abbrev ExpiringStore (κ : Type u) (α : Type v) := KeyValue κ (Expiring α)

namespace ExpiringStore
variable {κ : Type u} {α : Type v} [DecidableEq κ]

def read (store : ExpiringStore κ α) (now : ℤ) (key : κ) : Option α :=
  (KeyValue.get store key).bind fun entry => if now < entry.expiresAt then some entry.value else none

def setex (store : ExpiringStore κ α) (now ttl : ℤ) (key : κ) (value : α) : ExpiringStore κ α :=
  KeyValue.set store key ⟨value, now + ttl⟩

def replace (store : ExpiringStore κ α) (key : κ) (value : α) : ExpiringStore κ α :=
  match KeyValue.get store key with
  | some entry => KeyValue.set store key ⟨value, entry.expiresAt⟩
  | none => store

/-- The key is there at least up to this time. -/
def Lasts (store : ExpiringStore κ α) (key : κ) (till : ℤ) : Prop :=
  ∃ entry, KeyValue.get store key = some entry ∧ till ≤ entry.expiresAt

theorem read_of_get {store : ExpiringStore κ α} {key : κ} {entry : Expiring α}
    (h : KeyValue.get store key = some entry) {now : ℤ} (hnow : now < entry.expiresAt) :
    read store now key = some entry.value := by
  rw [read, h, Option.bind_some, if_pos hnow]

theorem read_setex_self (store : ExpiringStore κ α) {now now' ttl : ℤ} (key : κ) (value : α)
    (hnow : now' < now + ttl) : read (store.setex now ttl key value) now' key = some value :=
  read_of_get (KeyValue.get_set_self store key _) hnow

theorem get_replace {store : ExpiringStore κ α} {key : κ} {entry : Expiring α}
    (h : KeyValue.get store key = some entry) (value : α) :
    KeyValue.get (store.replace key value) key = some ⟨value, entry.expiresAt⟩ := by
  rw [replace, h]
  exact KeyValue.get_set_self store key _

theorem get_replace_of_ne {store : ExpiringStore κ α} {key key' : κ} {value : α} (hne : key' ≠ key) :
    KeyValue.get (store.replace key value) key' = KeyValue.get store key' := by
  unfold replace
  cases KeyValue.get store key with
  | none => rfl
  | some entry => exact KeyValue.get_set_of_ne hne

theorem read_of_lasts {store : ExpiringStore κ α} {key : κ} {till now : ℤ} (h : Lasts store key till)
    (hnow : now < till) : (read store now key).isSome := by
  obtain ⟨entry, hget, htill⟩ := h
  have hthere : now < entry.expiresAt := by omega
  simp [read, hget, hthere]

theorem lasts_setex (store : ExpiringStore κ α) (now ttl : ℤ) (key : κ) (value : α) :
    Lasts (store.setex now ttl key value) key (now + ttl) :=
  ⟨_, KeyValue.get_set_self store key _, le_refl _⟩

theorem read_setex_of_ne {store : ExpiringStore κ α} {now now' ttl : ℤ} {key key' : κ} {value : α}
    (hne : key' ≠ key) : read (store.setex now ttl key value) now' key' = read store now' key' := by
  unfold read setex
  rw [KeyValue.get_set_of_ne hne]

theorem read_del_of_ne {store : ExpiringStore κ α} {now : ℤ} {key key' : κ} (hne : key' ≠ key) :
    read (KeyValue.del store key) now key' = read store now key' := by
  unfold read
  rw [KeyValue.get_del_of_ne hne]

end ExpiringStore
end SuperAi.Foundations
