import Mathlib.Data.List.Basic
import Mathlib.Data.Int.Notation

/-! # Bounded caches (`common/bounded-cache.ts`)

A map with a bound on its size and a time to live. Entries stand in the order of their insertion; reading an
entry inserts it anew, and the first one makes room.
-/
namespace SuperAi.Common
set_option autoImplicit false

universe u v

structure CacheEntry (α : Type v) where
  value : α
  ts : ℤ
  deriving DecidableEq, Repr

structure BoundedCache (κ : Type u) (α : Type v) where
  max : ℕ
  ttlMs : ℤ
  store : List (κ × CacheEntry α) := []
  deriving DecidableEq, Repr

namespace BoundedCache
variable {κ : Type u} {α : Type v} [DecidableEq κ]

def remove (cache : BoundedCache κ α) (key : κ) : List (κ × CacheEntry α) := cache.store.filter fun e => e.1 ≠ key

/-- `get` deletes an entry that has expired. -/
def get (cache : BoundedCache κ α) (now : ℤ) (key : κ) : Option α × BoundedCache κ α :=
  match cache.store.find? fun e => e.1 = key with
  | none => (none, cache)
  | some e =>
    if cache.ttlMs < now - e.2.ts then (none, { cache with store := cache.remove key })
    else (some e.2.value, { cache with store := cache.remove key ++ [e] })

def set (cache : BoundedCache κ α) (now : ℤ) (key : κ) (value : α) : BoundedCache κ α :=
  let store := cache.remove key ++ [(key, ⟨value, now⟩)]
  { cache with store := if cache.max < store.length then store.tail else store }

variable {cache : BoundedCache κ α} {now : ℤ} {key : κ} {value : α}

/-- What holds of the values under their keys is kept by `get`, and holds of what it gives. -/
theorem get_forall {P : κ → α → Prop} (h : ∀ e ∈ cache.store, P e.1 e.2.value) (now : ℤ) (key : κ) :
    (∀ value, (cache.get now key).1 = some value → P key value) ∧
      ∀ e ∈ (cache.get now key).2.store, P e.1 e.2.value := by
  have hremove : ∀ e ∈ cache.remove key, P e.1 e.2.value := fun e he => h e (List.mem_of_mem_filter he)
  unfold get
  cases hfind : cache.store.find? fun e => decide (e.1 = key) with
  | none => exact ⟨fun _ hvalue => (Option.some_ne_none _ hvalue.symm).elim, h⟩
  | some e =>
    have hmem := List.mem_of_find?_eq_some hfind
    have hkey : e.1 = key := by simpa using List.find?_some hfind
    dsimp only
    by_cases hexpired : cache.ttlMs < now - e.2.ts
    · rw [if_pos hexpired]
      exact ⟨fun _ hvalue => (Option.some_ne_none _ hvalue.symm).elim, hremove⟩
    · rw [if_neg hexpired]
      constructor
      · intro value hvalue
        obtain rfl := Option.some.inj hvalue
        exact hkey ▸ h e hmem
      · exact List.forall_mem_append.mpr ⟨hremove, List.forall_mem_singleton.mpr (h e hmem)⟩

theorem set_forall {P : κ → α → Prop} (h : ∀ e ∈ cache.store, P e.1 e.2.value) (now : ℤ) (hvalue : P key value) :
    ∀ e ∈ (cache.set now key value).store, P e.1 e.2.value := by
  have hall : ∀ e ∈ cache.remove key ++ [(key, CacheEntry.mk value now)], P e.1 e.2.value :=
    List.forall_mem_append.mpr ⟨fun e he => h e (List.mem_of_mem_filter he), List.forall_mem_singleton.mpr hvalue⟩
  intro e he
  apply hall
  simp only [set] at he
  by_cases hfull : cache.max < (cache.remove key ++ [(key, CacheEntry.mk value now)]).length
  · rw [if_pos hfull] at he
    exact List.mem_of_mem_tail he
  · rwa [if_neg hfull] at he

end BoundedCache
end SuperAi.Common
