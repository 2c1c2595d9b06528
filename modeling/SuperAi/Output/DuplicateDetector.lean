import SuperAi.Foundations.ExpiringStore
import SuperAi.Foundations.Joined
import SuperAi.Output.SanityChecker

/-! # The duplicate detector

`DuplicateDetector.check` (`output/duplicate.detector.ts`): a mark under a key computed from the order, left by
the first check that finds none. The adapter that it reads and writes the marks through is a parameter. So are
the hash and the text of a number from 10²¹ on, where `toFixed` prints the number itself. Log lines and events
are left out.
-/
namespace SuperAi.Output
open SuperAi.Foundations SuperAi.Risk
set_option autoImplicit false

/-! ## The key of an order -/

/-- `Number.prototype.toFixed(2)` -/
def toFixed2 (numberText : ℚ → String) (x : ℚ) : String :=
  if 10 ^ 21 ≤ |x| then numberText x
  else
    let n := (|x| * 100 + 1 / 2).floor.toNat
    (if x < 0 then "-" else "") ++ Nat.repr (n / 100) ++ "." ++ Nat.repr (n / 10 % 10) ++ Nat.repr (n % 10)

def sideText : OrderSide → String
  | .BUY => "BUY"
  | .SELL => "SELL"

def orderTypeText : Risk.OrderType → String
  | .MARKET => "MARKET"
  | .LIMIT => "LIMIT"
  | .STOP => "STOP"
  | .STOP_LIMIT => "STOP_LIMIT"

structure DuplicateDetectorConfig where
  /-- Redis takes no other expiry than a positive one. -/
  dedupWindowSeconds : ℕ+
  redisKeyPrefix : String

def DEFAULT_CONFIG : DuplicateDetectorConfig := ⟨60, "security:dedup:"⟩

/-- What the detector asks of the adapter, at a time in milliseconds. -/
structure DedupAdapter (σ : Type) where
  get : σ → ℤ → String → Option String
  set : σ → ℤ → String → String → ℕ+ → σ

/-- Keys that expire at their time to live. -/
def expiringAdapter : DedupAdapter (ExpiringStore String String) where
  get store now key := store.read now key
  set store now key value ttlSeconds := store.setex now (1000 * (ttlSeconds : ℕ)) key value

structure DuplicateCheckResult where
  isDuplicate : Bool
  originalOrderId : Option String := none
  deriving DecidableEq, Repr

structure DuplicateDetector where
  config : DuplicateDetectorConfig := DEFAULT_CONFIG
  sha256 : String → String
  numberText : ℚ → String

namespace DuplicateDetector
variable (detector : DuplicateDetector)

/-- What the key is made of. -/
def components (order : PlaceOrderAction) : List String :=
  let quantityRounded := toFixed2 detector.numberText order.quantity
  let priceRounded := match order.price with
    | some price => toFixed2 detector.numberText price
    | none => "MARKET"
  [order.instrument, sideText order.side, orderTypeText order.orderType, quantityRounded, priceRounded]

def computeDedupKey (order : PlaceOrderAction) : String :=
  detector.sha256 ("|".intercalate (detector.components order))

def redisKey (order : PlaceOrderAction) : String := detector.config.redisKeyPrefix ++ detector.computeDedupKey order

def windowMs : ℤ := 1000 * (detector.config.dedupWindowSeconds : ℕ)

def check {σ : Type} (redis : DedupAdapter σ) (now : ℤ) (store : σ) (action : AgentAction) :
    DuplicateCheckResult × σ :=
  match action with
  | .PlaceOrder placeOrder =>
    match redis.get store now (detector.redisKey placeOrder) with
    | some existing => ({ isDuplicate := true, originalOrderId := some existing }, store)
    | none =>
      ({ isDuplicate := false },
        redis.set store now (detector.redisKey placeOrder) placeOrder.clientOrderId
          detector.config.dedupWindowSeconds)
  | _ => ({ isDuplicate := false }, store)

end DuplicateDetector

/-! ## What the key tells apart -/

theorem not_mem_toDigits (n : ℕ) {c : Char} (h : c.isDigit = false) : c ∉ Nat.toDigits 10 n := by
  intro hmem
  rw [Nat.isDigit_of_mem_toDigits (by decide) (by decide) hmem] at h
  cases h

theorem not_mem_toFixed2 {numberText : ℚ → String} (h : ∀ x, '|' ∉ (numberText x).toList) (x : ℚ) :
    '|' ∉ (toFixed2 numberText x).toList := by
  unfold toFixed2
  by_cases hlarge : 10 ^ 21 ≤ |x|
  · rw [if_pos hlarge]
    exact h x
  · rw [if_neg hlarge]
    have hdigits : ∀ n : ℕ, '|' ∉ Nat.toDigits 10 n := fun n => not_mem_toDigits n rfl
    by_cases hsign : x < 0
    · simp [hsign, hdigits]
    · simp [hsign, hdigits]

namespace DuplicateDetector
variable {detector : DuplicateDetector} {order order' : PlaceOrderAction}

/-- Under a hash without collisions two orders have one key only if the instrument, the side, the order type,
and the quantity and the price to two decimals are the same. -/
theorem computeDedupKey_eq_iff (hsha256 : Function.Injective detector.sha256)
    (hnumber : ∀ x, '|' ∉ (detector.numberText x).toList) :
    detector.computeDedupKey order = detector.computeDedupKey order' ↔
      detector.components order = detector.components order' := by
  have hparts : ∀ o : PlaceOrderAction, ∀ part ∈ (detector.components o).tail, '|' ∉ part.toList := by
    intro o part hpart
    have hfixed := fun x => not_mem_toFixed2 hnumber x
    have hside : '|' ∉ (sideText o.side).toList := by cases o.side <;> decide
    have htype : '|' ∉ (orderTypeText o.orderType).toList := by cases o.orderType <;> decide
    cases hprice : o.price with
    | none =>
      simp only [components, hprice, List.tail_cons, List.mem_cons, List.not_mem_nil, or_false] at hpart
      rcases hpart with rfl | rfl | rfl | rfl
      · exact hside
      · exact htype
      · exact hfixed _
      · decide
    | some price =>
      simp only [components, hprice, List.tail_cons, List.mem_cons, List.not_mem_nil, or_false] at hpart
      rcases hpart with rfl | rfl | rfl | rfl
      · exact hside
      · exact htype
      · exact hfixed _
      · exact hfixed _
  refine ⟨fun h => ?_, fun h => by rw [computeDedupKey, h, computeDedupKey]⟩
  obtain ⟨hinstrument, hrest⟩ := @join_inj '|' order.instrument order'.instrument (detector.components order).tail
    (detector.components order').tail rfl (hparts order) (hparts order') (hsha256 h)
  exact congrArg₂ List.cons hinstrument hrest

theorem redisKey_eq_iff : detector.redisKey order = detector.redisKey order' ↔
    detector.computeDedupKey order = detector.computeDedupKey order' := by
  refine ⟨fun h => ?_, fun h => by rw [redisKey, h, redisKey]⟩
  have hchars := congrArg String.toList h
  rw [redisKey, redisKey, String.toList_append, String.toList_append] at hchars
  exact String.toList_injective (List.append_cancel_left hchars)

end DuplicateDetector
end SuperAi.Output
