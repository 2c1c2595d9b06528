import SuperAi.Risk.RiskEngine
import SuperAi.Foundations.ExpiringStore
import Mathlib.Tactic.Linarith

/-! # The wash trade detector

`WashTradeDetector.check` (`compliance/wash.trade.detector.ts`). The lists of recent orders are kept as
the records whose JSON texts are stored.
-/
namespace SuperAi.Compliance
open SuperAi.Foundations SuperAi.Risk
set_option autoImplicit false

structure StoredOrder where
  clientOrderId : String
  instrument : String
  side : OrderSide
  quantity : ℚ
  timestamp : ℤ
  deriving DecidableEq, Repr

/-- The lists of recent orders, each with the expiry of its key. -/
abbrev OrderLists := ExpiringStore String (List StoredOrder)

def orderListKey (userId instrument : String) : String := "wash:orders:" ++ userId ++ ":" ++ instrument

def QUANTITY_TOLERANCE : ℚ := 1 / 10

def oppositeSide : OrderSide → OrderSide
  | .BUY => .SELL
  | .SELL => .BUY

namespace WashTradeDetector

def quantityRatio (stored current : ℚ) : ℚ :=
  let diff := |stored - current|
  let avg := (stored + current) / 2
  if 0 < avg then diff / avg else 0

def isWashTrade (windowMs now : ℤ) (action : PlaceOrderAction) (stored : StoredOrder) : Bool :=
  decide (now - stored.timestamp ≤ windowMs) && decide (stored.side = oppositeSide action.side) &&
    decide (quantityRatio stored.quantity action.quantity ≤ QUANTITY_TOLERANCE)

/-- The seconds that the key lasts, in milliseconds. -/
def orderListTtl (windowMs : ℤ) : ℤ := (windowMs + 999) / 1000 * 1000

def storedOrder (now : ℤ) (action : PlaceOrderAction) : StoredOrder where
  clientOrderId := action.clientOrderId
  instrument := action.instrument
  side := action.side
  quantity := action.quantity
  timestamp := now

def recentOrders (now : ℤ) (store : OrderLists) (userId instrument : String) : List StoredOrder :=
  (store.read now (orderListKey userId instrument)).getD []

/-- An order that passes is put in front of the list, an order that is a wash trade is not. -/
def check (windowMs now : ℤ) (store : OrderLists) (action : PlaceOrderAction) (userId : String) :
    Except String Unit × OrderLists :=
  let rawOrders := recentOrders now store userId action.instrument
  match rawOrders.find? (isWashTrade windowMs now action) with
  | some stored =>
    (.error ("Wash trade detected for " ++ action.instrument ++ ": order " ++ action.clientOrderId
      ++ " matches " ++ stored.clientOrderId), store)
  | none =>
    (.ok (), store.setex now (orderListTtl windowMs) (orderListKey userId action.instrument)
      (storedOrder now action :: rawOrders))

variable {windowMs now later : ℤ} {store : OrderLists} {action action' : PlaceOrderAction} {userId : String}

theorem check_of_some {stored : StoredOrder}
    (h : (recentOrders now store userId action.instrument).find? (isWashTrade windowMs now action) = some stored) :
    check windowMs now store action userId =
      (.error ("Wash trade detected for " ++ action.instrument ++ ": order " ++ action.clientOrderId
        ++ " matches " ++ stored.clientOrderId), store) := by
  rw [check, h]

theorem check_of_none
    (h : (recentOrders now store userId action.instrument).find? (isWashTrade windowMs now action) = none) :
    check windowMs now store action userId =
      (.ok (), store.setex now (orderListTtl windowMs) (orderListKey userId action.instrument)
        (storedOrder now action :: recentOrders now store userId action.instrument)) := by
  rw [check, h]

theorem check_passes_iff : (check windowMs now store action userId).1 = .ok () ↔
    ∀ stored ∈ recentOrders now store userId action.instrument, ¬ isWashTrade windowMs now action stored := by
  rw [← List.find?_eq_none]
  cases hfind : (recentOrders now store userId action.instrument).find? (isWashTrade windowMs now action) with
  | none => simp [check_of_none hfind]
  | some stored => simp [check_of_some hfind]

theorem check_store_of_passes (h : (check windowMs now store action userId).1 = .ok ()) :
    (check windowMs now store action userId).2 = store.setex now (orderListTtl windowMs)
      (orderListKey userId action.instrument)
        (storedOrder now action :: recentOrders now store userId action.instrument) := by
  rw [check_passes_iff, ← List.find?_eq_none] at h
  rw [check_of_none h]

theorem quantityRatio_self (quantity : ℚ) : quantityRatio quantity quantity = 0 := by
  simp [quantityRatio]

theorem le_orderListTtl (windowMs : ℤ) : windowMs ≤ orderListTtl windowMs := by
  unfold orderListTtl
  omega

/-- Two orders on one instrument, of one quantity and of opposite sides: the second is found, unless
the window has passed. -/
theorem check_opposite (hpass : (check windowMs now store action userId).1 = .ok ())
    (hinstrument : action'.instrument = action.instrument) (hquantity : action'.quantity = action.quantity)
    (hside : action'.side = oppositeSide action.side) (hwindow : later - now < windowMs) :
    (check windowMs later (check windowMs now store action userId).2 action' userId).1 ≠ .ok () := by
  rw [check_store_of_passes hpass, ne_eq, check_passes_iff]
  intro hnone
  have hlasts := le_orderListTtl windowMs
  have hthere : later < now + orderListTtl windowMs := by omega
  have hread : recentOrders later (store.setex now (orderListTtl windowMs)
      (orderListKey userId action.instrument)
        (storedOrder now action :: recentOrders now store userId action.instrument)) userId action'.instrument
      = storedOrder now action :: recentOrders now store userId action.instrument := by
    rw [hinstrument]
    exact congrArg (·.getD []) (ExpiringStore.read_setex_self store _ _ hthere)
  rw [hread] at hnone
  refine hnone _ List.mem_cons_self ?_
  have hopposite : (storedOrder now action).side = oppositeSide action'.side := by
    rw [hside]
    cases haction : action.side <;> simp [storedOrder, oppositeSide, haction]
  have hratio : quantityRatio (storedOrder now action).quantity action'.quantity ≤ QUANTITY_TOLERANCE := by
    rw [hquantity, storedOrder, quantityRatio_self]
    norm_num [QUANTITY_TOLERANCE]
  have hrecent : later - (storedOrder now action).timestamp ≤ windowMs := hwindow.le
  simp [isWashTrade, hopposite, hratio, hrecent]

/-! ## Orders of one side -/

def OneSided (side : OrderSide) (store : OrderLists) : Prop :=
  ∀ key entry, KeyValue.get store key = some entry → ∀ stored ∈ entry.value, stored.side = side

theorem oneSided_nil (side : OrderSide) : OneSided side [] := by
  intro key entry hget
  simp at hget

theorem OneSided.recentOrders {side : OrderSide} (h : OneSided side store) {instrument : String} :
    ∀ stored ∈ recentOrders now store userId instrument, stored.side = side := by
  intro stored hmem
  unfold WashTradeDetector.recentOrders ExpiringStore.read at hmem
  cases hget : KeyValue.get store (orderListKey userId instrument) with
  | none => simp [hget] at hmem
  | some entry =>
    rw [hget, Option.bind_some] at hmem
    split at hmem
    · exact h _ entry hget stored hmem
    · simp at hmem

/-- Orders of one side pass, whatever their instruments, quantities and times. -/
theorem OneSided.passes (h : OneSided action.side store) :
    (check windowMs now store action userId).1 = .ok () := by
  rw [check_passes_iff]
  intro stored hmem hwash
  have hside : stored.side = oppositeSide action.side := by
    simp only [isWashTrade, Bool.and_eq_true, decide_eq_true_eq] at hwash
    exact hwash.1.2
  rw [h.recentOrders stored hmem] at hside
  cases haction : action.side <;> simp [oppositeSide, haction] at hside

theorem OneSided.check (h : OneSided action.side store) :
    OneSided action.side (check windowMs now store action userId).2 := by
  rw [check_store_of_passes h.passes]
  apply KeyValue.forall_get_set h
  intro stored hmem
  rcases List.mem_cons.mp hmem with rfl | hold
  · rfl
  · exact h.recentOrders stored hold

end WashTradeDetector
end SuperAi.Compliance
