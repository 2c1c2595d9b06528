import SuperAi.Compliance.WashTradeDetector
import SuperAi.Execution.SwapAtomicity

/-! # Swaps under the wash trade check

`swap` with the detector behind it. A swap hands the detector an order on the instrument
`tokenIn-tokenOut`, and it is always a BUY, also when the swap sells. So the stored orders are all of
one side, and the detector, which looks for the other side, finds nothing whatever is traded back and
forth (`opposite_swaps_pass`).
-/
namespace SuperAi.Execution
open SuperAi.Foundations SuperAi.Auth SuperAi.Risk SuperAi.Compliance
set_option autoImplicit false

/-- A call of `swap`: its input, what the other collaborators answer, and the time of the check. -/
structure TimedSwap where
  input : SwapInput
  ans : Answers
  now : ℤ

structure ComplianceState where
  orders : OrderLists := []
  world : World := {}

namespace TimedSwap
variable (windowMs : ℤ)

def normalized (call : TimedSwap) : Except String SwapInput :=
  (normalizeAmountIn call.ans call.input).map (applySizing call.ans)

/-- The check of the swap on the orders that are stored, and the orders it leaves. -/
def washCheck (s : ComplianceState) (call : TimedSwap) (input : SwapInput) : Except String Unit × OrderLists :=
  WashTradeDetector.check windowMs call.now s.orders (orderAction call.ans input) input.userId

/-- `swap` with the answer of the detector; the detector either throws or detects nothing. -/
def swapChecked (s : ComplianceState) (call : TimedSwap) : Except String Fill × ComplianceState :=
  match call.normalized with
  | .error e => (.error e, s)
  | .ok input =>
    let (answer, orders) := washCheck windowMs s call input
    let (result, world) := swap { call.ans with washTrade := answer.map fun () => false } call.input s.world
    (result, ⟨orders, world⟩)

def runChecked (s : ComplianceState) (calls : List TimedSwap) : ComplianceState :=
  calls.foldl (fun s call => (swapChecked windowMs s call).2) s

def RejectedAsWashTrade (s : ComplianceState) (call : TimedSwap) : Prop :=
  ∃ input e, call.normalized = .ok input ∧ (washCheck windowMs s call input).1 = .error e

def unchecked (call : TimedSwap) : Except String Fill :=
  (swap { call.ans with washTrade := .ok false } call.input {}).1

end TimedSwap

/-! ## Pairs of opposite swaps -/

/-- The swap gives this much of one token for that much of another, if no wash trade is found. -/
def TimedSwap.Moves (call : TimedSwap) (tokenIn tokenOut : String) (paid received : ℚ) : Prop :=
  call.input.tokenIn = tokenIn ∧ call.input.tokenOut = tokenOut ∧ ∃ input fill,
    call.normalized = .ok input ∧ amountOf input.amountIn = paid ∧
      call.unchecked = .ok fill ∧ amountOf fill.outAmount = received

/-- One of the swaps buys a quantity of a token and the other sells it, in either order. -/
def Opposite (first second : TimedSwap) : Prop :=
  ∃ token quote quantity quantityIn quantityOut,
    (first.Moves quote token quantityIn quantity ∧ second.Moves token quote quantity quantityOut) ∨
      (first.Moves token quote quantity quantityOut ∧ second.Moves quote token quantityIn quantity)

/-- A user's executed swap and an opposite one within the window. -/
structure WashPair (windowMs : ℤ) (s : ComplianceState) (first second : TimedSwap) : Prop where
  user : second.input.userId = first.input.userId
  chain : second.input.chain = first.input.chain
  opposite : Opposite first second
  ordered : first.now ≤ second.now
  window : second.now - first.now ≤ windowMs
  executed : ∃ fill, (first.swapChecked windowMs s).1 = .ok fill

/-! ## How a swap ends -/

section answered
variable {α β : Type}

def Answered (m : SwapM α) : Prop := ∀ w w', (m.run w).1 = (m.run w').1

theorem Answered.pure (a : α) : Answered (pure a) := fun _ _ => rfl

theorem Answered.throw (e : String) : Answered (throw e : SwapM α) := fun _ _ => rfl

theorem Answered.bind {m : SwapM α} {f : α → SwapM β} (hm : Answered m) (hf : ∀ a, Answered (f a)) :
    Answered (m >>= f) := by
  intro w w'
  rw [run_bind, run_bind]
  have hresult := hm w w'
  cases hw : m.run w with
  | mk result u =>
    cases hw' : m.run w' with
    | mk result' u' =>
      obtain rfl : result = result' := by simpa [hw, hw'] using hresult
      cases result with
      | ok a => exact hf a u u'
      | error e => rfl

theorem Answered.awaited (answer : Except String Unit) (effect : World → World) :
    Answered (awaited answer effect) := by
  intro w w'
  cases answer <;> rfl

theorem Answered.awaitIf {c : Prop} [Decidable c] {m : SwapM Unit} (h : Answered m) :
    Answered (awaitIf c m) := by
  unfold Execution.awaitIf
  split
  · exact h
  · exact Answered.pure ()

theorem Answered.updateOrder (answer : Except String Unit) (input : SwapInput) (status : OrderStatus) :
    Answered (updateOrder answer input status) := by
  unfold Execution.updateOrder
  split
  · exact Answered.awaited answer _
  · exact Answered.pure ()

theorem Answered.updatePaperBalance (ans : Answers) (userId token amount : String) :
    Answered (updatePaperBalance ans userId token amount) := by
  unfold Execution.updatePaperBalance
  split
  · exact Answered.pure ()
  · exact Answered.awaited ans.paperBalance _

end answered

theorem recordRest_answered (ans : Answers) (adm : Admitted) (fill : Fill) :
    Answered (recordRest ans adm fill) := by
  unfold recordRest
  refine (Answered.awaitIf (Answered.updatePaperBalance ans _ _ _)).bind fun _ => ?_
  refine (Answered.updateOrder ans.orderUpdate adm.input .FILLED).bind fun _ => ?_
  refine (Answered.awaited ans.recordOrder _).bind fun _ => ?_
  refine (Answered.awaitIf (Answered.awaited ans.recordTrade _)).bind fun _ => ?_
  exact (Answered.awaited ans.audit _).bind fun _ => Answered.pure fill

theorem swap_fst (ans : Answers) (input : SwapInput) (w w' : World) :
    (swap ans input w).1 = (swap ans input w').1 := by
  unfold swap
  cases admission ans input with
  | error e => rfl
  | ok adm =>
    dsimp only
    cases (execute ans adm).1 with
    | ok fill =>
      exact (Answered.awaited ans.tradeCreate _).bind (fun _ => recordRest_answered ans adm fill) _ _
    | error e =>
      have hrecord : Answered (recordFailure ans adm e) :=
        (Answered.awaited ans.failureAudit _).bind fun _ =>
          (Answered.updateOrder ans.failureOrder adm.input .FAILED).bind fun _ => Answered.throw e
      exact hrecord _ _

/-! ## The stored orders -/

namespace TimedSwap
variable {windowMs : ℤ} {s : ComplianceState} {call : TimedSwap} {input : SwapInput}

/-- A rejection is what the caller of `swap` gets, and nothing is traded. -/
theorem swapChecked_of_rejected {e : String} (hinput : call.normalized = .ok input)
    (h : (washCheck windowMs s call input).1 = .error e) :
    (call.swapChecked windowMs s).1 = .error e ∧ (call.swapChecked windowMs s).2.world = s.world := by
  have hadmission : admission { call.ans with washTrade := .error e } call.input = .error e := by
    cases hamount : normalizeAmountIn call.ans call.input with
    | error e' => simp [normalized, hamount, Except.map] at hinput
    | ok amount =>
      have hamount' : normalizeAmountIn { call.ans with washTrade := .error e } call.input = .ok amount := hamount
      rw [admission, prepare, hamount']
      rfl
  rw [swapChecked, hinput]
  dsimp only
  rw [h]
  have hswap : swap { call.ans with washTrade := .error e } call.input s.world = (.error e, s.world) := by
    rw [swap, hadmission]
  exact ⟨congrArg Prod.fst hswap, congrArg Prod.snd hswap⟩

theorem swapChecked_of_passes (hinput : call.normalized = .ok input)
    (h : (washCheck windowMs s call input).1 = .ok ()) : (call.swapChecked windowMs s).1 = call.unchecked := by
  rw [swapChecked, hinput]
  dsimp only
  rw [h]
  exact swap_fst _ call.input s.world {}

theorem oneSided_swapChecked (h : WashTradeDetector.OneSided .BUY s.orders) :
    WashTradeDetector.OneSided .BUY (call.swapChecked windowMs s).2.orders := by
  unfold swapChecked
  cases hnormalized : call.normalized with
  | error e => exact h
  | ok input => exact WashTradeDetector.OneSided.check h

theorem oneSided_runChecked (h : WashTradeDetector.OneSided .BUY s.orders) (calls : List TimedSwap) :
    WashTradeDetector.OneSided .BUY (runChecked windowMs s calls).orders := by
  induction calls generalizing s with
  | nil => exact h
  | cons call calls ih => exact ih (oneSided_swapChecked h)

theorem washCheck_passes (calls : List TimedSwap) (call : TimedSwap) (input : SwapInput) :
    (washCheck windowMs (runChecked windowMs {} calls) call input).1 = .ok () :=
  (oneSided_runChecked (WashTradeDetector.oneSided_nil .BUY) calls).passes

end TimedSwap

/-- **Wash trades.** The second of two opposite swaps is never rejected by the wash trade check, whatever
swaps were made before them and between them: it is executed as if there were no check. -/
theorem opposite_swap_executed {windowMs : ℤ} {earlier between : List TimedSwap} {first second : TimedSwap}
    (hpair : WashPair windowMs (TimedSwap.runChecked windowMs {} earlier) first second) :
    let s := TimedSwap.runChecked windowMs {} (earlier ++ first :: between)
    ¬ second.RejectedAsWashTrade windowMs s ∧ ∃ fill, (second.swapChecked windowMs s).1 = .ok fill := by
  intro s
  have hpasses : ∀ input, (second.washCheck windowMs s input).1 = .ok () :=
    TimedSwap.washCheck_passes (earlier ++ first :: between) second
  have hfill : ∃ input fill, second.normalized = .ok input ∧ second.unchecked = .ok fill := by
    obtain ⟨token, quote, quantity, quantityIn, quantityOut, ⟨-, hmoves⟩ | ⟨-, hmoves⟩⟩ := hpair.opposite
    all_goals
      obtain ⟨-, -, input, fill, hinput, -, hunchecked, -⟩ := hmoves
      exact ⟨input, fill, hinput, hunchecked⟩
  obtain ⟨input, fill, hinput, hunchecked⟩ := hfill
  refine ⟨?_, fill, ?_⟩
  · rintro ⟨input', e, -, hrejected⟩
    rw [hpasses input'] at hrejected
    cases hrejected
  · rw [TimedSwap.swapChecked_of_passes hinput (hpasses input), hunchecked]

/-! ## A token bought and sold again -/

/-- A purchase of a million units for a million, and their sale a second later. -/
def buyThenSell : TimedSwap × TimedSwap :=
  let buy := sampleInput 100
  (⟨buy, sampleAnswers, 0⟩, ⟨{ buy with tokenIn := buy.tokenOut, tokenOut := buy.tokenIn }, sampleAnswers, 1000⟩)

theorem unchecked_buyThenSell : buyThenSell.1.unchecked = .ok ⟨"paper-lx2k9p0a", "1000000"⟩ ∧
    buyThenSell.2.unchecked = .ok ⟨"paper-lx2k9p0a", "1000000"⟩ := by
  decide +kernel

theorem washPair_buyThenSell : WashPair 30000 {} buyThenSell.1 buyThenSell.2 where
  user := rfl
  chain := rfl
  opposite := by
    obtain ⟨hbuy, hsell⟩ := unchecked_buyThenSell
    exact ⟨(sampleInput 100).tokenOut, (sampleInput 100).tokenIn, amountOf "1000000", amountOf "1000000",
      amountOf "1000000", .inl ⟨⟨rfl, rfl, _, _, rfl, rfl, hbuy, rfl⟩, ⟨rfl, rfl, _, _, rfl, rfl, hsell, rfl⟩⟩⟩
  ordered := by decide
  window := by decide
  executed := ⟨_, (TimedSwap.swapChecked_of_passes rfl (TimedSwap.washCheck_passes [] _ _)).trans
    unchecked_buyThenSell.1⟩

theorem buyThenSell_executed :
    let s := TimedSwap.runChecked 30000 {} ([] ++ buyThenSell.1 :: [])
    ¬ buyThenSell.2.RejectedAsWashTrade 30000 s ∧ ∃ fill, (buyThenSell.2.swapChecked 30000 s).1 = .ok fill :=
  opposite_swap_executed washPair_buyThenSell

theorem wash_trade_not_caught : ¬ ∀ (windowMs : ℤ) (earlier between : List TimedSwap) (first second : TimedSwap),
    WashPair windowMs (TimedSwap.runChecked windowMs {} earlier) first second →
      second.RejectedAsWashTrade windowMs
        (TimedSwap.runChecked windowMs {} (earlier ++ first :: between)) := by
  intro h
  obtain ⟨input, e, -, hrejected⟩ := h 30000 [] [] buyThenSell.1 buyThenSell.2 washPair_buyThenSell
  rw [TimedSwap.washCheck_passes] at hrejected
  cases hrejected

end SuperAi.Execution
