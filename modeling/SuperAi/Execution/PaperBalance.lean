import SuperAi.Execution.SwapAtomicity
import SuperAi.Foundations.StepSystem

/-! # Paper balances

A swap commits its trade record and its credit of the paper balance in two transactions. The credit
creates a missing row with the amount of the fill and then adds the amount to the row, so that the first
fill of a token counts twice: the balance is what was credited, and the first credit once more.
-/
namespace SuperAi.Execution
open SuperAi.Foundations
set_option autoImplicit false

/-! ## Swaps as two transactions each -/

structure PaperState where
  world : World := {}
  pending : List TradeRow := []
  deriving DecidableEq, Repr

/-- `record` commits the trade of an execution that has ended in `fill`, and `credit` is the transaction of
`updatePaperBalance` for a recorded trade, which the database may refuse. -/
inductive PaperEvent
  | record (adm : Admitted) (fill : Fill)
  | credit (row : TradeRow) (ans : Answers)

def paperSwaps : StepSystem PaperState PaperEvent where
  step s
    | .record adm fill =>
      some { world := { s.world with trades := s.world.trades ++ [adm.tradeRow fill] }
             pending := if adm.mode = .PAPER then s.pending ++ [adm.tradeRow fill] else s.pending }
    | .credit row ans =>
      if row ∈ s.pending then
        some { world := ((updatePaperBalance ans row.userId row.tokenOut row.amountOut).run s.world).2
               pending := s.pending.erase row }
      else none

theorem updatePaperBalance_keeps_trades (ans : Answers) (userId token amount : String) :
    Keeps World.trades (updatePaperBalance ans userId token amount) := by
  unfold updatePaperBalance
  cases paperDelta amount with
  | none => exact Keeps.pure World.trades ()
  | some delta => exact Keeps.awaited ans.paperBalance fun w => rfl

def World.ledger (w : World) : List TradeRow × KeyValue (String × String) ℤ := (w.trades, w.paperBalance)

theorem run_bind_keeps {α β γ : Type} {f : World → γ} (m : SwapM α) {k : α → SwapM β}
    (hk : ∀ a, Keeps f (k a)) (w : World) : f ((m >>= k).run w).2 = f (m.run w).2 := by
  rw [run_bind]
  rcases m.run w with ⟨r, w'⟩
  cases r with
  | error e => rfl
  | ok a => exact hk a w'

theorem recordRest_ledger (ans : Answers) {adm : Admitted} (fill : Fill) (hpaper : adm.mode = .PAPER) (w : World) :
    ((recordRest ans adm fill).run w).2.ledger =
      ((updatePaperBalance ans adm.input.userId adm.input.tokenOut fill.outAmount).run w).2.ledger := by
  have hcredit : awaitIf (adm.mode = .PAPER)
      (updatePaperBalance ans adm.input.userId adm.input.tokenOut fill.outAmount) =
      updatePaperBalance ans adm.input.userId adm.input.tokenOut fill.outAmount := if_pos hpaper
  rw [← hcredit]
  unfold recordRest
  refine run_bind_keeps _ (fun _ => ?_) w
  refine (Keeps.updateOrder _ _ _ fun _ _ => rfl).bind fun _ => ?_
  refine Keeps.bind (Keeps.awaited ans.recordOrder ?_) fun _ => ?_
  · exact fun _ => rfl
  refine Keeps.bind (Keeps.awaitIf fun _ => Keeps.awaited ans.recordTrade ?_) fun _ => ?_
  · exact fun _ => rfl
  refine Keeps.bind (Keeps.awaited ans.audit ?_) fun _ => Keeps.pure World.ledger fill
  exact fun _ => rfl

/-- A paper swap is its two transactions one after the other. -/
theorem swap_run {ans : Answers} {input : SwapInput} {adm : Admitted} {w : World}
    (h : admission ans input = .ok adm) (hpaper : adm.mode = .PAPER) (hcreate : ans.tradeCreate = .ok ()) :
    ∃ fill, (execute ans adm).1 = .ok fill ∧
      (paperSwaps.run ⟨w, []⟩ [.record adm fill, .credit (adm.tradeRow fill) ans]).map
        (fun s => (s.pending, s.world.ledger)) = some ([], (swap ans input w).2.ledger) := by
  have hfill := @execute_paper ans adm hpaper
  rw [swap_admitted h, hfill]
  generalize (⟨"paper-" ++ ans.now, paperAmount ans adm.input⟩ : Fill) = fill
  refine ⟨fill, rfl, ?_⟩
  have hrecord : (record ans adm fill).run { w with onChain := w.onChain ++ [] } =
      (recordRest ans adm fill).run { w with trades := w.trades ++ [adm.tradeRow fill] } := by
    rw [record, run_bind, hcreate, List.append_nil]
    rfl
  have hpending : ([adm.tradeRow fill] : List TradeRow).erase (adm.tradeRow fill) = [] := by simp
  simp only [StepSystem.run, paperSwaps, hpaper, hrecord, recordRest_ledger ans fill hpaper]
  simp only [if_true, List.nil_append, List.mem_singleton, Option.bind_some, Option.map_some, hpending]
  rfl

/-! ## Fills of a token -/

def TradeRow.fills (key : String × String) (row : TradeRow) : Option ℤ :=
  if (row.userId, row.tokenOut) = key then paperDelta row.amountOut else none

/-- The rounded amounts of the trades that put out the token for the user. -/
def fills (key : String × String) (rows : List TradeRow) : List ℤ := rows.filterMap (TradeRow.fills key)

theorem fills_append (key : String × String) (rows rows' : List TradeRow) :
    fills key (rows ++ rows') = fills key rows ++ fills key rows' := List.filterMap_append

theorem updatePaperBalance_get (ans : Answers) (row : TradeRow) (w : World) (key : String × String) :
    ((updatePaperBalance ans row.userId row.tokenOut row.amountOut).run w).2.paperBalance.get key =
      match ans.paperBalance, row.fills key with
      | .ok _, some d => some ((w.paperBalance.get key).getD d + d)
      | _, _ => w.paperBalance.get key := by
  unfold updatePaperBalance TradeRow.fills
  cases hdelta : paperDelta row.amountOut with
  | none =>
    rw [ite_self]
    cases ans.paperBalance <;> rfl
  | some d =>
    cases hans : ans.paperBalance with
    | error e => rfl
    | ok u =>
      show (w.paperBalance.set (row.userId, row.tokenOut) _).get key = _
      by_cases hkey : (row.userId, row.tokenOut) = key
      · subst hkey
        rw [KeyValue.get_set_self, if_pos rfl]
      · rw [KeyValue.get_set_of_ne (Ne.symm hkey), if_neg hkey]

def PaperEvent.recorded : PaperEvent → Option TradeRow
  | .record adm fill => if adm.mode = .PAPER then some (adm.tradeRow fill) else none
  | .credit _ _ => none

def PaperEvent.credited : PaperEvent → Option TradeRow
  | .record _ _ => none
  | .credit row ans => if ans.paperBalance = .ok () then some row else none

/-- The balance of a token is the sum of the recorded paper fills of it. -/
def PaperBalanced (w : World) : Prop :=
  ∀ key, (w.paperBalance.get key).getD 0 = (fills key (w.trades.filter fun row => row.mode = .PAPER)).sum

/-- The balance that credits lead to. -/
def creditedBalance : List ℤ → Option ℤ
  | [] => none
  | first :: rest => some (first + (first :: rest).sum)

theorem creditedBalance_concat (ds : List ℤ) (d : ℤ) :
    creditedBalance (ds ++ [d]) = some ((creditedBalance ds).getD d + d) := by
  cases ds with
  | nil => simp [creditedBalance]
  | cons first rest => simp [creditedBalance, add_assoc]

theorem creditedBalance_getD (ds : List ℤ) : (creditedBalance ds).getD 0 = ds.head?.getD 0 + ds.sum := by
  cases ds with
  | nil => rfl
  | cons first rest => rfl

structure PaperLaw (es : List PaperEvent) (s : PaperState) : Prop where
  recorded : s.world.trades.filter (fun row => row.mode = .PAPER) = es.filterMap PaperEvent.recorded
  balance : ∀ key, s.world.paperBalance.get key = creditedBalance (fills key (es.filterMap PaperEvent.credited))

theorem paperLaw_step {pre : List PaperEvent} {s s' : PaperState} {e : PaperEvent} (hlaw : PaperLaw pre s)
    (hstep : paperSwaps.step s e = some s') : PaperLaw (pre ++ [e]) s' := by
  cases e with
  | record adm fill =>
    obtain rfl := Option.some.inj hstep
    refine ⟨?_, fun key => ?_⟩
    · by_cases hpaper : adm.mode = .PAPER
      · have hrow : (adm.tradeRow fill).mode = .PAPER := hpaper
        simp [List.filterMap_append, PaperEvent.recorded, hlaw.recorded, hpaper, hrow]
      · have hrow : (adm.tradeRow fill).mode ≠ .PAPER := hpaper
        simp [List.filterMap_append, PaperEvent.recorded, hlaw.recorded, hpaper, hrow]
    · rw [List.filterMap_append]
      change _ = creditedBalance (fills key (_ ++ []))
      rw [List.append_nil]
      exact hlaw.balance key
  | credit row ans =>
    obtain ⟨hmem, hs'⟩ := Option.ite_none_right_eq_some.mp hstep
    obtain rfl := Option.some.inj hs'
    refine ⟨?_, fun key => ?_⟩
    · rw [List.filterMap_append]
      change _ = _ ++ []
      rw [List.append_nil, ← hlaw.recorded, updatePaperBalance_keeps_trades]
    · rw [updatePaperBalance_get, hlaw.balance, List.filterMap_append, fills_append]
      cases hans : ans.paperBalance with
      | error e => simp [PaperEvent.credited, hans, fills]
      | ok u =>
        cases hfill : row.fills key with
        | none => simp [PaperEvent.credited, hans, fills, hfill]
        | some d => simp [PaperEvent.credited, hans, fills, hfill, creditedBalance_concat]

def samplePaper : Admitted := ⟨sampleInput 100, .PAPER⟩

def sampleFill (amount : String) : Fill := ⟨"paper-lx2k9p0a", amount⟩

/-- Fills of the sample swap with the given amounts, each credited before the next. -/
def sampleFills (amounts : List String) : List PaperEvent :=
  amounts.flatMap fun amount =>
    [.record samplePaper (sampleFill amount), .credit (samplePaper.tradeRow (sampleFill amount)) sampleAnswers]

end SuperAi.Execution
