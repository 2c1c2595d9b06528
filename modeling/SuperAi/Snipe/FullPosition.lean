import SuperAi.Foundations.StepSystem
import SuperAi.Snipe.ExecuteSell
import Mathlib.Data.Nat.Cast.Order.Field
import Mathlib.Tactic.GCongr
import Mathlib.Tactic.Positivity

/-! # The multiple of the full position

`evaluateTrade` compares against the multiple of the whole purchase, which it gets back from what is left:
it divides by the fraction that the phase leaves under the user's present preset. The amounts were sold
under the presets of their time, so the multiple is preserved by every change of preset that keeps the
fraction of the phase, and by no other.
-/
namespace SuperAi.Snipe
open SuperAi.Foundations
set_option autoImplicit false

def fullPositionMul (preset : SellPreset) (lamportsPerToken : ℚ) (trade : SnipeTrade) : ℚ :=
  trade.outAmount.getD 0 * lamportsPerToken / trade.amountRaw / remainingFraction (derivePhase trade) preset

/-- The multiple is what the price triggers and the peak of `evaluateTrade` go by. -/
theorem evaluateTrade_mul {config : SnipeConfig} {trade : SnipeTrade} {market : Market}
    (lamportsPerToken : ℚ) (peaks : Option ℚ) (henabled : config.sellEnabled = true)
    (hraw : trade.amountRaw ≠ 0) (hout : trade.outAmount.isSome = true) (hphase : derivePhase trade ≠ .closed)
    (hpanic : liquidityPanic (resolvePreset config.riskPreset) trade market.currentLiqUsd = false)
    (hdump : market.topHolderDumped = false) :
    evaluateTrade (some config) lamportsPerToken market peaks trade =
      let preset := resolvePreset config.riskPreset
      let mul := fullPositionMul preset lamportsPerToken trade
      let peak := max ((peaks.or trade.peakPriceMul).getD mul) mul
      match priceTrigger preset (derivePhase trade) (market.now - trade.createdAt) peak mul with
      | none => ⟨some peak, some peak, none⟩
      | some (reason, fraction, final) =>
        ⟨if final then none else some peak, some peak, fireSell trade reason fraction final⟩ := by
  obtain ⟨outAmount, hsome⟩ := Option.isSome_iff_exists.mp hout
  have hgo : ¬ (config.sellEnabled = false ∨ trade.amountRaw = 0 ∨ derivePhase trade = .closed) := by
    simp [henabled, hraw, hphase]
  simp only [evaluateTrade, fullPositionMul, hsome, hpanic, hdump, if_neg hgo, Option.getD_some]
  rfl

/-! ## Confirmed sales and changes of preset -/

structure Position where
  row : SnipeTrade
  riskPreset : String
  peaks : Option ℚ := none
  deriving DecidableEq

inductive PositionEvent
  | setPreset (name : String)
  /-- A tick evaluates the row; a sale that it fires is broadcast under `sig` and confirmed. -/
  | tick (sellEnabled : Bool) (lamportsPerToken : ℚ) (market : Market) (sig : String)

/-- The row after a sale that goes through: the claim, the deferred record and the monitor's update. -/
def SnipeTrade.sold (row : SnipeTrade) (sig : String) (order : SellOrder) (trade : SnipeTrade) : SnipeTrade :=
  ((Broadcast.mk sig order trade).record (row.claim order.reason)).confirmFinal sig

theorem sold_eq {row trade : SnipeTrade} {order : SellOrder} {sig : String} {answers : ℕ → AttemptAnswers}
    (hclaimable : row.claimable order.reason = true)
    (hconfirmed : pollStatus (answers 0).lastPoll (answers 0).polls = .confirmed)
    (hlands : (answers 0).confirmLands = true) :
    ∃ bundle, executeSell order trade ⟨true, true, true, true, true, some sig, true⟩ row =
        (row.claim order.reason, some (⟨sig, order, trade⟩, bundle)) ∧
      (monitorSell trade answers [bundle] 0 sig).writes.foldl (fun r write => write r)
        ((Broadcast.mk sig order trade).record (row.claim order.reason)) = row.sold sig order trade := by
  refine ⟨⟨order.tokenAmount, initialSlippageBps order.reason trade⟩, ?_, ?_⟩
  · simp [executeSell, hclaimable]
  · simp [monitorSell, hconfirmed, hlands, SnipeTrade.sold]

def Position.tick (sellEnabled : Bool) (lamportsPerToken : ℚ) (market : Market) (sig : String) (s : Position) :
    Position :=
  let evaluation := evaluateTrade (some ⟨sellEnabled, s.riskPreset⟩) lamportsPerToken market s.peaks s.row
  let row := evaluation.peakPriceMul.elim s.row s.row.recordPeak
  { s with
    peaks := evaluation.peaks
    row := evaluation.order.elim row fun order => row.sold sig order s.row }

def positions : StepSystem Position PositionEvent where
  step s
    | .setPreset name => some { s with riskPreset := name }
    | .tick sellEnabled lamportsPerToken market sig =>
      if isOpen s.row then some (s.tick sellEnabled lamportsPerToken market sig) else none

/-! ## What the present preset makes of what is left -/

/-- The sales that lead to a phase. -/
def partialSales : SellPhase → ℕ
  | .preTp1 | .closed => 0
  | .postTp1 => 1
  | .moonbag => 2

/-- The multiple is that of the purchase, up to one base unit for each sale. -/
def MulPreserved (bought : ℕ) (s : Position) : Prop :=
  derivePhase s.row ≠ .closed → ∀ lamportsPerToken, 0 ≤ lamportsPerToken →
    lamportsPerToken * bought / s.row.amountRaw ≤
        fullPositionMul (resolvePreset s.riskPreset) lamportsPerToken s.row ∧
      fullPositionMul (resolvePreset s.riskPreset) lamportsPerToken s.row ≤
        lamportsPerToken * (bought + partialSales (derivePhase s.row) /
          remainingFraction (derivePhase s.row) (resolvePreset s.riskPreset)) / s.row.amountRaw

/-- What is left is the fraction of the phase, up to one base unit for each sale. -/
def Held (bought : ℕ) (s : Position) : Prop :=
  derivePhase s.row ≠ .closed → ∃ left, s.row.outAmount = some left ∧
    bought * remainingFraction (derivePhase s.row) (resolvePreset s.riskPreset) ≤ left ∧
    left ≤ bought * remainingFraction (derivePhase s.row) (resolvePreset s.riskPreset) +
      partialSales (derivePhase s.row)

theorem resolvePreset_cases (name : String) :
    resolvePreset name = CONSERVATIVE ∨ resolvePreset name = AGGRESSIVE ∨ resolvePreset name = DEFAULT := by
  unfold resolvePreset
  split_ifs <;> simp

theorem remainingFraction_pos {phase : SellPhase} (h : phase ≠ .closed) (name : String) :
    0 < remainingFraction phase (resolvePreset name) := by
  obtain hname | hname | hname := resolvePreset_cases name <;> rw [hname] <;> cases phase <;>
    simp_all [remainingFraction, CONSERVATIVE, AGGRESSIVE, DEFAULT] <;> norm_num

theorem Held.preserved {bought : ℕ} {s : Position} (h : Held bought s) : MulPreserved bought s := by
  intro hphase lamportsPerToken hnonneg
  obtain ⟨left, hout, hlow, hhigh⟩ := h hphase
  have hpos := remainingFraction_pos hphase s.riskPreset
  have hmul : fullPositionMul (resolvePreset s.riskPreset) lamportsPerToken s.row = lamportsPerToken *
      (left / remainingFraction (derivePhase s.row) (resolvePreset s.riskPreset)) / s.row.amountRaw := by
    simp only [fullPositionMul, hout, Option.getD_some]
    ring
  rw [hmul]
  constructor
  · gcongr
    exact (le_div_iff₀ hpos).mpr hlow
  · gcongr
    rw [div_le_iff₀ hpos, add_mul, div_mul_cancel₀ _ hpos.ne']
    exact hhigh

/-! ## Partial sales -/

/-- A partial sale leaves its share, up to one base unit. -/
theorem left_after_partial {fraction : ℚ} {bps : ℕ} (hbps : fraction * 10000 = bps) (hpart : bps < 10000)
    (left : ℕ) :
    left * (1 - fraction) ≤ (left - computeSellAmount (some left) fraction : ℕ) ∧
      ((left - computeSellAmount (some left) fraction : ℕ) : ℚ) ≤ left * (1 - fraction) + 1 := by
  have hlt : fraction < 1 := by
    have hcast : (bps : ℚ) < 10000 := by exact_mod_cast hpart
    linarith
  have hround : mathRound (fraction * 10000) = bps := by
    rw [mathRound, hbps, Int.floor_eq_iff]
    constructor <;> push_cast <;> linarith
  have hsold : computeSellAmount (some left) fraction = left * bps / 10000 := by
    simp [computeSellAmount, not_le.mpr hlt, hround]
  have hle : left * bps / 10000 ≤ left := by
    apply Nat.div_le_of_le_mul
    nlinarith
  have hfrac : (left : ℚ) * fraction = (left * bps : ℕ) / 10000 := by
    push_cast
    rw [← hbps]
    ring
  have hfloor : ((left * bps / 10000 : ℕ) : ℚ) ≤ left * fraction := by
    rw [hfrac]
    exact_mod_cast Nat.cast_div_le
  have hnext : left * fraction ≤ ((left * bps / 10000 : ℕ) : ℚ) + 1 := by
    rw [hfrac, div_le_iff₀ (by norm_num)]
    have hdiv : left * bps ≤ (left * bps / 10000 + 1) * 10000 := by omega
    exact_mod_cast hdiv
  rw [hsold, Nat.cast_sub hle]
  constructor <;> linarith

theorem exit_bps (name : String) :
    ∃ tp1 tp2 : ℕ, (resolvePreset name).TP1_EXIT_PCT / 100 * 10000 = tp1 ∧ tp1 < 10000 ∧
      (resolvePreset name).TP2_EXIT_PCT / 100 * 10000 = tp2 ∧ tp2 < 10000 := by
  obtain hname | hname | hname := resolvePreset_cases name <;> rw [hname]
  · exact ⟨5000, 7000, by norm_num [CONSERVATIVE], by omega, by norm_num [CONSERVATIVE], by omega⟩
  · exact ⟨4000, 6000, by norm_num [AGGRESSIVE], by omega, by norm_num [AGGRESSIVE], by omega⟩
  · exact ⟨5000, 5000, by norm_num [DEFAULT], by omega, by norm_num [DEFAULT], by omega⟩

theorem priceTrigger_partial {preset : SellPreset} {phase : SellPhase} {ageMs : ℤ} {peak mul : ℚ}
    {reason : SellReason} {fraction : ℚ}
    (h : priceTrigger preset phase ageMs peak mul = some (reason, fraction, false)) :
    (phase = .preTp1 ∧ reason = .tp1 ∧ fraction = preset.TP1_EXIT_PCT / 100) ∨
      (phase = .postTp1 ∧ reason = .tp2 ∧ fraction = preset.TP2_EXIT_PCT / 100) := by
  cases phase <;> simp only [priceTrigger] at h
  case closed => cases h
  all_goals
    split_ifs at h <;> cases h <;> simp

theorem fireSell_phase {trade : SnipeTrade} {reason : SellReason} {fraction : ℚ} {final : Bool}
    {order : SellOrder} (h : fireSell trade reason fraction final = some order) :
    order.nextPhase = if final then .closed else if reason = .tp1 then .postTp1
      else if reason = .tp2 then .moonbag else derivePhase trade := by
  unfold fireSell at h
  obtain ⟨-, h⟩ := Option.ite_none_left_eq_some.mp h
  cases h
  rfl

/-- An order closes the position, or is the first partial sale of a whole one, or the second after it. -/
theorem evaluateTrade_cases {config : SnipeConfig} {lamportsPerToken : ℚ} {market : Market} {peaks : Option ℚ}
    {trade : SnipeTrade} {order : SellOrder}
    (h : (evaluateTrade (some config) lamportsPerToken market peaks trade).order = some order) :
    order.nextPhase = .closed ∨
      (derivePhase trade = .preTp1 ∧
        fireSell trade .tp1 ((resolvePreset config.riskPreset).TP1_EXIT_PCT / 100) false = some order) ∨
      (derivePhase trade = .postTp1 ∧
        fireSell trade .tp2 ((resolvePreset config.riskPreset).TP2_EXIT_PCT / 100) false = some order) := by
  simp only [evaluateTrade] at h
  split at h
  · rename_i hconfig _
    cases hconfig
    split_ifs at h
    · exact .inl (fireSell_phase h)
    · exact .inl (fireSell_phase h)
    · split at h
      · cases h
      · rename_i reason fraction final htrigger
        cases final with
        | true => exact .inl (fireSell_phase h)
        | false =>
          obtain ⟨hphase, rfl, rfl⟩ | ⟨hphase, rfl, rfl⟩ := priceTrigger_partial htrigger
          · exact .inr (.inl ⟨hphase, h⟩)
          · exact .inr (.inr ⟨hphase, h⟩)
  · cases h

/-! ## Steps -/

@[simp] theorem sold_phase (row trade : SnipeTrade) (sig : String) (order : SellOrder) :
    derivePhase (row.sold sig order trade) = order.nextPhase := by
  have hphase : (row.sold sig order trade).sellPhase = some order.nextPhase :=
    (KeepsPosition.confirmFinal sig _).2
  rw [derivePhase, hphase]

@[simp] theorem sold_outAmount (row trade : SnipeTrade) (sig : String) (order : SellOrder) :
    (row.sold sig order trade).outAmount = some (Broadcast.mk sig order trade).remainingAfter :=
  (KeepsPosition.confirmFinal sig _).1

/-- A partial sale leaves its share of the fraction. -/
theorem Held.after_partial {bought : ℕ} {s : Position} {row : SnipeTrade} {peaks : Option ℚ} {sig : String}
    {reason : SellReason} {fraction : ℚ} {bps : ℕ} {order : SellOrder} (h : Held bought s)
    (hphase : derivePhase s.row ≠ .closed) (hfire : fireSell s.row reason fraction false = some order)
    (hbps : fraction * 10000 = bps) (hpart : bps < 10000)
    (hfraction : remainingFraction order.nextPhase (resolvePreset s.riskPreset) =
      remainingFraction (derivePhase s.row) (resolvePreset s.riskPreset) * (1 - fraction))
    (hsales : partialSales order.nextPhase = partialSales (derivePhase s.row) + 1) :
    Held bought { s with peaks, row := row.sold sig order s.row } := by
  intro _
  obtain ⟨left, hout, hlow, hhigh⟩ := h hphase
  obtain ⟨hamount, -, -, hfinal⟩ := fireSell_spec hfire
  obtain ⟨hleast, hmost⟩ := left_after_partial hbps hpart left
  have hpos : 0 ≤ fraction := by
    have hcast : (0 : ℚ) ≤ bps := Nat.cast_nonneg bps
    linarith
  have hone : 0 ≤ 1 - fraction := by
    have hcast : (bps : ℚ) < 10000 := by exact_mod_cast hpart
    linarith
  have hremaining : (Broadcast.mk sig order s.row).remainingAfter =
      left - computeSellAmount (some left) fraction := by
    have htotal := Broadcast.amount_add_remaining (b := ⟨sig, order, s.row⟩)
      (fireSell_fits hfire fun hclosed => nomatch hclosed)
    rw [hout, Option.getD_some] at htotal
    rw [← hout, ← hamount]
    exact Nat.eq_sub_of_add_eq' htotal
  refine ⟨_, sold_outAmount _ _ _ _, ?_, ?_⟩
  · rw [sold_phase, hfraction, hremaining, ← mul_assoc]
    exact (mul_le_mul_of_nonneg_right hlow hone).trans hleast
  · rw [sold_phase, hfraction, hsales, hremaining, ← mul_assoc]
    have hscaled := mul_le_mul_of_nonneg_right hhigh hone
    have hdust : (partialSales (derivePhase s.row) : ℚ) * (1 - fraction) ≤ partialSales (derivePhase s.row) :=
      mul_le_of_le_one_right (Nat.cast_nonneg _) (by linarith)
    push_cast
    linarith

/-- The fraction of the phase stays what it was. -/
def SameFraction (s : Position) : PositionEvent → Prop
  | .setPreset name => remainingFraction (derivePhase s.row) (resolvePreset name) =
      remainingFraction (derivePhase s.row) (resolvePreset s.riskPreset)
  | .tick _ _ _ _ => True

theorem held_step {bought : ℕ} {s s' : Position} {e : PositionEvent} (h : Held bought s) (hguard : SameFraction s e)
    (hstep : positions.step s e = some s') : Held bought s' := by
  cases e with
  | setPreset name =>
    obtain rfl := Option.some.inj hstep
    intro hphase
    rw [show remainingFraction _ (resolvePreset name) = _ from hguard]
    exact h hphase
  | tick sellEnabled lamportsPerToken market sig =>
    obtain ⟨-, hs'⟩ := Option.ite_none_right_eq_some.mp hstep
    obtain rfl := Option.some.inj hs'
    cases horder : (evaluateTrade (some ⟨sellEnabled, s.riskPreset⟩) lamportsPerToken market s.peaks s.row).order with
    | none =>
      -- only the peak is written
      simp only [Position.tick, horder, Option.elim_none]
      cases (evaluateTrade (some ⟨sellEnabled, s.riskPreset⟩) lamportsPerToken market s.peaks s.row).peakPriceMul with
      | none => exact h
      | some peak => exact h
    | some order =>
      simp only [Position.tick, horder, Option.elim_some]
      obtain ⟨tp1, tp2, htp1, hlt1, htp2, hlt2⟩ := exit_bps s.riskPreset
      obtain hclosed | ⟨hphase, hfire⟩ | ⟨hphase, hfire⟩ := evaluateTrade_cases horder
      · exact fun hopen => absurd ((sold_phase _ _ _ _).trans hclosed) hopen
      · have hnext := fireSell_phase hfire
        apply h.after_partial (by rw [hphase]; exact nofun) hfire htp1 hlt1
        · simp [hnext, hphase, remainingFraction]
        · simp [hnext, hphase, partialSales]
      · have hnext := fireSell_phase hfire
        apply h.after_partial (by rw [hphase]; exact nofun) hfire htp2 hlt2
        · simp [hnext, hphase, remainingFraction]
        · simp [hnext, hphase, partialSales]

/-- **The multiple of the full position.** Every run of ticks and changes of preset that keep the fraction
of the phase preserves the multiple of the purchase. -/
theorem mul_preserved {row : SnipeTrade} {bought : ℕ} {riskPreset : String} {es : List PositionEvent} {s : Position}
    (hout : row.outAmount = some bought) (hphase : derivePhase row = .preTp1)
    (hrun : positions.GuardedRun SameFraction ⟨row, riskPreset, none⟩ es s) : MulPreserved bought s := by
  have hstart : Held bought ⟨row, riskPreset, none⟩ := by
    intro _
    exact ⟨bought, hout, by simp [hphase, remainingFraction], by simp [hphase, remainingFraction, partialSales]⟩
  exact (hrun.invariant (fun s e s' h hguard hstep => held_step h hguard hstep) hstart).preserved

instance (s : Position) (e : PositionEvent) : Decidable (SameFraction s e) :=
  match e with
  | .setPreset _ => inferInstanceAs (Decidable (_ = _))
  | .tick _ _ _ _ => instDecidableTrue

def quietMarket : Market where
  maxOut := 1000
  totalSolForMax := some 250000000
  currentLiqUsd := none
  topHolderDumped := false
  now := 0

/-- At two and a half times the price of the purchase half of it is sold, and the user takes another preset. -/
def soldThenPreset (name : String) : List PositionEvent :=
  [.tick true 250000 quietMarket "sig", .setPreset name]

theorem conservative_preserved : ∃ s, positions.run ⟨boughtRow, "DEFAULT", none⟩ (soldThenPreset "CONSERVATIVE") =
    some s ∧ s.row.outAmount = some 500 ∧ MulPreserved 1000 s := by
  have hrun : positions.GuardedRun SameFraction ⟨boughtRow, "DEFAULT", none⟩ (soldThenPreset "CONSERVATIVE") _ :=
    .of_guardedRun (Option.eq_some_of_isSome (by decide +kernel))
  exact ⟨_, hrun.run, by decide +kernel, mul_preserved rfl rfl hrun⟩

/-- After the change to a preset that keeps 60 per cent the multiple is 5 / 6 of what it was. -/
theorem aggressive_moves_mul : ¬ ∀ (row : SnipeTrade) (bought : ℕ) (riskPreset : String) (es : List PositionEvent)
    (s : Position), row.outAmount = some bought → derivePhase row = .preTp1 →
    positions.run ⟨row, riskPreset, none⟩ es = some s → MulPreserved bought s := by
  intro h
  have hrun := Option.eq_some_of_isSome (o := positions.run ⟨boughtRow, "DEFAULT", none⟩
    (soldThenPreset "AGGRESSIVE")) (by decide +kernel)
  have hmoved := (h boughtRow 1000 "DEFAULT" _ _ rfl rfl hrun (by decide +kernel) 1 (by norm_num)).1
  revert hmoved
  decide +kernel

/-! ## Changes that move the multiple -/

theorem sold_amountRaw (row trade : SnipeTrade) (sig : String) (order : SellOrder) :
    (row.sold sig order trade).amountRaw = row.amountRaw := by
  unfold SnipeTrade.sold SnipeTrade.confirmFinal
  split <;> rfl

theorem amountRaw_step {s s' : Position} {e : PositionEvent} (hstep : positions.step s e = some s') :
    s'.row.amountRaw = s.row.amountRaw := by
  cases e with
  | setPreset name =>
    obtain rfl := Option.some.inj hstep
    rfl
  | tick sellEnabled lamportsPerToken market sig =>
    obtain ⟨-, hs'⟩ := Option.ite_none_right_eq_some.mp hstep
    obtain rfl := Option.some.inj hs'
    simp only [Position.tick]
    generalize evaluateTrade _ _ _ _ _ = evaluation
    obtain ⟨peaks, peakPriceMul, order⟩ := evaluation
    cases order with
    | none => cases peakPriceMul <;> rfl
    | some order => cases peakPriceMul <;> exact sold_amountRaw _ _ _ _

theorem MulPreserved.left_bounds {bought left : ℕ} {s : Position} (h : MulPreserved bought s)
    (hphase : derivePhase s.row ≠ .closed) (hraw : 0 < s.row.amountRaw) (hout : s.row.outAmount = some left) :
    bought * remainingFraction (derivePhase s.row) (resolvePreset s.riskPreset) ≤ left ∧
      left ≤ bought * remainingFraction (derivePhase s.row) (resolvePreset s.riskPreset) + 2 := by
  have hpos := remainingFraction_pos hphase s.riskPreset
  have hraw' : (0 : ℚ) < s.row.amountRaw := by exact_mod_cast hraw
  obtain ⟨hlow, hhigh⟩ := h hphase s.row.amountRaw hraw'.le
  have hmul : fullPositionMul (resolvePreset s.riskPreset) s.row.amountRaw s.row =
      left / remainingFraction (derivePhase s.row) (resolvePreset s.riskPreset) := by
    simp only [fullPositionMul, hout, Option.getD_some]
    rw [mul_div_cancel_right₀ _ hraw'.ne']
  rw [hmul, mul_div_cancel_left₀ _ hraw'.ne'] at hlow hhigh
  have hsales : (partialSales (derivePhase s.row) : ℚ) ≤ 2 := by
    cases derivePhase s.row <;> norm_num [partialSales]
  constructor
  · exact (le_div_iff₀ hpos).mp hlow
  · rw [div_le_iff₀ hpos, add_mul, div_mul_cancel₀ _ hpos.ne'] at hhigh
    linarith

theorem fractions_apart {phase : SellPhase} {name name' : String}
    (h : remainingFraction phase (resolvePreset name) ≠ remainingFraction phase (resolvePreset name')) :
    1 / 100 ≤ |remainingFraction phase (resolvePreset name) - remainingFraction phase (resolvePreset name')| := by
  revert h
  obtain hname | hname | hname := resolvePreset_cases name <;>
    obtain hname' | hname' | hname' := resolvePreset_cases name' <;> rw [hname, hname'] <;>
    cases phase <;> norm_num [remainingFraction, CONSERVATIVE, AGGRESSIVE, DEFAULT, le_abs]

/-- For a purchase of more than 200 base units the changes of preset that keep the fraction are the only ones
that preserve the multiple. -/
theorem mul_preserved_iff {row : SnipeTrade} {bought : ℕ} {riskPreset : String} {es : List PositionEvent}
    {s : Position} (hout : row.outAmount = some bought) (hphase : derivePhase row = .preTp1)
    (hraw : 0 < row.amountRaw) (hbought : 200 < bought) (hrun : positions.run ⟨row, riskPreset, none⟩ es = some s) :
    positions.GuardedRun SameFraction ⟨row, riskPreset, none⟩ es s ↔
      ∀ pre post u, es = pre ++ post → positions.run ⟨row, riskPreset, none⟩ pre = some u → MulPreserved bought u := by
  refine StepSystem.GuardedRun.iff_forall_reached (fun u => Held bought u ∧ 0 < u.row.amountRaw)
    (MulPreserved bought) (fun u e u' hu hguard hstep => ?_) (fun u hu => hu.1.preserved)
    (fun u e u' hu hbroken hstep hpreserved => ?_) hrun ⟨?_, hraw⟩
  · exact ⟨held_step hu.1 hguard hstep, (amountRaw_step hstep).symm ▸ hu.2⟩
  · cases e with
    | tick sellEnabled lamportsPerToken market sig => exact hbroken trivial
    | setPreset name =>
      obtain rfl := Option.some.inj hstep
      have hopen : derivePhase u.row ≠ .closed := by
        intro hclosed
        apply hbroken
        simp [SameFraction, hclosed, remainingFraction]
      obtain ⟨left, hleft, hlow, hhigh⟩ := hu.1 hopen
      obtain ⟨hlow', hhigh'⟩ := hpreserved.left_bounds hopen hu.2 hleft
      -- the same amount would be two different fractions of the purchase
      have hapart := fractions_apart hbroken
      have hbought' : (200 : ℚ) < bought := by exact_mod_cast hbought
      have hsales : (partialSales (derivePhase u.row) : ℚ) ≤ 2 := by
        cases derivePhase u.row <;> norm_num [partialSales]
      obtain habove | hbelow := le_abs.mp hapart
      · have hscaled := mul_le_mul_of_nonneg_left habove (Nat.cast_nonneg (α := ℚ) bought)
        dsimp only at hlow' hhigh'
        linarith
      · have hscaled := mul_le_mul_of_nonneg_left hbelow (Nat.cast_nonneg (α := ℚ) bought)
        dsimp only at hlow' hhigh'
        linarith
  · intro _
    exact ⟨bought, hout, by simp [hphase, remainingFraction], by simp [hphase, remainingFraction, partialSales]⟩

end SuperAi.Snipe
