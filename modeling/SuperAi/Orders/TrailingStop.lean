import SuperAi.Orders.PositionMonitor
import Mathlib.Tactic.Linarith
import Mathlib.Data.List.ReduceOption

/-! # Trailing stops

A trailing stop is to trigger when the price has fallen from its highest by `trailBps`. The monitor
compares with the stored peak, and raises it only above itself: where there is none the price is its own
peak, so that it is neither too low nor a reason to store one. An order that is placed with a peak
triggers on time, any other never.
-/
namespace SuperAi.Orders
set_option autoImplicit false

/-! ## First times -/

/-- `k` is the first number with the property. -/
def First (P : ℕ → Prop) (k : ℕ) : Prop := P k ∧ ∀ j < k, ¬ P j

section First
variable {P : ℕ → Prop} {k : ℕ}

theorem first_of_zero (h : P 0) : First P k ↔ k = 0 := by
  constructor
  · intro hfirst
    by_contra hk
    exact hfirst.2 0 (Nat.pos_of_ne_zero hk) h
  · rintro rfl
    exact ⟨h, fun j hj => absurd hj (Nat.not_lt_zero j)⟩

theorem first_succ (h : ¬ P 0) : First P (k + 1) ↔ First (fun n => P (n + 1)) k := by
  constructor
  · rintro ⟨hk, hless⟩
    exact ⟨hk, fun j hj => hless (j + 1) (Nat.succ_lt_succ hj)⟩
  · rintro ⟨hk, hless⟩
    refine ⟨hk, fun j hj => ?_⟩
    cases j with
    | zero => exact h
    | succ j => exact hless j (Nat.lt_of_succ_lt_succ hj)

theorem exists_first (h : ∃ k, P k) : ∃ k, First P k := by
  classical
  exact ⟨Nat.find h, Nat.find_spec h, fun j hj => Nat.find_min h hj⟩

end First

/-! ## The order over its ticks -/

/-- The number of the tick that triggers the order. -/
def firstTrigger (type : OrderType) : TriggerParams → List (Option ℚ) → Option ℕ
  | _, [] => none
  | params, price :: prices =>
    let (fire, params) := monitorTick type price params
    if fire.isSome then some 0 else (firstTrigger type params prices).map (· + 1)

/-- The highest of the initial peak, if there is one, and the prices. -/
def highest (peak : Option ℚ) (seen : List ℚ) : Option ℚ := (peak.toList ++ seen).max?

/-- The price of a tick is at the floor under the highest price that has been seen until then. -/
def Breached (params : TriggerParams) (prices : List (Option ℚ)) (k : ℕ) : Prop :=
  ∃ price trailBps peak, prices[k]? = some (some price) ∧ params.trailBps = some trailBps ∧
    highest params.trailPeak (prices.take (k + 1)).reduceOption = some peak ∧ price ≤ trailingFloor peak trailBps

/-- The order triggers at the first breach, and not before. -/
def FiresOnTime (params : TriggerParams) (prices : List (Option ℚ)) : Prop :=
  ∀ k, firstTrigger .TRAILING_STOP params prices = some k ↔ First (Breached params prices) k

variable {params : TriggerParams} {prices : List (Option ℚ)} {price peak trailBps : ℚ} {k : ℕ}

/-! ## Peaks and floors -/

theorem lt_of_trailingFloor (hpos : 0 < price) (hbps : 0 < trailBps) : trailingFloor price trailBps < price := by
  have hcut : 0 < price * (trailBps / 10000) := mul_pos hpos (div_pos hbps (by norm_num))
  unfold trailingFloor
  linarith

/-- A price above the peak is not at the floor, whichever of the two the floor is under. -/
theorem floor_max_iff (hpos : 0 < price) (hbps : 0 < trailBps) (hless : trailBps < 10000) :
    price ≤ trailingFloor (max peak price) trailBps ↔ price ≤ trailingFloor peak trailBps := by
  have hown := lt_of_trailingFloor hpos hbps
  by_cases hle : price ≤ peak
  · rw [max_eq_left hle]
  · have hlt : peak < price := lt_of_not_ge hle
    have hshare : 0 < 1 - trailBps / 10000 := by linarith
    have hfloor : trailingFloor peak trailBps < trailingFloor price trailBps :=
      mul_lt_mul_of_pos_right hlt hshare
    rw [max_eq_right hlt.le]
    constructor
    · intro h
      linarith
    · intro h
      linarith

theorem shouldTrigger_trailing (htrail : params.trailBps = some trailBps) :
    (shouldTrigger .TRAILING_STOP price params).isSome = true ↔
      price ≤ trailingFloor (params.trailPeak.getD price) trailBps := by
  simp only [shouldTrigger, htrail, Option.map_some, Option.isSome_map]
  by_cases hle : price ≤ trailingFloor (params.trailPeak.getD price) trailBps
  · simp [hle]
  · simp [hle]

theorem trackPeak_trailing (htrail : params.trailBps = some trailBps) (hpeak : params.trailPeak = some peak) :
    trackPeak .TRAILING_STOP price params = { params with trailPeak := some (max peak price) } := by
  have hrises : (params.trailBps.isSome ∧ params.trailPeak.getD price < price) ↔ peak < price := by
    simp [htrail, hpeak]
  unfold trackPeak
  by_cases hlt : peak < price
  · rw [if_pos ⟨rfl, hrises.mpr hlt⟩, max_eq_right hlt.le]
  · rw [if_neg fun h => hlt (hrises.mp h.2), max_eq_left (le_of_not_gt hlt), ← hpeak]

/-! ## Breaches -/

theorem not_breached_nil : ¬ Breached params [] k := by
  rintro ⟨price, trailBps, peak, hprice, -⟩
  simp at hprice

theorem not_breached_none_zero : ¬ Breached params (none :: prices) 0 := by
  rintro ⟨price, trailBps, peak, hprice, -⟩
  cases hprice

theorem breached_none_succ : Breached params (none :: prices) (k + 1) ↔ Breached params prices k := by
  unfold Breached
  rw [List.getElem?_cons_succ, List.take_succ_cons, List.reduceOption_cons_of_none]

theorem breached_some_zero (htrail : params.trailBps = some trailBps) (hpeak : params.trailPeak = some peak) :
    Breached params (some price :: prices) 0 ↔ price ≤ trailingFloor (max peak price) trailBps := by
  constructor
  · rintro ⟨p, bps, m, hprice, hbps, hhigh, hle⟩
    obtain rfl : price = p := by simpa using hprice
    obtain rfl := Option.some.inj (htrail.symm.trans hbps)
    rw [hpeak] at hhigh
    obtain rfl : max peak price = m := Option.some.inj hhigh
    exact hle
  · intro hle
    refine ⟨price, trailBps, max peak price, rfl, htrail, ?_, hle⟩
    rw [hpeak]
    rfl

theorem breached_some_succ (hpeak : params.trailPeak = some peak) :
    Breached params (some price :: prices) (k + 1) ↔
      Breached { params with trailPeak := some (max peak price) } prices k := by
  unfold Breached
  rw [List.getElem?_cons_succ, List.take_succ_cons, List.reduceOption_cons_of_some, hpeak]
  rfl

/-! ## Orders with and without a peak -/

/-- With a peak the comparison with the stored one is that with the highest. -/
theorem firesOnTime_of_peak (htrail : params.trailBps = some trailBps) (hbps : 0 < trailBps)
    (hless : trailBps < 10000) (hpeak : params.trailPeak = some peak) (hpos : ∀ p, some p ∈ prices → 0 < p) :
    FiresOnTime params prices := by
  intro k
  induction prices generalizing params peak k with
  | nil =>
    constructor
    · intro h
      cases h
    · intro h
      exact absurd h.1 not_breached_nil
  | cons price prices ih =>
    have hrest : ∀ p, some p ∈ prices → 0 < p := fun p hp => hpos p (List.mem_cons_of_mem _ hp)
    cases price with
    | none =>
      have ih := fun k => ih htrail hpeak hrest k
      change (firstTrigger .TRAILING_STOP params prices).map (· + 1) = some k ↔ _
      cases k with
      | zero =>
        constructor
        · intro h
          simp at h
        · intro h
          exact absurd h.1 not_breached_none_zero
      | succ k =>
        rw [first_succ not_breached_none_zero]
        simp only [breached_none_succ]
        rw [← ih k]
        simp
    | some price =>
      have hprice : 0 < price := hpos price List.mem_cons_self
      have hzero : Breached params (some price :: prices) 0 ↔
          (shouldTrigger .TRAILING_STOP price params).isSome = true := by
        rw [breached_some_zero htrail hpeak, floor_max_iff hprice hbps hless, shouldTrigger_trailing htrail, hpeak]
        rfl
      change (if (shouldTrigger .TRAILING_STOP price params).isSome then some 0
        else (firstTrigger .TRAILING_STOP (trackPeak .TRAILING_STOP price params) prices).map (· + 1)) = some k ↔ _
      by_cases hfire : (shouldTrigger .TRAILING_STOP price params).isSome = true
      · rw [if_pos hfire, first_of_zero (hzero.mpr hfire), Option.some.injEq]
        exact eq_comm
      · have hnot : ¬ Breached params (some price :: prices) 0 := fun h => hfire (hzero.mp h)
        rw [if_neg hfire, trackPeak_trailing htrail hpeak]
        have hraised : { params with trailPeak := some (max peak price) }.trailBps = some trailBps := htrail
        have ih := fun k => ih hraised rfl hrest k
        cases k with
        | zero =>
          constructor
          · intro h
            simp at h
          · intro h
            exact absurd h.1 hnot
        | succ k =>
          rw [first_succ hnot]
          simp only [breached_some_succ hpeak]
          rw [← ih k]
          simp

/-- Without a peak every price is its own. -/
theorem firstTrigger_of_no_peak (htrail : params.trailBps = some trailBps) (hbps : 0 < trailBps)
    (hpeak : params.trailPeak = none) (hpos : ∀ p, some p ∈ prices → 0 < p) :
    firstTrigger .TRAILING_STOP params prices = none := by
  induction prices with
  | nil => rfl
  | cons price prices ih =>
    have hrest := ih fun p hp => hpos p (List.mem_cons_of_mem _ hp)
    cases price with
    | none =>
      change (firstTrigger .TRAILING_STOP params prices).map (· + 1) = none
      rw [hrest]
      rfl
    | some price =>
      have hfire : ¬ (shouldTrigger .TRAILING_STOP price params).isSome = true := by
        rw [shouldTrigger_trailing htrail, hpeak]
        exact not_le_of_gt (lt_of_trailingFloor (hpos price List.mem_cons_self) hbps)
      have htrack : trackPeak .TRAILING_STOP price params = params := by
        unfold trackPeak
        rw [hpeak]
        exact if_neg fun h => lt_irrefl price h.2.2
      change (if (shouldTrigger .TRAILING_STOP price params).isSome then some 0
        else (firstTrigger .TRAILING_STOP (trackPeak .TRAILING_STOP price params) prices).map (· + 1)) = none
      rw [if_neg hfire, htrack, hrest]
      rfl

/-- **Trailing stops.** An order triggers on time exactly when it was placed with a peak, or when the prices
never fall to the floor. -/
theorem firesOnTime_iff (params : TriggerParams) (prices : List (Option ℚ)) (trailBps : ℚ)
    (htrail : params.trailBps = some trailBps) (hbps : 0 < trailBps) (hless : trailBps < 10000)
    (hpos : ∀ p, some p ∈ prices → 0 < p) :
    FiresOnTime params prices ↔ params.trailPeak.isSome = true ∨ ∀ k, ¬ Breached params prices k := by
  cases hpeak : params.trailPeak with
  | some peak =>
    have htime := firesOnTime_of_peak htrail hbps hless hpeak hpos
    exact ⟨fun _ => .inl rfl, fun _ => htime⟩
  | none =>
    have hnever := firstTrigger_of_no_peak htrail hbps hpeak hpos
    constructor
    · intro htime
      refine .inr fun k hk => ?_
      obtain ⟨first, hfirst⟩ := exists_first ⟨k, hk⟩
      rw [← htime first, hnever] at hfirst
      cases hfirst
    · rintro (hsome | hnone)
      · cases hsome
      · intro k
        rw [hnever]
        exact ⟨nofun, fun hfirst => absurd hfirst.1 (hnone k)⟩

/-! ## Two orders -/

def trailingParams (trailPeak : Option ℚ) : TriggerParams := { trailBps := some 1000, trailPeak }

/-- The price rises from 100 to 200 and falls back by half. -/
def roundTrip : List (Option ℚ) := [some 100, none, some 200, some 190, some 100]

theorem roundTrip_positive : ∀ p, some p ∈ roundTrip → 0 < p := by
  intro p hp
  simp only [roundTrip, List.mem_cons, Option.some.injEq, reduceCtorEq, false_or, List.not_mem_nil, or_false]
    at hp
  rcases hp with rfl | rfl | rfl | rfl <;> norm_num

theorem roundTrip_fires : FiresOnTime (trailingParams (some 100)) roundTrip ∧
    firstTrigger .TRAILING_STOP (trailingParams (some 100)) roundTrip = some 4 := by
  refine ⟨?_, by decide +kernel⟩
  exact (firesOnTime_iff (trailingParams (some 100)) roundTrip 1000 rfl (by norm_num) (by norm_num)
    roundTrip_positive).mpr (.inl rfl)

theorem order_without_peak_never_fires : ¬ ∀ (params : TriggerParams) (prices : List (Option ℚ)) (trailBps : ℚ),
    params.trailBps = some trailBps → 0 < trailBps → trailBps < 10000 → (∀ p, some p ∈ prices → 0 < p) →
    FiresOnTime params prices := by
  intro h
  have htime := h (trailingParams none) roundTrip 1000 rfl (by norm_num) (by norm_num) roundTrip_positive
  have hbreach : Breached (trailingParams none) roundTrip 4 :=
    ⟨100, 1000, 200, rfl, rfl, by decide +kernel, by decide +kernel⟩
  obtain ⟨first, hfirst⟩ := exists_first ⟨4, hbreach⟩
  have hnever : firstTrigger .TRAILING_STOP (trailingParams none) roundTrip = none := by decide +kernel
  rw [← htime first, hnever] at hfirst
  cases hfirst

end SuperAi.Orders
