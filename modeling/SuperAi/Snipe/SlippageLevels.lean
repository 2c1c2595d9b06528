import Mathlib.Tactic.GCongr
import Mathlib.Tactic.Linarith
import Mathlib.Tactic.NormNum
import Mathlib.Tactic.Positivity
import SuperAi.Snipe.SellEngine
import SuperAi.Snipe.SnipeFast

/-! # The slippage of the broadcasts of one buy

`buildSlippageLevels`, `retrySlippage` and the choices of level in `execute`, `executeBurst` and `monitorWithRetry`
(`snipe/snipe-fast.service.ts`), in exact arithmetic. The retries rise from the first explicit level, whatever level was
broadcast first: `executeBurst` starts at the maximum, and `execute` at the first level for which a bundle was built
(`neverLowered_iff`).
-/
namespace SuperAi.Snipe
open SuperAi.Foundations
set_option autoImplicit false

/-- `number | 'dynamic'` -/
inductive Slippage
  | dynamic
  | bps (value : ℚ)
  deriving DecidableEq

def RETRY_SLIPPAGE_CEILING_BPS : ℚ := 10000

/-- The levels in basis points, without repetitions. -/
def explicitLevels (maxBps : ℚ) : List ℚ :=
  let l1 : ℚ := mathRound (maxBps * (30 / 100))
  let l2 : ℚ := mathRound (maxBps * (65 / 100))
  ([l1, l2, maxBps].filter fun b => 50 ≤ b).eraseDups

def buildSlippageLevels (maxBps : ℚ) : List Slippage := .dynamic :: (explicitLevels maxBps).map .bps

def retrySlippage (attempt : ℕ) (maxBps : ℚ) (preBuildLevels : List Slippage) : ℚ :=
  match preBuildLevels[attempt]? with
  | some .dynamic => maxBps
  | some (.bps l) => l
  | none =>
    let extra := attempt - preBuildLevels.length + 1
    min RETRY_SLIPPAGE_CEILING_BPS (mathRound (maxBps * (1 + extra * (1 / 2))))

/-- `buildBundlesParallel`: the levels for which a bundle has been built. -/
def buildBundlesParallel (levels : List Slippage) (built : List Bool) : List Slippage :=
  (levels.zip built).filterMap fun r => if r.2 then some r.1 else none

/-- The two entry points, with the quotes that succeed. -/
inductive SnipePath
  | execute (built : List Bool)
  | executeBurst (built : Bool)

/-- The slippage of the first broadcast, if there is one. -/
def firstBroadcast (maxBps : ℚ) : SnipePath → Option Slippage
  | .execute built => (buildBundlesParallel (buildSlippageLevels maxBps) built).head?
  | .executeBurst built => if built then some (.bps maxBps) else none

inductive ConfirmStatus
  | confirmed
  | slippage_failed
  | other_failed
  | timeout
  deriving DecidableEq, Repr

/-- What `monitorWithRetry` finds in one round: the status, whether the mint has been bought meanwhile, and whether the
retry is built and sent. -/
structure RetryRound where
  status : ConfirmStatus
  alreadyDone : Bool := false
  sent : Bool := true
  deriving DecidableEq, Repr

def RetryRound.retries (r : RetryRound) (attempt : ℕ) : Bool :=
  decide (r.status = .slippage_failed) && !r.alreadyDone && decide (attempt + 1 < MAX_TOTAL_ATTEMPTS) && r.sent

/-- The slippage of the broadcasts that follow attempt `attempt`. -/
def monitorWithRetry (maxBps : ℚ) (levels : List Slippage) : ℕ → List RetryRound → List ℚ
  | _, [] => []
  | attempt, r :: rounds =>
    if r.retries attempt then
      retrySlippage (attempt + 1) maxBps levels :: monitorWithRetry maxBps levels (attempt + 1) rounds
    else []

/-- The broadcasts of one buy. -/
def broadcasts (maxBps : ℚ) (path : SnipePath) (rounds : List RetryRound) : List Slippage :=
  match firstBroadcast maxBps path with
  | none => []
  | some primary => primary :: (monitorWithRetry maxBps (buildSlippageLevels maxBps) 0 rounds).map .bps

/-! ## What retries promise -/

def explicitBps (bs : List Slippage) : List ℚ := bs.filterMap fun b =>
  match b with
  | .dynamic => none
  | .bps value => some value

structure NeverLowered (maxBps : ℚ) (bs : List Slippage) : Prop where
  rising : (explicitBps bs).Pairwise (· ≤ ·)
  ceiling : ∀ value ∈ explicitBps bs, value ≤ RETRY_SLIPPAGE_CEILING_BPS
  /-- An attempt after the levels that are built in advance. -/
  beyond : ∀ (attempt : ℕ) (value : ℚ), bs[attempt]? = some (.bps value) →
    (buildSlippageLevels maxBps).length ≤ attempt → maxBps ≤ value

/-- The first status is a slippage failure, and the retry is sent. -/
def Retried (rounds : List RetryRound) : Prop := rounds.head?.any (fun r => r.retries 0) = true

/-- The first retry is at the first broadcast or above: `execute` has the bundle of one of the first two levels, for
`executeBurst` the maximum is the only explicit level, or nothing has been broadcast. Under a third of a basis point a
retry rounds to zero. -/
def StartsLow (maxBps : ℚ) : SnipePath → Prop
  | .execute built => (∀ i < (buildSlippageLevels maxBps).length, built[i]? ≠ some true) ∨
      1 / 3 ≤ maxBps ∧ (built[0]? = some true ∨ built[1]? = some true)
  | .executeBurst built => built = false ∨ 1 / 3 ≤ maxBps ∧ maxBps * (65 / 100) < 99 / 2

/-! ## Levels -/

section Levels
variable {maxBps : ℚ}

theorem le_mathRound {x : ℚ} {n : ℤ} : n ≤ mathRound x ↔ (n : ℚ) - 1 / 2 ≤ x := by
  rw [mathRound, Int.le_floor, sub_le_iff_le_add]

theorem mathRound_le (x : ℚ) : (mathRound x : ℚ) ≤ x + 1 / 2 := Int.floor_le _

theorem lt_mathRound (x : ℚ) : x - 1 / 2 < mathRound x := by
  have h := Int.lt_floor_add_one (x + 1 / 2)
  rw [mathRound]
  linarith

/-- There are four shapes of the list, by the size of the maximum; none has a repetition. -/
theorem explicitLevels_cases (maxBps : ℚ) :
    (explicitLevels maxBps = [] ∧ maxBps < 50) ∨
    (explicitLevels maxBps = [maxBps] ∧ 50 ≤ maxBps ∧ (mathRound (maxBps * (65 / 100)) : ℚ) < 50) ∨
    ∃ l2 : ℚ, l2 = mathRound (maxBps * (65 / 100)) ∧ 50 ≤ l2 ∧ l2 < maxBps ∧
      (explicitLevels maxBps = [l2, maxBps] ∨
        ∃ l1 : ℚ, l1 < l2 ∧ explicitLevels maxBps = [l1, l2, maxBps]) := by
  have hl1 := mathRound_le (maxBps * (30 / 100))
  have hl2 := mathRound_le (maxBps * (65 / 100))
  have hl2' := lt_mathRound (maxBps * (65 / 100))
  unfold explicitLevels
  dsimp only
  generalize (mathRound (maxBps * (30 / 100)) : ℚ) = l1 at *
  generalize (mathRound (maxBps * (65 / 100)) : ℚ) = l2 at *
  by_cases hmax : 50 ≤ maxBps
  · have hlt1 : l1 < l2 := by linarith
    have hlt2 : l2 < maxBps := by linarith
    right
    by_cases h2 : 50 ≤ l2
    · right
      refine ⟨l2, rfl, h2, hlt2, ?_⟩
      by_cases h1 : 50 ≤ l1
      · right
        refine ⟨l1, hlt1, ?_⟩
        simp [h1, h2, hmax, List.eraseDups_cons, hlt1.ne', hlt2.ne', (hlt1.trans hlt2).ne']
      · left
        simp [h1, h2, hmax, List.eraseDups_cons, hlt2.ne']
    · left
      have h1 : ¬ 50 ≤ l1 := by linarith
      refine ⟨?_, hmax, not_le.mp h2⟩
      simp [h1, h2, hmax, List.eraseDups_cons]
  · left
    have h1 : ¬ 50 ≤ l1 := by linarith
    have h2 : ¬ 50 ≤ l2 := by linarith
    refine ⟨?_, not_le.mp hmax⟩
    simp [h1, h2, hmax]

theorem explicitLevels_sorted (maxBps : ℚ) : (explicitLevels maxBps).Pairwise (· < ·) := by
  obtain ⟨heq, -⟩ | ⟨heq, -⟩ | ⟨l2, -, -, hlt2, heq | ⟨l1, hlt1, heq⟩⟩ := explicitLevels_cases maxBps
  · simp [heq]
  · simp [heq]
  · simp [heq, hlt2]
  · simp [heq, hlt1, hlt2, hlt1.trans hlt2]

theorem explicitLevels_le {x : ℚ} (h : x ∈ explicitLevels maxBps) : x ≤ maxBps := by
  obtain ⟨heq, -⟩ | ⟨heq, -⟩ | ⟨l2, -, -, hlt2, heq | ⟨l1, hlt1, heq⟩⟩ := explicitLevels_cases maxBps
  · simp [heq] at h
  · simp_all
  · obtain rfl | rfl : x = l2 ∨ x = maxBps := by simpa [heq] using h
    · exact hlt2.le
    · exact le_rfl
  · obtain rfl | rfl | rfl : x = l1 ∨ x = l2 ∨ x = maxBps := by simpa [heq] using h
    · exact (hlt1.trans hlt2).le
    · exact hlt2.le
    · exact le_rfl

/-- The first explicit level is the maximum just if 65 % of it rounds to less than 50. -/
theorem max_le_first_iff {x : ℚ} (h : (explicitLevels maxBps)[0]? = some x) :
    maxBps ≤ x ↔ maxBps * (65 / 100) < 99 / 2 := by
  have hround : (mathRound (maxBps * (65 / 100)) : ℚ) < 50 ↔ maxBps * (65 / 100) < 99 / 2 := by
    have h50 : (50 : ℤ) ≤ mathRound (maxBps * (65 / 100)) ↔ ((50 : ℤ) : ℚ) - 1 / 2 ≤ maxBps * (65 / 100) := le_mathRound
    have hsame : ((50 : ℤ) : ℚ) - 1 / 2 = 99 / 2 := by norm_num
    rw [← not_le, ← not_le, not_iff_not, ← hsame, ← h50]
    norm_cast
  obtain ⟨heq, -⟩ | ⟨heq, -, hlow⟩ | ⟨l2, rfl, hl2, hlt2, heq | ⟨l1, hlt1, heq⟩⟩ := explicitLevels_cases maxBps
  · simp [heq] at h
  · obtain rfl : maxBps = x := by simpa [heq] using h
    exact iff_of_true le_rfl (hround.mp hlow)
  · obtain rfl : _ = x := by simpa [heq] using h
    exact iff_of_false (not_le.mpr hlt2) (fun hlow => absurd (hround.mpr hlow) (not_lt.mpr hl2))
  · obtain rfl : l1 = x := by simpa [heq] using h
    exact iff_of_false (not_le.mpr (hlt1.trans hlt2)) (fun hlow => absurd (hround.mpr hlow) (not_lt.mpr hl2))

end Levels

/-! ## Retries -/

section Retries
variable {maxBps : ℚ}

/-- The levels of a buy, as the retries are given them. -/
def retryBps (maxBps : ℚ) (attempt : ℕ) : ℚ := retrySlippage attempt maxBps (buildSlippageLevels maxBps)

theorem levels_succ (maxBps : ℚ) (i : ℕ) :
    (buildSlippageLevels maxBps)[i + 1]? = ((explicitLevels maxBps)[i]?).map .bps := by
  simp [buildSlippageLevels]

theorem retryBps_of_level {i : ℕ} {x : ℚ} (h : (explicitLevels maxBps)[i]? = some x) :
    retryBps maxBps (i + 1) = x := by
  have hlevel : (buildSlippageLevels maxBps)[i + 1]? = some (.bps x) := by rw [levels_succ, h, Option.map_some]
  simp only [retryBps, retrySlippage, hlevel]

theorem retryBps_beyond {attempt : ℕ} (h : (buildSlippageLevels maxBps).length ≤ attempt) :
    retryBps maxBps attempt = min RETRY_SLIPPAGE_CEILING_BPS (mathRound
      (maxBps * (1 + (attempt - (buildSlippageLevels maxBps).length + 1 : ℕ) * (1 / 2)))) := by
  have hnone : (buildSlippageLevels maxBps)[attempt]? = none := List.getElem?_eq_none h
  simp only [retryBps, retrySlippage, hnone]

/-- From a third of a basis point on, no escalation rounds below the maximum. -/
theorem max_le_beyond (hthird : 1 / 3 ≤ maxBps) (hle : maxBps ≤ RETRY_SLIPPAGE_CEILING_BPS) {attempt : ℕ}
    (h : (buildSlippageLevels maxBps).length ≤ attempt) : maxBps ≤ retryBps maxBps attempt := by
  rw [retryBps_beyond h]
  apply le_min hle
  have hextra : (1 : ℚ) ≤ (attempt - (buildSlippageLevels maxBps).length + 1 : ℕ) := by
    exact_mod_cast Nat.le_add_left 1 _
  have hmore : maxBps * (3 / 2) ≤
      maxBps * (1 + (attempt - (buildSlippageLevels maxBps).length + 1 : ℕ) * (1 / 2)) := by
    apply mul_le_mul_of_nonneg_left _ (by linarith)
    linarith
  by_cases hone : 1 ≤ maxBps
  · have hround := lt_mathRound (maxBps * (1 + (attempt - (buildSlippageLevels maxBps).length + 1 : ℕ) * (1 / 2)))
    linarith
  · have hround : (1 : ℤ) ≤ mathRound
        (maxBps * (1 + (attempt - (buildSlippageLevels maxBps).length + 1 : ℕ) * (1 / 2))) := by
      rw [le_mathRound]
      push_cast
      push_cast at hmore
      linarith
    have hcast : (1 : ℚ) ≤ mathRound
        (maxBps * (1 + (attempt - (buildSlippageLevels maxBps).length + 1 : ℕ) * (1 / 2))) := by
      exact_mod_cast hround
    linarith

/-- **One retry more.** It is at no lower slippage than the one before. -/
theorem retryBps_mono (hthird : 1 / 3 ≤ maxBps) (hle : maxBps ≤ RETRY_SLIPPAGE_CEILING_BPS) (i : ℕ) :
    retryBps maxBps (i + 1) ≤ retryBps maxBps (i + 2) := by
  have hlength : (buildSlippageLevels maxBps).length = (explicitLevels maxBps).length + 1 := by
    simp [buildSlippageLevels]
  by_cases hnext : i + 1 < (explicitLevels maxBps).length
  · have hthis : i < (explicitLevels maxBps).length := by omega
    rw [retryBps_of_level (List.getElem?_eq_getElem hthis), retryBps_of_level (List.getElem?_eq_getElem hnext)]
    exact (List.pairwise_iff_getElem.mp (explicitLevels_sorted maxBps) i (i + 1) hthis hnext (by omega)).le
  · have hbeyond : (buildSlippageLevels maxBps).length ≤ i + 2 := by omega
    by_cases hthis : i < (explicitLevels maxBps).length
    · rw [retryBps_of_level (List.getElem?_eq_getElem hthis)]
      exact (explicitLevels_le (List.getElem_mem hthis)).trans (max_le_beyond hthird hle hbeyond)
    · have hbeyond' : (buildSlippageLevels maxBps).length ≤ i + 1 := by omega
      rw [retryBps_beyond hbeyond, retryBps_beyond hbeyond']
      apply min_le_min_left
      have hmono : maxBps * (1 + (i + 1 - (buildSlippageLevels maxBps).length + 1 : ℕ) * (1 / 2)) ≤
          maxBps * (1 + (i + 2 - (buildSlippageLevels maxBps).length + 1 : ℕ) * (1 / 2)) := by
        apply mul_le_mul_of_nonneg_left _ (by linarith)
        have hcast : ((i + 1 - (buildSlippageLevels maxBps).length + 1 : ℕ) : ℚ) ≤
            (i + 2 - (buildSlippageLevels maxBps).length + 1 : ℕ) := by
          exact_mod_cast (by omega)
        linarith
      have hround : mathRound (maxBps * (1 + (i + 1 - (buildSlippageLevels maxBps).length + 1 : ℕ) * (1 / 2))) ≤
          mathRound (maxBps * (1 + (i + 2 - (buildSlippageLevels maxBps).length + 1 : ℕ) * (1 / 2))) := by
        apply Int.floor_le_floor
        linarith
      exact_mod_cast hround

theorem retryBps_le_ceiling (hle : maxBps ≤ RETRY_SLIPPAGE_CEILING_BPS) (i : ℕ) :
    retryBps maxBps (i + 1) ≤ RETRY_SLIPPAGE_CEILING_BPS := by
  by_cases hlevel : i < (explicitLevels maxBps).length
  · rw [retryBps_of_level (List.getElem?_eq_getElem hlevel)]
    exact (explicitLevels_le (List.getElem_mem hlevel)).trans hle
  · have hbeyond : (buildSlippageLevels maxBps).length ≤ i + 1 := by
      simp [buildSlippageLevels]
      omega
    rw [retryBps_beyond hbeyond]
    exact min_le_left _ _

/-- A run of retries rises from its first. -/
theorem monitorWithRetry_sorted (hthird : 1 / 3 ≤ maxBps) (hle : maxBps ≤ RETRY_SLIPPAGE_CEILING_BPS)
    (attempt : ℕ) (rounds : List RetryRound) :
    (monitorWithRetry maxBps (buildSlippageLevels maxBps) attempt rounds).Pairwise (· ≤ ·) ∧
      ∀ x ∈ monitorWithRetry maxBps (buildSlippageLevels maxBps) attempt rounds,
        retryBps maxBps (attempt + 1) ≤ x := by
  induction rounds generalizing attempt with
  | nil => exact ⟨List.Pairwise.nil, fun x hx => absurd hx List.not_mem_nil⟩
  | cons r rounds ih =>
    rw [monitorWithRetry]
    by_cases hretries : r.retries attempt = true
    · rw [if_pos hretries]
      obtain ⟨hsorted, hfirst⟩ := ih (attempt + 1)
      have hmono := retryBps_mono hthird hle attempt
      constructor
      · rw [List.pairwise_cons]
        exact ⟨fun x hx => hmono.trans (hfirst x hx), hsorted⟩
      · intro x hx
        obtain rfl | hx := List.mem_cons.mp hx
        · exact le_rfl
        · exact hmono.trans (hfirst x hx)
    · rw [if_neg hretries]
      exact ⟨List.Pairwise.nil, fun x hx => absurd hx List.not_mem_nil⟩

/-- Each retry is at the slippage of its attempt. -/
theorem monitorWithRetry_get {attempt i : ℕ} {rounds : List RetryRound} {x : ℚ}
    (h : (monitorWithRetry maxBps (buildSlippageLevels maxBps) attempt rounds)[i]? = some x) :
    x = retryBps maxBps (attempt + 1 + i) := by
  induction rounds generalizing attempt i with
  | nil => simp [monitorWithRetry] at h
  | cons r rounds ih =>
    rw [monitorWithRetry] at h
    by_cases hretries : r.retries attempt = true
    · rw [if_pos hretries] at h
      cases i with
      | zero =>
        rw [List.getElem?_cons_zero] at h
        exact (Option.some.inj h).symm
      | succ i =>
        rw [List.getElem?_cons_succ] at h
        rw [ih h]
        congr 1
        omega
    · rw [if_neg hretries] at h
      simp at h

theorem monitorWithRetry_head (maxBps : ℚ) (rounds : List RetryRound) (h : Retried rounds) : ∃ rest,
    monitorWithRetry maxBps (buildSlippageLevels maxBps) 0 rounds = retryBps maxBps 1 :: rest := by
  cases rounds with
  | nil => simp [Retried] at h
  | cons r rounds =>
    have hretries : r.retries 0 = true := by simpa [Retried] using h
    rw [monitorWithRetry, if_pos hretries]
    exact ⟨_, rfl⟩

theorem monitorWithRetry_of_not (rounds : List RetryRound) (h : ¬ Retried rounds) :
    monitorWithRetry maxBps (buildSlippageLevels maxBps) 0 rounds = [] := by
  cases rounds with
  | nil => rfl
  | cons r rounds =>
    have hretries : ¬ r.retries 0 = true := by simpa [Retried] using h
    rw [monitorWithRetry, if_neg hretries]

end Retries

/-! ## Broadcasts -/

section Broadcasts
variable {maxBps : ℚ} {primary : Slippage} {rounds : List RetryRound}

theorem explicitBps_map (xs : List ℚ) : explicitBps (xs.map .bps) = xs := by
  simp [explicitBps, List.filterMap_map]

theorem explicitBps_cons (xs : List ℚ) :
    explicitBps (primary :: xs.map .bps) = (match primary with | .dynamic => xs | .bps value => value :: xs) := by
  cases primary with
  | dynamic => exact explicitBps_map xs
  | bps value => exact congrArg _ (explicitBps_map xs)

/-- A broadcast that is not retried. -/
theorem neverLowered_single (hprimary : ∀ x, primary = .bps x → x ≤ RETRY_SLIPPAGE_CEILING_BPS) :
    NeverLowered maxBps [primary] where
  rising := by cases primary <;> simp [explicitBps]
  ceiling := by
    cases primary with
    | dynamic => simp [explicitBps]
    | bps x => simpa [explicitBps] using hprimary x rfl
  beyond attempt value hget hlate := by
    have hlength : 1 ≤ (buildSlippageLevels maxBps).length := by simp [buildSlippageLevels]
    rw [List.getElem?_eq_none (by simpa using hlength.trans hlate)] at hget
    cases hget

/-- From a third of a basis point on it is the first retry that decides. -/
theorem neverLowered_retried_iff (hthird : 1 / 3 ≤ maxBps) (hle : maxBps ≤ RETRY_SLIPPAGE_CEILING_BPS)
    (hretried : Retried rounds) (hprimary : ∀ x, primary = .bps x → x ≤ RETRY_SLIPPAGE_CEILING_BPS) :
    NeverLowered maxBps
      (primary :: (monitorWithRetry maxBps (buildSlippageLevels maxBps) 0 rounds).map .bps) ↔
    ∀ x, primary = .bps x → x ≤ retryBps maxBps 1 := by
  obtain ⟨hsorted, hfirst⟩ := monitorWithRetry_sorted hthird hle 0 rounds
  obtain ⟨rest, hrest⟩ := monitorWithRetry_head maxBps rounds hretried
  have hceiling : ∀ x ∈ monitorWithRetry maxBps (buildSlippageLevels maxBps) 0 rounds,
      x ≤ RETRY_SLIPPAGE_CEILING_BPS := by
    intro x hx
    obtain ⟨i, hi⟩ := List.mem_iff_getElem?.mp hx
    rw [monitorWithRetry_get hi, Nat.zero_add, Nat.add_comm]
    exact retryBps_le_ceiling hle i
  constructor
  · rintro hnever x rfl
    have hrising := hnever.rising
    rw [hrest, explicitBps_cons, List.pairwise_cons] at hrising
    exact hrising.1 _ List.mem_cons_self
  · intro hlow
    constructor
    · rw [explicitBps_cons]
      cases primary with
      | dynamic => exact hsorted
      | bps x => exact List.pairwise_cons.mpr ⟨fun y hy => (hlow x rfl).trans (hfirst y hy), hsorted⟩
    · rw [explicitBps_cons]
      cases primary with
      | dynamic => exact hceiling
      | bps x => exact List.forall_mem_cons.mpr ⟨hprimary x rfl, hceiling⟩
    · intro attempt value hget hlate
      have hlength : 1 ≤ (buildSlippageLevels maxBps).length := by simp [buildSlippageLevels]
      obtain ⟨i, rfl⟩ : ∃ i, attempt = i + 1 := ⟨attempt - 1, by omega⟩
      rw [List.getElem?_cons_succ, List.getElem?_map] at hget
      obtain ⟨x, hx, hvalue⟩ := Option.map_eq_some_iff.mp hget
      obtain rfl : x = value := by simpa using hvalue
      rw [monitorWithRetry_get hx, Nat.zero_add, Nat.add_comm]
      exact max_le_beyond hthird hle hlate

/-- A retry of less than a third of a basis point is at zero. -/
theorem not_neverLowered_of_lt (hpos : 0 < maxBps) (hthird : maxBps < 1 / 3) (hretried : Retried rounds) :
    ¬ NeverLowered maxBps
      (primary :: (monitorWithRetry maxBps (buildSlippageLevels maxBps) 0 rounds).map .bps) := by
  intro hnever
  obtain ⟨rest, hrest⟩ := monitorWithRetry_head maxBps rounds hretried
  have hlevels : (buildSlippageLevels maxBps).length = 1 := by
    obtain ⟨heq, -⟩ | ⟨-, hmax, -⟩ | ⟨l2, -, hl2, hlt2, -⟩ := explicitLevels_cases maxBps
    · simp [buildSlippageLevels, heq]
    · linarith
    · linarith
  have hbeyond := hnever.beyond 1 (retryBps maxBps 1) (by simp [hrest]) (by omega)
  have hzero : mathRound (maxBps * (1 + (1 - (buildSlippageLevels maxBps).length + 1 : ℕ) * (1 / 2))) < 1 := by
    rw [← not_le, le_mathRound, hlevels]
    push_cast
    linarith
  have hround : (mathRound (maxBps * (1 + (1 - (buildSlippageLevels maxBps).length + 1 : ℕ) * (1 / 2))) : ℚ) ≤ 0 := by
    exact_mod_cast Int.lt_add_one_iff.mp hzero
  rw [retryBps_beyond (by omega)] at hbeyond
  have hmin := min_le_right RETRY_SLIPPAGE_CEILING_BPS
    (mathRound (maxBps * (1 + (1 - (buildSlippageLevels maxBps).length + 1 : ℕ) * (1 / 2))) : ℚ)
  linarith

end Broadcasts

/-! ## Both entry points -/

section Paths
variable {maxBps : ℚ} {rounds : List RetryRound}

theorem bundles_none {levels : List Slippage} {built : List Bool}
    (h : (buildBundlesParallel levels built).head? = none) : ∀ i < levels.length, built[i]? ≠ some true := by
  induction levels generalizing built with
  | nil =>
    intro i hi
    exact absurd hi (Nat.not_lt_zero i)
  | cons l levels ih =>
    intro i hi
    cases built with
    | nil => simp
    | cons b built =>
      cases b with
      | true => simp [buildBundlesParallel] at h
      | false =>
        cases i with
        | zero => simp
        | succ i => exact ih (by simpa [buildBundlesParallel] using h) i (Nat.lt_of_succ_lt_succ hi)

/-- The first bundle is of the first level that has been built. -/
theorem bundles_some {levels : List Slippage} {built : List Bool} {l : Slippage}
    (h : (buildBundlesParallel levels built).head? = some l) :
    ∃ i : ℕ, levels[i]? = some l ∧ built[i]? = some true ∧ ∀ j < i, built[j]? ≠ some true := by
  induction levels generalizing built with
  | nil => simp [buildBundlesParallel] at h
  | cons l' levels ih =>
    cases built with
    | nil => simp [buildBundlesParallel] at h
    | cons b built =>
      cases b with
      | true =>
        refine ⟨0, ?_, rfl, fun j hj => absurd hj (Nat.not_lt_zero j)⟩
        simpa [buildBundlesParallel] using h
      | false =>
        have hrest : (buildBundlesParallel levels built).head? = some l := by simpa [buildBundlesParallel] using h
        obtain ⟨i, hlevel, hbuilt, hbefore⟩ := ih hrest
        refine ⟨i + 1, hlevel, hbuilt, fun j hj => ?_⟩
        cases j with
        | zero => simp
        | succ j => exact hbefore j (Nat.lt_of_succ_lt_succ hj)

theorem neverLowered_nil : NeverLowered maxBps [] where
  rising := List.Pairwise.nil
  ceiling := fun _ hx => absurd hx List.not_mem_nil
  beyond := fun _ _ hget => by simp at hget

theorem broadcasts_of_not (h : ¬ Retried rounds) (path : SnipePath) :
    broadcasts maxBps path rounds = (firstBroadcast maxBps path).toList := by
  unfold broadcasts
  rw [monitorWithRetry_of_not rounds h]
  cases firstBroadcast maxBps path <;> rfl

/-- A level that is not dynamic is no higher than the maximum. -/
theorem first_le {path : SnipePath} {x : ℚ} (h : firstBroadcast maxBps path = some (.bps x)) : x ≤ maxBps := by
  cases path with
  | execute built =>
    obtain ⟨i, hlevel, -, -⟩ := bundles_some h
    cases i with
    | zero => simp [buildSlippageLevels] at hlevel
    | succ i =>
      rw [levels_succ] at hlevel
      obtain ⟨y, hy, hyx⟩ := Option.map_eq_some_iff.mp hlevel
      obtain rfl : y = x := by simpa using hyx
      exact explicitLevels_le (List.mem_of_getElem? hy)
  | executeBurst built =>
    simp only [firstBroadcast] at h
    split_ifs at h
    obtain rfl : maxBps = x := by simpa using h
    exact le_rfl

/-- What `execute` has broadcast is at most the first retry just if it is one of the first two levels. -/
theorem execute_low_iff {built : List Bool} {primary : Slippage}
    (h : firstBroadcast maxBps (.execute built) = some primary) :
    (∀ x, primary = .bps x → x ≤ retryBps maxBps 1) ↔ built[0]? = some true ∨ built[1]? = some true := by
  obtain ⟨i, hlevel, hbuilt, hbefore⟩ := bundles_some h
  cases i with
  | zero =>
    obtain rfl : Slippage.dynamic = primary := by simpa [buildSlippageLevels] using hlevel
    exact iff_of_true (fun x hx => by cases hx) (.inl hbuilt)
  | succ i =>
    rw [levels_succ] at hlevel
    obtain ⟨x, hx, rfl⟩ := Option.map_eq_some_iff.mp hlevel
    cases i with
    | zero =>
      refine iff_of_true (fun y hy => ?_) (.inr hbuilt)
      obtain rfl : x = y := by simpa using hy
      exact (retryBps_of_level hx).ge
    | succ i =>
      obtain ⟨hlt, rfl⟩ := List.getElem?_eq_some_iff.mp hx
      have hpos : 0 < (explicitLevels maxBps).length := by omega
      have hless := List.pairwise_iff_getElem.mp (explicitLevels_sorted maxBps) 0 (i + 1) hpos hlt (by omega)
      apply iff_of_false
      · intro hlow
        have hle := hlow _ rfl
        rw [retryBps_of_level (List.getElem?_eq_getElem hpos)] at hle
        exact absurd hle (not_le.mpr hless)
      · rintro (hzero | hone)
        · exact hbefore 0 (by omega) hzero
        · exact hbefore 1 (by omega) hone

theorem burst_low_iff (hthird : 1 / 3 ≤ maxBps) (hle : maxBps ≤ RETRY_SLIPPAGE_CEILING_BPS) :
    maxBps ≤ retryBps maxBps 1 ↔ maxBps * (65 / 100) < 99 / 2 := by
  by_cases hlevel : 0 < (explicitLevels maxBps).length
  · have hfirst := List.getElem?_eq_getElem hlevel
    rw [retryBps_of_level hfirst]
    exact max_le_first_iff hfirst
  · have hbeyond : (buildSlippageLevels maxBps).length ≤ 1 := by
      simp only [buildSlippageLevels, List.length_cons, List.length_map]
      omega
    apply iff_of_true (max_le_beyond hthird hle hbeyond)
    obtain ⟨-, hmax⟩ | ⟨heq, -⟩ | ⟨l2, -, -, -, heq | ⟨l1, -, heq⟩⟩ := explicitLevels_cases maxBps
    · linarith
    · simp [heq] at hlevel
    · simp [heq] at hlevel
    · simp [heq] at hlevel

/-- For every maximum and both entry points: the slippage of a buy is never lowered, exactly if it is not retried or
the first broadcast starts low. -/
theorem neverLowered_iff (path : SnipePath) (rounds : List RetryRound) (hpos : 0 < maxBps)
    (hle : maxBps ≤ RETRY_SLIPPAGE_CEILING_BPS) :
    NeverLowered maxBps (broadcasts maxBps path rounds) ↔ (Retried rounds → StartsLow maxBps path) := by
  by_cases hretried : Retried rounds
  · rw [imp_iff_right hretried]
    cases hfirst : firstBroadcast maxBps path with
    | none =>
      have hnone : broadcasts maxBps path rounds = [] := by simp [broadcasts, hfirst]
      rw [hnone]
      apply iff_of_true neverLowered_nil
      cases path with
      | execute built => exact .inl (bundles_none hfirst)
      | executeBurst built => exact .inl (by simpa [firstBroadcast] using hfirst)
    | some primary =>
      have hsome : broadcasts maxBps path rounds =
          primary :: (monitorWithRetry maxBps (buildSlippageLevels maxBps) 0 rounds).map .bps := by
        simp [broadcasts, hfirst]
      have hprimary (x : ℚ) (hx : primary = .bps x) : x ≤ RETRY_SLIPPAGE_CEILING_BPS := by
        rw [hx] at hfirst
        exact (first_le hfirst).trans hle
      rw [hsome]
      by_cases hthird : 1 / 3 ≤ maxBps
      · rw [neverLowered_retried_iff hthird hle hretried hprimary]
        cases path with
        | execute built =>
          obtain ⟨i, hlevel, hbuilt, -⟩ := bundles_some hfirst
          have hlt : i < (buildSlippageLevels maxBps).length := (List.getElem?_eq_some_iff.mp hlevel).1
          have hnot : ¬ ∀ i < (buildSlippageLevels maxBps).length, built[i]? ≠ some true :=
            fun hall => hall i hlt hbuilt
          rw [execute_low_iff hfirst, StartsLow]
          tauto
        | executeBurst built =>
          simp only [firstBroadcast] at hfirst
          split_ifs at hfirst with hbuilt
          obtain rfl := Option.some.inj hfirst
          have hlow : (∀ x, Slippage.bps maxBps = .bps x → x ≤ retryBps maxBps 1) ↔ maxBps ≤ retryBps maxBps 1 := by
            simp
          rw [hlow, burst_low_iff hthird hle, StartsLow, hbuilt]
          simp only [Bool.true_eq_false, false_or, hthird, true_and]
      · apply iff_of_false (not_neverLowered_of_lt hpos (not_le.mp hthird) hretried)
        cases path with
        | execute built =>
          obtain ⟨i, hlevel, hbuilt, -⟩ := bundles_some hfirst
          have hlt : i < (buildSlippageLevels maxBps).length := (List.getElem?_eq_some_iff.mp hlevel).1
          rintro (hall | ⟨hle, -⟩)
          · exact hall i hlt hbuilt
          · exact hthird hle
        | executeBurst built =>
          rintro (rfl | ⟨hle, -⟩)
          · simp [firstBroadcast] at hfirst
          · exact hthird hle
  · rw [broadcasts_of_not hretried]
    apply iff_of_true _ (fun h => absurd h hretried)
    cases hfirst : firstBroadcast maxBps path with
    | none => exact neverLowered_nil
    | some primary =>
      apply neverLowered_single
      rintro x rfl
      exact (first_le hfirst).trans hle

end Paths

/-! ## Two buys -/

/-- All levels are built, and the first three attempts fail on slippage. -/
theorem execute_rises : NeverLowered 1000
    (broadcasts 1000 (.execute [true, true, true, true]) (List.replicate 3 ⟨.slippage_failed, false, true⟩)) :=
  (neverLowered_iff (.execute [true, true, true, true]) _ (by norm_num)
    (by norm_num [RETRY_SLIPPAGE_CEILING_BPS])).mpr fun _ => .inr ⟨by norm_num, .inl rfl⟩

theorem burst_broadcasts : broadcasts 1000 (.executeBurst true) [⟨.slippage_failed, false, true⟩] =
    [.bps 1000, .bps 300] := by decide +kernel

/-- A burst is broadcast at 10 %, and retried at 3 %. -/
theorem burst_falls : ¬ ∀ (maxBps : ℚ) (path : SnipePath) (rounds : List RetryRound), 0 < maxBps → maxBps ≤ 10000 →
    NeverLowered maxBps (broadcasts maxBps path rounds) := by
  intro h
  have hrising := (h 1000 (.executeBurst true) [⟨.slippage_failed, false, true⟩] (by norm_num) (by norm_num)).rising
  rw [burst_broadcasts] at hrising
  have hle : (1000 : ℚ) ≤ 300 := (List.pairwise_cons.mp hrising).1 300 List.mem_cons_self
  norm_num at hle

end SuperAi.Snipe
