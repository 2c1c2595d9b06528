import Mathlib.Tactic.GCongr
import Mathlib.Tactic.Linarith
import Mathlib.Tactic.NormNum
import SuperAi.TokenAnalysis.Playbooks

/-! # Warnings and the early-safe score

A warning lowers the sum of the deltas and raises the sum of their sizes. So it never raises a score or a verdict; but
it counts as evidence, and a token with too few signals for a score gets one, its good signals included, with the
warning that brings it over the threshold (`earlySafe_warned`).
-/
namespace SuperAi.TokenAnalysis
open SuperAi.Foundations
set_option autoImplicit false

/-- One more warning: a flag, or one of four signals that becomes unsafe. -/
inductive Warned (s : SafetySignals) : SafetySignals → Prop
  | flag (flagsBefore flagsAfter : List String) (f : String) (h : s.flags = flagsBefore ++ flagsAfter) :
    Warned s { s with flags := flagsBefore ++ f :: flagsAfter }
  | honeypot (h : s.honeypot ≠ some .yes) : Warned s { s with honeypot := some .yes }
  | mintAuthority (h : s.mintAuthority ≠ some true) : Warned s { s with mintAuthority := some true }
  | freezeAuthority (h : s.freezeAuthority ≠ some true) : Warned s { s with freezeAuthority := some true }
  | lpLocked (h : s.lpLocked ≠ some .no) : Warned s { s with lpLocked := some .no }

/-- The two warnings of less than the threshold: a flag, and a freeze authority of which nothing was known. -/
def Slight (s s' : SafetySignals) : Prop :=
  s.flags.length < s'.flags.length ∨ s.freezeAuthority = none ∧ s'.freezeAuthority = some true

/-- From the best verdict down. -/
def Verdict.rank : Verdict → ℕ
  | .strong_yes => 5
  | .yes => 4
  | .neutral => 3
  | .no => 2
  | .strong_no => 1
  | .insufficient_data => 0

/-! ## Rounding and verdicts -/

theorem mathRound_mono {x y : ℚ} (h : x ≤ y) : mathRound x ≤ mathRound y := by
  apply Int.floor_le_floor
  gcongr

theorem round1_mono {x y : ℚ} (h : x ≤ y) : round1 x ≤ round1 y := by
  unfold round1
  have hround : mathRound (x * 10) ≤ mathRound (y * 10) := mathRound_mono (by linarith)
  gcongr

theorem toVerdict_mono {x y : ℚ} (h : x ≤ y) : (toVerdict x).rank ≤ (toVerdict y).rank := by
  unfold toVerdict
  split_ifs
  all_goals first
    | exact absurd h (by linarith)
    | simp [Verdict.rank]

theorem clamp_mono {x y : ℚ} (h : x ≤ y) : clamp x 0 10 ≤ clamp y 0 10 := max_le_max_left _ (min_le_min_left _ h)

/-! ## Sums of deltas -/

/-- The second list lowers the sum by `b` at least, and no evidence is lost. -/
structure Warns (b : ℚ) (before after : List PlaybookSignal) : Prop where
  sum : deltaSum after + b ≤ deltaSum before
  evidence : evidenceTotal before ≤ evidenceTotal after

section Sums
variable {xs ys : List PlaybookSignal} {b : ℚ}

theorem applied_append (xs ys : List PlaybookSignal) : applied (xs ++ ys) = applied xs ++ applied ys := by
  simp [applied]

theorem deltaSum_append (xs ys : List PlaybookSignal) : deltaSum (xs ++ ys) = deltaSum xs + deltaSum ys := by
  simp [deltaSum, applied_append]

theorem evidenceTotal_append (xs ys : List PlaybookSignal) :
    evidenceTotal (xs ++ ys) = evidenceTotal xs + evidenceTotal ys := by
  simp [evidenceTotal, applied_append]

/-- A signal of delta zero is not applied, and adds nothing either way. -/
theorem deltaSum_push (label : String) (weight : SignalWeight) (delta : ℚ) (detail : Option String) :
    deltaSum (push label weight delta detail) = delta := by
  by_cases h : delta = 0
  · simp [deltaSum, applied, push, h]
  · simp [deltaSum, applied, push, h]

theorem evidenceTotal_push (label : String) (weight : SignalWeight) (delta : ℚ) (detail : Option String) :
    evidenceTotal (push label weight delta detail) = |delta| := by
  by_cases h : delta = 0
  · simp [evidenceTotal, applied, push, h]
  · simp [evidenceTotal, applied, push, h]

theorem deltaSum_le (xs : List PlaybookSignal) : deltaSum xs ≤ evidenceTotal xs := by
  unfold deltaSum evidenceTotal
  induction applied xs with
  | nil => simp
  | cons a rest ih =>
    have ha : a.delta ≤ |a.delta| := le_abs_self _
    simp only [List.map_cons, List.sum_cons]
    linarith

theorem Warns.after (before : List PlaybookSignal) (h : Warns b xs ys) : Warns b (before ++ xs) (before ++ ys) := by
  obtain ⟨hsum, hevidence⟩ := h
  constructor
  · rw [deltaSum_append, deltaSum_append]
    linarith
  · rw [evidenceTotal_append, evidenceTotal_append]
    linarith

theorem Warns.before (after : List PlaybookSignal) (h : Warns b xs ys) : Warns b (xs ++ after) (ys ++ after) := by
  obtain ⟨hsum, hevidence⟩ := h
  constructor
  · rw [deltaSum_append, deltaSum_append]
    linarith
  · rw [evidenceTotal_append, evidenceTotal_append]
    linarith

theorem Warns.of_nil (label : String) (weight : SignalWeight) {delta : ℚ} (detail : Option String)
    (h : delta + b ≤ 0) : Warns b [] (push label weight delta detail) := by
  constructor
  · rw [deltaSum_push]
    exact h
  · rw [evidenceTotal_push]
    exact abs_nonneg delta

theorem Warns.of_push (label label' : String) (weight weight' : SignalWeight) {delta delta' : ℚ}
    (detail detail' : Option String) (h : delta' + b ≤ delta) (hsize : |delta| ≤ |delta'|) :
    Warns b (push label weight delta detail) (push label' weight' delta' detail') := by
  constructor
  · rw [deltaSum_push, deltaSum_push]
    exact h
  · rw [evidenceTotal_push, evidenceTotal_push]
    exact hsize

end Sums

/-! ## What a warning changes -/

theorem honeypot_warns {o : Option Known} (h : o ≠ some .yes) :
    Warns 2 (honeypotSignals o) (honeypotSignals (some .yes)) := by
  rcases o with _ | _ | _ | _
  · exact .of_nil _ _ _ (by norm_num)
  · exact absurd rfl h
  · exact .of_push _ _ _ _ _ _ (by norm_num) (by norm_num [abs_of_pos])
  · exact .of_nil _ _ _ (by norm_num)

theorem mint_warns {o : Option Bool} (h : o ≠ some true) : Warns 2 (mintSignals o) (mintSignals (some true)) := by
  rcases o with _ | _ | _
  · exact .of_nil _ _ _ (by norm_num)
  · exact .of_push _ _ _ _ _ _ (by norm_num) (by norm_num [abs_of_pos])
  · exact absurd rfl h

theorem lp_warns {o : Option Known} (h : o ≠ some .no) : Warns 2 (lpSignals o) (lpSignals (some .no)) := by
  rcases o with _ | _ | _ | _
  · exact .of_nil _ _ _ (by norm_num)
  · exact .of_push _ _ _ _ _ _ (by norm_num) (by norm_num [abs_of_pos, abs_of_neg])
  · exact absurd rfl h
  · exact .of_nil _ _ _ (by norm_num)

/-- A freeze authority that was renounced takes its own delta with it. -/
theorem freeze_warns {o : Option Bool} (h : o ≠ some true) :
    Warns (if o = none then 0 else 2) (freezeSignals o) (freezeSignals (some true)) := by
  rcases o with _ | _ | _
  · exact .of_nil _ _ _ (by norm_num)
  · rw [if_neg (by simp)]
    exact .of_push _ _ _ _ _ _ (by norm_num) (by norm_num [abs_of_pos, abs_of_neg])
  · exact absurd rfl h

theorem flag_warns (flagsBefore flagsAfter : List String) (f : String) :
    Warns 0 (flagSignals (flagsBefore ++ flagsAfter)) (flagSignals (flagsBefore ++ f :: flagsAfter)) := by
  have hpush : Warns 0 [] (push f .negative (-4 / 10)) := .of_nil _ _ _ (by norm_num)
  have h := (hpush.before (flagSignals flagsAfter)).after (flagSignals flagsBefore)
  simpa [flagSignals] using h

section Warned
variable (fmt : NumberFormat) (tokenMeta : TokenMeta) {s s' : SafetySignals}

/-- A warning that is not slight lowers the sum by the threshold at least. -/
theorem Warned.warns (h : Warned s s') : ∃ b : ℚ, 0 ≤ b ∧ (¬ Slight s s' → 2 ≤ b) ∧
    Warns b (earlySafeSignals fmt tokenMeta s) (earlySafeSignals fmt tokenMeta s') := by
  cases h with
  | flag flagsBefore flagsAfter f h =>
    have hslight : Slight s { s with flags := flagsBefore ++ f :: flagsAfter } := by
      left
      simp [h]
    refine ⟨0, le_rfl, fun hnot => absurd hslight hnot, ?_⟩
    unfold earlySafeSignals
    rw [h]
    exact .after _ (.after _ (.after _ (.after _ (.after _ (.after _ (.after _ (.after _ (.after _ (.after _
      (flag_warns flagsBefore flagsAfter f))))))))))
  | honeypot h => exact ⟨2, by norm_num, fun _ => le_rfl, .before _ (honeypot_warns h)⟩
  | mintAuthority h => exact ⟨2, by norm_num, fun _ => le_rfl, .after _ (.before _ (mint_warns h))⟩
  | freezeAuthority h =>
    refine ⟨if s.freezeAuthority = none then 0 else 2, ?_, ?_, .after _ (.after _ (.before _ (freeze_warns h)))⟩
    · split_ifs
      · exact le_rfl
      · norm_num
    · intro hnot
      rw [if_neg]
      intro hnone
      exact hnot (.inr ⟨hnone, rfl⟩)
  | lpLocked h =>
    refine ⟨2, by norm_num, fun _ => le_rfl, ?_⟩
    exact .after _ (.after _ (.after _ (.after _ (.after _ (.after _ (.before _ (lp_warns h)))))))

end Warned

/-! ## Scores -/

section Scores
variable (fmt : NumberFormat)

/-- The score that the sum of the deltas makes, given or withheld. -/
def ungated (signals : List PlaybookSignal) : ℚ := clamp (BASELINE + deltaSum signals) 0 10

theorem Warns.ungated_le {xs ys : List PlaybookSignal} {b : ℚ} (h : Warns b xs ys) (hb : 0 ≤ b) :
    ungated ys ≤ ungated xs := by
  have hsum := h.sum
  exact clamp_mono (by linarith)

theorem finalize_of_lt {xs : List PlaybookSignal} {t : ℚ} (h : evidenceTotal xs < t) :
    (finalize fmt xs t).score = none := by
  unfold finalize
  simp [h]

theorem finalize_of_le {xs : List PlaybookSignal} {t : ℚ} (h : t ≤ evidenceTotal xs) :
    (finalize fmt xs t).score = some (round1 (ungated xs)) ∧ (finalize fmt xs t).verdict = toVerdict (ungated xs) := by
  unfold finalize
  simp [not_lt.mpr h, ungated]

theorem finalize_clamped (xs : List PlaybookSignal) (t : ℚ) :
    (finalize fmt xs t).breakdown.clamped = round1 (ungated xs) := by
  unfold finalize
  dsimp only
  split_ifs
  · rfl
  · rfl

theorem evidence_of_score {xs : List PlaybookSignal} {t x : ℚ} (h : (finalize fmt xs t).score = some x) :
    t ≤ evidenceTotal xs := by
  by_contra hlt
  rw [finalize_of_lt fmt (not_le.mp hlt)] at h
  cases h

theorem evidence_of_none {xs : List PlaybookSignal} {t : ℚ} (h : (finalize fmt xs t).score = none) :
    evidenceTotal xs < t := by
  by_contra hle
  rw [(finalize_of_le fmt (not_lt.mp hle)).1] at h
  cases h

theorem round1_baseline : round1 BASELINE = BASELINE := by
  have hround : mathRound (BASELINE * 10) = 50 := by
    rw [mathRound, Int.floor_eq_iff]
    unfold BASELINE
    norm_num
  rw [round1, hround]
  unfold BASELINE
  norm_num

/-- Less evidence than what a warning takes away leaves a negative sum. -/
theorem Warns.le_baseline {xs ys : List PlaybookSignal} {b : ℚ} (h : Warns b xs ys) (hb : evidenceTotal xs ≤ b) :
    round1 (ungated ys) ≤ BASELINE := by
  have hsum : deltaSum ys ≤ 0 := by linarith [h.sum, deltaSum_le xs]
  have hclamp : ungated ys ≤ clamp BASELINE 0 10 := clamp_mono (by linarith)
  have hbase : clamp BASELINE 0 10 = BASELINE := by
    apply clamp_eq_self <;> norm_num [BASELINE]
  calc round1 (ungated ys) ≤ round1 BASELINE := round1_mono (hbase ▸ hclamp)
    _ = BASELINE := round1_baseline

end Scores

/-! ## The playbook -/

structure Playbook.Withheld (p : Playbook) : Prop where
  score : p.score = none
  plan : p.plan = none

/-- The second playbook is no better than the first. A score that the first withholds it gives only of the baseline or
less; after a slight warning, of no more than what the breakdown of the first shows. -/
structure NotImproved (slight : Prop) (p p' : Playbook) : Prop where
  withheld : p.Withheld → p'.Withheld ∨
    ∃ x, p'.score = some x ∧ x ≤ p.breakdown.clamped ∧ (¬ slight → x ≤ BASELINE)
  scored : ∀ x, p.score = some x → ∃ x', p'.score = some x' ∧ x' ≤ x ∧ p'.verdict.rank ≤ p.verdict.rank

section Playbook
variable (fmt : NumberFormat) (tokenMeta : TokenMeta) {s s' : SafetySignals}

theorem withheld_of_score (h : (earlySafe fmt tokenMeta s).score = none) : (earlySafe fmt tokenMeta s).Withheld := by
  refine ⟨h, ?_⟩
  change (finalize fmt (earlySafeSignals fmt tokenMeta s) 2).score = none at h
  change (finalize fmt (earlySafeSignals fmt tokenMeta s) 2).score.map _ = none
  rw [h]
  rfl

/-- A warning never makes the early-safe playbook better, other than that a slight one may lift what is known of the
token over the threshold of the evidence. -/
theorem earlySafe_warned (h : Warned s s') :
    NotImproved (Slight s s') (earlySafe fmt tokenMeta s) (earlySafe fmt tokenMeta s') := by
  obtain ⟨b, hb, hlarge, hwarns⟩ := h.warns fmt tokenMeta
  constructor
  · intro hwithheld
    have hfew := evidence_of_none fmt hwithheld.score
    by_cases hscore : (earlySafe fmt tokenMeta s').score = none
    · left
      exact withheld_of_score fmt tokenMeta hscore
    · right
      obtain ⟨x, hx⟩ := Option.ne_none_iff_exists'.mp hscore
      refine ⟨x, hx, ?_⟩
      have henough := evidence_of_score fmt hx
      have hsame : some (round1 (ungated (earlySafeSignals fmt tokenMeta s'))) = some x :=
        (finalize_of_le fmt henough).1.symm.trans hx
      obtain rfl := Option.some.inj hsame
      constructor
      · change _ ≤ (finalize fmt (earlySafeSignals fmt tokenMeta s) 2).breakdown.clamped
        rw [finalize_clamped]
        exact round1_mono (hwarns.ungated_le hb)
      · intro hnot
        exact hwarns.le_baseline (hfew.le.trans (hlarge hnot))
  · intro x hx
    have hbefore := finalize_of_le fmt (evidence_of_score fmt hx)
    have hafter := finalize_of_le fmt ((evidence_of_score fmt hx).trans hwarns.evidence)
    have hle := hwarns.ungated_le hb
    have hsame : some (round1 (ungated (earlySafeSignals fmt tokenMeta s))) = some x := hbefore.1.symm.trans hx
    obtain rfl := Option.some.inj hsame
    refine ⟨_, hafter.1, round1_mono hle, ?_⟩
    change (finalize fmt (earlySafeSignals fmt tokenMeta s') 2).verdict.rank ≤
      (finalize fmt (earlySafeSignals fmt tokenMeta s) 2).verdict.rank
    rw [hbefore.2, hafter.2]
    exact toVerdict_mono hle

end Playbook

/-! ## A flag that counts as evidence -/

/-- Numbers with one decimal, and whole numbers. -/
def sampleFormat : NumberFormat where
  text x := toString x.num
  toFixed x _ := toString (mathRound (x * 10) / 10) ++ "." ++ toString (mathRound (x * 10) % 10)

/-- Three good signals, with 1.9 of evidence. -/
def renounced : SafetySignals where
  honeypot := some .no
  mintAuthority := some false
  freezeAuthority := some false

theorem renounced_warned : NotImproved (Slight renounced { renounced with honeypot := some .yes })
    (earlySafe sampleFormat {} renounced) (earlySafe sampleFormat {} { renounced with honeypot := some .yes }) :=
  earlySafe_warned sampleFormat {} (.honeypot (by decide))

/-- With one flag more the token gets 6.5 and a plan. -/
theorem renounced_flagged : ¬ ∀ (fmt : NumberFormat) (tokenMeta : TokenMeta) (s s' : SafetySignals), Warned s s' →
    (earlySafe fmt tokenMeta s).Withheld →
    (earlySafe fmt tokenMeta s').Withheld ∨ ∃ x, (earlySafe fmt tokenMeta s').score = some x ∧ x ≤ BASELINE := by
  intro h
  have hwithheld : (earlySafe sampleFormat {} renounced).Withheld :=
    withheld_of_score sampleFormat {} (by decide +kernel)
  have hscore : (earlySafe sampleFormat {} { renounced with flags := ["Low holder count"] }).score =
      some (65 / 10) := by
    decide +kernel
  obtain hnone | ⟨x, hx, hle⟩ :=
    h sampleFormat {} renounced { renounced with flags := ["Low holder count"] } (.flag [] [] _ rfl) hwithheld
  · rw [hnone.score] at hscore
    cases hscore
  · rw [hx] at hscore
    rw [Option.some.inj hscore] at hle
    exact absurd hle (by norm_num [BASELINE])

end SuperAi.TokenAnalysis
