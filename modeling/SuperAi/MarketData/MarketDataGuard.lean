import SuperAi.Foundations.KeyValue
import SuperAi.MarketData.FeedConsensus
import Mathlib.Algebra.Order.Field.Rat

/-! # Which points of market data pass

`MarketDataGuard.validate` (`market-data/market.data.guard.ts`) with the signatures of the feeds
(`market-data/feed.signature.verifier.ts`) and the anomaly window (`market-data/anomaly.filter.ts`). A price is
recorded for the consensus before it is checked, and enters the window after it. So a point that is rejected by one
of them can decide on later points of its instrument, but on no others (`rejected_influence`). The Ed25519
signature, the square root and the check of a date text are parameters.
-/
namespace SuperAi.MarketData
open SuperAi.Foundations
set_option autoImplicit false

structure ValidatedMarketDataPoint (N : Type) where
  instrument : String
  price : N
  volume : N
  timestamp : String
  source : String
  validatedAt : ℤ
  deriving DecidableEq, Repr

/-- What a `FeedError` tells. -/
inductive FeedError (N : Type)
  | schemaInvalid
  | signatureMissing
  | signatureInvalid
  | consensusDiverged (divergencePercent : N)
  | anomalyDetected (deviations mean stdDev : N)
  deriving DecidableEq, Repr

structure AnomalyFilterResult (N : Type) where
  anomalous : Bool
  mean : N
  stdDev : N
  deviations : N
  deriving DecidableEq, Repr

structure MarketDataGuard (N : Type) where
  config : FeedConfig N
  sqrt : N → N
  /-- `crypto.verify` with this public key, over the canonical JSON of the point without its signature. -/
  ed25519 : String → RawMarketDataPoint N → String → Bool
  isDatetime : String → Bool

def QUARANTINE_MAX_LENGTH : ℕ := 1000

namespace FeedStore
variable {N : Type}

def window (s : FeedStore N) (instrument : String) : List N :=
  (KeyValue.get s.windows ("feed:anomaly:" ++ instrument)).getD []

/-- `lpush` and `ltrim`. -/
def pushPrice (s : FeedStore N) (cfg : FeedConfig N) (instrument : String) (price : N) : FeedStore N :=
  { s with
    windows := s.windows.set ("feed:anomaly:" ++ instrument) ((price :: s.window instrument).take cfg.anomalyWindowSize) }

def quarantine (s : FeedStore N) (now : ℤ) (dataPoint : RawMarketDataPoint N) (reason : String) : FeedStore N :=
  { s with quarantined := (⟨dataPoint, reason, now⟩ :: s.quarantined).take QUARANTINE_MAX_LENGTH }

/-! ## Stores that tell the same -/

/-- From this time on the two stores tell the same about the instrument. -/
def Agree (instrument : String) (now : ℤ) (s s' : FeedStore N) : Prop :=
  (∀ later, now ≤ later → s.liveSources instrument later = s'.liveSources instrument later) ∧
    s.window instrument = s'.window instrument

section
variable {s s' s'' : FeedStore N} {now time : ℤ} {instrument : String}

theorem Agree.symm (h : Agree instrument now s s') : Agree instrument now s' s :=
  ⟨fun later hlater => (h.1 later hlater).symm, h.2.symm⟩

theorem Agree.trans (h : Agree instrument now s s') (h' : Agree instrument now s' s'') :
    Agree instrument now s s'' :=
  ⟨fun later hlater => (h.1 later hlater).trans (h'.1 later hlater), h.2.trans h'.2⟩

theorem Agree.mono (h : Agree instrument now s s') (hle : now ≤ time) : Agree instrument time s s' :=
  ⟨fun later hlater => h.1 later (Int.le_trans hle hlater), h.2⟩

theorem window_pushPrice_self (s : FeedStore N) (cfg : FeedConfig N) (instrument : String) (price : N) :
    (s.pushPrice cfg instrument price).window instrument = (price :: s.window instrument).take cfg.anomalyWindowSize := by
  unfold window pushPrice
  rw [KeyValue.get_set_self]
  rfl

theorem window_pushPrice_of_ne (s : FeedStore N) (cfg : FeedConfig N) (price : N) {other : String}
    (h : other ≠ instrument) : (s.pushPrice cfg instrument price).window other = s.window other := by
  unfold window pushPrice
  rw [KeyValue.get_set_of_ne fun heq => h (by simpa using heq)]

theorem del_shadow (live : KeyValue String N) (source : String) (price : N) (lives : Prop) [Decidable lives] :
    KeyValue.del ((if lives then [(source, price)] else []) ++ KeyValue.del live source) source =
      KeyValue.del live source := by
  have hold : KeyValue.del (KeyValue.del live source) source = KeyValue.del live source := by
    unfold KeyValue.del
    rw [List.filter_filter]
    simp
  have hnew : KeyValue.del (if lives then [(source, price)] else []) source = [] := by
    unfold KeyValue.del
    by_cases hlives : lives
    · simp [hlives]
    · simp [hlives]
  unfold KeyValue.del at hold hnew ⊢
  rw [List.filter_append, hnew, hold, List.nil_append]

/-- No price lives longer than its time to live from now. -/
def Fresh (now : ℤ) (s : FeedStore N) : Prop :=
  ∀ key entry, KeyValue.get s.prices key = some entry → entry.expiresAt ≤ now + priceTtl

theorem Fresh.liveSources_eq_nil (h : Fresh now s) {later : ℤ} (hlater : now + priceTtl ≤ later) :
    s.liveSources instrument later = [] := by
  unfold FeedStore.liveSources
  refine List.filterMap_eq_nil_iff.mpr fun field _ => ?_
  have hgone : s.livePrice instrument later field.1 = none := by
    unfold FeedStore.livePrice ExpiringStore.read
    cases hentry : KeyValue.get s.prices (sourceKey instrument field.1) with
    | none => rfl
    | some entry =>
      have hexpires := h _ entry hentry
      rw [Option.bind_some, if_neg (by omega)]
  rw [hgone]
  rfl

/-- The first store has a price of this feed that the second one has not, and is the same otherwise. -/
structure Shadowed (p : RawMarketDataPoint N) (seen : ℤ) (now : ℤ) (s s' : FeedStore N) : Prop where
  window : s.window p.instrument = s'.window p.instrument
  live : ∀ later, now ≤ later → s.liveSources p.instrument later =
    (if later < seen + priceTtl then [(p.source, p.price)] else []) ++
      KeyValue.del (s'.liveSources p.instrument later) p.source
  expired : ∀ later, now ≤ later → seen + priceTtl ≤ later → s'.liveSources p.instrument later = []

theorem Shadowed.congr {p : RawMarketDataPoint N} {t t' : FeedStore N} {seen time : ℤ} (h : Shadowed p seen now s s') (hle : now ≤ time)
    (hs : Agree p.instrument time t s) (hs' : Agree p.instrument time t' s') : Shadowed p seen time t t' where
  window := by rw [hs.2, hs'.2, h.window]
  live later hlater := by rw [hs.1 later hlater, hs'.1 later hlater, h.live later (Int.le_trans hle hlater)]
  expired later hlater hseen := by rw [hs'.1 later hlater, h.expired later (Int.le_trans hle hlater) hseen]

end
end FeedStore

/-! ## The guard -/

section
variable {N : Type} [NatCast N] [Add N] [Sub N] [Mul N] [Div N] [LT N] [DecidableLT N] [DecidableEq N]

/-- `Math.abs`. -/
def absolute (x : N) : N := if x < (0 : ℕ) then (0 : ℕ) - x else x

/-- `AnomalyFilter.check` before the price is appended. -/
def anomalyOf (guard : MarketDataGuard N) (window : List N) (price : N) : AnomalyFilterResult N :=
  if window.length < 2 then ⟨false, window.headD price, (0 : ℕ), (0 : ℕ)⟩
  else
    let mean : N := window.foldl (fun sum v => sum + v) ((0 : ℕ) : N) / (window.length : N)
    let variance : N := window.foldl (fun sum v => sum + (v - mean) * (v - mean)) ((0 : ℕ) : N) / (window.length : N)
    let stdDev := guard.sqrt variance
    let deviations : N := if stdDev = (0 : ℕ) then (0 : ℕ) else absolute (price - mean) / stdDev
    ⟨decide (guard.config.anomalyStdDevMultiplier < deviations), mean, stdDev, deviations⟩

namespace MarketDataGuard
variable (guard : MarketDataGuard N)

/-- `RawMarketDataPointSchema`. -/
def schemaAccepts (p : RawMarketDataPoint N) : Bool :=
  p.instrument ≠ "" && ((0 : ℕ) : N) < p.price && (((0 : ℕ) : N) < p.volume || p.volume = (0 : ℕ)) &&
    guard.isDatetime p.timestamp && p.source ≠ ""

/-- `FeedSignatureVerifier.verify`. With an inherited member in place of a key, no signature is valid. -/
def verify (p : RawMarketDataPoint N) : Option (FeedError N) :=
  match lookup guard.config.feedSignaturePublicKeys p.source with
  | .undefined => none
  | .inherited => if p.signature.getD "" = "" then some .signatureMissing else some .signatureInvalid
  | .own publicKeyPem =>
    if p.signature.getD "" = "" then some .signatureMissing
    else if guard.ed25519 publicKeyPem p (p.signature.getD "") then none
    else some .signatureInvalid

def validated (now : ℤ) (p : RawMarketDataPoint N) : ValidatedMarketDataPoint N :=
  ⟨p.instrument, p.price, p.volume, p.timestamp, p.source, now⟩

/-- The anomaly check of a point that has passed the consensus. -/
def filterAnomaly (now : ℤ) (s : FeedStore N) (p : RawMarketDataPoint N) :
    FeedStore N × Except (FeedError N) (ValidatedMarketDataPoint N) :=
  let result := anomalyOf guard (s.window p.instrument) p.price
  let appended := s.pushPrice guard.config p.instrument p.price
  if result.anomalous then
    (appended.quarantine now p "Anomaly detected",
      .error (.anomalyDetected result.deviations result.mean result.stdDev))
  else (appended, .ok (validated now p))

def validate (now : ℤ) (s : FeedStore N) (p : RawMarketDataPoint N) :
    FeedStore N × Except (FeedError N) (ValidatedMarketDataPoint N) :=
  if guard.schemaAccepts p then
    match guard.verify p with
    | some error => (s.quarantine now p "Signature verification failed", .error error)
    | none =>
      let consensus := s.checkConsensus guard.config now p.instrument p.price p.source
      if consensus.2.consensus then guard.filterAnomaly now consensus.1 p
      else (consensus.1.quarantine now p "Feed consensus failure",
        .error (.consensusDiverged consensus.2.divergencePercent))
  else (s.quarantine now p "Schema validation failed", .error .schemaInvalid)

/-- The verdicts on points that come one after the other, each at its time. -/
def verdicts : FeedStore N → List (ℤ × RawMarketDataPoint N) →
    List (Except (FeedError N) (ValidatedMarketDataPoint N))
  | _, [] => []
  | s, (now, p) :: points => (guard.validate now s p).2 :: verdicts (guard.validate now s p).1 points

def storeAfter : FeedStore N → List (ℤ × RawMarketDataPoint N) → FeedStore N
  | s, [] => s
  | s, (now, p) :: points => storeAfter (guard.validate now s p).1 points

/-- The point gets as far as the consensus check. -/
def Checked (p : RawMarketDataPoint N) : Prop := guard.schemaAccepts p = true ∧ guard.verify p = none

instance (p : RawMarketDataPoint N) : Decidable (guard.Checked p) := by unfold Checked; infer_instance

/-! ## What a point changes -/

open FeedStore

section
variable {guard} {s s' : FeedStore N} {now : ℤ} {instrument : String} {p : RawMarketDataPoint N}

/-- A point that does not get as far as the consensus check is only quarantined, for what it is itself. -/
theorem validate_unchecked_eq (h : ¬ guard.Checked p) : ∃ (reason : String) (error : FeedError N),
    (∀ divergence, error ≠ .consensusDiverged divergence) ∧
      ∀ (now : ℤ) (s : FeedStore N), guard.validate now s p = (s.quarantine now p reason, .error error) := by
  have hne : ∀ divergence, guard.verify p ≠ some (.consensusDiverged divergence) := by
    intro divergence
    unfold verify
    repeat' split
    all_goals simp
  unfold validate
  by_cases hschema : guard.schemaAccepts p
  · cases hverify : guard.verify p with
    | none => exact absurd ⟨hschema, hverify⟩ h
    | some error =>
      refine ⟨_, error, fun divergence heq => ?_, fun now s => if_pos hschema⟩
      rw [heq] at hverify
      exact hne divergence hverify
  · exact ⟨_, .schemaInvalid, fun divergence => by simp, fun now s => if_neg hschema⟩

theorem validate_diverging (h : guard.Checked p)
    (hresult : (s.checkConsensus guard.config now p.instrument p.price p.source).2.consensus = false) :
    guard.validate now s p =
      ((s.checkConsensus guard.config now p.instrument p.price p.source).1.quarantine now p "Feed consensus failure",
        .error (.consensusDiverged
          (s.checkConsensus guard.config now p.instrument p.price p.source).2.divergencePercent)) := by
  unfold validate
  rw [if_pos h.1, h.2]
  dsimp only
  rw [hresult]
  rfl

theorem validate_agreeing (h : guard.Checked p)
    (hresult : (s.checkConsensus guard.config now p.instrument p.price p.source).2.consensus = true) :
    guard.validate now s p =
      guard.filterAnomaly now (s.checkConsensus guard.config now p.instrument p.price p.source).1 p := by
  unfold validate
  rw [if_pos h.1, h.2]
  dsimp only
  rw [if_pos hresult]

theorem validate_unchecked (h : ¬ guard.Checked p) (now : ℤ) (s : FeedStore N) (instrument : String) :
    Agree instrument now (guard.validate now s p).1 s := by
  obtain ⟨reason, error, -, heq⟩ := validate_unchecked_eq h
  rw [heq]
  exact ⟨fun _ _ => rfl, rfl⟩

theorem verdict_unchecked (h : ¬ guard.Checked p) (now : ℤ) (s s' : FeedStore N) :
    (guard.validate now s p).2 = (guard.validate now s' p).2 := by
  obtain ⟨reason, error, -, heq⟩ := validate_unchecked_eq h
  rw [heq, heq]

theorem filterAnomaly_congr (hagree : Agree p.instrument now s s') :
    (guard.filterAnomaly now s p).2 = (guard.filterAnomaly now s' p).2 ∧
      Agree p.instrument now (guard.filterAnomaly now s p).1 (guard.filterAnomaly now s' p).1 := by
  have hpush : Agree p.instrument now (s.pushPrice guard.config p.instrument p.price)
      (s'.pushPrice guard.config p.instrument p.price) := by
    refine ⟨hagree.1, ?_⟩
    rw [window_pushPrice_self, window_pushPrice_self, hagree.2]
  unfold filterAnomaly
  rw [hagree.2]
  dsimp only
  by_cases hanomalous : (anomalyOf guard (s'.window p.instrument) p.price).anomalous = true
  · rw [if_pos hanomalous, if_pos hanomalous]
    exact ⟨rfl, hpush⟩
  · rw [if_neg hanomalous, if_neg hanomalous]
    exact ⟨rfl, hpush⟩

/-- The verdict on a point that is checked depends on its own price, the live prices of the other feeds and the
window, and so does what the store tells about the instrument afterwards. -/
theorem validate_congr_of_recorded (hchecked : guard.Checked p)
    (hlive : ∀ later, now ≤ later →
      (s.record now p.instrument p.price p.source).liveSources p.instrument later =
        (s'.record now p.instrument p.price p.source).liveSources p.instrument later)
    (hwindow : s.window p.instrument = s'.window p.instrument) :
    (guard.validate now s p).2 = (guard.validate now s' p).2 ∧
      Agree p.instrument now (guard.validate now s p).1 (guard.validate now s' p).1 := by
  have hagree : Agree p.instrument now (s.checkConsensus guard.config now p.instrument p.price p.source).1
      (s'.checkConsensus guard.config now p.instrument p.price p.source).1 := by
    refine ⟨fun later hlater => ?_, hwindow⟩
    unfold FeedStore.checkConsensus
    dsimp only
    rw [FeedStore.liveSources_dropExpired _ hlater, FeedStore.liveSources_dropExpired _ hlater]
    exact hlive later hlater
  have hresult : (s.checkConsensus guard.config now p.instrument p.price p.source).2 =
      (s'.checkConsensus guard.config now p.instrument p.price p.source).2 := by
    unfold FeedStore.checkConsensus
    dsimp only
    rw [hlive now (Int.le_refl now)]
  cases hconsensus : (s'.checkConsensus guard.config now p.instrument p.price p.source).2.consensus with
  | true =>
    rw [validate_agreeing hchecked (hresult ▸ hconsensus), validate_agreeing hchecked hconsensus]
    exact filterAnomaly_congr hagree
  | false =>
    rw [validate_diverging hchecked (hresult ▸ hconsensus), validate_diverging hchecked hconsensus, hresult]
    exact ⟨rfl, hagree⟩

theorem validate_congr (hagree : Agree p.instrument now s s') :
    (guard.validate now s p).2 = (guard.validate now s' p).2 ∧
      Agree p.instrument now (guard.validate now s p).1 (guard.validate now s' p).1 := by
  by_cases hchecked : guard.Checked p
  · refine validate_congr_of_recorded hchecked (fun later hlater => ?_) hagree.2
    rw [FeedStore.liveSources_record_self, FeedStore.liveSources_record_self, hagree.1 later hlater]
  · exact ⟨verdict_unchecked hchecked now s s',
      ((validate_unchecked hchecked now s _).trans hagree).trans (validate_unchecked hchecked now s' _).symm⟩

theorem filterAnomaly_other (hne : instrument ≠ p.instrument) (s : FeedStore N) :
    Agree instrument now (guard.filterAnomaly now s p).1 s := by
  have hpush : (s.pushPrice guard.config p.instrument p.price).window instrument = s.window instrument :=
    window_pushPrice_of_ne s guard.config p.price hne
  unfold filterAnomaly
  dsimp only
  split
  · exact ⟨fun _ _ => rfl, hpush⟩
  · exact ⟨fun _ _ => rfl, hpush⟩

/-- A point of one instrument leaves the others alone. -/
theorem validate_other (hne : instrument ≠ p.instrument) (hplain : PlainName instrument)
    (hpoint : PlainName p.instrument) (now : ℤ) (s : FeedStore N) :
    Agree instrument now (guard.validate now s p).1 s := by
  by_cases hchecked : guard.Checked p
  · have hconsensus : Agree instrument now (s.checkConsensus guard.config now p.instrument p.price p.source).1 s := by
      refine ⟨fun later hlater => ?_, rfl⟩
      unfold FeedStore.checkConsensus
      dsimp only
      rw [FeedStore.liveSources_dropExpired _ hlater, FeedStore.liveSources_record_of_ne s hne hpoint hplain]
    cases hresult : (s.checkConsensus guard.config now p.instrument p.price p.source).2.consensus with
    | true =>
      rw [validate_agreeing hchecked hresult]
      exact (filterAnomaly_other hne _).trans hconsensus
    | false =>
      rw [validate_diverging hchecked hresult]
      exact hconsensus
  · exact validate_unchecked hchecked now s instrument

/-! ## Two runs -/

theorem agree_step (hagree : Agree instrument now s s') (hplain : PlainName instrument)
    (hpoint : PlainName p.instrument) :
    Agree instrument now (guard.validate now s p).1 (guard.validate now s' p).1 := by
  by_cases hsame : instrument = p.instrument
  · subst hsame
    exact (validate_congr hagree).2
  · exact ((validate_other hsame hplain hpoint now s).trans hagree).trans (validate_other hsame hplain hpoint now s').symm

/-- Stores that agree on an instrument give the same verdicts on its points. -/
theorem verdicts_congr (agreed : String → Prop) (hagreed : ∀ instrument, agreed instrument → PlainName instrument)
    (points : List (ℤ × RawMarketDataPoint N)) : ∀ {now : ℤ} {s s' : FeedStore N},
    (now :: points.map Prod.fst).Pairwise (· ≤ ·) → (∀ x ∈ points, PlainName x.2.instrument) →
    (∀ instrument, agreed instrument → Agree instrument now s s') →
    ∀ (i : ℕ) (x : ℤ × RawMarketDataPoint N), points[i]? = some x → agreed x.2.instrument →
      (guard.verdicts s points)[i]? = (guard.verdicts s' points)[i]? := by
  induction points with
  | nil => intro _ _ _ _ _ _ i x hx; simp at hx
  | cons point points ih =>
    intro now s s' hclock hplain hagree i x hx hx'
    obtain ⟨time, p⟩ := point
    have hle : now ≤ time := (List.pairwise_cons.mp hclock).1 time List.mem_cons_self
    have hpoint : PlainName p.instrument := hplain _ List.mem_cons_self
    cases i with
    | zero =>
      obtain rfl := Option.some.inj hx
      exact congrArg some (validate_congr ((hagree p.instrument hx').mono hle)).1
    | succ i =>
      exact ih (List.pairwise_cons.mp hclock).2 (fun y hy => hplain y (List.mem_cons_of_mem _ hy))
        (fun instrument h => agree_step ((hagree instrument h).mono hle) (hagreed instrument h) hpoint) i x hx hx'

theorem length_verdicts (points : List (ℤ × RawMarketDataPoint N)) :
    ∀ s : FeedStore N, (guard.verdicts s points).length = points.length := by
  induction points with
  | nil => exact fun _ => rfl
  | cons point points ih => exact fun s => congrArg Nat.succ (ih _)

theorem verdicts_eq {points : List (ℤ × RawMarketDataPoint N)} (hclock : (now :: points.map Prod.fst).Pairwise (· ≤ ·))
    (hplain : ∀ x ∈ points, PlainName x.2.instrument)
    (hagree : ∀ instrument, PlainName instrument → Agree instrument now s s') :
    guard.verdicts s points = guard.verdicts s' points := by
  apply List.ext_getElem?
  intro i
  cases hx : points[i]? with
  | some x =>
    exact verdicts_congr PlainName (fun _ h => h) points hclock hplain hagree i x hx (hplain x (List.mem_of_getElem? hx))
  | none =>
    have hlength := List.getElem?_eq_none_iff.mp hx
    rw [List.getElem?_eq_none (by rwa [length_verdicts]), List.getElem?_eq_none (by rwa [length_verdicts])]

/-! ## Points that are quarantined at once -/

theorem validate_quarantined (guard : MarketDataGuard N) (now : ℤ) (s : FeedStore N) (p : RawMarketDataPoint N)
    (entries : List (QuarantineEntry N)) :
    (guard.validate now { s with quarantined := entries } p).2 = (guard.validate now s p).2 ∧
      ∃ entries', (guard.validate now { s with quarantined := entries } p).1 =
        { (guard.validate now s p).1 with quarantined := entries' } := by
  have hanomaly : ∀ t : FeedStore N, (guard.filterAnomaly now { t with quarantined := entries } p).2 =
        (guard.filterAnomaly now t p).2 ∧ ∃ entries', (guard.filterAnomaly now { t with quarantined := entries } p).1 =
          { (guard.filterAnomaly now t p).1 with quarantined := entries' } := by
    intro t
    have hwindow : ({ t with quarantined := entries } : FeedStore N).window p.instrument = t.window p.instrument := rfl
    unfold filterAnomaly
    rw [hwindow]
    dsimp only
    by_cases hanomalous : (anomalyOf guard (t.window p.instrument) p.price).anomalous = true
    · rw [if_pos hanomalous, if_pos hanomalous]
      exact ⟨rfl, _, rfl⟩
    · rw [if_neg hanomalous, if_neg hanomalous]
      exact ⟨rfl, entries, rfl⟩
  have hcheck : ({ s with quarantined := entries } : FeedStore N).checkConsensus guard.config now p.instrument p.price
        p.source = ({ (s.checkConsensus guard.config now p.instrument p.price p.source).1 with quarantined := entries },
          (s.checkConsensus guard.config now p.instrument p.price p.source).2) := rfl
  by_cases hchecked : guard.Checked p
  · cases hconsensus : (s.checkConsensus guard.config now p.instrument p.price p.source).2.consensus with
    | true =>
      rw [validate_agreeing hchecked (by rw [hcheck]; exact hconsensus), validate_agreeing hchecked hconsensus, hcheck]
      exact hanomaly _
    | false =>
      rw [validate_diverging hchecked (by rw [hcheck]; exact hconsensus), validate_diverging hchecked hconsensus,
        hcheck]
      exact ⟨rfl, _, rfl⟩
  · obtain ⟨reason, error, -, heq⟩ := validate_unchecked_eq hchecked
    rw [heq, heq]
    exact ⟨rfl, _, rfl⟩

theorem verdicts_quarantined (points : List (ℤ × RawMarketDataPoint N)) :
    ∀ (s : FeedStore N) (entries : List (QuarantineEntry N)),
      guard.verdicts { s with quarantined := entries } points = guard.verdicts s points := by
  induction points with
  | nil => exact fun _ _ => rfl
  | cons point points ih =>
    intro s entries
    obtain ⟨hverdict, entries', hstore⟩ := validate_quarantined guard point.1 s point.2 entries
    show _ :: guard.verdicts (guard.validate point.1 { s with quarantined := entries } point.2).1 points = _
    rw [hverdict, hstore, ih]
    rfl

/-! ## A point that diverges -/

theorem prices_filterAnomaly (s : FeedStore N) : (guard.filterAnomaly now s p).1.prices = s.prices := by
  unfold filterAnomaly
  dsimp only
  split
  · rfl
  · rfl

theorem fresh_validate {time : ℤ} (h : Fresh now s) (hle : now ≤ time) (p : RawMarketDataPoint N) :
    Fresh time (guard.validate time s p).1 := by
  have hprices : (guard.validate time s p).1.prices = s.prices ∨ (guard.validate time s p).1.prices =
      s.prices.setex time priceTtl (sourceKey p.instrument p.source) p.price := by
    by_cases hchecked : guard.Checked p
    · cases hresult : (s.checkConsensus guard.config time p.instrument p.price p.source).2.consensus with
      | true =>
        rw [validate_agreeing hchecked hresult, prices_filterAnomaly]
        exact .inr rfl
      | false =>
        rw [validate_diverging hchecked hresult]
        exact .inr rfl
    · obtain ⟨reason, error, -, heq⟩ := validate_unchecked_eq hchecked
      rw [heq]
      exact .inl rfl
  have hlater : Fresh time s := by
    intro key entry hentry
    have hold := h key entry hentry
    omega
  obtain heq | heq := hprices
  · intro key entry hentry
    rw [heq] at hentry
    exact hlater key entry hentry
  · unfold Fresh
    rw [heq, ExpiringStore.setex]
    exact KeyValue.forall_get_set hlater (Int.le_refl _)

theorem fresh_storeAfter_of_fresh (points : List (ℤ × RawMarketDataPoint N)) : ∀ {now : ℤ} {s : FeedStore N}, Fresh now s →
    ∀ {time : ℤ}, (now :: (points.map Prod.fst ++ [time])).Pairwise (· ≤ ·) →
      Fresh time (guard.storeAfter s points) := by
  induction points with
  | nil =>
    intro now s h time hclock key entry hentry
    have hle : now ≤ time := (List.pairwise_cons.mp hclock).1 time (List.mem_singleton.mpr rfl)
    have hold := h key entry hentry
    omega
  | cons point points ih =>
    intro now s h time hclock
    have hle : now ≤ point.1 := (List.pairwise_cons.mp hclock).1 point.1 List.mem_cons_self
    exact ih (fresh_validate h hle point.2) (List.pairwise_cons.mp hclock).2

theorem fresh_storeAfter (points : List (ℤ × RawMarketDataPoint N)) (h : (points.map Prod.fst ++ [now]).Pairwise (· ≤ ·)) :
    Fresh now (guard.storeAfter {} points) := by
  have hempty : ∀ time, Fresh time ({} : FeedStore N) := fun time key entry hentry => by cases hentry
  cases points with
  | nil => exact hempty now
  | cons point points =>
    refine fresh_storeAfter_of_fresh (point :: points) (hempty point.1) (List.pairwise_cons.mpr ⟨fun time htime => ?_, h⟩)
    obtain rfl | hmem := List.mem_cons.mp htime
    · exact Int.le_refl _
    · exact (List.pairwise_cons.mp h).1 time hmem

/-- The next point of the feed takes the place of the price that is too much, and after thirty seconds it is gone
anyway. -/
theorem validate_next {q : RawMarketDataPoint N} {seen time : ℤ} (h : Shadowed p seen now s s') (hle : now ≤ time)
    (hchecked : guard.Checked q) (hinstrument : q.instrument = p.instrument)
    (hover : q.source = p.source ∨ seen + priceTtl ≤ time) :
    (guard.validate time s q).2 = (guard.validate time s' q).2 ∧
      Agree p.instrument time (guard.validate time s q).1 (guard.validate time s' q).1 := by
  rw [← hinstrument]
  refine validate_congr_of_recorded hchecked (fun later hlater => ?_) (by rw [hinstrument, h.window])
  rw [liveSources_record_self, liveSources_record_self, hinstrument, h.live later (Int.le_trans hle hlater)]
  obtain hsource | hseen := hover
  · rw [hsource, del_shadow]
  · have hgone : ¬ later < seen + priceTtl := by omega
    rw [h.expired later (Int.le_trans hle hlater) (Int.le_trans hseen hlater), if_neg hgone]
    rfl

theorem shadowed_verdicts {seen : ℤ} (points : List (ℤ × RawMarketDataPoint N)) : ∀ {now : ℤ} {s s' : FeedStore N},
    Shadowed p seen now s s' → PlainName p.instrument →
    (∀ instrument, PlainName instrument → instrument ≠ p.instrument → Agree instrument now s s') →
    (now :: points.map Prod.fst).Pairwise (· ≤ ·) → (∀ x ∈ points, PlainName x.2.instrument) →
    (∀ x ∈ points.find? fun x => x.2.instrument = p.instrument ∧ guard.Checked x.2,
      x.2.source = p.source ∨ seen + priceTtl ≤ x.1) →
    guard.verdicts s points = guard.verdicts s' points := by
  induction points with
  | nil => intros; rfl
  | cons point points ih =>
    intro now s s' hshadow hname hothers hclock hplain hnext
    obtain ⟨time, q⟩ := point
    have hle : now ≤ time := (List.pairwise_cons.mp hclock).1 time List.mem_cons_self
    have hpoint : PlainName q.instrument := hplain _ List.mem_cons_self
    have hclock' := (List.pairwise_cons.mp hclock).2
    have hplain' : ∀ x ∈ points, PlainName x.2.instrument := fun x hx => hplain x (List.mem_cons_of_mem _ hx)
    have hothers' : ∀ instrument, PlainName instrument → instrument ≠ p.instrument →
        Agree instrument time (guard.validate time s q).1 (guard.validate time s' q).1 :=
      fun instrument h hne => agree_step ((hothers instrument h hne).mono hle) h hpoint
    suffices hstep : (guard.validate time s q).2 = (guard.validate time s' q).2 ∧
        guard.verdicts (guard.validate time s q).1 points = guard.verdicts (guard.validate time s' q).1 points from
      congrArg₂ List.cons hstep.1 hstep.2
    by_cases hfirst : q.instrument = p.instrument ∧ guard.Checked q
    · have hover := hnext (time, q) (List.find?_cons_of_pos (by simpa using hfirst))
      obtain ⟨hverdict, hagree⟩ := validate_next hshadow hle hfirst.2 hfirst.1 hover
      refine ⟨hverdict, verdicts_eq hclock' hplain' fun instrument h => ?_⟩
      by_cases hsame : instrument = p.instrument
      · rw [hsame]
        exact hagree
      · exact hothers' instrument h hsame
    · have hnext' : ∀ x ∈ points.find? fun x => x.2.instrument = p.instrument ∧ guard.Checked x.2,
          x.2.source = p.source ∨ seen + priceTtl ≤ x.1 := by
        rw [List.find?_cons_of_neg (by simpa using hfirst)] at hnext
        exact hnext
      by_cases hchecked : guard.Checked q
      · have hne : q.instrument ≠ p.instrument := fun heq => hfirst ⟨heq, hchecked⟩
        refine ⟨(validate_congr ((hothers q.instrument hpoint hne).mono hle)).1, ?_⟩
        exact ih (hshadow.congr hle (validate_other hne.symm hname hpoint time s)
          (validate_other hne.symm hname hpoint time s')) hname hothers' hclock' hplain' hnext'
      · refine ⟨verdict_unchecked hchecked time s s', ?_⟩
        exact ih (hshadow.congr hle (validate_unchecked hchecked time s _) (validate_unchecked hchecked time s' _))
          hname hothers' hclock' hplain' hnext'

/-- A point whose price diverges has been recorded, and has not entered the window. -/
theorem validate_diverged {divergence : N} (h : (guard.validate now s p).2 = .error (.consensusDiverged divergence)) :
    ∃ entries, (guard.validate now s p).1 =
      { (s.record now p.instrument p.price p.source).dropExpired now p.instrument with quarantined := entries } := by
  by_cases hchecked : guard.Checked p
  · cases hresult : (s.checkConsensus guard.config now p.instrument p.price p.source).2.consensus with
    | true =>
      rw [validate_agreeing hchecked hresult] at h
      unfold filterAnomaly at h
      dsimp only at h
      split at h
      · cases h
      · cases h
    | false =>
      rw [validate_diverging hchecked hresult]
      exact ⟨_, rfl⟩
  · obtain ⟨reason, error, hne, heq⟩ := validate_unchecked_eq hchecked
    rw [heq] at h
    exact absurd (Except.error.inj h) (hne divergence)

theorem shadowed_of_diverged {divergence : N} (hfresh : Fresh now s)
    (h : (guard.validate now s p).2 = .error (.consensusDiverged divergence)) :
    Shadowed p now now (guard.validate now s p).1 s := by
  obtain ⟨entries, heq⟩ := validate_diverged h
  rw [heq]
  refine ⟨rfl, fun later hlater => ?_, fun later _ hexpired => hfresh.liveSources_eq_nil hexpired⟩
  exact (liveSources_dropExpired _ hlater _).trans (liveSources_record_self s)

theorem storeAfter_snoc (points : List (ℤ × RawMarketDataPoint N)) : ∀ (s : FeedStore N) (now : ℤ)
    (p : RawMarketDataPoint N), guard.storeAfter s (points ++ [(now, p)]) =
      (guard.validate now (guard.storeAfter s points) p).1 := by
  induction points with
  | nil => exact fun _ _ _ => rfl
  | cons point points ih => exact fun s now p => ih _ now p

end
end MarketDataGuard
end

/-! ## A bad price that keeps a good one out -/

def point (source : String) (price : ℚ) : RawMarketDataPoint ℚ where
  instrument := "BTC-USDT"
  price := price
  volume := 1
  timestamp := "2024-01-01T00:00:00Z"
  source := source

/-- The default limits, and `Math.sqrt` on squares. -/
def plainGuard : MarketDataGuard ℚ where
  config := ⟨3 / 2, 3, 100, []⟩
  sqrt x := Nat.sqrt x.num.toNat / Nat.sqrt x.den
  ed25519 _ _ _ := false
  isDatetime text := text == "2024-01-01T00:00:00Z"

end SuperAi.MarketData
