import Mathlib.Algebra.Order.Floor.Ring
import Mathlib.Data.Rat.Floor
import SuperAi.Foundations.BandedStep

/-! # The early-safe playbook

`earlySafe` and `Builder.finalize` (`token-analysis/playbooks.ts`), in exact arithmetic. How a number is printed is a
parameter, and the other three playbooks that `runPlaybooks` returns are left out: they are computed apart.
-/
namespace SuperAi.TokenAnalysis
open SuperAi.Foundations
set_option autoImplicit false

/-- `String(x)` and `x.toFixed(digits)`. -/
structure NumberFormat where
  text : ℚ → String
  toFixed : ℚ → ℕ → String

/-! ## What is known of a token -/

structure TokenMeta where
  marketCapUsd : Option ℚ := none
  liquidityUsd : Option ℚ := none
  pairAgeHours : Option ℚ := none

/-- `'yes' | 'no' | 'unknown'` -/
inductive Known
  | yes
  | no
  | unknown
  deriving DecidableEq, Repr

structure SafetySignals where
  honeypot : Option Known := none
  /-- Taxes in basis points. -/
  buyTax : Option ℚ := none
  sellTax : Option ℚ := none
  mintAuthority : Option Bool := none
  freezeAuthority : Option Bool := none
  lpLocked : Option Known := none
  topHoldersPct : Option ℚ := none
  rugScore : Option ℚ := none
  flags : List String := []

/-! ## Signals -/

inductive SignalWeight
  | critical
  | positive
  | negative
  | info
  deriving DecidableEq, Repr

structure PlaybookSignal where
  label : String
  weight : SignalWeight
  delta : Option ℚ := none
  detail : Option String := none

structure AppliedDelta where
  label : String
  delta : ℚ
  weight : SignalWeight

inductive Verdict
  | strong_yes
  | yes
  | neutral
  | no
  | strong_no
  | insufficient_data
  deriving DecidableEq, Repr

structure PlaybookBreakdown where
  baseline : ℚ
  appliedDeltas : List AppliedDelta
  raw : ℚ
  clamped : ℚ
  evidenceTotal : ℚ
  evidenceThreshold : ℚ

structure TradePlan where
  sizeHint : String
  entry : String
  stop : String
  targets : List String
  notes : String

structure Playbook where
  key : String
  label : String
  description : String
  score : Option ℚ
  verdict : Verdict
  signals : List PlaybookSignal
  breakdown : PlaybookBreakdown
  plan : Option TradePlan

/-! ## The builder -/

def BASELINE : ℚ := 5

/-- `Math.round` -/
def mathRound (x : ℚ) : ℤ := ⌊x + 1 / 2⌋

def round1 (v : ℚ) : ℚ := mathRound (v * 10) / 10

def toVerdict (score : ℚ) : Verdict :=
  if 8 ≤ score then .strong_yes
  else if 65 / 10 ≤ score then .yes
  else if 4 ≤ score then .neutral
  else if 2 ≤ score then .no
  else .strong_no

def push (label : String) (weight : SignalWeight) (delta : ℚ) (detail : Option String := none) :
    List PlaybookSignal := [⟨label, weight, some delta, detail⟩]

def info (label : String) : List PlaybookSignal := [⟨label, .info, none, none⟩]

/-- The signals with a delta other than zero. -/
def applied (signals : List PlaybookSignal) : List AppliedDelta :=
  (signals.filter fun s => s.delta.any (· ≠ 0)).map fun s => ⟨s.label, s.delta.getD 0, s.weight⟩

def deltaSum (signals : List PlaybookSignal) : ℚ := ((applied signals).map AppliedDelta.delta).sum

def evidenceTotal (signals : List PlaybookSignal) : ℚ := ((applied signals).map fun a => |a.delta|).sum

/-- What `finalize` returns, with the signals that it leaves in the builder. -/
structure Finalized where
  signals : List PlaybookSignal
  score : Option ℚ
  verdict : Verdict
  breakdown : PlaybookBreakdown

def finalize (fmt : NumberFormat) (signals : List PlaybookSignal) (threshold : ℚ) : Finalized :=
  let raw := BASELINE + deltaSum signals
  let clamped := clamp raw 0 10
  let breakdown : PlaybookBreakdown :=
    { baseline := BASELINE
      appliedDeltas := applied signals
      raw
      clamped := round1 clamped
      evidenceTotal := round1 (evidenceTotal signals)
      evidenceThreshold := threshold }
  if evidenceTotal signals < threshold then
    let detail := "Total evidence " ++ fmt.toFixed (evidenceTotal signals) 1 ++ " < threshold " ++ fmt.text threshold ++
      ". Add more data sources (holder counts, volume, safety) before relying on this playbook."
    { signals := signals ++ [⟨"Insufficient evidence to commit", .info, none, some detail⟩]
      score := none
      verdict := .insufficient_data
      breakdown }
  else { signals, score := some (round1 clamped), verdict := toVerdict clamped, breakdown }

/-! ## Early and safe -/

section EarlySafe
variable (fmt : NumberFormat)

def fmtUsd (n : ℚ) : String :=
  if 1000000000 ≤ n then fmt.toFixed (n / 1000000000) 2 ++ "B"
  else if 1000000 ≤ n then fmt.toFixed (n / 1000000) 2 ++ "M"
  else if 1000 ≤ n then fmt.toFixed (n / 1000) 1 ++ "K"
  else fmt.toFixed n 0

def bpsToPct : Option ℚ → String
  | none => "?"
  | some bps => fmt.toFixed (bps / 100) 1 ++ "%"

def honeypotSignals : Option Known → List PlaybookSignal
  | some .yes => push "Honeypot detected" .critical (-10) "Sell simulation failed — token cannot be sold"
  | some .no => push "Honeypot check passed" .positive (6 / 10)
  | _ => []

def mintSignals : Option Bool → List PlaybookSignal
  | some true => push "Mint authority enabled" .critical (-3) "Dev can mint unlimited supply"
  | some false => push "Mint authority renounced" .positive (8 / 10)
  | none => []

def freezeSignals : Option Bool → List PlaybookSignal
  | some true => push "Freeze authority enabled" .negative (-15 / 10)
  | some false => push "Freeze authority renounced" .positive (5 / 10)
  | none => []

def taxSignals (buyTax sellTax : Option ℚ) : List PlaybookSignal :=
  if 500 < buyTax.getD 0 ∨ 500 < sellTax.getD 0 then
    push ("High taxes (buy " ++ bpsToPct fmt buyTax ++ "/sell " ++ bpsToPct fmt sellTax ++ ")") .critical (-2)
  else if buyTax.isSome ∧ sellTax.isSome ∧ buyTax.getD 0 + sellTax.getD 0 = 0 then
    push "Zero buy/sell tax" .positive (6 / 10)
  else []

def rugSignals : Option ℚ → List PlaybookSignal
  | none => []
  | some rugScore =>
    if 60 ≤ rugScore then push ("High rug score " ++ fmt.text rugScore ++ "/100") .critical (-3)
    else if 30 ≤ rugScore then push ("Elevated rug score " ++ fmt.text rugScore ++ "/100") .negative (-1)
    else push ("Low rug score " ++ fmt.text rugScore ++ "/100") .positive 1

def capSignals : Option ℚ → List PlaybookSignal
  | none => []
  | some mc =>
    if mc < 2000000 then push ("Small cap $" ++ fmtUsd fmt mc) .positive 2 "Room for multi-x upside"
    else if mc < 20000000 then info ("Mid-small cap $" ++ fmtUsd fmt mc)
    else push ("Cap too large for early-safe ($" ++ fmtUsd fmt mc ++ ")") .negative (-15 / 10)

def lpSignals : Option Known → List PlaybookSignal
  | some .yes => push "LP locked" .positive (12 / 10)
  | some .no => push "LP not locked" .critical (-25 / 10)
  | _ => []

def liquiditySignals : Option ℚ → List PlaybookSignal
  | none => []
  | some liquidityUsd =>
    if 50000 ≤ liquidityUsd then push ("Liquidity $" ++ fmtUsd fmt liquidityUsd) .positive (6 / 10)
    else if liquidityUsd < 20000 then push ("Thin liquidity $" ++ fmtUsd fmt liquidityUsd) .negative (-1)
    else []

def ageSignals : Option ℚ → List PlaybookSignal
  | none => []
  | some pairAgeHours =>
    if pairAgeHours < 48 then
      push ("Pair age " ++ fmt.text (mathRound pairAgeHours) ++ "h") .positive (8 / 10)
        "Still early in launch window"
    else if 24 * 14 < pairAgeHours then
      push ("Pair is " ++ fmt.text (mathRound (pairAgeHours / 24)) ++ "d old") .negative (-5 / 10)
    else []

def holderSignals : Option ℚ → List PlaybookSignal
  | none => []
  | some topHoldersPct =>
    if topHoldersPct < 25 then push ("Top-10 holders " ++ fmt.toFixed topHoldersPct 1 ++ "%") .positive (8 / 10)
    else if 60 < topHoldersPct then push ("Top-10 holders " ++ fmt.toFixed topHoldersPct 1 ++ "%") .critical (-2)
    else []

def flagSignals (flags : List String) : List PlaybookSignal := flags.flatMap fun f => push f .negative (-4 / 10)

/-- What `earlySafe` has pushed before it calls `finalize`. -/
def earlySafeSignals (tokenMeta : TokenMeta) (safety : SafetySignals) : List PlaybookSignal :=
  honeypotSignals safety.honeypot ++ (mintSignals safety.mintAuthority ++ (freezeSignals safety.freezeAuthority ++
    (taxSignals fmt safety.buyTax safety.sellTax ++ (rugSignals fmt safety.rugScore ++
    (capSignals fmt tokenMeta.marketCapUsd ++ (lpSignals safety.lpLocked ++
    (liquiditySignals fmt tokenMeta.liquidityUsd ++ (ageSignals fmt tokenMeta.pairAgeHours ++
    (holderSignals fmt safety.topHoldersPct ++ flagSignals safety.flags)))))))))

def earlySafe (tokenMeta : TokenMeta) (safety : SafetySignals) : Playbook :=
  let r := finalize fmt (earlySafeSignals fmt tokenMeta safety) 2
  { key := "early_safe"
    label := "Early + Safe Sniping"
    description := "First-in, small cap, verified safe. Size conservatively; plan tranched exits at 2×/5×/10×."
    score := r.score
    verdict := r.verdict
    signals := r.signals
    breakdown := r.breakdown
    plan := r.score.map fun _ =>
      { sizeHint := "0.25–1% of portfolio"
        entry := "Market buy now, or set a limit -10% from spot if momentum cools"
        stop := "-25% from entry or if LP-lock expires / large wallet unloads"
        targets := ["+100% (sell 33%)", "+400% (sell 33%)", "+900% (sell final 33%)"]
        notes := "This is a speculative snipe. Only risk what you can fully lose." } }

end EarlySafe

end SuperAi.TokenAnalysis
