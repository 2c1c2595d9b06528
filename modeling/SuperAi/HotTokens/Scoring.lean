import Mathlib.Algebra.Order.Field.Rat
import Mathlib.Algebra.Order.Group.MinMax
import Mathlib.Tactic.Linarith
import Mathlib.Tactic.SplitIfs
import SuperAi.TokenAnalysis.Playbooks

/-! # The hot-token score

`computeHotTokenScore` (`hot-tokens/scoring.ts`), in exact arithmetic: rules add to the score or subtract from it, and
dampeners scale what was added. The breakdown that is shown with a token is enough to compute its score again
(`score_rescored`), more momentum and more attention never lower the score (`score_mono`), and a token on a paper tape
is never a strong buy (`score_paper_tape`).
-/
namespace SuperAi.HotTokens
open SuperAi.TokenAnalysis (NumberFormat)
set_option autoImplicit false

inductive HotTokenSource
  | pumpfun
  | dexscreener_boost
  | dexscreener_profile
  | geckoterminal_new
  | geckoterminal_trending
  deriving DecidableEq, Repr

inductive HotTokenVerdict
  | STRONG_BUY
  | BUY
  | CAUTIOUS
  | SKIP
  | HIGH_RISK
  deriving DecidableEq, Repr

inductive TradingProfile
  | meme_hunter
  | degen_sniper
  | swing_trader
  | gem_hunt
  | alpha_hunt
  deriving DecidableEq, Repr

structure ScoringInput where
  priceChange1h : ℚ
  priceChange5m : ℚ
  volume24hUsd : ℚ
  liquidityUsd : ℚ
  marketCapUsd : ℚ
  pairAgeHours : ℚ
  source : HotTokenSource
  buys1h : Option ℚ := none
  sells1h : Option ℚ := none
  volume1hUsd : Option ℚ := none
  bondingCurvePct : Option ℚ := none
  graduated : Bool := false
  isLive : Bool := false
  replyCount : Option ℚ := none
  athMarketCapUsd : Option ℚ := none
  twitterAlignedMatches : Option ℚ := none
  twitterUniqueAuthors : Option ℚ := none
  twitterCallerFollowerLog : Option ℚ := none
  twitterProjectActive : Bool := false

inductive ScoreSignalCategory
  | price
  | volume
  | liquidity
  | age
  | tape
  | bonding
  | community
  | twitter
  | dampener
  deriving DecidableEq, Repr

inductive SignalKind
  | add
  | sub
  | damp
  deriving DecidableEq, Repr

structure ScoreSignal where
  category : ScoreSignalCategory
  label : String
  delta : ℚ
  kind : SignalKind

structure ScoringResult where
  score : ℚ
  verdict : HotTokenVerdict
  summary : String
  breakdown : Option (List ScoreSignal)

/-! ## The accumulators -/

/-- A call of the closure `add` or `sub`. -/
inductive Call
  | add (n : ℚ) (tag : String) (cat : ScoreSignalCategory)
  | sub (n : ℚ) (tag : String) (cat : ScoreSignalCategory)

/-- The variables the closures write to. -/
structure Acc where
  posDelta : ℚ := 0
  negDelta : ℚ := 0
  pos : List String := []
  neg : List String := []
  breakdown : List ScoreSignal := []
  dampener : ℚ := 1

def pushTag (tags : List String) (tag : String) : List String := if tag = "" then tags else tags ++ [tag]

section
variable (want : Bool)

def Acc.call (acc : Acc) : Call → Acc
  | .add n tag cat =>
    { acc with
      posDelta := acc.posDelta + n
      pos := pushTag acc.pos tag
      breakdown := if want then acc.breakdown ++ [⟨cat, tag, n, .add⟩] else acc.breakdown }
  | .sub n tag cat =>
    { acc with
      negDelta := acc.negDelta - n
      neg := pushTag acc.neg tag
      breakdown := if want then acc.breakdown ++ [⟨cat, tag, -n, .sub⟩] else acc.breakdown }

/-- A dampener that applies: the label of its signal, what is shown in the summary, and its factor. -/
structure Dampener where
  label : String
  tag : String
  factor : ℚ

/-- `dampener = Math.min(dampener, damp(label, factor)); neg.push(tag)` -/
def Acc.damp (acc : Acc) (d : Dampener) : Acc :=
  { acc with
    dampener := min acc.dampener d.factor
    neg := acc.neg ++ [d.tag]
    breakdown := if want then acc.breakdown ++ [⟨.dampener, d.label, 0, .damp⟩] else acc.breakdown }

end

/-! ## The rules -/

namespace ScoringInput
variable (d : ScoringInput)

def volLiq : ℚ := if 0 < d.liquidityUsd then d.volume24hUsd / d.liquidityUsd else 0

def txCount : ℚ := d.buys1h.getD 0 + d.sells1h.getD 0

def hasTape : Bool := d.buys1h.isSome && d.sells1h.isSome && decide (0 < d.txCount)

def avgTradeUsd : ℚ := if d.hasTape then d.volume1hUsd.getD 0 / d.txCount else 0

def buyRatio : ℚ := if d.hasTape then d.buys1h.getD 0 / d.txCount else 0

end ScoringInput

section Rules
variable (fmt : NumberFormat) (d : ScoringInput)

def hourCalls : List Call :=
  let up := "+" ++ fmt.toFixed d.priceChange1h 0 ++ "% 1h"
  let down := fmt.toFixed d.priceChange1h 0 ++ "% 1h"
  if d.priceChange1h > 100 then [.add 22 up .price]
  else if d.priceChange1h > 50 then [.add 15 up .price]
  else if d.priceChange1h > 20 then [.add 9 up .price]
  else if d.priceChange1h > 5 then [.add 3 up .price]
  else if d.priceChange1h < -30 then [.sub 12 down .price]
  else if d.priceChange1h < -15 then [.sub 6 down .price]
  else []

def fiveMinuteCalls : List Call :=
  let up := "+" ++ fmt.toFixed d.priceChange5m 0 ++ "% 5m"
  if d.priceChange5m > 15 then [.add 10 up .price]
  else if d.priceChange5m > 5 then [.add 5 up .price]
  else if d.priceChange5m < -10 then [.sub 5 (fmt.toFixed d.priceChange5m 0 ++ "% 5m") .price]
  else []

def volumeCalls : List Call :=
  if d.volLiq > 20 then [.add 14 (fmt.toFixed d.volLiq 0 ++ "x vol/liq") .volume]
  else if d.volLiq > 8 then [.add 8 (fmt.toFixed d.volLiq 0 ++ "x vol/liq") .volume]
  else if d.volLiq > 3 then [.add 4 (fmt.toFixed d.volLiq 1 ++ "x vol/liq") .volume]
  else if d.volLiq < 1 / 2 ∧ d.liquidityUsd > 0 then [.sub 5 "low vol/liq" .volume]
  else []

def liquidityCalls : List Call :=
  let pool := "$" ++ fmt.toFixed (d.liquidityUsd / 1000) 0 ++ "k LP"
  if d.liquidityUsd ≥ 200000 then [.add 7 pool .liquidity]
  else if d.liquidityUsd ≥ 50000 then [.add 3 pool .liquidity]
  else if 0 < d.liquidityUsd ∧ d.liquidityUsd < 5000 then [.sub 8 "thin liq" .liquidity]
  else []

/-- The age of the pair, as the profile sees it. -/
def ageCalls : TradingProfile → List Call
  | .meme_hunter | .degen_sniper =>
    (if d.pairAgeHours < 1 then [.add 14 (fmt.toFixed (d.pairAgeHours * 60) 0 ++ "m old") .age]
      else if d.pairAgeHours < 4 then [.add 9 (fmt.toFixed d.pairAgeHours 1 ++ "h old") .age]
      else if d.pairAgeHours < 12 then [.add 4 (fmt.toFixed d.pairAgeHours 0 ++ "h old") .age]
      else if d.pairAgeHours > 72 then [.sub 8 "aged out" .age]
      else []) ++
    if d.source = .pumpfun then [.add 5 "pump.fun launch" .age] else []
  | .swing_trader =>
    if d.pairAgeHours ≥ 6 ∧ d.pairAgeHours ≤ 168 then [.add 5 "mature pair" .age]
    else if d.pairAgeHours < 6 then [.sub 5 "too new" .age]
    else []
  | .gem_hunt =>
    if d.pairAgeHours ≥ 72 then [.add 10 ">3 day pair" .age] else [.sub 12 "too new" .age]
  | .alpha_hunt => []

def buyRatioCalls : List Call :=
  let tag := fmt.toFixed (d.buyRatio * 100) 0 ++ "% buys"
  if d.hasTape then
    if d.buyRatio > 65 / 100 then [.add 7 tag .tape]
    else if d.buyRatio > 55 / 100 then [.add 3 tag .tape]
    else if d.buyRatio < 40 / 100 then [.sub 8 tag .tape]
    else if d.buyRatio < 45 / 100 then [.sub 3 tag .tape]
    else []
  else []

def tradeSizeCalls : List Call :=
  let tag := "$" ++ fmt.toFixed d.avgTradeUsd 0 ++ " avg buy"
  if d.hasTape ∧ d.marketCapUsd ≥ 200000 ∧ d.avgTradeUsd > 0 then
    if d.avgTradeUsd > 500 then [.add 6 tag .tape]
    else if d.avgTradeUsd > 150 then [.add 3 tag .tape]
    else if d.avgTradeUsd < 15 then [.sub 10 "pure dust" .tape]
    else if d.avgTradeUsd < 40 then [.sub 5 "dust trades" .tape]
    else []
  else []

def activityCalls : List Call :=
  if d.hasTape then
    if d.txCount > 200 then [.add 4 (fmt.text d.txCount ++ " tx active") .tape]
    else if d.txCount > 80 then [.add 2 (fmt.text d.txCount ++ " tx") .tape]
    else if d.pairAgeHours > 1 ∧ d.txCount < 8 then [.sub 10 "dead tape" .tape]
    else []
  else []

/-- The volume of the hour next to the market cap: four tests, one after the other. -/
def turnoverCalls : List Call :=
  match d.volume1hUsd with
  | none => []
  | some volume1hUsd =>
    if d.marketCapUsd > 0 then
      let volMc1h := volume1hUsd / d.marketCapUsd
      (if volMc1h > 5 / 100 then [.add 3 ("vol/MC " ++ fmt.toFixed (volMc1h * 100) 0 ++ "%") .tape] else []) ++
      (if volMc1h > 20 / 100 then [.add 2 "hot tape" .tape] else []) ++
      (if volMc1h > 3 then [.sub 4 "fomo peak" .tape] else []) ++
      (if d.marketCapUsd > 500000 ∧ volMc1h < 2 / 1000 then [.sub 6 "illiquid for size" .tape] else [])
    else []

def bondingCalls : List Call :=
  match d.bondingCurvePct, d.graduated with
  | some pct, false =>
    if pct < 30 then [.sub 10 "dead curve" .bonding]
    else if pct < 70 then [.add 5 ("curve " ++ fmt.toFixed pct 0 ++ "%") .bonding]
    else if pct < 95 then [.add 8 ("curve " ++ fmt.toFixed pct 0 ++ "%") .bonding]
    else []
  | _, true => [.add 3 "graduated" .bonding]
  | none, false => []

def replyCalls : List Call :=
  d.replyCount.elim [] fun replyCount =>
    if replyCount > 500 then [.add 8 ("🔥 " ++ fmt.text replyCount ++ " replies") .community]
    else if replyCount > 100 then [.add 5 (fmt.text replyCount ++ " replies") .community]
    else if replyCount > 30 then [.add 3 (fmt.text replyCount ++ " replies") .community]
    else []

def liveCalls : List Call := if d.isLive then [.add 5 "creator LIVE" .community] else []

def mentionCalls : List Call :=
  d.twitterAlignedMatches.elim [] fun n =>
    if n ≥ 50 then [.add 10 ("🐦 " ++ fmt.text n ++ "+ posts") .twitter]
    else if n ≥ 20 then [.add 6 ("🐦 " ++ fmt.text n ++ " posts") .twitter]
    else if n ≥ 8 then [.add 3 ("🐦 " ++ fmt.text n ++ " posts") .twitter]
    else []

def callerCalls : List Call :=
  d.twitterCallerFollowerLog.elim [] fun n =>
    if n ≥ 25 then [.add 6 "KOL backed" .twitter] else if n ≥ 12 then [.add 3 "mid-tier callers" .twitter] else []

def authorCalls : List Call :=
  d.twitterUniqueAuthors.elim [] fun n => if n ≥ 15 then [.add 3 (fmt.text n ++ " unique authors") .twitter] else []

def teamCalls : List Call := if d.twitterProjectActive then [.add 3 "team active" .twitter] else []

/-- The rules in their order, each with the calls it makes. -/
def rules (profileKey : TradingProfile) : List (List Call) :=
  [hourCalls fmt d, fiveMinuteCalls fmt d, volumeCalls fmt d, liquidityCalls fmt d, ageCalls fmt d profileKey,
    buyRatioCalls fmt d, tradeSizeCalls fmt d, activityCalls fmt d, turnoverCalls fmt d, bondingCalls fmt d,
    replyCalls fmt d, liveCalls d, mentionCalls fmt d, callerCalls d, authorCalls fmt d, teamCalls d]

def calls (profileKey : TradingProfile) : List Call := (rules fmt d profileKey).flatten

/-! ## Dampeners -/

def paperTape : Dampener := ⟨"paper tape (×0.3)", "paper tape", 3 / 10⟩

def thinTape : Dampener := ⟨"thin tape (×0.5)", "thin tape", 5 / 10⟩

def maybeWash : Dampener := ⟨"maybe wash (×0.7)", "maybe wash", 7 / 10⟩

def deadBag : Dampener := ⟨"post-ATH dead-bag (×0.7)", "post-ATH", 7 / 10⟩

def OnPaperTape : Prop :=
  d.hasTape = true ∧ d.volume1hUsd.isSome = true ∧ d.marketCapUsd ≥ 1000000 ∧ d.avgTradeUsd > 0 ∧ d.avgTradeUsd < 50 ∧
    d.txCount < 30

def OnThinTape : Prop :=
  d.hasTape = true ∧ d.volume1hUsd.isSome = true ∧ d.marketCapUsd ≥ 500000 ∧ d.avgTradeUsd > 0 ∧ d.avgTradeUsd < 80 ∧
    d.txCount < 50

instance : Decidable (OnPaperTape d) := inferInstanceAs (Decidable (_ ∧ _))

instance : Decidable (OnThinTape d) := inferInstanceAs (Decidable (_ ∧ _))

def dampeners : List Dampener :=
  (if OnPaperTape d then [paperTape] else if OnThinTape d then [thinTape] else []) ++
  (if d.hasTape ∧ d.marketCapUsd > 0 ∧ d.volume24hUsd / d.marketCapUsd > 1 ∧ d.txCount < 20 then [maybeWash] else []) ++
  match d.athMarketCapUsd with
  | none => []
  | some ath =>
    if ath > 0 ∧ d.marketCapUsd > 0 ∧ d.pairAgeHours > 4 ∧ d.marketCapUsd < ath * (3 / 10) then [deadBag] else []

/-! ## The score -/

def BASE : ℚ := 35

def verdictOf (final : ℚ) : HotTokenVerdict :=
  if final ≥ 78 then .STRONG_BUY
  else if final ≥ 62 then .BUY
  else if final ≥ 46 then .CAUTIOUS
  else if final ≥ 28 then .SKIP
  else .HIGH_RISK

def summaryOf (pos neg : List String) : String :=
  let text := " · ".intercalate (pos.take 2 ++ neg.take 1)
  if text = "" then "on watch" else text

/-- The accumulators at the end. -/
def accumulated (profileKey : TradingProfile) (want : Bool) : Acc :=
  (dampeners d).foldl (Acc.damp want) ((calls fmt d profileKey).foldl (Acc.call want) {})

def Acc.final (acc : Acc) : ℚ :=
  let adjustedPos := acc.posDelta * acc.dampener
  let raw := BASE + adjustedPos + acc.negDelta
  max 0 (min 100 raw)

def computeHotTokenScore (profileKey : TradingProfile) (withBreakdown : Bool) : ScoringResult :=
  let acc := accumulated fmt d profileKey withBreakdown
  ⟨acc.final, verdictOf acc.final, summaryOf acc.pos acc.neg, if withBreakdown then some acc.breakdown else none⟩

end Rules

/-! ## What the calls add up to -/

namespace Call

def amount : Call → ℚ
  | .add n _ _ => n
  | .sub n _ _ => n

def signal : Call → ScoreSignal
  | .add n tag cat => ⟨cat, tag, n, .add⟩
  | .sub n tag cat => ⟨cat, tag, -n, .sub⟩

def gain : Call → ℚ
  | .add n _ _ => n
  | .sub _ _ _ => 0

def loss : Call → ℚ
  | .add _ _ _ => 0
  | .sub n _ _ => n

end Call

def gains (cs : List Call) : ℚ := (cs.map Call.gain).sum

def losses (cs : List Call) : ℚ := (cs.map Call.loss).sum

@[simp] theorem gains_nil : gains [] = 0 := rfl

@[simp] theorem losses_nil : losses [] = 0 := rfl

@[simp] theorem gains_add (n : ℚ) (tag : String) (cat : ScoreSignalCategory) : gains [.add n tag cat] = n := by
  simp [gains, Call.gain]

@[simp] theorem gains_sub (n : ℚ) (tag : String) (cat : ScoreSignalCategory) : gains [.sub n tag cat] = 0 := by
  simp [gains, Call.gain]

@[simp] theorem losses_add (n : ℚ) (tag : String) (cat : ScoreSignalCategory) : losses [.add n tag cat] = 0 := by
  simp [losses, Call.loss]

@[simp] theorem losses_sub (n : ℚ) (tag : String) (cat : ScoreSignalCategory) : losses [.sub n tag cat] = n := by
  simp [losses, Call.loss]

theorem gains_append (cs ds : List Call) : gains (cs ++ ds) = gains cs + gains ds := by
  rw [gains, List.map_append, List.sum_append]
  rfl

theorem losses_append (cs ds : List Call) : losses (cs ++ ds) = losses cs + losses ds := by
  rw [losses, List.map_append, List.sum_append]
  rfl

def Dampener.signal (d : Dampener) : ScoreSignal := ⟨.dampener, d.label, 0, .damp⟩

section Folds
variable (want : Bool)

/-- What the calls leave in the accumulators. -/
theorem foldl_call (cs : List Call) (acc : Acc) :
    (cs.foldl (Acc.call want) acc).posDelta = acc.posDelta + gains cs ∧
      (cs.foldl (Acc.call want) acc).negDelta = acc.negDelta - losses cs ∧
      (cs.foldl (Acc.call want) acc).dampener = acc.dampener ∧
      (cs.foldl (Acc.call want) acc).breakdown =
        if want then acc.breakdown ++ cs.map Call.signal else acc.breakdown := by
  induction cs generalizing acc with
  | nil => simp
  | cons c cs ih =>
    obtain ⟨hpos, hneg, hdamp, hbreak⟩ := ih (acc.call want c)
    rw [List.foldl_cons, hpos, hneg, hdamp, hbreak, gains, losses, gains, losses, List.map_cons, List.map_cons,
      List.sum_cons, List.sum_cons]
    cases c with
    | add n tag cat =>
      refine ⟨add_assoc _ _ _, by simp [Acc.call, Call.loss], rfl, ?_⟩
      by_cases hwant : want = true <;> simp [Acc.call, Call.signal, hwant]
    | sub n tag cat =>
      refine ⟨by simp [Acc.call, Call.gain], by simp [Acc.call, Call.loss, sub_sub], rfl, ?_⟩
      by_cases hwant : want = true <;> simp [Acc.call, Call.signal, hwant]

theorem foldl_damp (ds : List Dampener) (acc : Acc) :
    (ds.foldl (Acc.damp want) acc).posDelta = acc.posDelta ∧
      (ds.foldl (Acc.damp want) acc).negDelta = acc.negDelta ∧
      (ds.foldl (Acc.damp want) acc).dampener = (ds.map Dampener.factor).foldl min acc.dampener ∧
      (ds.foldl (Acc.damp want) acc).breakdown =
        if want then acc.breakdown ++ ds.map Dampener.signal else acc.breakdown := by
  induction ds generalizing acc with
  | nil => simp
  | cons d ds ih =>
    obtain ⟨hpos, hneg, hdamp, hbreak⟩ := ih (acc.damp want d)
    rw [List.foldl_cons, hpos, hneg, hdamp, hbreak]
    refine ⟨rfl, rfl, rfl, ?_⟩
    by_cases hwant : want = true <;> simp [Acc.damp, Dampener.signal, hwant]

/-- The tags do not depend on whether a breakdown is wanted. -/
theorem foldl_call_tags (cs : List Call) {acc acc' : Acc} (h : acc.pos = acc'.pos ∧ acc.neg = acc'.neg) :
    (cs.foldl (Acc.call true) acc).pos = (cs.foldl (Acc.call false) acc').pos ∧
      (cs.foldl (Acc.call true) acc).neg = (cs.foldl (Acc.call false) acc').neg := by
  induction cs generalizing acc acc' with
  | nil => exact h
  | cons c cs ih =>
    refine ih ?_
    cases c with
    | add n tag cat => exact ⟨congrArg (pushTag · tag) h.1, h.2⟩
    | sub n tag cat => exact ⟨h.1, congrArg (pushTag · tag) h.2⟩

theorem foldl_damp_tags (ds : List Dampener) {acc acc' : Acc} (h : acc.pos = acc'.pos ∧ acc.neg = acc'.neg) :
    (ds.foldl (Acc.damp true) acc).pos = (ds.foldl (Acc.damp false) acc').pos ∧
      (ds.foldl (Acc.damp true) acc).neg = (ds.foldl (Acc.damp false) acc').neg := by
  induction ds generalizing acc acc' with
  | nil => exact h
  | cons d ds ih => exact ih ⟨h.1, congrArg (· ++ [d.tag]) h.2⟩

end Folds

section Score
variable (fmt : NumberFormat) (d : ScoringInput) (profileKey : TradingProfile)

def factorOf (ds : List Dampener) : ℚ := (ds.map Dampener.factor).foldl min 1

/-- The score as a number. -/
def scoreOf (gain loss factor : ℚ) : ℚ := max 0 (min 100 (BASE + gain * factor - loss))

theorem final_accumulated (want : Bool) :
    (accumulated fmt d profileKey want).final =
      scoreOf (gains (calls fmt d profileKey)) (losses (calls fmt d profileKey)) (factorOf (dampeners d)) := by
  obtain ⟨hpos, hneg, hdamp, -⟩ := foldl_call want (calls fmt d profileKey) {}
  obtain ⟨hpos', hneg', hdamp', -⟩ := foldl_damp want (dampeners d)
    ((calls fmt d profileKey).foldl (Acc.call want) {})
  rw [Acc.final, accumulated, hpos', hneg', hdamp', hpos, hneg, hdamp, zero_add, zero_sub, ← sub_eq_add_neg]
  rfl

theorem breakdown_accumulated :
    (accumulated fmt d profileKey true).breakdown =
      (calls fmt d profileKey).map Call.signal ++ (dampeners d).map Dampener.signal := by
  obtain ⟨-, -, -, hbreak⟩ := foldl_call true (calls fmt d profileKey) {}
  obtain ⟨-, -, -, hbreak'⟩ := foldl_damp true (dampeners d)
    ((calls fmt d profileKey).foldl (Acc.call true) {})
  rw [accumulated, hbreak', hbreak, if_pos rfl, if_pos rfl, List.nil_append]

end Score

/-! ## The breakdown explains the score -/

/-- Every call is for a positive number of points. -/
def Positive (cs : List Call) : Prop := ∀ c ∈ cs, 0 < c.amount

section Positive
variable (fmt : NumberFormat) (d : ScoringInput)

theorem positive_ageCalls (profileKey : TradingProfile) : Positive (ageCalls fmt d profileKey) := by
  cases profileKey with
  | meme_hunter | degen_sniper =>
    refine List.forall_mem_append.mpr ⟨?_, ?_⟩
    · show Positive (if _ then _ else _)
      split_ifs <;> simp [Positive, Call.amount]
    · show Positive (if _ then _ else _)
      split_ifs <;> simp [Positive, Call.amount]
  | swing_trader | gem_hunt | alpha_hunt =>
    unfold ageCalls
    split_ifs <;> simp [Positive, Call.amount]

theorem positive_turnoverCalls : Positive (turnoverCalls fmt d) := by
  unfold turnoverCalls
  split
  · simp [Positive]
  · by_cases hcap : d.marketCapUsd > 0
    · rw [if_pos hcap]
      refine List.forall_mem_append.mpr ⟨List.forall_mem_append.mpr ⟨List.forall_mem_append.mpr ⟨?_, ?_⟩, ?_⟩, ?_⟩
      all_goals
        split_ifs <;> simp [Call.amount]
    · simp [Positive, if_neg hcap]

theorem positive_bondingCalls : Positive (bondingCalls fmt d) := by
  unfold bondingCalls
  split
  · split_ifs <;> simp [Positive, Call.amount]
  · simp [Positive, Call.amount]
  · simp [Positive]

/-- A rule that looks at one number that may be missing. -/
theorem positive_option {o : Option ℚ} {f : ℚ → List Call} (h : ∀ x, Positive (f x)) :
    Positive (o.elim [] f) := by
  cases o with
  | none => simp [Positive]
  | some x => exact h x

theorem positive_rules (profileKey : TradingProfile) : ∀ rule ∈ rules fmt d profileKey, Positive rule := by
  simp only [rules, List.forall_mem_cons]
  refine ⟨?_, ?_, ?_, ?_, positive_ageCalls fmt d profileKey, ?_, ?_, ?_, positive_turnoverCalls fmt d,
    positive_bondingCalls fmt d, positive_option fun x => ?_, ?_, positive_option fun x => ?_,
    positive_option fun x => ?_, positive_option fun x => ?_, ?_, fun _ h => by cases h⟩
  · unfold hourCalls
    split_ifs <;> simp [Positive, Call.amount]
  · unfold fiveMinuteCalls
    split_ifs <;> simp [Positive, Call.amount]
  · unfold volumeCalls
    split_ifs <;> simp [Positive, Call.amount]
  · unfold liquidityCalls
    split_ifs <;> simp [Positive, Call.amount]
  · unfold buyRatioCalls
    split_ifs <;> simp [Positive, Call.amount]
  · unfold tradeSizeCalls
    split_ifs <;> simp [Positive, Call.amount]
  · unfold activityCalls
    split_ifs <;> simp [Positive, Call.amount]
  · split_ifs <;> simp [Positive, Call.amount]
  · unfold liveCalls
    split_ifs <;> simp [Positive, Call.amount]
  · split_ifs <;> simp [Positive, Call.amount]
  · split_ifs <;> simp [Positive, Call.amount]
  · split_ifs <;> simp [Positive, Call.amount]
  · unfold teamCalls
    split_ifs <;> simp [Positive, Call.amount]

theorem positive_calls (profileKey : TradingProfile) : Positive (calls fmt d profileKey) := by
  intro c hc
  obtain ⟨rule, hrule, hmem⟩ := List.mem_flatten.mp hc
  exact positive_rules fmt d profileKey rule hrule c hmem

end Positive

theorem gains_nonneg {cs : List Call} (h : Positive cs) : 0 ≤ gains cs := by
  refine List.sum_nonneg fun x hx => ?_
  obtain ⟨c, hc, rfl⟩ := List.mem_map.mp hx
  cases c with
  | add n tag cat => exact (h _ hc).le
  | sub n tag cat => exact le_refl (0 : ℚ)

theorem losses_nonneg {cs : List Call} (h : Positive cs) : 0 ≤ losses cs := by
  refine List.sum_nonneg fun x hx => ?_
  obtain ⟨c, hc, rfl⟩ := List.mem_map.mp hx
  cases c with
  | add n tag cat => exact le_refl (0 : ℚ)
  | sub n tag cat => exact (h _ hc).le

/-! ### Reading a breakdown -/

def allDampeners : List Dampener := [paperTape, thinTape, maybeWash, deadBag]

/-- The factor that the label of a signal names. -/
def factorNamed (label : String) : ℚ := ((allDampeners.find? fun d => d.label == label).map Dampener.factor).getD 1

def deltas (kind : SignalKind) (signals : List ScoreSignal) : ℚ :=
  ((signals.filter fun s => s.kind = kind).map ScoreSignal.delta).sum

/-- The score as its breakdown tells it. -/
def rescore (signals : List ScoreSignal) : ℚ :=
  scoreOf (deltas .add signals) (-deltas .sub signals)
    (((signals.filter fun s => s.kind = .damp).map fun s => factorNamed s.label).foldl min 1)

theorem deltas_append (kind : SignalKind) (signals later : List ScoreSignal) :
    deltas kind (signals ++ later) = deltas kind signals + deltas kind later := by
  rw [deltas, List.filter_append, List.map_append, List.sum_append]
  rfl

theorem deltas_calls (cs : List Call) :
    deltas .add (cs.map Call.signal) = gains cs ∧ deltas .sub (cs.map Call.signal) = -losses cs ∧
      ((cs.map Call.signal).filter fun s => s.kind = .damp) = [] := by
  induction cs with
  | nil => exact ⟨rfl, by simp [deltas], rfl⟩
  | cons c cs ih =>
    obtain ⟨hadd, hsub, hdamp⟩ := ih
    have hsplit : ∀ kind, deltas kind ((c :: cs).map Call.signal) =
        deltas kind [c.signal] + deltas kind (cs.map Call.signal) := fun kind => deltas_append kind [c.signal] _
    have hgains : gains (c :: cs) = gains [c] + gains cs := gains_append [c] cs
    have hlosses : losses (c :: cs) = losses [c] + losses cs := losses_append [c] cs
    rw [hsplit, hsplit, hadd, hsub, hgains, hlosses, List.map_cons, List.filter_cons, hdamp]
    cases c with
    | add n tag cat => simp [deltas, Call.signal]
    | sub n tag cat =>
      refine ⟨by simp [deltas, Call.signal], ?_, by simp [Call.signal]⟩
      rw [losses_sub, neg_add]
      simp [deltas, Call.signal]

theorem deltas_dampeners (ds : List Dampener) :
    deltas .add (ds.map Dampener.signal) = 0 ∧ deltas .sub (ds.map Dampener.signal) = 0 ∧
      ((ds.map Dampener.signal).filter fun s => s.kind = .damp) = ds.map Dampener.signal := by
  induction ds with
  | nil => exact ⟨rfl, rfl, rfl⟩
  | cons d ds ih =>
    obtain ⟨hadd, hsub, hdamp⟩ := ih
    have hsplit : ∀ kind, deltas kind ((d :: ds).map Dampener.signal) =
        deltas kind [d.signal] + deltas kind (ds.map Dampener.signal) := fun kind => deltas_append kind [d.signal] _
    rw [hsplit, hsplit, hadd, hsub, List.map_cons, List.filter_cons, hdamp]
    simp [deltas, Dampener.signal]

section Rescore
variable (fmt : NumberFormat) (d : ScoringInput) (profileKey : TradingProfile)

theorem dampeners_subset : dampeners d ⊆ allDampeners := by
  refine List.append_subset.mpr ⟨List.append_subset.mpr ⟨?_, ?_⟩, ?_⟩
  · split_ifs <;> simp [allDampeners]
  · split_ifs <;> simp [allDampeners]
  · split
    · exact List.nil_subset _
    · split_ifs <;> simp [allDampeners]

theorem factorNamed_label : ∀ x ∈ allDampeners, factorNamed x.label = x.factor := by
  simp [allDampeners, factorNamed, paperTape, thinTape, maybeWash, deadBag]

theorem factors_dampeners :
    ((dampeners d).map Dampener.signal).map (fun s => factorNamed s.label) = (dampeners d).map Dampener.factor := by
  rw [List.map_map]
  exact List.map_congr_left fun x hx => factorNamed_label x (dampeners_subset d hx)

theorem scoreOf_mem (gain loss factor : ℚ) : 0 ≤ scoreOf gain loss factor ∧ scoreOf gain loss factor ≤ 100 :=
  ⟨le_max_left _ _, max_le (by norm_num) (min_le_left _ _)⟩

/-- **The breakdown explains the score.** From the signals of a breakdown alone the score can be computed again: what
was added, scaled by the least factor a dampener names, less what was subtracted. What is added counts up, what is
subtracted counts down, a dampener has no points of its own; a caller that wants no breakdown gets the same score,
verdict and summary, and the score is between 0 and 100. -/
theorem score_rescored :
    ∃ signals, (computeHotTokenScore fmt d profileKey true).breakdown = some signals ∧
      rescore signals = (computeHotTokenScore fmt d profileKey true).score ∧
      (∀ s ∈ signals, match s.kind with
        | .add => 0 < s.delta
        | .sub => s.delta < 0
        | .damp => s.delta = 0) ∧
      computeHotTokenScore fmt d profileKey false =
        { computeHotTokenScore fmt d profileKey true with breakdown := none } ∧
      0 ≤ (computeHotTokenScore fmt d profileKey true).score ∧
      (computeHotTokenScore fmt d profileKey true).score ≤ 100 := by
  have hscore : ∀ want, (computeHotTokenScore fmt d profileKey want).score =
      scoreOf (gains (calls fmt d profileKey)) (losses (calls fmt d profileKey)) (factorOf (dampeners d)) :=
    fun want => final_accumulated fmt d profileKey want
  have htags : (accumulated fmt d profileKey true).pos = (accumulated fmt d profileKey false).pos ∧
      (accumulated fmt d profileKey true).neg = (accumulated fmt d profileKey false).neg :=
    foldl_damp_tags _ (foldl_call_tags _ ⟨rfl, rfl⟩)
  refine ⟨_, congrArg some (breakdown_accumulated fmt d profileKey), ?_, ?_, ?_, ?_⟩
  · obtain ⟨hadd, hsub, hdamp⟩ := deltas_calls (calls fmt d profileKey)
    obtain ⟨hadd', hsub', hdamp'⟩ := deltas_dampeners (dampeners d)
    rw [hscore, rescore, deltas_append, deltas_append, List.filter_append, hadd, hsub, hdamp, hadd', hsub', hdamp',
      List.nil_append, factors_dampeners, add_zero, add_zero, neg_neg]
    rfl
  · intro s hs
    cases List.mem_append.mp hs with
    | inl hcall =>
      obtain ⟨c, hc, rfl⟩ := List.mem_map.mp hcall
      have hpos := positive_calls fmt d profileKey c hc
      cases c with
      | add n tag cat => exact hpos
      | sub n tag cat => exact neg_lt_zero.mpr hpos
    | inr hdamp =>
      obtain ⟨x, -, rfl⟩ := List.mem_map.mp hdamp
      rfl
  · rw [computeHotTokenScore, computeHotTokenScore, htags.1, htags.2, final_accumulated, final_accumulated]
    rfl
  · rw [hscore]
    exact scoreOf_mem _ _ _

end Rescore

/-! ## More momentum and more attention -/

/-- The second rule adds at least as much as the first, and subtracts at most as much. -/
structure Improves (cs ds : List Call) : Prop where
  gains : gains cs ≤ gains ds
  losses : losses ds ≤ losses cs

theorem Improves.refl (cs : List Call) : Improves cs cs := ⟨le_refl _, le_refl _⟩

theorem Improves.flatten {rs ss : List (List Call)} (h : List.Forall₂ Improves rs ss) :
    Improves rs.flatten ss.flatten := by
  induction h with
  | nil => exact .refl []
  | cons hrule _ ih =>
    rw [List.flatten_cons, List.flatten_cons]
    constructor
    · rw [gains_append, gains_append]
      exact add_le_add hrule.gains ih.gains
    · rw [losses_append, losses_append]
      exact add_le_add hrule.losses ih.losses

/-- A number that was known is still known, and no smaller. -/
def NoLess (a b : Option ℚ) : Prop := ∀ x ∈ a, ∃ y ∈ b, x ≤ y

/-- A rule that looks at one number that may be missing, and adds no less for a larger one. -/
theorem improves_option {a b : Option ℚ} (h : NoLess a b) {f : ℚ → List Call} (hpos : ∀ x, Positive (f x))
    (hloss : ∀ x, losses (f x) = 0) (hmono : ∀ x y, x ≤ y → gains (f x) ≤ gains (f y)) :
    Improves (a.elim [] f) (b.elim [] f) := by
  cases a with
  | none =>
    cases b with
    | none => exact .refl []
    | some y => exact ⟨gains_nonneg (hpos y), (hloss y).le⟩
  | some x =>
    obtain ⟨y, rfl, hle⟩ := h x rfl
    exact ⟨hmono x y hle, ((hloss y).trans (hloss x).symm).le⟩

/-- The second token differs from the first in price momentum and in attention only, and has no less of either. -/
structure Hotter (d d' : ScoringInput) : Prop where
  hour : d.priceChange1h ≤ d'.priceChange1h
  fiveMinutes : d.priceChange5m ≤ d'.priceChange5m
  replies : NoLess d.replyCount d'.replyCount
  live : d.isLive = true → d'.isLive = true
  mentions : NoLess d.twitterAlignedMatches d'.twitterAlignedMatches
  callers : NoLess d.twitterCallerFollowerLog d'.twitterCallerFollowerLog
  authors : NoLess d.twitterUniqueAuthors d'.twitterUniqueAuthors
  team : d.twitterProjectActive = true → d'.twitterProjectActive = true
  rest : d' = { d with
    priceChange1h := d'.priceChange1h
    priceChange5m := d'.priceChange5m
    replyCount := d'.replyCount
    isLive := d'.isLive
    twitterAlignedMatches := d'.twitterAlignedMatches
    twitterCallerFollowerLog := d'.twitterCallerFollowerLog
    twitterUniqueAuthors := d'.twitterUniqueAuthors
    twitterProjectActive := d'.twitterProjectActive }

section Mono
variable (fmt : NumberFormat)

theorem improves_hourCalls {d d' : ScoringInput} (h : d.priceChange1h ≤ d'.priceChange1h) :
    Improves (hourCalls fmt d) (hourCalls fmt d') := by
  have hgains : ∀ e : ScoringInput, gains (hourCalls fmt e) = if e.priceChange1h > 100 then 22
      else if e.priceChange1h > 50 then 15 else if e.priceChange1h > 20 then 9 else if e.priceChange1h > 5 then 3
      else 0 := by
    intro e
    unfold hourCalls
    split_ifs <;> simp
  have hlosses : ∀ e : ScoringInput, losses (hourCalls fmt e) = if e.priceChange1h > 5 then 0
      else if e.priceChange1h < -30 then 12 else if e.priceChange1h < -15 then 6 else 0 := by
    intro e
    unfold hourCalls
    split_ifs <;> first | (simp; done) | linarith
  constructor
  · rw [hgains, hgains]
    split_ifs <;> linarith
  · rw [hlosses, hlosses]
    split_ifs <;> linarith

theorem improves_fiveMinuteCalls {d d' : ScoringInput} (h : d.priceChange5m ≤ d'.priceChange5m) :
    Improves (fiveMinuteCalls fmt d) (fiveMinuteCalls fmt d') := by
  have hgains : ∀ e : ScoringInput, gains (fiveMinuteCalls fmt e) =
      if e.priceChange5m > 15 then 10 else if e.priceChange5m > 5 then 5 else 0 := by
    intro e
    unfold fiveMinuteCalls
    split_ifs <;> simp
  have hlosses : ∀ e : ScoringInput, losses (fiveMinuteCalls fmt e) =
      if e.priceChange5m < -10 then 5 else 0 := by
    intro e
    unfold fiveMinuteCalls
    split_ifs <;> first | (simp; done) | linarith
  constructor
  · rw [hgains, hgains]
    split_ifs <;> linarith
  · rw [hlosses, hlosses]
    split_ifs <;> linarith

/-- A flag that can only be raised. -/
theorem improves_flag {p q : Bool} (h : p = true → q = true) {n : ℚ} (hn : 0 ≤ n) (tag : String)
    (cat : ScoreSignalCategory) :
    Improves (if p then [.add n tag cat] else []) (if q then [.add n tag cat] else []) := by
  cases p with
  | false =>
    cases q with
    | false => exact .refl []
    | true => exact ⟨by simpa using hn, by simp⟩
  | true =>
    rw [h rfl]
    exact .refl _

theorem improves_rules {d d' : ScoringInput} (h : Hotter d d') (profileKey : TradingProfile) :
    List.Forall₂ Improves (rules fmt d profileKey) (rules fmt d' profileKey) := by
  have hreplies : Improves (replyCalls fmt d) (replyCalls fmt d') := by
    unfold replyCalls
    refine improves_option h.replies (fun x => ?_) (fun x => ?_) fun x y hle => ?_
    · split_ifs <;> simp [Positive, Call.amount]
    · split_ifs <;> simp
    · split_ifs <;> simp only [gains_add, gains_nil] <;> linarith
  have hmentions : Improves (mentionCalls fmt d) (mentionCalls fmt d') := by
    unfold mentionCalls
    refine improves_option h.mentions (fun x => ?_) (fun x => ?_) fun x y hle => ?_
    · split_ifs <;> simp [Positive, Call.amount]
    · split_ifs <;> simp
    · split_ifs <;> simp only [gains_add, gains_nil] <;> linarith
  have hcallers : Improves (callerCalls d) (callerCalls d') := by
    unfold callerCalls
    refine improves_option h.callers (fun x => ?_) (fun x => ?_) fun x y hle => ?_
    · split_ifs <;> simp [Positive, Call.amount]
    · split_ifs <;> simp
    · split_ifs <;> simp only [gains_add, gains_nil] <;> linarith
  have hauthors : Improves (authorCalls fmt d) (authorCalls fmt d') := by
    unfold authorCalls
    refine improves_option h.authors (fun x => ?_) (fun x => ?_) fun x y hle => ?_
    · split_ifs <;> simp [Positive, Call.amount]
    · split_ifs <;> simp
    · split_ifs <;> simp only [gains_add, gains_nil] <;> linarith
  have hsame : ∀ rule : ScoringInput → List Call, rule d' = rule d → Improves (rule d) (rule d') :=
    fun rule heq => heq ▸ .refl (rule d)
  have hrest := h.rest
  refine .cons (improves_hourCalls fmt h.hour) (.cons (improves_fiveMinuteCalls fmt h.fiveMinutes) ?_)
  refine .cons (hsame (volumeCalls fmt) (by rw [hrest]; rfl)) ?_
  refine .cons (hsame (liquidityCalls fmt) (by rw [hrest]; rfl)) ?_
  refine .cons (hsame (ageCalls fmt · profileKey) (by rw [hrest]; rfl)) ?_
  refine .cons (hsame (buyRatioCalls fmt) (by rw [hrest]; rfl)) ?_
  refine .cons (hsame (tradeSizeCalls fmt) (by rw [hrest]; rfl)) ?_
  refine .cons (hsame (activityCalls fmt) (by rw [hrest]; rfl)) ?_
  refine .cons (hsame (turnoverCalls fmt) (by rw [hrest]; rfl)) ?_
  refine .cons (hsame (bondingCalls fmt) (by rw [hrest]; rfl)) (.cons hreplies ?_)
  refine .cons (improves_flag h.live (by norm_num) _ _) (.cons hmentions (.cons hcallers (.cons hauthors ?_)))
  exact .cons (improves_flag h.team (by norm_num) _ _) .nil

theorem improves_calls {d d' : ScoringInput} (h : Hotter d d') (profileKey : TradingProfile) :
    Improves (calls fmt d profileKey) (calls fmt d' profileKey) :=
  .flatten (improves_rules fmt h profileKey)

theorem le_foldl_min {x a : ℚ} {l : List ℚ} (ha : x ≤ a) (hl : ∀ y ∈ l, x ≤ y) : x ≤ l.foldl min a := by
  induction l generalizing a with
  | nil => exact ha
  | cons y l ih =>
    obtain ⟨hy, hrest⟩ := List.forall_mem_cons.mp hl
    exact ih (le_min ha hy) hrest

theorem factorOf_nonneg (d : ScoringInput) : 0 ≤ factorOf (dampeners d) := by
  refine le_foldl_min (by norm_num) fun y hy => ?_
  obtain ⟨x, hx, rfl⟩ := List.mem_map.mp hy
  have hall : ∀ x ∈ allDampeners, 0 ≤ x.factor := by
    simp only [allDampeners, List.forall_mem_cons, paperTape, thinTape, maybeWash, deadBag]
    norm_num
  exact hall x (dampeners_subset d hx)

theorem scoreOf_mono {gain gain' loss loss' factor : ℚ} (hfactor : 0 ≤ factor) (hgain : gain ≤ gain')
    (hloss : loss' ≤ loss) : scoreOf gain loss factor ≤ scoreOf gain' loss' factor := by
  have hscaled : gain * factor ≤ gain' * factor := mul_le_mul_of_nonneg_right hgain hfactor
  exact max_le_max (le_refl 0) (min_le_min (le_refl 100) (by linarith))

/-- The better verdict ranks higher. -/
def HotTokenVerdict.rank : HotTokenVerdict → ℕ
  | .STRONG_BUY => 4
  | .BUY => 3
  | .CAUTIOUS => 2
  | .SKIP => 1
  | .HIGH_RISK => 0

theorem rank_verdictOf_mono {x y : ℚ} (h : x ≤ y) : (verdictOf x).rank ≤ (verdictOf y).rank := by
  unfold verdictOf
  split_ifs <;> simp only [HotTokenVerdict.rank] <;> first | omega | linarith

/-- **More momentum and more attention.** A token whose price rises faster over the last hour and the last five minutes,
with more replies and mentions, better-followed callers, more authors, a live creator or an active team, everything else
being equal, has no lower score and no worse verdict, whatever dampeners apply. -/
theorem score_mono {d d' : ScoringInput} (h : Hotter d d') (profileKey : TradingProfile) (want : Bool) :
    (computeHotTokenScore fmt d profileKey want).score ≤ (computeHotTokenScore fmt d' profileKey want).score ∧
      (computeHotTokenScore fmt d profileKey want).verdict.rank ≤
        (computeHotTokenScore fmt d' profileKey want).verdict.rank := by
  have hle : (accumulated fmt d profileKey want).final ≤ (accumulated fmt d' profileKey want).final := by
    have hsame : dampeners d' = dampeners d := by
      rw [h.rest]
      rfl
    have hbetter := improves_calls fmt h profileKey
    rw [final_accumulated, final_accumulated, hsame]
    exact scoreOf_mono (factorOf_nonneg d) hbetter.gains hbetter.losses
  exact ⟨hle, rank_verdictOf_mono hle⟩

end Mono

/-! ## Paper tape -/

theorem gains_flatten_le {rs : List (List Call)} {bounds : List ℚ}
    (h : List.Forall₂ (fun rule bound => gains rule ≤ bound) rs bounds) : gains rs.flatten ≤ bounds.sum := by
  induction h with
  | nil => exact le_refl (0 : ℚ)
  | cons hrule _ ih =>
    rw [List.flatten_cons, gains_append, List.sum_cons]
    exact add_le_add hrule ih

theorem losses_le_flatten {rule : List Call} {rs : List (List Call)} (h : ∀ r ∈ rs, Positive r) (hrule : rule ∈ rs) :
    losses rule ≤ losses rs.flatten := by
  induction rs with
  | nil => cases hrule
  | cons r rs ih =>
    obtain ⟨hr, hrs⟩ := List.forall_mem_cons.mp h
    have hrest : 0 ≤ losses rs.flatten := losses_nonneg fun c hc => by
      obtain ⟨s, hs, hmem⟩ := List.mem_flatten.mp hc
      exact hrs s hs c hmem
    rw [List.flatten_cons, losses_append]
    cases List.mem_cons.mp hrule with
    | inl heq =>
      rw [heq]
      linarith
    | inr hin => linarith [ih hrs hin, losses_nonneg hr]

theorem foldl_min_le {l : List ℚ} {a y : ℚ} (h : y = a ∨ y ∈ l) : l.foldl min a ≤ y := by
  induction l generalizing a y with
  | nil =>
    cases h with
    | inl heq => exact heq.ge
    | inr hin => cases hin
  | cons x l ih =>
    rw [List.foldl_cons]
    have hfirst : l.foldl min (min a x) ≤ min a x := ih (.inl rfl)
    cases h with
    | inl heq => exact heq ▸ hfirst.trans (min_le_left a x)
    | inr hin =>
      cases List.mem_cons.mp hin with
      | inl heq => exact heq ▸ hfirst.trans (min_le_right a x)
      | inr hrest => exact ih (.inr hrest)

section PaperTape
variable (fmt : NumberFormat) {d : ScoringInput}

/-- On a paper tape the volume of the hour is a trifle of the market cap. -/
theorem turnoverCalls_onPaperTape (h : OnPaperTape d) :
    turnoverCalls fmt d = [.sub 6 "illiquid for size" .tape] := by
  obtain ⟨htape, hvolume, hcap, -, havg, htx⟩ := h
  obtain ⟨volume, hvol⟩ := Option.isSome_iff_exists.mp hvolume
  have htxpos : 0 < d.txCount := by
    have hboth := htape
    rw [ScoringInput.hasTape, Bool.and_eq_true] at hboth
    exact of_decide_eq_true hboth.2
  have hsmall : volume < 1500 := by
    rw [ScoringInput.avgTradeUsd, if_pos htape, hvol, Option.getD_some, div_lt_iff₀ htxpos] at havg
    linarith
  have hcappos : 0 < d.marketCapUsd := by linarith
  have hratio : volume / d.marketCapUsd < 2 / 1000 := by
    rw [div_lt_iff₀ hcappos]
    linarith
  unfold turnoverCalls
  rw [hvol]
  show (if d.marketCapUsd > 0 then _ else _) = _
  have hnot : ∀ {x : ℚ}, 2 / 1000 ≤ x → ¬ volume / d.marketCapUsd > x := fun hx => not_lt.mpr (hratio.le.trans hx)
  rw [if_pos hcappos]
  dsimp only
  rw [if_neg (hnot (by norm_num)), if_neg (hnot (by norm_num)), if_neg (hnot (by norm_num)),
    if_pos ⟨by linarith, hratio⟩]
  rfl

theorem gains_option {o : Option ℚ} {f : ℚ → List Call} {bound : ℚ} (hbound : 0 ≤ bound)
    (h : ∀ x, gains (f x) ≤ bound) :
    gains (o.elim [] f) ≤ bound := by
  cases o with
  | none => exact hbound
  | some x => exact h x

theorem gains_ageCalls (d : ScoringInput) (profileKey : TradingProfile) : gains (ageCalls fmt d profileKey) ≤ 19 := by
  cases profileKey with
  | meme_hunter | degen_sniper =>
    have hage : gains (if d.pairAgeHours < 1 then [.add 14 (fmt.toFixed (d.pairAgeHours * 60) 0 ++ "m old") .age]
        else if d.pairAgeHours < 4 then [.add 9 (fmt.toFixed d.pairAgeHours 1 ++ "h old") .age]
        else if d.pairAgeHours < 12 then [.add 4 (fmt.toFixed d.pairAgeHours 0 ++ "h old") .age]
        else if d.pairAgeHours > 72 then [.sub 8 "aged out" .age] else []) ≤ 14 := by
      split_ifs <;> norm_num
    have hsource : gains (if d.source = .pumpfun then [.add 5 "pump.fun launch" .age] else []) ≤ 5 := by
      split_ifs <;> norm_num
    rw [ageCalls, gains_append]
    linarith
  | swing_trader | gem_hunt | alpha_hunt =>
    unfold ageCalls
    split_ifs <;> norm_num

/-- What the rules can add on a paper tape, rule by rule. -/
theorem gains_onPaperTape (h : OnPaperTape d) (profileKey : TradingProfile) : gains (calls fmt d profileKey) ≤ 122 := by
  have hbounds : List.Forall₂ (fun rule bound => gains rule ≤ bound) (rules fmt d profileKey)
      [22, 10, 14, 7, 19, 7, 0, 0, 0, 8, 8, 5, 10, 6, 3, 3] := by
    have havg : d.avgTradeUsd < 50 := h.2.2.2.2.1
    have htx : d.txCount < 30 := h.2.2.2.2.2
    refine .cons ?_ (.cons ?_ (.cons ?_ (.cons ?_ (.cons ?_ (.cons ?_ (.cons ?_ (.cons ?_ (.cons ?_ (.cons ?_
      (.cons (gains_option (by norm_num) fun x => ?_) (.cons ?_ (.cons (gains_option (by norm_num) fun x => ?_)
      (.cons (gains_option (by norm_num) fun x => ?_) (.cons (gains_option (by norm_num) fun x => ?_)
      (.cons ?_ .nil)))))))))))))))
    · unfold hourCalls
      split_ifs <;> norm_num
    · unfold fiveMinuteCalls
      split_ifs <;> norm_num
    · unfold volumeCalls
      split_ifs <;> norm_num
    · unfold liquidityCalls
      split_ifs <;> norm_num
    · exact gains_ageCalls fmt d profileKey
    · unfold buyRatioCalls
      split_ifs <;> norm_num
    · unfold tradeSizeCalls
      split_ifs <;> first | linarith | norm_num
    · unfold activityCalls
      split_ifs <;> first | linarith | norm_num
    · rw [turnoverCalls_onPaperTape fmt h, gains_sub]
    · unfold bondingCalls
      split
      · split_ifs <;> norm_num
      · norm_num
      · norm_num
    · split_ifs <;> norm_num
    · unfold liveCalls
      split_ifs <;> norm_num
    · split_ifs <;> norm_num
    · split_ifs <;> norm_num
    · split_ifs <;> norm_num
    · unfold teamCalls
      split_ifs <;> norm_num
  refine (gains_flatten_le hbounds).trans ?_
  norm_num

/-- **Paper tape.** However strong its other signals are, a token with a market cap of a million, trades of less than
fifty dollars on average and fewer than thirty of them in the hour scores 65.6 at most and is never a strong buy. -/
theorem score_paper_tape (h : OnPaperTape d) (profileKey : TradingProfile) (want : Bool) :
    (computeHotTokenScore fmt d profileKey want).score ≤ 656 / 10 ∧
      (computeHotTokenScore fmt d profileKey want).verdict ≠ .STRONG_BUY := by
  have hfactor : factorOf (dampeners d) ≤ 3 / 10 := by
    refine foldl_min_le (.inr (List.mem_map.mpr ⟨paperTape, ?_, rfl⟩))
    rw [dampeners, if_pos h]
    simp
  have hlosses : 6 ≤ losses (calls fmt d profileKey) := by
    have hmem : turnoverCalls fmt d ∈ rules fmt d profileKey := by simp [rules]
    have hle := losses_le_flatten (positive_rules fmt d profileKey) hmem
    rwa [turnoverCalls_onPaperTape fmt h, losses_sub] at hle
  have hgains := gains_onPaperTape fmt h profileKey
  have hscaled : gains (calls fmt d profileKey) * factorOf (dampeners d) ≤ 122 * (3 / 10) :=
    mul_le_mul hgains hfactor (factorOf_nonneg d) (by norm_num)
  have hscore : (accumulated fmt d profileKey want).final ≤ 656 / 10 := by
    rw [final_accumulated]
    exact max_le (by norm_num) ((min_le_right _ _).trans (by unfold BASE; linarith))
  refine ⟨hscore, ?_⟩
  have hnot : ¬ (accumulated fmt d profileKey want).final ≥ 78 := by
    intro hge
    linarith
  show verdictOf _ ≠ _
  rw [verdictOf, if_neg hnot]
  split_ifs <;> simp

end PaperTape

/-! ### A token on a paper tape -/

/-- The texts of whole numbers. -/
def wholeFormat : NumberFormat where
  text x := toString x.num
  toFixed x _ := toString (TokenAnalysis.mathRound x)

/-- All signals as strong as they get, on a paper tape. -/
def paperToken : ScoringInput where
  priceChange1h := 150
  priceChange5m := 20
  volume24hUsd := 7000000
  liquidityUsd := 300000
  marketCapUsd := 1000000
  pairAgeHours := 1 / 2
  source := .pumpfun
  buys1h := some 20
  sells1h := some 9
  volume1hUsd := some 1300
  bondingCurvePct := some 80
  isLive := true
  replyCount := some 600
  twitterAlignedMatches := some 60
  twitterUniqueAuthors := some 20
  twitterCallerFollowerLog := some 30
  twitterProjectActive := true

/-- The bound is reached. -/
theorem score_paper_tape_reached :
    (computeHotTokenScore wholeFormat paperToken .meme_hunter true).score = 656 / 10 ∧
      (computeHotTokenScore wholeFormat paperToken .meme_hunter true).verdict ≠ .STRONG_BUY :=
  ⟨by decide +kernel, (score_paper_tape wholeFormat (d := paperToken) (by decide +kernel) .meme_hunter true).2⟩

/-- The same token before anyone talked about it. -/
theorem score_mono_paper :
    (computeHotTokenScore wholeFormat { paperToken with
        replyCount := none, twitterAlignedMatches := some 3, twitterUniqueAuthors := none, isLive := false }
      .meme_hunter true).score ≤ (computeHotTokenScore wholeFormat paperToken .meme_hunter true).score := by
  refine (score_mono wholeFormat ?_ .meme_hunter true).1
  constructor
  case mentions =>
    rintro x ⟨⟩
    exact ⟨60, rfl, by norm_num⟩
  case replies => exact fun x hx => by cases hx
  case authors => exact fun x hx => by cases hx
  case callers => exact fun x hx => ⟨x, hx, le_refl x⟩
  case live => exact fun _ => rfl
  case team => exact fun h => h
  case hour => exact le_refl _
  case fiveMinutes => exact le_refl _
  case rest => rfl

end SuperAi.HotTokens
