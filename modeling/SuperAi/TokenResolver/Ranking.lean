import SuperAi.Auth.WalletVerifier
import Mathlib.Data.Rat.Floor
import Mathlib.Data.List.Sort

/-! # Ranking of resolved tokens

The candidates of `token-resolver/token-resolver.types.ts` and their ranking in `token-resolver/ranking.ts`:
the tier of the match, then a score. `Math.log10` is a parameter.
-/
namespace SuperAi.TokenResolver
open SuperAi.Auth
set_option autoImplicit false

inductive MatchTier
  | address
  | exact
  | prefixed
  | fuzzy
  deriving DecidableEq, Repr

def MATCH_TIER_RANK : MatchTier → ℕ
  | .address => 4
  | .exact => 3
  | .prefixed => 2
  | .fuzzy => 1

/-- A candidate without what the ranking adds. -/
structure CollapsedToken where
  chain : Chain
  chainId : String
  address : String
  symbol : String
  name : String
  priceUsd : Option ℚ
  liquidityUsd : Option ℚ
  volume24hUsd : Option ℚ
  marketCapUsd : Option ℚ
  fdvUsd : Option ℚ
  pairAgeHours : Option ℚ
  txns24h : Option ℚ
  logoURI : Option String
  url : Option String
  matchTier : MatchTier
  deriving DecidableEq, Repr

structure ResolvedToken extends CollapsedToken where
  verified : Bool
  cgRank : Option ℚ
  score : ℚ
  deriving DecidableEq, Repr

structure ScoreInput where
  liquidityUsd : Option ℚ
  volume24hUsd : Option ℚ
  marketCapUsd : Option ℚ
  txns24h : Option ℚ
  pairAgeHours : Option ℚ
  verified : Bool
  cgRank : Option ℚ
  deriving DecidableEq, Repr

def W_LIQ : ℚ := 1

def W_VOL : ℚ := 6 / 10

def W_MC : ℚ := 4 / 10

def W_TX : ℚ := 3 / 10

def W_AGE : ℚ := 3 / 10

def W_VERIFIED : ℚ := 1

def W_CG_RANK : ℚ := 3

def AGE_CAP_HOURS : ℚ := 720

def scoreToken (log10 : ℚ → ℚ) (i : ScoreInput) : ℚ :=
  let log (v : Option ℚ) : ℚ := log10 (1 + max 0 (v.getD 0))
  let ageBoost := min (max 0 (i.pairAgeHours.getD 0) / AGE_CAP_HOURS) 1
  let cgBoost :=
    match i.cgRank with
    | some rank => W_CG_RANK * max 0 (1 - log10 (rank + 1) / log10 1001)
    | none => 0
  log i.liquidityUsd * W_LIQ + log i.volume24hUsd * W_VOL + log i.marketCapUsd * W_MC + log i.txns24h * W_TX +
    ageBoost * W_AGE + (if i.verified then W_VERIFIED else 0) + cgBoost

/-- `a` stays before `b`. -/
def Precedes (a b : ResolvedToken) : Prop :=
  MATCH_TIER_RANK b.matchTier < MATCH_TIER_RANK a.matchTier ∨
    MATCH_TIER_RANK a.matchTier = MATCH_TIER_RANK b.matchTier ∧ b.score ≤ a.score

instance (a b : ResolvedToken) : Decidable (Precedes a b) :=
  inferInstanceAs (Decidable (_ ∨ _))

/-- The sort is stable. -/
def sortCandidates (tokens : List ResolvedToken) : List ResolvedToken := tokens.insertionSort Precedes

def scoreGap (s1 s2 : ℚ) : ℚ := if s1 ≤ 0 then 0 else min 1 (max 0 ((s1 - s2) / s1))

def computeConfidence : List ResolvedToken → ℚ
  | [] => 0
  | [_] => 1
  | a :: b :: _ =>
    if MATCH_TIER_RANK b.matchTier < MATCH_TIER_RANK a.matchTier then max (85 / 100) (scoreGap a.score b.score)
    else scoreGap a.score b.score

end SuperAi.TokenResolver
