import SuperAi.IntelTrack.IntelRescanWorker

/-! # Captures

`IntelSnapshotService.capture` (`intel-track/intel-snapshot.service.ts`): what is frozen of a call, and the three
statements of a capture, each of them atomic: the lookup by chain and address, the mark of a reappearance, and the
insertion, which the unique constraint refuses where the token is there by then.
-/
namespace SuperAi.IntelTrack
open SuperAi.Auth SuperAi.Foundations
set_option autoImplicit false

/-- The fields of a `TokenAnalysisReport` that a capture reads. -/
structure TokenReport where
  aiScore : Option ℤ := none
  aiVerdict : Option String := none
  aiSummary : Option String := none
  killTriggered : Bool := false
  priceUsd : Option ℚ := none
  marketCapUsd : Option ℚ := none
  liquidityUsd : Option ℚ := none
  volume24hUsd : Option ℚ := none
  symbol : Option String := none
  name : Option String := none
  slim : String := ""
  deriving DecidableEq, Repr

structure CaptureInput where
  chain : Chain := .SOLANA
  address : String
  symbol : Option String := none
  name : Option String := none
  source : IntelSource
  profileKey : Option String := none
  userId : Option String := none
  report : TokenReport
  deriving DecidableEq, Repr

namespace CaptureInput

/-- The capture filter. -/
def passes (cfg : RescanConfig) (input : CaptureInput) : Bool :=
  input.source == .snipe || input.report.killTriggered ||
    input.report.aiScore.any fun score => decide (cfg.MIN_AI_SCORE ≤ score)

def normalizedAddress (input : CaptureInput) : String :=
  match input.chain with
  | .EVM => input.address.toLower
  | .SOLANA => input.address

/-- What is frozen, or nothing where the call is filtered out or has no price to anchor it. -/
def frozen (cfg : RescanConfig) (input : CaptureInput) (now : ℤ) : Option Capture :=
  if input.address = "" ∨ input.passes cfg = false then none
  else
    (input.report.priceUsd.filter fun price => decide (0 < price)).map fun priceUsdAtCapture =>
      { userId := input.userId
        chain := input.chain
        address := input.normalizedAddress
        symbol := input.symbol.or input.report.symbol
        name := input.name.or input.report.name
        capturedAt := now
        source := input.source
        profileKey := input.profileKey
        priceUsdAtCapture
        marketCapUsdAtCapture := input.report.marketCapUsd
        liquidityUsdAtCapture := input.report.liquidityUsd
        volume24hAtCapture := input.report.volume24hUsd
        reportJson := input.report.slim
        aiScore := input.report.aiScore
        aiVerdict := input.report.aiVerdict
        aiSummary := input.report.aiSummary
        killTriggered := input.report.killTriggered }

end CaptureInput

/-- The row of a new capture, with the aggregates seeded. -/
def Capture.seed (c : Capture) : IntelSnapshot where
  capture := c
  currentPriceUsd := some c.priceUsdAtCapture
  currentMcapUsd := c.marketCapUsdAtCapture
  currentLiquidity := c.liquidityUsdAtCapture
  pumpedHigh := c.marketCapUsdAtCapture
  pumpedHighAt := c.marketCapUsdAtCapture.map fun _ => c.capturedAt
  drawdownLow := c.marketCapUsdAtCapture
  drawdownLowAt := c.marketCapUsdAtCapture.map fun _ => c.capturedAt
  sparkline := (c.marketCapUsdAtCapture.map mathRound).toList

namespace IntelTable

def findUnique (t : IntelTable) (chain : Chain) (address : String) : Option ℕ :=
  (t.snapshots.find? fun entry => entry.2.capture.chain == chain && entry.2.capture.address == address).map Prod.fst

def reappear (t : IntelTable) (id : ℕ) (source : IntelSource) (now : ℤ) : IntelTable :=
  t.mapSnapshots fun other row =>
    if other = id then { row with reappearedAt := some now, reappearedSource := some source } else row

def create (t : IntelTable) (c : Capture) : IntelTable :=
  match t.findUnique c.chain c.address with
  | some _ => t
  | none => { t with snapshots := t.snapshots.set t.nextId c.seed, nextId := t.nextId + 1 }

/-- A capture that nothing comes between. -/
def capture (cfg : RescanConfig) (t : IntelTable) (input : CaptureInput) (now : ℤ) : IntelTable :=
  match input.frozen cfg now with
  | none => t
  | some c =>
    match t.findUnique c.chain c.address with
    | some id => t.reappear id c.source now
    | none => t.create c

end IntelTable
end SuperAi.IntelTrack
