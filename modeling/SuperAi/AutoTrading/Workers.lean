import SuperAi.AutoTrading.Conservation
import SuperAi.HotTokens.Scoring
import SuperAi.HotTokens.TokenPool

/-! # The picker and the watcher

`AutoTradePickerService` opens positions and `AutoTradeWatcherService` closes them (`auto-trade`), each in ticks of
which the next one starts when the last one is over. The users open, close and reset by hand (`AutoTradeController`) and
change their settings meanwhile; all steps between two awaits interleave. What the scanner, the token pool and
DexScreener say at a step is part of the step. Beside the book there are the columns that its rows leave out.
-/
namespace SuperAi.AutoTrading
open SuperAi.Auth SuperAi.Foundations SuperAi.HotTokens
set_option autoImplicit false

/-! ## Settings -/

/-- The columns of `AutoPortfolio` that the picker reads, with the defaults of the schema. -/
structure PickerSettings where
  autoProfile : String := "meme_hunter"
  autoMinScore : ℤ := 70
  positionSizeUsd : ℚ := 200
  maxConcurrent : ℤ := 10
  cooldownMinutes : ℤ := 15
  deriving DecidableEq, Repr

/-- A field that is none is left as it is; the four exits can be set to null. -/
structure SettingsPatch where
  autoEnabled : Option Bool := none
  autoProfile : Option String := none
  autoMinScore : Option ℤ := none
  positionSizeUsd : Option ℚ := none
  maxConcurrent : Option ℤ := none
  cooldownMinutes : Option ℤ := none
  takeProfit1Pct : Option (Option ℚ) := none
  takeProfit2Pct : Option (Option ℚ) := none
  stopLossPct : Option (Option ℚ) := none
  maxHoldMinutes : Option (Option ℚ) := none

namespace SettingsPatch
variable (patch : SettingsPatch)

def settings (old : PickerSettings) : PickerSettings where
  autoProfile := (patch.autoProfile.filter (· ≠ "")).getD old.autoProfile
  autoMinScore := (patch.autoMinScore.map fun n => max 0 (min 100 n)).getD old.autoMinScore
  positionSizeUsd := (patch.positionSizeUsd.map fun x => max 10 (min 100000 x)).getD old.positionSizeUsd
  maxConcurrent := (patch.maxConcurrent.map fun n => max 1 (min 100 n)).getD old.maxConcurrent
  cooldownMinutes := (patch.cooldownMinutes.map fun n => max 0 (min 1440 n)).getD old.cooldownMinutes

def portfolio (old : AutoPortfolio) : AutoPortfolio :=
  { old with
    autoEnabled := patch.autoEnabled.getD old.autoEnabled
    takeProfit1Pct := patch.takeProfit1Pct.getD old.takeProfit1Pct
    takeProfit2Pct := patch.takeProfit2Pct.getD old.takeProfit2Pct
    stopLossPct := patch.stopLossPct.getD old.stopLossPct
    maxHoldMinutes := patch.maxHoldMinutes.getD old.maxHoldMinutes }

end SettingsPatch

/-! ## The watcher -/

def STALE_MS : ℤ := 60000

def MAX_PER_BATCH : ℕ := 30

/-- What `updatePriceTick` writes into the row. -/
structure PriceTick where
  currentPriceUsd : ℚ
  unrealizedPnlUsd : ℚ
  unrealizedPnlPct : ℚ
  deriving DecidableEq, Repr

def priceTick (position : AutoPosition) (currentPriceUsd : ℚ) : PriceTick where
  currentPriceUsd
  unrealizedPnlUsd := (currentPriceUsd - position.entryPriceUsd) * position.tokenAmount
  unrealizedPnlPct := (currentPriceUsd / position.entryPriceUsd - 1) * 100

def decideExit (position : AutoPosition) (currentPriceUsd : ℚ) (now : ℤ) : Option CloseDecision :=
  if position.takeProfit2PriceUsd ≤ currentPriceUsd then some ⟨.TP2, position.takeProfit2PriceUsd⟩
  else if position.takeProfit1PriceUsd ≤ currentPriceUsd then some ⟨.TP1, position.takeProfit1PriceUsd⟩
  else if currentPriceUsd ≤ position.stopLossPriceUsd then some ⟨.STOP_LOSS, position.stopLossPriceUsd⟩
  else if position.maxHoldMs ≤ (now - position.openedAt : ℤ) then some ⟨.MAX_HOLD, currentPriceUsd⟩
  else none

/-- A price of the token pool that was refreshed within the last minute. -/
def poolPrice (pool : TokenPool) (now : ℤ) (tokenAddress : String) : Option ℚ := do
  let entry ← pool.registry.get tokenAddress
  let live ← entry.live
  if entry.archived = false ∧ live.priceUsd ≠ 0 ∧ now - live.lastRefreshed < STALE_MS then some live.priceUsd else none

/-- A request that fails gives no prices. -/
def fetchDexPrices (response : Option (List DexPair)) : KeyValue String ℚ :=
  (DexPair.best (response.getD [])).filterMap fun (addr, pair) =>
    if 0 < pair.priceUsd.getD 0 then some (addr, pair.priceUsd.getD 0) else none

def setAll (liveByAddr prices : KeyValue String ℚ) : KeyValue String ℚ :=
  prices.foldl (fun m entry => m.set entry.1 entry.2) liveByAddr

/-- A tick reads the positions, asks for the prices that the pool lacks, and goes through the positions. -/
inductive Watcher
  | idle
  | fetching (positions : List AutoPosition) (liveByAddr : KeyValue String ℚ) (batches : ℕ)
  | ticking (todo : List AutoPosition) (liveByAddr : KeyValue String ℚ)
  | closing (i : ℕ) (todo : List AutoPosition) (liveByAddr : KeyValue String ℚ)

/-! ## The picker -/

/-- The fields of `HotToken` that the picker reads; the breakdown is a text. -/
structure HotToken where
  address : String
  symbol : String
  name : String
  chain : Chain := .SOLANA
  priceUsd : ℚ
  score : ℚ
  verdict : HotTokenVerdict
  summary : String
  scoreBreakdown : Option String := none
  deriving DecidableEq

def verdictText : HotTokenVerdict → String
  | .STRONG_BUY => "STRONG_BUY"
  | .BUY => "BUY"
  | .CAUTIOUS => "CAUTIOUS"
  | .SKIP => "SKIP"
  | .HIGH_RISK => "HIGH_RISK"

def DAMPENER_SUMMARY_TAGS : List String := ["paper tape", "thin tape", "maybe wash", "post-ATH", "dead curve"]

/-- `toLowerCase`; no other letter becomes a letter of a tag. -/
def toLowerCase (text : String) : List Char := text.toList.map Char.toLower

/-- A hard dampener is found in the summary. -/
def tagged (summary : String) : Bool :=
  DAMPENER_SUMMARY_TAGS.any fun tag => decide (tag.toList <:+: toLowerCase summary)

/-- A row of the query for portfolios with `autoEnabled`. -/
structure PickerRow where
  userId : String
  settings : PickerSettings
  deriving DecidableEq, Repr

def pickInput (row : PickerRow) (t : HotToken) : OpenAutoPositionInput where
  userId := row.userId
  tokenAddress := t.address
  symbol := some t.symbol
  name := some t.name
  chain := some t.chain
  profileKey := row.settings.autoProfile
  source := some "auto_picker"
  entryPriceUsd := t.priceUsd
  sizeUsd := row.settings.positionSizeUsd
  scoreAtEntry := t.score.num
  verdictAtEntry := verdictText t.verdict
  scoreBreakdown := t.scoreBreakdown

/-- The loop of `pickForUser` over the tokens of the scan. -/
structure Pass where
  row : PickerRow
  tokens : List HotToken
  slots : ℤ
  /-- When the window of the cooldown was asked for. -/
  readAt : ℤ
  skip : List String
  next : ℕ := 0
  picked : ℕ := 0

def Pass.wants (pass : Pass) (t : HotToken) : Bool :=
  decide (pass.row.settings.autoMinScore ≤ t.score) && !pass.skip.contains t.address && !tagged t.summary &&
    decide (0 < t.priceUsd)

/-- A tick reads the portfolios and goes through them; of each it counts the positions, reads the tokens to skip in two
queries at once, and goes through the tokens. -/
inductive Picker
  | idle
  | users (todo : List PickerRow)
  | counted (row : PickerRow) (tokens : List HotToken) (slots : ℤ) (todo : List PickerRow)
  | reading (row : PickerRow) (tokens : List HotToken) (slots readAt : ℤ)
      (openAddrs recentClosed : Option (List String)) (todo : List PickerRow)
  | picking (pass : Pass) (todo : List PickerRow)
  | opening (i : ℕ) (pass : Pass) (todo : List PickerRow)

/-- Both queries have been answered, or one is still on the way. -/
def Picker.read (row : PickerRow) (tokens : List HotToken) (slots readAt : ℤ)
    (openAddrs recentClosed : Option (List String)) (todo : List PickerRow) : Picker :=
  match openAddrs, recentClosed with
  | some openAddrs, some recentClosed =>
    .picking { row, tokens, slots, readAt, skip := openAddrs ++ recentClosed } todo
  | _, _ => .reading row tokens slots readAt openAddrs recentClosed todo

/-! ## The system -/

/-- What `recentClosed` reads of a row of `AutoTrade`. -/
structure Closing where
  userId : String
  tokenAddress : String
  closedAt : ℤ
  deriving DecidableEq, Repr

structure Trader where
  desk : AutoDesk := {}
  settings : KeyValue String PickerSettings := []
  /-- What has been written into the row of a position since it was created. -/
  ticks : KeyValue ℕ PriceTick := []
  closings : List Closing := []
  clock : ℤ := 0
  watcher : Watcher := .idle
  picker : Picker := .idle

/-- `ManualOpenDto`, after the token has been looked up. -/
structure ManualOpen where
  tokenAddress : String
  symbol : Option String := none
  name : Option String := none
  profileKey : Option String := none
  entryPriceUsd : ℚ
  sizeUsd : ℚ

def ManualOpen.input (dto : ManualOpen) (userId : String) : OpenAutoPositionInput where
  userId
  tokenAddress := dto.tokenAddress
  symbol := dto.symbol
  name := dto.name
  profileKey := dto.profileKey.getD "meme_hunter"
  source := some "manual"
  entryPriceUsd := dto.entryPriceUsd
  sizeUsd := dto.sizeUsd
  scoreAtEntry := 0
  verdictAtEntry := "MANUAL"

inductive TraderStep
  | openManual (userId : String) (dto : ManualOpen)
  | closeManual (userId : String) (id : ℕ) (exitPriceUsd : Option ℚ)
  | reset (userId : String)
  | updatePortfolioSettings (userId : String) (patch : SettingsPatch) (now : ℤ)
  | advance (i : ℕ) (now : ℤ)
  | watch (pool : TokenPool) (now : ℤ)
  | prices (responses : List (Option (List DexPair)))
  | tickNext (now : ℤ)
  | closed
  | pick
  | pickForUser (scan : Option (List HotToken))
  | since (now : ℤ)
  | readOpenAddrs
  | readRecentClosed
  | pickNext
  | picked

namespace Trader
variable (s : Trader)

def settingsOf (userId : String) : PickerSettings := (s.settings.get userId).getD {}

/-- The position rows are kept newest first. -/
def listOpenPositions (userId : String) : List AutoPosition :=
  (s.desk.book.positions.rows.filter fun p => p.userId = userId).take 100

def currentPriceUsd (p : AutoPosition) : ℚ := ((s.ticks.get p.id).map PriceTick.currentPriceUsd).getD p.entryPriceUsd

def start (e : AutoStep) : Option Trader := (autoTrade.step s.desk e).map fun desk => { s with desk }

/-- The rows of closed trades after the next step of a call. -/
def closingsAfter (i : ℕ) (now : ℤ) : List Closing :=
  match s.desk.calls[i]? with
  | some (.closeTx position trade) =>
    if (s.desk.book.closeTx position trade now).toOption.isSome then
      s.closings ++ [⟨trade.userId, trade.tokenAddress, now⟩]
    else s.closings
  | some (.resetTx userId) => s.closings.filter fun c => c.userId ≠ userId
  | _ => s.closings

/-- The upsert of `updatePortfolioSettings`. -/
def updatePortfolioSettings (userId : String) (patch : SettingsPatch) (now : ℤ) : Trader :=
  let old : AutoPortfolio := (s.desk.book.portfolios.get userId).getD { resetAt := now }
  let book := { s.desk.book with portfolios := s.desk.book.portfolios.set userId (patch.portfolio old) }
  { s with
    desk := { s.desk with book }
    settings := s.settings.set userId (patch.settings (s.settingsOf userId)) }

/-! ### The ticks of the watcher -/

def watch (pool : TokenPool) (now : ℤ) : Option Trader :=
  match s.watcher with
  | .idle =>
    let positions := s.desk.book.positions.rows
    let liveByAddr : KeyValue String ℚ := positions.foldl
      (fun m p => (poolPrice pool now p.tokenAddress).elim m fun px => m.set p.tokenAddress px) []
    let missing := (positions.filter fun p => (poolPrice pool now p.tokenAddress).isNone).map AutoPosition.tokenAddress
    some { s with clock := now, watcher := .fetching positions liveByAddr (chunk missing MAX_PER_BATCH).length }
  | _ => none

def prices (responses : List (Option (List DexPair))) : Option Trader :=
  match s.watcher with
  | .fetching positions liveByAddr batches =>
    if responses.length = batches then
      let live := responses.foldl (fun m response => setAll m (fetchDexPrices response)) liveByAddr
      some { s with watcher := .ticking positions live }
    else none
  | _ => none

/-- The update of `updatePriceTick` throws when the row is gone, and the tick goes on. -/
def setTick (p : AutoPosition) (px : ℚ) : KeyValue ℕ PriceTick :=
  if (s.desk.book.positions.find p.id).isSome then s.ticks.set p.id (priceTick p px) else s.ticks

/-- The next position of a tick, with `updatePriceTick` and the call of `closePosition`. -/
def tickNext (now : ℤ) : Option Trader :=
  match s.watcher with
  | .ticking [] _ => some { s with clock := now, watcher := .idle }
  | .ticking (p :: todo) liveByAddr =>
    match (liveByAddr.get p.tokenAddress).filter (0 < ·) with
    | none => some { s with clock := now, watcher := .ticking todo liveByAddr }
    | some px =>
      match decideExit p px now with
      | none => some { s with ticks := s.setTick p px, clock := now, watcher := .ticking todo liveByAddr }
      | some decision =>
        (s.start (.closePosition p.id decision)).map fun t =>
          { t with clock := now, watcher := .closing s.desk.calls.length todo liveByAddr }
  | _ => none

def closed : Option Trader :=
  match s.watcher with
  | .closing i todo liveByAddr =>
    (s.desk.calls[i]?).bind fun call =>
      if call.over then some { s with watcher := .ticking todo liveByAddr } else none
  | _ => none

/-! ### The ticks of the picker -/

def pick : Option Trader :=
  match s.picker with
  | .idle =>
    some { s with
      picker := .users ((s.desk.book.portfolios.filter fun entry => entry.2.autoEnabled).map fun entry =>
        ⟨entry.1, s.settingsOf entry.1⟩) }
  | _ => none

def openCount (userId : String) : ℕ := s.desk.book.positions.rows.countP fun p => p.userId = userId

/-- `pickForUser` up to the slots; nothing is done without a scan. -/
def pickForUser (scan : Option (List HotToken)) : Option Trader :=
  match s.picker with
  | .users [] => some { s with picker := .idle }
  | .users (row :: todo) =>
    let slots : ℤ := row.settings.maxConcurrent - s.openCount row.userId
    if scan.getD [] = [] ∨ slots ≤ 0 then some { s with picker := .users todo }
    else some { s with picker := .counted row (scan.getD []) slots todo }
  | _ => none

def since (now : ℤ) : Option Trader :=
  match s.picker with
  | .counted row tokens slots todo =>
    some { s with clock := now, picker := .reading row tokens slots now none none todo }
  | _ => none

def openAddrs (userId : String) : List String :=
  (s.desk.book.positions.rows.filter fun p => p.userId = userId).map AutoPosition.tokenAddress

def recentClosed (userId : String) (cut : ℤ) : List String :=
  (s.closings.filter fun c => c.userId = userId ∧ cut < c.closedAt).map Closing.tokenAddress

def readOpenAddrs : Option Trader :=
  match s.picker with
  | .reading row tokens slots readAt none recentClosed todo =>
    some { s with picker := .read row tokens slots readAt (some (s.openAddrs row.userId)) recentClosed todo }
  | _ => none

def readRecentClosed : Option Trader :=
  match s.picker with
  | .reading row tokens slots readAt openAddrs none todo =>
    let recentClosed := s.recentClosed row.userId (readAt - row.settings.cooldownMinutes * 60000)
    some { s with picker := .read row tokens slots readAt openAddrs (some recentClosed) todo }
  | _ => none

/-- The next token of a pass; a score that is no integer is refused when the row is created. -/
def pickNext : Option Trader :=
  match s.picker with
  | .picking pass todo =>
    if pass.slots ≤ pass.picked then some { s with picker := .users todo }
    else
      match pass.tokens[pass.next]? with
      | none => some { s with picker := .users todo }
      | some t =>
        let pass' := { pass with next := pass.next + 1 }
        if pass.wants t ∧ t.score.isInt then
          (s.start (.openPosition (pickInput pass.row t))).map fun s' =>
            { s' with picker := .opening s.desk.calls.length pass' todo }
        else some { s with picker := .picking pass' todo }
  | _ => none

def picked : Option Trader :=
  match s.picker with
  | .opening i pass todo =>
    match s.desk.calls[i]? with
    | some (.opened position) =>
      some { s with picker := .picking { pass with picked := pass.picked + if position.isSome then 1 else 0 } todo }
    | some .failed => some { s with picker := .picking pass todo }
    | _ => none
  | _ => none

def step : TraderStep → Option Trader
  | .openManual userId dto => if 10 ≤ dto.sizeUsd then s.start (.openPosition (dto.input userId)) else none
  | .closeManual userId id exitPriceUsd =>
    ((s.listOpenPositions userId).find? fun p => p.id = id).bind fun p =>
      s.start (.closePosition id ⟨.MANUAL, exitPriceUsd.getD (s.currentPriceUsd p)⟩)
  | .reset userId => s.start (.reset userId)
  | .updatePortfolioSettings userId patch now => some { s.updatePortfolioSettings userId patch now with clock := now }
  | .advance i now =>
    (autoTrade.step s.desk (.advance i now)).map fun desk =>
      { s with desk, closings := s.closingsAfter i now, clock := now }
  | .watch pool now => s.watch pool now
  | .prices responses => s.prices responses
  | .tickNext now => s.tickNext now
  | .closed => s.closed
  | .pick => s.pick
  | .pickForUser scan => s.pickForUser scan
  | .since now => s.since now
  | .readOpenAddrs => s.readOpenAddrs
  | .readRecentClosed => s.readRecentClosed
  | .pickNext => s.pickNext
  | .picked => s.picked

end Trader

def trader : StepSystem Trader TraderStep := ⟨Trader.step⟩

/-- Only the user's own settings are set. -/
theorem settingsOf_update (s : Trader) (userId : String) (patch : SettingsPatch) (now : ℤ) (u : String) :
    (s.updatePortfolioSettings userId patch now).settingsOf u =
      if u = userId then patch.settings (s.settingsOf userId) else s.settingsOf u := by
  change ((s.settings.set userId (patch.settings (s.settingsOf userId))).get u).getD {} = _
  by_cases hu : u = userId
  · subst hu
    rw [KeyValue.get_set_self, Option.getD_some, if_pos rfl]
  · rw [KeyValue.get_set_of_ne hu, if_neg hu]
    rfl

/-! ## What a call can do next -/

/-- The steps of `AutoCall.advance`: what the call was, and the book and the call after it. -/
inductive Advanced (b : AutoBook) (now : ℤ) : AutoCall → AutoBook → AutoCall → Prop
  | portfolio (input : OpenAutoPositionInput) (portfolio : AutoPortfolio)
      (h : b.portfolios.get input.userId = some portfolio) :
      Advanced b now (.findPortfolio input) b (guardBalance input portfolio)
  | noPortfolio (input : OpenAutoPositionInput) : Advanced b now (.findPortfolio input) b (.createPortfolio input)
  | created (input : OpenAutoPositionInput) (portfolio : AutoPortfolio) (b' : AutoBook)
      (h : b.createPortfolio input.userId now = some (portfolio, b')) :
      Advanced b now (.createPortfolio input) b' (guardBalance input portfolio)
  | raced (input : OpenAutoPositionInput) : Advanced b now (.createPortfolio input) b .failed
  | opened (input : OpenAutoPositionInput) (portfolio : AutoPortfolio) (b' : AutoBook)
      (h : b.openTx input portfolio now = .ok b') :
      Advanced b now (.openTx input portfolio) b' (.opened (b'.positions.findToken input.userId input.tokenAddress))
  | taken (input : OpenAutoPositionInput) (portfolio : AutoPortfolio) :
      Advanced b now (.openTx input portfolio) b (.findExisting input)
  | refused (input : OpenAutoPositionInput) (portfolio : AutoPortfolio) :
      Advanced b now (.openTx input portfolio) b .failed
  | existing (input : OpenAutoPositionInput) :
      Advanced b now (.findExisting input) b (.opened (b.positions.findToken input.userId input.tokenAddress))
  | position (id : ℕ) (decision : CloseDecision) (position : AutoPosition) (h : b.positions.find id = some position) :
      Advanced b now (.findPosition id decision) b (.closeTx position (closedTrade position decision now))
  | noPosition (id : ℕ) (decision : CloseDecision) : Advanced b now (.findPosition id decision) b .failed
  | closed (position : AutoPosition) (trade : AutoTrade) (b' : AutoBook) (h : b.closeTx position trade now = .ok b') :
      Advanced b now (.closeTx position trade) b' .finished
  | gone (position : AutoPosition) (trade : AutoTrade) (e : AutoBook.TxError)
      (h : b.closeTx position trade now = .error e) : Advanced b now (.closeTx position trade) b .failed
  | cleared (userId : String) : Advanced b now (.resetTx userId) (b.resetTx userId) (.resetPortfolio userId)
  | restarted (userId : String) : Advanced b now (.resetPortfolio userId) (b.resetPortfolio userId now) .finished

theorem advanced {b b' : AutoBook} {now : ℤ} {call next : AutoCall} (h : call.advance b now = some (b', next)) :
    Advanced b now call b' next := by
  cases call with
  | findPortfolio input =>
    simp only [AutoCall.advance] at h
    cases hget : b.portfolios.get input.userId with
    | some portfolio =>
      rw [hget] at h
      obtain ⟨rfl, rfl⟩ := Prod.mk.inj (Option.some.inj h)
      exact .portfolio input portfolio hget
    | none =>
      rw [hget] at h
      obtain ⟨rfl, rfl⟩ := Prod.mk.inj (Option.some.inj h)
      exact .noPortfolio input
  | createPortfolio input =>
    simp only [AutoCall.advance] at h
    cases hcreate : b.createPortfolio input.userId now with
    | some created =>
      rw [hcreate] at h
      obtain ⟨rfl, rfl⟩ := Prod.mk.inj (Option.some.inj h)
      exact .created input created.1 created.2 hcreate
    | none =>
      rw [hcreate] at h
      obtain ⟨rfl, rfl⟩ := Prod.mk.inj (Option.some.inj h)
      exact .raced input
  | openTx input portfolio =>
    simp only [AutoCall.advance] at h
    cases htx : b.openTx input portfolio now with
    | ok committed =>
      rw [htx] at h
      obtain ⟨rfl, rfl⟩ := Prod.mk.inj (Option.some.inj h)
      exact .opened input portfolio committed htx
    | error e =>
      rw [htx] at h
      cases e with
      | uniqueViolation =>
        obtain ⟨rfl, rfl⟩ := Prod.mk.inj (Option.some.inj h)
        exact .taken input portfolio
      | recordNotFound =>
        obtain ⟨rfl, rfl⟩ := Prod.mk.inj (Option.some.inj h)
        exact .refused input portfolio
  | findExisting input =>
    obtain ⟨rfl, rfl⟩ := Prod.mk.inj (Option.some.inj h)
    exact .existing input
  | findPosition id decision =>
    simp only [AutoCall.advance] at h
    cases hfind : b.positions.find id with
    | some position =>
      rw [hfind] at h
      obtain ⟨rfl, rfl⟩ := Prod.mk.inj (Option.some.inj h)
      exact .position id decision position hfind
    | none =>
      rw [hfind] at h
      obtain ⟨rfl, rfl⟩ := Prod.mk.inj (Option.some.inj h)
      exact .noPosition id decision
  | closeTx position trade =>
    simp only [AutoCall.advance] at h
    cases htx : b.closeTx position trade now with
    | ok committed =>
      rw [htx] at h
      obtain ⟨rfl, rfl⟩ := Prod.mk.inj (Option.some.inj h)
      exact .closed position trade committed htx
    | error e =>
      rw [htx] at h
      obtain ⟨rfl, rfl⟩ := Prod.mk.inj (Option.some.inj h)
      exact .gone position trade e htx
  | resetTx userId =>
    obtain ⟨rfl, rfl⟩ := Prod.mk.inj (Option.some.inj h)
    exact .cleared userId
  | resetPortfolio userId =>
    obtain ⟨rfl, rfl⟩ := Prod.mk.inj (Option.some.inj h)
    exact .restarted userId
  | opened position => cases h
  | finished => cases h
  | failed => cases h

/-! ## What a step does -/

/-- One more call. -/
def Trader.call (s : Trader) (call : AutoCall) : Trader :=
  { s with desk := { s.desk with calls := s.desk.calls ++ [call] } }

/-- The steps of the system, each with the state after it. -/
inductive Stepped (s : Trader) : TraderStep → Trader → Prop
  | openManual (userId : String) (dto : ManualOpen) (h : 10 ≤ dto.sizeUsd) :
      Stepped s (.openManual userId dto) (s.call (startOpen (dto.input userId)))
  | closeManual (userId : String) (id : ℕ) (exitPriceUsd : Option ℚ) (p : AutoPosition) :
      Stepped s (.closeManual userId id exitPriceUsd)
        (s.call (.findPosition id ⟨.MANUAL, exitPriceUsd.getD (s.currentPriceUsd p)⟩))
  | reset (userId : String) : Stepped s (.reset userId) (s.call (.resetTx userId))
  | settings (userId : String) (patch : SettingsPatch) (now : ℤ) :
      Stepped s (.updatePortfolioSettings userId patch now)
        { s.updatePortfolioSettings userId patch now with clock := now }
  | advance (i : ℕ) (now : ℤ) (call next : AutoCall) (book : AutoBook) (hcall : s.desk.calls[i]? = some call)
      (h : Advanced s.desk.book now call book next) :
      Stepped s (.advance i now)
        { s with desk := ⟨book, s.desk.calls.set i next⟩, closings := s.closingsAfter i now, clock := now }
  | watch (pool : TokenPool) (now : ℤ) (liveByAddr : KeyValue String ℚ) (batches : ℕ) (h : s.watcher = .idle) :
      Stepped s (.watch pool now)
        { s with clock := now, watcher := .fetching s.desk.book.positions.rows liveByAddr batches }
  | prices (responses : List (Option (List DexPair))) (positions : List AutoPosition) (pooled live : KeyValue String ℚ)
      (batches : ℕ) (h : s.watcher = .fetching positions pooled batches) :
      Stepped s (.prices responses) { s with watcher := .ticking positions live }
  | tickOver (now : ℤ) (liveByAddr : KeyValue String ℚ) (h : s.watcher = .ticking [] liveByAddr) :
      Stepped s (.tickNext now) { s with clock := now, watcher := .idle }
  | noPrice (now : ℤ) (p : AutoPosition) (todo : List AutoPosition) (liveByAddr : KeyValue String ℚ)
      (h : s.watcher = .ticking (p :: todo) liveByAddr) :
      Stepped s (.tickNext now) { s with clock := now, watcher := .ticking todo liveByAddr }
  | kept (now : ℤ) (p : AutoPosition) (todo : List AutoPosition) (liveByAddr : KeyValue String ℚ) (px : ℚ)
      (h : s.watcher = .ticking (p :: todo) liveByAddr) (hdecide : decideExit p px now = none) :
      Stepped s (.tickNext now)
        { s with ticks := s.setTick p px, clock := now, watcher := .ticking todo liveByAddr }
  | fired (now : ℤ) (p : AutoPosition) (todo : List AutoPosition) (liveByAddr : KeyValue String ℚ) (px : ℚ)
      (decision : CloseDecision) (h : s.watcher = .ticking (p :: todo) liveByAddr)
      (hdecide : decideExit p px now = some decision) :
      Stepped s (.tickNext now)
        { s.call (.findPosition p.id decision) with
          clock := now, watcher := .closing s.desk.calls.length todo liveByAddr }
  | closed (i : ℕ) (todo : List AutoPosition) (liveByAddr : KeyValue String ℚ)
      (h : s.watcher = .closing i todo liveByAddr) :
      Stepped s .closed { s with watcher := .ticking todo liveByAddr }
  | pick (h : s.picker = .idle) :
      Stepped s .pick
        { s with
          picker := .users ((s.desk.book.portfolios.filter fun entry => entry.2.autoEnabled).map fun entry =>
            ⟨entry.1, s.settingsOf entry.1⟩) }
  | pickOver (scan : Option (List HotToken)) (h : s.picker = .users []) :
      Stepped s (.pickForUser scan) { s with picker := .idle }
  | passOver (scan : Option (List HotToken)) (row : PickerRow) (todo : List PickerRow)
      (h : s.picker = .users (row :: todo)) :
      Stepped s (.pickForUser scan) { s with picker := .users todo }
  | counted (scan : Option (List HotToken)) (row : PickerRow) (todo : List PickerRow) (slots : ℤ)
      (h : s.picker = .users (row :: todo)) (hslots : 0 < slots)
      (hcount : slots = row.settings.maxConcurrent - s.openCount row.userId) :
      Stepped s (.pickForUser scan) { s with picker := .counted row (scan.getD []) slots todo }
  | since (now : ℤ) (row : PickerRow) (tokens : List HotToken) (slots : ℤ) (todo : List PickerRow)
      (h : s.picker = .counted row tokens slots todo) :
      Stepped s (.since now) { s with clock := now, picker := .reading row tokens slots now none none todo }
  | readOpenAddrs (row : PickerRow) (tokens : List HotToken) (slots readAt : ℤ) (recentClosed : Option (List String))
      (todo : List PickerRow) (h : s.picker = .reading row tokens slots readAt none recentClosed todo) :
      Stepped s .readOpenAddrs
        { s with picker := .read row tokens slots readAt (some (s.openAddrs row.userId)) recentClosed todo }
  | readRecentClosed (row : PickerRow) (tokens : List HotToken) (slots readAt : ℤ) (openAddrs : Option (List String))
      (todo : List PickerRow) (h : s.picker = .reading row tokens slots readAt openAddrs none todo) :
      Stepped s .readRecentClosed
        { s with
          picker := .read row tokens slots readAt openAddrs
            (some (s.recentClosed row.userId (readAt - row.settings.cooldownMinutes * 60000))) todo }
  | passEnds (pass : Pass) (todo : List PickerRow) (h : s.picker = .picking pass todo) :
      Stepped s .pickNext { s with picker := .users todo }
  | skipped (pass : Pass) (todo : List PickerRow) (h : s.picker = .picking pass todo) :
      Stepped s .pickNext { s with picker := .picking { pass with next := pass.next + 1 } todo }
  | chosen (pass : Pass) (todo : List PickerRow) (t : HotToken) (h : s.picker = .picking pass todo)
      (hroom : (pass.picked : ℤ) < pass.slots) (ht : pass.tokens[pass.next]? = some t) (hwants : pass.wants t = true) :
      Stepped s .pickNext
        { s.call (startOpen (pickInput pass.row t)) with
          picker := .opening s.desk.calls.length { pass with next := pass.next + 1 } todo }
  | picked (i : ℕ) (pass : Pass) (todo : List PickerRow) (position : Option AutoPosition)
      (h : s.picker = .opening i pass todo) (hcall : s.desk.calls[i]? = some (.opened position)) :
      Stepped s .picked
        { s with picker := .picking { pass with picked := pass.picked + if position.isSome then 1 else 0 } todo }
  | unpicked (i : ℕ) (pass : Pass) (todo : List PickerRow) (h : s.picker = .opening i pass todo)
      (hcall : s.desk.calls[i]? = some .failed) : Stepped s .picked { s with picker := .picking pass todo }

theorem stepped {s s' : Trader} {e : TraderStep} (h : trader.step s e = some s') : Stepped s e s' := by
  change s.step e = some s' at h
  cases e with
  | openManual userId dto =>
    obtain ⟨hsize, hstart⟩ := Option.ite_none_right_eq_some.mp h
    obtain rfl := Option.some.inj hstart
    exact .openManual userId dto hsize
  | closeManual userId id exitPriceUsd =>
    obtain ⟨p, -, hstart⟩ := Option.bind_eq_some_iff.mp h
    obtain rfl := Option.some.inj hstart
    exact .closeManual userId id exitPriceUsd p
  | reset userId =>
    obtain rfl := Option.some.inj h
    exact .reset userId
  | updatePortfolioSettings userId patch now =>
    obtain rfl := Option.some.inj h
    exact .settings userId patch now
  | advance i now =>
    obtain ⟨desk, hdesk, rfl⟩ := Option.map_eq_some_iff.mp h
    obtain ⟨call, hcall, hnext⟩ := Option.bind_eq_some_iff.mp hdesk
    obtain ⟨⟨book, next⟩, hadvance, rfl⟩ := Option.map_eq_some_iff.mp hnext
    exact .advance i now call next book hcall (advanced hadvance)
  | watch pool now =>
    change s.watch pool now = some s' at h
    unfold Trader.watch at h
    split at h
    · rename_i hw
      obtain rfl := Option.some.inj h
      exact .watch pool now _ _ hw
    · cases h
  | prices responses =>
    change s.prices responses = some s' at h
    unfold Trader.prices at h
    split at h
    · rename_i positions pooled batches hw
      obtain ⟨-, hs⟩ := Option.ite_none_right_eq_some.mp h
      obtain rfl := Option.some.inj hs
      exact .prices responses positions pooled _ batches hw
    · cases h
  | tickNext now =>
    change s.tickNext now = some s' at h
    unfold Trader.tickNext at h
    split at h
    · rename_i liveByAddr hw
      obtain rfl := Option.some.inj h
      exact .tickOver now liveByAddr hw
    · rename_i p todo liveByAddr hw
      split at h
      · obtain rfl := Option.some.inj h
        exact .noPrice now p todo liveByAddr hw
      · rename_i px _
        split at h
        · rename_i hdecide
          obtain rfl := Option.some.inj h
          exact .kept now p todo liveByAddr px hw hdecide
        · rename_i decision hdecide
          obtain rfl := Option.some.inj h
          exact .fired now p todo liveByAddr px decision hw hdecide
    · cases h
  | closed =>
    change s.closed = some s' at h
    unfold Trader.closed at h
    split at h
    · rename_i i todo liveByAddr hw
      obtain ⟨call, -, hs⟩ := Option.bind_eq_some_iff.mp h
      obtain ⟨-, hs⟩ := Option.ite_none_right_eq_some.mp hs
      obtain rfl := Option.some.inj hs
      exact .closed i todo liveByAddr hw
    · cases h
  | pick =>
    change s.pick = some s' at h
    unfold Trader.pick at h
    split at h
    · rename_i hp
      obtain rfl := Option.some.inj h
      exact .pick hp
    · cases h
  | pickForUser scan =>
    change s.pickForUser scan = some s' at h
    unfold Trader.pickForUser at h
    split at h
    · rename_i hp
      obtain rfl := Option.some.inj h
      exact .pickOver scan hp
    · rename_i row todo hp
      dsimp only at h
      by_cases hnone : scan.getD [] = [] ∨ row.settings.maxConcurrent - s.openCount row.userId ≤ 0
      · rw [if_pos hnone] at h
        obtain rfl := Option.some.inj h
        exact .passOver scan row todo hp
      · rw [if_neg hnone] at h
        obtain rfl := Option.some.inj h
        exact .counted scan row todo _ hp (not_le.mp fun hle => hnone (.inr hle)) rfl
    · cases h
  | since now =>
    change s.since now = some s' at h
    unfold Trader.since at h
    split at h
    · rename_i row tokens slots todo hp
      obtain rfl := Option.some.inj h
      exact .since now row tokens slots todo hp
    · cases h
  | readOpenAddrs =>
    change s.readOpenAddrs = some s' at h
    unfold Trader.readOpenAddrs at h
    split at h
    · rename_i row tokens slots readAt recentClosed todo hp
      obtain rfl := Option.some.inj h
      exact .readOpenAddrs row tokens slots readAt recentClosed todo hp
    · cases h
  | readRecentClosed =>
    change s.readRecentClosed = some s' at h
    unfold Trader.readRecentClosed at h
    split at h
    · rename_i row tokens slots readAt openAddrs todo hp
      obtain rfl := Option.some.inj h
      exact .readRecentClosed row tokens slots readAt openAddrs todo hp
    · cases h
  | pickNext =>
    change s.pickNext = some s' at h
    unfold Trader.pickNext at h
    split at h
    · rename_i pass todo hp
      by_cases hfull : pass.slots ≤ pass.picked
      · rw [if_pos hfull] at h
        obtain rfl := Option.some.inj h
        exact .passEnds pass todo hp
      · rw [if_neg hfull] at h
        split at h
        · obtain rfl := Option.some.inj h
          exact .passEnds pass todo hp
        · rename_i t ht
          dsimp only at h
          by_cases hwants : pass.wants t = true ∧ t.score.isInt = true
          · rw [if_pos hwants] at h
            obtain rfl := Option.some.inj h
            exact .chosen pass todo t hp (not_le.mp hfull) ht hwants.1
          · rw [if_neg hwants] at h
            obtain rfl := Option.some.inj h
            exact .skipped pass todo hp
    · cases h
  | picked =>
    change s.picked = some s' at h
    unfold Trader.picked at h
    split at h
    · rename_i i pass todo hp
      split at h
      · rename_i position hcall
        obtain rfl := Option.some.inj h
        exact .picked i pass todo position hp hcall
      · rename_i hcall
        obtain rfl := Option.some.inj h
        exact .unpicked i pass todo hp hcall
      · cases h
    · cases h

/-- The desk makes its own steps, whoever starts them; only the settings are set from outside. -/
theorem desk_step {s s' : Trader} {e : TraderStep} (h : trader.step s e = some s') :
    s'.desk = s.desk ∨
    (∃ e', autoTrade.step s.desk e' = some s'.desk ∧ ∀ i now, e' = .advance i now → e = .advance i now) ∨
    ∃ userId patch now, s'.desk = (s.updatePortfolioSettings userId patch now).desk := by
  cases stepped h with
  | openManual userId dto hsize =>
    exact .inr (.inl ⟨.openPosition (dto.input userId), rfl, fun i now heq => by cases heq⟩)
  | closeManual userId id exitPriceUsd p =>
    exact .inr (.inl ⟨.closePosition id _, rfl, fun i now heq => by cases heq⟩)
  | reset userId => exact .inr (.inl ⟨.reset userId, rfl, fun i now heq => by cases heq⟩)
  | settings userId patch now => exact .inr (.inr ⟨userId, patch, now, rfl⟩)
  | advance i now call next book hcall hadvanced =>
    obtain ⟨desk, hdesk, heq⟩ := Option.map_eq_some_iff.mp h
    have hsame : desk = ⟨book, s.desk.calls.set i next⟩ := congrArg Trader.desk heq
    refine .inr (.inl ⟨.advance i now, ?_, fun j at_ heq => by cases heq; rfl⟩)
    rw [hdesk, hsame]
  | fired now p todo liveByAddr px decision hw hdecide =>
    exact .inr (.inl ⟨.closePosition p.id decision, rfl, fun i now heq => by cases heq⟩)
  | chosen pass todo t hp hroom ht hwants =>
    exact .inr (.inl ⟨.openPosition (pickInput pass.row t), rfl, fun i now heq => by cases heq⟩)
  | _ => exact .inl rfl

end SuperAi.AutoTrading
