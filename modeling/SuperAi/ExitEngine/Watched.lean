import SuperAi.ExitEngine.ExitEngineService
import SuperAi.HotTokens.LiveData
import Mathlib.Data.List.Sort
import Mathlib.Data.List.Perm.Subperm

/-! # Watched positions

`processOpenTrades` of the exit engine over the token pool: the oldest open trades are looked up one by one, and a
trade whose token has no market cap is passed over. A position that the pool has archived for its age is never
looked at again (`not_watched_of_stale`), nor is one behind a batch of older ones (`not_mem_batch`); when all open
trades are watched after a refresh is `allWatched_iff`.
-/
namespace SuperAi.ExitEngine
open SuperAi.Foundations SuperAi.HotTokens
set_option autoImplicit false

/-! ## The tick -/

structure WatchConfig where
  BATCH_SIZE : ℕ := 50
  exit : ExitConfig
  pool : PoolConfig := {}

/-- The open trades with their numbers; where trades were created at one time the database answers them in the order
of this list. -/
def openTrades (cfg : ExitConfig) (trades : List Trade) : List (Trade × ℕ) :=
  trades.zipIdx.filter fun row => row.1.isOpen cfg

def older (row other : Trade × ℕ) : Prop := row.1.createdAt ≤ other.1.createdAt

instance : Std.Total older := ⟨fun row other => le_total row.1.createdAt other.1.createdAt⟩

instance : IsTrans (Trade × ℕ) older := ⟨fun _ _ _ => le_trans⟩

instance : DecidableRel older := fun row other => inferInstanceAs (Decidable (row.1.createdAt ≤ other.1.createdAt))

def batch (cfg : WatchConfig) (trades : List Trade) : List (Trade × ℕ) :=
  ((openTrades cfg.exit trades).insertionSort older).take cfg.BATCH_SIZE

/-- What the evaluation reads of an entry. -/
def liveToken (entry : InternalEntry) : LiveToken where
  marketCapUsd := entry.live.map PoolLiveData.marketCapUsd
  liquidityUsd := entry.live.map PoolLiveData.liquidityUsd
  priceChange5m := entry.live.map PoolLiveData.priceChange5m

def hasMarketCap (live : Option LiveToken) : Bool := (live.bind LiveToken.marketCapUsd).any fun mcap => decide (0 < mcap)

/-- The first two steps of `evaluateTrade`. -/
def lookUp (pool : TokenPool) (trade : Trade) (now : ℤ) : TokenPool × Option LiveToken :=
  let pool := pool.register trade.tokenOut { source := some "exit_engine", capturedAt := some trade.createdAt } now
  (pool, (pool.getLive trade.tokenOut).map liveToken)

/-- `processOpenTrades`: the pool, and the rows that come past the check for missing data. -/
def watchRows (pool : TokenPool) (now : ℤ) : List (Trade × ℕ) → TokenPool × List (Trade × ℕ)
  | [] => (pool, [])
  | row :: rows =>
    let (pool, live) := lookUp pool row.1 now
    let (pool, watched) := watchRows pool now rows
    (pool, if hasMarketCap live then row :: watched else watched)

def processOpenTrades (cfg : WatchConfig) (pool : TokenPool) (trades : List Trade) (now : ℤ) :
    TokenPool × List (Trade × ℕ) :=
  watchRows pool now (batch cfg trades)

variable {cfg : WatchConfig} {pool : TokenPool} {trades : List Trade} {row : Trade × ℕ} {now : ℤ}

/-- A trade without a market cap is not evaluated; one with a market cap is, if there is an entry market cap. -/
theorem exitContext_isSome (c : ExitConfig) (m : EngineMemory) (trade : Trade) (inp : TickInput) :
    (exitContext c m trade inp).isSome = (hasMarketCap inp.live && (entryMcap trade inp).isSome) := by
  unfold exitContext hasMarketCap
  cases inp.live with
  | none => rfl
  | some live =>
    cases hmcap : live.marketCapUsd with
    | none => simp [hmcap]
    | some mcap =>
      by_cases hpos : 0 < mcap
      · cases entryMcap trade inp <;> simp [Option.filter, hmcap, hpos]
      · simp [Option.filter, hmcap, hpos]

/-! ## Rows of a tick -/

theorem openTrades_nodup (c : ExitConfig) (trades : List Trade) : (openTrades c trades).Nodup := by
  refine List.Nodup.filter _ (List.Nodup.of_map Prod.snd ?_)
  rw [List.zipIdx_map_snd]
  exact List.nodup_range'

theorem hasMarketCap_iff {token : String} :
    hasMarketCap ((pool.getLive token).map liveToken) = true ↔ pool.Priced token := by
  unfold hasMarketCap TokenPool.getLive TokenPool.Priced
  cases pool.registry.get token with
  | none => simp
  | some entry =>
    cases harchived : entry.archived with
    | true => simp [Option.filter, harchived]
    | false => cases hlive : entry.live <;> simp [Option.filter, liveToken, hlive, harchived]

theorem hasMarketCap_lookUp {trade : Trade} : hasMarketCap (lookUp pool trade now).2 = true ↔ pool.Priced trade.tokenOut :=
  hasMarketCap_iff.trans TokenPool.priced_register

theorem priced_lookUp {trade : Trade} {token : String} : (lookUp pool trade now).1.Priced token ↔ pool.Priced token :=
  TokenPool.priced_register

/-- What a tick registers gives no other row of it a market cap. -/
theorem mem_watchRows {rows : List (Trade × ℕ)} :
    row ∈ (watchRows pool now rows).2 ↔ row ∈ rows ∧ pool.Priced row.1.tokenOut := by
  induction rows generalizing pool with
  | nil => simp [watchRows]
  | cons next rows ih =>
    have hrest := @ih (lookUp pool next.1 now).1
    rw [priced_lookUp] at hrest
    unfold watchRows
    dsimp only
    by_cases hnext : hasMarketCap (lookUp pool next.1 now).2 = true
    · rw [if_pos hnext, List.mem_cons, List.mem_cons, hrest]
      have hpriced := hasMarketCap_lookUp.mp hnext
      constructor
      · rintro (rfl | ⟨hmem, hrow⟩)
        · exact ⟨.inl rfl, hpriced⟩
        · exact ⟨.inr hmem, hrow⟩
      · rintro ⟨rfl | hmem, hrow⟩
        · exact .inl rfl
        · exact .inr ⟨hmem, hrow⟩
    · rw [if_neg hnext, List.mem_cons, hrest]
      have hunpriced := fun hpriced => hnext (hasMarketCap_lookUp.mpr hpriced)
      constructor
      · exact fun h => ⟨.inr h.1, h.2⟩
      · rintro ⟨rfl | hmem, hrow⟩
        · exact absurd hrow hunpriced
        · exact ⟨hmem, hrow⟩

theorem mem_watched : row ∈ (processOpenTrades cfg pool trades now).2 ↔
    row ∈ batch cfg trades ∧ pool.Priced row.1.tokenOut := mem_watchRows

/-- All elements are among the first `n` of a rearrangement if and only if there are no more than `n`. -/
theorem forall_mem_take_iff {α : Type} {l l' : List α} {n : ℕ} (hnodup : l.Nodup) (hperm : l'.Perm l) :
    (∀ x ∈ l, x ∈ l'.take n) ↔ l.length ≤ n := by
  constructor
  · intro hall
    have hlength := (hnodup.subperm hall).length_le
    rw [List.length_take] at hlength
    omega
  · intro hlength x hx
    rw [List.take_of_length_le (hperm.length_eq.trans_le hlength)]
    exact hperm.mem_iff.mpr hx

/-- As many strictly older open trades as a batch holds keep a trade out of it. -/
theorem not_mem_batch {ahead : List (Trade × ℕ)} (hnodup : ahead.Nodup) (hopen : ahead ⊆ openTrades cfg.exit trades)
    (hahead : ∀ other ∈ ahead, other.1.createdAt < row.1.createdAt) (hmany : cfg.BATCH_SIZE ≤ ahead.length) :
    row ∉ batch cfg trades := by
  intro hrow
  unfold batch at hrow
  set sorted := (openTrades cfg.exit trades).insertionSort older with hsorted
  have hpairs : sorted.Pairwise older := List.pairwise_insertionSort older _
  have hbefore : ∀ other ∈ ahead, other ∈ sorted.take cfg.BATCH_SIZE := by
    intro other hother
    have hmem : other ∈ sorted := (List.mem_insertionSort _).mpr (hopen hother)
    rw [← List.take_append_drop cfg.BATCH_SIZE sorted] at hmem hpairs
    rcases List.mem_append.mp hmem with htake | hdrop
    · exact htake
    · have hle := (List.pairwise_append.mp hpairs).2.2 row hrow other hdrop
      exact absurd (hahead other hother) (not_lt_of_ge hle)
  have hfresh : row ∉ ahead := fun hmem => lt_irrefl _ (hahead row hmem)
  have hall : row :: ahead ⊆ sorted.take cfg.BATCH_SIZE := List.cons_subset.mpr ⟨hrow, hbefore⟩
  have hlength := ((List.nodup_cons.mpr ⟨hfresh, hnodup⟩).subperm hall).length_le
  rw [List.length_cons, List.length_take] at hlength
  omega

/-! ## Watched trades -/

/-- A position whose token a refresh finds too old is not evaluated in any later tick. -/
theorem not_watched_of_stale {inp : RefreshInput} {entry : InternalEntry}
    (h : pool.registry.get row.1.tokenOut = some entry) (hage : cfg.pool.staleMs < inp.now - entry.capturedAt)
    (calls : List PoolCall) :
    row ∉ (processOpenTrades cfg ((pool.refresh cfg.pool inp).after cfg.pool calls) trades now).2 := by
  intro hrow
  exact (mem_watched.mp hrow).2.not_archived ((TokenPool.archived_of_stale h hage).after calls)

/-- **Watched positions.** After any calls of the pool, whose last refresh found data for the tokens of all open
trades, a tick evaluates every open trade if and only if one batch holds them all and the pool keeps each token. -/
theorem allWatched_iff (start : TokenPool) {before later : List PoolCall} {inp : RefreshInput}
    (hlater : ∀ inp, .refresh inp ∉ later) (hdata : ∀ row ∈ openTrades cfg.exit trades, inp.HasData row.1.tokenOut) :
    (∀ row ∈ openTrades cfg.exit trades,
      row ∈ (processOpenTrades cfg (start.after cfg.pool (before ++ .refresh inp :: later)) trades now).2) ↔
    (openTrades cfg.exit trades).length ≤ cfg.BATCH_SIZE ∧
      ∀ row ∈ openTrades cfg.exit trades,
        Kept cfg.pool (start.after cfg.pool before) inp row.1.tokenOut ∧ .archiveAddress row.1.tokenOut ∉ later := by
  have hafter : start.after cfg.pool (before ++ .refresh inp :: later) =
      ((start.after cfg.pool before).refresh cfg.pool inp).after cfg.pool later := List.foldl_append
  have hrow : ∀ row ∈ openTrades cfg.exit trades,
      (row ∈ (processOpenTrades cfg (start.after cfg.pool (before ++ .refresh inp :: later)) trades now).2 ↔
        row ∈ batch cfg trades ∧ Kept cfg.pool (start.after cfg.pool before) inp row.1.tokenOut ∧
          .archiveAddress row.1.tokenOut ∉ later) := by
    intro row hopen
    rw [mem_watched, hafter, TokenPool.priced_after hlater, TokenPool.priced_refresh (hdata row hopen)]
  have hbatch := forall_mem_take_iff (n := cfg.BATCH_SIZE) (openTrades_nodup cfg.exit trades)
    (List.perm_insertionSort older (openTrades cfg.exit trades))
  rw [← hbatch]
  constructor
  · intro hall
    have hboth := fun row hopen => (hrow row hopen).mp (hall row hopen)
    exact ⟨fun row hopen => (hboth row hopen).1, fun row hopen => (hboth row hopen).2⟩
  · rintro ⟨hmem, hkept⟩ row hopen
    exact (hrow row hopen).mpr ⟨hmem row hopen, hkept row hopen⟩

/-! ## Two histories -/

/-- A source that answers every batch with a pair of each token. -/
def answering (now : ℤ) : RefreshInput where
  now := now
  fetch addresses := addresses.map fun addr => { baseToken := some addr, marketCap := some 50000 }

theorem answering_hasData {time : ℤ} {token : String} (h : token ≠ "") : (answering time).HasData token := by
  intro addresses _ hmem
  constructor
  · refine ⟨_, List.mem_map.mpr ⟨token, hmem, rfl⟩, .inl ?_⟩
    exact Option.filter_eq_some_iff.mpr ⟨rfl, by simpa using h⟩
  · intro pair hpair _
    obtain ⟨addr, -, rfl⟩ := List.mem_map.mp hpair
    exact (by decide : (0 : ℚ) < 50000)

def paperTrade : Trade where
  tokenOut := "mint"
  strategyId := none
  mode := .PAPER
  createdAt := 0
  amountOut := some 1000
  priceUsd := some 10

def watchConfig : WatchConfig where
  exit := { sqrt := fun x => x }

theorem paperTrade_hasData {time : ℤ} : ∀ row ∈ openTrades watchConfig.exit [paperTrade],
    (answering time).HasData row.1.tokenOut := by
  intro row hrow
  obtain rfl := List.mem_singleton.mp hrow
  exact answering_hasData (by decide)

/-- The position's first tick, which registers the token. -/
def firstTick : PoolCall := .register "mint" { source := some "exit_engine", capturedAt := some 0 } 1000

theorem young_trade_watched : (paperTrade, 0) ∈ openTrades watchConfig.exit [paperTrade] ∧
    (paperTrade, 0) ∈ (processOpenTrades watchConfig
      (TokenPool.after watchConfig.pool {} ([firstTick] ++ .refresh (answering 60000) :: [])) [paperTrade] 90000).2 := by
  have hopen : (paperTrade, 0) ∈ openTrades watchConfig.exit [paperTrade] := List.mem_cons_self
  refine ⟨hopen, (allWatched_iff {} (fun _ => List.not_mem_nil) paperTrade_hasData).mpr ⟨by decide, ?_⟩ _ hopen⟩
  intro row hrow
  obtain rfl := List.mem_singleton.mp hrow
  exact ⟨⟨rfl, by decide⟩, List.not_mem_nil⟩

/-- A day and a second after the trade, a refresh archives its token. -/
theorem old_trade_not_watched : ¬ ∀ (cfg : WatchConfig) (start : TokenPool) (before later : List PoolCall)
    (inp : RefreshInput) (trades : List Trade) (now : ℤ), (∀ inp, .refresh inp ∉ later) →
    (∀ row ∈ openTrades cfg.exit trades, inp.HasData row.1.tokenOut) →
    ∀ row ∈ openTrades cfg.exit trades,
      row ∈ (processOpenTrades cfg (start.after cfg.pool (before ++ .refresh inp :: later)) trades now).2 := by
  intro h
  have hwatched := h watchConfig {} [firstTick] [] (answering 86401000) [paperTrade] 86402000
    (fun _ => List.not_mem_nil) paperTrade_hasData (paperTrade, 0) List.mem_cons_self
  have hentry : (TokenPool.after watchConfig.pool {} [firstTick]).registry.get "mint" = some
      { symbol := none, source := "exit_engine", capturedAt := 0, registeredAt := 1000 } := rfl
  exact not_watched_of_stale hentry (by decide) [] hwatched

end SuperAi.ExitEngine
