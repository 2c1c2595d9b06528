import SuperAi.Foundations.KeyValue
import Mathlib.Algebra.Order.Ring.Rat

/-! # The token pool

`TokenPoolService` (`hot-tokens/token-pool.service.ts`): the tokens whose market data is refreshed. The registry is in
the order of its insertions, and times are in milliseconds. What the database and DexScreener answer to a `refresh`
is its input.
-/
namespace SuperAi.HotTokens
open SuperAi.Foundations
set_option autoImplicit false

/-! ## Entries -/

structure PoolConfig where
  STALE_HOURS : ℤ := 24
  deriving DecidableEq, Repr

def PoolConfig.staleMs (cfg : PoolConfig) : ℤ := cfg.STALE_HOURS * 3600000

structure PoolLiveData where
  priceUsd : ℚ
  marketCapUsd : ℚ
  priceChange1h : ℚ
  priceChange5m : ℚ
  volume24hUsd : ℚ
  liquidityUsd : ℚ
  lastRefreshed : ℤ
  deriving DecidableEq, Repr

/-- An entry under its address; the live data come all at once. -/
structure InternalEntry where
  symbol : Option String
  source : String
  capturedAt : ℤ
  registeredAt : ℤ
  archived : Bool := false
  live : Option PoolLiveData := none
  deriving DecidableEq, Repr

structure RegisterMeta where
  symbol : Option String := none
  source : Option String := none
  capturedAt : Option ℤ := none
  deriving DecidableEq, Repr

def InternalEntry.fresh (about : RegisterMeta) (now : ℤ) : InternalEntry where
  symbol := about.symbol
  source := about.source.getD "unknown"
  capturedAt := about.capturedAt.getD now
  registeredAt := now

structure TokenPool where
  registry : KeyValue String InternalEntry := []
  deriving DecidableEq, Repr

/-! ## DexScreener -/

/-- A pair of the answer; `baseToken` is the address of its base token, `priceUsd` what `Number` makes of the text. -/
structure DexPair where
  baseToken : Option String
  priceUsd : Option ℚ := none
  priceChange1h : Option ℚ := none
  priceChange5m : Option ℚ := none
  volume24h : Option ℚ := none
  marketCap : Option ℚ := none
  fdv : Option ℚ := none
  liquidityUsd : Option ℚ := none
  deriving DecidableEq, Repr

namespace DexPair

/-- A pair without an address is passed over. -/
def address (pair : DexPair) : Option String := pair.baseToken.filter fun addr => addr != ""

def liq (pair : DexPair) : ℚ := pair.liquidityUsd.getD 0

/-- `pair.marketCap ?? pair.fdv ?? 0`. -/
def marketCapUsd (pair : DexPair) : ℚ := (pair.marketCap.or pair.fdv).getD 0

def toLive (pair : DexPair) (refreshedAt : ℤ) : PoolLiveData where
  priceUsd := pair.priceUsd.getD 0
  marketCapUsd := pair.marketCapUsd
  priceChange1h := pair.priceChange1h.getD 0
  priceChange5m := pair.priceChange5m.getD 0
  volume24hUsd := pair.volume24h.getD 0
  liquidityUsd := pair.liq
  lastRefreshed := refreshedAt

/-- The pair is kept if it is the first of its base token or has more liquidity than the one kept. -/
def keep (best : KeyValue String DexPair) (pair : DexPair) : KeyValue String DexPair :=
  match pair.address with
  | none => best
  | some addr =>
    match best.get addr with
    | none => best.set addr pair
    | some held => if held.liq < pair.liq then best.set addr pair else best

def best (pairs : List DexPair) : KeyValue String DexPair := pairs.foldl keep []

end DexPair

structure SeedRow where
  address : String
  symbol : Option String
  source : String
  capturedAt : ℤ
  deriving DecidableEq, Repr

/-- `rows` are the active and graduated snapshots, none if the query fails; `fetch` gives the pairs that DexScreener
answers for a batch of addresses, none if the request fails. -/
structure RefreshInput where
  now : ℤ
  rows : List SeedRow := []
  fetch : List String → List DexPair

namespace RefreshInput

def fetchDexBatch (inp : RefreshInput) (addresses : List String) : List (String × PoolLiveData) :=
  let best := DexPair.best (inp.fetch addresses)
  addresses.filterMap fun addr =>
    ((best.get addr).or (best.get addr.toLower)).map fun pair => (addr, pair.toLive inp.now)

end RefreshInput

/-! ## The service -/

def chunk {α : Type} (arr : List α) (size : ℕ) : List (List α) :=
  (List.range ((arr.length + size - 1) / size)).map fun k => (arr.drop (k * size)).take size

def DEX_BATCH : ℕ := 30

def InternalEntry.isStale (cfg : PoolConfig) (now : ℤ) (entry : InternalEntry) : Bool :=
  decide (cfg.staleMs < now - entry.capturedAt)

namespace TokenPool
variable (cfg : PoolConfig) (pool : TokenPool)

/-- No-op if already registered. -/
def register (address : String) (about : RegisterMeta) (now : ℤ) : TokenPool :=
  if address = "" ∨ (pool.registry.get address).isSome = true then pool
  else { pool with registry := pool.registry ++ [(address, .fresh about now)] }

/-- The entry for a single address, unless it is unknown or archived. -/
def getLive (address : String) : Option InternalEntry :=
  (pool.registry.get address).filter fun entry => !entry.archived

/-- A change of the entries in place. -/
def change (f : String → InternalEntry → InternalEntry) : TokenPool :=
  { pool with registry := pool.registry.map fun entry => (entry.1, f entry.1 entry.2) }

def archiveAddress (address : String) : TokenPool :=
  pool.change fun addr entry => if addr = address then { entry with archived := true } else entry

def seedFromPrisma (rows : List SeedRow) (now : ℤ) : TokenPool :=
  rows.foldl (fun pool row => pool.register row.address ⟨row.symbol, some row.source, some row.capturedAt⟩ now) pool

/-- The entries that are too old are archived. -/
def archiveStale (now : ℤ) : TokenPool :=
  pool.change fun _ entry => if entry.isStale cfg now then { entry with archived := true } else entry

def active : List String := (pool.registry.filter fun entry => !entry.2.archived).map Prod.fst

def assign (update : String × PoolLiveData) : TokenPool :=
  pool.change fun addr entry => if addr = update.1 then { entry with live := some update.2 } else entry

/-- A call of `refresh` while another one is under way does nothing and is no step here. -/
def refresh (inp : RefreshInput) : TokenPool :=
  let swept := (pool.seedFromPrisma inp.rows inp.now).archiveStale cfg inp.now
  ((chunk swept.active DEX_BATCH).flatMap inp.fetchDexBatch).foldl assign swept

end TokenPool

/-- A call of the service. -/
inductive PoolCall
  | register (address : String) (about : RegisterMeta) (now : ℤ)
  | archiveAddress (address : String)
  | refresh (inp : RefreshInput)

namespace TokenPool

def call (cfg : PoolConfig) (pool : TokenPool) : PoolCall → TokenPool
  | .register address about now => pool.register address about now
  | .archiveAddress address => pool.archiveAddress address
  | .refresh inp => pool.refresh cfg inp

def after (cfg : PoolConfig) (pool : TokenPool) (calls : List PoolCall) : TokenPool := calls.foldl (call cfg) pool

end TokenPool

end SuperAi.HotTokens
