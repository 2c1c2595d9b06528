import SuperAi.TokenResolver.Ranking
import SuperAi.Common.BoundedCache
import SuperAi.Foundations.JsonAccess

/-! # The token resolver

`TokenResolverService` (`token-resolver/token-resolver.service.ts`) with `token-resolver/input-classifier.ts` and
`token-analysis/chain-detector.ts`. What DexScreener and CoinGecko answer is a value of `Upstream`, with `none` and
`[]` where the call is caught. A lookup of a ticker looks into the cache, asks, ranks, and stores its result.
-/
namespace SuperAi.TokenResolver
open SuperAi.Auth SuperAi.Common SuperAi.Foundations
set_option autoImplicit false

/-! ## What the user writes -/

def isBase58 (c : Char) : Bool := c.isAlphanum && !(['0', 'O', 'I', 'l'].contains c)

def isHex (c : Char) : Bool := c.isDigit || ('a' ≤ c && c ≤ 'f') || ('A' ≤ c && c ≤ 'F')

def trim (cs : List Char) : List Char := (cs.dropWhile isJsSpace).rdropWhile isJsSpace

def detectChain (address : List Char) : Option Chain :=
  let a := trim address
  if 32 ≤ a.length ∧ a.length ≤ 44 ∧ a.all isBase58 then some .SOLANA
  else if a.take 2 = ['0', 'x'] ∧ a.length = 42 ∧ (a.drop 2).all isHex then some .EVM
  else none

inductive ClassifiedInput
  | address (chain : Chain) (value : String)
  | ticker (symbol : String)
  | unresolvable
  deriving DecidableEq, Repr

/-- `TICKER_RE`. -/
def isTicker (cs : List Char) : Bool := decide (1 ≤ cs.length ∧ cs.length ≤ 15) && cs.all Char.isAlphanum

def classifyInput (raw : String) : ClassifiedInput :=
  match trim raw.toList with
  | [] => .unresolvable
  | '$' :: rest => if isTicker (trim rest) then .ticker (String.ofList (trim rest)) else .unresolvable
  | trimmed =>
    match detectChain trimmed with
    | some chain => .address chain (String.ofList trimmed)
    | none => if 2 ≤ trimmed.length ∧ isTicker trimmed then .ticker (String.ofList trimmed) else .unresolvable

/-! ## What the providers answer -/

structure BaseToken where
  address : String
  symbol : Option String
  name : Option String
  deriving DecidableEq, Repr

structure DexSearchPair where
  chainId : String
  url : Option String
  pairCreatedAt : Option ℚ
  baseToken : BaseToken
  priceUsd : Option String
  liquidityUsd : Option ℚ
  volumeH24 : Option ℚ
  marketCap : Option ℚ
  fdv : Option ℚ
  buys : Option ℚ
  sells : Option ℚ
  imageUrl : Option String
  deriving DecidableEq, Repr

structure TokenMeta where
  chainId : Option String
  symbol : Option String
  name : Option String
  priceUsd : Option ℚ
  marketCapUsd : Option ℚ
  fdvUsd : Option ℚ
  liquidityUsd : Option ℚ
  volume24hUsd : Option ℚ
  txns24h : Option (Option ℚ × Option ℚ)
  pairAgeHours : Option ℚ
  url : Option String
  deriving DecidableEq, Repr

structure CgSearchCoin where
  id : String
  name : String
  symbol : String
  market_cap_rank : Option ℚ
  deriving DecidableEq, Repr

structure CgCoinMarket where
  current_price : Option ℚ
  market_cap : Option ℚ
  total_volume : Option ℚ
  image : Option String
  deriving DecidableEq, Repr

structure Upstream where
  search : List DexSearchPair
  getToken : Chain → String → Option TokenMeta
  searchBySymbol : List CgSearchCoin
  markets : String → Option CgCoinMarket
  getCoinPlatforms : String → List (String × String)

structure ResolveOptions where
  chain : Option Chain := none
  limit : Option ℤ := none
  minLiquidityUsd : Option ℚ := none
  deriving DecidableEq, Repr

/-! ## Tables -/

def EVM_CHAINS : List String :=
  ["ethereum", "bsc", "base", "arbitrum", "optimism", "polygon", "avalanche", "zksync", "linea", "blast", "scroll",
    "mantle", "fantom", "cronos", "gnosis", "celo", "moonbeam", "aurora"]

def chainIdToChain (chainId : String) : Option Chain :=
  if chainId = "solana" then some .SOLANA else if chainId ∈ EVM_CHAINS then some .EVM else none

def CG_FALLBACK_TOKEN : List (String × String × String) :=
  [("bitcoin", "solana", "5imLbJMGssyY78uCNk9NucsWbDh2kvtKLyXQJuY8XtkP"),
    ("ethereum", "bsc", "0x2170Ed0880ac9A755fd29B2688956BD959F933F8"),
    ("binancecoin", "bsc", "0xbb4CdB9CBd36B01bD1cBaEBF2De08d9173bc095c"),
    ("ripple", "bsc", "0x1D2F0da169ceB9fC7B3144628dB156f3F6c60dBE"),
    ("solana", "solana", "So11111111111111111111111111111111111111112"),
    ("dogecoin", "bsc", "0xbA2aE424d960c26247Dd6c32edC70B295c744C43"),
    ("usd-coin", "solana", "EPjFWdd5AufqSSqeM2qN1xzybapC8G4wEGGkZwyTDt1v"),
    ("tether", "solana", "Es9vMFrzaCERmJfrF4H2FYD4KCoNkY11McCe8BenwNYB"),
    ("pepe", "ethereum", "0x6982508145454Ce325dDbE47a25d4ec3d2311933"),
    ("shiba-inu", "ethereum", "0x95aD61b0a150d79219dCF64E1E6Cc01f0B64C4cE"),
    ("bonk", "solana", "DezXAZ8z7PnrnRJjz3wXBoRgixCa6xjnB7YaB1pPB263"),
    ("dogwifcoin", "solana", "EKpQGSJtjMFqKZ9KQanSqYXRcF8fBopzLHYxdM65zcjm"),
    ("sui", "solana", "9aFGPqCsGbYk2e3SQbz4PXNdGMUMHmDpRrFiJRAhFtax"),
    ("avalanche-2", "bsc", "0x1CE0c2827e2eF14D5C4f29a091d735A204794041"),
    ("chainlink", "ethereum", "0x514910771AF9Ca656af840dff83E8264EcF986CA")]

def CG_PLATFORM_TO_CHAIN_ID : List (String × String) :=
  [("ethereum", "ethereum"), ("binance-smart-chain", "bsc"), ("base", "base"), ("arbitrum-one", "arbitrum"),
    ("optimistic-ethereum", "optimism"), ("polygon-pos", "polygon"), ("avalanche", "avalanche"), ("zksync", "zksync"),
    ("linea", "linea"), ("blast", "blast"), ("solana", "solana"), ("fantom", "fantom"), ("cronos", "cronos")]

/-! ## Pairs -/

/-- `text.includes(q)`. -/
def includes (text q : List Char) : Bool := text.tails.any q.isPrefixOf

/-- The tier of a pair of the base token with this symbol and name, both in lower case. -/
def matchTier (symbol name q : List Char) : Option MatchTier :=
  if symbol = q then some .exact
  else if q.isPrefixOf symbol then some .prefixed
  else if includes symbol q || includes name q then some .fuzzy
  else none

namespace DexSearchPair

def tier (p : DexSearchPair) (q : String) : Option MatchTier :=
  matchTier ((p.baseToken.symbol.getD "").toLower).toList ((p.baseToken.name.getD "").toLower).toList q.toList

def txns (p : DexSearchPair) : ℚ := p.buys.getD 0 + p.sells.getD 0

/-- The pair is not skipped. -/
def kept (p : DexSearchPair) (q : String) (opts : ResolveOptions) : Bool :=
  match chainIdToChain p.chainId with
  | none => false
  | some chain =>
    (opts.chain.all fun c => chain == c) && (p.tier q).isSome &&
      (decide (0 < p.liquidityUsd.getD 0) || decide (0 < p.volumeH24.getD 0) || decide (0 < p.txns))

def key (p : DexSearchPair) : String × String := (p.chainId, p.baseToken.address.toLower)

end DexSearchPair

/-- The pools of one token, in the order in which they are found. -/
structure PairGroup where
  first : DexSearchPair
  rest : List DexSearchPair

def PairGroup.pairs (g : PairGroup) : List DexSearchPair := g.first :: g.rest

/-- `byToken`: a pair joins the group with its key, or begins one. -/
def addPair (groups : List PairGroup) (p : DexSearchPair) : List PairGroup :=
  if groups.any fun g => g.first.key == p.key then
    groups.map fun g => if g.first.key = p.key then { g with rest := g.rest ++ [p] } else g
  else groups ++ [⟨p, []⟩]

def sum (arr : List DexSearchPair) (pick : DexSearchPair → Option ℚ) : Option ℚ :=
  match arr.filterMap pick with
  | [] => none
  | vs => some vs.sum

def maxOf (arr : List DexSearchPair) (pick : DexSearchPair → Option ℚ) : Option ℚ := (arr.filterMap pick).max?

/-- The candidate of a group; the deepest pool represents it. -/
def collapseGroup (now : ℚ) (q : String) (chain : Chain) (g : PairGroup) : CollapsedToken :=
  let rep := (g.pairs.insertionSort fun a b => b.liquidityUsd.getD 0 ≤ a.liquidityUsd.getD 0).headD g.first
  let earliestCreatedAt := ((g.pairs.filterMap DexSearchPair.pairCreatedAt).filter fun t => decide (0 < t)).min?
  let bestTier := ((g.pairs.filterMap fun p => p.tier q).insertionSort fun a b =>
    MATCH_TIER_RANK b ≤ MATCH_TIER_RANK a).head?
  { chain
    chainId := rep.chainId
    address := rep.baseToken.address
    symbol := rep.baseToken.symbol.getD ""
    name := rep.baseToken.name.getD ""
    priceUsd := rep.priceUsd.bind fun text => stringNumber text.toList
    liquidityUsd := sum g.pairs DexSearchPair.liquidityUsd
    volume24hUsd := sum g.pairs DexSearchPair.volumeH24
    marketCapUsd := maxOf g.pairs DexSearchPair.marketCap
    fdvUsd := maxOf g.pairs DexSearchPair.fdv
    pairAgeHours := earliestCreatedAt.map fun t => max 0 ((now - t) / 3600000)
    txns24h := some (g.pairs.map DexSearchPair.txns).sum
    logoURI := rep.imageUrl
    url := rep.url
    matchTier := bestTier.getD .fuzzy }

/-- The tokens of the pairs that are kept, one for each chain id and address. -/
def collapsePairs (now : ℚ) (pairs : List DexSearchPair) (q : String) (opts : ResolveOptions) : List CollapsedToken :=
  let groups := (pairs.filter fun p => p.kept q opts).foldl addPair []
  (groups.filterMap fun g => (chainIdToChain g.first.chainId).map fun chain => collapseGroup now q chain g).filter
    fun t => opts.minLiquidityUsd.all fun least => decide (least ≤ t.liquidityUsd.getD 0)

/-! ## Candidates -/

structure ResolverConfig where
  log10 : ℚ → ℚ

section Ticker
variable (cfg : ResolverConfig) (up : Upstream) (now : ℚ) (symbol : String) (opts : ResolveOptions)

/-- The CoinGecko coin with this very symbol and the best rank. -/
def canonicalCg : Option CgSearchCoin :=
  ((up.searchBySymbol.filter fun c => c.symbol.toLower == symbol.toLower && c.market_cap_rank.isSome).insertionSort
    fun a b => a.market_cap_rank.getD 9999 ≤ b.market_cap_rank.getD 9999).head?

def isTopCoin : Bool := (canonicalCg up symbol).any fun c => decide (c.market_cap_rank.getD 9999 ≤ 100)

def cgMarket : Option CgCoinMarket :=
  if isTopCoin up symbol then (canonicalCg up symbol).bind fun c => up.markets c.id else none

def cgPlatforms : List (String × String) := (canonicalCg up symbol).elim [] fun c => up.getCoinPlatforms c.id

def scoreOf (t : CollapsedToken) (verified : Bool) (cgRank : Option ℚ) : ℚ :=
  scoreToken cfg.log10
    { liquidityUsd := t.liquidityUsd, volume24hUsd := t.volume24hUsd, marketCapUsd := t.marketCapUsd
      txns24h := t.txns24h, pairAgeHours := t.pairAgeHours, verified, cgRank }

/-- A collapsed token with what CoinGecko knows. -/
def enrich (t : CollapsedToken) : ResolvedToken :=
  let verifiedSymbols := (up.searchBySymbol.map fun c => c.symbol.toLower).filter (· ≠ "")
  let canonicalAddrs := ((cgPlatforms up symbol).map Prod.snd).filter (· ≠ "") |>.map String.toLower
  let verified := verifiedSymbols.contains t.symbol.toLower || canonicalAddrs.contains t.address.toLower
  let cgRank :=
    if verified && t.symbol.toLower == symbol.toLower then (canonicalCg up symbol).bind CgSearchCoin.market_cap_rank
    else none
  let cgData := if cgRank.isSome then cgMarket up symbol else none
  let token : CollapsedToken :=
    { t with
      priceUsd := (cgData.bind CgCoinMarket.current_price).or t.priceUsd
      marketCapUsd := (cgData.bind CgCoinMarket.market_cap).or t.marketCapUsd }
  { token with verified, cgRank, score := scoreOf cfg token verified cgRank }

/-- A platform contract that was not among the pairs, looked up by its address. -/
def platformToken (coin : CgSearchCoin) (chainId addr : String) : Option ResolvedToken := do
  let chain ← chainIdToChain chainId
  let info ← up.getToken chain addr
  let token : CollapsedToken :=
    { chain, chainId, address := addr
      symbol := (info.symbol.getD coin.symbol).toUpper
      name := info.name.getD coin.name
      priceUsd := ((cgMarket up symbol).bind CgCoinMarket.current_price).or info.priceUsd
      liquidityUsd := info.liquidityUsd
      volume24hUsd := info.volume24hUsd
      marketCapUsd := ((cgMarket up symbol).bind CgCoinMarket.market_cap).or info.marketCapUsd
      fdvUsd := info.fdvUsd
      pairAgeHours := info.pairAgeHours
      txns24h := info.txns24h.map fun t => t.1.getD 0 + t.2.getD 0
      logoURI := none
      url := info.url
      matchTier := .exact }
  let cgRank := coin.market_cap_rank
  return { token with verified := true, cgRank, score := scoreOf cfg token true cgRank }

/-- The first four platform contracts on supported chains that were not among the pairs. -/
def platformTokens (known : List CollapsedToken) : List ResolvedToken :=
  match canonicalCg up symbol with
  | none => []
  | some coin =>
    let fetchJobs := (cgPlatforms up symbol).filterMap fun (platform, addr) =>
      (CG_PLATFORM_TO_CHAIN_ID.lookup platform).bind fun chainId =>
        if addr = "" ∨ (known.any fun t => t.address.toLower == addr.toLower) then none else some (chainId, addr)
    (fetchJobs.take 4).filterMap fun (chainId, addr) => platformToken cfg up symbol coin chainId addr

/-- The stub of a top coin for which nothing else was found. -/
def fallbackToken : Option ResolvedToken := do
  let coin ← if isTopCoin up symbol then canonicalCg up symbol else none
  let market ← cgMarket up symbol
  let (chainId, address) ← CG_FALLBACK_TOKEN.lookup coin.id
  let chain ← chainIdToChain chainId
  let token : CollapsedToken :=
    { chain, chainId, address
      symbol := coin.symbol.toUpper
      name := coin.name
      priceUsd := market.current_price
      liquidityUsd := none
      volume24hUsd := market.total_volume
      marketCapUsd := market.market_cap
      fdvUsd := none
      pairAgeHours := none
      txns24h := none
      logoURI := market.image
      url := none
      matchTier := .exact }
  let cgRank := coin.market_cap_rank
  return { token with verified := true, cgRank, score := scoreOf cfg token true cgRank }

/-- The candidates that do not come from pairs. -/
def addedTokens : List ResolvedToken :=
  let collapsed := collapsePairs now up.search symbol.toLower opts
  let fetched := platformTokens cfg up symbol collapsed
  if collapsed.isEmpty && fetched.isEmpty then (fallbackToken cfg up symbol).toList else fetched

def candidates : List ResolvedToken :=
  (collapsePairs now up.search symbol.toLower opts).map (enrich cfg up symbol) ++ addedTokens cfg up now symbol opts

end Ticker

/-! ## Results -/

inductive ResolveKind
  | address
  | ticker
  | unresolvable
  deriving DecidableEq, Repr

structure ResolveResult where
  kind : ResolveKind
  query : String
  best : Option ResolvedToken
  candidates : List ResolvedToken
  ambiguous : Bool
  confidence : ℚ
  best_eq : best = candidates.head?
  deriving DecidableEq

def EMPTY (kind : ResolveKind) (query : String) : ResolveResult :=
  { kind, query, best := none, candidates := [], ambiguous := false, confidence := 0, best_eq := rfl }

/-- `xs.slice(0, n)`. -/
def sliceTo {α : Type} (xs : List α) (n : ℤ) : List α :=
  xs.take (if 0 ≤ n then n.toNat else (xs.length + n).toNat)

/-- What the lookup of a ticker gives, and the cache holds. -/
structure TickerResult extends ResolveResult where
  kind_eq : kind = .ticker
  deriving DecidableEq

def tickerResult (query : String) (cs : List ResolvedToken) : TickerResult :=
  { kind := .ticker, query, best := cs.head?, candidates := cs, ambiguous := decide (1 < cs.length)
    confidence := computeConfidence cs, best_eq := rfl, kind_eq := rfl }

def resolveAddress (up : Upstream) (chain : Chain) (address : String) : ResolveResult :=
  let info := up.getToken chain address
  let token : ResolvedToken :=
    { chain
      chainId := (info.bind TokenMeta.chainId).getD
        (match chain with
          | .SOLANA => "solana"
          | .EVM => "ethereum")
      address
      symbol := (info.bind TokenMeta.symbol).getD ""
      name := (info.bind TokenMeta.name).getD ""
      priceUsd := info.bind TokenMeta.priceUsd
      liquidityUsd := info.bind TokenMeta.liquidityUsd
      volume24hUsd := info.bind TokenMeta.volume24hUsd
      marketCapUsd := info.bind TokenMeta.marketCapUsd
      fdvUsd := info.bind TokenMeta.fdvUsd
      pairAgeHours := info.bind TokenMeta.pairAgeHours
      txns24h := (info.bind TokenMeta.txns24h).map fun t => t.1.getD 0 + t.2.getD 0
      logoURI := none
      url := info.bind TokenMeta.url
      verified := false
      cgRank := none
      score := 0
      matchTier := .address }
  { kind := .address, query := address, best := some token, candidates := [token], ambiguous := false, confidence := 1
    best_eq := rfl }

/-! ## The service -/

/-- What tells cached results apart. -/
structure CacheKey where
  chain : Option Chain
  q : String
  limit : ℤ
  minLiquidityUsd : ℚ
  deriving DecidableEq, Repr

def cacheKey (symbol : String) (opts : ResolveOptions) : CacheKey :=
  { chain := opts.chain
    q := symbol.toLower
    limit := opts.limit.getD 8
    minLiquidityUsd := opts.minLiquidityUsd.getD 0 }

abbrev ResolverCache := BoundedCache CacheKey TickerResult

def initialCache : ResolverCache := { max := 500, ttlMs := 90000 }

/-- The candidates in their order, up to the limit. -/
def ranked (cfg : ResolverConfig) (up : Upstream) (now : ℤ) (symbol : String) (opts : ResolveOptions) :
    List ResolvedToken :=
  sliceTo (sortCandidates (candidates cfg up now symbol opts)) (opts.limit.getD 8)

/-- What a lookup gives that the cache does not answer, and what it stores. -/
def searchTicker (cfg : ResolverConfig) (up : Upstream) (now : ℤ) (symbol : String) (opts : ResolveOptions)
    (cache : ResolverCache) : TickerResult × ResolverCache :=
  let result := tickerResult symbol (ranked cfg up now symbol opts)
  (result, if result.candidates.isEmpty then cache else cache.set now (cacheKey symbol opts) result)

def resolveTicker (cfg : ResolverConfig) (up : Upstream) (now : ℤ) (symbol : String) (opts : ResolveOptions)
    (cache : ResolverCache) : TickerResult × ResolverCache :=
  match cache.get now (cacheKey symbol opts) with
  | (some result, cache) => (result, cache)
  | (none, cache) => searchTicker cfg up now symbol opts cache

def resolve (cfg : ResolverConfig) (up : Upstream) (now : ℤ) (input : String) (opts : ResolveOptions)
    (cache : ResolverCache) : ResolveResult × ResolverCache :=
  match classifyInput input with
  | .unresolvable => (EMPTY .unresolvable (String.ofList (trim input.toList)), cache)
  | .address chain value => (resolveAddress up chain value, cache)
  | .ticker symbol =>
    let (result, cache) := resolveTicker cfg up now symbol opts cache
    (result.toResolveResult, cache)

def TRADE_DOMINANCE_RATIO : ℚ := 3

def TRADE_MIN_LIQUIDITY_USD : ℚ := 5000

inductive ResolveError
  | badRequest (message : String)
  | conflict (message reason query : String) (candidates : List ResolvedToken)
  deriving DecidableEq, Repr

def liquidity (t : ResolvedToken) : ℚ := t.liquidityUsd.getD 0

def ambiguousMessage (query : String) : String :=
  "\"$" ++ query.toUpper ++ "\" is ambiguous — pick the exact token."

def lowLiquidityMessage (query : String) (t : ResolvedToken) : String :=
  "Top match for \"$" ++ query.toUpper ++ "\" has very low liquidity ($" ++ toString ⌊liquidity t + 1 / 2⌋ ++
    "). Confirm the contract address."

/-- What `resolveForTrade` makes of a result. -/
def pickForTrade (input : String) (r : ResolveResult) : Except ResolveError ResolvedToken :=
  match r.best with
  | none =>
    .error (.badRequest ("Could not resolve a token for \"" ++ input ++ "\". Pass a contract address or a $TICKER."))
  | some best =>
    if r.kind = .address then .ok best
    else
      let second := r.candidates[1]?
      let secondLiq := (second.map liquidity).getD 0
      let realContender := second.any fun s =>
        s.matchTier == best.matchTier && decide (TRADE_MIN_LIQUIDITY_USD ≤ secondLiq)
      if realContender ∧ liquidity best < TRADE_DOMINANCE_RATIO * secondLiq then
        .error (.conflict (ambiguousMessage r.query) "ambiguous_ticker" r.query r.candidates)
      else if liquidity best < TRADE_MIN_LIQUIDITY_USD then
        .error (.conflict (lowLiquidityMessage r.query best) "low_liquidity" r.query r.candidates)
      else .ok best

def resolveForTrade (cfg : ResolverConfig) (up : Upstream) (now : ℤ) (input : String) (opts : ResolveOptions)
    (cache : ResolverCache) : Except ResolveError ResolvedToken × ResolverCache :=
  let (r, cache) := resolve cfg up now input opts cache
  (pickForTrade input r, cache)

end SuperAi.TokenResolver
