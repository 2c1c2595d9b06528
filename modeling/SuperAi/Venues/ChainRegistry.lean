import SuperAi.Auth.WalletVerifier
import SuperAi.Foundations.JsonNumber

/-! # The chains (`venues/chain-registry.ts`)

The fields that pricing and routing read.
-/
namespace SuperAi.Venues
open SuperAi.Auth SuperAi.Foundations
set_option autoImplicit false

structure ChainIds where
  dexscreener : String
  geckoterminal : String
  coingecko : String
  deriving DecidableEq, Repr

structure ChainSpec where
  key : String
  family : Chain
  displayName : String
  evmChainId : Option ℕ
  nativeSymbol : String
  nativeDecimals : ℕ
  wrappedNative : String
  ids : ChainIds
  explorerTx : String
  deriving DecidableEq, Repr

def ChainSpec.explorerTxUrl (spec : ChainSpec) (hash : String) : String := spec.explorerTx ++ hash

def solana : ChainSpec where
  key := "solana"
  family := .SOLANA
  displayName := "Solana"
  evmChainId := none
  nativeSymbol := "SOL"
  nativeDecimals := 9
  wrappedNative := "So11111111111111111111111111111111111111112"
  ids := { dexscreener := "solana", geckoterminal := "solana", coingecko := "solana" }
  explorerTx := "https://solscan.io/tx/"

def ethereum : ChainSpec where
  key := "ethereum"
  family := .EVM
  displayName := "Ethereum"
  evmChainId := some 1
  nativeSymbol := "ETH"
  nativeDecimals := 18
  wrappedNative := "0xC02aaA39b223FE8D0A0e5C4F27eAD9083C756Cc2"
  ids := { dexscreener := "ethereum", geckoterminal := "eth", coingecko := "ethereum" }
  explorerTx := "https://etherscan.io/tx/"

def bsc : ChainSpec where
  key := "bsc"
  family := .EVM
  displayName := "BNB Chain"
  evmChainId := some 56
  nativeSymbol := "BNB"
  nativeDecimals := 18
  wrappedNative := "0xbb4CdB9CBd36B01bD1cBaEBF2De08d9173bc095c"
  ids := { dexscreener := "bsc", geckoterminal := "bsc", coingecko := "binance-smart-chain" }
  explorerTx := "https://bscscan.com/tx/"

def base : ChainSpec where
  key := "base"
  family := .EVM
  displayName := "Base"
  evmChainId := some 8453
  nativeSymbol := "ETH"
  nativeDecimals := 18
  wrappedNative := "0x4200000000000000000000000000000000000006"
  ids := { dexscreener := "base", geckoterminal := "base", coingecko := "base" }
  explorerTx := "https://basescan.org/tx/"

def arbitrum : ChainSpec where
  key := "arbitrum"
  family := .EVM
  displayName := "Arbitrum"
  evmChainId := some 42161
  nativeSymbol := "ETH"
  nativeDecimals := 18
  wrappedNative := "0x82aF49447D8a07e3bd95BD0d56f35241523fBab1"
  ids := { dexscreener := "arbitrum", geckoterminal := "arbitrum", coingecko := "arbitrum-one" }
  explorerTx := "https://arbiscan.io/tx/"

def polygon : ChainSpec where
  key := "polygon"
  family := .EVM
  displayName := "Polygon"
  evmChainId := some 137
  nativeSymbol := "POL"
  nativeDecimals := 18
  wrappedNative := "0x0d500B1d8E8eF31E21C99d1Db9A6444d3ADf1270"
  ids := { dexscreener := "polygon", geckoterminal := "polygon_pos", coingecko := "polygon-pos" }
  explorerTx := "https://polygonscan.com/tx/"

def avalanche : ChainSpec where
  key := "avalanche"
  family := .EVM
  displayName := "Avalanche"
  evmChainId := some 43114
  nativeSymbol := "AVAX"
  nativeDecimals := 18
  wrappedNative := "0xB31f66AA3C1e785363F0875A1B74E27b85FD66c7"
  ids := { dexscreener := "avalanche", geckoterminal := "avax", coingecko := "avalanche" }
  explorerTx := "https://snowtrace.io/tx/"

def optimism : ChainSpec where
  key := "optimism"
  family := .EVM
  displayName := "Optimism"
  evmChainId := some 10
  nativeSymbol := "ETH"
  nativeDecimals := 18
  wrappedNative := "0x4200000000000000000000000000000000000006"
  ids := { dexscreener := "optimism", geckoterminal := "optimism", coingecko := "optimistic-ethereum" }
  explorerTx := "https://optimistic.etherscan.io/tx/"

def blast : ChainSpec where
  key := "blast"
  family := .EVM
  displayName := "Blast"
  evmChainId := some 81457
  nativeSymbol := "ETH"
  nativeDecimals := 18
  wrappedNative := "0x4300000000000000000000000000000000000004"
  ids := { dexscreener := "blast", geckoterminal := "blast", coingecko := "blast" }
  explorerTx := "https://blastscan.io/tx/"

def ALL_CHAINS : List ChainSpec :=
  [solana, ethereum, bsc, base, arbitrum, polygon, avalanche, optimism, blast]

def fromDexScreener (chainId : String) : Option ChainSpec := ALL_CHAINS.find? (·.ids.dexscreener == chainId)

def fromGeckoTerminal (slug : String) : Option ChainSpec := ALL_CHAINS.find? (·.ids.geckoterminal == slug)

def fromCoinGecko (platform : String) : Option ChainSpec := ALL_CHAINS.find? (·.ids.coingecko == platform)

def fromEvmChainId (id : ℕ) : Option ChainSpec := ALL_CHAINS.find? (·.evmChainId == some id)

/-- `CHAINS[key]`, for the keys of the table itself. -/
def getChain (key : String) : Option ChainSpec := ALL_CHAINS.find? (·.key == key)

/-- Of a text. The names that every JavaScript object inherits are left out. -/
def resolveChain (input : String) : Option ChainSpec :=
  let raw := (input.toList.dropWhile isJsSpace).rdropWhile isJsSpace
  if raw = [] then none
  else if raw.all fun c => (digitVal? c).isSome then fromEvmChainId (digitsNat (readDigits raw).1)
  else
    let lower := String.ofList (raw.map Char.toLower)
    (getChain lower).or
      (if lower = "evm" then some ethereum
      else (fromDexScreener lower).or ((fromGeckoTerminal lower).or (fromCoinGecko lower)))

/-- Whatever a caller names, a chain it resolves to is registered. -/
theorem resolveChain_registered {input : String} {spec : ChainSpec} (h : resolveChain input = some spec) :
    spec ∈ ALL_CHAINS := by
  unfold resolveChain at h
  dsimp only at h
  by_cases hempty : (input.toList.dropWhile isJsSpace).rdropWhile isJsSpace = []
  · rw [if_pos hempty] at h
    cases h
  · rw [if_neg hempty] at h
    split at h
    · exact List.mem_of_find?_eq_some h
    · obtain hkey | ⟨-, h⟩ := Option.or_eq_some_iff.mp h
      · exact List.mem_of_find?_eq_some hkey
      · split at h
        · cases h
          decide
        · obtain hdex | ⟨-, h⟩ := Option.or_eq_some_iff.mp h
          · exact List.mem_of_find?_eq_some hdex
          · obtain hgecko | ⟨-, h⟩ := Option.or_eq_some_iff.mp h
            · exact List.mem_of_find?_eq_some hgecko
            · exact List.mem_of_find?_eq_some h

end SuperAi.Venues
