import SuperAi.Foundations.KeyValue
import SuperAi.Foundations.StepSystem
import SuperAi.Foundations.JsonNumber
import SuperAi.Auth.WalletVerifier
import SuperAi.Auth.AuthService
import SuperAi.Auth.SignIn
import SuperAi.ExitEngine.Signals
import SuperAi.ExitEngine.ExitEngineService
import SuperAi.ExitEngine.Conservation
import SuperAi.Risk.RiskStore
import SuperAi.Risk.RiskEngine
import SuperAi.Execution.Swap
import SuperAi.Execution.LossKillSwitch
import SuperAi.Execution.SwapAtomicity
import SuperAi.Snipe.ExecuteSell
import SuperAi.Snipe.SellRollback
import SuperAi.Snipe.Oversell
import SuperAi.Foundations.JsValue
import SuperAi.Audit.HmacChain
import SuperAi.Audit.AuditLogger
import SuperAi.Audit.RoundTrip
import SuperAi.Audit.ConcurrentLog
import SuperAi.Audit.Restart
import SuperAi.Audit.ChainEdits
import SuperAi.Confirmation.ApprovalFlow
import SuperAi.Foundations.SingleUse
import SuperAi.Confirmation.PayloadIntegrity
import SuperAi.Confirmation.SingleUse
import SuperAi.Foundations.ExpiringStore
import SuperAi.Tokens.JwtValidator
import SuperAi.Tokens.TokenRotator
import SuperAi.Tokens.Authority
import SuperAi.Tokens.OneRotation
import SuperAi.Tokens.Replay
import SuperAi.Risk.StickyStop
import SuperAi.Risk.Breakers
import SuperAi.Compliance.WashTradeDetector
import SuperAi.Execution.WashTrades
import SuperAi.Approvals.ApprovalRequest
import SuperAi.Approvals.Lifecycle
import SuperAi.Approvals.SingleExecution
import SuperAi.Agents.DailyLimit
import SuperAi.Foundations.Passes
import SuperAi.Intent.IntentRuleEnforcer
import SuperAi.Agents.AutonomousTrader
import SuperAi.Agents.ClampedTrades
import SuperAi.Execution.DynamicSizing
import SuperAi.Execution.PaperBalance
import SuperAi.Foundations.Tally
import SuperAi.Snipe.FullPosition
import SuperAi.Snipe.Honeypot
import SuperAi.Snipe.OpenPositions
import SuperAi.Snipe.SnipeSession
import SuperAi.Snipe.WalletAttribution
import SuperAi.Snipe.SnipeFast
import SuperAi.Snipe.DoubleBuy
import SuperAi.Foundations.SlidingWindow
import SuperAi.Guardrails.LiveTradeGuard
import SuperAi.Guardrails.RampAndRate
import SuperAi.Guardrails.GuardrailsService
import SuperAi.Guardrails.Exits
import SuperAi.Guardrails.DailyCap
import SuperAi.Orders.PositionMonitor
import SuperAi.Orders.TrailingStop
import SuperAi.Orders.SingleFill
import SuperAi.Wallets.BulkTransfers
import SuperAi.Wallets.FailedRows
import SuperAi.Wallets.Collect
import SuperAi.Wallets.GasReserve
import SuperAi.Snipe.ParallelSnipe
import SuperAi.Snipe.PauseWindows
import SuperAi.Snipe.SessionKeys
import SuperAi.Snipe.WipedKeys
import SuperAi.HotTokens.TokenPool
import SuperAi.HotTokens.LiveData
import SuperAi.ExitEngine.Watched
import SuperAi.Intent.Dsl
import SuperAi.Intent.Soundness
import SuperAi.Intent.RuleOrder
import SuperAi.Intent.IntentRuleService
import SuperAi.Intent.Proposals
import SuperAi.Intent.ActiveCache
import SuperAi.Agents.IntentRules
import SuperAi.Auth.Traces
import SuperAi.Auth.RefreshOnce
import SuperAi.Foundations.Vouchers
import SuperAi.Auth.IssuedOnce
import SuperAi.Foundations.Base64
import SuperAi.Wallets.KmsService
import SuperAi.Cex.CexService
import SuperAi.Cex.Credentials
import SuperAi.Wallets.OnePrimary
import SuperAi.Wallets.MovedAsset
import SuperAi.Common.BoundedCache
import SuperAi.TokenResolver.Ranking
import SuperAi.TokenResolver.TokenResolverService
import SuperAi.TokenResolver.TradePick
import SuperAi.TokenResolver.ChainRestriction
import SuperAi.AutoTrading.AutoTradeService
import SuperAi.AutoTrading.Conservation
import SuperAi.AutoTrading.Overdraft
import SuperAi.AiAgent.ConvictionLearner
import SuperAi.AiAgent.BoundedWeights
import SuperAi.ProviderPool.ProviderPoolService
import SuperAi.ProviderPool.Quota
import SuperAi.ExitEngine.HolderWatchService
import SuperAi.Foundations.OldestFirst
import SuperAi.ExitEngine.HolderCoverage
import SuperAi.IntelTrack.IntelRescanWorker
import SuperAi.IntelTrack.IntelSnapshotService
import SuperAi.IntelTrack.RescanCoverage
import SuperAi.IntelTrack.TrackRecord
import SuperAi.ExitEngine.DumpSignals
import SuperAi.Risk.LimitRuns
import SuperAi.Foundations.Schema
import SuperAi.Output.SanityChecker
import SuperAi.Output.OpenOrders
import SuperAi.Foundations.FixedWindow
import SuperAi.RateLimit.ExchangeQuota
import SuperAi.Risk.RollingFailures
import SuperAi.Output.ActionAllowlist
import SuperAi.RateLimit.RateLimiter
import SuperAi.Risk.BreakerRaces
import SuperAi.Risk.Watermark
import SuperAi.Foundations.Joined
import SuperAi.Output.DuplicateDetector
import SuperAi.Output.OutputFilter
import SuperAi.Output.DedupRaces
import SuperAi.Compliance.LayeringDetector
import SuperAi.Auth.SessionBinder
import SuperAi.Input.ContextIntegrity
import SuperAi.Secrets.DeadMansSwitch
import SuperAi.Secrets.KeyRotationWatcher
import SuperAi.MarketData.FeedConsensus
import SuperAi.MarketData.MarketDataGuard
import SuperAi.Foundations.Regex
import SuperAi.Input.PiiScrubber
import SuperAi.Input.InjectionDetector
import SuperAi.Input.InputGuard
import SuperAi.Anomaly.AnomalyDetector
import SuperAi.Auth.DeviceTrust
import SuperAi.Auth.MfaGate
import SuperAi.MarketData.AnomalyFilter
import SuperAi.Foundations.Numerals
import SuperAi.Venues.BaseUnits
import SuperAi.Venues.ChainRegistry
import SuperAi.Venues.NativePrice
import SuperAi.Venues.TradeRouter
import SuperAi.Crypto.SigningService
import SuperAi.Guardrails.SlippageCap
import SuperAi.Intent.SymbolPattern
import SuperAi.Foundations.DelimitedRegex
import SuperAi.Foundations.Stretches
import SuperAi.Input.PiiStable
import SuperAi.AiAgent.BacktestRail
import SuperAi.TokenAnalysis.Playbooks
import SuperAi.TokenAnalysis.Warnings
import SuperAi.Common.CacheRetention
import SuperAi.Common.CircuitBreaker
import SuperAi.Snipe.SeenAddresses
import SuperAi.Snipe.SlippageLevels
import SuperAi.HotTokens.SignalPipeline
import SuperAi.Venues.EvmProviders
import SuperAi.Foundations.OrderedMap
import SuperAi.Foundations.StableSort
import SuperAi.Venues.PerpsMarket
import SuperAi.Wallets.WalletGroups
import SuperAi.Analytics.Backtesting
import SuperAi.Anomaly.Evaluation
import SuperAi.Audit.Forensics
import SuperAi.Foundations.InTurn
import SuperAi.HotTokens.Scoring
import SuperAi.Wallets.BulkOperations
import SuperAi.WebClient.AuthStore
import SuperAi.WebClient.EtagCache
import SuperAi.WebClient.RefreshFlight
import SuperAi.WebClient.RotationInTurn
import SuperAi.WebClient.SessionLoss
import SuperAi.WebClient.UseApi
import SuperAi.AutoTrading.ExitBand
import SuperAi.AutoTrading.PickerLimits
