import HftArb.Foundations.Saturating
import HftArb.Foundations.FloorScaling
import HftArb.Foundations.Runs
import HftArb.Foundations.Interleaving
import HftArb.Foundations.Retry
import HftArb.Foundations.Latch
import HftArb.Foundations.Numerals
import HftArb.Foundations.OrderedMap
import HftArb.Foundations.RingWindow
import HftArb.Foundations.AmountMap
import HftArb.Foundations.AssocMap
import HftArb.Foundations.Triangles
import HftArb.Foundations.PositionIndex
import HftArb.Foundations.MissingCounts
import HftArb.Foundations.TextSearch
import HftArb.Foundations.TwoWayMap
import HftArb.Foundations.SuffixTable
import HftArb.Foundations.QuotedSearch
import HftArb.Foundations.Utf8
import HftArb.Foundations.SeqLock
import HftArb.Foundations.NewtonSqrt
import HftArb.Foundations.BoundedAppend
import HftArb.Foundations.PriceLadder
import HftArb.Foundations.ByteOffsets
import HftArb.Foundations.Csv
import HftArb.Foundations.FirstCome
import HftArb.Decimal
import HftArb.RustDecimal
import HftArb.Protections.RiskManager
import HftArb.Protections.DrawdownPeak
import HftArb.Protections.Gate
import HftArb.Protections.ExchangeHealth
import HftArb.Protections.ExposureRaces
import HftArb.Protections.EngineCircuitBreaker
import HftArb.Protections.RateLimiter
import HftArb.Protections.RequestThrottle
import HftArb.Protections.DepegCircuit
import HftArb.Protections.StablecoinMonitor
import HftArb.Protections.VolatilityGuard
import HftArb.Strategies.MarketArena
import HftArb.Strategies.ArenaUpdates
import HftArb.Strategies.CrossSignals
import HftArb.Strategies.Invalidation
import HftArb.Strategies.TargetBuilders
import HftArb.Strategies.TriangularProfit
import HftArb.Strategies.TriPathFinder
import HftArb.Scanner.TriangularCandidates
import HftArb.Strategies.TriangleDiscovery
import HftArb.Scanner.CoinFinder
import HftArb.Scanner.Pruning
import HftArb.Scanner.PairPruning
import HftArb.Scanner.Earmarking
import HftArb.Scanner.ListingScans
import HftArb.Scanner.GatheredPairs
import HftArb.Scanner.CustomMappings
import HftArb.Feeds.TickerParser
import HftArb.Feeds.DepthParser
import HftArb.Feeds.ExecutionReports
import HftArb.Feeds.ReportMessages
import HftArb.Feeds.ReportFrames
import HftArb.Feeds.PriceLiterals
import HftArb.Feeds.StringExtraction
import HftArb.Feeds.NumberExtraction
import HftArb.Feeds.WsListener
import HftArb.Feeds.PrivateFeed
import HftArb.Feeds.PrivateReports
import HftArb.Feeds.OrderBook
import HftArb.Feeds.MarketDepth
import HftArb.Feeds.BookReference
import HftArb.Feeds.QuoteSuffixes
import HftArb.Feeds.BinanceDepth
import HftArb.Feeds.DepthAverages
import HftArb.Feeds.AtomicLevel
import HftArb.Feeds.SharedMemory
import HftArb.Feeds.SharedArena
import HftArb.Protections.FlashCrash
import HftArb.Execution.Orders
import HftArb.Execution.LiveOrderTracker
import HftArb.Execution.NonceManager
import HftArb.Execution.Engine
import HftArb.Execution.Blasts
import HftArb.Execution.RestingOrders
import HftArb.Execution.DailyBooks
import HftArb.Execution.TrackerRuns
import HftArb.Execution.CancellationSweeper
import HftArb.Execution.TimestampSync
import HftArb.Capital.BalanceAllocator
import HftArb.Capital.RebalanceMatrix
import HftArb.Capital.BalanceRaces
import HftArb.Capital.RebalanceFeasibility
import HftArb.Capital.TokenRegistry
import HftArb.Capital.FixedPointRange
import HftArb.Capital.Rebalancer
import HftArb.Capital.DepositVerification
import HftArb.Capital.WithdrawalResponses
import HftArb.Capital.UrlRedaction
import HftArb.Capital.DustManager
import HftArb.Execution.Exposure
import HftArb.Execution.Hedging
import HftArb.Execution.RealPipeline
import HftArb.Execution.RateLimitRecords
import HftArb.Execution.SafetyExecution
import HftArb.Execution.ClientOrderIds
import HftArb.Execution.ExchangeConstraints
import HftArb.Execution.CoreExecutionShield
import HftArb.Execution.PaperTrading
import HftArb.Execution.FxAllocation
import HftArb.Execution.PayloadArena
import HftArb.Execution.DynamicFees
import HftArb.Execution.ZeroAllocSigner
import HftArb.SignalLoop.SizeSlicer
import HftArb.SignalLoop.SliceBounds
import HftArb.SignalLoop.Shields
import HftArb.SignalLoop.ShieldMath
import HftArb.SignalLoop.CrossExchangeExecutor
import HftArb.SignalLoop.Loop
import HftArb.SignalLoop.RiskGate
import HftArb.SignalLoop.CrossHedging
import HftArb.SignalLoop.CapitalCommitment
import HftArb.SignalLoop.TriangularCycle
import HftArb.SignalLoop.SmokeTest
import HftArb.SignalLoop.LossLimits
import HftArb.SignalLoop.OneSidedDispatch
import HftArb.SignalLoop.DiscreteSlippage
import HftArb.SignalLoop.BookUpdates
import HftArb.Logging.RingBufferLogger
import HftArb.Persistence.DiskWriter
import HftArb.Persistence.TradeLog
import HftArb.Backtest.Engine
import HftArb.Backtest.Conservation
import HftArb.Backtest.EvaluationOrder
import HftArb.Backtest.EquityCurve
import HftArb.Backtest.Divisions
import HftArb.Backtest.SquareRoot
import HftArb.Foundations.Projections
import HftArb.Foundations.LineLog
import HftArb.Feeds.DepthMessages
import HftArb.Feeds.DepthListeners
import HftArb.Persistence.TradeJournal
import HftArb.Protections.DeadMansSwitch
import HftArb.Alerts.DiscordPayload
import HftArb.Alerts.DiscordWorker
import HftArb.Foundations.Checks
import HftArb.Config.Validation
import HftArb.Config.Acceptance
import HftArb.Execution.DeribitSession
import HftArb.Execution.RequestNonces
import HftArb.Capital.StarvationDetector
import HftArb.Capital.StarvationRequests
