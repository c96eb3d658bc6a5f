import AdviserConstructor.Library.StepSystem
import AdviserConstructor.Library.BinaryHeap
import AdviserConstructor.Library.HeapOrder
import AdviserConstructor.Library.InsertionDict
import AdviserConstructor.Library.DecimalText
import AdviserConstructor.Library.GeneralFormat
import AdviserConstructor.Library.Retry
import AdviserConstructor.Library.JumpLoop
import AdviserConstructor.Library.LoopTurns
import AdviserConstructor.Library.LotQueue
import AdviserConstructor.Library.Coroutine
import AdviserConstructor.Library.LockedRow
import AdviserConstructor.Position.StateMachine
import AdviserConstructor.Exchange.Adapter
import AdviserConstructor.Position.TaskParams
import AdviserConstructor.Position.OrderTask
import AdviserConstructor.Position.OrderQueue
import AdviserConstructor.Position.QueueEffects
import AdviserConstructor.Position.QueueInvariants
import AdviserConstructor.Position.SlIntents
import AdviserConstructor.Position.Tombstones
import AdviserConstructor.Position.Context
import AdviserConstructor.Position.Producers
import AdviserConstructor.Position.EmergencyEscalation
import AdviserConstructor.Exchange.BinanceSl
import AdviserConstructor.Exchange.ReplaceCourse
import AdviserConstructor.Position.ClosePositionMove
import AdviserConstructor.SlTp.Pipeline
import AdviserConstructor.SlTp.LiveTracker
import AdviserConstructor.SlTp.StopMonotone
import AdviserConstructor.Ws.Callbacks
import AdviserConstructor.SlTp.DispatchedStops
import AdviserConstructor.SlTp.MultiTp
import AdviserConstructor.SlTp.TpFills
import AdviserConstructor.Ws.OrderEvents
import AdviserConstructor.Ws.Lifecycle
import AdviserConstructor.Ws.FillTally
import AdviserConstructor.Ws.TpEvents
import AdviserConstructor.Ws.TpAccounting
import AdviserConstructor.Ws.Reconciler
import AdviserConstructor.Ws.Reconnect
import AdviserConstructor.Ws.Hydration
import AdviserConstructor.Ws.AsyncHandlers
import AdviserConstructor.Ws.Uninterrupted
import AdviserConstructor.Ws.HandlerInvariants
import AdviserConstructor.Ws.RuntimeStates
import AdviserConstructor.Ws.RowCodec
import AdviserConstructor.Ws.StopEvents
import AdviserConstructor.Ws.BareContext
import AdviserConstructor.Ws.Outage
import AdviserConstructor.Position.PlacementPurge
import AdviserConstructor.Ws.CloseCleanup
import AdviserConstructor.Ledger.FuturesPnl
import AdviserConstructor.Ledger.PairedUnits
import AdviserConstructor.Exchange.RateLimiter
import AdviserConstructor.Position.OrderPacing
import AdviserConstructor.Ledger.TradeSync
import AdviserConstructor.Ledger.TradeCursor
import AdviserConstructor.Ledger.TradeIngestion
import AdviserConstructor.Ledger.TradeHistory
import AdviserConstructor.Ledger.TradeSchedules
import AdviserConstructor.Ledger.ExactlyOnce
import AdviserConstructor.AutoTrade.PositionRow
import AdviserConstructor.AutoTrade.Config
import AdviserConstructor.AutoTrade.ConfigRequest
import AdviserConstructor.AutoTrade.ConfigStore
import AdviserConstructor.AutoTrade.RealMoneyGate
import AdviserConstructor.AutoTrade.ConfigRollback
import AdviserConstructor.AutoTrade.RiskOff
import AdviserConstructor.AutoTrade.Venue
import AdviserConstructor.AutoTrade.SignalTrading
import AdviserConstructor.AutoTrade.ExitPaths
import AdviserConstructor.AutoTrade.ClosedRows
import AdviserConstructor.AutoTrade.OpeningTransaction
import AdviserConstructor.AutoTrade.ExchangeSync
import AdviserConstructor.AutoTrade.SignalQueue
import AdviserConstructor.AutoTrade.QueueRuns
import AdviserConstructor.AutoTrade.PartialTpReconcile
import AdviserConstructor.Exchange.EntryOrder
import AdviserConstructor.Backtest.Frame
import AdviserConstructor.Backtest.StopLogic
import AdviserConstructor.Backtest.AiForecast
import AdviserConstructor.Backtest.VwapBuilder
import AdviserConstructor.Backtest.Metrics
import AdviserConstructor.Backtest.CostModel
import AdviserConstructor.Backtest.GridBot
import AdviserConstructor.Backtest.KnifeCatcher
import AdviserConstructor.Backtest.IntradayMomentum
import AdviserConstructor.Backtest.AtrOrderBlock
import AdviserConstructor.Backtest.EngineCosts
import AdviserConstructor.Backtest.Service
import AdviserConstructor.Backtest.Portfolio
import AdviserConstructor.Backtest.LiveSignals
import AdviserConstructor.Auth.SecondFactors
import AdviserConstructor.Auth.StepUp
import AdviserConstructor.Library.Raising
import AdviserConstructor.Analysis.Jobs
import AdviserConstructor.Library.HighWaterMark
import AdviserConstructor.Analysis.JobRuns
import AdviserConstructor.Backtest.LivePaper
import AdviserConstructor.AutoTrade.KillSwitchSettings
import AdviserConstructor.Exchange.BracketRollback
import AdviserConstructor.Library.Consumption
import AdviserConstructor.Ledger.InferredClose
import AdviserConstructor.AutoTrade.RestInference
import AdviserConstructor.AutoTrade.TpPaths
import AdviserConstructor.Ws.Reductions
import AdviserConstructor.Library.Grouping
import AdviserConstructor.Ledger.AccountFills
import AdviserConstructor.Ledger.TodayPnl
import AdviserConstructor.Ledger.HealthTrades
import AdviserConstructor.AutoTrade.StrategyHealth
import AdviserConstructor.AutoTrade.PromotionStint
import AdviserConstructor.Library.PlainDecimal
import AdviserConstructor.Library.Words
import AdviserConstructor.AutoTrade.WatcherConditions
import AdviserConstructor.AutoTrade.OppositeCount
import AdviserConstructor.AutoTrade.StreakRuns
import AdviserConstructor.Position.EmergencyClose
import AdviserConstructor.SlTp.SlShiftLookup
import AdviserConstructor.SlTp.TpLadder
import AdviserConstructor.SlTp.MarketSide
import AdviserConstructor.SlTp.TickAtomicity
import AdviserConstructor.Exchange.LostResponses
import AdviserConstructor.Exchange.ReplaceSide
import AdviserConstructor.AutoTrade.RiskEngine
import AdviserConstructor.AutoTrade.PortfolioCaps
import AdviserConstructor.Position.QueueOrder
import AdviserConstructor.Position.TaskCallbacks
import AdviserConstructor.Backtest.KnifeRequotes
import AdviserConstructor.Backtest.GridCash
import AdviserConstructor.Backtest.AtrAccounting
import AdviserConstructor.Backtest.VwapSchedule
import AdviserConstructor.Backtest.VwapBrackets
import AdviserConstructor.Backtest.FillPrices
import AdviserConstructor.Ledger.GrossPnl
import AdviserConstructor.Ledger.FillOrder
import AdviserConstructor.Ws.PendingEntries
import AdviserConstructor.Ws.EntryFills
import AdviserConstructor.Library.Paging
import AdviserConstructor.Exchange.OhlcvRange
import AdviserConstructor.Ledger.SpotPnl
import AdviserConstructor.AutoTrade.SignalParsing
import AdviserConstructor.AutoTrade.SymbolMatching
import AdviserConstructor.Backtest.PortfolioCapital
import AdviserConstructor.Ledger.IncomeSync
import AdviserConstructor.Backtest.GridLookAhead
import AdviserConstructor.Ws.TpExecutions
import AdviserConstructor.Library.RunningPeak
import AdviserConstructor.Backtest.ResultCurves
import AdviserConstructor.Library.SlotRuns
import AdviserConstructor.Backtest.LockedRuns
import AdviserConstructor.Analysis.DispatchLoop
import AdviserConstructor.Library.SampleScore
import AdviserConstructor.AutoTrade.AnomalyDetector
import AdviserConstructor.AutoTrade.HealthScore
import AdviserConstructor.Library.PrintBars
import AdviserConstructor.Analysis.ShadowOutcomes
import AdviserConstructor.Library.GrowingLog
import AdviserConstructor.Backtest.PaperFeed
import AdviserConstructor.Exchange.BybitTakeProfits
import AdviserConstructor.Library.AttemptLog
import AdviserConstructor.Auth.ConcurrentFactors
import AdviserConstructor.Auth.FactorLimits
import AdviserConstructor.Library.Slots
import AdviserConstructor.Watchers.QueueRegistry
import AdviserConstructor.Auth.RefreshTokens
import AdviserConstructor.Library.FixedWindow
import AdviserConstructor.Auth.RateLimit
import AdviserConstructor.Library.Interleaving
import AdviserConstructor.Library.MergedCurves
import AdviserConstructor.AutoTrade.PortfolioDrawdown
import AdviserConstructor.AutoTrade.RunningState
import AdviserConstructor.AutoTrade.GuardSweeps
