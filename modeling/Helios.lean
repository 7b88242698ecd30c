import Helios.Runs
import Helios.Types
import Helios.Meteora
import Helios.Orca
import Helios.PoolCache
import Helios.ShredReserves
import Helios.PairIndex
import Helios.Merkle
import Helios.FecSet
import Helios.DataBlocks
import Helios.BlockEmission
import Helios.ArrivalOrder
import Helios.MerkleTree
import Helios.HonestFecSet
import Helios.MerkleRecovery
import Helios.RecoveryOutcome
import Helios.RecoveredProofs
import Helios.Borsh
import Helios.CrossDex
import Helios.TxBuilder
import Helios.TickSequence
import Helios.Executability
import Helios.HeliosProgram
import Helios.FloatRounding
import Helios.RouteExecution
import Helios.DiscountedRoute
import Helios.HopExecution
import Helios.Locks
import Helios.RiskManager
import Helios.DirectSwap
import Helios.FlashSequence
import Helios.PortReceiver
import Helios.SwapDecoder
import Helios.VenueSwap
import Helios.Landing
import Helios.AccountDecoders
import Helios.PoolHydrator
import Helios.RefreshRounds
import Helios.RaydiumMetas
import Helios.ReserveSides
import Helios.DiGraph
import Helios.RouteEngine
import Helios.GraphRefresh
import Helios.GraphAgreement
import Helios.BlockhashDeriver
import Helios.TickArrays
import Helios.DecoderTotality
import Helios.RouteDedup
import Helios.DeltaTracker
import Helios.SignalProcessor
import Helios.ReserveParts
import Helios.FreshReserves
import Helios.Deliveries
import Helios.CycleRoute
import Helios.ScannedRoutes
import Helios.ThreeHop
import Helios.CyclicArb
import Helios.OpportunityScanner
import Helios.ConstantProduct
import Helios.SplitQuotes
import Helios.SwapObservers
import Helios.DirtyVaults
import Helios.HydratedPools
import Helios.EngineLoop
import Helios.SecondPools
import Helios.AutoSell
import Helios.SigVerifier
import Helios.LruCache
import Helios.ShredLoop
import Helios.EventBus
import Helios.EventDelivery
import Helios.ExactQuotes
import Helios.WhaleSwaps
import Helios.SimulatedSwaps
import Helios.MeteoraBins
import Helios.MeteoraChecks
import Helios.MeteoraWalk
import Helios.DecodedValues
import Helios.MeteoraSafety
import Helios.PriceLadder
import Helios.PriceLevels
import Helios.MeteoraOffers
import Helios.MeteoraSound
import Helios.TickCrossings
import Helios.CrossedLiquidity
import Helios.KeyText
import Helios.CachedMeta
import Helios.SeedBytes
import Helios.MetadataRoundTrip
import Helios.LatestWins
import Helios.GrpcState
import Helios.GrpcFreshness
import Helios.AccountCache
import Helios.StateCaches
import Helios.RpcCache
import Helios.RpcTransparency
import Helios.BackrunQuote
import Helios.FastArb
import Helios.JitoTip
import Helios.BestBorrow
import Helios.MirroredRoute
import Helios.TwoPoolStrategies
import Helios.HotRoutes
import Helios.HotPairs
import Helios.RejectedShreds
import Helios.RefreshedArrays
import Helios.SetupAccounts
import Helios.RouteLength
import Helios.Deduper
import Helios.CacheRefresh
import Helios.GeyserPlugin
import Helios.GraduationSearch
import Helios.ShredStrategies
import Helios.WhaleBackrun
import Helios.SqliteRouteFeed
import Helios.PredictiveArb
import Helios.SniperLimits
import Helios.CandidateArrays
import Helios.BinTraversal
import Helios.BinArrayMetas
import Helios.VaultWatcher
import Helios.Recency
import Helios.RouteSearch
import Helios.BalanceLink
import Helios.FloatOrder
import Helios.StrategyLogger
import Helios.MlScorer
import Helios.WalletTracker
import Helios.SlowPath
import Helios.AltCache
import Helios.ShredPredictor
import Helios.ThreeHopPredictor
import Helios.DecisionEngine
import Helios.LeaderFanout
import Helios.PairScanners
