import Dapi.Splice
import Dapi.OrderedMap
import Dapi.EventEmitter
import Dapi.Trace
import Dapi.CoreTypes
import Dapi.TransactionFilter
import Dapi.TransactionHashesCache
import Dapi.CacheAlignment
import Dapi.Subscription
import Dapi.SubscriptionSteps
import Dapi.SubscriptionDelivery
import Dapi.InstantLocks
import Dapi.Async
import Dapi.StreamHandler
import Dapi.HistoricalScan
import Dapi.StreamSystem
import Dapi.HandlerStages
import Dapi.CallLifecycle
import Dapi.Disconnect
import Dapi.HistoryBoundary
import Dapi.FilterHandover
import Dapi.FilterVerdict
import Dapi.LockOrder
import Dapi.BlockScan
import Dapi.Interference
import Dapi.AbciResult
import Dapi.Promise
import Dapi.WaitForHeight
import Dapi.WaitForTransaction
import Dapi.CommittedTransactions
import Dapi.WsClient
import Dapi.ClientSteps
import Dapi.QueryCounts
import Dapi.Reconnects
import Dapi.FinalClose
import Dapi.WaitingList
import Dapi.BlockRemoval
import Dapi.CacheLedger
import Dapi.HeightWaiters
import Dapi.SettledWaits
import Dapi.RetryLimit
import Dapi.Resubscription
import Dapi.NullScripts
import Dapi.RepeatedLocks
import Dapi.NodeSubscriptions
import Dapi.ReturnedResults
import Dapi.Conversation
import Dapi.PlatformHandlers
import Dapi.StateTransitionResult
import Dapi.ResultService
import Dapi.DriveErrors
import Dapi.DriveReads
import Dapi.ZmqClient
import Dapi.FilterProcess
import Dapi.CoreHandlers
import Dapi.RpcServer
import Dapi.CoreService
import Dapi.Config
import Dapi.BoundedCalls
import Dapi.BoundedHistory
