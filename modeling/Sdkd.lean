import Sdkd.Lib.LoopProg
import Sdkd.Lib.Histogram
import Sdkd.Lib.Rank
import Sdkd.Json
import Sdkd.Message
import Sdkd.ResultSet
import Sdkd.Dataset
import Sdkd.Handle
import Sdkd.DsOps
import Sdkd.Summary
import Sdkd.Loaders
import Sdkd.Queries
import Sdkd.Operation
import Sdkd.LoaderRuns
import Sdkd.Lib.Lines
import Sdkd.IODispatch
import Sdkd.Framing
import Sdkd.OutputStream
import Sdkd.Control
import Sdkd.ControlReplies
import Sdkd.Worker
import Sdkd.NewHandle
import Sdkd.Buckets
import Sdkd.ProcessRequest
import Sdkd.Guards
import Sdkd.Loads
import Sdkd.EventLoop
import Sdkd.Backlog
import Sdkd.Lifecycle
import Sdkd.Windows
import Sdkd.Accounts
import Sdkd.Items
import Sdkd.SubDocuments
import Sdkd.Quiet
import Sdkd.Switch
import Sdkd.Outcomes
import Sdkd.Isolation
import Sdkd.ViewLoads
import Sdkd.Cancellation
import Sdkd.Latency
import Sdkd.Percentile
import Sdkd.UsageCollector
import Sdkd.ControlLoop
import Sdkd.Descriptors
import Sdkd.RoundTrip
import Sdkd.Collections
import Sdkd.Creation
import Sdkd.Endings
import Sdkd.Reports
import Sdkd.ItemEndings
import Sdkd.LoadEndings
import Sdkd.QueryEndings
import Sdkd.AnsweredRequests
import Sdkd.Shutdown
import Sdkd.Averages
import Sdkd.Iteration
import Sdkd.SeededKeys
import Sdkd.InlineItems
import Sdkd.Lib.Positions
import Sdkd.Lib.Assignments
import Sdkd.Lib.Clause
import Sdkd.Lib.Cycles
import Sdkd.Schema
import Sdkd.Pairing
import Sdkd.RequestLog
import Sdkd.OwnQueries
import Sdkd.SearchTerms
import Sdkd.Moduli
import Sdkd.Divisors
import Sdkd.Lib.AssignedMap
import Sdkd.Lib.Determined
import Sdkd.Delays
import Sdkd.DetailedResults
import Sdkd.ErrorReplies
import Sdkd.HandleInput
import Sdkd.HostList
import Sdkd.Lib.ShellWords
import Sdkd.UploadLogs
import Sdkd.KeyNumbers
import Sdkd.CollectionLookups
import Sdkd.Lib.RunLog
import Sdkd.Lib.RoundLimit
import Sdkd.ViewBatches
import Sdkd.ExactLoads
import Sdkd.Conversations
import Sdkd.Delivery
import Sdkd.ItemLoops
import Sdkd.ItemRequests
import Sdkd.Documents
import Sdkd.TtlTimer
import Sdkd.LoadStops
import Sdkd.ViewQueries
import Sdkd.TokenQueries
import Sdkd.CancelTargets
import Sdkd.Sessions
import Sdkd.Connections
import Sdkd.CollectionSpread
import Sdkd.DocumentServer
import Sdkd.SharedCluster
import Sdkd.SharedServers
