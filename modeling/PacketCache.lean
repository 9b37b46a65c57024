import PacketCache.Platform
import PacketCache.Messages
import PacketCache.Bisection
import PacketCache.DequeRuns
import PacketCache.Query
import PacketCache.AccessControl
import PacketCache.Accounting
import PacketCache.Cleanup
import PacketCache.Completeness
import PacketCache.Discovery
import PacketCache.LinearScan
import PacketCache.MultiStream
import PacketCache.NewestData
import PacketCache.StreamIdentity
import PacketCache.Attribution
import PacketCache.BoundedQueue
import PacketCache.EarlyExit
import PacketCache.ImportQueue
import PacketCache.Importing
import PacketCache.QueueOrder
import PacketCache.QueueOverflow
import PacketCache.Redelivery
import PacketCache.RequestValidation
import PacketCache.SortedInsert
import PacketCache.Soundness
import PacketCache.Admission
import PacketCache.ClientOptions
import PacketCache.Deduplication
import PacketCache.Defaults
import PacketCache.EndTimes
import PacketCache.Locality
import PacketCache.Reconnects
import PacketCache.RoundTrip
import PacketCache.Answers
import PacketCache.Independence
import PacketCache.Draining
import PacketCache.Reading
import PacketCache.Startup
import PacketCache.Stopping
import PacketCache.Awaiting
import PacketCache.Lifecycle
import PacketCache.Pipeline
import PacketCache.Shutdown
import PacketCache.Reporting
