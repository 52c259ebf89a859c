import TaskflowMeter.Diff
import TaskflowMeter.Events
import TaskflowMeter.Agreement
import TaskflowMeter.Fold
import TaskflowMeter.FoldOrder
import TaskflowMeter.Json
import TaskflowMeter.Lib.Column
import TaskflowMeter.Lib.Consecutive
import TaskflowMeter.Lib.Deque
import TaskflowMeter.Lib.Dict
import TaskflowMeter.Lib.LastWrite
import TaskflowMeter.Lib.Paging
import TaskflowMeter.Models
import TaskflowMeter.Rescan
import TaskflowMeter.RoundTrip
import TaskflowMeter.States
import TaskflowMeter.Walk
import TaskflowMeter.RoundTripLaws
import TaskflowMeter.RunIdentity
import TaskflowMeter.Contiguous
import TaskflowMeter.Datasource.Base
import TaskflowMeter.LongestRun
import TaskflowMeter.Datasource.Listing
import TaskflowMeter.Datasource.Memory
import TaskflowMeter.Datasource.Persistence
import TaskflowMeter.Datasource.Sqlalchemy
import TaskflowMeter.Client
import TaskflowMeter.Collectors
import TaskflowMeter.Eviction
import TaskflowMeter.Arrivals
import TaskflowMeter.Redelivery
import TaskflowMeter.Poller
import TaskflowMeter.PollerFailure
import TaskflowMeter.PollerStream
import TaskflowMeter.Api.Sse
import TaskflowMeter.StreamEnd
import TaskflowMeter.Collect.Pipeline
import TaskflowMeter.Delivery
import TaskflowMeter.Collect.Attachment
import TaskflowMeter.Restart
import TaskflowMeter.Transports.Custody
import TaskflowMeter.Transports.Handover
import TaskflowMeter.Transports.Interleaving
import TaskflowMeter.Transports.OsloMessaging
import TaskflowMeter.Lib.Conveyor
import TaskflowMeter.Lib.BoundedQueue
import TaskflowMeter.Collect.Barrier
import TaskflowMeter.Collect.Conservation
import TaskflowMeter.Collect.Sentinel
import TaskflowMeter.Collect.IdleFlag
import TaskflowMeter.PollerThreads
import TaskflowMeter.Lib.PyInt
import TaskflowMeter.Lib.Results
import TaskflowMeter.Lib.Utf8
import TaskflowMeter.Lib.Url
import TaskflowMeter.Api.Http
import TaskflowMeter.Transports.Base
import TaskflowMeter.Api.Router
import TaskflowMeter.Api.Serializers
import TaskflowMeter.Meter
import TaskflowMeter.Api.Service
import TaskflowMeter.Reconnect
import TaskflowMeter.Lib.EventStream
import TaskflowMeter.Api.EventStream
import TaskflowMeter.Api.Driving
import TaskflowMeter.Api.Links
import TaskflowMeter.Api.Following
import TaskflowMeter.Api.Servers
import TaskflowMeter.Api.Templates
import TaskflowMeter.Api.Dispatch
import TaskflowMeter.Api.DecisionTable
import TaskflowMeter.Contrib.Hosts
import TaskflowMeter.Datasource.RunLimit
import TaskflowMeter.Collect.Dropped
import TaskflowMeter.HalfApplied
import TaskflowMeter.Datasource.Retention
import TaskflowMeter.PruningRace
import TaskflowMeter.Lifecycle
import TaskflowMeter.Lib.Idempotent
import TaskflowMeter.Transports.Amqp
import TaskflowMeter.Transports.Collecting
import TaskflowMeter.Transports.Memory
import TaskflowMeter.Transports.Http
import TaskflowMeter.Api.Apps
import TaskflowMeter.Contrib.Adapters
import TaskflowMeter.Lib.Effects
import TaskflowMeter.Collect.Receivers
import TaskflowMeter.Collect.Teardown
import TaskflowMeter.Transports.Relay
import TaskflowMeter.Api.EventLinks
import TaskflowMeter.Collect.Restarts
import TaskflowMeter.Lib.Follower
import TaskflowMeter.Browser
import TaskflowMeter.Transports.Bus
import TaskflowMeter.Datasource.Backend
