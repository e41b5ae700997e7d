import ZenohBridge.Foundation.Execution
import ZenohBridge.Foundation.BoundedChannel
import ZenohBridge.Foundation.FixedWidth
import ZenohBridge.Foundation.KeyExpr
import ZenohBridge.Foundation.Framer
import ZenohBridge.Foundation.Chunks
import ZenohBridge.Foundation.PushParser
import ZenohBridge.Relay
import ZenohBridge.StreamGap
import ZenohBridge.CleanEnd
import ZenohBridge.Registry
import ZenohBridge.RegistrySafety
import ZenohBridge.SpawnOnce
import ZenohBridge.Election
import ZenohBridge.Connection
import ZenohBridge.LosslessClose
import ZenohBridge.HttpParser
import ZenohBridge.RequestMessages
import ZenohBridge.Multiroute
import ZenohBridge.MultirouteStep
import ZenohBridge.HeadParser
import ZenohBridge.MultirouteStreams
import ZenohBridge.MultirouteRequests
import ZenohBridge.MultirouteIsolation
import ZenohBridge.Dns
import ZenohBridge.Spec
import ZenohBridge.KeySpace
import ZenohBridge.RouteSelection
import ZenohBridge.RelayTasks
import ZenohBridge.TelemetryHalfClose
import ZenohBridge.Transport
import ZenohBridge.EofEncoding
import ZenohBridge.ErrorSignal
import ZenohBridge.MultirouteControl
import ZenohBridge.ExchangeEnds
import ZenohBridge.ResponseFraming
import ZenohBridge.ResponseOrder
import ZenohBridge.ImportDoors
import ZenohBridge.ConnectionRecords
import ZenohBridge.HostKeys
import ZenohBridge.HostSpellings
import ZenohBridge.SpecDisplay
import ZenohBridge.Args
import ZenohBridge.ReadUntil
import ZenohBridge.ResponseCap
import ZenohBridge.ExchangeStall
import ZenohBridge.ProtocolSwitch
import ZenohBridge.SwitchUpstream
import ZenohBridge.SwitchDownstream
import ZenohBridge.Listeners
import ZenohBridge.ModeSpecs
import ZenohBridge.MetricsHead
import ZenohBridge.CannedResponses
import ZenohBridge.ConnectionClose
import ZenohBridge.Http2Parser
import ZenohBridge.GrpcStatus
import ZenohBridge.Foundation.Duration
import ZenohBridge.Limits
import ZenohBridge.ReofferLoops
import ZenohBridge.Foundation.TaskSet
import ZenohBridge.AcceptLoop
import ZenohBridge.Lifecycle
import ZenohBridge.Foundation.Exposition
import ZenohBridge.Metrics
import ZenohBridge.Scrape
import ZenohBridge.Failover
import ZenohBridge.HeadReaders
import ZenohBridge.AutoRoute
import ZenohBridge.RequestDelivery
import ZenohBridge.Foundation.Deadline
import ZenohBridge.SignalHold
import ZenohBridge.ClientRun
import ZenohBridge.ClientTimeline
import ZenohBridge.ClientDrain
import ZenohBridge.ClientRegistry
import ZenohBridge.Foundation.Utf8Lossy
import ZenohBridge.HealthServer
import ZenohBridge.LogTargets
