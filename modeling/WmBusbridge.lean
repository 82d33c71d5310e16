import WmBusbridge.L0Core.Machine
import WmBusbridge.L0Core.Fair
import WmBusbridge.L0Core.Missing
import WmBusbridge.L0Core.Ring
import WmBusbridge.L0Core.Streak
import WmBusbridge.L1Encoding.Num
import WmBusbridge.L1Encoding.Float
import WmBusbridge.L1Encoding.Str
import WmBusbridge.L1Encoding.Json
import WmBusbridge.L1Encoding.JsonText
import WmBusbridge.L1Encoding.Subject
import WmBusbridge.L1Encoding.Framing
import WmBusbridge.L1Encoding.Record
import WmBusbridge.L1Encoding.Double
import WmBusbridge.L1Encoding.Serde
import WmBusbridge.L2Policy.Forward
import WmBusbridge.L3Watcher.Liveness
import WmBusbridge.L3Watcher.RunWatcher
import WmBusbridge.L3Watcher.Hysteresis
import WmBusbridge.L3Watcher.Conserve
import WmBusbridge.L3Watcher.ByteCap
import WmBusbridge.L3Watcher.Evict
import WmBusbridge.L3Watcher.Announce
import WmBusbridge.L3Watcher.Sim
import WmBusbridge.L3Watcher.Converge
import WmBusbridge.L3Watcher.Notices
import WmBusbridge.L4Bridge.Loops
import WmBusbridge.L4Bridge.AllowList
import WmBusbridge.L4Bridge.Outbound
import WmBusbridge.L4Bridge.Order
import WmBusbridge.L4Bridge.Reader
import WmBusbridge.L4Bridge.Stream
import WmBusbridge.L4Bridge.Subjects
import WmBusbridge.L4Bridge.BusWire
import WmBusbridge.L4Bridge.WatcherWire
import WmBusbridge.L4Bridge.Account
import WmBusbridge.L4Bridge.Daemon
import WmBusbridge.L4Bridge.Inject
import WmBusbridge.L5Fleet.Fleet
import WmBusbridge.L5Fleet.NodeInv
import WmBusbridge.L5Fleet.LoopGuard
import WmBusbridge.L5Fleet.Copies
import WmBusbridge.L5Fleet.Envelope
import WmBusbridge.L5Fleet.HubEvents
import WmBusbridge.L5Fleet.Transparency
import WmBusbridge.L5Fleet.Delivery
import WmBusbridge.L6Status.Capability
import WmBusbridge.L6Status.Report
import WmBusbridge.L6Status.NeverHides
import WmBusbridge.L6Status.Merge
import WmBusbridge.L6Status.Heartbeat
import WmBusbridge.L6Status.Registry
import WmBusbridge.L6Status.FleetStatus
import WmBusbridge.L6Status.Relist
import WmBusbridge.L6Status.Wire
import WmBusbridge.L6Status.Sample
import WmBusbridge.L7Dispatch.Placement
import WmBusbridge.L7Dispatch.CloudBuild
import WmBusbridge.L7Dispatch.JobWire
import WmBusbridge.L8Selftest.Selftest
