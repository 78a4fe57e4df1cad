import GoIndustrial.Lib.TransitionSystem
import GoIndustrial.Lib.BitPacking
import GoIndustrial.Lib.TimedStream
import GoIndustrial.Modbus.Types
import GoIndustrial.Modbus.ReadLoop
import GoIndustrial.Lib.CallTree
import GoIndustrial.Lib.GoSlice
import GoIndustrial.Modbus.Store
import GoIndustrial.Modbus.Handlers
import GoIndustrial.Modbus.Protocol
import GoIndustrial.Modbus.ServerLoop
import GoIndustrial.Modbus.Device
import GoIndustrial.Modbus.Atomicity
import GoIndustrial.Modbus.Conn
import GoIndustrial.Modbus.Send
import GoIndustrial.Lib.GoOrder
import GoIndustrial.Monitor.Plan
import GoIndustrial.Monitor.Read
import GoIndustrial.Modbus.DataPoint
import GoIndustrial.Monitor.Clustering
import GoIndustrial.Monitor.Cache
import GoIndustrial.Lib.SafeCode
import GoIndustrial.Modbus.Safety
import GoIndustrial.Lib.Retry
import GoIndustrial.Modbus.Client
import GoIndustrial.Modbus.Server
import GoIndustrial.Modbus.Stop
import GoIndustrial.Lib.ByteReader
import GoIndustrial.EtherNetIP.Encap
import GoIndustrial.EtherNetIP.Message
import GoIndustrial.EtherNetIP.Router
import GoIndustrial.EtherNetIP.Server
import GoIndustrial.EtherNetIP.Connections
import GoIndustrial.EtherNetIP.SessionGate
import GoIndustrial.EtherNetIP.ClientLimit
import GoIndustrial.EtherNetIP.Objects
import GoIndustrial.EtherNetIP.Implicit
import GoIndustrial.EtherNetIP.Safety
import GoIndustrial.EtherNetIP.Client
import GoIndustrial.EtherNetIP.Tags
import GoIndustrial.EtherNetIP.ConnTable
import GoIndustrial.EtherNetIP.Framing
import GoIndustrial.EtherNetIP.Receipt
import GoIndustrial.EtherNetIP.Produce
import GoIndustrial.EtherNetIP.Negotiation
import GoIndustrial.EtherNetIP.Callbacks
import GoIndustrial.EtherNetIP.IOAdapter
import GoIndustrial.EtherNetIP.CallbackOrder
import GoIndustrial.EtherNetIP.Reopening
import GoIndustrial.EtherNetIP.Watchdog
import GoIndustrial.Pccc.Address
import GoIndustrial.Pccc.Frame
import GoIndustrial.Pccc.Client
import GoIndustrial.Pccc.DataTable
import GoIndustrial.Pccc.BitWrite
import GoIndustrial.Pccc.BitRace
import GoIndustrial.Pccc.ElementRead
import GoIndustrial.Pccc.ElementWrite
import GoIndustrial.Pccc.Matching
import GoIndustrial.Lib.RWLock
import GoIndustrial.Transport.Reconnecting
import GoIndustrial.Lib.Chan
import GoIndustrial.Monitor.System
import GoIndustrial.Monitor.Registration
import GoIndustrial.Monitor.Broadcast
import GoIndustrial.Monitor.Cancellation
import GoIndustrial.Transport.Lifecycle
import GoIndustrial.Monitor.Partition
import GoIndustrial.Modbus.Pipelining
import GoIndustrial.Modbus.DeviceIdentification
import GoIndustrial.Modbus.PointWrite
import GoIndustrial.Transport.Retries
import GoIndustrial.EtherNetIP.EPath
import GoIndustrial.EtherNetIP.TagPath
import GoIndustrial.EtherNetIP.TagRequests
import GoIndustrial.Monitor.Sharing
import GoIndustrial.Monitor.Deadlock
import GoIndustrial.EtherNetIP.Canonical
import GoIndustrial.EtherNetIP.ForwardRequests
import GoIndustrial.EtherNetIP.CloseReports
import GoIndustrial.EtherNetIP.AssemblyAccess
import GoIndustrial.EtherNetIP.TagPayload
import GoIndustrial.EtherNetIP.TimerCounter
import GoIndustrial.EtherNetIP.Discovery
import GoIndustrial.EtherNetIP.DiscoveryLengths
import GoIndustrial.Pccc.AddressText
import GoIndustrial.Lib.SkipCounter
import GoIndustrial.Pccc.Transactions
import GoIndustrial.EtherNetIP.StructCodecs
import GoIndustrial.Pccc.ElementFields
import GoIndustrial.Pccc.AddressGrammar
import GoIndustrial.EtherNetIP.CyclicIO
import GoIndustrial.EtherNetIP.SharedSession
