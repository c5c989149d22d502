import CoreSystems.Lib.Buffer
import CoreSystems.Lib.StringView
import CoreSystems.Lib.Chain
import CoreSystems.Lib.Exec
import CoreSystems.Lib.Calls
import CoreSystems.Lib.Threads
import CoreSystems.Lib.Sessions
import CoreSystems.Lib.Layers
import CoreSystems.Lib.Joins
import CoreSystems.Lib.Keys
import CoreSystems.Lib.XorMul
import CoreSystems.SList.Memory
import CoreSystems.SList.Methods
import CoreSystems.SList.Family
import CoreSystems.SList.Insert
import CoreSystems.SList.Remove
import CoreSystems.SList.Transfer
import CoreSystems.SList.Sequences
import CoreSystems.SList.Elements
import CoreSystems.SList.Run
import CoreSystems.SList.Simulation
import CoreSystems.SList.Ownership
import CoreSystems.SList.Client
import CoreSystems.SList.Exceptions
import CoreSystems.SList.Iterators
import CoreSystems.SList.Positions
import CoreSystems.SList.Walks
import CoreSystems.Net.Inet
import CoreSystems.Net.IPAddress
import CoreSystems.Net.AddressText
import CoreSystems.Net.SocketEndpoint
import CoreSystems.Net.EndpointText
import CoreSystems.Net.AddressKeys
import CoreSystems.Net.Native
import CoreSystems.Net.NativeRoundTrip
import CoreSystems.Net.SocketError
import CoreSystems.Net.ErrorConditions
import CoreSystems.Net.ErrorClasses
import CoreSystems.Net.SystemCalls
import CoreSystems.Net.SocketHandle
import CoreSystems.Net.Sockets
import CoreSystems.Net.Streams
import CoreSystems.Net.SocketRuntime
import CoreSystems.Net.CallRules
import CoreSystems.Net.TcpRules
import CoreSystems.Net.UdpRules
import CoreSystems.Net.TcpOpening
import CoreSystems.Net.Descriptors
import CoreSystems.Net.SocketSpecs
import CoreSystems.Net.OperationSpecs
import CoreSystems.Net.DescriptorRuns
import CoreSystems.Net.FailureAtomicity
import CoreSystems.Net.Transmission
import CoreSystems.Net.Datagrams
import CoreSystems.Net.DatagramSpecs
import CoreSystems.Net.MessageIntegrity
import CoreSystems.Net.Receiving
import CoreSystems.Net.StreamSpecs
import CoreSystems.Net.StreamIntegrity
import CoreSystems.Net.Phases
import CoreSystems.Net.PhaseRuns
import CoreSystems.Net.Kernel
import CoreSystems.Net.KernelSpecs
import CoreSystems.Net.Transfers
import CoreSystems.Net.Duplex
import CoreSystems.Net.WholeTransfers
import CoreSystems.Net.Post
import CoreSystems.Net.PostSpecs
import CoreSystems.Programs.Loopback
import CoreSystems.Programs.TcpLoopback
import CoreSystems.Programs.UdpLoopback
import CoreSystems.Programs.BenchTcp
import CoreSystems.Programs.ConnectPair
import CoreSystems.Programs.RoundTrips
import CoreSystems.Programs.Throughput
import CoreSystems.Programs.Measurements
import CoreSystems.Programs.BenchMain
import CoreSystems.Time.ScopeTimer
import CoreSystems.Time.TimerReports
