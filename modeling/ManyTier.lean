import ManyTier.Lib.Run
import ManyTier.Lib.Attempt
import ManyTier.Lib.Bytes
import ManyTier.Lib.Buffer
import ManyTier.Lib.Collector
import ManyTier.Lib.Text
import ManyTier.Lib.HexText
import ManyTier.Lib.IpText
import ManyTier.Lib.IpRead
import ManyTier.Lib.Lists
import ManyTier.Lib.Table
import ManyTier.Lib.Json
import ManyTier.Lib.SortedMap
import ManyTier.Lib.Drain
import ManyTier.Lib.HoldQueue
import ManyTier.Lib.Unpack
import ManyTier.Lib.OnesComplement
import ManyTier.Lib.Bits
import ManyTier.Lib.Leading
import ManyTier.Crypto.Primitives
import ManyTier.Crypto.Salsa
import ManyTier.Crypto.AesGmacSiv
import ManyTier.Crypto.Identity
import ManyTier.Crypto.Sample
import ManyTier.Crypto.IdentityText
import ManyTier.Protocol.Header
import ManyTier.Protocol.InetAddress
import ManyTier.Protocol.Control
import ManyTier.Protocol.Fragment
import ManyTier.Protocol.Reassembly
import ManyTier.Protocol.Frames
import ManyTier.Protocol.NetworkConfig
import ManyTier.Protocol.RoundTrip
import ManyTier.Protocol.Codecs
import ManyTier.Protocol.Decoders
import ManyTier.Protocol.World
import ManyTier.Protocol.WorldFile
import ManyTier.Protocol.Reserved
import ManyTier.Node.Network
import ManyTier.Node.Multicast
import ManyTier.Node.Packets
import ManyTier.Node.Peer
import ManyTier.Node.Topology
import ManyTier.Node.State
import ManyTier.Node.Vl2
import ManyTier.Node.Admission
import ManyTier.Node.ConfigAssembly
import ManyTier.Node.ConfigApply
import ManyTier.Node.Handlers
import ManyTier.Node.Receive
import ManyTier.Node.Tick
import ManyTier.Node.Effects
import ManyTier.Node.Calls
import ManyTier.Node.ConfigContent
import ManyTier.Node.Peers
import ManyTier.Node.Sessions
import ManyTier.Node.Whois
import ManyTier.Node.Echo
import ManyTier.Node.Nesting
import ManyTier.Node.Steady
import ManyTier.Node.Roots
import ManyTier.Node.RootFlags
import ManyTier.Node.Subscriptions
import ManyTier.Node.MulticastRound
import ManyTier.Node.ConfigRequests
import ManyTier.Node.PathFlags
import ManyTier.Node.Routing
import ManyTier.Node.Ndp
import ManyTier.Security.Gate
import ManyTier.Security.Credentials
import ManyTier.Security.ConfigSource
import ManyTier.Security.FrameTrust
import ManyTier.Security.SessionKeys
import ManyTier.Security.Paths
import ManyTier.Service.ConfigResponse
import ManyTier.Service.Machine
import ManyTier.Service.ManagedRoutes
import ManyTier.Service.Fragments
import ManyTier.Service.Replays
import ManyTier.Service.CredentialsPacket
import ManyTier.Service.WhoisDrain
import ManyTier.Service.PendingFrames
import ManyTier.Service.Subscribed
import ManyTier.Service.ConfigRate
import ManyTier.Security.DirectPaths
import ManyTier.Delivery.Frames
import ManyTier.Delivery.Macs
import ManyTier.Delivery.Relay
import ManyTier.Delivery.Handshake
import ManyTier.Security.Outbound
import ManyTier.Controller.Dictionary
import ManyTier.Controller.Addresses
import ManyTier.Controller.Records
import ManyTier.Controller.ConfigBuilder
import ManyTier.Controller.Routes
import ManyTier.Controller.Networks
import ManyTier.Controller.Directory
import ManyTier.Controller.Issued
import ManyTier.Controller.IpPool
import ManyTier.Controller.Storage
import ManyTier.Controller.Sqlite
import ManyTier.Controller.ControllerStorage
import ManyTier.Controller.Backends
import ManyTier.Controller.RuleFields
import ManyTier.Controller.RuleCodec
import ManyTier.Controller.RuleJson
import ManyTier.Controller.RuleNumbers
import ManyTier.Controller.RuleWire
import ManyTier.Controller.CredentialWire
import ManyTier.Controller.NetworkApi
import ManyTier.Controller.Engine
import ManyTier.Controller.BackendRuns
import ManyTier.Controller.Requests
import ManyTier.Controller.Authorization
import ManyTier.Controller.Allocation
import ManyTier.Controller.NoAutoAssign
import ManyTier.Controller.Scan
import ManyTier.Controller.Trust
import ManyTier.Controller.AddressText
import ManyTier.Controller.Agreement
import ManyTier.Controller.WorldGen
import ManyTier.Lib.Together
import ManyTier.Delivery.Sends
import ManyTier.Service.Datagrams
import ManyTier.Security.Origin
import ManyTier.Node.Timers
import ManyTier.Node.PeerTable
import ManyTier.Service.Tun
import ManyTier.Service.JoinedNetworks
import ManyTier.Service.Moons
import ManyTier.Service.Daemon
import ManyTier.Service.Turns
import ManyTier.Service.DaemonRuns
import ManyTier.Service.TunRuns
import ManyTier.Service.Restart
import ManyTier.Service.MoonCalls
import ManyTier.Security.Tunnel
import ManyTier.Delivery.Answers
import ManyTier.Security.Granted
import ManyTier.Controller.Api
import ManyTier.Controller.ApiRuns
import ManyTier.Controller.Posted
import ManyTier.Security.Admission
