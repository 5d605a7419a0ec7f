import NodeIdentity.Properties.FqdnCache
import NodeIdentity.Properties.LearnedBindings
import NodeIdentity.Properties.NextHop
import NodeIdentity.Properties.Nid32Delivery
import NodeIdentity.Properties.Registration
import NodeIdentity.Properties.RendezvousService
import NodeIdentity.Properties.ResolutionLoop
import NodeIdentity.Properties.ResolutionRequests
import NodeIdentity.Properties.StaticBindings
import NodeIdentity.Properties.ConnectionMap
import NodeIdentity.Properties.Handover
import NodeIdentity.Properties.HomeCore
import NodeIdentity.Properties.CoreForwarding
import NodeIdentity.Properties.ParentGateway
import NodeIdentity.Properties.LocationUpdate
import NodeIdentity.Properties.DnsService
import NodeIdentity.Properties.DnsAnswers
import NodeIdentity.Dhcp
import NodeIdentity.Properties.DhcpConfiguration
import NodeIdentity.Properties.RequestLocks
import NodeIdentity.Properties.RoutingMap
import NodeIdentity.Properties.StaticEntries
import NodeIdentity.Properties.DhtFreshness
import NodeIdentity.Properties.GatewayCoherence
import NodeIdentity.DhtThreads
import NodeIdentity.Library.ShiftXor
import NodeIdentity.Properties.DhtKeys
import NodeIdentity.Properties.DhtReplies
import NodeIdentity.Properties.TunnelTransparency
import NodeIdentity.Properties.DatagramSafety
import NodeIdentity.Library.DnsMessage
import NodeIdentity.Properties.DnsMessages
import NodeIdentity.Properties.DnsIsolation
import NodeIdentity.Properties.DnsTransparency
import NodeIdentity.Properties.CachedNames
import NodeIdentity.Properties.DnsBounds
import NodeIdentity.Properties.DnsSockets
import NodeIdentity.Properties.MapperKeys
import NodeIdentity.Properties.DnsRebinding
import NodeIdentity.InetText
import NodeIdentity.Properties.DhcpFields
import NodeIdentity.Properties.DhcpMobility
import NodeIdentity.Library.ByteOrder
import NodeIdentity.Properties.AddressDerivations
import NodeIdentity.Properties.RvsDatagrams
import NodeIdentity.Library.BucketTable
import NodeIdentity.HashMemory
import NodeIdentity.Properties.HashMaps
import NodeIdentity.Library.DomTree
import NodeIdentity.ReadConfig
import NodeIdentity.Library.Assignments
import NodeIdentity.Properties.ElementOrder
import NodeIdentity.Properties.Delivery
import NodeIdentity.Properties.DaemonRest
import NodeIdentity.Properties.DaemonFlow
import NodeIdentity.Properties.GatewayFlow
import NodeIdentity.Properties.TransitFlow
import NodeIdentity.Properties.RendezvousHost
import NodeIdentity.Udpip
import NodeIdentity.Properties.UdpipChecksums
import NodeIdentity.DhcpClient
import NodeIdentity.Properties.DhcpFrames
import NodeIdentity.Properties.DhcpOptionMemory
import NodeIdentity.Properties.DhcpOptionTable
import NodeIdentity.Properties.DhcpHost
