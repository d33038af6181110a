import InetManet.TCP.Timers
import InetManet.TCP.HalfClose
import InetManet.TCP.Stream
import InetManet.TCP.PeerFin
import InetManet.SCTP.UnrecognizedParameters
import InetManet.SCTP.Reassembly
import InetManet.SCTP.ReceiveBuffer
import InetManet.TCP.ListenAgain
import InetManet.SCTP.Contiguity
import InetManet.SCTP.TransmissionQueue
import InetManet.SCTP.OutstandingBytes
import InetManet.SCTP.ParserSafety
import InetManet.SCTP.RoundTrip
import InetManet.UDP.Demultiplexing
import InetManet.ARP.Delivery
import InetManet.Library.Relaxation
import InetManet.TED.RouteRebuilding
import InetManet.TED.NextHops
import InetManet.TED.ShortestPaths
import InetManet.TED.Flooding
import InetManet.RSVP.Bookkeeping
import InetManet.OSPF.ShortestPathTree
import InetManet.OSPF.ReliableFlooding
import InetManet.Network.RoutingFiles
import InetManet.Network.FragmentBuffers
import InetManet.Network.RoutingCache
import InetManet.OSPF.SequenceNumbers
import InetManet.OSPF.DatabaseConsistency
import InetManet.TCP.MessageDelivery
import InetManet.Ethernet.Learning
import InetManet.Ethernet.Transmission
import InetManet.Network.DestinationCache
import InetManet.Network.NeighbourTimers
import InetManet.LDP.Bindings
import InetManet.Ieee80211.StopAndWait
import InetManet.OSPF.Freshness
import InetManet.OSPF.Election
import InetManet.OSPF.SummaryDescription
import InetManet.OSPF.InterAreaBest
import InetManet.OSPF.ExternalBest
import InetManet.OSPF.IntraAreaNetworks
import InetManet.DYMO.LoopFreedom
import InetManet.Network.Reachability
import InetManet.TCP.ReceiveQueue
import InetManet.TCP.SynText
import InetManet.TCP.SendData
import InetManet.TCP.NothingAfterFin
import InetManet.SCTP.CumulativeAck
import InetManet.SCTP.GapEviction
import InetManet.SCTP.Fragmentation
import InetManet.SCTP.SackLoops
import InetManet.OSPF.UpdateRetransmission
import InetManet.Network.IPv6Prefix
import InetManet.Network.IPAddressText
import InetManet.Network.IPv6AddressText
import InetManet.Network.ReassemblyBuffer
import InetManet.SCTP.Scheduler
import InetManet.Network.BestMatch
import InetManet.Network.LocalAddresses
import InetManet.Network.LongestPrefixMatch
import InetManet.SCTP.GapOverflow
import InetManet.Library.OnesComplement
import InetManet.Serializers.Packets
import InetManet.DYMO.SequenceNumbers
import InetManet.UDP.ICMPErrors
import InetManet.Serializers.Checksums
import InetManet.Serializers.IPHeader
import InetManet.RTP.ReceiverInfo
import InetManet.DYMO.Prefixes
import InetManet.TCP.RetransmitData
import InetManet.TCP.EphemeralPorts
import InetManet.Network.DefaultRouters
import InetManet.OSPF.AddressConversions
import InetManet.Ethernet.RelayUnitPP
import InetManet.Library.Executions
import InetManet.DHCP.Hosts
import InetManet.DHCP.HostSteps
import InetManet.DHCP.UniqueAddresses
