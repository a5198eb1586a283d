import Subp2pExplorer.Lib.Runs
import Subp2pExplorer.Lib.Maps
import Subp2pExplorer.Types.PeerId
import Subp2pExplorer.Types.Addresses
import Subp2pExplorer.Identity.Names
import Subp2pExplorer.Identity.Layouts
import Subp2pExplorer.Authorities.PeerIds
import Subp2pExplorer.Authorities.Slots
import Subp2pExplorer.Authorities.Confluence
import Subp2pExplorer.Authorities.Peers
import Subp2pExplorer.Authorities.Runtime
import Subp2pExplorer.Check.Discovered
import Subp2pExplorer.Check.Summary
import Subp2pExplorer.Check.Attempts
import Subp2pExplorer.Check.Consistency
import Subp2pExplorer.Check.DualWriter
import Subp2pExplorer.Check.Report
import Subp2pExplorer.Check.JsonReport
import Subp2pExplorer.Check.Commands
import Subp2pExplorer.Notifications.Waits
import Subp2pExplorer.Notifications.Exchange
import Subp2pExplorer.Notifications.Agreement
import Subp2pExplorer.Notifications.Negotiations
import Subp2pExplorer.Notifications.Rounds
import Subp2pExplorer.Notifications.Channels
import Subp2pExplorer.Notifications.EndToEnd
import Subp2pExplorer.Notifications.Wakers
import Subp2pExplorer.Network.PeerBehavior
import Subp2pExplorer.Network.Bootnodes
import Subp2pExplorer.Network.Swarms
import Subp2pExplorer.Network.PeerDiscovery
import Subp2pExplorer.Network.Tables
import Subp2pExplorer.Network.Extrinsics
import Subp2pExplorer.Network.Hunt
import Subp2pExplorer.Network.DialPeer
import Subp2pExplorer.Backends.Queries
import Subp2pExplorer.Backends.Benchmark
import Subp2pExplorer.Network.PeerServices
import Subp2pExplorer.Network.Cities
