import Subp2pExplorer.Types.Multihash

/-! Address components. `Protocol` is the core crate's own enumeration, held
between litep2p's and libp2p's. The four conversions are written arm by arm as
in the crate. The litep2p ones are inverse to each other. On the libp2p side
one component has no way back: what leaves as `webRTCDirect` returns through
the catch-all arm as a DCCP port. -/
namespace Subp2pExplorer.Types

abbrev Ipv4Addr := Vector UInt8 4
abbrev Ipv6Addr := Vector UInt8 16

/-- An onion v3 service: its key hash and port. -/
structure Onion3Addr where
  hash : Vector UInt8 35
  port : UInt16
  deriving DecidableEq

/-- litep2p's component type. -/
inductive LiteP2pProtocol where
  | dccp (port : UInt16)
  | dns (str : String)
  | dns4 (str : String)
  | dns6 (str : String)
  | dnsaddr (str : String)
  | http
  | https
  | ip4 (addr : Ipv4Addr)
  | ip6 (addr : Ipv6Addr)
  | p2pWebRtcDirect
  | p2pWebRtcStar
  | webRTC
  | certhash (multihash : LiteP2pMultihash)
  | p2pWebSocketStar
  | memory (port : UInt64)
  | onion (str : Vector UInt8 10) (port : UInt16)
  | onion3 (addr : Onion3Addr)
  | p2p (multihash : LiteP2pMultihash)
  | p2pCircuit
  | quic
  | quicV1
  | sctp (port : UInt16)
  | tcp (port : UInt16)
  | tls
  | noise
  | udp (port : UInt16)
  | udt
  | unix (str : String)
  | utp
  | ws (str : String)
  | wss (str : String)
  deriving DecidableEq

/-- libp2p's component type. Its enumeration is open: the variants the crate
never names are `other`, known by their tag. -/
inductive LibP2pProtocol (PeerId : Type) where
  | dccp (port : UInt16)
  | dns (str : String)
  | dns4 (str : String)
  | dns6 (str : String)
  | dnsaddr (str : String)
  | http
  | https
  | ip4 (addr : Ipv4Addr)
  | ip6 (addr : Ipv6Addr)
  | p2pWebRtcDirect
  | p2pWebRtcStar
  | webRTCDirect
  | certhash (multihash : LibP2pMultihash)
  | p2pWebSocketStar
  | memory (port : UInt64)
  | onion (str : Vector UInt8 10) (port : UInt16)
  | onion3 (addr : Onion3Addr)
  | p2p (peer : PeerId)
  | p2pCircuit
  | quic
  | quicV1
  | sctp (port : UInt16)
  | tcp (port : UInt16)
  | tls
  | noise
  | udp (port : UInt16)
  | udt
  | unix (str : String)
  | utp
  | ws (str : String)
  | wss (str : String)
  | other (tag : String)
  deriving DecidableEq

/-- The core crate's component type. -/
inductive Protocol where
  | dccp (port : UInt16)
  | dns (str : String)
  | dns4 (str : String)
  | dns6 (str : String)
  | dnsaddr (str : String)
  | http
  | https
  | ip4 (addr : Ipv4Addr)
  | ip6 (addr : Ipv6Addr)
  | p2pWebRtcDirect
  | p2pWebRtcStar
  | webRTC
  | certhash (multihash : Multihash)
  | p2pWebSocketStar
  | memory (port : UInt64)
  | onion (str : Vector UInt8 10) (port : UInt16)
  | onion3 (str : Vector UInt8 35) (port : UInt16)
  | p2p (multihash : Multihash)
  | p2pCircuit
  | quic
  | quicV1
  | sctp (port : UInt16)
  | tcp (port : UInt16)
  | tls
  | noise
  | udp (port : UInt16)
  | udt
  | unix (str : String)
  | utp
  | ws (str : String)
  | wss (str : String)
  deriving DecidableEq

namespace Protocol

def ofLiteP2p : LiteP2pProtocol → Protocol
  | .dccp port => .dccp port
  | .dns str => .dns str
  | .dns4 str => .dns4 str
  | .dns6 str => .dns6 str
  | .dnsaddr str => .dnsaddr str
  | .http => .http
  | .https => .https
  | .ip4 addr => .ip4 addr
  | .ip6 addr => .ip6 addr
  | .p2pWebRtcDirect => .p2pWebRtcDirect
  | .p2pWebRtcStar => .p2pWebRtcStar
  | .webRTC => .webRTC
  | .certhash multihash => .certhash (.ofLiteP2p multihash)
  | .p2pWebSocketStar => .p2pWebSocketStar
  | .memory port => .memory port
  | .onion str port => .onion str port
  | .onion3 addr => .onion3 addr.hash addr.port
  | .p2p multihash => .p2p (.ofLiteP2p multihash)
  | .p2pCircuit => .p2pCircuit
  | .quic => .quic
  | .quicV1 => .quicV1
  | .sctp port => .sctp port
  | .tcp port => .tcp port
  | .tls => .tls
  | .noise => .noise
  | .udp port => .udp port
  | .udt => .udt
  | .unix str => .unix str
  | .utp => .utp
  | .ws str => .ws str
  | .wss str => .wss str

def toLiteP2p : Protocol → LiteP2pProtocol
  | .dccp port => .dccp port
  | .dns str => .dns str
  | .dns4 str => .dns4 str
  | .dns6 str => .dns6 str
  | .dnsaddr str => .dnsaddr str
  | .http => .http
  | .https => .https
  | .ip4 addr => .ip4 addr
  | .ip6 addr => .ip6 addr
  | .p2pWebRtcDirect => .p2pWebRtcDirect
  | .p2pWebRtcStar => .p2pWebRtcStar
  | .webRTC => .webRTC
  | .certhash multihash => .certhash multihash.toLiteP2p
  | .p2pWebSocketStar => .p2pWebSocketStar
  | .memory port => .memory port
  | .onion str port => .onion str port
  | .onion3 str port => .onion3 ⟨str, port⟩
  | .p2p multihash => .p2p multihash.toLiteP2p
  | .p2pCircuit => .p2pCircuit
  | .quic => .quic
  | .quicV1 => .quicV1
  | .sctp port => .sctp port
  | .tcp port => .tcp port
  | .tls => .tls
  | .noise => .noise
  | .udp port => .udp port
  | .udt => .udt
  | .unix str => .unix str
  | .utp => .utp
  | .ws str => .ws str
  | .wss str => .wss str

section LibP2p
variable {PeerId : Type} (identity : PeerIdentity PeerId) (random : LibP2pMultihash → PeerId)

def ofLibP2p : LibP2pProtocol PeerId → Protocol
  | .dccp port => .dccp port
  | .dns str => .dns str
  | .dns4 str => .dns4 str
  | .dns6 str => .dns6 str
  | .dnsaddr str => .dnsaddr str
  | .http => .http
  | .https => .https
  | .ip4 addr => .ip4 addr
  | .ip6 addr => .ip6 addr
  | .p2pWebRtcDirect => .p2pWebRtcDirect
  | .p2pWebRtcStar => .p2pWebRtcStar
  | .certhash multihash => .certhash (.ofLibP2p multihash)
  | .p2pWebSocketStar => .p2pWebSocketStar
  | .memory port => .memory port
  | .onion str port => .onion str port
  | .onion3 addr => .onion3 addr.hash addr.port
  | .p2p peer => .p2p (.ofLibP2p (identity.asMultihash peer))
  | .p2pCircuit => .p2pCircuit
  | .quic => .quic
  | .quicV1 => .quicV1
  | .sctp port => .sctp port
  | .tcp port => .tcp port
  | .tls => .tls
  | .noise => .noise
  | .udp port => .udp port
  | .udt => .udt
  | .unix str => .unix str
  | .utp => .utp
  | .ws str => .ws str
  | .wss str => .wss str
  -- The catch-all arm: `webRTCDirect` has none of its own and lands here.
  | _ => .dccp 0

/-- A multihash that is no peer id is replaced by a `random` one. -/
def toLibP2p : Protocol → LibP2pProtocol PeerId
  | .dccp port => .dccp port
  | .dns str => .dns str
  | .dns4 str => .dns4 str
  | .dns6 str => .dns6 str
  | .dnsaddr str => .dnsaddr str
  | .http => .http
  | .https => .https
  | .ip4 addr => .ip4 addr
  | .ip6 addr => .ip6 addr
  | .p2pWebRtcDirect => .p2pWebRtcDirect
  | .p2pWebRtcStar => .p2pWebRtcStar
  | .webRTC => .webRTCDirect
  | .certhash multihash => .certhash multihash.toLibP2p
  | .p2pWebSocketStar => .p2pWebSocketStar
  | .memory port => .memory port
  | .onion str port => .onion str port
  | .onion3 str port => .onion3 ⟨str, port⟩
  | .p2p multihash =>
    .p2p ((identity.fromMultihash multihash.toLibP2p).getD (random multihash.toLibP2p))
  | .p2pCircuit => .p2pCircuit
  | .quic => .quic
  | .quicV1 => .quicV1
  | .sctp port => .sctp port
  | .tcp port => .tcp port
  | .tls => .tls
  | .noise => .noise
  | .udp port => .udp port
  | .udt => .udt
  | .unix str => .unix str
  | .utp => .utp
  | .ws str => .ws str
  | .wss str => .wss str

/-- The condition of the address conversion: a P2p component names a peer. -/
def ValidPeer (protocol : Protocol) : Prop :=
  ∀ multihash, protocol = .p2p multihash → (identity.fromMultihash multihash.toLibP2p).isSome

/-- A libp2p component that the crate itself can produce. -/
def Produced (component : LibP2pProtocol PeerId) : Prop :=
  ∃ protocol, toLibP2p identity random protocol = component

end LibP2p

/-- litep2p components are a faithful copy of the crate's. -/
@[simp] theorem of_lite_to_lite (protocol : Protocol) : ofLiteP2p protocol.toLiteP2p = protocol := by
  cases protocol <;> rfl

@[simp] theorem to_lite_of_lite (protocol : LiteP2pProtocol) : (ofLiteP2p protocol).toLiteP2p = protocol := by
  cases protocol <;> rfl

section LibP2p
variable {PeerId : Type} {identity : PeerIdentity PeerId} {random : LibP2pMultihash → PeerId}

/-- Every component but `webRTC` comes back from libp2p as it left. -/
theorem of_lib_to_lib (protocol : Protocol) (valid : ValidPeer identity protocol)
    (kept : protocol ≠ .webRTC) : ofLibP2p identity (toLibP2p identity random protocol) = protocol := by
  cases protocol with
  | webRTC => exact absurd rfl kept
  | p2p multihash =>
    obtain ⟨peer, accepted⟩ := Option.isSome_iff_exists.mp (valid multihash rfl)
    have unwrapped := identity.accepted_kept _ _ accepted
    simp [toLibP2p, ofLibP2p, accepted, unwrapped]
  | _ => rfl

theorem web_rtc_lost : ofLibP2p identity (toLibP2p identity random .webRTC) = .dccp 0 := rfl

/-- Every produced component but `webRTCDirect` survives a visit to the crate. -/
theorem to_lib_of_lib (component : LibP2pProtocol PeerId)
    (produced : Produced identity random component) (kept : component ≠ .webRTCDirect) :
    toLibP2p identity random (ofLibP2p identity component) = component := by
  cases component with
  | webRTCDirect => exact absurd rfl kept
  | other tag =>
    obtain ⟨protocol, image⟩ := produced
    cases protocol <;> cases image
  | p2p peer => simp [toLibP2p, ofLibP2p, identity.accepts_own]
  | _ => rfl

theorem web_rtc_direct_lost :
    toLibP2p identity random (ofLibP2p identity .webRTCDirect) = .dccp 0 := rfl

end LibP2p
end Protocol
end Subp2pExplorer.Types
