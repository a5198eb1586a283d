import Subp2pExplorer.Lib.Runs
import Subp2pExplorer.Notifications.Behavior
import Subp2pExplorer.Types.Multiaddr

/-! The discovery of the whole network: what its tables take from the events
of the swarm, and the roles that peers announce in their handshakes. Kademlia
is the counter its query ids come from; timers and log lines are left out. -/
namespace Subp2pExplorer.Network
open Lib Notifications Subp2pExplorer.Types

/-- Maximum number of random walks kept in flight. -/
def maxQueries : Nat := 128

/-- What the identify protocol tells of a peer, as far as it is used. -/
structure Info where
  protocols : List String

/-- What the discovery asked of its swarm, in order. -/
structure Swarm (PeerId : Type) where
  started : Nat
  known : List (PeerId × LibP2pMultiaddr PeerId)
  dials : List (LibP2pMultiaddr PeerId)

structure NetworkDiscovery (PeerId QueryId : Type) where
  swarm : Swarm PeerId
  queries : Finset QueryId
  discoveredWithAddresses : Map PeerId (Finset (LibP2pMultiaddr PeerId))
  peerDetails : Map PeerId Info
  peerRole : Map PeerId ProtocolRole
  dialedPeers : Map PeerId Nat
  dialedAddresses : Finset (LibP2pMultiaddr PeerId)

/-- The swarm events `handle_event` acts on; all others are `other`. -/
inductive SwarmEvent (PeerId QueryId : Type) where
  | dialing (peerId : Option PeerId)
  | closestPeers (id : QueryId)
  | routingUpdated (peer : PeerId) (addresses : List (LibP2pMultiaddr PeerId))
  | routablePeer (peer : PeerId) (address : LibP2pMultiaddr PeerId)
  | pendingRoutablePeer (peer : PeerId) (address : LibP2pMultiaddr PeerId)
  | identified (peerId : PeerId) (info : Info)
  | notifications (event : NotificationsToSwarm PeerId)
  | other

namespace NetworkDiscovery
variable {PeerId QueryId : Type} [DecidableEq PeerId] [DecidableEq QueryId] (queryId : Nat → QueryId)

def new : NetworkDiscovery PeerId QueryId where
  swarm := { started := 0, known := [], dials := [] }
  queries := ∅
  discoveredWithAddresses := ∅
  peerDetails := ∅
  peerRole := ∅
  dialedPeers := ∅
  dialedAddresses := ∅

def getClosestPeers (s : NetworkDiscovery PeerId QueryId) : NetworkDiscovery PeerId QueryId :=
  { s with
    queries := insert (queryId s.swarm.started) s.queries
    swarm := { s.swarm with started := s.swarm.started + 1 } }

/-- Top up the random walks. No query id comes twice, so each round of the loop
adds one. -/
def topUpQueries (s : NetworkDiscovery PeerId QueryId) : NetworkDiscovery PeerId QueryId :=
  (getClosestPeers queryId)^[maxQueries - s.queries.card] s

/-- Each address is dialed at most once; an error of the dial is only logged. -/
def forceDial (peer : PeerId) (s : NetworkDiscovery PeerId QueryId) (addr : LibP2pMultiaddr PeerId) :
    NetworkDiscovery PeerId QueryId :=
  if addr ∈ s.dialedAddresses then s
  else
    { s with
      dialedAddresses := insert addr s.dialedAddresses
      swarm := { s.swarm with known := s.swarm.known ++ [(peer, addr)], dials := s.swarm.dials ++ [addr] } }

/-- Track the dialed peers. -/
def dialedPeer (peerId : Option PeerId) (s : NetworkDiscovery PeerId QueryId) : NetworkDiscovery PeerId QueryId :=
  match peerId with
  | none => s
  | some peerId => { s with dialedPeers := s.dialedPeers.upsert peerId (· + 1) 0 }

/-- Addresses surfaced for a peer are dialed and kept. -/
def discovered (peer : PeerId) (addrs : List (LibP2pMultiaddr PeerId)) (s : NetworkDiscovery PeerId QueryId) :
    NetworkDiscovery PeerId QueryId :=
  let s := addrs.foldl (forceDial peer) s
  { s with discoveredWithAddresses :=
      s.discoveredWithAddresses.upsert peer (fun known => known ∪ addrs.toFinset) addrs.toFinset }

def handleEvent (s : NetworkDiscovery PeerId QueryId) (event : SwarmEvent PeerId QueryId) :
    NetworkDiscovery PeerId QueryId :=
  match event with
  | .dialing peerId => dialedPeer peerId s
  | .closestPeers id => topUpQueries queryId { s with queries := s.queries.erase id }
  | .routingUpdated peer addresses => discovered peer addresses s
  | .routablePeer peer address => discovered peer [address] s
  | .pendingRoutablePeer peer address => discovered peer [address] s
  | .identified peerId info => { s with peerDetails := s.peerDetails.insert peerId info }
  | .notifications (.customProtocolOpen peerId _ receivedHandshake _ _) =>
    match ProtocolRole.decode receivedHandshake with
    | .ok role => { s with peerRole := s.peerRole.insert peerId role }
    | .error _ => s
  | .notifications _ => s
  | .other => s

/-- `drive_events`, over the events it is handed. -/
def driveEvents (events : List (SwarmEvent PeerId QueryId)) : NetworkDiscovery PeerId QueryId :=
  events.foldl (handleEvent queryId) (topUpQueries queryId new)

variable {queryId}

omit [DecidableEq PeerId] in
/-- A top-up changes the queries and the counter their ids come from. -/
theorem top_up_keeps {β : Type} (get : NetworkDiscovery PeerId QueryId → β)
    (keeps : ∀ s, get (getClosestPeers queryId s) = get s) (s : NetworkDiscovery PeerId QueryId) :
    get (topUpQueries queryId s) = get s :=
  iterate_keeps get keeps _ s

omit [DecidableEq QueryId] in
theorem discovered_roles (peer : PeerId) (addrs : List (LibP2pMultiaddr PeerId))
    (s : NetworkDiscovery PeerId QueryId) : (discovered peer addrs s).peerRole = s.peerRole := by
  have dialed : ∀ (s : NetworkDiscovery PeerId QueryId) addr, (forceDial peer s addr).peerRole = s.peerRole := by
    intro s addr
    unfold forceDial
    split <;> rfl
  exact fold_keeps peerRole dialed addrs s

/-- Roles are recorded from one event only: a protocol opened with a handshake
that starts with a role. -/
theorem handle_event_roles (s : NetworkDiscovery PeerId QueryId) (event : SwarmEvent PeerId QueryId) :
    (handleEvent queryId s event).peerRole = s.peerRole ∨
      ∃ peerId index handshake inbound sender role,
        event = .notifications (.customProtocolOpen peerId index handshake inbound sender) ∧
        ProtocolRole.decode handshake = .ok role ∧
        (handleEvent queryId s event).peerRole = s.peerRole.insert peerId role := by
  unfold handleEvent
  cases event with
  | dialing peerId => cases peerId <;> exact .inl rfl
  | closestPeers id => exact .inl (top_up_keeps peerRole (fun _ => rfl) _)
  | routingUpdated peer addresses => exact .inl (discovered_roles _ _ _)
  | routablePeer peer address => exact .inl (discovered_roles _ _ _)
  | pendingRoutablePeer peer address => exact .inl (discovered_roles _ _ _)
  | identified peerId info => exact .inl rfl
  | other => exact .inl rfl
  | notifications event =>
    cases event with
    | customProtocolOpen peerId index handshake inbound sender =>
      dsimp only
      cases decoded : ProtocolRole.decode handshake with
      | ok role => exact .inr ⟨peerId, index, handshake, inbound, sender, role, rfl, decoded, rfl⟩
      | error _ => exact .inl rfl
    | customProtocolClosed peerId index => exact .inl rfl
    | notification peerId index message => exact .inl rfl

end NetworkDiscovery
end Subp2pExplorer.Network
