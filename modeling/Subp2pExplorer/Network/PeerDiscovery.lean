import Subp2pExplorer.Lib.Runs
import Subp2pExplorer.Network.Discovery

/-! The hunt for one peer. Addresses of the target surface in four kinds of
events; what is reported of them at the end is held against what was dialed.
Kademlia is the counter its query ids come from; what is only printed or logged
is left out. -/
namespace Subp2pExplorer.Network
open Lib Notifications Subp2pExplorer.Types

/-- What a response of Kademlia tells of one peer. -/
structure PeerInfo (PeerId : Type) where
  peerId : PeerId
  addrs : List (LibP2pMultiaddr PeerId)

inductive GetClosestPeers (PeerId : Type) where
  | ok (peers : List (PeerInfo PeerId))
  | timeout (peers : List (PeerInfo PeerId))

def GetClosestPeers.peers {PeerId : Type} : GetClosestPeers PeerId → List (PeerInfo PeerId)
  | ok peers => peers
  | timeout peers => peers

structure PeerDiscovery (PeerId QueryId : Type) where
  target : PeerId
  swarm : Swarm PeerId
  queries : Finset QueryId
  discoveredWithAddresses : Map PeerId (Finset (LibP2pMultiaddr PeerId))
  peerDetails : Map PeerId Info
  peerRole : Map PeerId ProtocolRole
  dialedAddresses : Finset (LibP2pMultiaddr PeerId)
  targetIdentified : Bool
  targetDhtReports : Nat
  targetKnownAddresses : Finset (LibP2pMultiaddr PeerId)

/-- The swarm events `handle_event` acts on; all others are `other`. -/
inductive DiscoverPeerEvent (PeerId QueryId : Type) where
  | closestPeers (id : QueryId) (result : GetClosestPeers PeerId)
  | routingUpdated (peer : PeerId) (addresses : List (LibP2pMultiaddr PeerId))
  | routablePeer (peer : PeerId) (address : LibP2pMultiaddr PeerId)
  | pendingRoutablePeer (peer : PeerId) (address : LibP2pMultiaddr PeerId)
  | identified (peerId : PeerId) (info : Info)
  | notifications (event : NotificationsToSwarm PeerId)
  | other

/-- What the loop of `drive_events` wakes up for. -/
inductive DiscoverPeerTurn (PeerId QueryId : Type) where
  | event (event : DiscoverPeerEvent PeerId QueryId)
  | resubmit
  | log

namespace PeerDiscovery
variable {PeerId QueryId : Type} [DecidableEq PeerId] [DecidableEq QueryId] (queryId : Nat → QueryId)

def new (target : PeerId) : PeerDiscovery PeerId QueryId where
  target := target
  swarm := { started := 0, known := [], dials := [] }
  queries := ∅
  discoveredWithAddresses := ∅
  peerDetails := ∅
  peerRole := ∅
  dialedAddresses := ∅
  targetIdentified := false
  targetDhtReports := 0
  targetKnownAddresses := ∅

/-- The addresses count as known whether they are dialed or not. -/
def noteTargetAddresses (addrs : List (LibP2pMultiaddr PeerId)) (s : PeerDiscovery PeerId QueryId) :
    PeerDiscovery PeerId QueryId :=
  { s with
    targetDhtReports := s.targetDhtReports + 1
    targetKnownAddresses := addrs.foldl (fun known addr => insert addr known) s.targetKnownAddresses }

def getClosestPeers (s : PeerDiscovery PeerId QueryId) : PeerDiscovery PeerId QueryId :=
  { s with
    queries := insert (queryId s.swarm.started) s.queries
    swarm := { s.swarm with started := s.swarm.started + 1 } }

/-- Top up the queries, all keyed on the target. No query id comes twice, so
each round of the loop adds one. -/
def topUpQueries (s : PeerDiscovery PeerId QueryId) : PeerDiscovery PeerId QueryId :=
  (getClosestPeers queryId)^[maxQueries - s.queries.card] s

def forceDial (peer : PeerId) (s : PeerDiscovery PeerId QueryId) (addr : LibP2pMultiaddr PeerId) :
    PeerDiscovery PeerId QueryId :=
  if addr ∈ s.dialedAddresses then s
  else
    { s with
      dialedAddresses := insert addr s.dialedAddresses
      swarm := { s.swarm with known := s.swarm.known ++ [(peer, addr)], dials := s.swarm.dials ++ [addr] } }

/-- The addresses a response lists for the target. -/
def targetAddrs (target : PeerId) (peers : List (PeerInfo PeerId)) : List (LibP2pMultiaddr PeerId) :=
  (peers.filter fun p => p.peerId = target).flatMap PeerInfo.addrs

/-- Addresses surfaced for a peer are noted where it is the target, dialed, and
kept. -/
def discovered (peer : PeerId) (addrs : List (LibP2pMultiaddr PeerId)) (s : PeerDiscovery PeerId QueryId) :
    PeerDiscovery PeerId QueryId :=
  let s := if peer = s.target then noteTargetAddresses addrs s else s
  let s := addrs.foldl (forceDial peer) s
  { s with discoveredWithAddresses :=
      s.discoveredWithAddresses.upsert peer (fun known => known ∪ addrs.toFinset) addrs.toFinset }

/-- A result of a query: the addresses it lists for the target are noted, and
not dialed. -/
def closestPeers (id : QueryId) (result : GetClosestPeers PeerId) (s : PeerDiscovery PeerId QueryId) :
    PeerDiscovery PeerId QueryId :=
  let s := { s with queries := s.queries.erase id }
  let addrs := targetAddrs s.target result.peers
  let s := if addrs.isEmpty then s else noteTargetAddresses addrs s
  topUpQueries queryId s

def handleEvent (s : PeerDiscovery PeerId QueryId) (event : DiscoverPeerEvent PeerId QueryId) :
    PeerDiscovery PeerId QueryId :=
  match event with
  | .closestPeers id result => closestPeers queryId id result s
  | .routingUpdated peer addresses => discovered peer addresses s
  | .routablePeer peer address => discovered peer [address] s
  | .pendingRoutablePeer peer address => discovered peer [address] s
  | .identified peerId info =>
    { s with
      targetIdentified := if peerId = s.target then true else s.targetIdentified
      peerDetails := s.peerDetails.insert peerId info }
  | .notifications (.customProtocolOpen peerId _ receivedHandshake _ _) =>
    match ProtocolRole.decode receivedHandshake with
    | .ok role => { s with peerRole := s.peerRole.insert peerId role }
    | .error _ => s
  | .notifications _ => s
  | .other => s

/-- `drive_events`. The log line changes nothing. -/
def machine (target : PeerId) : Machine (PeerDiscovery PeerId QueryId) (DiscoverPeerTurn PeerId QueryId) where
  start := topUpQueries queryId (new target)
  next s
    | .event event => some (handleEvent queryId s event)
    | .resubmit => some (topUpQueries queryId s)
    | .log => some s

/-- A result that lists only dialed addresses for the target. -/
def ListsDialed (s : PeerDiscovery PeerId QueryId) : DiscoverPeerTurn PeerId QueryId → Prop
  | .event (.closestPeers _ result) => ∀ addr ∈ targetAddrs s.target result.peers, addr ∈ s.dialedAddresses
  | _ => True

variable {queryId} {s s' : PeerDiscovery PeerId QueryId}

omit [DecidableEq PeerId] in
/-- A top-up changes the queries and the counter their ids come from. -/
theorem top_up_keeps {β : Type} (get : PeerDiscovery PeerId QueryId → β)
    (keeps : ∀ s, get (getClosestPeers queryId s) = get s) (s : PeerDiscovery PeerId QueryId) :
    get (topUpQueries queryId s) = get s :=
  iterate_keeps get keeps _ s

omit [DecidableEq QueryId] in
theorem note_target_addresses (addrs : List (LibP2pMultiaddr PeerId)) (s : PeerDiscovery PeerId QueryId) :
    (noteTargetAddresses addrs s).targetKnownAddresses = s.targetKnownAddresses ∪ addrs.toFinset := by
  unfold noteTargetAddresses
  dsimp only
  generalize s.targetKnownAddresses = known
  exact HashSet.fold_inserts id (fun _ _ => rfl) addrs known

omit [DecidableEq QueryId] in
theorem force_dial_dialed (peer : PeerId) (s : PeerDiscovery PeerId QueryId) (addr : LibP2pMultiaddr PeerId) :
    (forceDial peer s addr).dialedAddresses = insert addr s.dialedAddresses := by
  unfold forceDial
  split
  · rename_i before
    exact (Finset.insert_eq_of_mem before).symm
  · rfl

omit [DecidableEq QueryId] in
theorem force_dial_known (peer : PeerId) (s : PeerDiscovery PeerId QueryId) (addr : LibP2pMultiaddr PeerId) :
    (forceDial peer s addr).targetKnownAddresses = s.targetKnownAddresses := by
  unfold forceDial
  split <;> rfl

omit [DecidableEq QueryId] in
/-- What surfaces for a peer is dialed, and known where it is the target. -/
theorem discovered_addresses (peer : PeerId) (addrs : List (LibP2pMultiaddr PeerId))
    (s : PeerDiscovery PeerId QueryId) :
    (discovered peer addrs s).dialedAddresses = s.dialedAddresses ∪ addrs.toFinset ∧
      (discovered peer addrs s).targetKnownAddresses =
        s.targetKnownAddresses ∪ if peer = s.target then addrs.toFinset else ∅ := by
  have dialed := HashSet.fold_inserts dialedAddresses (@force_dial_dialed _ QueryId _ peer) addrs
  have known := fold_keeps targetKnownAddresses (@force_dial_known _ QueryId _ peer) addrs
  unfold discovered
  dsimp only
  rw [dialed, known]
  split
  · exact ⟨rfl, note_target_addresses addrs s⟩
  · exact ⟨rfl, (Finset.union_empty _).symm⟩

theorem closest_peers_addresses (id : QueryId) (result : GetClosestPeers PeerId)
    (s : PeerDiscovery PeerId QueryId) :
    (closestPeers queryId id result s).dialedAddresses = s.dialedAddresses ∧
      (closestPeers queryId id result s).targetKnownAddresses =
        s.targetKnownAddresses ∪ (targetAddrs s.target result.peers).toFinset := by
  unfold closestPeers
  dsimp only
  rw [top_up_keeps targetKnownAddresses fun _ => rfl, top_up_keeps dialedAddresses fun _ => rfl]
  split
  · rename_i none
    rw [List.isEmpty_iff.mp none, List.toFinset_nil, Finset.union_empty]
    exact ⟨rfl, rfl⟩
  · exact ⟨rfl, note_target_addresses _ _⟩

/-- A turn from a state whose known addresses are dialed leads to another one
exactly if it is no result that lists an address that is not. -/
theorem turn_known_iff {target : PeerId} {turn : DiscoverPeerTurn PeerId QueryId}
    (held : s.targetKnownAddresses ⊆ s.dialedAddresses) (step : (machine queryId target).next s turn = some s') :
    s'.targetKnownAddresses ⊆ s'.dialedAddresses ↔ s.ListsDialed turn := by
  have dialing : ∀ peer addrs, (discovered peer addrs s).targetKnownAddresses ⊆
      (discovered peer addrs s).dialedAddresses := by
    intro peer addrs
    obtain ⟨dialed, known⟩ := discovered_addresses peer addrs s
    rw [dialed, known]
    refine Finset.union_subset_union held ?_
    split
    · exact Finset.Subset.refl _
    · exact Finset.empty_subset _
  cases turn with
  | event event =>
    cases step
    cases event with
    | closestPeers id result =>
      obtain ⟨dialed, known⟩ := @closest_peers_addresses _ _ _ _ queryId id result s
      show (closestPeers queryId id result s).targetKnownAddresses ⊆
        (closestPeers queryId id result s).dialedAddresses ↔ _
      rw [dialed, known, Finset.union_subset_iff, and_iff_right held]
      refine forall_congr' fun addr => ?_
      rw [List.mem_toFinset]
    | routingUpdated peer addresses => exact iff_of_true (dialing peer addresses) trivial
    | routablePeer peer address => exact iff_of_true (dialing peer [address]) trivial
    | pendingRoutablePeer peer address => exact iff_of_true (dialing peer [address]) trivial
    | identified peerId info => exact iff_of_true held trivial
    | other => exact iff_of_true held trivial
    | notifications event =>
      have same : (handleEvent queryId s (.notifications event)).targetKnownAddresses = s.targetKnownAddresses ∧
          (handleEvent queryId s (.notifications event)).dialedAddresses = s.dialedAddresses := by
        unfold handleEvent
        cases event with
        | customProtocolOpen peerId index handshake inbound sender =>
          dsimp only
          cases ProtocolRole.decode handshake <;> exact ⟨rfl, rfl⟩
        | customProtocolClosed peerId index => exact ⟨rfl, rfl⟩
        | notification peerId index message => exact ⟨rfl, rfl⟩
      rw [same.1, same.2]
      exact iff_of_true held trivial
  | resubmit =>
    cases step
    rw [top_up_keeps targetKnownAddresses fun _ => rfl, top_up_keeps dialedAddresses fun _ => rfl]
    exact iff_of_true held trivial
  | log =>
    cases step
    exact iff_of_true held trivial

/-- All along a run the known addresses of the target have been dialed, exactly
if no result lists an address for it that was not dialed before. -/
theorem known_dialed_iff {target : PeerId} {turns : List (DiscoverPeerTurn PeerId QueryId)}
    {t : PeerDiscovery PeerId QueryId} (run : (machine queryId target).replay turns = some t) :
    (∀ earlier later s, turns = earlier ++ later → (machine queryId target).replay earlier = some s →
      s.targetKnownAddresses ⊆ s.dialedAddresses) ↔ (machine queryId target).Meets ListsDialed turns := by
  refine Machine.throughout_iff ?_ (fun s l s' held step => turn_known_iff held step) run
  show (topUpQueries queryId (new target)).targetKnownAddresses ⊆ _
  rw [top_up_keeps targetKnownAddresses fun _ => rfl]
  exact Finset.empty_subset _

/-- An address of the target that was dialed, listed by a result. -/
def relisted : List (DiscoverPeerTurn Nat Nat) :=
  [.event (.routablePeer 7 [.tcp 30333, .p2p 7]), .event (.closestPeers 0 (.ok [⟨7, [[.tcp 30333, .p2p 7]]⟩]))]

theorem relisted_dialed : ∃ t : PeerDiscovery Nat Nat, (machine id 7).replay relisted = some t ∧
    ∀ earlier later s, relisted = earlier ++ later → (machine id 7).replay earlier = some s →
      s.targetKnownAddresses ⊆ s.dialedAddresses := by
  obtain ⟨t, run⟩ : ∃ t, (machine id 7).replay relisted = some t := ⟨_, rfl⟩
  refine ⟨t, run, (known_dialed_iff run).mpr ⟨trivial, fun s step => ⟨fun addr member => ?_, fun _ _ => trivial⟩⟩⟩
  cases step
  show addr ∈ (discovered 7 _ _).dialedAddresses
  rw [(discovered_addresses _ _ _).1]
  exact Finset.mem_union_right _ (List.mem_toFinset.mpr member)

/-- An address that only a result lists is known, and not dialed. -/
theorem listed_not_dialed : ∃ t : PeerDiscovery Nat Nat,
    (machine id 7).replay [.event (.closestPeers 0 (.ok [⟨7, [[.tcp 30333, .p2p 7]]⟩]))] = some t ∧
    ¬ t.targetKnownAddresses ⊆ t.dialedAddresses := by
  refine ⟨closestPeers id 0 (.ok [⟨7, [[.tcp 30333, .p2p 7]]⟩]) (topUpQueries id (new 7)), rfl, ?_⟩
  obtain ⟨dialed, known⟩ := @closest_peers_addresses Nat Nat _ _ id 0 (.ok [⟨7, [[.tcp 30333, .p2p 7]]⟩])
    (topUpQueries id (new 7))
  rw [known, dialed, top_up_keeps dialedAddresses fun _ => rfl, top_up_keeps target fun _ => rfl]
  intro included
  exact absurd (included (Finset.mem_union_right _ (List.mem_toFinset.mpr List.mem_cons_self))) (Finset.notMem_empty _)

end PeerDiscovery
end Subp2pExplorer.Network
