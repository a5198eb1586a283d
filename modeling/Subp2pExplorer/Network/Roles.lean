import Subp2pExplorer.Network.Discovery

/-! The role a peer is configured with and the role that is recorded for it.
The transactions handshake is the configured role; the handshake of the block
announces starts with the bits of an authority whatever the role is. -/
namespace Subp2pExplorer.Network
open Lib Notifications Subp2pExplorer.Types

/-- The handshake a peer with this data answers with on a protocol. -/
def configuredHandshake (data : ProtocolsData) (index : Nat) : Option Bytes :=
  ((NotificationsHandler.new () (.listener [] []) data : NotificationsHandler Unit Unit).protocols[index]?).map
    ProtocolDetails.handshake

/-- It is the same on all connections. -/
theorem new_handshake {PeerId σ : Type} (peer : PeerId) (endpoint : Notifications.ConnectedPoint PeerId)
    (data : ProtocolsData) (index : Nat) :
    ((NotificationsHandler.new peer endpoint data : NotificationsHandler PeerId σ).protocols[index]?).map
      ProtocolDetails.handshake = configuredHandshake data index := by
  rcases index with _ | _ | index <;> rfl

theorem configured_roles (data : ProtocolsData) :
    (∃ handshake, configuredHandshake data 0 = some handshake ∧
      ProtocolRole.decode handshake = .ok .authority) ∧
    ∃ handshake, configuredHandshake data 1 = some handshake ∧
      ProtocolRole.decode handshake = .ok data.nodeRole :=
  ⟨⟨_, rfl, rfl⟩, _, rfl, ProtocolRole.decode_encoded data.nodeRole []⟩

section Roles
variable {PeerId QueryId : Type}

/-- A peer of the network opens a protocol with the handshake it is configured
with; other events are not restricted. -/
def Sends (network : PeerId → ProtocolsData) : SwarmEvent PeerId QueryId → Prop
  | .notifications (.customProtocolOpen peerId index handshake _ _) =>
    configuredHandshake (network peerId) index = some handshake
  | _ => True

theorem authority_sends {data : ProtocolsData} (role : data.nodeRole = .authority) {index : Nat}
    {handshake : Bytes} (configured : configuredHandshake data index = some handshake) :
    ProtocolRole.decode handshake = .ok .authority := by
  obtain ⟨⟨blocks, first, decoded⟩, tx, second, decoded'⟩ := configured_roles data
  rcases index with _ | _ | index
  · cases Option.some.inj (first.symm.trans configured)
    exact decoded
  · cases Option.some.inj (second.symm.trans configured)
    rw [decoded', role]
  · cases configured

variable [DecidableEq PeerId] [DecidableEq QueryId] {queryId : Nat → QueryId}

/-- Where all are authorities, what is recorded is configured. -/
theorem authorities_recorded {network : PeerId → ProtocolsData}
    (roles : ∀ peer, (network peer).nodeRole = .authority) {events : List (SwarmEvent PeerId QueryId)}
    (sent : ∀ event ∈ events, Sends network event) (s : NetworkDiscovery PeerId QueryId)
    (held : ∀ peer role, s.peerRole.lookup peer = some role → role = .authority) :
    ∀ peer role, (events.foldl (NetworkDiscovery.handleEvent queryId) s).peerRole.lookup peer = some role →
      role = .authority := by
  induction events generalizing s with
  | nil => exact held
  | cons event events ih =>
    apply ih fun later member => sent later (List.mem_cons_of_mem _ member)
    intro peer role found
    rcases @NetworkDiscovery.handle_event_roles _ _ _ _ queryId s event with
      same | ⟨peerId, index, handshake, inbound, sender, decodedRole, rfl, decoded, inserted⟩
    · rw [same] at found
      exact held peer role found
    · rw [inserted] at found
      have configured := sent _ List.mem_cons_self
      rcases Finmap.inserted_entry found with ⟨rfl, rfl⟩ | ⟨-, before⟩
      · rw [authority_sends (roles peer) configured] at decoded
        exact (Except.ok.inj decoded).symm
      · exact held peer role before

/-- In every order in which the protocols of a network open, the roles recorded
are the configured ones, exactly if every peer is configured as an authority;
and only for such a peer do both its handshakes decode to one role. -/
theorem recorded_roles_iff (queryId : Nat → QueryId) (network : PeerId → ProtocolsData) :
    ((∀ events : List (SwarmEvent PeerId QueryId), (∀ event ∈ events, Sends network event) →
      ∀ peer role, (NetworkDiscovery.driveEvents queryId events).peerRole.lookup peer = some role →
        role = (network peer).nodeRole) ↔ ∀ peer, (network peer).nodeRole = .authority) ∧
    ∀ peer, (configuredHandshake (network peer) 0).map ProtocolRole.decode =
      (configuredHandshake (network peer) 1).map ProtocolRole.decode ↔ (network peer).nodeRole = .authority := by
  refine ⟨⟨fun recorded peer => ?_, fun roles events sent peer role found => ?_⟩, fun peer => ?_⟩
  · obtain ⟨⟨handshake, configured, decoded⟩, _⟩ := configured_roles (network peer)
    have role := recorded [.notifications (.customProtocolOpen peer 0 handshake false 0)] ?_ peer .authority ?_
    · exact role.symm
    · intro event member
      cases List.mem_singleton.mp member
      exact configured
    · unfold NetworkDiscovery.driveEvents
      rw [List.foldl_cons, List.foldl_nil]
      unfold NetworkDiscovery.handleEvent
      dsimp only
      rw [decoded]
      exact Finmap.lookup_insert _
  · rw [roles peer]
    refine authorities_recorded roles sent _ ?_ peer role found
    rw [NetworkDiscovery.top_up_keeps NetworkDiscovery.peerRole fun _ => rfl]
    intro peer role absent
    cases absent
  · obtain ⟨⟨blocks, first, decoded⟩, tx, second, decoded'⟩ := configured_roles (network peer)
    rw [first, second, Option.map_some, Option.map_some, decoded, decoded']
    constructor
    · intro same
      exact (Except.ok.inj (Option.some.inj same)).symm
    · intro role
      rw [role]

/-- A full node, as which every command of the tool joins, on the chain with
the zero hash. -/
def fullNodeData : ProtocolsData := ⟨.replicate 32 0, .fullNode⟩

/-- Both protocols of peer 7 open, in one order or the other. -/
def opensOf (blocksLast : Bool) : List (SwarmEvent Nat Nat) :=
  let blocks := .notifications (.customProtocolOpen 7 0
    (BlockAnnouncesHandshake.fromGenesis fullNodeData.genesisHash).encode false 1)
  let tx := .notifications (.customProtocolOpen 7 1 [fullNodeData.nodeRole.encoded] false 2)
  if blocksLast then [tx, blocks] else [blocks, tx]

/-- A full node is recorded as an authority if its block announces open last. -/
theorem full_node_recorded_as_authority :
    (∀ last, ∀ event ∈ opensOf last, Sends (fun _ => fullNodeData) event) ∧
    (NetworkDiscovery.driveEvents id (opensOf true)).peerRole.lookup 7 = some .authority ∧
    (NetworkDiscovery.driveEvents id (opensOf false)).peerRole.lookup 7 = some .fullNode ∧
    fullNodeData.nodeRole = .fullNode := by
  refine ⟨fun last event member => ?_, by decide +kernel, by decide +kernel, rfl⟩
  cases last <;>
  · simp only [opensOf, Bool.false_eq_true, if_true, if_false, List.mem_cons, List.not_mem_nil, or_false] at member
    rcases member with rfl | rfl <;> rfl

end Roles
end Subp2pExplorer.Network
