import Subp2pExplorer.Lib.Maps
import Subp2pExplorer.Lib.Runs
import Subp2pExplorer.Types.Multiaddr

/-! What the peer behavior keeps of connected peers. Connections come and go
under their ids, the behavior is told their endpoints only. -/
namespace Subp2pExplorer.Network
open Lib Subp2pExplorer.Types

inductive Endpoint where
  | dialer
  | listener
  deriving DecidableEq

inductive PortUse where
  | reuse
  | new
  deriving DecidableEq

/-- `ConnectedPoint` with all it is compared by. -/
inductive ConnectedPoint (PeerId : Type) where
  | dialer (address : LibP2pMultiaddr PeerId) (roleOverride : Endpoint) (portUse : PortUse)
  | listener (localAddr sendBackAddr : LibP2pMultiaddr PeerId)
  deriving DecidableEq

structure NodeDetails (PeerId : Type) where
  /-- Connected endpoints with this peer. -/
  connections : List (ConnectedPoint PeerId)
  protocolVersion : Option String
  agentVersion : Option String
  protocols : Finset String

def NodeDetails.new {PeerId : Type} (connection : ConnectedPoint PeerId) : NodeDetails PeerId where
  connections := [connection]
  protocolVersion := none
  agentVersion := none
  protocols := ∅

structure IdentifyInfo where
  protocolVersion : String
  agentVersion : String
  protocols : List String

structure PeerBehavior (PeerId : Type) where
  details : Map PeerId (NodeDetails PeerId)
  externalAddresses : Finset (LibP2pMultiaddr PeerId)

/-- The swarm events the behavior is told of, with the ids of connections. -/
inductive FromSwarm (PeerId ConnectionId : Type) where
  | connectionEstablished (peerId : PeerId) (connectionId : ConnectionId) (endpoint : ConnectedPoint PeerId)
  | connectionClosed (peerId : PeerId) (connectionId : ConnectionId) (endpoint : ConnectedPoint PeerId)
  | externalAddrConfirmed (addr : LibP2pMultiaddr PeerId)
  | externalAddrExpired (addr : LibP2pMultiaddr PeerId)
  | other

section Behavior
variable {PeerId ConnectionId : Type} [DecidableEq PeerId]

/-- Modify the details of a peer that has some. -/
def modifyDetails (details : Map PeerId (NodeDetails PeerId)) (peerId : PeerId)
    (modify : NodeDetails PeerId → NodeDetails PeerId) : Map PeerId (NodeDetails PeerId) :=
  match details.lookup peerId with
  | some node => details.insert peerId (modify node)
  | none => details

namespace PeerBehavior

def new : PeerBehavior PeerId := ⟨∅, ∅⟩

/-- `on_swarm_event`. The connection id is not read. -/
def onSwarmEvent (event : FromSwarm PeerId ConnectionId) (b : PeerBehavior PeerId) : PeerBehavior PeerId :=
  match event with
  | .connectionEstablished peerId _ endpoint =>
    { b with
      details := b.details.upsert peerId
        (fun details => { details with connections := details.connections ++ [endpoint] }) (.new endpoint) }
  | .connectionClosed peerId _ endpoint =>
    { b with
      details := modifyDetails b.details peerId fun node =>
        { node with connections := node.connections.filter (· ≠ endpoint) } }
  | .externalAddrConfirmed addr => { b with externalAddresses := insert addr b.externalAddresses }
  | .externalAddrExpired addr => { b with externalAddresses := b.externalAddresses.erase addr }
  | .other => b

/-- What a poll keeps of an identify event it yields. -/
def onIdentified (peerId : PeerId) (info : IdentifyInfo) (b : PeerBehavior PeerId) : PeerBehavior PeerId :=
  { b with
    details := modifyDetails b.details peerId fun details =>
      { details with
        agentVersion := some info.agentVersion
        protocolVersion := some info.protocolVersion
        protocols := info.protocols.toFinset } }

/-- The endpoints kept for a peer. -/
def connections (b : PeerBehavior PeerId) (peerId : PeerId) : List (ConnectedPoint PeerId) :=
  (b.details.lookup peerId).elim [] NodeDetails.connections

end PeerBehavior

/-- The behavior with the connections of its swarm that are open. -/
structure Peering (PeerId ConnectionId : Type) where
  behavior : PeerBehavior PeerId
  opened : Map ConnectionId (PeerId × ConnectedPoint PeerId)

inductive PeeringEvent (PeerId ConnectionId : Type) where
  | swarm (event : FromSwarm PeerId ConnectionId)
  | identified (peerId : PeerId) (info : IdentifyInfo)

namespace Peering
variable [DecidableEq ConnectionId]

/-- The open connections after an event: one is established under an id that
is not open, and closed where it is, with the peer and endpoint it has. -/
def swarmOpened (opened : Map ConnectionId (PeerId × ConnectedPoint PeerId)) :
    FromSwarm PeerId ConnectionId → Option (Map ConnectionId (PeerId × ConnectedPoint PeerId))
  | .connectionEstablished peerId connectionId endpoint =>
    if connectionId ∈ opened then none else some (opened.insert connectionId (peerId, endpoint))
  | .connectionClosed peerId connectionId endpoint =>
    if opened.lookup connectionId = some (peerId, endpoint) then some (opened.erase connectionId) else none
  | _ => some opened

/-- The runs of a peer behavior in a swarm. -/
def machine : Machine (Peering PeerId ConnectionId) (PeeringEvent PeerId ConnectionId) where
  start := ⟨.new, ∅⟩
  next s
    | .swarm event => (swarmOpened s.opened event).map fun opened => ⟨s.behavior.onSwarmEvent event, opened⟩
    | .identified peerId info => some { s with behavior := s.behavior.onIdentified peerId info }

/-- The endpoints of a peer's open connections. -/
def openEndpoints (opened : Map ConnectionId (PeerId × ConnectedPoint PeerId)) (peerId : PeerId) :
    Multiset (ConnectedPoint PeerId) :=
  (opened.values.filter (·.1 = peerId)).map Prod.snd

/-- The details of every peer list the endpoints of its open connections. -/
def Faithful (s : Peering PeerId ConnectionId) : Prop :=
  ∀ peerId, (s.behavior.connections peerId : Multiset (ConnectedPoint PeerId)) = openEndpoints s.opened peerId

/-- A connection that is closed is the only one of its peer at its endpoint. -/
def ClosesAlone (s : Peering PeerId ConnectionId) (event : PeeringEvent PeerId ConnectionId) : Prop :=
  ∀ peerId connectionId endpoint, event = .swarm (.connectionClosed peerId connectionId endpoint) →
    ∀ other, other ≠ connectionId → s.opened.lookup other ≠ some (peerId, endpoint)

end Peering
end Behavior

section Lemmas
variable {PeerId ConnectionId : Type} [DecidableEq PeerId] {b : PeerBehavior PeerId}
namespace PeerBehavior

theorem lookup_modify_details (details : Map PeerId (NodeDetails PeerId)) (peerId other : PeerId)
    (modify : NodeDetails PeerId → NodeDetails PeerId) :
    (modifyDetails details peerId modify).lookup other =
      if other = peerId then (details.lookup other).map modify else details.lookup other := by
  unfold modifyDetails
  by_cases same : other = peerId
  · subst same
    cases held : details.lookup other with
    | none => simp [held]
    | some node => simp
  · cases details.lookup peerId with
    | none => simp [same]
    | some node => simp [same, Finmap.lookup_insert_of_ne]

theorem connections_established (connectionId : ConnectionId) (endpoint : ConnectedPoint PeerId)
    (peerId other : PeerId) :
    (b.onSwarmEvent (.connectionEstablished peerId connectionId endpoint)).connections other =
      if other = peerId then b.connections other ++ [endpoint] else b.connections other := by
  unfold connections onSwarmEvent
  dsimp only
  by_cases same : other = peerId
  · subst same
    rw [Finmap.lookup_upsert, if_pos rfl]
    cases b.details.lookup other <;> rfl
  · rw [Finmap.lookup_upsert_ne _ _ _ same, if_neg same]

theorem connections_closed (connectionId : ConnectionId) (endpoint : ConnectedPoint PeerId)
    (peerId other : PeerId) :
    (b.onSwarmEvent (.connectionClosed peerId connectionId endpoint)).connections other =
      if other = peerId then (b.connections other).filter (· ≠ endpoint) else b.connections other := by
  unfold connections onSwarmEvent
  dsimp only
  rw [lookup_modify_details]
  by_cases same : other = peerId
  · rw [if_pos same, if_pos same]
    cases b.details.lookup other <;> rfl
  · rw [if_neg same, if_neg same]

theorem connections_identified (info : IdentifyInfo) (peerId other : PeerId) :
    (b.onIdentified peerId info).connections other = b.connections other := by
  unfold connections onIdentified
  dsimp only
  rw [lookup_modify_details]
  split
  · cases b.details.lookup other <;> rfl
  · rfl

end PeerBehavior

namespace Peering
variable [DecidableEq ConnectionId] {opened : Map ConnectionId (PeerId × ConnectedPoint PeerId)}

omit [DecidableEq ConnectionId] in
private theorem endpoints_cons {opened' : Map ConnectionId (PeerId × ConnectedPoint PeerId)}
    {peerId : PeerId} {endpoint : ConnectedPoint PeerId}
    (more : opened'.values = (peerId, endpoint) ::ₘ opened.values) (other : PeerId) :
    openEndpoints opened' other =
      if other = peerId then endpoint ::ₘ openEndpoints opened other else openEndpoints opened other := by
  unfold openEndpoints
  rw [more]
  by_cases same : other = peerId
  · subst same
    simp
  · simp [same, Ne.symm same]

theorem mem_open_endpoints {peerId : PeerId} {endpoint : ConnectedPoint PeerId} :
    endpoint ∈ openEndpoints opened peerId ↔ ∃ connectionId, opened.lookup connectionId = some (peerId, endpoint) := by
  simp only [openEndpoints, Multiset.mem_map, Multiset.mem_filter, Finmap.mem_values]
  constructor
  · rintro ⟨⟨_, _⟩, ⟨⟨connectionId, held⟩, rfl⟩, rfl⟩
    exact ⟨connectionId, held⟩
  · rintro ⟨connectionId, held⟩
    exact ⟨(peerId, endpoint), ⟨⟨connectionId, held⟩, rfl⟩, rfl⟩

variable {s s' : Peering PeerId ConnectionId}

theorem established_faithful (faithful : Faithful s) {peerId : PeerId} {connectionId : ConnectionId}
    (fresh : connectionId ∉ s.opened) (endpoint : ConnectedPoint PeerId) :
    Faithful ⟨s.behavior.onSwarmEvent (.connectionEstablished peerId connectionId endpoint),
      s.opened.insert connectionId (peerId, endpoint)⟩ := by
  intro other
  rw [PeerBehavior.connections_established,
    endpoints_cons (Finmap.values_insert_fresh (peerId, endpoint) fresh) other, ← faithful other]
  split
  · rw [← Multiset.coe_add, Multiset.coe_singleton, Multiset.add_comm]
    rfl
  · rfl

/-- A connection is closed alone where no other one of its peer is open at its
endpoint. -/
theorem closes_alone_iff {peerId : PeerId} {connectionId : ConnectionId} {endpoint : ConnectedPoint PeerId} :
    ClosesAlone s (.swarm (.connectionClosed peerId connectionId endpoint)) ↔
      endpoint ∉ openEndpoints (s.opened.erase connectionId) peerId := by
  rw [mem_open_endpoints]
  constructor
  · rintro alone ⟨other, still⟩
    obtain ⟨apart, before⟩ := Finmap.erased_entry still
    exact alone _ _ _ rfl other apart before
  · rintro apart peer id point same other ne still
    cases same
    exact apart ⟨other, by rw [Finmap.lookup_erase_ne ne, still]⟩

/-- The details lose every entry of a closed endpoint, the open connections one. -/
theorem closed_faithful_iff (faithful : Faithful s) {peerId : PeerId} {connectionId : ConnectionId}
    {endpoint : ConnectedPoint PeerId} (held : s.opened.lookup connectionId = some (peerId, endpoint)) :
    Faithful ⟨s.behavior.onSwarmEvent (.connectionClosed peerId connectionId endpoint), s.opened.erase connectionId⟩ ↔
      endpoint ∉ openEndpoints (s.opened.erase connectionId) peerId := by
  have before : ∀ other, openEndpoints s.opened other = if other = peerId then
      endpoint ::ₘ openEndpoints (s.opened.erase connectionId) other
      else openEndpoints (s.opened.erase connectionId) other :=
    endpoints_cons (Finmap.values_erase held)
  constructor
  · intro kept member
    rw [← kept peerId, PeerBehavior.connections_closed, if_pos rfl, Multiset.mem_coe] at member
    exact absurd rfl (of_decide_eq_true (List.mem_filter.mp member).2)
  · intro apart other
    rw [PeerBehavior.connections_closed]
    have was := faithful other
    rw [before other] at was
    split
    · rename_i same
      subst same
      rw [if_pos rfl] at was
      have gone : (endpoint ::ₘ openEndpoints (s.opened.erase connectionId) other).filter (· ≠ endpoint) =
          (openEndpoints (s.opened.erase connectionId) other).filter (· ≠ endpoint) :=
        Multiset.filter_cons_of_neg _ (by simp)
      rw [← Multiset.filter_coe, was, gone]
      refine Multiset.filter_eq_self.mpr fun point member same => ?_
      exact apart (same ▸ member)
    · rename_i same
      rw [if_neg same] at was
      exact was

/-- A step keeps the details faithful exactly if what it closes is the only
open connection of its peer at that endpoint. -/
theorem step_faithful_iff {event : PeeringEvent PeerId ConnectionId} (faithful : Faithful s)
    (step : machine.next s event = some s') : Faithful s' ↔ ClosesAlone s event := by
  cases event with
  | identified peerId info =>
    cases step
    have kept : Faithful { s with behavior := s.behavior.onIdentified peerId info } := by
      intro other
      rw [PeerBehavior.connections_identified]
      exact faithful other
    exact iff_of_true kept (by simp [ClosesAlone])
  | swarm event =>
    obtain ⟨opened, possible, rfl⟩ := Option.map_eq_some_iff.mp step
    cases event with
    | connectionEstablished peerId connectionId endpoint =>
      simp only [swarmOpened, Option.ite_none_left_eq_some, Option.some.injEq] at possible
      obtain ⟨fresh, rfl⟩ := possible
      exact iff_of_true (established_faithful faithful fresh endpoint) (by simp [ClosesAlone])
    | connectionClosed peerId connectionId endpoint =>
      simp only [swarmOpened, Option.ite_none_right_eq_some, Option.some.injEq] at possible
      obtain ⟨held, rfl⟩ := possible
      exact (closed_faithful_iff faithful held).trans closes_alone_iff.symm
    | externalAddrConfirmed addr =>
      cases possible
      exact iff_of_true faithful (by simp [ClosesAlone])
    | externalAddrExpired addr =>
      cases possible
      exact iff_of_true faithful (by simp [ClosesAlone])
    | other =>
      cases possible
      exact iff_of_true faithful (by simp [ClosesAlone])

/-- The details list the endpoints of the open connections in every state of a
run exactly if the run closes no connection while another one of its peer is
open at the same endpoint. -/
theorem connections_faithful_iff {labels : List (PeeringEvent PeerId ConnectionId)}
    {t : Peering PeerId ConnectionId} (run : machine.replay labels = some t) :
    (∀ earlier later s, labels = earlier ++ later → machine.replay earlier = some s → ∀ peerId,
        (s.behavior.connections peerId : Multiset (ConnectedPoint PeerId)) = openEndpoints s.opened peerId) ↔
      machine.Meets ClosesAlone labels := by
  have start : Faithful (machine : Machine (Peering PeerId ConnectionId) _).start := fun peerId => rfl
  exact Machine.throughout_iff start (fun s event s' faithful step => step_faithful_iff faithful step) run

/-- A peer dialed twice at one address, the first connection closed again. -/
def dialedTwice : List (PeeringEvent Nat Nat) :=
  [.swarm (.connectionEstablished 7 0 (.dialer [.dns "node", .tcp 30333] .dialer .reuse)),
    .swarm (.connectionEstablished 7 1 (.dialer [.dns "node", .tcp 30333] .dialer .reuse)),
    .swarm (.connectionClosed 7 0 (.dialer [.dns "node", .tcp 30333] .dialer .reuse))]

/-- The other connection is open, and none is left in the details. -/
theorem twin_connection_lost : ∃ t, machine.replay dialedTwice = some t ∧ t.behavior.connections 7 = [] ∧
    openEndpoints t.opened 7 = {.dialer [.dns "node", .tcp 30333] .dialer .reuse} := by
  have ends : (machine.replay dialedTwice).map (fun t =>
      (t.behavior.connections 7, openEndpoints t.opened 7)) =
        some ([], {.dialer [.dns "node", .tcp 30333] .dialer .reuse}) := by
    decide +kernel
  obtain ⟨t, run, shown⟩ := Option.map_eq_some_iff.mp ends
  exact ⟨t, run, Prod.mk.inj shown⟩

/-- The same at two addresses. -/
def dialedApart : List (PeeringEvent Nat Nat) :=
  [.swarm (.connectionEstablished 7 0 (.dialer [.dns "node", .tcp 30333] .dialer .reuse)),
    .swarm (.connectionEstablished 7 1 (.dialer [.dns "node", .tcp 30334] .dialer .reuse)),
    .swarm (.connectionClosed 7 0 (.dialer [.dns "node", .tcp 30333] .dialer .reuse))]

/-- No twin is open where a connection is closed. -/
theorem apart_connections_listed : ∃ t, machine.replay dialedApart = some t ∧
    t.behavior.connections 7 = [.dialer [.dns "node", .tcp 30334] .dialer .reuse] ∧
    ∀ peerId, (t.behavior.connections peerId : Multiset (ConnectedPoint Nat)) = openEndpoints t.opened peerId := by
  have ends : (machine.replay dialedApart).map (fun t => t.behavior.connections 7) =
      some [.dialer [.dns "node", .tcp 30334] .dialer .reuse] := by
    decide +kernel
  obtain ⟨t, run, shown⟩ := Option.map_eq_some_iff.mp ends
  have meets : machine.Meets ClosesAlone dialedApart := by
    refine ⟨by simp [ClosesAlone], fun s first => ⟨by simp [ClosesAlone], fun s' second => ?_⟩⟩
    cases first
    cases second
    refine ⟨?_, fun _ _ => trivial⟩
    rintro peer id point same other ne held
    cases same
    by_cases one : other = 1
    · subst one
      rw [Finmap.lookup_insert] at held
      revert held
      decide
    · rw [Finmap.lookup_insert_of_ne _ one, Finmap.lookup_insert_of_ne _ ne] at held
      cases held
  exact ⟨t, run, shown, (connections_faithful_iff run).mpr meets dialedApart [] t (List.append_nil _).symm run⟩

end Peering
end Lemmas
end Subp2pExplorer.Network
