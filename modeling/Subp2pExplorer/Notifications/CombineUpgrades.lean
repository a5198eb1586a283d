import Subp2pExplorer.Notifications.Handler
import Subp2pExplorer.Notifications.Wire

/-! Several inbound upgrades offered as one. The index of an upgrade goes out
with every name it advertises, comes back with the name that was negotiated,
and stays with the future until it is on the result. -/
namespace Subp2pExplorer.Notifications
open Lib

/-- An upgrade: the names it advertises, the future that accepts a substream
under one of them, and a poll of that future. There is no future where the
source panics. -/
structure InboundUpgrade (T Info Sock Fut Out Err ω : Type) where
  protocolInfo : T → List Info
  upgradeInbound : T → Sock → Info → Option Fut
  poll : Fut → ω → Poll (Except Err Out) × Fut

/-- Upgrade that combines multiple upgrades into one. -/
structure CombineUpgrades (T : Type) where
  list : List T

/-- A future together with the index of the protocol. -/
structure FutureProtocolResponse (Fut : Type) where
  data : Fut
  index : Nat

deriving instance DecidableEq for ProtocolResponse

section Upgrades
variable {T Info Sock Fut Out Err ω : Type} (U : InboundUpgrade T Info Sock Fut Out Err ω)

/-- What polling a future over and over gives, once it gives something. -/
def InboundUpgrade.outcome : Fut → List ω → Option (Except Err Out)
  | _, [] => none
  | future, w :: worlds =>
    match U.poll future w with
    | (.ready result, _) => some result
    | (.pending, future) => outcome future worlds

/-- Group the poll of a future together with its index. -/
def FutureProtocolResponse.poll (future : FutureProtocolResponse Fut) (w : ω) :
    Poll (Except (ProtocolResponse Err) (ProtocolResponse Out)) × FutureProtocolResponse Fut :=
  match U.poll future.data w with
  | (.ready (.ok value), data) => (.ready (.ok ⟨value, future.index⟩), ⟨data, future.index⟩)
  | (.ready (.error error), data) => (.ready (.error ⟨error, future.index⟩), ⟨data, future.index⟩)
  | (.pending, data) => (.pending, ⟨data, future.index⟩)

namespace CombineUpgrades

def protocolInfo (combined : CombineUpgrades T) : List (ProtocolResponse Info) :=
  combined.list.zipIdx.flatMap fun (protocol, index) =>
    (U.protocolInfo protocol).map fun data => ⟨data, index⟩

/-- Taken out of the list, an upgrade is used once; out of bounds there is none. -/
def upgradeInbound (combined : CombineUpgrades T) (sock : Sock) (info : ProtocolResponse Info) :
    Option (FutureProtocolResponse Fut) :=
  combined.list[info.index]?.bind fun protocol =>
    (U.upgradeInbound protocol sock info.data).map fun future => ⟨future, info.index⟩

/-- The combination of upgrades is an upgrade. -/
def upgrade : InboundUpgrade (CombineUpgrades T) (ProtocolResponse Info) Sock (FutureProtocolResponse Fut)
    (ProtocolResponse Out) (ProtocolResponse Err) ω where
  protocolInfo := protocolInfo U
  upgradeInbound := upgradeInbound U
  poll := FutureProtocolResponse.poll U

end CombineUpgrades

/-- A result or an error with an index on it. -/
def tagged (index : Nat) : Except Err Out → Except (ProtocolResponse Err) (ProtocolResponse Out)
  | .ok value => .ok ⟨value, index⟩
  | .error error => .error ⟨error, index⟩

variable {U} {combined : CombineUpgrades T} {info : ProtocolResponse Info}

/-- What is offered is what the upgrades advertise, each with its place in the list. -/
theorem protocol_info_iff : info ∈ (CombineUpgrades.upgrade U).protocolInfo combined ↔
    ∃ protocol, combined.list[info.index]? = some protocol ∧ info.data ∈ U.protocolInfo protocol := by
  simp only [CombineUpgrades.upgrade, CombineUpgrades.protocolInfo, List.mem_flatMap, List.mem_map]
  constructor
  · rintro ⟨⟨protocol, index⟩, listed, data, advertised, rfl⟩
    exact ⟨protocol, List.mk_mem_zipIdx_iff_getElem?.mp listed, advertised⟩
  · rintro ⟨protocol, found, advertised⟩
    exact ⟨(protocol, info.index), List.mk_mem_zipIdx_iff_getElem?.mpr found, info.data, advertised, rfl⟩

theorem upgrade_inbound_found {protocol : T} (found : combined.list[info.index]? = some protocol) (sock : Sock) :
    (CombineUpgrades.upgrade U).upgradeInbound combined sock info =
      (U.upgradeInbound protocol sock info.data).map fun future => ⟨future, info.index⟩ := by
  have removed : (CombineUpgrades.upgrade U).upgradeInbound combined sock info =
      combined.list[info.index]?.bind fun protocol => (U.upgradeInbound protocol sock info.data).map fun future =>
        (⟨future, info.index⟩ : FutureProtocolResponse Fut) := rfl
  rw [removed, found, Option.bind_some]

/-- However often the future of a combination is polled, it ends as the one
inside it ends. -/
theorem outcome_tagged (future : Fut) (index : Nat) (worlds : List ω) :
    (CombineUpgrades.upgrade U).outcome ⟨future, index⟩ worlds = (U.outcome future worlds).map (tagged index) := by
  induction worlds generalizing future with
  | nil => rfl
  | cons w worlds ih =>
    have polled : (CombineUpgrades.upgrade U).poll ⟨future, index⟩ w =
        FutureProtocolResponse.poll U ⟨future, index⟩ w := rfl
    rw [InboundUpgrade.outcome, InboundUpgrade.outcome, polled, FutureProtocolResponse.poll]
    rcases U.poll future w with ⟨(value | error) | _, later⟩
    · rfl
    · rfl
    · exact ih later

variable (U combined info) in
/-- An offer that comes from an upgrade of the list, and has it run with the
name that was offered. What it gives, result or error, gets the same index. -/
def Runs (protocol : T) : Prop :=
  combined.list[info.index]? = some protocol ∧ info.data ∈ U.protocolInfo protocol ∧
    (∀ sock, (CombineUpgrades.upgrade U).upgradeInbound combined sock info =
      (U.upgradeInbound protocol sock info.data).map fun future => ⟨future, info.index⟩) ∧
    ∀ (future : Fut) (worlds : List ω), (CombineUpgrades.upgrade U).outcome ⟨future, info.index⟩ worlds =
      (U.outcome future worlds).map (tagged info.index)

theorem offered_runs (offered : info ∈ (CombineUpgrades.upgrade U).protocolInfo combined) :
    info.index < combined.list.length ∧ ∃ protocol, Runs U combined info protocol := by
  obtain ⟨protocol, found, advertised⟩ := protocol_info_iff.mp offered
  refine ⟨(List.getElem?_eq_some_iff.mp found).1, protocol, found, advertised, ?_, ?_⟩
  · exact upgrade_inbound_found found
  · exact fun future worlds => outcome_tagged future info.index worlds

end Upgrades

/-- The inbound upgrade under way: the substream it reads the handshake from,
and the name that was negotiated. -/
structure HandshakeUpgrade where
  upgrade : HandshakeInbound
  socket : Socket
  negotiatedName : String

/-- What a poll of it finds: the pieces that arrived, and whether it still
waits for more. -/
structure Arrival where
  pieces : List Bytes
  waits : Bool

section Handshakes
variable {PeerId σ : Type} (varint : Varint) (framed : Socket → σ)

def HandshakeUpgrade.poll (future : HandshakeUpgrade) (arrival : Arrival) :
    Poll (Except HandshakeError (HandshakeInboundOpen σ)) × HandshakeUpgrade :=
  let socket := { future.socket with input := future.socket.input ++ arrival.pieces }
  if arrival.waits then (.pending, { future with socket := socket })
  else
    let (result, socket) := future.upgrade.upgradeInbound varint framed socket future.negotiatedName
    (.ready result, { future with socket := socket })

/-- The upgrade advertises its name. -/
def InboundUpgrade.handshake :
    InboundUpgrade HandshakeInbound String Socket HandshakeUpgrade (HandshakeInboundOpen σ) HandshakeError
      Arrival where
  protocolInfo upgrade := [upgrade.name]
  upgradeInbound upgrade socket negotiatedName := some ⟨upgrade, socket, negotiatedName⟩
  poll := HandshakeUpgrade.poll varint framed

/-- What the handler offers to the remote. -/
def NotificationsHandler.listenProtocol (h : NotificationsHandler PeerId σ) : CombineUpgrades HandshakeInbound :=
  ⟨h.protocols.map ProtocolDetails.upgrade⟩

variable {varint} {framed}

/-- A handshake read in time leaves a substream that knows the negotiated name. -/
theorem handshake_upgrade_poll {future later : HandshakeUpgrade} {arrival : Arrival}
    {result : Poll (Except HandshakeError (HandshakeInboundOpen σ))}
    (polled : future.poll varint framed arrival = (result, later)) :
    later.negotiatedName = future.negotiatedName ∧
      ∀ opened, result = .ready (.ok opened) → opened.substream.negotiatedName = future.negotiatedName := by
  unfold HandshakeUpgrade.poll at polled
  dsimp only at polled
  split at polled
  · cases polled
    exact ⟨rfl, nofun⟩
  · cases polled
    refine ⟨rfl, fun opened accepted => ?_⟩
    have accepted := Poll.ready.inj accepted
    obtain ⟨handshake, _, rfl⟩ := (upgrade_inbound_reads _ _).2.2 opened accepted
    rfl

/-- The same for a combination: index and name stay what they are. -/
theorem combined_upgrade_poll {future later : FutureProtocolResponse HandshakeUpgrade} {arrival : Arrival}
    {result : Poll (Except (ProtocolResponse HandshakeError) (ProtocolResponse (HandshakeInboundOpen σ)))}
    (polled : future.poll (.handshake varint framed) arrival = (result, later)) :
    later.index = future.index ∧ later.data.negotiatedName = future.data.negotiatedName ∧
      ∀ protocol, result = .ready (.ok protocol) →
        protocol.index = future.index ∧ protocol.data.substream.negotiatedName = future.data.negotiatedName := by
  unfold FutureProtocolResponse.poll InboundUpgrade.handshake at polled
  dsimp only at polled
  rcases inner : future.data.poll varint framed arrival with ⟨(error | opened) | _, data⟩
  all_goals
    obtain ⟨name, opens⟩ := handshake_upgrade_poll inner
    rw [inner] at polled
    cases polled
  · exact ⟨rfl, name, nofun⟩
  · refine ⟨rfl, name, ?_⟩
    rintro _ ⟨⟩
    exact ⟨rfl, opens opened rfl⟩
  · exact ⟨rfl, name, nofun⟩

end Handshakes
end Subp2pExplorer.Notifications
