import Subp2pExplorer.Lib.Maps
import Subp2pExplorer.Notifications.Handler

/-! The network behaviour of the notifications: it opens both protocols on
every connection, answers the wishes of the handlers, and tells the swarm what
was opened and received. Wakers are left out; a poll can come at any time. -/
set_option linter.dupNamespace false

namespace Subp2pExplorer.Notifications
open Lib Subp2pExplorer.Types

/-- The events emitted by this network behavior back to the swarm. -/
inductive NotificationsToSwarm (PeerId : Type) where
  | customProtocolOpen (peerId : PeerId) (index : Nat) (receivedHandshake : Bytes) (inbound : Bool)
      (sender : Nat)
  | customProtocolClosed (peerId : PeerId) (index : Nat)
  | notification (peerId : PeerId) (index : Nat) (message : Bytes)

/-- What the behaviour asks of the swarm; handlers are notified on one
connection each. -/
inductive ToSwarm (PeerId ConnectionId : Type) where
  | generateEvent (event : NotificationsToSwarm PeerId)
  | notifyHandler (peerId : PeerId) (connection : ConnectionId) (event : FromBehavior)

inductive FromSwarm (PeerId ConnectionId : Type) where
  | connectionEstablished (peerId : PeerId) (connectionId : ConnectionId)
  | connectionClosed (peerId : PeerId) (connectionId : ConnectionId)
  | other

/-- Handles the notifications protocols. -/
structure Notifications (PeerId ConnectionId : Type) where
  events : List (ToSwarm PeerId ConnectionId)
  peersDetails : Map PeerId (Finset ConnectionId)
  data : ProtocolsData

namespace Notifications
variable {PeerId ConnectionId : Type} [DecidableEq PeerId] [DecidableEq ConnectionId]

def new (data : ProtocolsData) : Notifications PeerId ConnectionId where
  events := []
  peersDetails := ∅
  data := data

/-- Propagate an event back to the swarm. -/
def propagateEvent (b : Notifications PeerId ConnectionId) (event : ToSwarm PeerId ConnectionId) :
    Notifications PeerId ConnectionId :=
  { b with events := b.events ++ [event] }

/-- Notify the handler of a connection about both protocols. -/
def notifyProtocols (b : Notifications PeerId ConnectionId) (peerId : PeerId) (connectionId : ConnectionId)
    (command : Nat → FromBehavior) : Notifications PeerId ConnectionId :=
  [0, 1].foldl (fun b index => b.propagateEvent (.notifyHandler peerId connectionId (command index))) b

/-- The handler of an inbound connection. -/
def handleEstablishedInboundConnection {σ : Type} (b : Notifications PeerId ConnectionId) (peer : PeerId)
    (localAddr remoteAddr : List (LibP2pProtocol PeerId)) : NotificationsHandler PeerId σ :=
  .new peer (.listener localAddr remoteAddr) b.data

/-- The handler of an outbound connection. -/
def handleEstablishedOutboundConnection {σ : Type} (b : Notifications PeerId ConnectionId) (peer : PeerId)
    (addr : List (LibP2pProtocol PeerId)) : NotificationsHandler PeerId σ :=
  .new peer (.dialer addr) b.data

def onSwarmEvent (b : Notifications PeerId ConnectionId) (event : FromSwarm PeerId ConnectionId) :
    Notifications PeerId ConnectionId :=
  match event with
  | .connectionEstablished peerId connectionId =>
    let b := { b with peersDetails :=
      b.peersDetails.upsert peerId (fun entry => insert connectionId entry) {connectionId} }
    b.notifyProtocols peerId connectionId .open
  | .connectionClosed peerId connectionId =>
    let b := match b.peersDetails.lookup peerId with
      | some details => { b with peersDetails := b.peersDetails.insert peerId (details.erase connectionId) }
      | none => b
    b.notifyProtocols peerId connectionId .close
  | .other => b

def onConnectionHandlerEvent (b : Notifications PeerId ConnectionId) (peerId : PeerId)
    (connectionId : ConnectionId) (event : ToBehavior PeerId) : Notifications PeerId ConnectionId :=
  match event with
  | .handshakeCompleted index _ handshake isInbound sender =>
    b.propagateEvent (.generateEvent (.customProtocolOpen peerId index handshake isInbound sender))
  | .handshakeError _ => b
  | .openDesiredByRemote index => b.propagateEvent (.notifyHandler peerId connectionId (.open index))
  | .closeDesired index => b.propagateEvent (.notifyHandler peerId connectionId (.close index))
  | .close _ => b
  | .notification index bytes => b.propagateEvent (.generateEvent (.notification peerId index bytes))

def poll (b : Notifications PeerId ConnectionId) :
    Poll (ToSwarm PeerId ConnectionId) × Notifications PeerId ConnectionId :=
  match b.events with
  | event :: events => (.ready event, { b with events := events })
  | [] => (.pending, b)

/-- Events of the swarm are answered with commands for handlers only. -/
theorem on_swarm_event_commands (b : Notifications PeerId ConnectionId)
    (event : FromSwarm PeerId ConnectionId) :
    ∃ added, (b.onSwarmEvent event).events = b.events ++ added ∧
      ∀ request ∈ added, ∃ peerId connection message, request = .notifyHandler peerId connection message := by
  have commands : ∀ (peerId : PeerId) (connection : ConnectionId) (command : Nat → FromBehavior),
      ∀ request ∈ [ToSwarm.notifyHandler peerId connection (command 0), .notifyHandler peerId connection (command 1)],
        ∃ peerId connection message, request = .notifyHandler peerId connection message := by
    intro peerId connection command request member
    rcases List.mem_cons.mp member with same | member
    · exact ⟨peerId, connection, _, same⟩
    · exact ⟨peerId, connection, _, List.mem_singleton.mp member⟩
  cases event with
  | connectionEstablished peerId connectionId =>
    exact ⟨_, List.append_assoc b.events _ _, commands peerId connectionId .open⟩
  | connectionClosed peerId connectionId =>
    refine ⟨_, ?_, commands peerId connectionId .close⟩
    unfold onSwarmEvent
    dsimp only
    cases b.peersDetails.lookup peerId with
    | none => exact List.append_assoc b.events _ _
    | some details => exact List.append_assoc b.events _ _
  | other =>
    refine ⟨[], (List.append_nil _).symm, fun request absent => ?_⟩
    cases absent

end Notifications
end Subp2pExplorer.Notifications
