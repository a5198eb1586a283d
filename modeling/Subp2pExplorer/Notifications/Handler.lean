import Subp2pExplorer.Types.Protocol
import Subp2pExplorer.Notifications.Messages

/-! The handler of one connection: a state for each notification protocol, the
three callbacks of the swarm, and the poll that drives the substreams. Its
lists of protocols and events are lists; an index out of bounds, where the
source panics, has no successor. -/
namespace Subp2pExplorer.Notifications
open Subp2pExplorer.Types

/-- Whether we are the connection dialer or listener. -/
inductive ConnectedPoint (PeerId : Type) where
  | dialer (address : List (LibP2pProtocol PeerId))
  | listener (localAddr sendBackAddr : List (LibP2pProtocol PeerId))

/-- The receiving end of a user channel, with the message it peeked at. -/
structure Receiver where
  channel : Nat
  peeked : Option Bytes
  queue : List Bytes

namespace Receiver

/-- Whether a message is there; it stays in the receiver. -/
def pollPeek (recv : Receiver) : Bool × Receiver :=
  match recv.peeked with
  | some _ => (true, recv)
  | none =>
    match recv.queue with
    | [] => (false, recv)
    | message :: queue => (true, { recv with peeked := some message, queue := queue })

def pollNext (recv : Receiver) : Option Bytes × Receiver :=
  match recv.peeked with
  | some message => (some message, { recv with peeked := none })
  | none =>
    match recv.queue with
    | [] => (none, recv)
    | message :: queue => (some message, { recv with queue := queue })

/-- The messages still to come. -/
def messages (recv : Receiver) : List Bytes := recv.peeked.toList ++ recv.queue

/-- The user puts a message into a channel. -/
def send (channel : Nat) (message : Bytes) (recv : Receiver) : Receiver :=
  if recv.channel = channel then { recv with queue := recv.queue ++ [message] } else recv

end Receiver

/-- The state of a notification protocol. -/
inductive State (σ : Type) where
  | closed (pendingOpening : Bool)
  | openDesiredByRemote (inboundSubstream : HandshakeInboundSubstream σ) (pendingOpening : Bool)
  | opening (inboundSubstream : Option (HandshakeInboundSubstream σ)) (inbound : Bool)
  | opened (recv : Receiver) (inboundSubstream : Option (HandshakeInboundSubstream σ))
      (outboundSubstream : Option (HandshakeOutboundSubstream σ))

/-- Configuration for a notifications protocol. -/
structure ProtocolDetails (σ : Type) where
  name : String
  handshake : Bytes
  upgrade : HandshakeInbound
  state : State σ

inductive FromBehavior where
  | «open» (index : Nat)
  | close (index : Nat)
  deriving DecidableEq

inductive ToBehavior (PeerId : Type) where
  | handshakeCompleted (index : Nat) (endpoint : ConnectedPoint PeerId) (handshake : Bytes)
      (isInbound : Bool) (sender : Nat)
  | handshakeError (index : Nat)
  | openDesiredByRemote (index : Nat)
  | closeDesired (index : Nat)
  | close (index : Nat)
  | notification (index : Nat) (bytes : Bytes)

/-- What a poll returns to the swarm. -/
inductive HandlerEvent (PeerId : Type) where
  | notifyBehaviour (event : ToBehavior PeerId)
  | outboundSubstreamRequest (protocol : HandshakeOutbound) (info : Nat)

inductive ConnectionEvent (σ : Type) where
  | fullyNegotiatedInbound (protocol : ProtocolResponse (HandshakeInboundOpen σ))
  | fullyNegotiatedOutbound (protocol : HandshakeOutboundOpen σ) (info : Nat)
  | dialUpgradeError (info : Nat)
  | other

/-- `NotificationsHandler`, with the number of channels it has created. -/
structure NotificationsHandler (PeerId σ : Type) where
  protocols : List (ProtocolDetails σ)
  pendingEvents : List (HandlerEvent PeerId)
  endpoint : ConnectedPoint PeerId
  peer : PeerId
  channels : Nat

namespace NotificationsHandler
variable {PeerId σ ω : Type}

/-- The block announces protocol has index 0, the transactions protocol index 1. -/
def new (peer : PeerId) (endpoint : ConnectedPoint PeerId) (data : ProtocolsData) :
    NotificationsHandler PeerId σ :=
  let genesisString := hexEncode data.genesisHash.toList
  let blocks := "/" ++ genesisString ++ "/block-announces/1"
  let tx := "/" ++ genesisString ++ "/transactions/1"
  let blockAnnounces := BlockAnnouncesHandshake.fromGenesis data.genesisHash
  { protocols := [⟨blocks, blockAnnounces.encode, ⟨blocks⟩, .closed false⟩,
      ⟨tx, [data.nodeRole.encoded], ⟨tx⟩, .closed false⟩]
    pendingEvents := []
    endpoint := endpoint
    peer := peer
    channels := 0 }

/-- Push an event for the behaviour. -/
def notify (h : NotificationsHandler PeerId σ) (event : ToBehavior PeerId) : NotificationsHandler PeerId σ :=
  { h with pendingEvents := h.pendingEvents ++ [.notifyBehaviour event] }

/-- Request an outbound substream for a protocol. -/
def request (h : NotificationsHandler PeerId σ) (proto : ProtocolDetails σ) (index : Nat) :
    NotificationsHandler PeerId σ :=
  { h with pendingEvents :=
      h.pendingEvents ++ [.outboundSubstreamRequest ⟨proto.name, proto.handshake⟩ index] }

/-- Write the state of a protocol back. -/
def setState (h : NotificationsHandler PeerId σ) (index : Nat) (proto : ProtocolDetails σ) (state : State σ) :
    NotificationsHandler PeerId σ :=
  { h with protocols := h.protocols.set index { proto with state := state } }

/-- The remote opened a substream and its handshake was read. -/
def negotiatedInbound (h : NotificationsHandler PeerId σ) (proto : ProtocolDetails σ) (index : Nat)
    (substream : HandshakeInboundSubstream σ) : NotificationsHandler PeerId σ :=
  match proto.state with
  | .closed pendingOpening =>
    (h.notify (.openDesiredByRemote index)).setState index proto
      (.openDesiredByRemote substream pendingOpening)
  | .openDesiredByRemote _ _ => h
  | .opening inboundSubstream inbound =>
    match inboundSubstream with
    | some _ => h
    | none => h.setState index proto (.opening (some (substream.setHandshake proto.handshake)) inbound)
  | .opened recv inboundSubstream outboundSubstream =>
    match inboundSubstream with
    | some _ => h
    | none =>
      h.setState index proto (.opened recv (some (substream.setHandshake proto.handshake)) outboundSubstream)

/-- Our own substream is open and both handshakes were exchanged. -/
def negotiatedOutbound (h : NotificationsHandler PeerId σ) (proto : ProtocolDetails σ) (index : Nat)
    (opened : HandshakeOutboundOpen σ) : NotificationsHandler PeerId σ :=
  match proto.state with
  | .closed _ => h.setState index proto (.closed false)
  | .openDesiredByRemote inboundSubstream _ =>
    h.setState index proto (.openDesiredByRemote inboundSubstream false)
  | .opening inboundSubstream inbound =>
    let h := { h with channels := h.channels + 1 }
    (h.setState index proto
      (.opened ⟨h.channels, none, []⟩ inboundSubstream (some opened.substream))).notify
        (.handshakeCompleted index h.endpoint opened.handshake inbound h.channels)
  | .opened _ _ _ => h

/-- Our own substream could not be opened. -/
def dialUpgradeError (h : NotificationsHandler PeerId σ) (proto : ProtocolDetails σ) (index : Nat) :
    NotificationsHandler PeerId σ :=
  match proto.state with
  | .closed _ => h.setState index proto (.closed false)
  | .openDesiredByRemote inboundSubstream _ =>
    h.setState index proto (.openDesiredByRemote inboundSubstream false)
  | .opening _ _ => (h.setState index proto (.closed false)).notify (.handshakeError index)
  | .opened _ _ _ => h

def onConnectionEvent (h : NotificationsHandler PeerId σ) (event : ConnectionEvent σ) :
    Option (NotificationsHandler PeerId σ) :=
  match event with
  | .fullyNegotiatedInbound protocol =>
    h.protocols[protocol.index]?.map fun proto =>
      h.negotiatedInbound proto protocol.index protocol.data.substream
  | .fullyNegotiatedOutbound opened info =>
    h.protocols[info]?.map fun proto => h.negotiatedOutbound proto info opened
  | .dialUpgradeError info => h.protocols[info]?.map fun proto => h.dialUpgradeError proto info
  | .other => some h

/-- The behaviour wants the protocol open. -/
def openProtocol (h : NotificationsHandler PeerId σ) (proto : ProtocolDetails σ) (index : Nat) :
    NotificationsHandler PeerId σ :=
  match proto.state with
  | .closed pendingOpening =>
    let h := if pendingOpening then h else h.request proto index
    h.setState index proto (.opening none false)
  | .openDesiredByRemote inboundSubstream pendingOpening =>
    let h := if pendingOpening then h else h.request proto index
    h.setState index proto (.opening (some (inboundSubstream.setHandshake proto.handshake)) true)
  | .opening _ _ => h
  | .opened _ _ _ => h

/-- The behaviour wants the protocol closed. -/
def closeProtocol (h : NotificationsHandler PeerId σ) (proto : ProtocolDetails σ) (index : Nat) :
    NotificationsHandler PeerId σ :=
  let h := match proto.state with
    | .closed _ => h
    | .openDesiredByRemote _ pendingOpening => h.setState index proto (.closed pendingOpening)
    | .opening _ _ => (h.setState index proto (.closed true)).notify (.handshakeError index)
    | .opened _ _ _ => h.setState index proto (.closed false)
  h.notify (.close index)

def onBehaviourEvent (h : NotificationsHandler PeerId σ) (message : FromBehavior) :
    Option (NotificationsHandler PeerId σ) :=
  match message with
  | .open index => h.protocols[index]?.map fun proto => h.openProtocol proto index
  | .close index => h.protocols[index]?.map fun proto => h.closeProtocol proto index

def connectionKeepAlive (h : NotificationsHandler PeerId σ) : Bool :=
  h.protocols.any fun proto => match proto.state with
    | .closed _ => false
    | _ => true

end NotificationsHandler

section Polling
variable {PeerId σ ω : Type} (transport : Transport σ ω)

/-- Propagate user messages, one in each round; a round without a message ends
the loop, so the messages at hand bound the rounds. -/
def sendMessages : Nat → Receiver → HandshakeOutboundSubstream σ → ω →
    Receiver × HandshakeOutboundSubstream σ × ω
  | 0, recv, outbound, w => (recv, outbound, w)
  | rounds + 1, recv, outbound, w =>
    match recv.pollPeek with
    | (false, recv) => (recv, outbound, w)
    | (true, recv) =>
      match outbound.pollReady transport w with
      | (.pending, outbound, w) => (recv, outbound, w)
      | (.ready _, outbound, w) =>
        match recv.pollNext with
        | (none, recv) => (recv, outbound, w)
        | (some message, recv) =>
          match outbound.startSend transport message w with
          | (_, outbound, w) => sendMessages rounds recv outbound w

/-- The first pass of a poll, over all protocols. -/
def pollSend : List (ProtocolDetails σ) → ω → List (ProtocolDetails σ) × ω
  | [], w => ([], w)
  | proto :: rest, w =>
    let (state, w) := match proto.state with
      | .opened recv inboundSubstream (some outbound) =>
        let (recv, outbound, w) := sendMessages transport recv.messages.length recv outbound w
        (.opened recv inboundSubstream (some outbound), w)
      | state => (state, w)
    let (rest, w) := pollSend rest w
    ({ proto with state := state } :: rest, w)

/-- The second pass flushes the outbound streams and stops at an error. -/
def pollFlush (index : Nat) : List (ProtocolDetails σ) → ω →
    Option (ToBehavior PeerId) × List (ProtocolDetails σ) × ω
  | [], w => (none, [], w)
  | proto :: rest, w =>
    match proto.state with
    | .opened recv inboundSubstream (some outbound) =>
      match outbound.pollFlush transport w with
      | (.ready (.error _), _, w) =>
        (some (.closeDesired index), { proto with state := .opened recv inboundSubstream none } :: rest, w)
      | (_, outbound, w) =>
        let (event, rest, w) := pollFlush (index + 1) rest w
        (event, { proto with state := .opened recv inboundSubstream (some outbound) } :: rest, w)
    | _ =>
      let (event, rest, w) := pollFlush (index + 1) rest w
      (event, proto :: rest, w)

/-- What the third pass does for one protocol. -/
def pollInboundState (index : Nat) (state : State σ) (w : ω) : Option (ToBehavior PeerId) × State σ × ω :=
  match state with
  | .opened recv (some inbound) outboundSubstream =>
    match inbound.pollNext transport w with
    | (.pending, inbound, w) => (none, .opened recv (some inbound) outboundSubstream, w)
    | (.ready (some (.ok bytes)), inbound, w) =>
      (some (.notification index bytes), .opened recv (some inbound) outboundSubstream, w)
    | (.ready none, _, w) => (none, .opened recv none outboundSubstream, w)
    | (.ready (some (.error _)), _, w) => (none, .opened recv none outboundSubstream, w)
  | .openDesiredByRemote inbound pendingOpening =>
    match inbound.pollProcess transport w with
    | (.pending, inbound, w) => (none, .openDesiredByRemote inbound pendingOpening, w)
    | (.ready (.error _), _, w) => (some (.closeDesired index), .closed pendingOpening, w)
  | .opening (some inbound) direction =>
    match inbound.pollProcess transport w with
    | (.pending, inbound, w) => (none, .opening (some inbound) direction, w)
    | (.ready (.error _), _, w) => (none, .opening none direction, w)
  | state => (none, state, w)

/-- The third pass polls the inbound streams and stops at an event. -/
def pollInbound (index : Nat) : List (ProtocolDetails σ) → ω →
    Option (ToBehavior PeerId) × List (ProtocolDetails σ) × ω
  | [], w => (none, [], w)
  | proto :: rest, w =>
    match pollInboundState transport index proto.state w with
    | (some event, state, w) => (some event, { proto with state := state } :: rest, w)
    | (none, state, w) =>
      let (event, rest, w) := pollInbound (index + 1) rest w
      (event, { proto with state := state } :: rest, w)

/-- `poll`: a queued event first, otherwise the three passes. -/
def NotificationsHandler.poll (h : NotificationsHandler PeerId σ) (w : ω) :
    Poll (HandlerEvent PeerId) × NotificationsHandler PeerId σ × ω :=
  match h.pendingEvents with
  | event :: rest => (.ready event, { h with pendingEvents := rest }, w)
  | [] =>
    let (protocols, w) := pollSend transport h.protocols w
    match pollFlush transport 0 protocols w with
    | (some event, protocols, w) =>
      (.ready (.notifyBehaviour event), { h with protocols := protocols }, w)
    | (none, protocols, w) =>
      match pollInbound transport 0 protocols w with
      | (some event, protocols, w) =>
        (.ready (.notifyBehaviour event), { h with protocols := protocols }, w)
      | (none, protocols, w) => (.pending, { h with protocols := protocols }, w)

end Polling
end Subp2pExplorer.Notifications
