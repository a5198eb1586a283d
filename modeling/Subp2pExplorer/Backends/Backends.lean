import Subp2pExplorer.Lib.Maps
import Subp2pExplorer.Notifications.Upgrades

/-! The two network backends as streams of events. Their inner sources answer a
poll from a state of their own, so every combination of what they answer is
there. The context keeps what a call leaves behind: whether it woke the task,
and what each source it polled answered last. A panic has no result. -/
namespace Subp2pExplorer.Backends
open Lib Notifications

/-- Type representing a query ID. -/
structure QueryId where
  id : Nat
  deriving DecidableEq

/-- The event produced by the network backend. -/
inductive NetworkEvent (PeerId Multiaddr : Type) where
  | peerIdentified (peer : PeerId) (protocolVersion userAgent : Option String)
      (supportedProtocols : Finset String) (observedAddress : Multiaddr) (listenAddresses : List Multiaddr)
  | findNode (queryId : QueryId) (target : PeerId) (peers : List (PeerId × List Multiaddr))

/-- The peer ids and addresses of a library as those of the core crate. -/
structure Conversion (Peer Addr PeerId Multiaddr : Type) where
  peer : Peer → PeerId
  address : Addr → Multiaddr

section Contexts

inductive Source where
  | ping
  | pendingActions
  | identify
  | kad
  | rx
  deriving DecidableEq

/-- What a poll of a source comes to. -/
inductive Outcome where
  | item
  | exhausted
  | pending
  deriving DecidableEq

def outcome {α : Type} : Poll (Option α) → Outcome
  | .ready (some _) => .item
  | .ready none => .exhausted
  | .pending => .pending

structure Context where
  woken : Bool
  last : Source → Option Outcome

namespace Context

def new : Context := ⟨false, fun _ => none⟩

def record {α : Type} (ctx : Context) (source : Source) (polled : Poll (Option α)) : Context :=
  { ctx with last := Function.update ctx.last source (some (outcome polled)) }

/-- The pending actions are a source where they were polled. -/
def recordActions (ctx : Context) : Option (Poll (Option Unit)) → Context
  | some acted => ctx.record .pendingActions acted
  | none => ctx

/-- `cx.waker().wake_by_ref()`. -/
def wake (ctx : Context) : Context := { ctx with woken := true }

end Context

end Contexts

section Actions
variable {α ς : Type} (run : α → ς → Option (Poll Unit × ς))

/-- The futures are polled until one completes; that one is taken out. -/
def pollEach : List α → ς → Option (Poll Unit × List α × ς)
  | [], s => some (.pending, [], s)
  | action :: rest, s => do
    let (polled, s) ← run action s
    match polled with
    | .ready () => some (.ready (), rest, s)
    | .pending => do
      let (polled, rest, s) ← pollEach rest s
      some (polled, action :: rest, s)

/-- The pending actions are polled where there are any. -/
def pollActions (actions : List α) (s : ς) : Option (Option (Poll (Option Unit)) × List α × ς) :=
  if actions.isEmpty then some (none, actions, s)
  else do
    let (polled, actions, s) ← pollEach run actions s
    match polled with
    | .ready () => some (some (.ready (some ())), actions, s)
    | .pending => some (some .pending, actions, s)

end Actions

section Litep2p

inductive InnerCommand (PeerId Multiaddr : Type) where
  | addKnownAddress (peerId : PeerId) (address : List Multiaddr)

structure PingEvent (Peer : Type) where
  peer : Peer

structure IdentifyEvent (Peer Addr : Type) where
  peer : Peer
  protocolVersion : Option String
  userAgent : Option String
  supportedProtocols : Finset String
  observedAddress : Addr
  listenAddresses : List Addr

/-- The Kademlia events `poll_next` acts on; all others are `other`. -/
inductive KademliaEvent (Peer Addr : Type) where
  | findNodeSuccess (queryId : Nat) (target : Peer) (peers : List (Peer × List Addr))
  | routingTableUpdate
  | queryFailed (queryId : Nat)
  | other

/-- How the inner sources of a `Litep2pBackend` answer. -/
structure Litep2pSources (ς Peer Addr PeerId Multiaddr : Type) where
  ping : ς → Poll (Option (PingEvent Peer)) × ς
  identify : ς → Poll (Option (IdentifyEvent Peer Addr)) × ς
  kad : ς → Poll (Option (KademliaEvent Peer Addr)) × ς
  send : InnerCommand PeerId Multiaddr → ς → Option (Poll Unit × ς)

structure Litep2pBackend (ς PeerId Multiaddr : Type) where
  tx : ς
  kadHandle : ς
  pingStream : ς
  identifyStream : ς
  pendingActions : List (InnerCommand PeerId Multiaddr)

variable {ς Peer Addr PeerId Multiaddr : Type}

def IdentifyEvent.toNetwork (into : Conversion Peer Addr PeerId Multiaddr) (event : IdentifyEvent Peer Addr) :
    NetworkEvent PeerId Multiaddr :=
  .peerIdentified (into.peer event.peer) event.protocolVersion event.userAgent event.supportedProtocols
    (into.address event.observedAddress) (event.listenAddresses.map into.address)

def Litep2pBackend.pollNext (sources : Litep2pSources ς Peer Addr PeerId Multiaddr)
    (into : Conversion Peer Addr PeerId Multiaddr) (b : Litep2pBackend ς PeerId Multiaddr) :
    Option (Poll (Option (NetworkEvent PeerId Multiaddr)) × Litep2pBackend ς PeerId Multiaddr × Context) := do
  let (pinged, pingStream) := sources.ping b.pingStream
  let ctx := Context.new.record .ping pinged
  let (acted, pendingActions, tx) ← pollActions sources.send b.pendingActions b.tx
  let ctx := ctx.recordActions acted
  let (identified, identifyStream) := sources.identify b.identifyStream
  let ctx := ctx.record .identify identified
  let b := { b with
    tx := tx
    pingStream := pingStream
    identifyStream := identifyStream
    pendingActions := pendingActions }
  match identified with
  | .ready (some event) =>
    let action := .addKnownAddress (into.peer event.peer) (event.listenAddresses.map into.address)
    some (.ready (some (event.toNetwork into)), { b with pendingActions := b.pendingActions ++ [action] }, ctx)
  | _ =>
    let (found, kadHandle) := sources.kad b.kadHandle
    let ctx := ctx.record .kad found
    let b := { b with kadHandle := kadHandle }
    match found with
    | .ready (some (.findNodeSuccess queryId target peers)) =>
      let peers := peers.map fun peer => (into.peer peer.1, peer.2.map into.address)
      some (.ready (some (.findNode ⟨queryId⟩ (into.peer target) peers)), b, ctx)
    | .ready (some .routingTableUpdate) => some (.pending, b, ctx)
    | .ready (some (.queryFailed _)) => some (.pending, b, ctx)
    | .ready (some .other) => some (.pending, b, ctx.wake)
    | _ => some (.pending, b, ctx)

end Litep2p

section Libp2p

/-- The command the pending actions send. -/
structure AddKnownAddress (Peer Addr : Type) where
  peerId : Peer
  address : Addr

/-- The swarm events `poll_next` acts on; all others are `other`. -/
inductive SwarmEvent (KadId Peer Addr : Type) where
  | identifyReceived (peerId : Peer) (protocolVersion agentVersion : String) (protocols : Finset String)
      (observedAddr : Addr) (listenAddrs : List Addr)
  /-- A timeout brings a key and peers as a success does. -/
  | closestPeers (id : KadId) (timeout : Bool) (key : Bytes) (peers : List (Peer × List Addr))
  | routablePeer (peer : Peer) (address : Addr)
  | pendingRoutablePeer (peer : Peer) (address : Addr)
  | routingUpdated (peer : Peer) (addresses : List Addr)
  | other

/-- How the inner sources of a `Libp2pBackend` answer. -/
structure Libp2pSources (ς KadId Peer Addr : Type) where
  rx : ς → Poll (Option (SwarmEvent KadId Peer Addr)) × ς
  send : AddKnownAddress Peer Addr → ς → Option (Poll Unit × ς)

structure Libp2pBackend (ς KadId Peer Addr : Type) where
  rx : ς
  commandTx : ς
  queryTranslate : Map KadId QueryId
  peerAddresses : Map Peer (List Addr)
  pendingActions : List (AddKnownAddress Peer Addr)

namespace Libp2pBackend
variable {ς KadId Peer Addr PeerId Multiaddr : Type} [DecidableEq KadId] [DecidableEq Peer]

/-- Collect an address and have it added to the routing table. -/
def collect (peer : Peer) (address : Addr) (b : Libp2pBackend ς KadId Peer Addr) : Libp2pBackend ς KadId Peer Addr :=
  { b with
    pendingActions := b.pendingActions ++ [⟨peer, address⟩]
    peerAddresses := b.peerAddresses.upsert peer (fun known => known ++ [address]) [address] }

/-- What becomes of an event that was received: an event to return, or none. -/
def handle (into : Conversion Peer Addr PeerId Multiaddr) (fromBytes : Bytes → Option PeerId)
    (event : SwarmEvent KadId Peer Addr) (b : Libp2pBackend ς KadId Peer Addr) :
    Option (Option (NetworkEvent PeerId Multiaddr) × Libp2pBackend ς KadId Peer Addr) :=
  match event with
  | .identifyReceived peerId protocolVersion agentVersion protocols observedAddr listenAddrs =>
    some (some (.peerIdentified (into.peer peerId) (some protocolVersion) (some agentVersion) protocols
      (into.address observedAddr) (listenAddrs.map into.address)), b)
  | .closestPeers id _ key peers => do
    -- Both unwraps panic where there is nothing.
    let queryId ← b.queryTranslate.lookup id
    let target ← fromBytes key
    let peers := peers.map fun peer => (into.peer peer.1, peer.2.map into.address)
    some (some (.findNode queryId target peers), { b with queryTranslate := b.queryTranslate.erase id })
  | .routablePeer peer address => some (none, b.collect peer address)
  | .pendingRoutablePeer peer address => some (none, b.collect peer address)
  | .routingUpdated peer addresses =>
    some (none, { b with peerAddresses := b.peerAddresses.upsert peer (fun known => known ++ addresses) addresses })
  | .other => some (none, b)

def pollNext (sources : Libp2pSources ς KadId Peer Addr) (into : Conversion Peer Addr PeerId Multiaddr)
    (fromBytes : Bytes → Option PeerId) (b : Libp2pBackend ς KadId Peer Addr) :
    Option (Poll (Option (NetworkEvent PeerId Multiaddr)) × Libp2pBackend ς KadId Peer Addr × Context) := do
  let (acted, pendingActions, commandTx) ← pollActions sources.send b.pendingActions b.commandTx
  let ctx := Context.new.recordActions acted
  let (received, rx) := sources.rx b.rx
  let ctx := ctx.record .rx received
  let b := { b with rx := rx, commandTx := commandTx, pendingActions := pendingActions }
  match received with
  | .pending => some (.pending, b, ctx)
  | .ready none => some (.ready none, b, ctx)
  | .ready (some event) => do
    let (event, b) ← b.handle into fromBytes event
    match event with
    | some event => some (.ready (some event), b, ctx)
    | none => some (.pending, b, ctx.wake)

end Libp2pBackend
end Libp2p
end Subp2pExplorer.Backends
