import Mathlib.Logic.Basic

/-! The substreams of a notification protocol. The framed socket under them is
a transport: what it answers, and how it changes, may depend on a world that
every poll brings along, so no outcome of a socket is left out. -/
namespace Subp2pExplorer.Notifications

abbrev Bytes := List UInt8

/-- What polling once gives. -/
inductive Poll (α : Type) where
  | ready (value : α)
  | pending

/-- An error of a socket. -/
structure IoError where
  kind : String
  deriving DecidableEq

/-- A framed socket as a sink and a stream of byte strings. -/
structure Transport (σ ω : Type) where
  pollReady : σ → ω → Poll (Except IoError Unit) × σ × ω
  startSend : Bytes → σ → ω → Except IoError Unit × σ × ω
  pollFlush : σ → ω → Poll (Except IoError Unit) × σ × ω
  pollClose : σ → ω → Poll (Except IoError Unit) × σ × ω
  pollNext : σ → ω → Poll (Option (Except IoError Bytes)) × σ × ω

/-- A socket that takes what is sent, has nothing to read, and flushes as the
world of the poll says. -/
def Transport.flushing : Transport Unit Bool where
  pollReady socket w := (.ready (.ok ()), socket, w)
  startSend _ socket w := (.ok (), socket, w)
  pollFlush socket w := (.ready (if w then .ok () else .error ⟨"BrokenPipe"⟩), socket, w)
  pollClose socket w := (.ready (.ok ()), socket, w)
  pollNext socket w := (.pending, socket, w)

/-- Upgrade that accepts a substream and sends back a handshake message. -/
structure HandshakeInbound where
  name : String
  deriving DecidableEq

/-- Upgrade that opens a substream and submits a handshake. -/
structure HandshakeOutbound where
  name : String
  handshake : Bytes
  deriving DecidableEq

/-- State of the handshake sending back process. -/
inductive HandshakeInboundSubstreamState where
  | waiting
  | sending (handshake : Bytes)
  | flush
  | done
  | needsClose
  | fullyClosed
  deriving DecidableEq

/-- A substream for incoming notification messages. -/
structure HandshakeInboundSubstream (σ : Type) where
  socket : σ
  state : HandshakeInboundSubstreamState
  negotiatedName : String

/-- A substream for outgoing notification messages. -/
structure HandshakeOutboundSubstream (σ : Type) where
  socket : σ

/-- What `upgrade_inbound` yields after it read the handshake of the remote. -/
structure HandshakeInboundOpen (σ : Type) where
  handshake : Bytes
  substream : HandshakeInboundSubstream σ

/-- What `upgrade_outbound` yields after both handshakes were exchanged. -/
structure HandshakeOutboundOpen (σ : Type) where
  handshake : Bytes
  substream : HandshakeOutboundSubstream σ

/-- The end of `upgrade_inbound`, once the handshake is read: the substream
waits for ours from the higher level. -/
def HandshakeInbound.opened {σ : Type} (negotiatedName : String) (handshake : Bytes) (socket : σ) :
    HandshakeInboundOpen σ :=
  ⟨handshake, ⟨socket, .waiting, negotiatedName⟩⟩

/-- A result together with the index of the protocol it belongs to. -/
structure ProtocolResponse (α : Type) where
  data : α
  index : Nat

namespace HandshakeInboundSubstream
variable {σ ω : Type} (transport : Transport σ ω)

def setHandshake (handshake : Bytes) (stream : HandshakeInboundSubstream σ) : HandshakeInboundSubstream σ :=
  match stream.state with
  | .waiting => { stream with state := .sending handshake }
  | _ => stream

/-- `poll_process` from `Flush` on. The state was moved out before the flush,
so an error leaves the substream in `Done`. -/
def processFlush (stream : HandshakeInboundSubstream σ) (w : ω) :
    Poll (Except IoError Empty) × HandshakeInboundSubstream σ × ω :=
  match transport.pollFlush stream.socket w with
  | (.ready (.ok ()), socket, w) => (.pending, { stream with socket := socket, state := .done }, w)
  | (.ready (.error error), socket, w) =>
    (.ready (.error error), { stream with socket := socket, state := .done }, w)
  | (.pending, socket, w) => (.pending, { stream with socket := socket, state := .flush }, w)

/-- Similar to `pollNext` without event generation: ready only for errors. -/
def pollProcess (stream : HandshakeInboundSubstream σ) (w : ω) :
    Poll (Except IoError Empty) × HandshakeInboundSubstream σ × ω :=
  match stream.state with
  | .sending handshake =>
    match transport.pollReady stream.socket w with
    | (.ready _, socket, w) =>
      match transport.startSend handshake socket w with
      | (.ok (), socket, w) => processFlush transport { stream with socket := socket, state := .flush } w
      | (.error error, socket, w) =>
        (.ready (.error error), { stream with socket := socket, state := .flush }, w)
    | (.pending, socket, w) =>
      (.pending, { stream with socket := socket, state := .sending handshake }, w)
  | .flush => processFlush transport stream w
  | _ => (.pending, stream, w)

/-- `poll_next` from `NeedsClose` on. Once the socket is closed the next round
moves `FullyClosed` out, returns, and leaves the substream in `Done`. -/
def nextNeedsClose (stream : HandshakeInboundSubstream σ) (w : ω) :
    Poll (Option (Except IoError Bytes)) × HandshakeInboundSubstream σ × ω :=
  match transport.pollClose stream.socket w with
  | (.ready (.ok ()), socket, w) => (.ready none, { stream with socket := socket, state := .done }, w)
  | (.ready (.error error), socket, w) =>
    (.ready (some (.error error)), { stream with socket := socket, state := .done }, w)
  | (.pending, socket, w) => (.pending, { stream with socket := socket, state := .needsClose }, w)

/-- `poll_next` from `Done` on. -/
def nextDone (stream : HandshakeInboundSubstream σ) (w : ω) :
    Poll (Option (Except IoError Bytes)) × HandshakeInboundSubstream σ × ω :=
  match transport.pollNext stream.socket w with
  | (.ready none, socket, w) =>
    nextNeedsClose transport { stream with socket := socket, state := .needsClose } w
  | (.ready (some result), socket, w) =>
    (.ready (some result), { stream with socket := socket, state := .done }, w)
  | (.pending, socket, w) => (.pending, { stream with socket := socket, state := .done }, w)

/-- `poll_next` from `Flush` on. -/
def nextFlush (stream : HandshakeInboundSubstream σ) (w : ω) :
    Poll (Option (Except IoError Bytes)) × HandshakeInboundSubstream σ × ω :=
  match transport.pollFlush stream.socket w with
  | (.ready (.ok ()), socket, w) => nextDone transport { stream with socket := socket, state := .done } w
  | (.ready (.error error), socket, w) =>
    (.ready (some (.error error)), { stream with socket := socket, state := .done }, w)
  | (.pending, socket, w) => (.pending, { stream with socket := socket, state := .flush }, w)

/-- The stream of received messages. -/
def pollNext (stream : HandshakeInboundSubstream σ) (w : ω) :
    Poll (Option (Except IoError Bytes)) × HandshakeInboundSubstream σ × ω :=
  match stream.state with
  | .waiting => (.pending, stream, w)
  | .sending handshake =>
    match transport.pollReady stream.socket w with
    | (.ready _, socket, w) =>
      match transport.startSend handshake socket w with
      | (.ok (), socket, w) => nextFlush transport { stream with socket := socket, state := .flush } w
      | (.error error, socket, w) =>
        (.ready (some (.error error)), { stream with socket := socket, state := .flush }, w)
    | (.pending, socket, w) =>
      (.pending, { stream with socket := socket, state := .sending handshake }, w)
  | .flush => nextFlush transport stream w
  | .done => nextDone transport stream w
  | .needsClose => nextNeedsClose transport stream w
  | .fullyClosed => (.ready none, { stream with state := .done }, w)

end HandshakeInboundSubstream

namespace HandshakeOutboundSubstream
variable {σ ω : Type} (transport : Transport σ ω)

def pollReady (stream : HandshakeOutboundSubstream σ) (w : ω) :
    Poll (Except IoError Unit) × HandshakeOutboundSubstream σ × ω :=
  let (result, socket, w) := transport.pollReady stream.socket w
  (result, ⟨socket⟩, w)

def startSend (item : Bytes) (stream : HandshakeOutboundSubstream σ) (w : ω) :
    Except IoError Unit × HandshakeOutboundSubstream σ × ω :=
  let (result, socket, w) := transport.startSend item stream.socket w
  (result, ⟨socket⟩, w)

def pollFlush (stream : HandshakeOutboundSubstream σ) (w : ω) :
    Poll (Except IoError Unit) × HandshakeOutboundSubstream σ × ω :=
  let (result, socket, w) := transport.pollFlush stream.socket w
  (result, ⟨socket⟩, w)

end HandshakeOutboundSubstream
end Subp2pExplorer.Notifications
