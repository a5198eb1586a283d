import Mathlib.Logic.Function.Basic
import Subp2pExplorer.Notifications.HandlerRuns
import Subp2pExplorer.Notifications.Wire

/-! Two handlers at the ends of one connection. A substream is a link that one
side asks for and the other is handed: what an end sends arrives in order and
from its beginning, as far as it has come, and everything else about a link is
up to the run. -/
namespace Subp2pExplorer.Notifications
open Lib

inductive Side where
  | a
  | b
  deriving DecidableEq

def Side.other : Side → Side
  | .a => .b
  | .b => .a

@[simp] theorem Side.other_other (side : Side) : side.other.other = side := by cases side <;> rfl

theorem Side.other_ne (side : Side) : side.other ≠ side := by cases side <;> nofun

theorem Side.eq_or_other (side which : Side) : which = side ∨ which = side.other := by
  cases side <;> cases which <;> simp [other]

/-- The end of a link at one side. -/
structure Endpoint where
  link : Nat
  side : Side
  deriving DecidableEq

/-- What each end of each link was given to send. -/
abbrev Wires := Endpoint → Bytes

/-- Links as framed sockets. A message is sent whole, behind its length, and by
no other operation; when and whether an operation succeeds is left open, and so
is what it reads. -/
structure Channel (varint : Varint) (W : Type) where
  transport : Transport Endpoint (Wires × W)
  ready_keeps : ∀ e w, (transport.pollReady e w).2.1 = e ∧ (transport.pollReady e w).2.2.1 = w.1
  flush_keeps : ∀ e w, (transport.pollFlush e w).2.1 = e ∧ (transport.pollFlush e w).2.2.1 = w.1
  close_keeps : ∀ e w, (transport.pollClose e w).2.1 = e ∧ (transport.pollClose e w).2.2.1 = w.1
  next_keeps : ∀ e w, (transport.pollNext e w).2.1 = e ∧ (transport.pollNext e w).2.2.1 = w.1
  send_keeps : ∀ item e w, (transport.startSend item e w).2.1 = e
  send_queues : ∀ item e w, (transport.startSend item e w).1 = .ok () →
    (transport.startSend item e w).2.2.1 = Function.update w.1 e (w.1 e ++ varint.frame item)
  send_fails : ∀ item e w error, (transport.startSend item e w).1 = .error error →
    (transport.startSend item e w).2.2.1 = w.1

/-- Links on which every operation succeeds and nothing is read yet. -/
def Channel.calm (varint : Varint) : Channel varint Unit where
  transport :=
    { pollReady := fun e w => (.ready (.ok ()), e, w)
      startSend := fun item e w => (.ok (), e, Function.update w.1 e (w.1 e ++ varint.frame item), w.2)
      pollFlush := fun e w => (.ready (.ok ()), e, w)
      pollClose := fun e w => (.ready (.ok ()), e, w)
      pollNext := fun e w => (.pending, e, w) }
  ready_keeps _ _ := ⟨rfl, rfl⟩
  flush_keeps _ _ := ⟨rfl, rfl⟩
  close_keeps _ _ := ⟨rfl, rfl⟩
  next_keeps _ _ := ⟨rfl, rfl⟩
  send_keeps _ _ _ := rfl
  send_queues _ _ _ _ := rfl
  send_fails _ _ _ _ := nofun

/-- A substream that `opener` asked for: the protocol of the other side it was
negotiated for, once it was, and whether the request has been answered. -/
structure Link where
  opener : Side
  request : HandshakeOutbound
  info : Nat
  accepted : Option Nat
  answered : Bool

/-- What has happened at one side. A command to open is kept with the link of
the substream that its protocol held then. -/
inductive Entry where
  | opened (index : Nat) (held : Option Nat)
  | closed (index : Nat)
  | received (index link : Nat)

/-- The side opened the protocol while it held the link, or before it received
the link, and had not closed it again by then. -/
def Agreed (history : List Entry) (index link : Nat) : Prop :=
  .opened index (some link) ∈ history ∨
    ∃ before held between after, .closed index ∉ between ∧
      history = before ++ .opened index held :: (between ++ .received index link :: after)

structure Joint (PeerId : Type) where
  runs : Side → HandlerRun PeerId Endpoint
  links : List Link
  wires : Wires
  history : Side → List Entry

inductive JointTurn (W : Type) where
  | command (side : Side) (message : FromBehavior)
  | send (side : Side) (channel : Nat) (message : Bytes)
  | poll (side : Side) (weather : W)
  | accept (side : Side) (link index : Nat) (pieces : List Bytes)
  | answer (side : Side) (link : Nat) (pieces : List Bytes)
  | fail (side : Side) (link : Nat)

namespace State
variable {σ : Type}

def inbound : State σ → Option (HandshakeInboundSubstream σ)
  | .closed _ => none
  | .openDesiredByRemote inboundSubstream _ => some inboundSubstream
  | .opening inboundSubstream _ => inboundSubstream
  | .opened _ inboundSubstream _ => inboundSubstream

def outbound : State σ → Option (HandshakeOutboundSubstream σ)
  | .opened _ _ outboundSubstream => outboundSubstream
  | _ => none

end State

namespace Joint
variable {PeerId W : Type}

/-- What a command is remembered as. -/
def entryOf (h : NotificationsHandler PeerId Endpoint) : FromBehavior → Entry
  | .open index => .opened index ((h.protocols[index]?.bind fun proto => proto.state.inbound).map fun inbound =>
      inbound.socket.link)
  | .close index => .closed index

def setRun (s : Joint PeerId) (side : Side) (run : HandlerRun PeerId Endpoint) : Joint PeerId :=
  { s with runs := Function.update s.runs side run }

theorem run_own (s : Joint PeerId) (side : Side) (run : HandlerRun PeerId Endpoint) :
    (s.setRun side run).runs side = run := Function.update_self _ _ _

theorem run_other (s : Joint PeerId) (side : Side) (run : HandlerRun PeerId Endpoint) :
    (s.setRun side run).runs side.other = s.runs side.other := Function.update_of_ne side.other_ne _ _

def record (s : Joint PeerId) (side : Side) (entry : Entry) : Joint PeerId :=
  { s with history := Function.update s.history side (s.history side ++ [entry]) }

/-- A new link, on which the handshake of its opener is on the way. -/
def openLink (varint : Varint) (s : Joint PeerId) (opener : Side) (request : HandshakeOutbound) (info : Nat) :
    Joint PeerId :=
  let submitted := Function.update s.wires ⟨s.links.length, opener⟩ (varint.frame request.handshake)
  { s with
    links := s.links ++ [⟨opener, request, info, none, false⟩]
    wires := Function.update submitted ⟨s.links.length, opener.other⟩ [] }

variable {varint : Varint} (channel : Channel varint W)

/-- One step of one side. A substream is handed to the side that did not ask for
it for a protocol with the name it was asked for, once, and after its upgrade
read a handshake; it is answered at the other side after the upgrade there did. -/
def turn (s : Joint PeerId) : JointTurn W → Option (Joint PeerId)
  | .command side message =>
    ((s.runs side).turn channel.transport (.command message)).map fun run =>
      (s.setRun side run).record side (entryOf (s.runs side).handler message)
  | .send side userChannel message =>
    ((s.runs side).turn channel.transport (.send userChannel message)).map fun run => s.setRun side run
  | .poll side weather =>
    let (result, h, w) := (s.runs side).handler.poll channel.transport (s.wires, weather)
    let s := { s.setRun side ((s.runs side).take h result) with wires := w.1 }
    match result with
    | .ready (.outboundSubstreamRequest request info) => some (s.openLink varint side request info)
    | _ => some s
  | .accept side id index pieces =>
    s.links[id]?.bind fun link =>
      (s.runs side).handler.protocols[index]?.bind fun proto =>
        if link.opener = side.other ∧ link.accepted = none ∧ proto.upgrade.name = link.request.name ∧
            pieces.flatten <+: s.wires ⟨id, side.other⟩ then
          match proto.upgrade.upgradeInbound varint (fun _ => (⟨id, side⟩ : Endpoint)) ⟨pieces, [], none⟩
              link.request.name with
          | (.error _, _) => none
          | (.ok opened, _) =>
            ((s.runs side).turn channel.transport (.inbound ⟨opened, index⟩)).map fun run =>
              { s.setRun side run with links := s.links.set id { link with accepted := some index } }.record side
                (.received index id)
        else none
  | .answer side id pieces =>
    s.links[id]?.bind fun link =>
      if link.opener = side ∧ link.answered = false ∧ pieces.flatten <+: s.wires ⟨id, side.other⟩ then
        match link.request.upgradeOutbound varint (fun _ => (⟨id, side⟩ : Endpoint)) ⟨pieces, [], none⟩ with
        | (.error _, _) => none
        | (.ok opened, _) =>
          ((s.runs side).turn channel.transport (.outbound opened link.info)).map fun run =>
            { s.setRun side run with links := s.links.set id { link with answered := true } }
      else none
  | .fail side id =>
    s.links[id]?.bind fun link =>
      if link.opener = side ∧ link.answered = false then
        ((s.runs side).turn channel.transport (.dialError link.info)).map fun run =>
          { s.setRun side run with links := s.links.set id { link with answered := true } }
      else none

end Joint

/-- The runs of two handlers at the ends of one connection. -/
def jointRuns {PeerId W : Type} {varint : Varint} (channel : Channel varint W) (peer : Side → PeerId)
    (endpoint : Side → ConnectedPoint PeerId) (data : Side → ProtocolsData) :
    Machine (Joint PeerId) (JointTurn W) where
  start :=
    { runs := fun side => ⟨.new (peer side) (endpoint side) (data side), [], []⟩
      links := []
      wires := fun _ => []
      history := fun _ => [] }
  next := Joint.turn channel

end Subp2pExplorer.Notifications
