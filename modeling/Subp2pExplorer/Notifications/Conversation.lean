import Mathlib.Data.List.Infix
import Subp2pExplorer.Notifications.Agreement

/-! Two handlers on links that also say what is read. An end gives out the
frames behind the one its upgrade has read, in order and once each; when it
gives one out is open. The runs are those of the two handlers, with what each
end has given out beside them. -/
namespace Subp2pExplorer.Notifications
open Lib

/-- The other end of the link. -/
def Endpoint.far (e : Endpoint) : Endpoint := ⟨e.link, e.side.other⟩

/-- The messages that each end has given out. -/
abbrev Given := Endpoint → List Bytes

/-- What a `usize` can count. -/
def Fits (message : Bytes) : Prop := message.length < 2 ^ 64

structure OrderedChannel (varint : Varint) (W : Type) extends Channel varint (Given × W) where
  ready_gives : ∀ e w, (transport.pollReady e w).2.2.2.1 = w.2.1
  flush_gives : ∀ e w, (transport.pollFlush e w).2.2.2.1 = w.2.1
  close_gives : ∀ e w, (transport.pollClose e w).2.2.2.1 = w.2.1
  send_gives : ∀ item e w, (transport.startSend item e w).2.2.2.1 = w.2.1
  next_gives : ∀ e w, match transport.pollNext e w with
    | (.ready (some (.ok bytes)), _, w') =>
      w'.2.1 = Function.update w.2.1 e (w.2.1 e ++ [bytes]) ∧
        ∀ first sent, (∀ message ∈ first :: sent, Fits message) → w.1 e.far = varint.frames (first :: sent) →
          w.2.1 e <+: sent → w.2.1 e ++ [bytes] <+: sent
    | (_, _, w') => w'.2.1 = w.2.1

section Prompt

/-- The frame behind so many others. -/
def frameAt : Nat → Bytes → Option Bytes
  | skipped, buffer =>
    match Lib.Varint.parse 10 buffer with
    | none => none
    | some (item, left) => match skipped with
      | 0 => some item
      | skipped + 1 => frameAt skipped left

theorem frame_at_frames {messages : List Bytes} (fit : ∀ message ∈ messages, Fits message) (skipped : Nat) :
    frameAt skipped (Varint.leb128.frames messages) = messages[skipped]? := by
  induction messages generalizing skipped with
  | nil =>
    have nothing : Lib.Varint.parse 10 [] = none := rfl
    unfold frameAt Varint.frames
    simp only [List.flatMap_nil, nothing, List.getElem?_nil]
  | cons message messages ih =>
    have fits : message.length < 128 ^ 10 := Nat.lt_of_lt_of_le (fit message List.mem_cons_self) (by decide)
    have parsed := Lib.Varint.parse_frame 10 message (Varint.leb128.frames messages) (by decide) fits
    have front : Varint.leb128.frames (message :: messages) =
        Lib.Varint.frame 10 message ++ Varint.leb128.frames messages := rfl
    rw [front]
    unfold frameAt
    simp only [parsed]
    cases skipped with
    | zero => rfl
    | succ skipped => exact ih (fun other member => fit other (List.mem_cons_of_mem _ member)) skipped

/-- Links on which every operation succeeds, and a frame is there once it was
sent. -/
def OrderedChannel.prompt : OrderedChannel .leb128 Unit where
  transport :=
    { pollReady := fun e w => (.ready (.ok ()), e, w)
      startSend := fun item e w => (.ok (), e, Function.update w.1 e (w.1 e ++ Varint.leb128.frame item), w.2)
      pollFlush := fun e w => (.ready (.ok ()), e, w)
      pollClose := fun e w => (.ready (.ok ()), e, w)
      pollNext := fun e w => match frameAt ((w.2.1 e).length + 1) (w.1 e.far) with
        | some bytes => (.ready (some (.ok bytes)), e, w.1, Function.update w.2.1 e (w.2.1 e ++ [bytes]), w.2.2)
        | none => (.pending, e, w) }
  ready_keeps _ _ := ⟨rfl, rfl⟩
  flush_keeps _ _ := ⟨rfl, rfl⟩
  close_keeps _ _ := ⟨rfl, rfl⟩
  next_keeps e w := by dsimp only; split <;> exact ⟨rfl, rfl⟩
  send_keeps _ _ _ := rfl
  send_queues _ _ _ _ := rfl
  send_fails _ _ _ _ := nofun
  ready_gives _ _ := rfl
  flush_gives _ _ := rfl
  close_gives _ _ := rfl
  send_gives _ _ _ := rfl
  next_gives e w := by
    dsimp only
    cases found : frameAt ((w.2.1 e).length + 1) (w.1 e.far) with
    | none => rfl
    | some bytes =>
      refine ⟨rfl, fun first sent fit wire begun => ?_⟩
      rw [wire, frame_at_frames fit, List.getElem?_cons_succ] at found
      obtain ⟨rest, rfl⟩ := begun
      rw [List.getElem?_append_right (Nat.le_refl _), Nat.sub_self, ← List.head?_eq_getElem?] at found
      obtain ⟨later, rfl⟩ := List.head?_eq_some_iff.mp found
      exact ⟨later, by simp⟩

end Prompt

/-- Two handlers at the ends of one connection, with what the ends have given
out. -/
structure Conversation (PeerId : Type) where
  joint : Joint PeerId
  given : Given

/-- What is noted of a conversation: a message the user of a side put into a
channel, a link that opened a protocol with a channel, and a message that a
behaviour was told of, with the link it came from. -/
inductive Said where
  | put (side : Side) (channel : Nat) (message : Bytes)
  | opened (link channel : Nat)
  | heard (link index : Nat) (message : Bytes)
  deriving DecidableEq

/-- The same turn, in a world that knows what was given out. -/
def JointTurn.within {W : Type} (given : Given) : JointTurn W → JointTurn (Given × W)
  | .command side message => .command side message
  | .send side channel message => .send side channel message
  | .poll side weather => .poll side (given, weather)
  | .accept side link index pieces => .accept side link index pieces
  | .answer side link pieces => .answer side link pieces
  | .fail side link => .fail side link

namespace Conversation
variable {PeerId W : Type} {varint : Varint} (channel : OrderedChannel varint W)

/-- The poll of a side. -/
def polled (c : Conversation PeerId) (side : Side) (weather : W) :
    Poll (HandlerEvent PeerId) × NotificationsHandler PeerId Endpoint × Wires × Given × W :=
  (c.joint.runs side).handler.poll channel.transport (c.joint.wires, c.given, weather)

def givenAfter (c : Conversation PeerId) : JointTurn W → Given
  | .poll side weather => (c.polled channel side weather).2.2.2.1
  | _ => c.given

def turn (c : Conversation PeerId) (l : JointTurn W) : Option (Conversation PeerId) :=
  (c.joint.turn channel.toChannel (l.within c.given)).map fun joint => ⟨joint, c.givenAfter channel l⟩

/-- The link whose inbound substream a protocol of a side holds. -/
def heldLink (c : Conversation PeerId) (side : Side) (index : Nat) : Option Nat :=
  ((c.joint.runs side).handler.protocols[index]?.bind fun proto => proto.state.inbound).map fun stream =>
    stream.socket.link

/-- What is noted of the result of a poll. -/
def heardOf (c : Conversation PeerId) (side : Side) : Poll (HandlerEvent PeerId) → List Said
  | .ready (.notifyBehaviour (.notification index message)) =>
    (c.heldLink side index).toList.map fun link => .heard link index message
  | _ => []

/-- What is noted of an event that the answer of a link queued. -/
def openedOf (link : Nat) : HandlerEvent PeerId → Option Said
  | .notifyBehaviour (.handshakeCompleted _ _ _ _ sender) => some (.opened link sender)
  | _ => none

/-- What a turn adds to the notes. -/
def notes (c : Conversation PeerId) (l : JointTurn W) (c' : Conversation PeerId) : List Said :=
  match l with
  | .send side userChannel message => [.put side userChannel message]
  | .answer side id _ => (Joint.queued c.joint c'.joint side).filterMap (openedOf id)
  | .poll side weather => c.heardOf side (c.polled channel side weather).1
  | _ => []

end Conversation

/-- The runs of two handlers over links that say what is read. -/
def conversationRuns {PeerId W : Type} {varint : Varint} (channel : OrderedChannel varint W) (peer : Side → PeerId)
    (endpoint : Side → ConnectedPoint PeerId) (data : Side → ProtocolsData) :
    Machine (Conversation PeerId) (JointTurn W) where
  start := ⟨(jointRuns channel.toChannel peer endpoint data).start, fun _ => []⟩
  next := Conversation.turn channel

end Subp2pExplorer.Notifications
