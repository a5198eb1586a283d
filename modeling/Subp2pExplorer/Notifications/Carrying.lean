import Mathlib.Data.List.Sublists
import Subp2pExplorer.Notifications.Channels
import Subp2pExplorer.Notifications.Conversation

/-! From the user of one side to the behaviour of the other. What a link
carries behind the handshake is taken from one channel of its opener, and what
is heard from it is the beginning of what it carries. -/
namespace Subp2pExplorer.Notifications
open Lib

namespace Said

def putInto (side : Side) (channel : Nat) : Said → Option Bytes
  | .put which other message => if which = side ∧ other = channel then some message else none
  | _ => none

def heardOn (link : Nat) : Said → Option Bytes
  | .heard other _ message => if other = link then some message else none
  | _ => none

end Said

/-- The messages the user of a side put into a channel. -/
def putInto (side : Side) (channel : Nat) (notes : List Said) : List Bytes :=
  notes.filterMap (Said.putInto side channel)

/-- The messages a behaviour was told of from a link. -/
def heardOn (link : Nat) (notes : List Said) : List Bytes := notes.filterMap (Said.heardOn link)

/-! ## Reading -/

/-- What an operation that may read gives out at an end, given what the far end
has sent. -/
def Reads (varint : Varint) (e : Endpoint) (wire : Bytes) (given given' : Given) :
    Poll (Option (Except IoError Bytes)) → Prop
  | .ready (some (.ok bytes)) => given' = Function.update given e (given e ++ [bytes]) ∧
      ∀ first sent, (∀ message ∈ first :: sent, Fits message) → wire = varint.frames (first :: sent) →
        given e <+: sent → given e ++ [bytes] <+: sent
  | _ => given' = given

section Reading
variable {W : Type} {varint : Varint} (channel : OrderedChannel varint W)

theorem next_result_reads (e : Endpoint) (w : Wires × Given × W) :
    Reads varint e (w.1 e.far) w.2.1 (channel.transport.pollNext e w).2.2.2.1 (channel.transport.pollNext e w).1 := by
  have gives := channel.next_gives e w
  unfold Reads
  revert gives
  rcases channel.transport.pollNext e w with ⟨(_ | _ | _) | _, e', w'⟩ <;> exact id

namespace HandshakeInboundSubstream
variable (stream : HandshakeInboundSubstream Endpoint) (w : Wires × Given × W)

theorem process_flush_gives : (stream.processFlush channel.transport w).2.2.2.1 = w.2.1 := by
  have flushed := channel.flush_gives stream.socket w
  unfold processFlush
  split
  all_goals
    rename_i polled
    rw [polled] at flushed
    exact flushed

theorem poll_process_gives : (stream.pollProcess channel.transport w).2.2.2.1 = w.2.1 := by
  have polled := channel.ready_gives stream.socket w
  unfold pollProcess
  split
  · rename_i queued sending
    split
    · rename_i ready e' w' ready_polled
      rw [ready_polled] at polled
      have sent := channel.send_gives queued e' w'
      split
      · rename_i e'' w'' started
        rw [started] at sent
        exact (process_flush_gives channel _ w'').trans (sent.trans polled)
      · rename_i started
        rw [started] at sent
        exact sent.trans polled
    · rename_i ready_polled
      rw [ready_polled] at polled
      exact polled
  · exact process_flush_gives channel stream w
  · rfl

theorem next_needs_close_reads (e : Endpoint) (wire : Bytes) :
    Reads varint e wire w.2.1 (stream.nextNeedsClose channel.transport w).2.2.2.1
      (stream.nextNeedsClose channel.transport w).1 := by
  have closed := channel.close_gives stream.socket w
  unfold nextNeedsClose
  split
  all_goals
    rename_i polled
    rw [polled] at closed
    exact closed

theorem next_done_reads :
    Reads varint stream.socket (w.1 stream.socket.far) w.2.1 (stream.nextDone channel.transport w).2.2.2.1
      (stream.nextDone channel.transport w).1 := by
  have read := next_result_reads channel stream.socket w
  unfold nextDone
  split
  · rename_i e' w' polled
    rw [polled] at read
    have closed := next_needs_close_reads channel { stream with socket := e', state := .needsClose } w' stream.socket
      (w.1 stream.socket.far)
    have same : w'.2.1 = w.2.1 := read
    rwa [same] at closed
  all_goals
    rename_i polled
    rw [polled] at read
    exact read

theorem next_flush_reads :
    Reads varint stream.socket (w.1 stream.socket.far) w.2.1 (stream.nextFlush channel.transport w).2.2.2.1
      (stream.nextFlush channel.transport w).1 := by
  have flushed := channel.flush_gives stream.socket w
  unfold nextFlush
  split
  · rename_i e' w' polled
    obtain ⟨rfl, wires⟩ := flush_result polled
    rw [polled] at flushed
    have read := next_done_reads channel { stream with state := .done } w'
    have same : w'.2.1 = w.2.1 := flushed
    rwa [wires, same] at read
  all_goals
    rename_i polled
    rw [polled] at flushed
    exact flushed

/-- The far end of a link is not touched while its near end is polled. -/
theorem poll_next_reads :
    Reads varint stream.socket (w.1 stream.socket.far) w.2.1 (stream.pollNext channel.transport w).2.2.2.1
      (stream.pollNext channel.transport w).1 := by
  unfold pollNext
  split
  · rfl
  · rename_i queued sending
    have readied := channel.ready_gives stream.socket w
    split
    · rename_i ready e' w' polled
      obtain ⟨rfl, wires⟩ := ready_result polled
      rw [polled] at readied
      have sent := channel.send_gives queued stream.socket w'
      split
      · rename_i e'' w'' started
        obtain ⟨rfl, queued⟩ := send_result started
        rw [started] at sent
        have same : w''.2.1 = w.2.1 := sent.trans readied
        have far : w''.1 stream.socket.far = w.1 stream.socket.far := by
          have apart : stream.socket.far ≠ stream.socket := fun same =>
            stream.socket.side.other_ne (congrArg Endpoint.side same)
          rcases queued with nothing | queued
          · rw [nothing, wires]
          · rw [queued, Function.update_of_ne apart, wires]
        have read := next_flush_reads channel { stream with state := .flush } w''
        rwa [far, same] at read
      · rename_i started
        rw [started] at sent
        exact sent.trans readied
    · rename_i polled
      rw [polled] at readied
      exact readied
  · exact next_flush_reads channel stream w
  · exact next_done_reads channel stream w
  · exact next_needs_close_reads channel stream w _ _
  · rfl

end HandshakeInboundSubstream
end Reading

/-! ## Sending -/

section Sending
variable {W : Type} {varint : Varint} (channel : OrderedChannel varint W)

theorem frames_append (sent accepted : List Bytes) :
    varint.frames (sent ++ accepted) = varint.frames sent ++ varint.frames accepted := List.flatMap_append

/-- What the sending loop puts on the wire: some of the messages it takes from
the receiver, in order. -/
structure Forwards (varint : Varint) (recv recv' : Receiver) (e : Endpoint) (w w' : Wires) (accepted : List Bytes) :
    Prop where
  channel : recv'.channel = recv.channel
  wire : w' e = w e ++ varint.frames accepted
  order : (accepted ++ recv'.messages).Sublist recv.messages

theorem outbound_ready_gives {out out' : HandshakeOutboundSubstream Endpoint} {result : Poll (Except IoError Unit)}
    {w w' : Wires × Given × W} (polled : out.pollReady channel.transport w = (result, out', w')) :
    w'.2.1 = w.2.1 := by
  cases polled
  exact channel.ready_gives out.socket w

theorem outbound_flush_gives {out out' : HandshakeOutboundSubstream Endpoint} {result : Poll (Except IoError Unit)}
    {w w' : Wires × Given × W} (polled : out.pollFlush channel.transport w = (result, out', w')) :
    w'.2.1 = w.2.1 := by
  cases polled
  exact channel.flush_gives out.socket w

/-- A message that is sent is accepted whole or not at all. -/
theorem outbound_send_forwards {out out' : HandshakeOutboundSubstream Endpoint} {item : Bytes}
    {result : Except IoError Unit} {w w' : Wires × Given × W}
    (sent : out.startSend channel.transport item w = (result, out', w')) :
    out'.socket = out.socket ∧ w'.2.1 = w.2.1 ∧
      (w'.1 out.socket = w.1 out.socket ∨ w'.1 out.socket = w.1 out.socket ++ varint.frame item) := by
  cases sent
  obtain ⟨socket, wires⟩ := @send_result _ _ channel.toChannel out.socket w item _ _ _ rfl
  refine ⟨socket, channel.send_gives item out.socket w, wires.imp (fun same => congrFun same _) fun queued => ?_⟩
  exact (congrFun queued _).trans (Function.update_self _ _ _)

theorem send_messages_forwards (rounds : Nat) (recv : Receiver) (outbound : HandshakeOutboundSubstream Endpoint)
    (w : Wires × Given × W) :
    (∃ accepted, Forwards varint recv (sendMessages channel.transport rounds recv outbound w).1 outbound.socket w.1
      (sendMessages channel.transport rounds recv outbound w).2.2.1 accepted) ∧
      (sendMessages channel.transport rounds recv outbound w).2.2.2.1 = w.2.1 := by
  induction rounds generalizing recv outbound w with
  | zero => exact ⟨⟨[], rfl, (List.append_nil _).symm, .refl _⟩, rfl⟩
  | succ rounds ih =>
    obtain ⟨same, kept, peeked⟩ := recv.poll_peek_keeps
    rcases peek : recv.pollPeek with ⟨_ | _, recv'⟩
    · rw [peek] at same kept
      simp only [sendMessages, peek]
      exact ⟨⟨[], same, (List.append_nil _).symm, kept ▸ .refl _⟩, trivial⟩
    · rw [peek] at same kept peeked
      obtain ⟨message, found⟩ := peeked rfl
      rcases polled : outbound.pollReady channel.transport w with ⟨answer | _, outbound', w'⟩
      · obtain ⟨socket, wires⟩ := outbound_ready polled
        have readied := outbound_ready_gives channel polled
        obtain ⟨next, split⟩ := Receiver.poll_next_peeked found
        rcases started : outbound'.startSend channel.transport message w' with ⟨result, outbound'', w''⟩
        obtain ⟨socket', sent, outcome⟩ := outbound_send_forwards channel started
        obtain ⟨⟨accepted, later⟩, given⟩ := ih { recv' with peeked := none } outbound'' w''
        have wire := later.wire
        rw [socket', socket] at wire
        rw [socket, wires] at outcome
        simp only [sendMessages, peek, polled, next, started]
        refine ⟨?_, given.trans (sent.trans readied)⟩
        rcases outcome with nothing | queued
        · refine ⟨accepted, later.channel.trans same, by rw [wire, nothing], ?_⟩
          rw [← kept, split]
          exact later.order.cons message
        · refine ⟨message :: accepted, later.channel.trans same, ?_, ?_⟩
          · rw [wire, queued, List.append_assoc]
            rfl
          · rw [← kept, split]
            exact later.order.cons_cons message
      · obtain ⟨socket, wires⟩ := outbound_ready polled
        have readied := outbound_ready_gives channel polled
        simp only [sendMessages, peek, polled]
        exact ⟨⟨[], same, by rw [wires]; exact (List.append_nil _).symm, kept ▸ .refl _⟩, readied⟩

end Sending

/-! ## What links carry -/

/-- The open protocols with a substream to send on were open before, with the
same channel and the same messages in it. -/
def Steady (state state' : State Endpoint) : Prop :=
  ∀ recv inbound' out', state' = .opened recv inbound' (some out') →
    ∃ inbound out, state = .opened recv inbound (some out) ∧ out'.socket = out.socket

section Visits
variable {PeerId W : Type} {varint : Varint} {channel : OrderedChannel varint W} {state state' : State Endpoint}
  {w w' : Wires × Given × W} {k : Nat} {event : Option (ToBehavior PeerId)}

theorem flush_state_steady (visited : flushState channel.transport k state w = (event, state', w')) :
    Steady state state' ∧ w'.1 = w.1 ∧ w'.2.1 = w.2.1 ∧ state'.inbound = state.inbound := by
  unfold flushState at visited
  split at visited
  · rename_i recv inbound outbound
    split at visited
    all_goals
      rename_i polled
      obtain ⟨socket, wires⟩ := outbound_flush polled
      have given := outbound_flush_gives channel polled
      cases visited
    · exact ⟨fun _ _ _ => nofun, wires, given, rfl⟩
    · refine ⟨fun recv' inbound' out' opened => ?_, wires, given, rfl⟩
      cases opened
      exact ⟨inbound, outbound, rfl, socket⟩
  · cases visited
    exact ⟨fun recv inbound out opened => ⟨inbound, out, opened, rfl⟩, rfl, rfl, rfl⟩

/-- A message is handed out exactly if an end gives one out. -/
def HandsOut (varint : Varint) (k : Nat) (state : State Endpoint) (wires : Wires) (given given' : Given) :
    Option (ToBehavior PeerId) → Prop
  | some (.notification index bytes) => index = k ∧ ∃ stream, state.inbound = some stream ∧
      Reads varint stream.socket (wires stream.socket.far) given given' (.ready (some (.ok bytes)))
  | _ => given' = given

/-- What a visit of the third pass does: the wire of an end of ours may change
if it holds an inbound substream, and at most its message is handed out. -/
theorem inbound_state_steady (visited : pollInboundState channel.transport k state w = (event, state', w')) :
    Steady state state' ∧ HandsOut varint k state w.1 w.2.1 w'.2.1 event ∧
      (∀ e, (∀ stream, state.inbound = some stream → e ≠ stream.socket) → w'.1 e = w.1 e) ∧
      ∀ stream', state'.inbound = some stream' → ∃ stream, state.inbound = some stream ∧
        stream'.socket = stream.socket := by
  have untouched : ∀ {stream stream' : HandshakeInboundSubstream Endpoint} {wires wires' : Wires},
      state.inbound = some stream → Moved varint stream stream' wires wires' →
      ∀ e, (∀ stream, state.inbound = some stream → e ≠ stream.socket) → wires' e = wires e := by
    intro stream stream' wires wires' held moved e apart
    rcases moved.sent with ⟨same, _⟩ | ⟨_, _, _, sent⟩
    · rw [same]
    · rw [sent, Function.update_of_ne (apart stream held)]
  unfold pollInboundState at visited
  split at visited
  · rename_i recv inbound outbound
    have moved := HandshakeInboundSubstream.poll_next_moved channel.toChannel inbound w
    have read := HandshakeInboundSubstream.poll_next_reads channel inbound w
    split at visited
    all_goals
      rename_i polled
      rw [polled] at moved read
      cases visited
      refine ⟨fun recv' inbound' out' opened => ?_, ?_, untouched rfl moved, ?_⟩
    · cases opened; exact ⟨_, _, rfl, rfl⟩
    · exact read
    · rintro stream' ⟨⟩; exact ⟨inbound, rfl, moved.socket⟩
    · cases opened; exact ⟨_, _, rfl, rfl⟩
    · exact ⟨rfl, inbound, rfl, read⟩
    · rintro stream' ⟨⟩; exact ⟨inbound, rfl, moved.socket⟩
    · cases opened; exact ⟨_, _, rfl, rfl⟩
    · exact read
    · rintro stream' ⟨⟩
    · cases opened; exact ⟨_, _, rfl, rfl⟩
    · exact read
    · rintro stream' ⟨⟩
  · rename_i inbound pendingOpening
    have moved := HandshakeInboundSubstream.poll_process_moved channel.toChannel inbound w
    have same := HandshakeInboundSubstream.poll_process_gives channel inbound w
    split at visited
    all_goals
      rename_i polled
      rw [polled] at moved same
      cases visited
      refine ⟨fun _ _ _ => nofun, same, untouched rfl moved, ?_⟩
    · rintro stream' ⟨⟩; exact ⟨inbound, rfl, moved.socket⟩
    · rintro stream' ⟨⟩
  · rename_i inbound direction
    have moved := HandshakeInboundSubstream.poll_process_moved channel.toChannel inbound w
    have same := HandshakeInboundSubstream.poll_process_gives channel inbound w
    split at visited
    all_goals
      rename_i polled
      rw [polled] at moved same
      cases visited
      refine ⟨fun _ _ _ => nofun, same, untouched rfl moved, ?_⟩
    · rintro stream' ⟨⟩; exact ⟨inbound, rfl, moved.socket⟩
    · rintro stream' ⟨⟩
  · cases visited
    exact ⟨fun recv inbound out opened => ⟨inbound, out, opened, rfl⟩, rfl, fun _ _ => rfl,
      fun stream held => ⟨stream, held, rfl⟩⟩

end Visits

section Carrying
variable (varint : Varint) (notes : List Said) (links : List Link) (side : Side)
  (protocols : List (ProtocolDetails Endpoint)) (wires : Wires) (given : Given)

/-- What the opener of a link has sent on it behind the handshake: messages out
of the channel that the link opened its protocol with. -/
structure Carried (id : Nat) (link : Link) (sent : List Bytes) : Prop where
  wire : wires ⟨id, link.opener⟩ = varint.frames (link.request.handshake :: sent)
  given : given ⟨id, link.opener.other⟩ <+: sent
  source : sent = [] ∨ ∃ channel, .opened id channel ∈ notes ∧ sent.Sublist (putInto link.opener channel notes)
  waiting : ∀ (k : Nat) proto recv inbound out, protocols[k]? = some proto →
    proto.state = .opened recv inbound (some out) → out.socket = ⟨id, link.opener⟩ →
    .opened id recv.channel ∈ notes ∧ (sent ++ recv.messages).Sublist (putInto link.opener recv.channel notes)

/-- The links of a side carry what its user sends; an open protocol sends on the
link that it asked for. -/
structure Carrying : Prop where
  opened : ∀ (k : Nat) proto recv inbound out, protocols[k]? = some proto →
    proto.state = .opened recv inbound (some out) → out.socket.side = side ∧
      ∃ link, links[out.socket.link]? = some link ∧ link.opener = side ∧ link.info = k ∧ link.answered = true
  carried : ∀ (id : Nat) link, links[id]? = some link → link.opener = side →
    ∃ sent, Carried varint notes protocols wires given id link sent

variable {varint notes links side protocols wires given} {links' : List Link} {k : Nat}
  {proto : ProtocolDetails Endpoint} {state : State Endpoint} {wires' : Wires} {given' : Given} {added : List Said}
  {id : Nat} {link link' : Link} {sent : List Bytes}

theorem put_into_append (channel : Nat) :
    putInto side channel (notes ++ added) = putInto side channel notes ++ putInto side channel added :=
  List.filterMap_append

theorem put_into_later (channel : Nat) :
    (putInto side channel notes).Sublist (putInto side channel (notes ++ added)) := by
  rw [put_into_append]
  exact List.sublist_append_left _ _

theorem Carried.later (carried : Carried varint notes protocols wires given id link sent)
    (opener : link'.opener = link.opener) (request : link'.request = link.request) :
    Carried varint (notes ++ added) protocols wires given id link' sent where
  wire := by rw [opener, request]; exact carried.wire
  given := by rw [opener]; exact carried.given
  source := carried.source.imp_right fun ⟨channel, opened, order⟩ =>
    ⟨channel, List.mem_append_left _ opened, by rw [opener]; exact order.trans (put_into_later channel)⟩
  waiting := by
    rw [opener]
    intro k proto recv inbound out at_k state socket
    obtain ⟨opened, order⟩ := carried.waiting k proto recv inbound out at_k state socket
    exact ⟨List.mem_append_left _ opened, order.trans (put_into_later recv.channel)⟩

theorem Carried.same (carried : Carried varint notes protocols wires given id link sent)
    (own : wires' ⟨id, link.opener⟩ = wires ⟨id, link.opener⟩)
    (far : given' ⟨id, link.opener.other⟩ = given ⟨id, link.opener.other⟩) :
    Carried varint notes protocols wires' given' id link sent where
  wire := own.trans carried.wire
  given := far ▸ carried.given
  source := carried.source
  waiting := carried.waiting

/-- Links that go on, with the same openers and requests. -/
def Going (links links' : List Link) : Prop :=
  ∀ (id : Nat) link, links[id]? = some link → ∃ link', links'[id]? = some link' ∧ Updated link link' ∧
    (link.answered = true → link'.answered = true)

/-- The same links going on, and none besides. -/
structure Onward (links links' : List Link) : Prop where
  forth : Going links links'
  back : ∀ (id : Nat) link', links'[id]? = some link' → ∃ link, links[id]? = some link ∧ Updated link link'

theorem Onward.rfl : Onward links links :=
  ⟨fun _ link found => ⟨link, found, .rfl, fun answered => answered⟩, fun _ link found => ⟨link, found, .rfl⟩⟩

theorem onward_set (found : links[id]? = some link) (updated : Updated link link')
    (answered : link.answered = true → link'.answered = true) : Onward links (links.set id link') := by
  have grown := grown_set found updated
  refine ⟨fun i other at_i => ?_, grown.back⟩
  by_cases same : i = id
  · subst same
    cases found.symm.trans at_i
    exact ⟨link', List.getElem?_set_self (List.getElem?_eq_some_iff.mp found).1, updated, answered⟩
  · exact ⟨other, (List.getElem?_set_ne (Ne.symm same)).trans at_i, .rfl, fun answered => answered⟩

theorem Carrying.later (carrying : Carrying varint notes links side protocols wires given)
    (onward : Onward links links') : Carrying varint (notes ++ added) links' side protocols wires given where
  opened k proto recv inbound out at_k state := by
    obtain ⟨own, link, at_link, opener, info, answered⟩ := carrying.opened k proto recv inbound out at_k state
    obtain ⟨link', at_link', updated, still⟩ := onward.forth _ link at_link
    exact ⟨own, link', at_link', updated.opener.trans opener, updated.info.trans info, still answered⟩
  carried id link' at_id opener := by
    obtain ⟨link, before, updated⟩ := onward.back id link' at_id
    obtain ⟨sent, carried⟩ := carrying.carried id link before (updated.opener.symm.trans opener)
    exact ⟨sent, carried.later updated.opener updated.request⟩

/-- A protocol got a state that is open only if it was. -/
theorem Carrying.visit (carrying : Carrying varint notes links side protocols wires given)
    (found : protocols[k]? = some proto) (steady : Steady proto.state state) :
    Carrying varint notes links side (protocols.set k { proto with state := state }) wires given where
  opened i entry recv inbound out at_i opened := by
    rcases set_entry found at_i with ⟨rfl, rfl⟩ | ⟨_, before⟩
    · obtain ⟨inbound₀, out₀, opened₀, socket⟩ := steady recv inbound out opened
      rw [socket]
      exact carrying.opened i proto recv inbound₀ out₀ found opened₀
    · exact carrying.opened i entry recv inbound out before opened
  carried id link at_id opener := by
    obtain ⟨sent, carried⟩ := carrying.carried id link at_id opener
    refine ⟨sent, carried.wire, carried.given, carried.source, ?_⟩
    intro i entry recv inbound out at_i opened socket
    rcases set_entry found at_i with ⟨rfl, rfl⟩ | ⟨_, before⟩
    · obtain ⟨inbound₀, out₀, opened₀, same⟩ := steady recv inbound out opened
      exact carried.waiting i proto recv inbound₀ out₀ found opened₀ (same ▸ socket)
    · exact carried.waiting i entry recv inbound out before opened socket

theorem Carrying.same (carrying : Carrying varint notes links side protocols wires given)
    (own : ∀ (id : Nat) link, links[id]? = some link → link.opener = side → wires' ⟨id, side⟩ = wires ⟨id, side⟩)
    (far : ∀ (id : Nat) link, links[id]? = some link → link.opener = side →
      given' ⟨id, side.other⟩ = given ⟨id, side.other⟩) :
    Carrying varint notes links side protocols wires' given' where
  opened := carrying.opened
  carried id link at_id opener := by
    obtain ⟨sent, carried⟩ := carrying.carried id link at_id opener
    subst opener
    exact ⟨sent, carried.same (own id link at_id rfl) (far id link at_id rfl)⟩

/-- The sending loop of one protocol. -/
theorem Carrying.forwards (carrying : Carrying varint notes links side protocols wires given)
    (found : protocols[k]? = some proto) {recv recv' : Receiver} {inbound : Option (HandshakeInboundSubstream Endpoint)}
    {out out' : HandshakeOutboundSubstream Endpoint} (state : proto.state = .opened recv inbound (some out))
    {accepted : List Bytes} (forwards : Forwards varint recv recv' out.socket wires wires' accepted)
    (socket : out'.socket = out.socket) (own : ∀ e, e ≠ out.socket → wires' e = wires e) :
    Carrying varint notes links side (protocols.set k { proto with state := .opened recv' inbound (some out') }) wires'
      given := by
  obtain ⟨at_side, link, at_link, opener, info, answered⟩ := carrying.opened k proto recv inbound out found state
  refine ⟨fun i entry recv₁ inbound₁ out₁ at_i opened => ?_, fun id link₁ at_id opener₁ => ?_⟩
  · rcases set_entry found at_i with ⟨rfl, rfl⟩ | ⟨_, before⟩
    · cases opened
      rw [socket]
      exact ⟨at_side, link, at_link, opener, info, answered⟩
    · exact carrying.opened i entry recv₁ inbound₁ out₁ before opened
  · obtain ⟨sent, carried⟩ := carrying.carried id link₁ at_id opener₁
    by_cases this : (⟨id, link₁.opener⟩ : Endpoint) = out.socket
    · obtain ⟨noted, order⟩ := carried.waiting k proto recv inbound out found state this.symm
      have onto : (sent ++ accepted ++ recv'.messages).Sublist (putInto link₁.opener recv.channel notes) := by
        rw [List.append_assoc]
        exact (forwards.order.append_left sent).trans order
      refine ⟨sent ++ accepted, ?_, carried.given.trans (List.prefix_append _ _), .inr ⟨recv.channel, noted, ?_⟩, ?_⟩
      · rw [this, forwards.wire, ← this, carried.wire, ← frames_append, List.cons_append]
      · exact (List.sublist_append_left _ _).trans onto
      · intro i entry recv₁ inbound₁ out₁ at_i opened socket₁
        rcases set_entry found at_i with ⟨rfl, rfl⟩ | ⟨apart, before⟩
        · cases opened
          rw [forwards.channel]
          exact ⟨noted, onto⟩
        · -- two protocols would send on one link
          obtain ⟨_, link₂, at_link₂, _, info₂, _⟩ := carrying.opened i entry recv₁ inbound₁ out₁ before opened
          rw [socket₁, this] at at_link₂
          cases at_link.symm.trans at_link₂
          exact absurd (info₂.symm.trans info) apart
    · refine ⟨sent, (own _ this).trans carried.wire, carried.given, carried.source, ?_⟩
      intro i entry recv₁ inbound₁ out₁ at_i opened socket₁
      rcases set_entry found at_i with ⟨rfl, rfl⟩ | ⟨_, before⟩
      · cases opened
        exact absurd (socket₁.symm.trans socket) this
      · exact carried.waiting i entry recv₁ inbound₁ out₁ before opened socket₁

end Carrying

/-! ## A poll -/

/-- The inbound substreams are on the sockets they were on. -/
def SameSockets (before after : List (ProtocolDetails Endpoint)) : Prop :=
  ∀ (k : Nat) proto stream, after[k]? = some proto → proto.state.inbound = some stream →
    ∃ proto₀ stream₀, before[k]? = some proto₀ ∧ proto₀.state.inbound = some stream₀ ∧
      stream.socket = stream₀.socket

theorem SameSockets.set {before after : List (ProtocolDetails Endpoint)} {k : Nat} {proto : ProtocolDetails Endpoint}
    {state : State Endpoint} (same : SameSockets before after) (found : after[k]? = some proto)
    (kept : ∀ stream', state.inbound = some stream' → ∃ stream, proto.state.inbound = some stream ∧
      stream'.socket = stream.socket) : SameSockets before (after.set k { proto with state := state }) := by
  intro i entry stream at_i held
  rcases set_entry found at_i with ⟨rfl, rfl⟩ | ⟨_, earlier⟩
  · obtain ⟨stream₁, held₁, socket⟩ := kept stream held
    obtain ⟨proto₀, stream₀, found₀, held₀, socket₀⟩ := same i proto stream₁ found held₁
    exact ⟨proto₀, stream₀, found₀, held₀, socket.trans socket₀⟩
  · exact same i entry stream earlier held

section Polls
variable {PeerId W : Type} {varint : Varint} {channel : OrderedChannel varint W} {data : Side → ProtocolsData}
  {s : Joint PeerId} {side : Side} {given : Given} {notes : List Said}

/-- What the visits of a poll keep. -/
structure Visiting (varint : Varint) (data : Side → ProtocolsData) (s : Joint PeerId) (side : Side) (given : Given)
    (notes : List Said) (protocols : List (ProtocolDetails Endpoint)) (w : Wires × Given × W) : Prop where
  kept : Kept varint data side s protocols w.1
  carrying : Carrying varint notes s.links side protocols w.1 given
  given : w.2.1 = given
  sockets : SameSockets (s.runs side).handler.protocols protocols

variable {protocols : List (ProtocolDetails Endpoint)} {w w' : Wires × Given × W} {k : Nat}
  {proto : ProtocolDetails Endpoint} {state : State Endpoint} {event : Option (ToBehavior PeerId)}

theorem Visiting.send (visiting : Visiting varint data s side given notes protocols w)
    (found : protocols[k]? = some proto) (visited : sendState channel.transport proto.state w = (state, w')) :
    Visiting varint data s side given notes (protocols.set k { proto with state := state }) w' := by
  have kept := visited_kept visiting.kept found (send_state_visited visited)
  unfold sendState at visited
  split at visited
  · rename_i recv inbound outbound opened
    obtain ⟨⟨accepted, forwards⟩, same⟩ := send_messages_forwards channel recv.messages.length recv outbound w
    obtain ⟨socket, own⟩ : (sendMessages channel.transport recv.messages.length recv outbound w).2.1.socket =
          outbound.socket ∧ ∀ e, e ≠ outbound.socket →
        (sendMessages channel.transport recv.messages.length recv outbound w).2.2.1 e = w.1 e :=
      send_messages_frame recv.messages.length recv outbound w
    cases visited
    refine ⟨kept, visiting.carrying.forwards found opened forwards socket own, same.trans visiting.given, ?_⟩
    refine visiting.sockets.set found fun stream held => ⟨stream, ?_, rfl⟩
    rw [opened]
    exact held
  · cases visited
    exact ⟨kept, visiting.carrying.visit found fun recv inbound out opened => ⟨inbound, out, opened, rfl⟩,
      visiting.given, visiting.sockets.set found fun stream held => ⟨stream, held, rfl⟩⟩

theorem Visiting.flush (visiting : Visiting varint data s side given notes protocols w)
    (found : protocols[k]? = some proto)
    (visited : flushState channel.transport k proto.state w = (event, state, w')) :
    Visiting varint data s side given notes (protocols.set k { proto with state := state }) w' := by
  have kept := visited_kept visiting.kept found (flush_state_visited visited)
  obtain ⟨steady, wires, same, inbound⟩ := flush_state_steady visited
  refine ⟨kept, ?_, same.trans visiting.given, visiting.sockets.set found fun stream held =>
    ⟨stream, inbound ▸ held, rfl⟩⟩
  rw [wires]
  exact visiting.carrying.visit found steady

/-- A visit of the third pass, up to what is given out. -/
theorem Visiting.inbound (visiting : Visiting varint data s side given notes protocols w)
    (found : protocols[k]? = some proto)
    (visited : pollInboundState channel.transport k proto.state w = (event, state, w')) :
    Kept varint data side s (protocols.set k { proto with state := state }) w'.1 ∧
      Carrying varint notes s.links side (protocols.set k { proto with state := state }) w'.1 given ∧
      SameSockets (s.runs side).handler.protocols (protocols.set k { proto with state := state }) := by
  have kept := visited_kept visiting.kept found (inbound_state_visited visited)
  obtain ⟨steady, _, own, sockets⟩ := inbound_state_steady visited
  refine ⟨kept, (visiting.carrying.visit found steady).same (fun id link at_id opener => own _ ?_)
    (fun _ _ _ _ => rfl), visiting.sockets.set found sockets⟩
  intro stream held
  exact (ends_apart ((visiting.kept.held k proto found).inbound stream held) ⟨link, at_id, opener⟩).symm

/-- What a poll of a side tells: nothing, or the next message that one of its
inbound substreams gives out. -/
inductive Tells (varint : Varint) (s : Joint PeerId) (side : Side) (given given' : Given) :
    Poll (HandlerEvent PeerId) → Prop where
  | nothing {result} (same : given' = given)
      (quiet : ∀ index bytes, result ≠ .ready (.notifyBehaviour (.notification index bytes))) :
      Tells varint s side given given' result
  | message {index bytes proto stream} (found : (s.runs side).handler.protocols[index]? = some proto)
      (held : proto.state.inbound = some stream)
      (reads : Reads varint stream.socket (s.wires stream.socket.far) given given' (.ready (some (.ok bytes)))) :
      Tells varint s side given given' (.ready (.notifyBehaviour (.notification index bytes)))

theorem poll_carrying (kept : Kept varint data side s (s.runs side).handler.protocols s.wires)
    (carrying : Carrying varint notes s.links side (s.runs side).handler.protocols s.wires given)
    (unsaid : ∀ index bytes, .notifyBehaviour (.notification index bytes) ∉ (s.runs side).handler.pendingEvents)
    (weather : W) {result : Poll (HandlerEvent PeerId)} {h : NotificationsHandler PeerId Endpoint}
    {w : Wires × Given × W}
    (polled : (s.runs side).handler.poll channel.transport (s.wires, given, weather) = (result, h, w)) :
    Carrying varint notes s.links side h.protocols w.1 given ∧ Tells varint s side given w.2.1 result := by
  have keeps : PollKeeps PeerId channel.transport (Visiting varint data s side given notes) :=
    { send := fun _ _ _ _ _ _ visiting found visited => visiting.send found visited
      flush := fun _ _ _ _ _ _ visiting found visited => visiting.flush found visited
      inbound := fun _ _ _ _ _ _ visiting found visited => by
        obtain ⟨kept, carrying, sockets⟩ := visiting.inbound found visited
        obtain ⟨_, same, _⟩ := inbound_state_steady visited
        exact ⟨kept, carrying, same.trans visiting.given, sockets⟩ }
  have start : Visiting varint data s side given notes (s.runs side).handler.protocols (s.wires, given, weather) :=
    ⟨kept, carrying, rfl, fun k proto stream found held => ⟨proto, stream, found, held, rfl⟩⟩
  cases pending : (s.runs side).handler.pendingEvents with
  | cons event rest =>
    rw [pending] at unsaid
    unfold NotificationsHandler.poll at polled
    rw [pending] at polled
    cases polled
    refine ⟨carrying, .nothing rfl fun index bytes same => unsaid index bytes ?_⟩
    cases same
    exact List.mem_cons_self
  | nil =>
    obtain ⟨result', protocols', w', polled', outcome⟩ := poll_keeps keeps pending start
    cases polled.symm.trans polled'
    rcases outcome with ⟨rfl, visiting⟩ | ⟨event, k, proto, before, w₀, state, rfl, visiting, found, handed, rfl⟩
    · exact ⟨visiting.carrying, .nothing visiting.given nofun⟩
    · rcases handed with flushed | received
      · have after := visiting.flush found flushed
        refine ⟨after.carrying, .nothing after.given fun index bytes same => ?_⟩
        -- the second pass hands out the wish to close only
        unfold flushState at flushed
        split at flushed
        · split at flushed
          all_goals
            cases flushed
            try cases same
        · cases flushed
      · obtain ⟨_, after, _⟩ := visiting.inbound found received
        obtain ⟨_, hands, _, _⟩ := inbound_state_steady received
        refine ⟨after, ?_⟩
        cases event with
        | notification index bytes =>
          obtain ⟨rfl, stream, held, reads⟩ := hands
          obtain ⟨proto₀, stream₀, found₀, held₀, socket⟩ := visiting.sockets index proto stream found held
          have own := ((visiting.kept.held index proto found).inbound stream held).own
          have far : w₀.1 stream.socket.far = s.wires stream.socket.far := by
            apply visiting.kept.others
            show stream.socket.side.other ≠ side
            rw [own]
            exact side.other_ne
          rw [far, visiting.given, socket] at reads
          exact .message found₀ held₀ reads
        | _ => exact .nothing (hands.trans visiting.given) nofun

end Polls

end Subp2pExplorer.Notifications
