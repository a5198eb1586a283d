import Subp2pExplorer.Notifications.Links
import Subp2pExplorer.Notifications.Polling

/-! What a poll does on the wires. An inbound substream sends its handshake once
and nothing else; user messages go out on the ends we opened. -/
namespace Subp2pExplorer.Notifications
open Lib

/-- The behaviour wants the protocol open. -/
def State.Wants {σ : Type} : State σ → Prop
  | .opening _ _ => True
  | .opened _ _ _ => True
  | _ => False

/-- The handshake is out of the hands of the substream. -/
def HandshakeInboundSubstreamState.Past : HandshakeInboundSubstreamState → Prop
  | .waiting => False
  | .sending _ => False
  | _ => True

section Polls
variable {PeerId W : Type} {varint : Varint} {channel : Channel varint W} {e : Endpoint} {w : Wires × W}

/-- What polling an inbound substream does: it leaves the wires alone, or it
sends the handshake it was given. -/
structure Moved (varint : Varint) (stream stream' : HandshakeInboundSubstream Endpoint) (wires wires' : Wires) :
    Prop where
  socket : stream'.socket = stream.socket
  sent : wires' = wires ∧ (stream'.state = stream.state ∨ stream'.state.Past) ∨
    ∃ handshake, stream.state = .sending handshake ∧ stream'.state.Past ∧
      wires' = Function.update wires stream.socket (wires stream.socket ++ varint.frame handshake)

theorem ready_result {result : Poll (Except IoError Unit)} {e' : Endpoint} {w' : Wires × W}
    (polled : channel.transport.pollReady e w = (result, e', w')) : e' = e ∧ w'.1 = w.1 := by
  have kept := channel.ready_keeps e w
  rwa [polled] at kept

theorem flush_result {result : Poll (Except IoError Unit)} {e' : Endpoint} {w' : Wires × W}
    (polled : channel.transport.pollFlush e w = (result, e', w')) : e' = e ∧ w'.1 = w.1 := by
  have kept := channel.flush_keeps e w
  rwa [polled] at kept

theorem close_result {result : Poll (Except IoError Unit)} {e' : Endpoint} {w' : Wires × W}
    (polled : channel.transport.pollClose e w = (result, e', w')) : e' = e ∧ w'.1 = w.1 := by
  have kept := channel.close_keeps e w
  rwa [polled] at kept

theorem next_result {result : Poll (Option (Except IoError Bytes))} {e' : Endpoint} {w' : Wires × W}
    (polled : channel.transport.pollNext e w = (result, e', w')) : e' = e ∧ w'.1 = w.1 := by
  have kept := channel.next_keeps e w
  rwa [polled] at kept

theorem send_result {item : Bytes} {result : Except IoError Unit} {e' : Endpoint} {w' : Wires × W}
    (sent : channel.transport.startSend item e w = (result, e', w')) :
    e' = e ∧ (w'.1 = w.1 ∨ w'.1 = Function.update w.1 e (w.1 e ++ varint.frame item)) := by
  have kept := channel.send_keeps item e w
  cases result with
  | ok =>
    have queued := channel.send_queues item e w
    rw [sent] at kept queued
    exact ⟨kept, .inr (queued rfl)⟩
  | error error =>
    have failed := channel.send_fails item e w error
    rw [sent] at kept failed
    exact ⟨kept, .inl (failed rfl)⟩

/-- A later part of a poll, with the handshake out of hand: nothing is sent. -/
structure Quiet (stream stream' : HandshakeInboundSubstream Endpoint) (wires wires' : Wires) : Prop where
  socket : stream'.socket = stream.socket
  wires : wires' = wires
  past : stream'.state.Past

namespace HandshakeInboundSubstream
variable (channel)

theorem process_flush_quiet (stream : HandshakeInboundSubstream Endpoint) (w : Wires × W) :
    Quiet stream (stream.processFlush channel.transport w).2.1 w.1 (stream.processFlush channel.transport w).2.2.1 := by
  unfold processFlush
  split
  all_goals
    rename_i polled
    obtain ⟨rfl, same⟩ := flush_result polled
    exact ⟨rfl, same, trivial⟩

theorem next_needs_close_quiet (stream : HandshakeInboundSubstream Endpoint) (w : Wires × W) :
    Quiet stream (stream.nextNeedsClose channel.transport w).2.1 w.1
      (stream.nextNeedsClose channel.transport w).2.2.1 := by
  unfold nextNeedsClose
  split
  all_goals
    rename_i polled
    obtain ⟨rfl, same⟩ := close_result polled
    exact ⟨rfl, same, trivial⟩

theorem next_done_quiet (stream : HandshakeInboundSubstream Endpoint) (w : Wires × W) :
    Quiet stream (stream.nextDone channel.transport w).2.1 w.1 (stream.nextDone channel.transport w).2.2.1 := by
  unfold nextDone
  split
  · rename_i socket w' polled
    obtain ⟨rfl, same⟩ := next_result polled
    have closed := next_needs_close_quiet channel { stream with state := .needsClose } w'
    exact ⟨closed.socket, closed.wires.trans same, closed.past⟩
  all_goals
    rename_i polled
    obtain ⟨rfl, same⟩ := next_result polled
    exact ⟨rfl, same, trivial⟩

theorem next_flush_quiet (stream : HandshakeInboundSubstream Endpoint) (w : Wires × W) :
    Quiet stream (stream.nextFlush channel.transport w).2.1 w.1 (stream.nextFlush channel.transport w).2.2.1 := by
  unfold nextFlush
  split
  · rename_i socket w' polled
    obtain ⟨rfl, same⟩ := flush_result polled
    have read := next_done_quiet channel { stream with state := .done } w'
    exact ⟨read.socket, read.wires.trans same, read.past⟩
  all_goals
    rename_i polled
    obtain ⟨rfl, same⟩ := flush_result polled
    exact ⟨rfl, same, trivial⟩

variable {stream : HandshakeInboundSubstream Endpoint} {channel}

theorem quiet_moved {stream' : HandshakeInboundSubstream Endpoint} {wires wires' : Wires}
    (quiet : Quiet stream stream' wires wires') : Moved varint stream stream' wires wires' :=
  ⟨quiet.socket, .inl ⟨quiet.wires, .inr quiet.past⟩⟩

/-- A substream whose handshake went to the socket, and what follows. -/
theorem pushed_moved {queued : Bytes} (sending : stream.state = .sending queued) {e' e'' : Endpoint}
    {w' w'' : Wires × W} {ready : Poll (Except IoError Unit)} {pushed : Except IoError Unit}
    (polled : channel.transport.pollReady stream.socket w = (ready, e', w'))
    (started : channel.transport.startSend queued e' w' = (pushed, e'', w''))
    {stream' : HandshakeInboundSubstream Endpoint} {wires' : Wires}
    (quiet : Quiet { stream with socket := e'', state := .flush } stream' w''.1 wires') :
    Moved varint stream stream' w.1 wires' := by
  obtain ⟨rfl, same⟩ := ready_result polled
  obtain ⟨rfl, sent⟩ := send_result started
  refine ⟨quiet.socket, ?_⟩
  rw [quiet.wires]
  rcases sent with nothing | queued
  · exact .inl ⟨nothing.trans same, .inr quiet.past⟩
  · rw [same] at queued
    exact .inr ⟨_, sending, quiet.past, queued⟩

variable (channel)

theorem poll_process_moved (stream : HandshakeInboundSubstream Endpoint) (w : Wires × W) :
    Moved varint stream (stream.pollProcess channel.transport w).2.1 w.1
      (stream.pollProcess channel.transport w).2.2.1 := by
  unfold pollProcess
  split
  · rename_i queued sending
    split
    · rename_i ready e' w' polled
      split
      · rename_i e'' w'' started
        exact pushed_moved sending polled started (process_flush_quiet channel _ w'')
      · rename_i error e'' w'' started
        exact pushed_moved sending polled started ⟨rfl, rfl, trivial⟩
    · rename_i e' w' polled
      obtain ⟨rfl, same⟩ := ready_result polled
      exact ⟨rfl, .inl ⟨same, .inl sending.symm⟩⟩
  · exact quiet_moved (process_flush_quiet channel stream w)
  · exact ⟨rfl, .inl ⟨rfl, .inl rfl⟩⟩

theorem poll_next_moved (stream : HandshakeInboundSubstream Endpoint) (w : Wires × W) :
    Moved varint stream (stream.pollNext channel.transport w).2.1 w.1 (stream.pollNext channel.transport w).2.2.1 := by
  unfold pollNext
  split
  · exact ⟨rfl, .inl ⟨rfl, .inl rfl⟩⟩
  · rename_i queued sending
    split
    · rename_i ready e' w' polled
      split
      · rename_i e'' w'' started
        exact pushed_moved sending polled started (next_flush_quiet channel _ w'')
      · rename_i error e'' w'' started
        exact pushed_moved sending polled started ⟨rfl, rfl, trivial⟩
    · rename_i e' w' polled
      obtain ⟨rfl, same⟩ := ready_result polled
      exact ⟨rfl, .inl ⟨same, .inl sending.symm⟩⟩
  · exact quiet_moved (next_flush_quiet channel stream w)
  · exact quiet_moved (next_done_quiet channel stream w)
  · exact quiet_moved (next_needs_close_quiet channel stream w)
  · exact ⟨rfl, .inl ⟨rfl, .inr trivial⟩⟩

end HandshakeInboundSubstream

theorem outbound_ready {out out' : HandshakeOutboundSubstream Endpoint} {result : Poll (Except IoError Unit)}
    {w' : Wires × W} (polled : out.pollReady channel.transport w = (result, out', w')) :
    out'.socket = out.socket ∧ w'.1 = w.1 := by
  cases polled
  exact channel.ready_keeps out.socket w

theorem outbound_flush {out out' : HandshakeOutboundSubstream Endpoint} {result : Poll (Except IoError Unit)}
    {w' : Wires × W} (polled : out.pollFlush channel.transport w = (result, out', w')) :
    out'.socket = out.socket ∧ w'.1 = w.1 := by
  cases polled
  exact channel.flush_keeps out.socket w

theorem outbound_send {out out' : HandshakeOutboundSubstream Endpoint} {item : Bytes}
    {result : Except IoError Unit} {w' : Wires × W}
    (sent : out.startSend channel.transport item w = (result, out', w')) :
    out'.socket = out.socket ∧ ∀ e, e ≠ out.socket → w'.1 e = w.1 e := by
  cases sent
  obtain ⟨socket, nothing | queued⟩ := @send_result _ _ channel out.socket w item _ _ _ rfl
  · exact ⟨socket, fun e _ => congrFun nothing e⟩
  · exact ⟨socket, fun e apart => (congrFun queued e).trans (Function.update_of_ne apart _ _)⟩

/-- A user message that is sent changes the wire of its own end only. -/
theorem send_messages_frame (rounds : Nat) (recv : Receiver) (outbound : HandshakeOutboundSubstream Endpoint)
    (w : Wires × W) :
    (sendMessages channel.transport rounds recv outbound w).2.1.socket = outbound.socket ∧
      ∀ e, e ≠ outbound.socket → (sendMessages channel.transport rounds recv outbound w).2.2.1 e = w.1 e := by
  induction rounds generalizing recv outbound w with
  | zero => exact ⟨rfl, fun _ _ => rfl⟩
  | succ rounds ih =>
    unfold sendMessages
    split
    · exact ⟨rfl, fun _ _ => rfl⟩
    · split
      · rename_i polled
        obtain ⟨socket, same⟩ := outbound_ready polled
        exact ⟨socket, fun e _ => congrFun same e⟩
      · rename_i ready out' w' polled
        obtain ⟨socket, same⟩ := outbound_ready polled
        split
        · exact ⟨socket, fun e _ => congrFun same e⟩
        · rename_i message recv'' taken
          rcases started : out'.startSend channel.transport message w' with ⟨result, out'', w''⟩
          obtain ⟨later, sent⟩ := outbound_send started
          obtain ⟨last, own⟩ := ih recv'' out'' w''
          refine ⟨last.trans (later.trans socket), fun e apart => ?_⟩
          have unsent : w''.1 e = w'.1 e := sent e (socket ▸ apart)
          exact (own e (by rwa [later, socket])).trans (unsent.trans (congrFun same e))

/-- What happens to the inbound substream of a protocol and on the wires: a
message of ours goes out, nothing happens, or the substream is polled. -/
inductive Traffic (varint : Varint) (state state' : State Endpoint) (wires wires' : Wires) : Prop where
  | sent (out : HandshakeOutboundSubstream Endpoint) (held : state.outbound = some out)
      (own : ∀ e, e ≠ out.socket → wires' e = wires e) (same : state'.inbound = state.inbound)
  | kept (wires : wires' = wires) (same : state'.inbound = state.inbound)
  | polled (stream stream' : HandshakeInboundSubstream Endpoint) (held : state.inbound = some stream)
      (moved : Moved varint stream stream' wires wires')
      (left : state'.inbound = some stream' ∨ state'.inbound = none)

/-- What the visit of a protocol in a poll does. -/
structure Visited (varint : Varint) (state state' : State Endpoint) (wires wires' : Wires) : Prop where
  wants : state'.Wants → state.Wants
  outbound : ∀ out', state'.outbound = some out' → ∃ out, state.outbound = some out ∧ out'.socket = out.socket
  traffic : Traffic varint state state' wires wires'

variable {state state' : State Endpoint} {w' : Wires × W} {k : Nat} {event : Option (ToBehavior PeerId)}

theorem Visited.unchanged (state : State Endpoint) (wires : Wires) : Visited varint state state wires wires :=
  ⟨id, fun out held => ⟨out, held, rfl⟩, .kept rfl rfl⟩

theorem send_state_visited (visited : sendState channel.transport state w = (state', w')) :
    Visited varint state state' w.1 w'.1 := by
  unfold sendState at visited
  split at visited
  · rename_i recv inbound outbound
    obtain ⟨socket, own⟩ := send_messages_frame recv.messages.length recv outbound w
    cases visited
    refine ⟨id, fun out held => ?_, .sent outbound rfl own rfl⟩
    cases held
    exact ⟨outbound, rfl, socket⟩
  · cases visited
    exact .unchanged _ _

theorem flush_state_visited (visited : flushState channel.transport k state w = (event, state', w')) :
    Visited varint state state' w.1 w'.1 := by
  unfold flushState at visited
  split at visited
  · rename_i recv inbound outbound
    split at visited
    all_goals
      rename_i polled
      obtain ⟨socket, same⟩ := outbound_flush polled
      cases visited
    · exact ⟨id, nofun, .kept same rfl⟩
    · exact ⟨id, fun out held => ⟨outbound, rfl, by cases held; exact socket⟩, .kept same rfl⟩
  · cases visited
    exact .unchanged _ _

theorem inbound_state_visited (visited : pollInboundState channel.transport k state w = (event, state', w')) :
    Visited varint state state' w.1 w'.1 := by
  unfold pollInboundState at visited
  split at visited
  · rename_i recv inbound outbound
    have moved := HandshakeInboundSubstream.poll_next_moved channel inbound w
    split at visited
    all_goals
      rename_i polled
      rw [polled] at moved
      cases visited
    · exact ⟨id, fun out held => ⟨out, held, rfl⟩, .polled _ _ rfl moved (.inl rfl)⟩
    · exact ⟨id, fun out held => ⟨out, held, rfl⟩, .polled _ _ rfl moved (.inl rfl)⟩
    · exact ⟨id, fun out held => ⟨out, held, rfl⟩, .polled _ _ rfl moved (.inr rfl)⟩
    · exact ⟨id, fun out held => ⟨out, held, rfl⟩, .polled _ _ rfl moved (.inr rfl)⟩
  · rename_i inbound pendingOpening
    have moved := HandshakeInboundSubstream.poll_process_moved channel inbound w
    split at visited
    all_goals
      rename_i polled
      rw [polled] at moved
      cases visited
    · exact ⟨id, nofun, .polled _ _ rfl moved (.inl rfl)⟩
    · exact ⟨False.elim, nofun, .polled _ _ rfl moved (.inr rfl)⟩
  · rename_i inbound direction
    have moved := HandshakeInboundSubstream.poll_process_moved channel inbound w
    split at visited
    all_goals
      rename_i polled
      rw [polled] at moved
      cases visited
    · exact ⟨id, nofun, .polled _ _ rfl moved (.inl rfl)⟩
    · exact ⟨id, nofun, .polled _ _ rfl moved (.inr rfl)⟩
  · cases visited
    exact .unchanged _ _

end Polls
end Subp2pExplorer.Notifications
