import Subp2pExplorer.Notifications.Polling

/-! The messages of the user on their way to the sink. Each period in which a
protocol is open has a channel of its own; what its substream accepts is held
against what the user put into that channel. The rounds of the sending loop are
noted down as they are made, with the answer of `poll_ready` in each. -/
namespace Subp2pExplorer.Notifications
open Lib

/-- What is noted of a run: a message put into a channel, and a round of the
sending loop that found a message, with the message it took out, if it did, and
what the sink said to it. -/
inductive Note where
  | put (channel : Nat) (message : Bytes)
  | round (channel : Nat) (ready : Poll (Except IoError Unit)) (taken : Option (Bytes × Except IoError Unit))

namespace Note

def channel : Note → Nat
  | put channel _ => channel
  | round channel _ _ => channel

def putInto (channel : Nat) : Note → Option Bytes
  | put other message => if other = channel then some message else none
  | round _ _ _ => none

def takenFrom (channel : Nat) : Note → Option Bytes
  | round other _ (some (message, _)) => if other = channel then some message else none
  | _ => none

def acceptedFrom (channel : Nat) : Note → Option Bytes
  | round other _ (some (message, .ok _)) => if other = channel then some message else none
  | _ => none

end Note

/-- The messages put into a channel, taken out of it, and accepted by the sink. -/
def puts (channel : Nat) (notes : List Note) : List Bytes := notes.filterMap (Note.putInto channel)

def takes (channel : Nat) (notes : List Note) : List Bytes := notes.filterMap (Note.takenFrom channel)

def accepts (channel : Nat) (notes : List Note) : List Bytes := notes.filterMap (Note.acceptedFrom channel)

/-- A round takes a message out exactly when the sink was not pending. -/
def Note.Ready : Note → Prop
  | .put _ _ => True
  | .round _ ready taken => taken.isSome = true ↔ ready ≠ .pending

/-- A sink that returned an error accepts nothing afterwards. -/
structure Transport.Fused {σ ω : Type} (transport : Transport σ ω) (Broken : σ → Prop) : Prop where
  breaks : ∀ item socket w error, (transport.startSend item socket w).1 = .error error →
    Broken (transport.startSend item socket w).2.1
  refuses : ∀ item socket w, Broken socket → (transport.startSend item socket w).1 ≠ .ok ()
  stays_sent : ∀ item socket w, Broken socket → Broken (transport.startSend item socket w).2.1
  stays_ready : ∀ socket w, Broken socket → Broken (transport.pollReady socket w).2.1
  stays_flushed : ∀ socket w, Broken socket → Broken (transport.pollFlush socket w).2.1

section Rounds
variable {PeerId σ ω : Type} (transport : Transport σ ω)

/-- `sendMessages` with its rounds noted down. -/
def sendRounds : Nat → Receiver → HandshakeOutboundSubstream σ → ω →
    List Note × Receiver × HandshakeOutboundSubstream σ × ω
  | 0, recv, outbound, w => ([], recv, outbound, w)
  | rounds + 1, recv, outbound, w =>
    match recv.pollPeek with
    | (false, recv) => ([], recv, outbound, w)
    | (true, recv) =>
      match outbound.pollReady transport w with
      | (.pending, outbound, w) => ([.round recv.channel .pending none], recv, outbound, w)
      | (.ready answer, outbound, w) =>
        match recv.pollNext with
        | (none, recv) => ([.round recv.channel (.ready answer) none], recv, outbound, w)
        | (some message, recv) =>
          match outbound.startSend transport message w with
          | (result, outbound, w) =>
            let (notes, later) := sendRounds rounds recv outbound w
            (.round recv.channel (.ready answer) (some (message, result)) :: notes, later)

/-- The rounds that the first pass makes for one protocol. -/
def stateRounds (state : State σ) (w : ω) : List Note :=
  match state with
  | .opened recv _ (some outbound) => (sendRounds transport recv.messages.length recv outbound w).1
  | _ => []

/-- The rounds of the first pass. -/
def passRounds : List (ProtocolDetails σ) → ω → List Note
  | [], _ => []
  | proto :: rest, w => stateRounds transport proto.state w ++ passRounds rest (sendState transport proto.state w).2

/-- The rounds of a poll, which makes none while an event is pending. -/
def pollRounds (h : NotificationsHandler PeerId σ) (w : ω) : List Note :=
  match h.pendingEvents with
  | _ :: _ => []
  | [] => passRounds transport h.protocols w

/-- The channel of the period a protocol is open in. -/
def State.channel : State σ → Option Nat
  | .opened recv _ _ => some recv.channel
  | _ => none

/-- What a turn adds to the notes. A message put into a channel that nobody
receives from any more is refused. -/
def turnNotes (r : HandlerRun PeerId σ) (l : HandlerTurn σ ω) (_ : HandlerRun PeerId σ) : List Note :=
  match l with
  | .poll w => pollRounds transport r.handler w
  | .send channel message =>
    if r.handler.protocols.any fun proto => proto.state.channel = some channel then [.put channel message] else []
  | _ => []

theorem send_rounds_result (rounds : Nat) (recv : Receiver) (outbound : HandshakeOutboundSubstream σ) (w : ω) :
    (sendRounds transport rounds recv outbound w).2 = sendMessages transport rounds recv outbound w := by
  induction rounds generalizing recv outbound w with
  | zero => rfl
  | succ rounds ih =>
    rcases peek : recv.pollPeek with ⟨_ | _, recv'⟩
    · simp only [sendRounds, sendMessages, peek]
    · rcases polled : outbound.pollReady transport w with ⟨answer | _, outbound', w'⟩
      · rcases next : recv'.pollNext with ⟨_ | message, recv''⟩
        · simp only [sendRounds, sendMessages, peek, polled, next]
        · simp only [sendRounds, sendMessages, peek, polled, next]
          exact ih _ _ _
      · simp only [sendRounds, sendMessages, peek, polled]

end Rounds

/-! ## Receivers -/

namespace Receiver

/-- A peek moves a message to the front of the receiver, where there is one. -/
theorem poll_peek_keeps (recv : Receiver) :
    recv.pollPeek.2.channel = recv.channel ∧ recv.pollPeek.2.messages = recv.messages ∧
      (recv.pollPeek.1 = true → ∃ message, recv.pollPeek.2.peeked = some message) := by
  obtain ⟨channel, peeked, queue⟩ := recv
  cases peeked with
  | some message => exact ⟨rfl, rfl, fun _ => ⟨message, rfl⟩⟩
  | none =>
    cases queue with
    | nil => exact ⟨rfl, rfl, fun found => by cases found⟩
    | cons message queue => exact ⟨rfl, rfl, fun _ => ⟨message, rfl⟩⟩

/-- A peeked item is returned by the next `poll_next`. -/
theorem poll_next_peeked {recv : Receiver} {message : Bytes} (peeked : recv.peeked = some message) :
    recv.pollNext = (some message, { recv with peeked := none }) ∧
      recv.messages = message :: { recv with peeked := none }.messages := by
  unfold pollNext messages
  rw [peeked]
  exact ⟨rfl, rfl⟩

theorem send_messages_other {recv : Receiver} {channel : Nat} (apart : recv.channel ≠ channel) (message : Bytes) :
    recv.send channel message = recv := if_neg apart

theorem send_messages_own (recv : Receiver) (message : Bytes) :
    (recv.send recv.channel message).messages = recv.messages ++ [message] ∧
      (recv.send recv.channel message).channel = recv.channel := by
  rw [send, if_pos rfl]
  exact ⟨(List.append_assoc _ _ _).symm, rfl⟩

end Receiver

/-! ## One loop of rounds -/

section Loop
variable {σ ω : Type} {transport : Transport σ ω} {Broken : σ → Prop}

/-- What is noted of other channels does not count. -/
theorem notes_others {channel : Nat} {notes : List Note} (others : ∀ note ∈ notes, note.channel ≠ channel) :
    puts channel notes = [] ∧ takes channel notes = [] ∧ accepts channel notes = [] := by
  have none : ∀ count : Note → Option Bytes, (∀ note, note.channel ≠ channel → count note = none) →
      notes.filterMap count = [] := by
    intro count absent
    exact List.filterMap_eq_nil_iff.mpr fun note member => absent note (others note member)
  refine ⟨none _ ?_, none _ ?_, none _ ?_⟩
  all_goals
    intro note apart
    rcases note with ⟨c, message⟩ | ⟨c, ready, _ | ⟨message, _ | _⟩⟩
  all_goals first
    | rfl
    | exact if_neg apart

/-- What the rounds of one loop do to a channel. -/
structure Sent (Broken : σ → Prop) (recv recv' : Receiver) (outbound outbound' : HandshakeOutboundSubstream σ)
    (notes : List Note) : Prop where
  channel : recv'.channel = recv.channel
  own : ∀ note ∈ notes, note.channel = recv.channel ∧ note.Ready
  nothing_put : puts recv.channel notes = []
  taken : takes recv.channel notes ++ recv'.messages = recv.messages
  accepted : accepts recv.channel notes = takes recv.channel notes ∨
    accepts recv.channel notes <+: takes recv.channel notes ∧ Broken outbound'.socket
  broken : Broken outbound.socket → accepts recv.channel notes = [] ∧ Broken outbound'.socket

theorem ready_stays (fused : transport.Fused Broken) {outbound outbound' : HandshakeOutboundSubstream σ} {w w' : ω}
    {answer : Poll (Except IoError Unit)} (polled : outbound.pollReady transport w = (answer, outbound', w'))
    (broken : Broken outbound.socket) : Broken outbound'.socket := by
  cases polled
  exact fused.stays_ready outbound.socket w broken

/-- An item offered to the sink: it is accepted, or the sink is broken from
then on; a broken sink accepts none. -/
theorem send_breaks (fused : transport.Fused Broken) {outbound outbound' : HandshakeOutboundSubstream σ} {w w' : ω}
    {item : Bytes} {result : Except IoError Unit}
    (sent : outbound.startSend transport item w = (result, outbound', w')) :
    (result = .ok () ∧ ¬ Broken outbound.socket) ∨ ∃ error, result = .error error ∧ Broken outbound'.socket := by
  cases sent
  cases answer : (transport.startSend item outbound.socket w).1 with
  | ok u => exact .inl ⟨rfl, fun broken => fused.refuses item outbound.socket w broken answer⟩
  | error error => exact .inr ⟨error, rfl, fused.breaks item outbound.socket w error answer⟩

/-- A round that takes the message at the front, and the rounds behind it. -/
theorem Sent.round {recv rest last : Receiver} {outbound before after final : HandshakeOutboundSubstream σ}
    {message : Bytes} {result : Except IoError Unit} {notes : List Note} (channel : rest.channel = recv.channel)
    (front : recv.messages = message :: rest.messages) (stays : Broken outbound.socket → Broken before.socket)
    (offered : (result = .ok () ∧ ¬ Broken before.socket) ∨ ∃ error, result = .error error ∧ Broken after.socket)
    (later : Sent Broken rest last after final notes) (answer : Except IoError Unit) :
    Sent Broken recv last outbound final (.round recv.channel (.ready answer) (some (message, result)) :: notes) := by
  obtain ⟨lastChannel, own, nothing, taken, accepted, broken⟩ := later
  rw [channel] at lastChannel own nothing taken accepted broken
  have takes_one : takes recv.channel (.round recv.channel (.ready answer) (some (message, result)) :: notes) =
      message :: takes recv.channel notes := by
    simp [takes, Note.takenFrom]
  constructor
  case channel => exact lastChannel
  case own =>
    intro note member
    rcases List.mem_cons.mp member with rfl | member
    · exact ⟨rfl, by simp [Note.Ready]⟩
    · exact own note member
  case nothing_put => exact nothing
  case taken => rw [takes_one, List.cons_append, taken, front]
  case accepted =>
    rw [takes_one]
    rcases offered with ⟨rfl, _⟩ | ⟨error, rfl, breaks⟩
    · have accepts_one : accepts recv.channel
          (.round recv.channel (.ready answer) (some (message, .ok ())) :: notes) =
            message :: accepts recv.channel notes := by
        simp [accepts, Note.acceptedFrom]
      rw [accepts_one]
      rcases accepted with same | ⟨earlier, breaks⟩
      · exact .inl (congrArg _ same)
      · exact .inr ⟨List.cons_prefix_cons.mpr ⟨rfl, earlier⟩, breaks⟩
    · -- the message is lost, and none is accepted behind it
      obtain ⟨refused, stays⟩ := broken breaks
      have accepts_none : accepts recv.channel
          (.round recv.channel (.ready answer) (some (message, .error error)) :: notes) =
            accepts recv.channel notes := rfl
      rw [accepts_none, refused]
      exact .inr ⟨List.nil_prefix, stays⟩
  case broken =>
    intro already
    rcases offered with ⟨_, whole⟩ | ⟨error, rfl, breaks⟩
    · exact absurd (stays already) whole
    · exact broken breaks

theorem send_rounds_sent (fused : transport.Fused Broken) (rounds : Nat) (recv : Receiver)
    (outbound : HandshakeOutboundSubstream σ) (w : ω) :
    Sent Broken recv (sendRounds transport rounds recv outbound w).2.1
      outbound (sendRounds transport rounds recv outbound w).2.2.1 (sendRounds transport rounds recv outbound w).1 := by
  induction rounds generalizing recv outbound w with
  | zero => exact ⟨rfl, nofun, rfl, rfl, .inl rfl, fun broken => ⟨rfl, broken⟩⟩
  | succ rounds ih =>
    obtain ⟨channel, messages, front⟩ := recv.poll_peek_keeps
    rcases peek : recv.pollPeek with ⟨_ | _, recv'⟩
    · rw [peek] at channel messages
      simp only [sendRounds, peek]
      exact ⟨channel, nofun, rfl, messages, .inl rfl, fun broken => ⟨rfl, broken⟩⟩
    · rw [peek] at channel messages front
      dsimp only at channel messages
      obtain ⟨message, peeked⟩ := front rfl
      rcases polled : outbound.pollReady transport w with ⟨answer | _, outbound', w'⟩
      · -- the message at the front is taken out and offered to the sink
        obtain ⟨next, split⟩ := Receiver.poll_next_peeked peeked
        rcases sent : outbound'.startSend transport message w' with ⟨result, outbound'', w''⟩
        have later := ih { recv' with peeked := none } outbound'' w''
        have kept : { recv' with peeked := none }.channel = recv.channel := channel
        have round := Sent.round kept (messages.symm.trans split) (ready_stays fused polled) (send_breaks fused sent)
          later answer
        rw [← channel] at round
        simp only [sendRounds, peek, polled, next, sent]
        exact round
      · simp only [sendRounds, peek, polled]
        refine ⟨channel, ?_, rfl, messages, .inl rfl, fun broken => ⟨rfl, ready_stays fused polled broken⟩⟩
        intro note member
        rw [List.mem_singleton] at member
        subst member
        exact ⟨channel, by simp [Note.Ready]⟩

end Loop

/-! ## The period of an open protocol -/

section Period
variable {PeerId σ ω : Type} {transport : Transport σ ω} {Broken : σ → Prop} {notes added : List Note}

/-- An open protocol holds what was put into its channel and not yet taken
out, and its sink accepted all that was taken out or is broken. -/
structure Flow (Broken : σ → Prop) (notes : List Note) (recv : Receiver)
    (outbound : Option (HandshakeOutboundSubstream σ)) : Prop where
  waiting : puts recv.channel notes = takes recv.channel notes ++ recv.messages
  accepted : accepts recv.channel notes <+: takes recv.channel notes
  whole : ∀ out, outbound = some out → accepts recv.channel notes = takes recv.channel notes ∨ Broken out.socket

theorem puts_append (channel : Nat) : puts channel (notes ++ added) = puts channel notes ++ puts channel added :=
  List.filterMap_append

theorem takes_append (channel : Nat) : takes channel (notes ++ added) = takes channel notes ++ takes channel added :=
  List.filterMap_append

theorem accepts_append (channel : Nat) :
    accepts channel (notes ++ added) = accepts channel notes ++ accepts channel added :=
  List.filterMap_append

/-- A flow is not touched by what happens to other channels. -/
theorem Flow.untouched {recv : Receiver} {outbound : Option (HandshakeOutboundSubstream σ)}
    (flow : Flow Broken notes recv outbound) (others : ∀ note ∈ added, note.channel ≠ recv.channel) :
    Flow Broken (notes ++ added) recv outbound := by
  obtain ⟨noPuts, noTakes, noAccepts⟩ := notes_others others
  constructor
  · rw [puts_append, takes_append, noPuts, noTakes, List.append_nil, List.append_nil]
    exact flow.waiting
  · rw [accepts_append, takes_append, noAccepts, noTakes, List.append_nil, List.append_nil]
    exact flow.accepted
  · rw [accepts_append, takes_append, noAccepts, noTakes, List.append_nil, List.append_nil]
    exact flow.whole

/-- The rounds of a loop carry the flow of their channel on. -/
theorem Flow.sent {recv recv' : Receiver} {outbound outbound' : HandshakeOutboundSubstream σ}
    (flow : Flow Broken notes recv (some outbound)) (sent : Sent Broken recv recv' outbound outbound' added) :
    Flow Broken (notes ++ added) recv' (some outbound') := by
  constructor
  · rw [sent.channel, puts_append, takes_append, sent.nothing_put, List.append_nil, List.append_assoc, sent.taken]
    exact flow.waiting
  · rw [sent.channel, accepts_append, takes_append]
    rcases flow.whole outbound rfl with same | broken
    · rw [same, List.prefix_append_right_inj]
      rcases sent.accepted with all | ⟨earlier, _⟩
      · exact all ▸ List.prefix_rfl
      · exact earlier
    · rw [(sent.broken broken).1, List.append_nil]
      exact flow.accepted.trans (List.prefix_append _ _)
  · intro out held
    cases held
    rw [sent.channel, accepts_append, takes_append]
    rcases flow.whole outbound rfl with same | broken
    · rcases sent.accepted with all | ⟨_, breaks⟩
      · exact .inl (by rw [same, all])
      · exact .inr breaks
    · exact .inr (sent.broken broken).2

theorem Flow.in_order {recv : Receiver} {outbound : Option (HandshakeOutboundSubstream σ)}
    (flow : Flow Broken notes recv outbound) : accepts recv.channel notes <+: puts recv.channel notes := by
  rw [flow.waiting]
  exact flow.accepted.trans (List.prefix_append _ _)

theorem Flow.replaced {recv : Receiver} {outbound outbound' : Option (HandshakeOutboundSubstream σ)}
    (flow : Flow Broken notes recv outbound)
    (stays : ∀ out', outbound' = some out' → ∃ out, outbound = some out ∧ (Broken out.socket → Broken out'.socket)) :
    Flow Broken notes recv outbound' := by
  refine ⟨flow.waiting, flow.accepted, fun out' held => ?_⟩
  obtain ⟨out, before, broken⟩ := stays out' held
  exact (flow.whole out before).imp_right broken

/-- A message put into a channel waits in its receiver. -/
theorem Flow.put {recv : Receiver} {outbound : Option (HandshakeOutboundSubstream σ)}
    (flow : Flow Broken notes recv outbound) (message : Bytes) :
    Flow Broken (notes ++ [.put recv.channel message]) (recv.send recv.channel message) outbound := by
  have one : puts recv.channel [.put recv.channel message] = [message] := by simp [puts, Note.putInto]
  have noTakes : takes recv.channel [.put recv.channel message] = [] := rfl
  have noAccepts : accepts recv.channel [.put recv.channel message] = [] := rfl
  obtain ⟨messages, channel⟩ := recv.send_messages_own message
  constructor
  · rw [channel, messages, puts_append, takes_append, one, noTakes, List.append_nil, flow.waiting, List.append_assoc]
  · rw [channel, accepts_append, takes_append, noAccepts, noTakes, List.append_nil, List.append_nil]
    exact flow.accepted
  · rw [channel, accepts_append, takes_append, noAccepts, noTakes, List.append_nil, List.append_nil]
    exact flow.whole

theorem flush_keeps_receiver (fused : transport.Fused Broken) {k : Nat} {before after : State σ} {w w' : ω}
    {event : Option (ToBehavior PeerId)} (visited : flushState transport k before w = (event, after, w'))
    {recv : Receiver} {inbound' : Option (HandshakeInboundSubstream σ)}
    {outbound' : Option (HandshakeOutboundSubstream σ)} (opened : after = .opened recv inbound' outbound') :
    ∃ inbound outbound, before = .opened recv inbound outbound ∧
      ∀ out', outbound' = some out' → ∃ out, outbound = some out ∧ (Broken out.socket → Broken out'.socket) := by
  unfold flushState at visited
  split at visited
  · rename_i recv₀ inbound₀ outbound₀
    have stays := fused.stays_flushed outbound₀.socket w
    split at visited
    · cases visited
      cases opened
      exact ⟨_, _, rfl, nofun⟩
    · rename_i polled
      cases visited
      cases opened
      cases polled
      refine ⟨_, _, rfl, fun out' held => ⟨outbound₀, rfl, ?_⟩⟩
      cases held
      exact stays
  · cases visited
    exact ⟨inbound', outbound', opened, fun out' held => ⟨out', held, id⟩⟩

theorem inbound_keeps_receiver {k : Nat} {before after : State σ} {w w' : ω} {event : Option (ToBehavior PeerId)}
    (visited : pollInboundState transport k before w = (event, after, w')) {recv : Receiver}
    {inbound' : Option (HandshakeInboundSubstream σ)} {outbound' : Option (HandshakeOutboundSubstream σ)}
    (opened : after = .opened recv inbound' outbound') :
    ∃ inbound outbound, before = .opened recv inbound outbound ∧
      ∀ out', outbound' = some out' → ∃ out, outbound = some out ∧ (Broken out.socket → Broken out'.socket) := by
  unfold pollInboundState at visited
  split at visited
  · split at visited <;> cases visited <;> cases opened <;>
      exact ⟨_, _, rfl, fun out' held => ⟨out', held, id⟩⟩
  · split at visited <;> cases visited <;> cases opened
  · split at visited <;> cases visited <;> cases opened
  · cases visited
    exact ⟨inbound', outbound', opened, fun out' held => ⟨out', held, id⟩⟩

end Period
end Subp2pExplorer.Notifications
