import Subp2pExplorer.Notifications.Channels
import Subp2pExplorer.Notifications.Journal

/-! The receivers of open protocols. Polls only draw messages from them, and
each channel belongs to the one protocol whose completed handshake announced
it, whatever the sockets do. -/
namespace Subp2pExplorer.Notifications
open Lib

/-- The protocol at this index is open and takes its messages from here. -/
def Receives {σ : Type} (protocols : List (ProtocolDetails σ)) (i : Nat) (recv : Receiver) : Prop :=
  ∃ proto inbound outbound, protocols[i]? = some proto ∧ proto.state = .opened recv inbound outbound

/-- What is left of a receiver when some of its messages were taken. -/
def Drawn (recv recv' : Receiver) : Prop := recv'.channel = recv.channel ∧ recv'.messages <:+ recv.messages

/-- The open protocols were open before, with some more messages at most. -/
def Drew {σ : Type} (before after : List (ProtocolDetails σ)) : Prop :=
  ∀ i recv', Receives after i recv' → ∃ recv, Receives before i recv ∧ Drawn recv recv'

theorem Drawn.rfl {recv : Receiver} : Drawn recv recv := ⟨by rfl, List.suffix_refl _⟩

theorem Drawn.trans {recv recv' recv'' : Receiver} (first : Drawn recv recv') (second : Drawn recv' recv'') :
    Drawn recv recv'' := ⟨second.1.trans first.1, second.2.trans first.2⟩

section Rounds
variable {PeerId σ ω : Type} (transport : Transport σ ω)

/-- The rounds of a loop take messages of its receiver, under its channel. -/
theorem send_rounds_drawn (rounds : Nat) (recv : Receiver) (outbound : HandshakeOutboundSubstream σ) (w : ω) :
    Drawn recv (sendRounds transport rounds recv outbound w).2.1 ∧
      ∀ note ∈ (sendRounds transport rounds recv outbound w).1, note.channel = recv.channel ∧ recv.messages ≠ [] ∧
        ∀ message ∈ takes recv.channel [note], message ∈ recv.messages := by
  induction rounds generalizing recv outbound w with
  | zero => exact ⟨.rfl, List.forall_mem_nil _⟩
  | succ rounds ih =>
    obtain ⟨channel, messages, front⟩ := recv.poll_peek_keeps
    rcases peek : recv.pollPeek with ⟨_ | _, recv'⟩
    · rw [peek] at channel messages
      simp only [sendRounds, peek]
      exact ⟨⟨channel, messages ▸ List.suffix_refl _⟩, List.forall_mem_nil _⟩
    · rw [peek] at channel messages front
      dsimp only at channel messages
      obtain ⟨message, peeked⟩ := front rfl
      rcases polled : outbound.pollReady transport w with ⟨answer | _, outbound', w'⟩
      · obtain ⟨next, split⟩ := Receiver.poll_next_peeked peeked
        rcases sent : outbound'.startSend transport message w' with ⟨result, outbound'', w''⟩
        obtain ⟨drawn, own⟩ := ih { recv' with peeked := none } outbound'' w''
        have taken : Drawn recv { recv' with peeked := none } := by
          refine ⟨channel, ?_⟩
          rw [← messages, split]
          exact List.suffix_cons _ _
        have front : message ∈ recv.messages := by
          rw [← messages, split]
          exact List.mem_cons_self
        simp only [sendRounds, peek, polled, next, sent]
        refine ⟨taken.trans drawn, fun note member => ?_⟩
        rcases List.mem_cons.mp member with rfl | later
        · refine ⟨channel, List.ne_nil_of_mem front, fun other noted => ?_⟩
          have only : other = message := by simpa [takes, Note.takenFrom, channel] using noted
          exact only ▸ front
        · obtain ⟨same, _, within⟩ := own note later
          refine ⟨same.trans channel, List.ne_nil_of_mem front, fun other noted => taken.2.subset (within other ?_)⟩
          exact channel ▸ noted
      · simp only [sendRounds, peek, polled]
        refine ⟨⟨channel, messages ▸ List.suffix_refl _⟩, fun note member => ?_⟩
        rw [List.mem_singleton] at member
        subst member
        refine ⟨channel, ?_, List.forall_mem_nil _⟩
        rw [← messages, (Receiver.poll_next_peeked peeked).2]
        exact List.cons_ne_nil _ _

theorem send_state_drawn (state : State σ) (w : ω) {recv' : Receiver}
    {inbound' : Option (HandshakeInboundSubstream σ)} {outbound' : Option (HandshakeOutboundSubstream σ)}
    (opened : (sendState transport state w).1 = .opened recv' inbound' outbound') :
    ∃ recv inbound outbound, state = .opened recv inbound outbound ∧ Drawn recv recv' := by
  unfold sendState at opened
  split at opened
  · rename_i recv inbound outbound
    have drawn := (send_rounds_drawn transport recv.messages.length recv outbound w).1
    rw [send_rounds_result] at drawn
    cases opened
    exact ⟨recv, _, some outbound, rfl, drawn⟩
  · exact ⟨recv', inbound', outbound', opened, .rfl⟩

variable {transport} {h : NotificationsHandler PeerId σ} {before after : List (ProtocolDetails σ)} {k : Nat}
  {proto : ProtocolDetails σ} {state : State σ}

theorem Drew.rfl : Drew before before := fun _ recv' receives => ⟨recv', receives, .rfl⟩

theorem Drew.set (drew : Drew before after) (found : after[k]? = some proto)
    (drawn : ∀ recv' inbound' outbound', state = .opened recv' inbound' outbound' →
      ∃ recv inbound outbound, proto.state = .opened recv inbound outbound ∧ Drawn recv recv') :
    Drew before (after.set k { proto with state := state }) := by
  rintro i recv' ⟨entry, inbound', outbound', at_i, opened⟩
  rcases set_entry found at_i with ⟨rfl, rfl⟩ | ⟨_, earlier⟩
  · obtain ⟨middle, inbound, outbound, held, second⟩ := drawn recv' inbound' outbound' opened
    obtain ⟨recv, receives, first⟩ := drew i middle ⟨proto, inbound, outbound, found, held⟩
    exact ⟨recv, receives, first.trans second⟩
  · exact drew i recv' ⟨entry, inbound', outbound', earlier, opened⟩

theorem flush_state_drawn {w w' : ω} {event : Option (ToBehavior PeerId)} {before : State σ}
    (visited : flushState transport k before w = (event, state, w')) :
    ∀ recv' inbound' outbound', state = .opened recv' inbound' outbound' →
      ∃ recv inbound outbound, before = .opened recv inbound outbound ∧ Drawn recv recv' := by
  intro recv' inbound' outbound' opened
  unfold flushState at visited
  split at visited
  · split at visited <;> cases visited <;> cases opened <;> exact ⟨_, _, _, rfl, .rfl⟩
  · cases visited
    exact ⟨_, _, _, opened, .rfl⟩

theorem inbound_state_drawn {w w' : ω} {event : Option (ToBehavior PeerId)} {before : State σ}
    (visited : pollInboundState transport k before w = (event, state, w')) :
    ∀ recv' inbound' outbound', state = .opened recv' inbound' outbound' →
      ∃ recv inbound outbound, before = .opened recv inbound outbound ∧ Drawn recv recv' := by
  intro recv' inbound' outbound' opened
  obtain ⟨inbound, outbound, held, _⟩ := @inbound_keeps_receiver _ _ _ _ (fun _ => False) _ _ _ _ _ _ visited _ _ _ opened
  exact ⟨recv', inbound, outbound, held, .rfl⟩

theorem poll_drew (h : NotificationsHandler PeerId σ) (w : ω) :
    Drew h.protocols (h.poll transport w).2.1.protocols := by
  have keeps : PollKeeps PeerId transport fun protocols (_ : ω) => Drew h.protocols protocols :=
    { send := fun protocols w k proto state w' drew found visited => drew.set found fun recv' inbound' outbound' opened =>
        send_state_drawn transport proto.state w (by rw [visited]; exact opened)
      flush := fun protocols w k proto state w' drew found visited => drew.set found (flush_state_drawn visited)
      inbound := fun protocols w k proto state w' drew found visited => drew.set found (inbound_state_drawn visited) }
  cases pending : h.pendingEvents with
  | cons event rest =>
    unfold NotificationsHandler.poll
    rw [pending]
    exact .rfl
  | nil =>
    obtain ⟨result, protocols, w', polled, outcome⟩ := @poll_keeps _ _ _ _ _ keeps _ w pending .rfl
    rw [polled]
    rcases outcome with ⟨_, drew⟩ | ⟨event, k, proto, before, w₀, state, _, drew, found, handed, rfl⟩
    · exact drew
    · rcases handed with flushed | received
      · exact drew.set found (flush_state_drawn flushed)
      · exact drew.set found (inbound_state_drawn received)

/-- A poll takes messages of open protocols only, each under its channel. -/
theorem poll_rounds_drawn (h : NotificationsHandler PeerId σ) (w : ω) :
    ∀ note ∈ pollRounds transport h w, ∃ i recv, Receives h.protocols i recv ∧ note.channel = recv.channel ∧
      recv.messages ≠ [] ∧ ∀ message ∈ takes recv.channel [note], message ∈ recv.messages := by
  have passes : ∀ (protocols : List (ProtocolDetails σ)) (w : ω), ∀ note ∈ passRounds transport protocols w,
      ∃ i recv, Receives protocols i recv ∧ note.channel = recv.channel ∧ recv.messages ≠ [] ∧
        ∀ message ∈ takes recv.channel [note], message ∈ recv.messages := by
    intro protocols
    induction protocols with
    | nil => exact fun _ => nofun
    | cons proto rest ih =>
      intro w note member
      rcases List.mem_append.mp member with own | later
      · unfold stateRounds at own
        split at own
        · rename_i recv inbound outbound opened
          exact ⟨0, recv, ⟨proto, inbound, some outbound, rfl, opened⟩,
            (send_rounds_drawn transport _ recv outbound w).2 note own⟩
        · cases own
      · obtain ⟨i, recv, ⟨entry, inbound, outbound, at_i, opened⟩, facts⟩ := ih _ note later
        exact ⟨i + 1, recv, ⟨entry, inbound, outbound, at_i, opened⟩, facts⟩
  unfold pollRounds
  cases h.pendingEvents with
  | cons event rest => exact nofun
  | nil => exact passes h.protocols w

end Rounds

/-- A handshake of this protocol completed, with this channel for its messages. -/
def Announced {PeerId : Type} (journal : List (ToBehavior PeerId)) (index channel : Nat) : Prop :=
  ∃ point handshake direction, .handshakeCompleted index point handshake direction channel ∈ journal

section Announcements
variable {PeerId σ ω : Type} {transport : Transport σ ω} {r r' : HandlerRun PeerId σ} {l : HandlerTurn σ ω}

/-- An open protocol receives from a channel that was announced for it, and no
channel is announced for two. -/
structure Assigned (r : HandlerRun PeerId σ) : Prop where
  opened : ∀ i recv, Receives r.handler.protocols i recv → Announced r.journal i recv.channel
  created : ∀ i channel, Announced r.journal i channel → channel ≤ r.handler.channels
  unique : ∀ i j channel, Announced r.journal i channel → Announced r.journal j channel → i = j

theorem announced_append {journal added : List (ToBehavior PeerId)} {index channel : Nat} :
    Announced (journal ++ added) index channel ↔ Announced journal index channel ∨ Announced added index channel := by
  unfold Announced
  constructor
  · rintro ⟨point, handshake, direction, member⟩
    exact (List.mem_append.mp member).imp (fun member => ⟨_, _, _, member⟩) fun member => ⟨_, _, _, member⟩
  · rintro (⟨point, handshake, direction, member⟩ | ⟨point, handshake, direction, member⟩)
    · exact ⟨point, handshake, direction, List.mem_append_left _ member⟩
    · exact ⟨point, handshake, direction, List.mem_append_right _ member⟩

/-- Only the transition that opens a protocol announces a channel, a new one. -/
theorem effect_announces {h : NotificationsHandler PeerId σ} {proto : ProtocolDetails σ} {k : Nat}
    {callback : Callback σ} {before after : State σ} {added : List (HandlerEvent PeerId)}
    (effect : Effect h proto k callback before after added) (index channel : Nat) :
    Announced (added.filterMap HandlerEvent.told) index channel ↔
      callback.opens before = true ∧ index = k ∧ channel = h.channels + 1 := by
  unfold Announced
  cases effect
  case outboundOpening opened inbound direction =>
    constructor
    · rintro ⟨point, handshake, direction, member⟩
      cases List.mem_singleton.mp member
      exact ⟨rfl, rfl, rfl⟩
    · rintro ⟨_, rfl, rfl⟩
      exact ⟨_, _, _, List.mem_singleton.mpr rfl⟩
  all_goals simp [HandlerEvent.told, Callback.opens]

theorem direct_announces {k : Nat} {event : ToBehavior PeerId} {before after : Shape}
    (direct : Direct k event before after) (index channel : Nat) : ¬ Announced [event] index channel := by
  rintro ⟨point, handshake, direction, member⟩
  cases direct <;> cases List.mem_singleton.mp member

theorem send_drew {protocols : List (ProtocolDetails σ)} {h : NotificationsHandler PeerId σ} {channel : Nat}
    {message : Bytes} (own : h.protocols = protocols) {i : Nat} {recv' : Receiver}
    (receives : Receives (userSend channel message h).protocols i recv') :
    ∃ recv, Receives protocols i recv ∧ recv' = recv.send channel message := by
  subst own
  obtain ⟨entry, inbound', outbound', at_i, opened⟩ := receives
  rw [userSend, List.getElem?_map] at at_i
  obtain ⟨proto, found, rfl⟩ := Option.map_eq_some_iff.mp at_i
  dsimp only at opened
  split at opened
  · rename_i recv inbound outbound state
    cases opened
    exact ⟨recv, ⟨proto, _, _, found, state⟩, rfl⟩
  · rename_i other
    exact absurd opened (other _ _ _)

/-- What a turn does to a receiver: it is one of before, with messages taken or
one put in, or it is new. -/
inductive Renewed (r : HandlerRun PeerId σ) (l : HandlerTurn σ ω) (i : Nat) (recv' : Receiver) : Prop where
  | drawn {recv} (receives : Receives r.handler.protocols i recv) (drawn : Drawn recv recv')
  | put {recv channel message} (turn : l = .send channel message) (receives : Receives r.handler.protocols i recv)
      (same : recv' = recv.send channel message)
  | fresh {callback : Callback σ} {proto} (made : l.callback = some (callback, i))
      (found : r.handler.protocols[i]? = some proto) (opens : callback.opens proto.state = true)
      (same : recv' = ⟨r.handler.channels + 1, none, []⟩)

theorem turn_renewed (step : r.turn transport l = some r') {i : Nat} {recv' : Receiver}
    (receives : Receives r'.handler.protocols i recv') : Renewed r l i recv' := by
  cases made : l.callback with
  | some pair =>
    obtain ⟨callback, k⟩ := pair
    obtain ⟨proto, state, added, effect, applied, _⟩ := callback_turn made step
    obtain ⟨entry, inbound', outbound', at_i, opened⟩ := receives
    rw [applied.protocols] at at_i
    rcases set_entry applied.found at_i with ⟨rfl, rfl⟩ | ⟨_, earlier⟩
    · rcases effect_keeps_receiver effect with ⟨_, keeps⟩ | ⟨opens, inbound, outbound, _, rfl⟩
      · obtain ⟨inbound, before⟩ := keeps recv' inbound' outbound' opened
        exact .drawn ⟨proto, inbound, outbound', applied.found, before⟩ .rfl
      · cases opened
        exact .fresh made applied.found opens rfl
    · exact .drawn ⟨entry, inbound', outbound', earlier, opened⟩ .rfl
  | none =>
    cases l with
    | poll w =>
      have handler : r'.handler = (r.handler.poll transport w).2.1 := by
        cases step
        unfold HandlerRun.take
        split <;> rfl
      rw [handler] at receives
      obtain ⟨recv, before, drawn⟩ := poll_drew r.handler w i recv' receives
      exact .drawn before drawn
    | send channel message =>
      cases step
      obtain ⟨recv, before, same⟩ := send_drew rfl receives
      exact .put rfl before same
    | command message => cases message <;> cases made
    | inbound protocol => cases made
    | outbound opened info => cases made
    | dialError info => cases made

/-- A turn announces a channel only where it opens a protocol, a new one. -/
theorem turn_announces (step : r.turn transport l = some r') :
    r.handler.channels ≤ r'.handler.channels ∧ ∀ i channel, Announced r'.journal i channel ↔
      Announced r.journal i channel ∨ ∃ callback proto, l.callback = some (callback, i) ∧
        r.handler.protocols[i]? = some proto ∧ callback.opens proto.state = true ∧ channel = r.handler.channels + 1 ∧
        r'.handler.channels = r.handler.channels + 1 := by
  cases made : l.callback with
  | some pair =>
    obtain ⟨callback, k⟩ := pair
    obtain ⟨proto, state, added, effect, applied, returned, _⟩ := callback_turn made step
    have counted := callback_channels made step applied.found
    have journal : r'.journal = r.journal ++ added.filterMap HandlerEvent.told := by
      rw [HandlerRun.journal, HandlerRun.journal, applied.pending, returned, List.filterMap_append, List.append_assoc]
    refine ⟨counted ▸ Nat.le_add_right _ _, fun i channel => ?_⟩
    rw [journal, announced_append, effect_announces effect]
    refine or_congr_right ⟨?_, ?_⟩
    · rintro ⟨opens, rfl, rfl⟩
      exact ⟨callback, proto, rfl, applied.found, opens, rfl, by rw [counted, opens]; rfl⟩
    · rintro ⟨_, other, ⟨⟩, found, opens, rfl, _⟩
      cases applied.found.symm.trans found
      exact ⟨opens, rfl, rfl⟩
  | none =>
    have channels : r'.handler.channels = r.handler.channels := by
      rcases quiet_turn made step with ⟨event, rest, _, rfl⟩ | ⟨_, _, _, _, rfl⟩
      · unfold HandlerRun.take
        split <;> rfl
      · rfl
    refine ⟨channels ▸ Nat.le_refl _, fun i channel => ?_⟩
    have nothing : Announced r'.journal i channel ↔ Announced r.journal i channel := by
      rcases quiet_produced made step with ⟨_, _, kept⟩ | ⟨_, _, _, _, direct, _, _, _, grown⟩
      · rw [kept]
      · rw [grown, announced_append, or_iff_left (direct_announces direct i channel)]
    rw [nothing]
    exact (or_iff_left (by rintro ⟨_, _, ⟨⟩, _⟩)).symm

theorem turn_assigned (assigned : Assigned r) (step : r.turn transport l = some r') : Assigned r' := by
  obtain ⟨more, announces⟩ := turn_announces step
  refine ⟨fun i recv' receives => ?_, fun i channel announced => ?_, fun i j channel first second => ?_⟩
  · rw [announces]
    cases turn_renewed step receives with
    | drawn before drawn => exact .inl (drawn.1 ▸ assigned.opened i _ before)
    | @put recv channel message turn before same =>
      have kept : recv'.channel = recv.channel := by
        rw [same, Receiver.send]
        split <;> rfl
      exact .inl (kept ▸ assigned.opened i recv before)
    | @fresh callback proto made found opens same =>
      refine .inr ⟨callback, proto, made, found, opens, by rw [same], ?_⟩
      rw [callback_channels made step found, opens]
      rfl
  · rcases (announces i channel).mp announced with earlier | ⟨_, _, _, _, _, rfl, counted⟩
    · exact (assigned.created i channel earlier).trans more
    · exact Nat.le_of_eq counted.symm
  · rcases (announces i channel).mp first with earlier | ⟨_, _, made, _, _, rfl, _⟩
    · rcases (announces j channel).mp second with earlier' | ⟨_, _, _, _, _, rfl, _⟩
      · exact assigned.unique i j channel earlier earlier'
      · exact absurd (assigned.created i _ earlier) (Nat.not_succ_le_self _)
    · rcases (announces j _).mp second with earlier' | ⟨_, _, made', _⟩
      · exact absurd (assigned.created j _ earlier') (Nat.not_succ_le_self _)
      · exact congrArg Prod.snd (Option.some.inj (made.symm.trans made'))

theorem start_assigned (peer : PeerId) (endpoint : ConnectedPoint PeerId) (data : ProtocolsData) :
    Assigned (⟨.new peer endpoint data, [], []⟩ : HandlerRun PeerId σ) := by
  have unannounced : ∀ i channel, ¬ Announced ([] : List (ToBehavior PeerId)) i channel := by
    rintro i channel ⟨_, _, _, member⟩
    cases member
  refine ⟨?_, fun i channel announced => absurd announced (unannounced i channel),
    fun i _ channel announced => absurd announced (unannounced i channel)⟩
  rintro (_ | _ | i) recv ⟨proto, inbound, outbound, found, opened⟩
  all_goals cases found
  all_goals cases opened

end Announcements

section Stale
variable {PeerId σ ω : Type} {transport : Transport σ ω}

/-- Nobody receives from this channel any more. -/
def Stale (r : HandlerRun PeerId σ) (channel : Nat) : Prop :=
  channel ≤ r.handler.channels ∧ ∀ i recv, Receives r.handler.protocols i recv → recv.channel ≠ channel

theorem turn_stale {r r' : HandlerRun PeerId σ} {l : HandlerTurn σ ω} {channel : Nat} (stale : Stale r channel)
    (step : r.turn transport l = some r') :
    Stale r' channel ∧ ∀ note ∈ turnNotes transport r l r', note.channel ≠ channel := by
  obtain ⟨created, closed⟩ := stale
  refine ⟨⟨created.trans (turn_announces step).1, fun i recv' receives => ?_⟩, fun note member => ?_⟩
  · cases turn_renewed step receives with
    | drawn before drawn => exact drawn.1 ▸ closed i _ before
    | @put recv other message turn before same =>
      have kept : recv'.channel = recv.channel := by
        rw [same, Receiver.send]
        split <;> rfl
      exact kept ▸ closed i recv before
    | fresh made found opens same =>
      rw [same]
      exact (Nat.lt_succ_of_le created).ne'
  · unfold turnNotes at member
    split at member
    · obtain ⟨i, recv, receives, own, _⟩ := poll_rounds_drawn r.handler _ note member
      exact own ▸ closed i recv receives
    · rename_i other message
      split at member
      · rename_i held
        obtain ⟨proto, at_proto, same⟩ := List.any_eq_true.mp held
        obtain ⟨recv, inbound, outbound, opened, rfl⟩ := channel_opened (of_decide_eq_true same)
        obtain ⟨i, found⟩ := List.mem_iff_getElem?.mp at_proto
        cases List.mem_singleton.mp member
        exact closed i recv ⟨proto, inbound, outbound, found, opened⟩
      · cases member
    · cases member

/-- A sender whose period is over is useless: however the run goes on, no
message is put into its channel, and none is taken out of it or accepted. -/
theorem stale_channel_silent {peer : PeerId} {endpoint : ConnectedPoint PeerId} {data : ProtocolsData}
    {r : HandlerRun PeerId σ} {channel : Nat} (stale : Stale r channel) (turns : List (HandlerTurn σ ω)) :
    ∀ note ∈ (handlerRuns transport peer endpoint data).traceFrom (turnNotes transport) r turns,
      note.channel ≠ channel := by
  induction turns generalizing r with
  | nil => exact nofun
  | cons l turns ih =>
    unfold Machine.traceFrom
    split
    · rename_i r' step
      obtain ⟨later, silent⟩ := turn_stale stale step
      exact List.forall_mem_append.mpr ⟨silent, ih later⟩
    · exact nofun

/-- A protocol opens, is closed and opens again: the first channel stays unused. -/
theorem reopened_channel_silent : ∃ r : HandlerRun Nat Unit,
    (handlerRuns .flushing 7 (.listener [] []) .zero).replay (delivery ++ [.command (.close 0)]) = some r ∧
      ∀ note ∈ (handlerRuns .flushing 7 (.listener [] []) .zero).traceFrom (turnNotes .flushing) r
        [.command (.open 0), .poll true, .poll true, .send 1 [5], .poll true], note.channel ≠ 1 := by
  have ran : ((handlerRuns .flushing (7 : Nat) (.listener [] []) .zero).replay (delivery ++ [.command (.close 0)])).map
      (fun r => (r.handler.channels, r.handler.protocols.map fun proto => proto.state.channel)) =
        some (1, [none, none]) := by
    decide +kernel
  obtain ⟨r, run, seen⟩ := Option.map_eq_some_iff.mp ran
  obtain ⟨created, shut⟩ := Prod.mk.inj seen
  refine ⟨r, run, stale_channel_silent ⟨Nat.le_of_eq created.symm, ?_⟩ _⟩
  rintro i recv ⟨proto, inbound, outbound, found, opened⟩ _
  have member : proto.state.channel ∈ r.handler.protocols.map fun proto => proto.state.channel :=
    List.mem_map_of_mem (List.mem_of_getElem? found)
  rw [shut, opened] at member
  simp [State.channel] at member

end Stale
end Subp2pExplorer.Notifications
